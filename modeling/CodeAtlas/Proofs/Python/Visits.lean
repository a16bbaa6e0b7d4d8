import CodeAtlas.Python.Outline

/-!
# The walk behind an outline, visit by visit

An outline is made by a walk through a tree. A visit of a node adds some entries of its own and then
visits other nodes, each in some scope. This module says once what one visit does, so that a fact
about all outlines needs one step only.

* `Tree.ownEntries`, `Tree.visits`: the entries of a visit, and the visits that follow from it.
* `outline_eq`: an outline is the entries of the visit of its root, and then the outlines of the
  visits that follow, in their order.
* `visit_induction`: visits lead downwards, so what holds of a visit if it holds of those that
  follow from it holds of all visits.
-/

namespace CodeAtlas.Python

namespace Tree

/-- A node is the return annotation of its parent. -/
def isReturn (t : Tree) : Bool := t.role == some .returnType

def isDecorator (t : Tree) : Bool := t.kind == .phrase .decorator

/-- A node has the kind of a class or a function. -/
def isDefinition (t : Tree) : Bool :=
  t.kind == .phrase .classDefinition || t.kind == .phrase .functionDefinition

/-- A node is the definition that its parent decorates. -/
def isDecoratedPart (t : Tree) : Bool := t.role == some .definition

def isDecorated (t : Tree) : Bool := t.kind == .phrase .decoratedDefinition

def isCall (t : Tree) : Bool := t.kind == .phrase .call

/-- What a visit of a definition visits: the named children without the return annotation. -/
def parts (t : Tree) : List Tree := (t.children.eraseP isReturn).filter isNamed

/-- The return annotation of a definition, as a list of at most one node. -/
def returnParts (t : Tree) : List Tree := (t.children.find? isReturn).toList

def decorators (t : Tree) : List Tree := t.children.filter isDecorator

/-- The node that a visit records as a definition: a class or function itself, or the definition
that is decorated. -/
def recorded? (t : Tree) : Option Tree :=
  if t.isDefinition then some t
  else if t.isDecorated then t.child? .definition
  else none

/-- What a visit adds by itself. -/
def ownEntries (file : String) (scope : Scope) (t : Tree) : List Entry :=
  match t.recorded?.bind Definition.ofTree? with
  | some d => d.entries file scope
  | none => if t.isCall then callEntries file scope t else []

/-- The visits that follow from a visit, each with its scope. -/
def visits (scope : Scope) (t : Tree) : List (Scope × Tree) :=
  match t.recorded? with
  | some r =>
    match Definition.ofTree? r with
    | some d =>
      (r.parts ++ (if t.isDecorated then t.decorators else []) ++ r.returnParts).map
        (scope.enter d.name, ·)
    | none => t.namedChildren.map (scope, ·)
  | none => t.namedChildren.map (scope, ·)

/-! ## The two kinds of visits -/

section

variable {file : String} {scope : Scope} {t r : Tree} {d : Definition}

theorem isDecorated_eq_false_of_isDefinition (h : t.isDefinition = true) :
    t.isDecorated = false := by
  simp only [isDefinition, Bool.or_eq_true, beq_iff_eq] at h
  rcases h with kind | kind <;> simp [isDecorated, kind]

theorem isCall_eq_false_of_isDefinition (h : t.isDefinition = true) : t.isCall = false := by
  simp only [isDefinition, Bool.or_eq_true, beq_iff_eq] at h
  rcases h with kind | kind <;> simp [isCall, kind]

theorem isCall_eq_false_of_isDecorated (h : t.isDecorated = true) : t.isCall = false := by
  simp only [isDecorated, beq_iff_eq] at h
  simp [isCall, h]

theorem recorded?_of_isDefinition (h : t.isDefinition = true) : t.recorded? = some t := by
  rw [recorded?, if_pos h]

theorem recorded?_of_isDecorated (h : t.isDecorated = true) :
    t.recorded? = t.child? .definition := by
  have undefined : ¬ t.isDefinition = true := by
    intro h'
    simp [isDecorated_eq_false_of_isDefinition h'] at h
  rw [recorded?, if_neg undefined, if_pos h]

theorem ownEntries_of_some (hr : t.recorded? = some r) (hd : Definition.ofTree? r = some d) :
    t.ownEntries file scope = d.entries file scope := by
  rw [ownEntries, hr, Option.bind_some, hd]

theorem ownEntries_of_none (h : t.recorded?.bind Definition.ofTree? = none) :
    t.ownEntries file scope = if t.isCall then callEntries file scope t else [] := by
  rw [ownEntries, h]

theorem visits_of_some (hr : t.recorded? = some r) (hd : Definition.ofTree? r = some d) :
    t.visits scope =
      (r.parts ++ (if t.isDecorated then t.decorators else []) ++ r.returnParts).map
        (scope.enter d.name, ·) := by
  simp only [visits, hr, hd]

theorem visits_of_none (h : t.recorded?.bind Definition.ofTree? = none) :
    t.visits scope = t.namedChildren.map (scope, ·) := by
  unfold visits
  cases hr : t.recorded? with
  | none => rfl
  | some r =>
    rw [hr, Option.bind_some] at h
    simp only [h]

end

end Tree

/-! ## Lists of trees -/

namespace VisitsLemmas

variable (file : String) (scope : Scope)

theorem outlineNamed_eq (ts : List Tree) :
    outlineNamed file scope ts = (ts.filter Tree.isNamed).flatMap (outline file scope) := by
  induction ts with
  | nil => rw [outlineNamed, List.filter_nil, List.flatMap_nil]
  | cons t ts ih =>
    rw [outlineNamed, ih, List.filter_cons]
    split
    · rw [List.flatMap_cons]
    · rw [List.nil_append]

theorem outlineParts_true (ts : List Tree) :
    outlineParts file scope true ts = outlineNamed file scope ts := by
  induction ts with
  | nil => rw [outlineParts, outlineNamed]
  | cons t ts ih =>
    rw [outlineParts, outlineNamed, ih, Bool.not_true, Bool.false_and, if_neg (by simp)]

theorem outlineParts_false (ts : List Tree) :
    outlineParts file scope false ts =
      ((ts.eraseP Tree.isReturn).filter Tree.isNamed).flatMap (outline file scope) := by
  induction ts with
  | nil => rw [outlineParts, List.eraseP_nil, List.filter_nil, List.flatMap_nil]
  | cons t ts ih =>
    rw [outlineParts, Bool.not_false, Bool.true_and]
    split
    · next h =>
      have here : t.isReturn = true := h
      rw [outlineParts_true, outlineNamed_eq, List.eraseP_cons_of_pos here]
    · next h =>
      have elsewhere : ¬ t.isReturn = true := h
      rw [ih, List.eraseP_cons_of_neg elsewhere, List.filter_cons]
      split
      · rw [List.flatMap_cons]
      · rw [List.nil_append]

theorem outlineReturn_eq (ts : List Tree) :
    outlineReturn file scope ts =
      (ts.find? Tree.isReturn).toList.flatMap (outline file scope) := by
  induction ts with
  | nil => rw [outlineReturn, List.find?_nil, Option.toList_none, List.flatMap_nil]
  | cons t ts ih =>
    rw [outlineReturn]
    split
    · next h =>
      have here : t.isReturn = true := h
      rw [List.find?_cons_of_pos here, Option.toList_some, List.flatMap_singleton]
    · next h =>
      have elsewhere : ¬ t.isReturn = true := h
      rw [ih, List.find?_cons_of_neg elsewhere]

theorem outlineDecorators_eq (ts : List Tree) :
    outlineDecorators file scope ts =
      (ts.filter Tree.isDecorator).flatMap (outline file scope) := by
  induction ts with
  | nil => rw [outlineDecorators, List.filter_nil, List.flatMap_nil]
  | cons t ts ih =>
    rw [outlineDecorators, ih, List.filter_cons]
    show (if t.isDecorator then _ else _) ++ _ = _
    split
    · rw [List.flatMap_cons]
    · rw [List.nil_append]

theorem outlineDefinitionParts_eq {ts : List Tree} {r : Tree}
    (h : ts.find? Tree.isDecoratedPart = some r) :
    outlineDefinitionParts file scope ts = r.parts.flatMap (outline file scope) := by
  induction ts with
  | nil => contradiction
  | cons t ts ih =>
    obtain ⟨info, children⟩ := t
    rw [outlineDefinitionParts]
    split
    · next hr =>
      have here : (Tree.node info children).isDecoratedPart = true := hr
      rw [List.find?_cons_of_pos here, Option.some.injEq] at h
      subst h
      exact outlineParts_false file scope children
    · next hr =>
      have elsewhere : ¬ (Tree.node info children).isDecoratedPart = true := hr
      rw [List.find?_cons_of_neg elsewhere] at h
      exact ih h

theorem outlineDefinitionReturn_eq {ts : List Tree} {r : Tree}
    (h : ts.find? Tree.isDecoratedPart = some r) :
    outlineDefinitionReturn file scope ts = r.returnParts.flatMap (outline file scope) := by
  induction ts with
  | nil => contradiction
  | cons t ts ih =>
    obtain ⟨info, children⟩ := t
    rw [outlineDefinitionReturn]
    split
    · next hr =>
      have here : (Tree.node info children).isDecoratedPart = true := hr
      rw [List.find?_cons_of_pos here, Option.some.injEq] at h
      subst h
      exact outlineReturn_eq file scope children
    · next hr =>
      have elsewhere : ¬ (Tree.node info children).isDecoratedPart = true := hr
      rw [List.find?_cons_of_neg elsewhere] at h
      exact ih h

variable {file scope}

/-! ## Kinds of nodes -/

theorem outline_definition {t : Tree} (h : t.isDefinition = true) :
    outline file scope t =
      match Definition.ofTree? t with
      | some d =>
        d.entries file scope ++
          (t.parts ++ t.returnParts).flatMap (outline file (scope.enter d.name))
      | none => t.namedChildren.flatMap (outline file scope) := by
  obtain ⟨info, children⟩ := t
  have kind : info.kind = .phrase .classDefinition ∨ info.kind = .phrase .functionDefinition := by
    simpa [Tree.isDefinition, Tree.kind, Tree.info] using h
  have named : outlineNamed file scope children =
      (Tree.node info children).namedChildren.flatMap (outline file scope) :=
    outlineNamed_eq file scope children
  rcases kind with kind | kind
  all_goals
    rw [outline, kind]
    cases hd : Definition.ofTree? (.node info children) with
    | none => exact named
    | some d =>
      simp only [outlineParts_false, outlineReturn_eq, List.flatMap_append, List.append_assoc]
      rfl

theorem outline_decorated {t : Tree} (h : t.isDecorated = true) :
    outline file scope t =
      match t.child? .definition with
      | none => t.namedChildren.flatMap (outline file scope)
      | some r =>
        match Definition.ofTree? r with
        | some d =>
          d.entries file scope ++
            (r.parts ++ t.decorators ++ r.returnParts).flatMap (outline file (scope.enter d.name))
        | none => t.namedChildren.flatMap (outline file scope) := by
  obtain ⟨info, children⟩ := t
  have kind : info.kind = .phrase .decoratedDefinition := by
    simpa [Tree.isDecorated, Tree.kind, Tree.info] using h
  have named : outlineNamed file scope children =
      (Tree.node info children).namedChildren.flatMap (outline file scope) :=
    outlineNamed_eq file scope children
  rw [outline, kind]
  show (match (children.find? Tree.isDecoratedPart).bind Definition.ofTree? with
    | some d => _
    | none => _) = match children.find? Tree.isDecoratedPart with
    | none => _
    | some r => _
  cases hr : children.find? Tree.isDecoratedPart with
  | none => exact named
  | some r =>
    dsimp only [Option.bind_some]
    cases hd : Definition.ofTree? r with
    | none => exact named
    | some d =>
      simp only [outlineDefinitionParts_eq file _ hr, outlineDefinitionReturn_eq file _ hr,
        outlineDecorators_eq, List.flatMap_append, List.append_assoc]
      rfl

theorem outline_other {t : Tree} (h : t.isDefinition = false) (h' : t.isDecorated = false) :
    outline file scope t =
      (if t.isCall then callEntries file scope t else []) ++
        t.namedChildren.flatMap (outline file scope) := by
  obtain ⟨info, children⟩ := t
  have named : outlineNamed file scope children =
      (Tree.node info children).namedChildren.flatMap (outline file scope) :=
    outlineNamed_eq file scope children
  rw [outline]
  split
  · next kind => simp [Tree.isDefinition, Tree.kind, Tree.info, kind] at h
  · next kind => simp [Tree.isDefinition, Tree.kind, Tree.info, kind] at h
  · next kind => simp [Tree.isDecorated, Tree.kind, Tree.info, kind] at h'
  · next kind => rw [named, if_pos (by simp [Tree.isCall, Tree.kind, Tree.info, kind])]
  · next kind => rw [named, if_neg (by simpa [Tree.isCall, Tree.kind, Tree.info] using kind),
      List.nil_append]

end VisitsLemmas

open VisitsLemmas in
/-- What one visit does: its own entries come first, and then the visits that follow from it. -/
theorem outline_eq (file : String) (scope : Scope) (t : Tree) :
    outline file scope t =
      t.ownEntries file scope ++ (t.visits scope).flatMap fun v => outline file v.1 v.2 := by
  cases definition : t.isDefinition with
  | true =>
    have hr := Tree.recorded?_of_isDefinition definition
    rw [outline_definition definition]
    cases hd : Definition.ofTree? t with
    | none =>
      have unnamed : t.recorded?.bind Definition.ofTree? = none := by rw [hr, Option.bind_some, hd]
      rw [Tree.ownEntries_of_none unnamed, Tree.visits_of_none unnamed]
      simp [Tree.isCall_eq_false_of_isDefinition definition, List.flatMap_map]
    | some d =>
      rw [Tree.ownEntries_of_some hr hd, Tree.visits_of_some hr hd]
      simp [Tree.isDecorated_eq_false_of_isDefinition definition, List.flatMap_map]
  | false =>
    cases decorated : t.isDecorated with
    | true =>
      have hr := Tree.recorded?_of_isDecorated decorated
      have nocall := Tree.isCall_eq_false_of_isDecorated decorated
      rw [outline_decorated decorated]
      cases hc : t.child? .definition with
      | none =>
        rw [hc] at hr
        have unnamed : t.recorded?.bind Definition.ofTree? = none := by rw [hr, Option.bind_none]
        rw [Tree.ownEntries_of_none unnamed, Tree.visits_of_none unnamed]
        simp [nocall, List.flatMap_map]
      | some r =>
        rw [hc] at hr
        dsimp only
        cases hd : Definition.ofTree? r with
        | none =>
          have unnamed : t.recorded?.bind Definition.ofTree? = none := by
            rw [hr, Option.bind_some, hd]
          rw [Tree.ownEntries_of_none unnamed, Tree.visits_of_none unnamed]
          simp [nocall, List.flatMap_map]
        | some d =>
          rw [Tree.ownEntries_of_some hr hd, Tree.visits_of_some hr hd]
          simp [decorated, List.flatMap_map]
    | false =>
      have unnamed : t.recorded?.bind Definition.ofTree? = none := by
        rw [Tree.recorded?, if_neg (by simp [definition]), if_neg (by simp [decorated]),
          Option.bind_none]
      rw [outline_other definition decorated, Tree.ownEntries_of_none unnamed,
        Tree.visits_of_none unnamed, List.flatMap_map]

/-! ## Induction -/

theorem Tree.sizeOf_lt_of_mem_children {t c : Tree} (h : c ∈ t.children) : sizeOf c < sizeOf t := by
  obtain ⟨info, children⟩ := t
  have := List.sizeOf_lt_of_mem h
  simp only [Tree.children, Tree.node.sizeOf_spec] at *
  omega

theorem Tree.child_induction {P : Tree → Prop} (step : ∀ t, (∀ c ∈ t.children, P c) → P t)
    (t : Tree) : P t :=
  step t fun c h =>
    have := Tree.sizeOf_lt_of_mem_children h
    Tree.child_induction step c
termination_by sizeOf t

namespace VisitsLemmas

theorem mem_children_of_mem_parts {t c : Tree} (h : c ∈ t.parts) : c ∈ t.children :=
  List.mem_of_mem_eraseP (List.mem_filter.mp h).1

theorem mem_children_of_mem_returnParts {t c : Tree} (h : c ∈ t.returnParts) : c ∈ t.children :=
  List.mem_of_find?_eq_some (Option.mem_toList.mp h)

theorem mem_children_of_mem_decorators {t c : Tree} (h : c ∈ t.decorators) : c ∈ t.children :=
  (List.mem_filter.mp h).1

end VisitsLemmas

open VisitsLemmas in
/-- Visits lead downwards: to a child, or to a child of the definition that is decorated. -/
theorem Tree.sizeOf_lt_of_mem_visits {scope : Scope} {t : Tree} {v : Scope × Tree}
    (h : v ∈ t.visits scope) : sizeOf v.2 < sizeOf t := by
  cases hd : t.recorded?.bind Definition.ofTree? with
  | none =>
    rw [visits_of_none hd] at h
    obtain ⟨c, hc, rfl⟩ := List.mem_map.mp h
    exact sizeOf_lt_of_mem_children (List.mem_filter.mp hc).1
  | some d =>
    obtain ⟨r, hr, hd⟩ := Option.bind_eq_some_iff.mp hd
    have below : sizeOf r ≤ sizeOf t := by
      unfold Tree.recorded? at hr
      split at hr
      · exact Nat.le_of_eq (congrArg sizeOf (Option.some.inj hr).symm)
      · split at hr
        · exact Nat.le_of_lt (sizeOf_lt_of_mem_children (List.mem_of_find?_eq_some hr))
        · contradiction
    rw [visits_of_some hr hd] at h
    obtain ⟨c, hc, rfl⟩ := List.mem_map.mp h
    simp only [List.mem_append] at hc
    rcases hc with (hc | hc) | hc
    · have child := mem_children_of_mem_parts hc
      exact Nat.lt_of_lt_of_le (sizeOf_lt_of_mem_children child) below
    · split at hc
      · exact sizeOf_lt_of_mem_children (mem_children_of_mem_decorators hc)
      · exact absurd hc List.not_mem_nil
    · have child := mem_children_of_mem_returnParts hc
      exact Nat.lt_of_lt_of_le (sizeOf_lt_of_mem_children child) below

/-- What holds of a visit whenever it holds of the visits that follow from it holds of all. -/
theorem visit_induction {P : Scope → Tree → Prop}
    (step : ∀ scope t, (∀ v ∈ t.visits scope, P v.1 v.2) → P scope t) (scope : Scope) (t : Tree) :
    P scope t :=
  step scope t fun v h =>
    have := Tree.sizeOf_lt_of_mem_visits h
    visit_induction step v.1 v.2
termination_by sizeOf t

end CodeAtlas.Python
