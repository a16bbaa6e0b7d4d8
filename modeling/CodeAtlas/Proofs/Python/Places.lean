import CodeAtlas.Proofs.Graph.Entries
import CodeAtlas.Proofs.Python.Visits
import CodeAtlas.Proofs.Scope
import Mathlib.Data.List.Perm.Basic

/-!
# Every place of a tree, once and in its scope

The relationships of an outline, said without a walk. A place of a tree is one of its nodes together
with the nodes above it. The definitions above a place give its scope: each definition encloses all
that is below it, and a decorated one encloses its decorators as well.

* Each call of a plain name gives one pair of its scope's owner and the name (`callsOf`).
* Each named class or function gives one pair of its scope's owner and its full name
  (`containmentsOf`).
* Each plain name among the bases of a named class gives one pair of the class's full name and that
  name (`inheritancesOf`).

The walk takes other ways: it leaves out anonymous nodes, goes through decorators behind the body
and through the return annotation last, and passes over the rest of a decorated definition. For the
trees of the grammar (`Grammatical`) nothing is lost, nothing is recorded twice and no scope is
wrong: `outline_perm` says so for all entries, `relationships_outline_perm` for each kind of
relationship, and `nodeIds_outline_perm` for the ids of the nodes.
-/

namespace CodeAtlas.Python

namespace Tree

/-! ## Places -/

/-- A node of a tree, with the nodes above it from the root down. -/
structure Place where
  above : List Tree
  node : Tree

mutual
/-- The places of a tree in pre-order, given what is above it. -/
def places (above : List Tree) : Tree → List Place
  | .node info children =>
    ⟨above, .node info children⟩ :: placesAll (above ++ [.node info children]) children
/-- The places of a list of trees, one tree after the other. -/
def placesAll (above : List Tree) : List Tree → List Place
  | [] => []
  | t :: ts => t.places above ++ placesAll above ts
end

/-- The name of a class or function, if it has one. -/
def definedName? (t : Tree) : Option String :=
  if t.isDefinition then ((t.child? .name).map text).filter (!·.isEmpty) else none

/-- The name of the definition that a node sets around one of its children. A definition encloses
all its children; a decorated one encloses its decorators by the definition that they decorate. -/
def nameAround? (t child : Tree) : Option String :=
  if t.isDecorated && child.isDecorator then (t.child? .definition).bind definedName?
  else t.definedName?

/-- The names of the definitions around a node, outermost first. -/
def namesAround : List Tree → Tree → List String
  | [], _ => []
  | t :: rest, x => (t.nameAround? (rest.headD x)).toList ++ namesAround rest x

namespace Place

def names (p : Place) : List String := namesAround p.above p.node

/-- The definition that a place belongs to, or the file if there is none. -/
def owner (p : Place) (file : String) : String :=
  if p.names.isEmpty then file else ".".intercalate p.names

/-- The full name of a definition at a place. -/
def qualified (p : Place) (name : String) : String := ".".intercalate (p.names ++ [name])

end Place

end Tree

/-- The full names of the named classes and functions, one for each of them. -/
def Tree.fullNames (t : Tree) : List String :=
  (t.places []).filterMap fun p => p.node.definedName?.map p.qualified

/-- One pair for each call of a plain name. -/
def callsOf (file : String) (t : Tree) : List Relationship :=
  (t.places []).filterMap fun p =>
    if p.node.isCall then
      ((p.node.child? .function).filter (·.kind == .token .identifier)).map
        fun callee => ⟨p.owner file, callee.text⟩
    else none

/-- One pair for each named class or function. -/
def containmentsOf (file : String) (t : Tree) : List Relationship :=
  (t.places []).filterMap fun p =>
    p.node.definedName?.map fun name => ⟨p.owner file, p.qualified name⟩

/-- One pair for each plain name among the bases of each named class. -/
def inheritancesOf (t : Tree) : List Relationship :=
  (t.places []).flatMap fun p =>
    if p.node.kind == .phrase .classDefinition then
      p.node.definedName?.toList.flatMap fun name =>
        (((p.node.child? .superclasses).toList.flatMap Tree.namedChildren).filter
          (·.kind == .token .identifier)).map fun base => ⟨p.qualified name, base.text⟩
    else []

/-! ## Trees of the grammar -/

namespace Tree

/-- Nodes that may be recorded: calls, classes and functions. -/
def isRecorded (t : Tree) : Bool := t.isCall || t.isDefinition

/-- No node of a tree may be recorded. -/
def Plain (t : Tree) : Prop := ∀ s ∈ t.nodes, s.isRecorded = false

instance (t : Tree) : Decidable t.Plain :=
  inferInstanceAs (Decidable (∀ s ∈ t.nodes, s.isRecorded = false))

end Tree

/-- What the grammar promises of its trees. Anonymous nodes are keywords, operators and delimiters.
A decorated definition is made of decorators, one class or function, and perhaps comments. -/
structure Grammatical (t : Tree) : Prop where
  anonymous : ∀ s ∈ t.nodes, s.isNamed = false → s.Plain
  definition : ∀ s ∈ t.nodes, s.isDecorated = true →
    (s.child? .definition).all Tree.isDefinition = true
  decoration : ∀ s ∈ t.nodes, s.isDecorated = true →
    ∀ c ∈ s.children.eraseP Tree.isDecoratedPart, c.isDecorator = true ∨ c.Plain

instance (t : Tree) : Decidable (Grammatical t) :=
  decidable_of_iff
    ((∀ s ∈ t.nodes, s.isNamed = false → s.Plain) ∧
      (∀ s ∈ t.nodes, s.isDecorated = true →
        (s.child? .definition).all Tree.isDefinition = true) ∧
      ∀ s ∈ t.nodes, s.isDecorated = true →
        ∀ c ∈ s.children.eraseP Tree.isDecoratedPart, c.isDecorator = true ∨ c.Plain)
    ⟨fun h => ⟨h.1, h.2.1, h.2.2⟩, fun h => ⟨h.anonymous, h.definition, h.decoration⟩⟩

/-! ## Lists of places and nodes -/

namespace PlacesLemmas

open CodeAtlas.Python.Tree

theorem placesAll_eq (above ts : List Tree) : placesAll above ts = ts.flatMap (places above) := by
  induction ts with
  | nil => rw [placesAll, List.flatMap_nil]
  | cons t ts ih => rw [placesAll, ih, List.flatMap_cons]

theorem places_eq (above : List Tree) (t : Tree) :
    t.places above = ⟨above, t⟩ :: t.children.flatMap (places (above ++ [t])) := by
  obtain ⟨info, children⟩ := t
  rw [places, placesAll_eq]
  rfl

theorem nodesAll_eq (ts : List Tree) : nodesAll ts = ts.flatMap nodes := by
  induction ts with
  | nil => rw [nodesAll, List.flatMap_nil]
  | cons t ts ih => rw [nodesAll, ih, List.flatMap_cons]

theorem nodes_eq (t : Tree) : t.nodes = t :: t.children.flatMap nodes := by
  obtain ⟨info, children⟩ := t
  rw [nodes, nodesAll_eq]
  rfl

theorem mem_nodes_self (t : Tree) : t ∈ t.nodes := by
  rw [nodes_eq]
  exact List.mem_cons_self

theorem mem_nodes_of_child {t c s : Tree} (hc : c ∈ t.children) (hs : s ∈ c.nodes) :
    s ∈ t.nodes := by
  rw [nodes_eq]
  exact List.mem_cons_of_mem _ (List.mem_flatMap.mpr ⟨c, hc, hs⟩)

theorem plain_child {t c : Tree} (h : t.Plain) (hc : c ∈ t.children) : c.Plain :=
  fun s hs => h s (mem_nodes_of_child hc hs)

theorem grammatical_child {t c : Tree} (h : Grammatical t) (hc : c ∈ t.children) :
    Grammatical c where
  anonymous s hs := h.anonymous s (mem_nodes_of_child hc hs)
  definition s hs := h.definition s (mem_nodes_of_child hc hs)
  decoration s hs := h.decoration s (mem_nodes_of_child hc hs)

/-- The names around a child are those around its parent and the one that the parent adds. -/
theorem namesAround_concat (above : List Tree) (t c : Tree) :
    namesAround (above ++ [t]) c = namesAround above t ++ (t.nameAround? c).toList := by
  induction above with
  | nil => simp [namesAround]
  | cons a above ih =>
    have next : (above ++ [t]).headD c = above.headD t := by cases above <;> rfl
    rw [List.cons_append, namesAround, ih, namesAround, next, List.append_assoc]

theorem definedName?_eq {t : Tree} (h : t.isDefinition = true) :
    t.definedName? = (Definition.ofTree? t).map (·.name) := by
  rw [definedName?, if_pos h, Definition.ofTree?]
  cases t.child? .name with
  | none => rfl
  | some name =>
    by_cases empty : name.text = ""
    · simp [empty]
    · by_cases kind : (t.kind == .phrase .classDefinition) = true <;>
        simp [empty, kind]

/-! ## Entries of places -/

/-- What a place adds to the graph. -/
def entriesAt (file : String) (p : Place) : List Entry :=
  if p.node.isDefinition then
    match Definition.ofTree? p.node with
    | some d => d.entries file ⟨p.names⟩
    | none => []
  else if p.node.isCall then callEntries file ⟨p.names⟩ p.node
  else []

/-- What all places of a tree add. -/
def entriesBelow (file : String) (above : List Tree) (t : Tree) : List Entry :=
  (t.places above).flatMap (entriesAt file)

variable {file : String}

theorem entriesBelow_eq (above : List Tree) (t : Tree) :
    entriesBelow file above t =
      entriesAt file ⟨above, t⟩ ++ t.children.flatMap (entriesBelow file (above ++ [t])) := by
  rw [entriesBelow, places_eq, List.flatMap_cons, List.flatMap_assoc]
  rfl

theorem entriesBelow_of_plain {t : Tree} (h : t.Plain) (above : List Tree) :
    entriesBelow file above t = [] := by
  induction t using Tree.child_induction generalizing above with
  | step t ih =>
    have own : t.isRecorded = false := h t (mem_nodes_self t)
    simp only [isRecorded, Bool.or_eq_false_iff] at own
    rw [entriesBelow_eq, entriesAt, if_neg (by simp [own.2]), if_neg (by simp [own.1]),
      List.nil_append, List.flatMap_eq_nil_iff]
    intro c hc
    exact ih c hc (plain_child h hc) _

/-! ## Permutations -/

theorem find?_append_eraseP_perm {α : Type} (p : α → Bool) (l : List α) :
    ((l.find? p).toList ++ l.eraseP p).Perm l := by
  induction l with
  | nil => exact .refl _
  | cons a l ih =>
    by_cases h : p a = true
    · rw [List.find?_cons_of_pos h, List.eraseP_cons_of_pos h]
      exact .refl _
    · rw [List.find?_cons_of_neg h, List.eraseP_cons_of_neg h]
      exact List.perm_middle.trans (ih.cons a)

/-- Elements that give nothing may be left out. -/
theorem flatMap_filter_eq {α β : Type} {p : α → Bool} {l : List α} {f : α → List β}
    (h : ∀ a ∈ l, p a = false → f a = []) : (l.filter p).flatMap f = l.flatMap f := by
  induction l with
  | nil => rfl
  | cons a l ih =>
    have rest := ih fun b hb => h b (List.mem_cons_of_mem _ hb)
    rw [List.filter_cons, List.flatMap_cons]
    split
    · rw [List.flatMap_cons, rest]
    · next hp => rw [rest, h a List.mem_cons_self (by simpa using hp), List.nil_append]

/-- The order in which the parts of a definition are visited does not matter. -/
theorem flatMap_parts_perm {r : Tree} {f g : Tree → List Entry}
    (same : ∀ c ∈ r.parts ++ r.returnParts, (f c).Perm (g c))
    (anonymous : ∀ c ∈ r.children, c.isNamed = false → g c = []) :
    ((r.parts ++ r.returnParts).flatMap f).Perm (r.children.flatMap g) := by
  have parts : r.parts.flatMap g = (r.children.eraseP isReturn).flatMap g :=
    flatMap_filter_eq fun c hc => anonymous c (List.mem_of_mem_eraseP hc)
  have order : (r.children.eraseP isReturn ++ r.returnParts).Perm r.children :=
    List.perm_append_comm.trans (find?_append_eraseP_perm isReturn r.children)
  refine (List.Perm.flatMap_left _ same).trans ?_
  rw [List.flatMap_append, parts, ← List.flatMap_append]
  exact order.flatMap_right g

/-! ## Visits -/

/-- A visit in the scope of its place adds what the places below add. -/
def InPlace (file : String) (scope : Scope) (t : Tree) : Prop :=
  ∀ above, scope.names = namesAround above t → Grammatical t →
    (outline file scope t).Perm (entriesBelow file above t)

variable {scope : Scope} {t r : Tree} {d : Definition} {above : List Tree}

/-- A place gives nothing if no node there may be recorded. -/
theorem places_anonymous {c : Tree} (ht : Grammatical t) (hc : c ∈ t.children)
    (anonymous : c.isNamed = false) : entriesBelow file above c = [] :=
  entriesBelow_of_plain
    (ht.anonymous c (mem_nodes_of_child hc (mem_nodes_self c)) anonymous) above

theorem nameAround?_definition (kind : r.isDefinition = true)
    (hd : Definition.ofTree? r = some d) (c : Tree) : r.nameAround? c = some d.name := by
  rw [nameAround?, isDecorated_eq_false_of_isDefinition kind, Bool.false_and, if_neg (by simp),
    definedName?_eq kind, hd, Option.map_some]

/-- A definition is recorded at its place, and its children are visited in its scope, each once. -/
theorem definition_perm (kind : r.isDefinition = true) (hd : Definition.ofTree? r = some d)
    (hs : scope.names = namesAround above r) (hr : Grammatical r)
    (ih : ∀ c ∈ r.parts ++ r.returnParts, InPlace file (scope.enter d.name) c) :
    (d.entries file scope ++
      (r.parts ++ r.returnParts).flatMap (outline file (scope.enter d.name))).Perm
      (entriesBelow file above r) := by
  have own : entriesAt file ⟨above, r⟩ = d.entries file scope := by
    have here : scope = ⟨namesAround above r⟩ := by rw [← hs]
    rw [entriesAt, if_pos kind, hd, here]
    rfl
  rw [entriesBelow_eq, own]
  refine List.Perm.append_left _ (flatMap_parts_perm ?_ ?_)
  · intro c hc
    have child : c ∈ r.children := by
      rcases List.mem_append.mp hc with hc | hc
      · exact VisitsLemmas.mem_children_of_mem_parts hc
      · exact VisitsLemmas.mem_children_of_mem_returnParts hc
    refine ih c hc (above ++ [r]) ?_ (grammatical_child hr child)
    rw [namesAround_concat, nameAround?_definition kind hd, ← hs]
    rfl
  · intro c hc anonymous
    exact places_anonymous hr hc anonymous

theorem definedName?_eq_none (h : Definition.ofTree? r = none) : r.definedName? = none := by
  cases kind : r.isDefinition with
  | true => rw [definedName?_eq kind, h, Option.map_none]
  | false => rw [definedName?, if_neg (by simp [kind])]

theorem definedName?_of_none (h : t.recorded?.bind Definition.ofTree? = none) :
    t.definedName? = none := by
  cases kind : t.isDefinition with
  | true =>
    rw [recorded?_of_isDefinition kind, Option.bind_some] at h
    exact definedName?_eq_none h
  | false => rw [definedName?, if_neg (by simp [kind])]

/-- A visit that records no definition leaves its scope as it is. -/
theorem nameAround?_of_none (h : t.recorded?.bind Definition.ofTree? = none) (c : Tree) :
    t.nameAround? c = none := by
  unfold nameAround?
  split
  · next decorated =>
    rw [Bool.and_eq_true] at decorated
    rw [recorded?_of_isDecorated decorated.1] at h
    cases hc : t.child? .definition with
    | none => rfl
    | some r =>
      rw [hc, Option.bind_some] at h
      rw [Option.bind_some, definedName?_eq_none h]
  · exact definedName?_of_none h

theorem undefined_perm (h : t.recorded?.bind Definition.ofTree? = none)
    (hs : scope.names = namesAround above t) (ht : Grammatical t)
    (ih : ∀ c ∈ t.namedChildren, InPlace file scope c) :
    ((if t.isCall then callEntries file scope t else []) ++
      t.namedChildren.flatMap (outline file scope)).Perm
      (entriesBelow file above t) := by
  have own : entriesAt file ⟨above, t⟩ = if t.isCall then callEntries file scope t else [] := by
    have here : scope = ⟨namesAround above t⟩ := by rw [← hs]
    rw [entriesAt, here]
    split
    · next kind =>
      rw [recorded?_of_isDefinition kind, Option.bind_some] at h
      rw [h, if_neg (by simp [isCall_eq_false_of_isDefinition kind])]
    · rfl
  rw [entriesBelow_eq, own]
  refine List.Perm.append_left _ ?_
  rw [← flatMap_filter_eq (p := isNamed) fun c hc => places_anonymous ht hc]
  refine List.Perm.flatMap_left _ fun c hc => ?_
  refine ih c hc (above ++ [t]) ?_ (grammatical_child ht (List.mem_filter.mp hc).1)
  rw [namesAround_concat, nameAround?_of_none h, ← hs, Option.toList_none, List.append_nil]

theorem not_isDefinition_of_isDecorated (h : t.isDecorated = true) : t.isDefinition = false := by
  cases kind : t.isDefinition with
  | false => rfl
  | true => simp [isDecorated_eq_false_of_isDefinition kind] at h

theorem not_isDecorator_of_isDefinition (h : t.isDefinition = true) : t.isDecorator = false := by
  simp only [isDefinition, Bool.or_eq_true, beq_iff_eq] at h
  rcases h with kind | kind <;> simp [isDecorator, kind]

/-- A decorated definition sets no name around the definition itself. -/
theorem namesAround_decorated (decorated : t.isDecorated = true) (kind : r.isDefinition = true) :
    namesAround (above ++ [t]) r = namesAround above t := by
  rw [namesAround_concat, nameAround?, not_isDecorator_of_isDefinition kind, Bool.and_false,
    if_neg (by simp), definedName?, if_neg (by simp [not_isDefinition_of_isDecorated decorated]),
    Option.toList_none, List.append_nil]

theorem nameAround?_decorator (decorated : t.isDecorated = true)
    (hr : t.child? .definition = some r) (kind : r.isDefinition = true)
    (hd : Definition.ofTree? r = some d) {c : Tree} (decorator : c.isDecorator = true) :
    t.nameAround? c = some d.name := by
  rw [nameAround?, decorated, decorator, Bool.and_self, if_pos rfl, hr, Option.bind_some,
    definedName?_eq kind, hd, Option.map_some]

theorem children_perm (hr : t.child? .definition = some r) :
    (r :: t.children.eraseP isDecoratedPart).Perm t.children := by
  have order := find?_append_eraseP_perm isDecoratedPart t.children
  rwa [show t.children.find? isDecoratedPart = some r from hr] at order

/-- The decorators are visited in the scope of the definition that they decorate, and the rest of
the children gives nothing. -/
theorem decorators_perm (decorated : t.isDecorated = true) (hr : t.child? .definition = some r)
    (kind : r.isDefinition = true) (hd : Definition.ofTree? r = some d)
    (hs : scope.names = namesAround above t) (ht : Grammatical t)
    (ih : ∀ c ∈ t.decorators, InPlace file (scope.enter d.name) c) :
    (t.decorators.flatMap (outline file (scope.enter d.name))).Perm
      ((t.children.eraseP isDecoratedPart).flatMap (entriesBelow file (above ++ [t]))) := by
  have order := children_perm hr
  have same : ((t.children.eraseP isDecoratedPart).filter isDecorator).Perm t.decorators := by
    have := order.filter isDecorator
    rwa [List.filter_cons_of_neg (by simp [not_isDecorator_of_isDefinition kind])] at this
  have rest : ∀ c ∈ t.children.eraseP isDecoratedPart, c.isDecorator = false →
      entriesBelow file (above ++ [t]) c = [] := by
    intro c hc other
    rcases ht.decoration t (mem_nodes_self t) decorated c hc with h | plain
    · simp [other] at h
    · exact entriesBelow_of_plain plain _
  rw [← flatMap_filter_eq rest]
  refine (same.flatMap_right _).symm.trans (List.Perm.flatMap_left _ fun c hc => ?_)
  have decorator : c.isDecorator = true := (List.mem_filter.mp hc).2
  have child : c ∈ t.children := List.mem_of_mem_eraseP (List.mem_filter.mp hc).1
  refine ih c (same.mem_iff.mp hc) (above ++ [t]) ?_ (grammatical_child ht child)
  rw [namesAround_concat, nameAround?_decorator decorated hr kind hd decorator, ← hs]
  rfl

theorem decorated_perm (decorated : t.isDecorated = true) (hr : t.child? .definition = some r)
    (hd : Definition.ofTree? r = some d) (hs : scope.names = namesAround above t)
    (ht : Grammatical t)
    (ih : ∀ c ∈ r.parts ++ t.decorators ++ r.returnParts, InPlace file (scope.enter d.name) c) :
    (d.entries file scope ++ (r.parts ++ t.decorators ++ r.returnParts).flatMap
      (outline file (scope.enter d.name))).Perm (entriesBelow file above t) := by
  have kind : r.isDefinition = true := by
    have := ht.definition t (mem_nodes_self t) decorated
    rwa [hr, Option.all_some] at this
  have child : r ∈ t.children := List.mem_of_find?_eq_some hr
  have undefined := not_isDefinition_of_isDecorated decorated
  have own : entriesAt file ⟨above, t⟩ = [] := by
    rw [entriesAt, if_neg (by simp [undefined]),
      if_neg (by simp [isCall_eq_false_of_isDecorated decorated])]
  have names : scope.names = namesAround (above ++ [t]) r := by
    rw [namesAround_decorated decorated kind, hs]
  have body := definition_perm kind hd names (grammatical_child ht child) fun c hc => ih c (by
    rcases List.mem_append.mp hc with hc | hc
    · exact List.mem_append_left _ (List.mem_append_left _ hc)
    · exact List.mem_append_right _ hc)
  have decoration := decorators_perm decorated hr kind hd hs ht fun c hc => ih c
    (List.mem_append_left _ (List.mem_append_right _ hc))
  have order := children_perm hr
  have late : (r.parts ++ t.decorators ++ r.returnParts).Perm
      (r.parts ++ r.returnParts ++ t.decorators) := by
    rw [List.append_assoc, List.append_assoc]
    exact List.Perm.append_left _ List.perm_append_comm
  have children := order.flatMap_right (entriesBelow file (above ++ [t]))
  rw [List.flatMap_cons] at children
  rw [entriesBelow_eq, own, List.nil_append]
  refine ((late.flatMap_right _).append_left _).trans ?_
  rw [List.flatMap_append, ← List.append_assoc]
  exact (body.append decoration).trans children

end PlacesLemmas

open PlacesLemmas CodeAtlas.Python.Tree in
/-- What a tree of the grammar adds to the graph is what its places add, in some order. -/
theorem outline_perm (file : String) {t : Tree} (h : Grammatical t) :
    (outline file .module t).Perm (entriesBelow file [] t) := by
  suffices all : ∀ scope t, InPlace file scope t from all .module t [] rfl h
  intro scope t
  induction scope, t using visit_induction with
  | step scope t ih =>
    intro above hs ht
    rw [outline_eq]
    cases hd : t.recorded?.bind Definition.ofTree? with
    | none =>
      rw [visits_of_none hd] at ih ⊢
      rw [ownEntries_of_none hd, List.flatMap_map]
      exact undefined_perm hd hs ht fun c hc => ih (scope, c) (List.mem_map_of_mem hc)
    | some d =>
      obtain ⟨r, hr, hd⟩ := Option.bind_eq_some_iff.mp hd
      rw [visits_of_some hr hd] at ih ⊢
      rw [ownEntries_of_some hr hd, List.flatMap_map]
      have inner : ∀ c ∈ r.parts ++ (if t.isDecorated then t.decorators else []) ++ r.returnParts,
          InPlace file (scope.enter d.name) c :=
        fun c hc => ih (scope.enter d.name, c) (List.mem_map_of_mem hc)
      cases decorated : t.isDecorated with
      | true =>
        rw [recorded?_of_isDecorated decorated] at hr
        rw [decorated] at inner
        exact decorated_perm decorated hr hd hs ht inner
      | false =>
        have kind : t.isDefinition = true := by
          cases kind : t.isDefinition with
          | true => rfl
          | false => simp [recorded?, kind, decorated] at hr
        rw [recorded?_of_isDefinition kind, Option.some.injEq] at hr
        subst hr
        simp only [decorated, Bool.false_eq_true, if_false, List.append_nil] at inner ⊢
        exact definition_perm kind hd hs ht inner

/-! ## Relationships -/

namespace PlacesLemmas

open CodeAtlas.Python.Tree

theorem owner_place (p : Place) (file : String) :
    Scope.owner ⟨p.names⟩ file = p.owner file := rfl

theorem qualify_place (p : Place) (name : String) :
    Scope.qualify ⟨p.names⟩ name = p.qualified name := Scope.qualify_eq _ _

theorem calls_entries (d : Definition) (file : String) (scope : Scope) :
    (d.entries file scope).filterMap (·.relationship? .calls) = [] := by
  simp [Definition.entries, Entry.relationship?]

theorem contains_entries (d : Definition) (file : String) (scope : Scope) :
    (d.entries file scope).filterMap (·.relationship? .contains) =
      [⟨scope.owner file, scope.qualify d.name⟩] := by
  simp [Definition.entries, Entry.relationship?]

theorem inherits_entries (d : Definition) (file : String) (scope : Scope) :
    (d.entries file scope).filterMap (·.relationship? .inherits) =
      d.bases.map fun base => ⟨scope.qualify d.name, base⟩ := by
  simp [Definition.entries, Entry.relationship?, List.filterMap_map]

theorem callEntries_eq (file : String) (scope : Scope) (t : Tree) :
    callEntries file scope t =
      (((t.child? .function).filter (·.kind == .token .identifier)).map fun callee =>
        .relationship .calls ⟨scope.owner file, callee.text⟩).toList := by
  unfold callEntries
  cases t.child? .function with
  | none => rfl
  | some callee =>
    rw [Option.filter_some]
    dsimp only
    split <;> rfl

theorem bases_of_ofTree? {t : Tree} {d : Definition} (h : Definition.ofTree? t = some d) :
    d.bases = if t.kind == .phrase .classDefinition then Definition.basesOf t else [] := by
  unfold Definition.ofTree? at h
  split at h
  · contradiction
  · split at h
    · contradiction
    · split at h
      · next kind => rw [← Option.some.inj h, if_pos kind]
      · next kind => rw [← Option.some.inj h, if_neg kind]

theorem basesOf_eq (t : Tree) :
    Definition.basesOf t =
      (((t.child? .superclasses).toList.flatMap namedChildren).filter
        (·.kind == .token .identifier)).map text := by
  unfold Definition.basesOf
  cases t.child? .superclasses with
  | none => rfl
  | some s => simp

theorem calls_entriesAt (file : String) (p : Place) :
    (entriesAt file p).filterMap (·.relationship? .calls) =
      (if p.node.isCall then
        ((p.node.child? .function).filter (·.kind == .token .identifier)).map
          fun callee => (⟨p.owner file, callee.text⟩ : Relationship)
      else none).toList := by
  unfold entriesAt
  split
  · next kind =>
    rw [if_neg (by simp [isCall_eq_false_of_isDefinition kind])]
    split
    · rw [calls_entries, Option.toList_none]
    · rfl
  · split
    · rw [callEntries_eq, owner_place]
      cases (p.node.child? .function).filter (·.kind == .token .identifier) <;> rfl
    · rfl

theorem contains_entriesAt (file : String) (p : Place) :
    (entriesAt file p).filterMap (·.relationship? .contains) =
      (p.node.definedName?.map fun name =>
        (⟨p.owner file, p.qualified name⟩ : Relationship)).toList := by
  unfold entriesAt
  split
  · next kind =>
    rw [definedName?_eq kind]
    split
    · next d hd => rw [contains_entries, hd, owner_place, qualify_place]; rfl
    · next hd => rw [hd]; rfl
  · next kind =>
    rw [definedName?, if_neg kind]
    split
    · rw [callEntries_eq]
      cases (p.node.child? .function).filter (·.kind == .token .identifier) <;> rfl
    · rfl

theorem inherits_entriesAt (file : String) (p : Place) :
    (entriesAt file p).filterMap (·.relationship? .inherits) =
      if p.node.kind == .phrase .classDefinition then
        p.node.definedName?.toList.flatMap fun name =>
          (((p.node.child? .superclasses).toList.flatMap namedChildren).filter
            (·.kind == .token .identifier)).map fun base => ⟨p.qualified name, base.text⟩
      else [] := by
  unfold entriesAt
  split
  · next kind =>
    rw [definedName?_eq kind]
    split
    · next d hd =>
      rw [inherits_entries, bases_of_ofTree? hd, hd, qualify_place]
      split
      · rw [basesOf_eq, List.map_map, Option.map_some, Option.toList_some, List.flatMap_singleton]
        rfl
      · rfl
    · next hd =>
      rw [hd]
      split <;> rfl
  · next kind =>
    have other : ¬ (p.node.kind == .phrase .classDefinition) = true := by
      intro h
      exact kind (by simp [isDefinition, h])
    rw [if_neg other]
    split
    · rw [callEntries_eq]
      cases (p.node.child? .function).filter (·.kind == .token .identifier) <;> rfl
    · rfl

theorem id_node (d : Definition) (file : String) (scope : Scope) :
    (d.node file scope).id = scope.qualify d.name := rfl

theorem nodesOf_entries (d : Definition) (file : String) (scope : Scope) :
    nodesOf (d.entries file scope) = [d.node file scope] := by
  simp [Definition.entries, nodesOf, Entry.node?]

theorem nodesOf_callEntries (file : String) (scope : Scope) (t : Tree) :
    nodesOf (callEntries file scope t) = [] := by
  rw [callEntries_eq]
  cases (t.child? .function).filter (·.kind == .token .identifier) <;> rfl

theorem nodeIds_entriesAt (file : String) (p : Place) :
    nodeIds (entriesAt file p) = (p.node.definedName?.map p.qualified).toList := by
  unfold nodeIds entriesAt
  split
  · next kind =>
    rw [definedName?_eq kind]
    split
    · next d hd =>
      rw [nodesOf_entries, List.map_singleton, id_node, qualify_place, hd]
      rfl
    · next hd =>
      rw [hd]
      rfl
  · next kind =>
    rw [definedName?, if_neg kind]
    split
    · rw [nodesOf_callEntries]
      rfl
    · rfl

end PlacesLemmas

open PlacesLemmas in
/-- The ids of an outline are the full names of the classes and functions. -/
theorem nodeIds_outline_perm (file : String) {t : Tree} (h : Grammatical t) :
    (nodeIds (outline file .module t)).Perm t.fullNames := by
  have perm := nodeIds_perm (outline_perm file h)
  have ids : nodeIds (entriesBelow file [] t) = t.fullNames := by
    rw [nodeIds, entriesBelow, nodesOf_flatMap, List.map_flatMap, Tree.fullNames,
      List.filterMap_eq_flatMap_toList]
    exact List.flatMap_congr fun p _ => nodeIds_entriesAt file p
  exact ids ▸ perm

open PlacesLemmas in
/-- Extraction is exact and lexically scoped. For every tree of the grammar, the relationships of an
outline in an empty graph are, up to their order, one pair for each call of a plain name, for each
named definition and for each plain base of a named class, in the scope of its place. -/
theorem relationships_outline_perm (file : String) {t : Tree} (h : Grammatical t) :
    ((Graph.empty.addAll (outline file .module t)).relationships .calls).Perm (callsOf file t) ∧
    ((Graph.empty.addAll (outline file .module t)).relationships .contains).Perm
      (containmentsOf file t) ∧
    ((Graph.empty.addAll (outline file .module t)).relationships .inherits).Perm
      (inheritancesOf t) := by
  have perm := outline_perm file h
  have each : ∀ k, ((Graph.empty.addAll (outline file .module t)).relationships k).Perm
      ((t.places []).flatMap fun p => (entriesAt file p).filterMap (·.relationship? k)) := by
    intro k
    rw [Graph.relationships_addAll_empty, ← List.filterMap_flatMap]
    exact perm.filterMap _
  refine ⟨?_, ?_, ?_⟩
  · rw [callsOf, List.filterMap_eq_flatMap_toList]
    simpa only [calls_entriesAt] using each .calls
  · rw [containmentsOf, List.filterMap_eq_flatMap_toList]
    simpa only [contains_entriesAt] using each .contains
  · rw [inheritancesOf]
    simpa only [inherits_entriesAt] using each .inherits

namespace PlacesLemmas

def keyword (row : Nat) (text : String) : Tree :=
  .node { kind := .token (.word text), named := false, row, text } []

def sign (row : Nat) (text : String) : Tree :=
  .node { kind := .token (.mark text), named := false, row, text } []

def nameOf (row : Nat) (text : String) (role : Option Role) : Tree :=
  .node { kind := .token .identifier, row, text, role } []

def phrase (row : Nat) (p : Phrase) (children : List Tree) (role : Option Role := none) : Tree :=
  .node { kind := .phrase p, row, role } children

/-- The call of a plain name without arguments. -/
def plainCall (row : Nat) (name : String) : Tree :=
  phrase row .call [nameOf row name (some .function),
    phrase row .argumentList [sign row "(", sign row ")"]]

/-- A class inside a decorated function with a return annotation. -/
def sampleSource : String := "@d()\ndef f() -> g():\n    class A(B):\n        h()"

/-- The tree of `sampleSource`. -/
def sample : Tree :=
  phrase 0 .module [phrase 0 .decoratedDefinition [
    phrase 0 .decorator [sign 0 "@", plainCall 0 "d"],
    phrase 1 .functionDefinition [
      keyword 1 "def", nameOf 1 "f" (some .name),
      phrase 1 .parameters [sign 1 "(", sign 1 ")"], sign 1 "->",
      phrase 1 .type [plainCall 1 "g"] (some .returnType), sign 1 ":",
      phrase 2 .block [phrase 2 .classDefinition [
        keyword 2 "class", nameOf 2 "A" (some .name),
        phrase 2 .argumentList [sign 2 "(", nameOf 2 "B" none, sign 2 ")"] (some .superclasses),
        sign 2 ":",
        phrase 3 .block [phrase 3 .expressionStatement [plainCall 3 "h"]]]]]
      (some .definition)]]

end PlacesLemmas

open PlacesLemmas in
theorem relationships_outline_perm_sample :
    Grammatical sample ∧
    ((Graph.empty.addAll (outline "s.py" .module sample)).relationships .calls).Perm
      [⟨"f", "d"⟩, ⟨"f", "g"⟩, ⟨"f.A", "h"⟩] ∧
    ((Graph.empty.addAll (outline "s.py" .module sample)).relationships .contains).Perm
      [⟨"s.py", "f"⟩, ⟨"f", "f.A"⟩] ∧
    ((Graph.empty.addAll (outline "s.py" .module sample)).relationships .inherits).Perm
      [⟨"f.A", "B"⟩] := by
  have h : Grammatical sample := by decide
  have calls : callsOf "s.py" sample = [⟨"f", "d"⟩, ⟨"f", "g"⟩, ⟨"f.A", "h"⟩] := by decide
  have containments : containmentsOf "s.py" sample = [⟨"s.py", "f"⟩, ⟨"f", "f.A"⟩] := by decide
  have inheritances : inheritancesOf sample = [⟨"f.A", "B"⟩] := by decide
  have perm := relationships_outline_perm "s.py" h
  rw [calls, containments, inheritances] at perm
  exact ⟨h, perm⟩

end CodeAtlas.Python
