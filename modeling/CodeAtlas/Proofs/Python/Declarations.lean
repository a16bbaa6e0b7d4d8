import CodeAtlas.Proofs.Extraction
import CodeAtlas.Proofs.Traced

/-!
# The first declaration of each name

A full name may be declared more than once in a file, as a class or as a function, in one scope or
in two scopes with the same names. The graph has one node for it, and this is the node of the
declaration that a reader of the file meets first.

The walk does not go through the file in that order: a return annotation comes behind the body, and
decorators behind the definition that they decorate. For trees in which these places declare nothing
(`Orderly`) the order of the nodes is that of the file all the same.

* `Tree.declarations`: the named classes and functions of a tree in pre-order, each by its place.
* `nodesOf_outline`: an outline has one node for each declaration, in their order.
* `nodes_outline_firsts`: the graph keeps the first of each name. If rows never decrease in
  pre-order, its line is the least of all that declare the name.
-/

namespace CodeAtlas.Python

/-- A named class or function of a file. -/
structure Declaration where
  /-- The full name. -/
  id : String
  label : Label
  name : String
  /-- The row where the class or function itself starts, whatever its decorators are. -/
  row : Nat
  deriving DecidableEq, Repr

/-- The node that stands for a declaration. -/
def Declaration.node (file : String) (d : Declaration) : Node :=
  Definition.nodeOf file d.id d.label d.name d.row

namespace Tree

/-- The declaration at a place. -/
def Place.declaration? (p : Place) : Option Declaration :=
  p.node.definedName?.map fun name =>
    { id := p.qualified name
      label := if p.node.kind == .phrase .classDefinition then .classDef else .functionDef
      name
      row := p.node.row }

/-- The declarations of a tree in pre-order, given what is above it. -/
def declarations (above : List Tree) (t : Tree) : List Declaration :=
  (t.places above).filterMap Place.declaration?

/-- No node of a tree is a class or a function. -/
def Undeclaring (t : Tree) : Prop := ∀ s ∈ t.nodes, s.isDefinition = false

instance (t : Tree) : Decidable t.Undeclaring :=
  inferInstanceAs (Decidable (∀ s ∈ t.nodes, s.isDefinition = false))

end Tree

/-- Where a tree declares nothing: in anonymous nodes, in return annotations, and in what stands
beside the class or function that is decorated, which is decorators and perhaps comments. -/
structure Orderly (t : Tree) : Prop where
  anonymous : ∀ s ∈ t.nodes, s.isNamed = false → s.Undeclaring
  annotation : ∀ s ∈ t.nodes, s.isDefinition = true →
    ∀ c ∈ s.children, c.isReturn = true → c.Undeclaring
  definition : ∀ s ∈ t.nodes, s.isDecorated = true →
    (s.child? .definition).all Tree.isDefinition = true
  decoration : ∀ s ∈ t.nodes, s.isDecorated = true →
    ∀ c ∈ s.children.eraseP Tree.isDecoratedPart, c.Undeclaring

instance (t : Tree) : Decidable (Orderly t) :=
  decidable_of_iff
    ((∀ s ∈ t.nodes, s.isNamed = false → s.Undeclaring) ∧
      (∀ s ∈ t.nodes, s.isDefinition = true →
        ∀ c ∈ s.children, c.isReturn = true → c.Undeclaring) ∧
      (∀ s ∈ t.nodes, s.isDecorated = true →
        (s.child? .definition).all Tree.isDefinition = true) ∧
      ∀ s ∈ t.nodes, s.isDecorated = true →
        ∀ c ∈ s.children.eraseP Tree.isDecoratedPart, c.Undeclaring)
    ⟨fun h => ⟨h.1, h.2.1, h.2.2.1, h.2.2.2⟩,
      fun h => ⟨h.anonymous, h.annotation, h.definition, h.decoration⟩⟩

namespace DeclarationsLemmas

open CodeAtlas.Python.Tree PlacesLemmas TracedLemmas

/-! ## Declarations and definitions -/

section

variable {t : Tree} {d : Definition} {above : List Tree}

theorem declarations_eq (above : List Tree) (t : Tree) :
    t.declarations above =
      (Place.declaration? ⟨above, t⟩).toList ++
        t.children.flatMap (declarations (above ++ [t])) := by
  rw [declarations, places_eq, List.filterMap_cons, List.filterMap_flatMap]
  cases Place.declaration? ⟨above, t⟩ <;> rfl

theorem label_and_row_of_ofTree? (h : Definition.ofTree? t = some d) :
    d.label = (if t.kind == .phrase .classDefinition then .classDef else .functionDef) ∧
      d.row = t.row := by
  unfold Definition.ofTree? at h
  split at h
  · contradiction
  · split at h
    · contradiction
    · split at h
      · next kind =>
        rw [if_pos kind]
        exact Option.some.inj h ▸ ⟨rfl, rfl⟩
      · next kind =>
        rw [if_neg kind]
        exact Option.some.inj h ▸ ⟨rfl, rfl⟩

/-- The declaration of a place is what a visit in the scope of that place records. -/
theorem declaration?_of_ofTree? (kind : t.isDefinition = true)
    (hd : Definition.ofTree? t = some d) {scope : Scope} (hs : scope.names = namesAround above t) :
    Place.declaration? ⟨above, t⟩ = some ⟨scope.qualify d.name, d.label, d.name, d.row⟩ := by
  obtain ⟨label, row⟩ := label_and_row_of_ofTree? hd
  rw [Place.declaration?, definedName?_eq kind, hd, Option.map_some, Option.map_some, label, row,
    Scope.qualify_eq, hs]
  rfl

theorem declarations_of_undeclaring (h : t.Undeclaring) (above : List Tree) :
    t.declarations above = [] := by
  induction t using Tree.child_induction generalizing above with
  | step t ih =>
    have own : Place.declaration? ⟨above, t⟩ = none := by
      have undefined : t.definedName? = none := by
        rw [definedName?, if_neg (by simp [h t (mem_nodes_self t)])]
      rw [Place.declaration?, undefined, Option.map_none]
    rw [declarations_eq, own, Option.toList_none, List.nil_append, List.flatMap_eq_nil_iff]
    intro c hc
    exact ih c hc (fun s hs => h s (mem_nodes_of_child hc hs)) _

theorem orderly_child {c : Tree} (h : Orderly t) (hc : c ∈ t.children) : Orderly c where
  anonymous s hs := h.anonymous s (mem_nodes_of_child hc hs)
  annotation s hs := h.annotation s (mem_nodes_of_child hc hs)
  definition s hs := h.definition s (mem_nodes_of_child hc hs)
  decoration s hs := h.decoration s (mem_nodes_of_child hc hs)

end

/-! ## Lists in which most members give nothing -/

theorem flatMap_eraseP_eq {α β : Type} {p : α → Bool} {l : List α} {f : α → List β}
    (h : ∀ a ∈ l, p a = true → f a = []) : (l.eraseP p).flatMap f = l.flatMap f := by
  induction l with
  | nil => rfl
  | cons a l ih =>
    by_cases hp : p a = true
    · rw [List.eraseP_cons_of_pos hp, List.flatMap_cons, h a List.mem_cons_self hp,
        List.nil_append]
    · rw [List.eraseP_cons_of_neg hp, List.flatMap_cons, List.flatMap_cons,
        ih fun b hb => h b (List.mem_cons_of_mem _ hb)]

theorem flatMap_eq_of_find? {α β : Type} {p : α → Bool} {l : List α} {f : α → List β} {a : α}
    (found : l.find? p = some a) (h : ∀ b ∈ l.eraseP p, f b = []) : l.flatMap f = f a := by
  induction l with
  | nil => contradiction
  | cons b l ih =>
    by_cases hp : p b = true
    · rw [List.find?_cons_of_pos hp, Option.some.injEq] at found
      rw [List.eraseP_cons_of_pos hp] at h
      rw [List.flatMap_cons, found, List.flatMap_eq_nil_iff.mpr h, List.append_nil]
    · rw [List.find?_cons_of_neg hp] at found
      rw [List.eraseP_cons_of_neg hp] at h
      rw [List.flatMap_cons, h b List.mem_cons_self, List.nil_append,
        ih found fun c hc => h c (List.mem_cons_of_mem _ hc)]

/-! ## Visits -/

/-- The nodes of the declarations of a tree. -/
def nodesBelow (file : String) (above : List Tree) (t : Tree) : List Node :=
  (t.declarations above).map (Declaration.node file)

/-- A visit in the scope of its place adds the nodes of the declarations below, in their order. -/
def InOrder (file : String) (scope : Scope) (t : Tree) : Prop :=
  ∀ above, scope.names = namesAround above t → Orderly t →
    nodesOf (outline file scope t) = nodesBelow file above t

variable {file : String} {scope : Scope} {t r : Tree} {d : Definition} {above : List Tree}

theorem nodesBelow_eq (above : List Tree) (t : Tree) :
    nodesBelow file above t =
      ((Place.declaration? ⟨above, t⟩).map (Declaration.node file)).toList ++
        t.children.flatMap (nodesBelow file (above ++ [t])) := by
  rw [nodesBelow, declarations_eq, List.map_append, List.map_flatMap]
  cases Place.declaration? ⟨above, t⟩ <;> rfl

theorem nodesBelow_of_undeclaring (h : t.Undeclaring) (above : List Tree) :
    nodesBelow file above t = [] := by
  rw [nodesBelow, declarations_of_undeclaring h, List.map_nil]

theorem nodesBelow_of_anonymous {c : Tree} (h : Orderly t) (hc : c ∈ t.children)
    (anonymous : c.isNamed = false) : nodesBelow file above c = [] :=
  nodesBelow_of_undeclaring
    (h.anonymous c (mem_nodes_of_child hc (mem_nodes_self c)) anonymous) above

/-- A visit that records no definition goes through the named children in their order. -/
theorem undefined_inOrder (h : t.recorded?.bind Definition.ofTree? = none)
    (hs : scope.names = namesAround above t) (ht : Orderly t)
    (ih : ∀ c ∈ t.namedChildren, InOrder file scope c) :
    t.namedChildren.flatMap (fun c => nodesOf (outline file scope c)) =
      nodesBelow file above t := by
  have own : Place.declaration? ⟨above, t⟩ = none := by
    rw [Place.declaration?, definedName?_of_none h, Option.map_none]
  have children : ∀ c ∈ t.namedChildren,
      nodesOf (outline file scope c) = nodesBelow file (above ++ [t]) c := by
    intro c hc
    refine ih c hc (above ++ [t]) ?_ (orderly_child ht (List.mem_filter.mp hc).1)
    rw [namesAround_concat, nameAround?_of_none h, ← hs, Option.toList_none, List.append_nil]
  rw [nodesBelow_eq, own, Option.map_none, Option.toList_none, List.nil_append,
    List.flatMap_congr children]
  exact flatMap_filter_eq fun c hc => nodesBelow_of_anonymous ht hc

/-- A definition comes before what is in it. The return annotation, which is visited last, gives
nothing, so that the rest is visited in the order of the children. -/
theorem definition_inOrder (kind : r.isDefinition = true) (hd : Definition.ofTree? r = some d)
    (hs : scope.names = namesAround above r) (hr : Orderly r)
    (ih : ∀ c ∈ r.parts ++ r.returnParts, InOrder file (scope.enter d.name) c) :
    nodesOf (d.entries file scope) ++ (r.parts ++ r.returnParts).flatMap
      (fun c => nodesOf (outline file (scope.enter d.name) c)) = nodesBelow file above r := by
  have children : ∀ c ∈ r.parts ++ r.returnParts,
      nodesOf (outline file (scope.enter d.name) c) = nodesBelow file (above ++ [r]) c := by
    intro c hc
    have child : c ∈ r.children := by
      rcases List.mem_append.mp hc with hc | hc
      · exact VisitsLemmas.mem_children_of_mem_parts hc
      · exact VisitsLemmas.mem_children_of_mem_returnParts hc
    refine ih c hc (above ++ [r]) ?_ (orderly_child hr child)
    rw [namesAround_concat, nameAround?_definition kind hd, ← hs]
    rfl
  have silent : ∀ c ∈ r.children, c.isReturn = true → nodesBelow file (above ++ [r]) c = [] :=
    fun c hc annotates => nodesBelow_of_undeclaring
      (hr.annotation r (mem_nodes_self r) kind c hc annotates) _
  have annotation : r.returnParts.flatMap (nodesBelow file (above ++ [r])) = [] := by
    refine List.flatMap_eq_nil_iff.mpr fun c hc => ?_
    exact silent c (VisitsLemmas.mem_children_of_mem_returnParts hc)
      (List.find?_some (Option.mem_toList.mp hc))
  have parts : r.parts.flatMap (nodesBelow file (above ++ [r])) =
      (r.children.eraseP isReturn).flatMap (nodesBelow file (above ++ [r])) :=
    flatMap_filter_eq fun c hc => nodesBelow_of_anonymous hr (List.mem_of_mem_eraseP hc)
  rw [List.flatMap_congr children, List.flatMap_append, annotation, List.append_nil, parts,
    flatMap_eraseP_eq silent, nodesBelow_eq, declaration?_of_ofTree? kind hd hs,
    nodesOf_entries]
  rfl

/-- A decorated definition is recorded as if it stood there alone. -/
theorem decorated_inOrder (decorated : t.isDecorated = true)
    (hr : t.child? .definition = some r) (hd : Definition.ofTree? r = some d)
    (hs : scope.names = namesAround above t) (ht : Orderly t)
    (ih : ∀ c ∈ r.parts ++ t.decorators ++ r.returnParts, InOrder file (scope.enter d.name) c) :
    nodesOf (d.entries file scope) ++ (r.parts ++ t.decorators ++ r.returnParts).flatMap
      (fun c => nodesOf (outline file (scope.enter d.name) c)) = nodesBelow file above t := by
  have kind : r.isDefinition = true := by
    have := ht.definition t (mem_nodes_self t) decorated
    rwa [hr, Option.all_some] at this
  have child : r ∈ t.children := List.mem_of_find?_eq_some hr
  have beside : ∀ c ∈ t.children.eraseP isDecoratedPart, nodesBelow file (above ++ [t]) c = [] :=
    fun c hc => nodesBelow_of_undeclaring (ht.decoration t (mem_nodes_self t) decorated c hc) _
  have decoration : t.decorators.flatMap
      (fun c => nodesOf (outline file (scope.enter d.name) c)) = [] := by
    refine List.flatMap_eq_nil_iff.mpr fun c hc => ?_
    have decorator : c.isDecorator = true := (List.mem_filter.mp hc).2
    have here : c ∈ t.children := (List.mem_filter.mp hc).1
    have names : (scope.enter d.name).names = namesAround (above ++ [t]) c := by
      rw [namesAround_concat, nameAround?_decorator decorated hr kind hd decorator, ← hs]
      rfl
    rw [ih c (List.mem_append_left _ (List.mem_append_right _ hc)) _ names (orderly_child ht here)]
    rcases List.mem_cons.mp ((children_perm hr).mem_iff.mpr here) with rfl | other
    · simp [not_isDecorator_of_isDefinition kind] at decorator
    · exact beside c other
  have names : scope.names = namesAround (above ++ [t]) r := by
    rw [namesAround_decorated decorated kind, hs]
  have body := definition_inOrder kind hd names (orderly_child ht child) fun c hc => ih c (by
    rcases List.mem_append.mp hc with hc | hc
    · exact List.mem_append_left _ (List.mem_append_left _ hc)
    · exact List.mem_append_right _ hc)
  have own : Place.declaration? ⟨above, t⟩ = none := by
    have undefined : t.definedName? = none := by
      rw [definedName?, if_neg (by simp [not_isDefinition_of_isDecorated decorated])]
    rw [Place.declaration?, undefined, Option.map_none]
  rw [nodesBelow_eq, own, Option.map_none, Option.toList_none, List.nil_append,
    flatMap_eq_of_find? hr beside, ← body, List.flatMap_append, List.flatMap_append, decoration,
    List.append_nil, List.flatMap_append]

end DeclarationsLemmas

open DeclarationsLemmas TracedLemmas CodeAtlas.Python.Tree in
/-- An outline has one node for each declaration of an orderly tree, in pre-order. -/
theorem nodesOf_outline (file : String) {t : Tree} (h : Orderly t) :
    nodesOf (outline file .module t) = (t.declarations []).map (Declaration.node file) := by
  suffices all : ∀ scope t, InOrder file scope t from all .module t [] rfl h
  intro scope t
  induction scope, t using visit_induction with
  | step scope t ih =>
    intro above hs ht
    rw [outline_eq, nodesOf_append, nodesOf_flatMap]
    cases hd : t.recorded?.bind Definition.ofTree? with
    | none =>
      have own : nodesOf (t.ownEntries file scope) = [] := by
        rw [ownEntries_of_none hd]
        split
        · exact PlacesLemmas.nodesOf_callEntries file scope t
        · rfl
      rw [visits_of_none hd] at ih ⊢
      rw [own, List.nil_append, List.flatMap_map]
      exact undefined_inOrder hd hs ht fun c hc => ih (scope, c) (List.mem_map_of_mem hc)
    | some d =>
      obtain ⟨r, hr, hd⟩ := Option.bind_eq_some_iff.mp hd
      rw [visits_of_some hr hd] at ih ⊢
      rw [ownEntries_of_some hr hd, List.flatMap_map]
      have inner : ∀ c ∈ r.parts ++ (if t.isDecorated then t.decorators else []) ++ r.returnParts,
          InOrder file (scope.enter d.name) c :=
        fun c hc => ih (scope.enter d.name, c) (List.mem_map_of_mem hc)
      cases decorated : t.isDecorated with
      | true =>
        rw [recorded?_of_isDecorated decorated] at hr
        rw [decorated] at inner
        exact decorated_inOrder decorated hr hd hs ht inner
      | false =>
        have kind : t.isDefinition = true := by
          cases kind : t.isDefinition with
          | true => rfl
          | false => simp [recorded?, kind, decorated] at hr
        rw [recorded?_of_isDefinition kind, Option.some.injEq] at hr
        subst hr
        simp only [decorated, Bool.false_eq_true, if_false, List.append_nil] at inner ⊢
        exact definition_inOrder kind hd hs ht inner

/-! ## Rows -/

namespace DeclarationsLemmas

open CodeAtlas.Python.Tree PlacesLemmas

theorem map_node_places (above : List Tree) (t : Tree) :
    (t.places above).map Place.node = t.nodes := by
  induction t using Tree.child_induction generalizing above with
  | step t ih =>
    rw [places_eq, nodes_eq, List.map_cons, List.map_flatMap,
      List.flatMap_congr fun c hc => ih c hc (above ++ [t])]

theorem row_of_declaration? {p : Place} {d : Declaration} (h : p.declaration? = some d) :
    d.row = p.node.row := by
  obtain ⟨name, -, rfl⟩ := Option.map_eq_some_iff.mp h
  rfl

/-- If rows never decrease in pre-order, then those of declarations do not either. -/
theorem pairwise_declarations {t : Tree} (h : (t.nodes.map row).Pairwise (· ≤ ·)) :
    (t.declarations []).Pairwise fun d e => d.row ≤ e.row := by
  rw [← map_node_places [] t, List.map_map, List.pairwise_map] at h
  refine List.pairwise_filterMap.mpr (h.imp ?_)
  intro p q le d hd e he
  rw [row_of_declaration? hd, row_of_declaration? he]
  exact le

/-- In a list in which a measure never decreases, what is found first is the least. -/
theorem le_of_find? {α : Type} {p : α → Bool} {measure : α → Nat} {l : List α} {a b : α}
    (h : l.Pairwise fun a b => measure a ≤ measure b) (found : l.find? p = some a) (hb : b ∈ l)
    (same : p b = true) : measure a ≤ measure b := by
  obtain ⟨-, before, after, rfl, none⟩ := List.find?_eq_some_iff_append.mp found
  rcases List.mem_append.mp hb with hb | hb
  · have := none b hb
    simp [same] at this
  · have behind := (List.pairwise_append.mp h).2.1
    rcases List.mem_cons.mp hb with rfl | hb
    · exact Nat.le_refl _
    · exact (List.pairwise_cons.mp behind).1 b hb

end DeclarationsLemmas

open DeclarationsLemmas FirstsLemmas in
/-- The earliest declaration wins. The graph of an orderly tree without faults has one node for each
full name that is declared, and it is the node of the first declaration of that name in pre-order.
If rows never decrease in pre-order, this is one with the least row of all that declare the name. -/
theorem nodes_outline_firsts (file : String) {t : Tree} (h : Orderly t) :
    let g := Graph.empty.addAll (outline file .module t)
    (∀ (parse : Parser) (source : String), parse source = some t → faultLine? t = none →
      extract parse file source .empty = { graph := g }) ∧
    g.nodes.toList = (firsts Declaration.id (t.declarations [])).map (Declaration.node file) ∧
    ((t.nodes.map Tree.row).Pairwise (· ≤ ·) → ∀ d ∈ t.declarations [],
      ∃ first ∈ t.declarations [], first.id = d.id ∧
        g.node? d.id = some (first.node file) ∧
        ∀ e ∈ t.declarations [], e.id = d.id → first.row ≤ e.row) := by
  intro g
  have nodes : g.nodes.toList =
      (firsts Declaration.id (t.declarations [])).map (Declaration.node file) := by
    rw [Graph.nodes_addAll_empty, nodesOf_outline file h, firsts_map]
    rfl
  refine ⟨?_, nodes, ?_⟩
  · intro parse source parsed clean
    exact extract_of_ok (treeOf_eq_ok_iff.mpr ⟨parsed, clean⟩) file .empty
  · intro rows d hd
    have found : ((t.declarations []).find? (·.id = d.id)).isSome := by
      rw [List.find?_isSome]
      exact ⟨d, hd, by simp⟩
    obtain ⟨first, found⟩ := Option.isSome_iff_exists.mp found
    have same : first.id = d.id := by simpa using List.find?_some found
    refine ⟨first, List.mem_of_find?_eq_some found, same, ?_, ?_⟩
    · rw [← find?_firsts] at found
      have kept : first.node file ∈ g.nodes.toList := by
        rw [nodes]
        exact List.mem_map_of_mem (List.mem_of_find?_eq_some found)
      exact Graph.node?_eq_some_iff.mpr ⟨Array.mem_toList_iff.mp kept, same⟩
    · intro e he named
      exact le_of_find? (pairwise_declarations rows) found he (by simpa using named)

namespace DeclarationsLemmas

open PlacesLemmas

/-- A class behind `PlacesLemmas.sampleSource` that declares both of its names once more, the
function as a class and the class as a function. -/
def rivalsSource : String := sampleSource ++ "\nclass f:\n    @d()\n    def A(): pass"

def rival : Tree :=
  phrase 4 .classDefinition [
    keyword 4 "class", nameOf 4 "f" (some .name), sign 4 ":",
    phrase 5 .block [phrase 5 .decoratedDefinition [
      phrase 5 .decorator [sign 5 "@", plainCall 5 "d"],
      phrase 6 .functionDefinition [
        keyword 6 "def", nameOf 6 "A" (some .name),
        phrase 6 .parameters [sign 6 "(", sign 6 ")"], sign 6 ":",
        phrase 6 .block [phrase 6 .passStatement [keyword 6 "pass"]]]
        (some .definition)]]]

/-- The tree of `rivalsSource`. -/
def rivals : Tree := phrase 0 .module (sample.children ++ [rival])

/-- A parser that knows one text only. -/
def rivalsParser : Parser := fun source => if source = rivalsSource then some rivals else none

end DeclarationsLemmas

open DeclarationsLemmas in
theorem nodes_outline_firsts_rivals :
    Orderly rivals ∧ faultLine? rivals = none ∧ (rivals.nodes.map Tree.row).Pairwise (· ≤ ·) ∧
      rivals.declarations [] =
        [⟨"f", .functionDef, "f", 1⟩, ⟨"f.A", .classDef, "A", 2⟩, ⟨"f", .classDef, "f", 4⟩,
          ⟨"f.A", .functionDef, "A", 6⟩] ∧
      ∃ (g : Graph) (first : Declaration),
        extract rivalsParser "s.py" rivalsSource .empty = { graph := g } ∧
        g.nodes.toList =
          [⟨"f", .functionDef, [("line", "2"), ("name", "f"), ("path", "s.py")]⟩,
            ⟨"f.A", .classDef, [("line", "3"), ("name", "A"), ("path", "s.py")]⟩] ∧
        g.node? "f.A" = some (first.node "s.py") ∧ first.row ≤ 2 ∧ first.row ≤ 6 := by
  have orderly : Orderly rivals := by decide +kernel
  have clean : faultLine? rivals = none := by decide +kernel
  have rows : (rivals.nodes.map Tree.row).Pairwise (· ≤ ·) := by decide +kernel
  have declared : rivals.declarations [] =
      [⟨"f", .functionDef, "f", 1⟩, ⟨"f.A", .classDef, "A", 2⟩, ⟨"f", .classDef, "f", 4⟩,
        ⟨"f.A", .functionDef, "A", 6⟩] := by decide +kernel
  obtain ⟨extracted, nodes, least⟩ := nodes_outline_firsts "s.py" orderly
  rw [declared] at nodes least
  obtain ⟨first, -, -, found, below⟩ := least rows ⟨"f.A", .functionDef, "A", 6⟩ (by decide)
  exact ⟨orderly, clean, rows, declared, _, first,
    extracted rivalsParser rivalsSource rfl clean, nodes, found,
    below ⟨"f.A", .classDef, "A", 2⟩ (by decide) rfl,
    below ⟨"f.A", .functionDef, "A", 6⟩ (by decide) rfl⟩

end CodeAtlas.Python
