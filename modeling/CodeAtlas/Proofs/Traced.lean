import CodeAtlas.Proofs.FileNodes
import CodeAtlas.Proofs.Reordering

/-!
# From a definition back to its file

The node of a class or a function tells its name and the file that it is from. Its id is made of the
names of the definitions around it and its own one, and each of them is contained in what the names
before it lead to, the first one in the file (`Graph.Traced`).

Nodes with the same id are joined across files, but relationships are not. The node that is kept
tells one file, and the way back has to lead there. It does because the outline that brings a node
brings all containments on the way to it (`outline_trailed`), so that it does not matter which other
files have nodes with the same ids.

* `Scope.trail`: the containments on the way from a scope to a definition.
* `outline_trailed`: every node of an outline comes with its trail, for all trees.
* `traced_convert`: every node of a converted graph.
-/

namespace CodeAtlas

/-! ## Trails -/

namespace Scope

/-- The containments on the way from a scope through names that are entered one after the other. -/
def trail (s : Scope) (file : String) : List String → List Relationship
  | [] => []
  | name :: rest => ⟨s.owner file, s.qualify name⟩ :: (s.enter name).trail file rest

/-- Each name on a trail is contained in what the names before it lead to. -/
theorem mem_trail (s : Scope) (file : String) {names : List String} {i : Nat}
    (h : i < names.length) :
    ⟨owner ⟨s.names ++ names.take i⟩ file, ".".intercalate (s.names ++ names.take (i + 1))⟩ ∈
      s.trail file names := by
  induction names generalizing s i with
  | nil => contradiction
  | cons name rest ih =>
    cases i with
    | zero =>
      rw [trail, qualify_eq, List.take_zero, List.append_nil]
      exact List.mem_cons_self
    | succ i =>
      have later := ih (s.enter name) (Nat.lt_of_succ_lt_succ h)
      rw [enter, List.append_assoc, List.append_assoc] at later
      rw [trail]
      exact List.mem_cons_of_mem _ later

/-- A trail from the top level begins with the file. -/
theorem head_mem_trail (file : String) {names : List String} {name : String}
    (h : name ∈ names.head?) : ⟨file, name⟩ ∈ module.trail file names := by
  cases names with
  | nil => contradiction
  | cons x rest =>
    obtain rfl := Option.some.inj h
    exact List.mem_cons_self

theorem next_mem_trail (file : String) {names : List String} {i : Nat} (positive : 0 < i)
    (h : i < names.length) :
    ⟨".".intercalate (names.take i), ".".intercalate (names.take (i + 1))⟩ ∈
      module.trail file names := by
  have inner : owner ⟨names.take i⟩ file = ".".intercalate (names.take i) := by
    have filled : names.take i ≠ [] := by
      rw [ne_eq, List.take_eq_nil_iff, not_or]
      exact ⟨Nat.ne_of_gt positive, List.ne_nil_of_length_pos (Nat.zero_lt_of_lt h)⟩
    rw [owner, isModule, if_neg (by simpa using filled), path]
  have link := mem_trail module file h
  rw [module, List.nil_append, List.nil_append, inner] at link
  exact link

end Scope

/-! ## Outlines -/

/-- Entries that bring with each node the whole trail to it: the node is that of a definition of the
file, and the trail leads from a scope through names to that definition. -/
def Trailed (file : String) (scope : Scope) (es : List Entry) : Prop :=
  ∀ n ∈ nodesOf es, ∃ (names : List String) (t : Python.Tree) (d : Python.Definition),
    Python.Definition.ofTree? t = some d ∧ n = d.node file ⟨scope.names ++ names⟩ ∧
      ∀ r ∈ scope.trail file (names ++ [d.name]), .relationship .contains r ∈ es

namespace TracedLemmas

open Python

variable {file : String} {scope : Scope} {d : Definition} {t : Tree}

theorem containment_mem_entries (d : Definition) :
    .relationship .contains ⟨scope.owner file, scope.qualify d.name⟩ ∈ d.entries file scope := by
  simp [Definition.entries]

theorem ownEntries_trailed (t : Tree) : Trailed file scope (t.ownEntries file scope) := by
  intro n hn
  cases hd : t.recorded?.bind Definition.ofTree? with
  | none =>
    rw [Tree.ownEntries_of_none hd] at hn
    split at hn
    · rw [PlacesLemmas.nodesOf_callEntries] at hn
      contradiction
    · contradiction
  | some d =>
    obtain ⟨r, hr, hd⟩ := Option.bind_eq_some_iff.mp hd
    rw [Tree.ownEntries_of_some hr hd] at hn ⊢
    rw [PlacesLemmas.nodesOf_entries, List.mem_singleton] at hn
    refine ⟨[], r, d, hd, by rw [hn, List.append_nil], ?_⟩
    intro link hlink
    rw [List.mem_singleton.mp hlink]
    exact containment_mem_entries d

/-- A visit that follows is in the same scope, or in that of a definition whose containment has just
been added. -/
theorem scope_of_mem_visits {v : Scope × Tree} (file : String) (h : v ∈ t.visits scope) :
    v.1 = scope ∨ ∃ name, v.1 = scope.enter name ∧
      .relationship .contains ⟨scope.owner file, scope.qualify name⟩ ∈ t.ownEntries file scope := by
  cases hd : t.recorded?.bind Definition.ofTree? with
  | none =>
    rw [Tree.visits_of_none hd] at h
    obtain ⟨c, -, rfl⟩ := List.mem_map.mp h
    exact .inl rfl
  | some d =>
    obtain ⟨r, hr, hd⟩ := Option.bind_eq_some_iff.mp hd
    rw [Tree.visits_of_some hr hd] at h
    obtain ⟨c, -, rfl⟩ := List.mem_map.mp h
    rw [Tree.ownEntries_of_some hr hd]
    exact .inr ⟨d.name, rfl, containment_mem_entries d⟩

end TracedLemmas

open TracedLemmas in
/-- Whatever the tree, each node of its outline comes with the whole trail to it. -/
theorem Python.outline_trailed (file : String) (scope : Scope) (t : Tree) :
    Trailed file scope (outline file scope t) := by
  induction scope, t using visit_induction with
  | step scope t ih =>
    intro n hn
    rw [outline_eq] at hn ⊢
    rw [nodesOf_append, nodesOf_flatMap, List.mem_append, List.mem_flatMap] at hn
    rcases hn with hn | ⟨v, hv, hn⟩
    · obtain ⟨names, s, d, hd, node, links⟩ := ownEntries_trailed t n hn
      exact ⟨names, s, d, hd, node, fun r hr => List.mem_append_left _ (links r hr)⟩
    · obtain ⟨names, s, d, hd, node, links⟩ := ih v hv n hn
      have below : ∀ r ∈ v.1.trail file (names ++ [d.name]),
          .relationship .contains r ∈ t.ownEntries file scope ++
            (t.visits scope).flatMap fun v => outline file v.1 v.2 :=
        fun r hr => List.mem_append_right _ (List.mem_flatMap.mpr ⟨v, hv, links r hr⟩)
      rcases scope_of_mem_visits file hv with same | ⟨name, entered, contained⟩
      · rw [same] at node below
        exact ⟨names, s, d, hd, node, below⟩
      · -- the trail of the definition that was entered is one step longer
        rw [entered] at node below
        refine ⟨name :: names, s, d, hd, by rw [node, Scope.enter, List.append_assoc]; rfl, ?_⟩
        rw [List.cons_append, Scope.trail]
        exact List.forall_mem_cons.mpr ⟨List.mem_append_left _ contained, below⟩

/-! ## Graphs -/

/-- The node `n` of a class or a function is traced to the file `path`: it has a name, and `names`
lead from the file to it, each contained in what the names before it lead to. -/
structure Graph.Traced (g : Graph) (n : Node) (path name : String) (names : List String) :
    Prop where
  /-- These are all attributes. -/
  attributes : ∃ line, n.attributes = [("line", Nat.repr line), ("name", name), ("path", path)]
  nonempty : name ≠ ""
  ending : n.id = name ∨ Text.endsWith n.id ("." ++ name) = true
  last : names.getLast? = some name
  joined : n.id = ".".intercalate names
  first : ∀ x ∈ names.head?, ⟨path, x⟩ ∈ g.relationships .contains
  next : ∀ i, 0 < i → i < names.length →
    ⟨".".intercalate (names.take i), ".".intercalate (names.take (i + 1))⟩ ∈
      g.relationships .contains
  file : g.IsNode path

namespace TracedLemmas

open Python

theorem attributes_node (d : Definition) (file : String) (scope : Scope) :
    (d.node file scope).attributes =
      [("line", Nat.repr (d.row + 1)), ("name", d.name), ("path", file)] := rfl

theorem name_ne_empty {t : Tree} {d : Definition} (h : Definition.ofTree? t = some d) :
    d.name ≠ "" := by
  unfold Definition.ofTree? at h
  split at h
  · contradiction
  · split at h
    · contradiction
    · next name _ nonempty =>
      have named : d.name = name.text := by
        split at h <;> exact (Option.some.inj h) ▸ rfl
      rw [named]
      simpa using nonempty

theorem endsWith_append (s ending : String) : Text.endsWith (s ++ ending) ending = true := by
  rw [Text.endsWith, List.isSuffixOf_iff_suffix, String.toList_append]
  exact List.suffix_append _ _

theorem qualify_ending (s : Scope) (name : String) :
    s.qualify name = name ∨ Text.endsWith (s.qualify name) ("." ++ name) = true := by
  unfold Scope.qualify
  split
  · exact .inl rfl
  · rw [String.append_assoc]
    exact .inr (endsWith_append _ _)

theorem line_fileNode (path : String) : (Converter.fileNode path).attribute? "line" = none := by
  unfold Converter.fileNode
  cases Path.fileName? path <;> rfl

/-- A definition of an outline is traced in every graph that has the containments of the outline and
the node of the file. -/
theorem traced_of_trailed {g : Graph} {file : String} {es : List Entry} {n : Node}
    (h : Trailed file .module es) (hn : n ∈ nodesOf es)
    (kept : ∀ r, .relationship .contains r ∈ es → r ∈ g.relationships .contains)
    (known : g.IsNode file) : ∃ name names, g.Traced n file name names := by
  obtain ⟨names, t, d, hd, rfl, links⟩ := h n hn
  refine ⟨d.name, names ++ [d.name], ⟨_, attributes_node d file _⟩, name_ne_empty hd, ?_,
    List.getLast?_concat, ?_, ?_, ?_, known⟩
  · rw [PlacesLemmas.id_node]
    exact qualify_ending _ _
  · rw [PlacesLemmas.id_node, Scope.qualify_eq]
    rfl
  · intro x hx
    exact kept _ (links _ (Scope.head_mem_trail file hx))
  · intro i positive hi
    exact kept _ (links _ (Scope.next_mem_trail file positive hi))

open FileNodesLemmas in
/-- In a graph that was made from files, what a file brings apart from its own node is traced to
it. -/
theorem traced_addAll (c : Converter) {chunks : List Digest.Chunk} {chunk : Digest.Chunk}
    (hc : chunk ∈ chunks) {n : Node} (hn : n ∈ nodesOf (c.entries chunk))
    (label : n.isFile = false) :
    ∃ name names, (Graph.empty.addAll (chunks.flatMap c.entries)).Traced n chunk.path name
      names := by
  have known : (Graph.empty.addAll (chunks.flatMap c.entries)).IsNode chunk.path := by
    obtain ⟨m, found⟩ := exists_node?_of_mem c chunk hc
    exact ⟨m, Graph.node?_eq_some_iff.mp found⟩
  have kept : ∀ r, .relationship .contains r ∈ c.entries chunk →
      r ∈ (Graph.empty.addAll (chunks.flatMap c.entries)).relationships .contains := by
    intro r hr
    rw [Graph.relationships_addAll_empty, mem_filterMap_relationship?]
    exact List.mem_flatMap.mpr ⟨chunk, hc, hr⟩
  rw [Converter.entries] at hn kept
  rcases List.mem_cons.mp hn with rfl | hn
  · rw [isFile_fileNode] at label
    contradiction
  · refine traced_of_trailed ?_ hn (fun r hr => kept r (List.mem_cons_of_mem _ hr)) known
    split
    · intro m hm
      contradiction
    · exact outline_trailed chunk.path .module _

end TracedLemmas

open TracedLemmas FileNodesLemmas in
/-- Every node leads back to its file. In the graph of a conversion that succeeds, each class and
each function is traced to the path of a chunk, and each file tells its id as its path and has no
line. -/
theorem Converter.traced_convert {c : Converter} {digest : Bytes} {g : Graph}
    (h : (c.convert digest).result = .ok g) :
    (∀ n ∈ g.nodes, n.label = .classDef ∨ n.label = .functionDef →
      ∃ chunk ∈ (Digest.walk digest).chunks, ∃ name names, g.Traced n chunk.path name names) ∧
    ∀ n ∈ g.nodes, n.label = .file →
      n.attribute? "path" = some n.id ∧ n.attribute? "line" = none := by
  obtain ⟨-, rfl⟩ := convert_eq_ok_iff.mp h
  constructor
  · intro n hn label
    rw [← Array.mem_toList_iff, Graph.nodes_addAll_empty] at hn
    have brought := FirstsLemmas.mem_of_mem_firsts hn
    rw [nodesOf_flatMap, List.mem_flatMap] at brought
    obtain ⟨chunk, hc, brought⟩ := brought
    refine ⟨chunk, hc, traced_addAll c hc brought ?_⟩
    rcases label with label | label <;> simp [Node.isFile, label]
  · intro n hn label
    have file : n ∈ (Graph.empty.addAll ((Digest.walk digest).chunks.flatMap c.entries)).files :=
      List.mem_filter.mpr ⟨Array.mem_toList_iff.mpr hn, beq_iff_eq.mpr label⟩
    obtain ⟨chunk, -, rfl⟩ := eq_fileNode_of_mem_files c file
    exact ⟨by rw [path_fileNode, id_fileNode], line_fileNode chunk.path⟩

open AnchoredLemmas ReorderingLemmas in
/-- Two files have a class `f.A`. Its node is traced to the first one, through `f`. -/
theorem Converter.traced_convert_twins :
    ∃ g n name names, (converter.convert (Digest.render twins)).result = .ok g ∧ n ∈ g.nodes ∧
      n.id = "f.A" ∧ n.label = .classDef ∧ g.Traced n "s.py" name names ∧
      g.relationships .contains =
        [⟨"s.py", "f"⟩, ⟨"f", "f.A"⟩, ⟨"t.py", "f"⟩, ⟨"f", "f.A"⟩] := by
  have made := converter.convert_of_isText (Digest.isText_render twins)
  rw [chunks_walk_twins] at made
  let g := Graph.empty.addAll (twins.flatMap converter.entries)
  let n : Node := ⟨"f.A", .classDef, [("line", "3"), ("name", "A"), ("path", "s.py")]⟩
  have hn : n ∈ g.nodes := by decide +kernel
  obtain ⟨chunk, -, name, names, traced⟩ := (traced_convert made).1 n hn (.inl rfl)
  have path : "s.py" = chunk.path := by
    obtain ⟨line, same⟩ := traced.attributes
    simp only [n, List.cons.injEq, Prod.mk.injEq] at same
    exact same.2.2.1.2
  exact ⟨g, n, name, names, made, hn, rfl, rfl, path ▸ traced, by decide +kernel⟩

end CodeAtlas
