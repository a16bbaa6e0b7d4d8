import CodeAtlas.Proofs.Merging

/-!
# The nodes of files

Files and definitions share one space of ids, and the first node with an id is kept. A file is
therefore a node of its own unless a file before it defines a class or a function whose full name is
the path (`Converter.Taken`). Definitions in the file itself or behind it do not matter, and a path
that is repeated gives one node.

* `isFile_of_mem_outline`: an outline brings no file.
* `nodesOf_entries`: the nodes that a file brings, by the places of its tree.
* `files_addAll`: the nodes of files, whatever the files are.
* `files_convert`: the nodes of files in the graph of a conversion.
* `files_convert_taken`: a file without a node of its own.
-/

namespace CodeAtlas

def Node.isFile (n : Node) : Bool := n.label == .file

/-- The nodes of files in the order of their arrival. -/
def Graph.files (g : Graph) : List Node := g.nodes.toList.filter Node.isFile

/-- An id leads to a file if it is the id of a file. -/
theorem Graph.label_eq_file_iff {g : Graph} {id : String} {n : Node} (h : g.node? id = some n) :
    n.label = .file ↔ id ∈ g.files.map Node.id := by
  rw [files, List.mem_map]
  constructor
  · intro file
    obtain ⟨hn, same⟩ := node?_eq_some_iff.mp h
    exact ⟨n, List.mem_filter.mpr ⟨Array.mem_toList_iff.mpr hn, beq_iff_eq.mpr file⟩, same⟩
  · rintro ⟨m, hm, same⟩
    obtain ⟨hm, file⟩ := List.mem_filter.mp hm
    rw [node?_eq_some_iff.mpr ⟨Array.mem_toList_iff.mp hm, same⟩, Option.some.injEq] at h
    exact h ▸ beq_iff_eq.mp file

namespace Converter

/-- A file before the first one with a path has a class or a function with that full name in its
tree. -/
def Taken (c : Converter) (chunks : List Digest.Chunk) (path : String) : Prop :=
  ∃ chunk ∈ chunks.takeWhile (·.path ≠ path), ∃ t ∈ c.tree? chunk, path ∈ t.fullNames

instance (c : Converter) (chunks : List Digest.Chunk) (path : String) :
    Decidable (c.Taken chunks path) :=
  inferInstanceAs (Decidable (∃ chunk ∈ chunks.takeWhile (·.path ≠ path),
    ∃ t ∈ c.tree? chunk, path ∈ t.fullNames))

end Converter

/-! ## Outlines -/

namespace FileNodesLemmas

open Python

variable {file : String} {scope : Scope} {t : Tree} {n : Node}

theorem label_of_ofTree? {d : Definition} (h : Definition.ofTree? t = some d) :
    d.label = .classDef ∨ d.label = .functionDef := by
  unfold Definition.ofTree? at h
  split at h
  · contradiction
  · split at h
    · contradiction
    · split at h
      · exact .inl (Option.some.inj h ▸ rfl)
      · exact .inr (Option.some.inj h ▸ rfl)

theorem isFile_of_mem_ownEntries (h : n ∈ nodesOf (t.ownEntries file scope)) :
    n.isFile = false := by
  cases hd : t.recorded?.bind Definition.ofTree? with
  | none =>
    rw [Tree.ownEntries_of_none hd] at h
    split at h
    · rw [PlacesLemmas.nodesOf_callEntries] at h
      contradiction
    · contradiction
  | some d =>
    obtain ⟨r, hr, hd⟩ := Option.bind_eq_some_iff.mp hd
    rw [Tree.ownEntries_of_some hr hd, PlacesLemmas.nodesOf_entries, List.mem_singleton] at h
    have label : n.label = d.label := by rw [h]; rfl
    rcases label_of_ofTree? hd with kind | kind <;> simp [Node.isFile, label, kind]

theorem isFile_of_mem_outline (h : n ∈ nodesOf (outline file scope t)) : n.isFile = false := by
  induction scope, t using visit_induction with
  | step scope t ih =>
    rw [outline_eq, nodesOf_append, nodesOf_flatMap, List.mem_append, List.mem_flatMap] at h
    rcases h with h | ⟨v, hv, h⟩
    · exact isFile_of_mem_ownEntries h
    · exact ih v hv h

end FileNodesLemmas

/-! ## Files -/

namespace FileNodesLemmas

open Converter FirstsLemmas

theorem id_fileNode (path : String) : (fileNode path).id = path := by
  simp [fileNode, Node.withPath]

theorem isFile_fileNode (path : String) : (fileNode path).isFile = true := by
  simp [fileNode, Node.withPath, Node.isFile]

theorem path_fileNode (path : String) : (fileNode path).attribute? "path" = some path :=
  Node.attribute?_withAttribute_self _ (by decide) path

/-- A file adds its node first, and then nodes of its classes and functions, with their full names
as ids. -/
theorem nodesOf_entries (c : Converter) (chunk : Digest.Chunk) :
    ∃ defs, nodesOf (c.entries chunk) = fileNode chunk.path :: defs ∧
      (∀ n ∈ defs, n.isFile = false) ∧
      ((∀ t ∈ c.tree? chunk, Python.Grammatical t) → ∀ id, id ∈ defs.map Node.id ↔
        ∃ t ∈ c.tree? chunk, id ∈ t.fullNames) := by
  unfold entries
  cases c.tree? chunk with
  | none => exact ⟨[], rfl, nofun, fun _ id => ⟨nofun, nofun⟩⟩
  | some t =>
    refine ⟨nodesOf (Python.outline chunk.path .module t), rfl,
      fun n hn => isFile_of_mem_outline hn, fun grammar id => ?_⟩
    have perm := Python.nodeIds_outline_perm chunk.path (grammar t rfl)
    refine perm.mem_iff.trans ⟨fun h => ⟨t, rfl, h⟩, ?_⟩
    rintro ⟨u, hu, h⟩
    rwa [Option.some.inj hu]

/-- The nodes of files are those that files bring for themselves. -/
theorem eq_fileNode_of_isFile (c : Converter) {chunk : Digest.Chunk} {n : Node}
    (h : n ∈ nodesOf (c.entries chunk)) (file : n.isFile = true) : n = fileNode chunk.path := by
  obtain ⟨defs, nodes, labels, -⟩ := nodesOf_entries c chunk
  rw [nodes] at h
  rcases List.mem_cons.mp h with rfl | h
  · rfl
  · rw [labels n h] at file
    contradiction

variable (c : Converter) (chunk : Digest.Chunk) (rest : List Digest.Chunk)

theorem not_taken_self : ¬ c.Taken (chunk :: rest) chunk.path := by
  rintro ⟨d, hd, -⟩
  rw [List.takeWhile_cons_of_neg (by simp)] at hd
  contradiction

theorem taken_cons {path : String} (h : path ≠ chunk.path) :
    c.Taken (chunk :: rest) path ↔
      (∃ t ∈ c.tree? chunk, path ∈ t.fullNames) ∨ c.Taken rest path := by
  unfold Taken
  rw [List.takeWhile_cons_of_pos (by simp [Ne.symm h])]
  simp

theorem eraseDups_eq_firsts (l : List String) : l.eraseDups = firsts id l := rfl

/-- The nodes of files, in the order of their paths. -/
theorem filter_isFile_firsts {chunks : List Digest.Chunk}
    (grammar : ∀ chunk ∈ chunks, ∀ t ∈ c.tree? chunk, Python.Grammatical t) :
    (firsts Node.id (chunks.flatMap fun chunk => nodesOf (c.entries chunk))).filter Node.isFile =
      ((chunks.map (·.path)).eraseDups.filter (¬ c.Taken chunks ·)).map fileNode := by
  induction chunks with
  | nil => rfl
  | cons chunk rest ih =>
    obtain ⟨here, later⟩ := List.forall_mem_cons.mp grammar
    obtain ⟨defs, nodes, labels, names⟩ := nodesOf_entries c chunk
    have own : (firsts Node.id (nodesOf (c.entries chunk))).filter Node.isFile =
        [fileNode chunk.path] := by
      rw [nodes, firsts_cons, List.filter_cons_of_pos (isFile_fileNode _), List.filter_filter]
      refine congrArg (fileNode chunk.path :: ·) (List.filter_eq_nil_iff.mpr fun n hn => ?_)
      simp [labels n (mem_of_mem_firsts hn)]
    have ids : ∀ id, id ∈ (nodesOf (c.entries chunk)).map Node.id ↔
        id = chunk.path ∨ ∃ t ∈ c.tree? chunk, id ∈ t.fullNames := by
      intro id
      rw [nodes, List.map_cons, id_fileNode, List.mem_cons, names here]
    rw [List.flatMap_cons, firsts_append, List.filter_append, own, List.map_cons,
      eraseDups_eq_firsts, firsts_cons,
      List.filter_cons_of_pos (by simpa using not_taken_self c chunk rest), List.map_cons,
      List.singleton_append, List.filter_filter, List.filter_filter]
    simp only [Bool.and_comm (Node.isFile _)]
    rw [← List.filter_filter, ih later, List.filter_map, List.filter_filter, eraseDups_eq_firsts]
    refine congrArg (fileNode chunk.path :: List.map fileNode ·) (List.filter_congr fun p _ => ?_)
    -- a later path counts if it is new, and no definition of this file or a later one has it
    rw [Bool.eq_iff_iff]
    by_cases same : p = chunk.path
    · simp [same, id_fileNode, ids]
    · simp [same, id_fileNode, ids, taken_cons c chunk rest same, and_comm]

/-- The nodes of files in a graph that was made from files. -/
theorem files_addAll {chunks : List Digest.Chunk}
    (grammar : ∀ chunk ∈ chunks, ∀ t ∈ c.tree? chunk, Python.Grammatical t) :
    (Graph.empty.addAll (chunks.flatMap c.entries)).files =
      ((chunks.map (·.path)).eraseDups.filter (¬ c.Taken chunks ·)).map fileNode := by
  rw [Graph.files, Graph.nodes_addAll_empty, nodesOf_flatMap, filter_isFile_firsts c grammar]

theorem ids_files_addAll {chunks : List Digest.Chunk}
    (grammar : ∀ chunk ∈ chunks, ∀ t ∈ c.tree? chunk, Python.Grammatical t) :
    (Graph.empty.addAll (chunks.flatMap c.entries)).files.map Node.id =
      (chunks.map (·.path)).eraseDups.filter (¬ c.Taken chunks ·) := by
  rw [files_addAll c grammar, List.map_map]
  exact List.map_id'' id_fileNode _

/-- A file tells its id as its path. -/
theorem eq_fileNode_of_mem_files {chunks : List Digest.Chunk} {n : Node}
    (h : n ∈ (Graph.empty.addAll (chunks.flatMap c.entries)).files) :
    ∃ chunk ∈ chunks, n = fileNode chunk.path := by
  obtain ⟨hn, file⟩ := List.mem_filter.mp h
  rw [Graph.nodes_addAll_empty] at hn
  have brought := mem_of_mem_firsts hn
  rw [nodesOf_flatMap, List.mem_flatMap] at brought
  obtain ⟨chunk, hc, brought⟩ := brought
  exact ⟨chunk, hc, eq_fileNode_of_isFile c brought file⟩

theorem exists_node?_of_mem {chunks : List Digest.Chunk} (h : chunk ∈ chunks) :
    ∃ n, (Graph.empty.addAll (chunks.flatMap c.entries)).node? chunk.path = some n := by
  have known : chunk.path ∈ nodeIds (chunks.flatMap c.entries) := by
    obtain ⟨n, hn, same⟩ := mem_nodeIds.mp (AnchoredLemmas.path_mem_entries c chunk)
    exact mem_nodeIds.mpr ⟨n, List.mem_flatMap.mpr ⟨chunk, h, hn⟩, same⟩
  obtain ⟨n, hn⟩ := AnchoredLemmas.isNode_addAll.mpr (.inr known)
  exact ⟨n, Graph.node?_eq_some_iff.mpr hn⟩

end FileNodesLemmas

open FileNodesLemmas in
/-- For a digest that is text and trees of the grammar, the nodes of files are those of its paths,
each path once and in the order in which they come up, apart from paths that are taken: those that
are the full name of a class or a function of a file before. All paths are found in the graph, and
those that are taken do not lead to files. -/
theorem Converter.files_convert (c : Converter) {digest : Bytes} (h : digest.IsText)
    (grammar : ∀ chunk ∈ (Digest.walk digest).chunks,
      ∀ t ∈ c.tree? chunk, Python.Grammatical t) :
    ∃ g, (c.convert digest).result = .ok g ∧
      let chunks := (Digest.walk digest).chunks
      g.files.map Node.id = (chunks.map (·.path)).eraseDups.filter (¬ c.Taken chunks ·) ∧
        (∀ n ∈ g.files, n.attribute? "path" = some n.id) ∧
        ∀ chunk ∈ chunks, ∃ n, g.node? chunk.path = some n ∧
          (n.label = .file ↔ ¬ c.Taken chunks chunk.path) := by
  refine ⟨_, c.convert_of_isText h, ids_files_addAll c grammar, ?_, ?_⟩
  · intro n hn
    obtain ⟨chunk, -, rfl⟩ := eq_fileNode_of_mem_files c hn
    rw [path_fileNode, id_fileNode]
  · intro chunk hc
    obtain ⟨n, found⟩ := exists_node?_of_mem c chunk hc
    have path : chunk.path ∈ ((Digest.walk digest).chunks.map (·.path)).eraseDups :=
      List.mem_eraseDups.mpr (List.mem_map_of_mem hc)
    refine ⟨n, found, ?_⟩
    rw [Graph.label_eq_file_iff found, ids_files_addAll c grammar, List.mem_filter,
      and_iff_right path, decide_eq_true_iff]

namespace FileNodesLemmas

/-- A Python file, a file whose path comes twice, and one whose path is the name of a class. -/
def clashing : List Digest.Chunk :=
  [⟨"s.py", Python.PlacesLemmas.sampleSource⟩, ⟨"notes", "x"⟩, ⟨"f.A", "x"⟩, ⟨"notes", "y"⟩]

theorem chunks_walk_clashing : (Digest.walk (Digest.render clashing)).chunks = clashing :=
  Digest.chunks_walk_render (by decide +kernel)

end FileNodesLemmas

open AnchoredLemmas FileNodesLemmas in
theorem Converter.files_convert_clashing :
    (Digest.render clashing).IsText ∧
      (∀ chunk ∈ (Digest.walk (Digest.render clashing)).chunks,
        ∀ t ∈ converter.tree? chunk, Python.Grammatical t) ∧
      ∃ g, (converter.convert (Digest.render clashing)).result = .ok g ∧
        g.files.map Node.id = ["s.py", "notes"] ∧
        ∀ n ∈ g.files, n.attribute? "path" = some n.id := by
  have h := Digest.isText_render clashing
  have grammar : ∀ chunk ∈ (Digest.walk (Digest.render clashing)).chunks,
      ∀ t ∈ converter.tree? chunk, Python.Grammatical t := by
    rw [chunks_walk_clashing]
    decide +kernel
  obtain ⟨g, result, ids, paths, -⟩ := converter.files_convert h grammar
  refine ⟨h, grammar, g, result, ?_, paths⟩
  rw [ids, chunks_walk_clashing]
  decide +kernel

open AnchoredLemmas FileNodesLemmas in
/-- Not all paths of a digest that is text are ids of files: here one leads to a class of a file
before it. -/
theorem Converter.files_convert_taken :
    (Digest.render clashing).IsText ∧
      (Digest.walk (Digest.render clashing)).chunks.map (·.path) =
        ["s.py", "notes", "f.A", "notes"] ∧
      ∃ g, (converter.convert (Digest.render clashing)).result = .ok g ∧
        g.files.map Node.id ≠
          ((Digest.walk (Digest.render clashing)).chunks.map (·.path)).eraseDups ∧
        (g.node? "f.A").map Node.label = some .classDef := by
  have h := Digest.isText_render clashing
  have made := converter.convert_of_isText h
  rw [chunks_walk_clashing] at made ⊢
  exact ⟨h, rfl, _, made, by decide +kernel, by decide +kernel⟩

end CodeAtlas
