import CodeAtlas.Proofs.Conversion
import CodeAtlas.Proofs.Digest.RoundTrip
import CodeAtlas.Proofs.Graph.Built
import CodeAtlas.Proofs.Python.Places
import CodeAtlas.Proofs.Scope

/-!
# What may dangle in a converted graph

A call or a base may be a name that no file defines, so the targets of these relationships need not
be nodes. All other ends are nodes (`Graph.Anchored`), in every graph that was made from files.

The reason stands in the walk. What a visit adds needs only one node that it does not bring itself:
the owner of its scope (`Grounded`). The definition that opens a scope brings the owner of that
scope, because entering a definition and qualifying its name give the same text, and the node of the
file owns the top level. A node whose id is known is not added again, but then the id is there.

* `outline_grounded`: every outline is grounded in its owner, for all trees.
* `anchored_processChunk`: one more file keeps a graph anchored.
* `anchored_converted`: so is every graph of a conversion, and every graph that files are added to
  from the start, after each of them.
-/

namespace CodeAtlas

/-! ## Graphs -/

/-- Some node of a graph has an id. -/
def Graph.IsNode (g : Graph) (id : String) : Prop := ∃ n ∈ g.nodes, n.id = id

/-- Only the targets of calls and bases may be no nodes. -/
structure Graph.Anchored (g : Graph) : Prop where
  start : ∀ kind, ∀ r ∈ g.relationships kind, g.IsNode r.start
  target : ∀ kind, kind ≠ .inherits → kind ≠ .calls → ∀ r ∈ g.relationships kind, g.IsNode r.target

/-- Entries bring all nodes that their relationships need, apart from the owner of them all. -/
structure Grounded (owner : String) (es : List Entry) : Prop where
  start : ∀ kind r, .relationship kind r ∈ es → r.start = owner ∨ r.start ∈ nodeIds es
  target : ∀ kind r, .relationship kind r ∈ es → kind ≠ .inherits → kind ≠ .calls →
    r.target ∈ nodeIds es

namespace AnchoredLemmas

theorem isNode_addAll {g : Graph} {es : List Entry} {id : String} :
    (g.addAll es).IsNode id ↔ g.IsNode id ∨ id ∈ nodeIds es := by
  unfold Graph.IsNode
  rw [← Graph.hasNode_iff, ← Graph.hasNode_iff]
  exact Graph.hasNode_addAll g es id

theorem nil_grounded (owner : String) : Grounded owner [] :=
  ⟨fun _ _ h => absurd h List.not_mem_nil, fun _ _ h => absurd h List.not_mem_nil⟩

theorem node_grounded (owner : String) (n : Node) : Grounded owner [.node n] := by
  constructor
  · intro kind r hr
    exact absurd (List.mem_singleton.mp hr) (by simp)
  · intro kind r hr
    exact absurd (List.mem_singleton.mp hr) (by simp)

/-- Entries stay grounded when others follow that have the same owner or one of their nodes as
owner. -/
theorem grounded_append {owner owner' : String} {es fs : List Entry} (hes : Grounded owner es)
    (hfs : Grounded owner' fs) (known : owner' = owner ∨ owner' ∈ nodeIds es) :
    Grounded owner (es ++ fs) := by
  constructor
  · intro kind r hr
    rw [nodeIds_append, List.mem_append]
    rcases List.mem_append.mp hr with hr | hr
    · exact (hes.start kind r hr).imp_right .inl
    · rcases hfs.start kind r hr with start | start
      · rw [start]
        exact known.imp_right .inl
      · exact .inr (.inr start)
  · intro kind r hr inherits calls
    rw [nodeIds_append, List.mem_append]
    rcases List.mem_append.mp hr with hr | hr
    · exact .inl (hes.target kind r hr inherits calls)
    · exact .inr (hfs.target kind r hr inherits calls)

theorem grounded_append_flatMap {α : Type} {owner : String} {owners : α → String}
    {f : α → List Entry} {l : List α} {es : List Entry} (h : Grounded owner es)
    (each : ∀ a ∈ l, Grounded (owners a) (f a))
    (known : ∀ a ∈ l, owners a = owner ∨ owners a ∈ nodeIds es) :
    Grounded owner (es ++ l.flatMap f) := by
  induction l generalizing es with
  | nil => rwa [List.flatMap_nil, List.append_nil]
  | cons a l ih =>
    have first : Grounded owner (es ++ f a) :=
      grounded_append h (each a List.mem_cons_self) (known a List.mem_cons_self)
    rw [List.flatMap_cons, ← List.append_assoc]
    refine ih first (fun b hb => each b (List.mem_cons_of_mem _ hb)) fun b hb => ?_
    rw [nodeIds_append, List.mem_append]
    exact (known b (List.mem_cons_of_mem _ hb)).imp_right .inl

theorem anchored_empty : Graph.empty.Anchored :=
  ⟨fun _ _ h => absurd h List.not_mem_nil, fun _ _ _ _ h => absurd h List.not_mem_nil⟩

theorem anchored_addAll {g : Graph} {owner : String} {es : List Entry} (h : g.Anchored)
    (grounded : Grounded owner es) (known : owner ∈ nodeIds es) : (g.addAll es).Anchored := by
  constructor
  · intro kind r hr
    rw [Graph.relationships_addAll, List.mem_append, mem_filterMap_relationship?] at hr
    rw [isNode_addAll]
    rcases hr with hr | hr
    · exact .inl (h.start kind r hr)
    · rcases grounded.start kind r hr with start | start
      · exact .inr (start ▸ known)
      · exact .inr start
  · intro kind inherits calls r hr
    rw [Graph.relationships_addAll, List.mem_append, mem_filterMap_relationship?] at hr
    rw [isNode_addAll]
    rcases hr with hr | hr
    · exact .inl (h.target kind inherits calls r hr)
    · exact .inr (grounded.target kind r hr inherits calls)

end AnchoredLemmas

/-- Kinds other than calls and bases have no dangling relationships in an anchored graph. -/
theorem Graph.Anchored.dangling_eq_nil {g : Graph} (h : g.Anchored) {kind : RelationKind}
    (inherits : kind ≠ .inherits) (calls : kind ≠ .calls) : g.dangling kind = [] := by
  rw [dangling, List.filter_eq_nil_iff]
  intro r hr
  have start : g.hasNode r.start = true := hasNode_iff.mpr (h.start kind r hr)
  have target : g.hasNode r.target = true :=
    hasNode_iff.mpr (h.target kind inherits calls r hr)
  simp [resolves, start, target]

/-! ## Outlines -/

namespace AnchoredLemmas

open Python

variable {file : String} {scope : Scope} {d : Definition} {t : Tree}

theorem qualify_mem_entries (d : Definition) :
    scope.qualify d.name ∈ nodeIds (d.entries file scope) :=
  mem_nodeIds.mpr ⟨_, List.mem_cons_self, PlacesLemmas.id_node d file scope⟩

/-- A definition hangs on its owner, and its bases hang on the definition. -/
theorem definition_grounded (d : Definition) :
    Grounded (scope.owner file) (d.entries file scope) := by
  have known : scope.qualify d.name ∈ nodeIds (d.entries file scope) := qualify_mem_entries d
  constructor
  · intro kind r hr
    simp only [Definition.entries, List.cons_append, List.nil_append, List.mem_cons,
      List.mem_map, Entry.relationship.injEq, reduceCtorEq, false_or] at hr
    rcases hr with ⟨-, rfl⟩ | ⟨base, -, -, rfl⟩
    · exact .inl rfl
    · exact .inr known
  · intro kind r hr inherits calls
    simp only [Definition.entries, List.cons_append, List.nil_append, List.mem_cons,
      List.mem_map, Entry.relationship.injEq, reduceCtorEq, false_or] at hr
    rcases hr with ⟨-, rfl⟩ | ⟨base, -, rfl, -⟩
    · exact known
    · exact absurd rfl inherits

theorem call_grounded (t : Tree) : Grounded (scope.owner file) (callEntries file scope t) := by
  have only : ∀ kind r, .relationship kind r ∈ callEntries file scope t →
      kind = .calls ∧ r.start = scope.owner file := by
    intro kind r hr
    unfold callEntries at hr
    split at hr
    · split at hr
      · obtain ⟨rfl, rfl⟩ := Entry.relationship.inj (List.mem_singleton.mp hr)
        exact ⟨rfl, rfl⟩
      · contradiction
    · contradiction
  constructor
  · intro kind r hr
    exact .inl (only kind r hr).2
  · intro kind r hr inherits calls
    exact absurd (only kind r hr).1 calls

theorem ownEntries_grounded (t : Tree) :
    Grounded (scope.owner file) (t.ownEntries file scope) := by
  unfold Tree.ownEntries
  split
  · next d _ => exact definition_grounded d
  · split
    · exact call_grounded t
    · exact nil_grounded _

/-- A visit that follows is in the same scope, or in one whose owner has just been added. -/
theorem owner_of_mem_visits {v : Scope × Tree} (h : v ∈ t.visits scope) :
    v.1.owner file = scope.owner file ∨ v.1.owner file ∈ nodeIds (t.ownEntries file scope) := by
  cases hd : t.recorded?.bind Definition.ofTree? with
  | none =>
    rw [Tree.visits_of_none hd] at h
    obtain ⟨c, -, rfl⟩ := List.mem_map.mp h
    exact .inl rfl
  | some d =>
    obtain ⟨r, hr, hd⟩ := Option.bind_eq_some_iff.mp hd
    rw [Tree.visits_of_some hr hd] at h
    obtain ⟨c, -, rfl⟩ := List.mem_map.mp h
    rw [Tree.ownEntries_of_some hr hd, Scope.owner_enter]
    exact .inr (qualify_mem_entries d)

end AnchoredLemmas

open AnchoredLemmas in
/-- Whatever the tree, its outline needs no node but the owner of the scope that it starts in. -/
theorem Python.outline_grounded (file : String) (scope : Scope) (t : Tree) :
    Grounded (scope.owner file) (outline file scope t) := by
  induction scope, t using visit_induction with
  | step scope t ih =>
    rw [outline_eq]
    exact grounded_append_flatMap (ownEntries_grounded t) ih fun v hv => owner_of_mem_visits hv

/-! ## Files -/

namespace Converter

/-- The graph behind some calls that add one file each. The converters may differ. -/
def graphAfter (g : Graph) (calls : List (Converter × Digest.Chunk)) : Graph :=
  calls.foldl (fun g call => (call.1.processChunk call.2 g).graph) g

end Converter

namespace AnchoredLemmas

open Converter

theorem path_mem_entries (c : Converter) (chunk : Digest.Chunk) :
    chunk.path ∈ nodeIds (c.entries chunk) := by
  refine mem_nodeIds.mpr ⟨_, List.mem_cons_self, ?_⟩
  simp only [fileNode, Node.withPath, Node.id_withAttribute]

/-- The node of a file comes first, so that its outline has an owner. -/
theorem entries_grounded (c : Converter) (chunk : Digest.Chunk) :
    Grounded chunk.path (c.entries chunk) := by
  have node := node_grounded chunk.path (fileNode chunk.path)
  unfold entries
  cases c.tree? chunk with
  | none => exact node
  | some t =>
    exact grounded_append node (Python.outline_grounded chunk.path .module t) (.inl rfl)

end AnchoredLemmas

open AnchoredLemmas in
/-- One more file keeps a graph anchored. -/
theorem Converter.anchored_processChunk (c : Converter) (chunk : Digest.Chunk) {g : Graph}
    (h : g.Anchored) : (c.processChunk chunk g).graph.Anchored := by
  rw [graph_processChunk]
  exact anchored_addAll h (entries_grounded c chunk) (path_mem_entries c chunk)

namespace AnchoredLemmas

open Converter

theorem anchored_graphAfter {g : Graph} (h : g.Anchored) (calls : List (Converter × Digest.Chunk)) :
    (graphAfter g calls).Anchored := by
  induction calls generalizing g with
  | nil => exact h
  | cons call rest ih => exact ih (call.1.anchored_processChunk call.2 h)

/-- A conversion is a run of calls by converters that read files in the same way. -/
theorem addAll_flatMap_entries (c : Converter) (g : Graph) (chunks : List Digest.Chunk) :
    g.addAll (chunks.flatMap c.entries) = graphAfter g (chunks.map (c, ·)) := by
  induction chunks generalizing g with
  | nil => rfl
  | cons chunk rest ih =>
    rw [List.flatMap_cons, Graph.addAll_append, ih, ← graph_processChunk]
    rfl

end AnchoredLemmas

open AnchoredLemmas in
/-- Only the targets of calls and bases can dangle: in the graph of every conversion that succeeds,
and in a graph that was empty at first after each of any calls that add files to it. So nothing that
is contained dangles. -/
theorem Converter.anchored_converted :
    (∀ (c : Converter) (digest : Bytes) (g : Graph), (c.convert digest).result = .ok g →
      g.Anchored ∧ g.dangling .contains = []) ∧
    ∀ (calls : List (Converter × Digest.Chunk)) (n : Nat),
      (graphAfter .empty (calls.take n)).Anchored ∧
        (graphAfter .empty (calls.take n)).dangling .contains = [] := by
  have after : ∀ calls, (graphAfter .empty calls).Anchored ∧
      (graphAfter .empty calls).dangling .contains = [] := by
    intro calls
    have h := anchored_graphAfter anchored_empty calls
    exact ⟨h, h.dangling_eq_nil (by decide) (by decide)⟩
  refine ⟨?_, fun calls n => after (calls.take n)⟩
  intro c digest g h
  obtain ⟨-, rfl⟩ := convert_eq_ok_iff.mp h
  rw [addAll_flatMap_entries]
  exact after _

namespace AnchoredLemmas

open Python.PlacesLemmas

/-- A Python file and a file of another kind. -/
def files : List Digest.Chunk := [⟨"s.py", sampleSource⟩, ⟨"notes", "f"⟩]

def digest : Bytes := Digest.render files

/-- A parser that knows one text only. -/
def sampleParser : Python.Parser := fun source =>
  if source = sampleSource then some sample else none

def converter : Converter := { parse := sampleParser }

theorem walk_digest :
    (Digest.walk digest).fault = none ∧ (Digest.walk digest).chunks = files :=
  ⟨Digest.fault_walk_render files, Digest.chunks_walk_render (by decide +kernel)⟩

end AnchoredLemmas

open AnchoredLemmas in
theorem Converter.anchored_converted_sample :
    ∃ g, (converter.convert digest).result = .ok g ∧
      g.relationships .contains = [⟨"s.py", "f"⟩, ⟨"f", "f.A"⟩] ∧
      g.dangling .inherits = [⟨"f.A", "B"⟩] ∧
      g.Anchored ∧ g.dangling .contains = [] := by
  have h : (converter.convert digest).result =
      .ok (Graph.empty.addAll (files.flatMap converter.entries)) :=
    convert_eq_ok_iff.mpr ⟨walk_digest.1, by rw [walk_digest.2]⟩
  exact ⟨_, h, by decide +kernel, by decide +kernel, anchored_converted.1 converter digest _ h⟩

end CodeAtlas
