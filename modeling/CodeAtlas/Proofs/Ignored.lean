import CodeAtlas.Proofs.Anchored
import Mathlib.Data.List.Forall2

/-!
# What is ignored

The content of a file counts only if the file is read as Python and has no fault. Other contents in
all other places change nothing: neither the graph nor the counters, and neither for the file itself
nor for those behind it. Two things could go wrong. A fault may be found when something of the file
has been recorded already, and something of the file may stay with the converter. Neither is so: all
faults of a tree are known before its outline is made, and from file to file a converter hands on
nothing but its counters.

* `processChunk_alike`: one file.
* `entries_emptied`: a file with a fault adds as much as an empty one.
* `processAll_alike`: any number of files, one after the other.
-/

namespace CodeAtlas

/-! ## Trees without an outline -/

/-- No node of a tree is a call, a class or a function, and none is a decorated definition. -/
def Python.Tree.Bare (t : Tree) : Prop :=
  ∀ s ∈ t.nodes, s.isCall = false ∧ s.isDefinition = false ∧ s.isDecorated = false

instance (t : Python.Tree) : Decidable t.Bare :=
  inferInstanceAs (Decidable (∀ s ∈ t.nodes,
    s.isCall = false ∧ s.isDefinition = false ∧ s.isDecorated = false))

theorem Python.outline_of_bare {t : Tree} (h : t.Bare) (file : String) (scope : Scope) :
    outline file scope t = [] := by
  induction scope, t using visit_induction with
  | step scope t ih =>
    obtain ⟨call, definition, decorated⟩ := h t (PlacesLemmas.mem_nodes_self t)
    have none : t.recorded?.bind Definition.ofTree? = none := by
      simp [Tree.recorded?, definition, decorated]
    rw [outline_eq, Tree.ownEntries_of_none none, if_neg (by simp [call]), List.nil_append,
      List.flatMap_eq_nil_iff]
    intro v hv
    apply ih v hv
    rw [Tree.visits_of_none none] at hv
    obtain ⟨child, hc, rfl⟩ := List.mem_map.mp hv
    intro s hs
    exact h s (PlacesLemmas.mem_nodes_of_child (List.mem_filter.mp hc).1 hs)

namespace Converter

/-- Extraction fails on the content of a file. It does so in all graphs or in none
(`Python.failure_extract_eq_some_iff`). -/
def fails (c : Converter) (chunk : Digest.Chunk) : Bool :=
  (Python.extract c.parse chunk.path chunk.content .empty).failure.isSome

/-- Two files have the same path, and the same content unless it is ignored in both. -/
structure Alike (c : Converter) (a b : Digest.Chunk) : Prop where
  path : a.path = b.path
  content : a.content = b.content ∨ c.extensions.language? a.path = none ∨
    c.fails a = true ∧ c.fails b = true

/-- A file without content in place of one on which extraction fails. -/
def emptied (c : Converter) (chunk : Digest.Chunk) : Digest.Chunk :=
  if c.fails chunk then { chunk with content := "" } else chunk

end Converter

namespace IgnoredLemmas

open Converter

variable {c : Converter} {chunk : Digest.Chunk}

/-! ## Faults -/

theorem error_of_fails (h : c.fails chunk = true) :
    ∃ f, Python.treeOf c.parse chunk.content = .error f := by
  obtain ⟨f, failed⟩ := Option.isSome_iff_exists.mp h
  exact ⟨f, Python.failure_extract_eq_some_iff.mp failed⟩

/-- A file with a fault adds its node alone. -/
theorem entries_of_fails (h : c.fails chunk = true) :
    c.entries chunk = [.node (fileNode chunk.path)] := by
  obtain ⟨f, failed⟩ := error_of_fails h
  have treeless : c.tree? chunk = none := by
    refine Option.eq_none_iff_forall_ne_some.mpr fun t tree => ?_
    rw [tree?_eq_some_iff, failed] at tree
    exact absurd tree.2 nofun
  rw [entries, treeless]

/-- A file with a fault is counted as rejected, and that is all. -/
theorem addOutline_of_fails {p : Progress} (h : p.converter.fails chunk = true)
    (language : Language) :
    (addOutline p language chunk).graph = p.graph ∧
      (addOutline p language chunk).converter =
        { p.converter with counters.rejected := p.converter.counters.rejected + 1 } := by
  obtain ⟨f, failed⟩ := error_of_fails h
  rw [addOutline_of_error failed]
  exact ⟨rfl, rfl⟩

/-! ## Files -/

/-- Files that are alike do the same to a graph and to the converter. -/
theorem processChunk_alike {a b : Digest.Chunk} (h : c.Alike a b) (g : Graph) :
    (c.processChunk a g).graph = (c.processChunk b g).graph ∧
      (c.processChunk a g).converter = (c.processChunk b g).converter := by
  obtain ⟨path, content⟩ := a
  obtain ⟨path', content'⟩ := b
  obtain ⟨rfl, same | unread | ⟨fails, fails'⟩⟩ := h
  · obtain rfl : content = content' := same
    exact ⟨rfl, rfl⟩
  · have unread : c.extensions.language? path = none := unread
    simp only [processChunk, unread, and_self]
  · unfold processChunk
    cases c.extensions.language? path with
    | none => exact ⟨rfl, rfl⟩
    | some language =>
      -- whether extraction fails does not depend on the file having been counted
      have left := addOutline_of_fails (p := c.countFile path g) fails language
      have right := addOutline_of_fails (p := c.countFile path g) fails' language
      exact ⟨left.1.trans right.1.symm, left.2.trans right.2.symm⟩

/-- The counters do not decide what is alike. -/
theorem alike_processChunk (c : Converter) (chunk : Digest.Chunk) (g : Graph)
    {a b : Digest.Chunk} (h : c.Alike a b) : (c.processChunk chunk g).converter.Alike a b := by
  obtain ⟨counters, same⟩ := c.converter_processChunk chunk g
  rw [same]
  exact ⟨h.path, h.content⟩

/-- Files that are alike one by one do the same in two runs that begin with the same graph and the
same converter. What the runs have logged before does not matter. -/
theorem processAll_congr {chunks chunks' : List Digest.Chunk} {p q : Progress}
    (h : List.Forall₂ p.converter.Alike chunks chunks') (graph : p.graph = q.graph)
    (converter : p.converter = q.converter) :
    (processAll p chunks).graph = (processAll q chunks').graph ∧
      (processAll p chunks).converter = (processAll q chunks').converter := by
  induction chunks generalizing p q chunks' with
  | nil =>
    cases h
    exact ⟨graph, converter⟩
  | cons a rest ih =>
    cases h with
    | @cons _ b _ rest' alike tail =>
      obtain ⟨sameGraph, sameConverter⟩ := processChunk_alike alike p.graph
      rw [processAll_cons, processAll_cons, ← converter, ← graph]
      exact ih (tail.imp fun _ _ => alike_processChunk _ a p.graph) sameGraph sameConverter

/-! ## Empty files -/

/-- An empty file adds its node alone. -/
theorem entries_of_bare (h : ∀ t ∈ c.parse "", t.Bare) (path : String) :
    c.entries ⟨path, ""⟩ = [.node (fileNode path)] := by
  unfold entries
  cases tree : c.tree? ⟨path, ""⟩ with
  | none => rfl
  | some t =>
    have parsed := (Python.treeOf_eq_ok_iff.mp (tree?_eq_some_iff.mp tree).2).1
    exact congrArg _ (Python.outline_of_bare (h t parsed) path .module)

/-- A file with a fault adds as much as an empty one: its node. -/
theorem entries_emptied (h : ∀ t ∈ c.parse "", t.Bare) (chunk : Digest.Chunk) :
    c.entries (c.emptied chunk) = c.entries chunk := by
  unfold emptied
  split
  · next fails => rw [entries_of_fails fails, entries_of_bare h]
  · rfl

end IgnoredLemmas

open IgnoredLemmas in
/-- Contents that are ignored have no influence. Two lists of files that are alike one by one, added
to a graph by the same converter, give the same graph and the same counters. If an empty file has no
outline, then the graph is also that of the files with no content in place of every content on which
extraction fails. -/
theorem Converter.processAll_alike (c : Converter) (g : Graph) {chunks chunks' : List Digest.Chunk}
    (h : List.Forall₂ c.Alike chunks chunks') :
    let start : Progress := { converter := c, graph := g }
    (processAll start chunks).graph = (processAll start chunks').graph ∧
      (processAll start chunks).converter.counters =
        (processAll start chunks').converter.counters ∧
      ((∀ t ∈ c.parse "", t.Bare) →
        (processAll start (chunks.map c.emptied)).graph = (processAll start chunks).graph) := by
  intro start
  obtain ⟨graph, converter⟩ := processAll_congr (p := start) (q := start) h rfl rfl
  refine ⟨graph, congrArg counters converter, fun bare => ?_⟩
  have same : (fun chunk => c.entries (c.emptied chunk)) = c.entries :=
    funext (entries_emptied bare)
  rw [graph_processAll, graph_processAll, List.flatMap_map, same]

namespace IgnoredLemmas

open Python.PlacesLemmas

/-- The tree of a call before a statement of Python 2. -/
def legacy : Python.Tree :=
  phrase 0 .module [phrase 0 .expressionStatement [plainCall 0 "f"],
    phrase 1 .printStatement [keyword 1 "print", nameOf 1 "x" none]]

/-- An unreadable source. -/
def broken : Python.Tree := phrase 0 .module [.node { kind := .error } []]

/-- A parser that knows these texts, the empty one and that of `sample`. -/
def faultyParser : Python.Parser
  | "" => some (phrase 0 .module [])
  | "f()\nprint x" => some legacy
  | "(" => some broken
  | source => AnchoredLemmas.sampleParser source

def reader : Converter := { parse := faultyParser }

/-- A file with a fault, a file of another kind, and then a Python file and another one. -/
def faulty : List Digest.Chunk :=
  [⟨"a.py", "f()\nprint x"⟩, ⟨"b.txt", "x"⟩] ++ AnchoredLemmas.files

/-- The same paths with other contents in front. -/
def faulty' : List Digest.Chunk := [⟨"a.py", "("⟩, ⟨"b.txt", "f()"⟩] ++ AnchoredLemmas.files

theorem alike_faulty : List.Forall₂ reader.Alike faulty faulty' := by
  have rejected : reader.Alike ⟨"a.py", "f()\nprint x"⟩ ⟨"a.py", "("⟩ :=
    ⟨rfl, .inr (.inr (by decide +kernel))⟩
  have unread : reader.Alike ⟨"b.txt", "x"⟩ ⟨"b.txt", "f()"⟩ :=
    ⟨rfl, .inr (.inl (by decide +kernel))⟩
  exact .cons rejected (.cons unread (List.forall₂_same.mpr fun _ _ => ⟨rfl, .inl rfl⟩))

def start : Converter.Progress := { converter := reader, graph := .empty }

theorem bare_empty : ∀ t ∈ reader.parse "", t.Bare := by
  decide +kernel

end IgnoredLemmas

open IgnoredLemmas in
/-- The call before the fault is not recorded, and the file behind it is. -/
theorem Converter.processAll_alike_faulty :
    List.Forall₂ reader.Alike faulty faulty' ∧
      (reader.parse "").isSome ∧ (∀ t ∈ reader.parse "", t.Bare) ∧
      (processAll start faulty).graph = (processAll start faulty').graph ∧
      (processAll start faulty').converter.counters = ⟨4, 1, 1⟩ ∧
      (processAll start (faulty.map reader.emptied)).graph = (processAll start faulty).graph ∧
      (processAll start faulty').graph.relationships .calls =
        [⟨"f.A", "h"⟩, ⟨"f", "d"⟩, ⟨"f", "g"⟩] := by
  obtain ⟨graph, counters, emptied⟩ := reader.processAll_alike .empty alike_faulty
  refine ⟨alike_faulty, rfl, bare_empty, graph, ?_, emptied bare_empty, ?_⟩
  · refine counters.symm.trans ?_
    decide +kernel
  · decide +kernel

end CodeAtlas
