import CodeAtlas.Proofs.Ignored
import CodeAtlas.Proofs.Merging
import CodeAtlas.Proofs.Python.Faults

/-!
# Extraction and the graph it adds to

Extraction adds the outline of a file to a graph or it adds nothing. What is in the graph already
decides neither: the same outline is made for every graph, so that the result is the graph merged
with what the file alone gives (`Graph.IsMerged`). Nodes are kept by their first occurrence and
relationships are not, so a file that is extracted twice adds its relationships twice and its nodes
once.

* `Python.extract_of_ok`, `Python.extract_of_error`: what comes of an extraction.
* `nodes_addAll_again`: entries that were added bring no node when they are added again.
* `extract_merged`: failure, success, and success for a second time.
-/

namespace CodeAtlas

namespace ExtractionLemmas

/-- Entries that were added bring no node when they are added again: all their ids are known. -/
theorem nodes_addAll_again (g : Graph) (es : List Entry) :
    ((g.addAll es).addAll es).nodes = (g.addAll es).nodes := by
  have none : (firsts Node.id (nodesOf es)).filter (!(g.addAll es).hasNode ·.id) = [] := by
    rw [List.filter_eq_nil_iff]
    intro n hn
    have known : n.id ∈ nodeIds es := List.mem_map_of_mem (FirstsLemmas.mem_of_mem_firsts hn)
    rw [(Graph.hasNode_addAll g es n.id).mpr (.inr known)]
    decide
  apply Array.toList_inj.mp
  rw [Graph.nodes_addAll, none, List.append_nil]

end ExtractionLemmas

open ExtractionLemmas in
/-- Extraction is all or nothing, and blind to the graph. Where it fails, the graph behind it is the
one before it, it fails for the same reason in every graph, and a converter is left with the graph
it had. Where it succeeds, it gives the graph merged with what it gives from the empty graph. The
same extraction once more adds no node, and the same relationships again. -/
theorem Python.extract_merged (parse : Parser) (file source : String) (g : Graph) :
    let new := extract parse file source g
    let alone := extract parse file source .empty
    let again := extract parse file source new.graph
    (∀ f, new.failure = some f →
      new.graph = g ∧ (∀ g', (extract parse file source g').failure = some f) ∧
      ∀ (p : Converter.Progress) (language : Language), p.converter.parse = parse → p.graph = g →
        (Converter.addOutline p language ⟨file, source⟩).graph = g) ∧
    (new.failure = none →
      alone.failure = none ∧ new.graph.IsMerged g alone.graph ∧
      again.failure = none ∧ again.graph.nodes = new.graph.nodes ∧
      ∀ kind, again.graph.relationships kind =
        new.graph.relationships kind ++ alone.graph.relationships kind) := by
  intro new alone again
  constructor
  · intro f failed
    have treeless : treeOf parse source = .error f := failure_extract_eq_some_iff.mp failed
    refine ⟨congrArg Extraction.graph (extract_of_error treeless file g),
      fun g' => failure_extract_eq_some_iff.mpr treeless, ?_⟩
    rintro p language rfl rfl
    rw [Converter.addOutline_of_error treeless]
  · intro succeeded
    obtain ⟨t, tree⟩ := failure_extract_eq_none_iff.mp succeeded
    have succeeds (g : Graph) : extract parse file source g =
        { graph := g.addAll (outline file .module t) } := extract_of_ok tree file g
    simp only [new, alone, again, succeeds, true_and]
    exact ⟨Graph.isMerged_addAll g _, nodes_addAll_again g _,
      (Graph.isMerged_addAll (g.addAll _) _).relationships⟩

namespace ExtractionLemmas

/-- A graph that knows the function of `Python.PlacesLemmas.sample` as a file, and has a
relationship of a kind that is not exported. -/
def occupied : Graph :=
  Graph.empty.addAll [.node ⟨"f", .file, []⟩, .relationship (.other "USES") ⟨"f", "x"⟩]

end ExtractionLemmas

open ExtractionLemmas IgnoredLemmas Python.PlacesLemmas in
/-- The function is not added, the class in it is. -/
theorem Python.extract_merged_occupied :
    ((extract reader.parse "s.py" "(" occupied).failure = some (.fault 1) ∧
      (extract reader.parse "s.py" "(" occupied).graph = occupied ∧
      ∀ language, (Converter.addOutline { converter := reader, graph := occupied } language
        ⟨"s.py", "("⟩).graph = occupied) ∧
    let new := extract reader.parse "s.py" sampleSource occupied
    let again := extract reader.parse "s.py" sampleSource new.graph
    new.failure = none ∧ again.failure = none ∧
      new.graph.nodes.toList.map Node.id = ["f", "f.A"] ∧ again.graph.nodes = new.graph.nodes ∧
      again.graph.relationships (.other "USES") = [⟨"f", "x"⟩] ∧
      again.graph.relationships .inherits = [⟨"f.A", "B"⟩, ⟨"f.A", "B"⟩] := by
  constructor
  · have fails : (extract reader.parse "s.py" "(" occupied).failure = some (.fault 1) := rfl
    obtain ⟨same, -, unchanged⟩ := (extract_merged reader.parse "s.py" "(" occupied).1 _ fails
    exact ⟨fails, same, fun language => unchanged _ language rfl rfl⟩
  · intro new again
    have succeeds : new.failure = none := rfl
    obtain ⟨-, -, repeated, nodes, relationships⟩ :=
      (extract_merged reader.parse "s.py" sampleSource occupied).2 succeeds
    refine ⟨succeeds, repeated, by decide +kernel, nodes, ?_, ?_⟩
    · rw [relationships]
      decide +kernel
    · rw [relationships]
      decide +kernel

end CodeAtlas
