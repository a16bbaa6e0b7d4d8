import CodeAtlas.Export.Document
import CodeAtlas.Proofs.Export.Tables
import CodeAtlas.Proofs.Graph.History
import CodeAtlas.Proofs.Graph.Records

/-!
# What a document tells

A document in either form reads as one value, which is the document itself (`parse?_text_eq`). From
that value the nodes of the graph, the relationships of the exported kinds and the counts can be
told (`Document.parse?_text`). The order of keys is the only thing that a document adds.

* `wellNumbered_ofGraph`: the numbers of a document are numbers.
* `danglingCount_eq`: the count of dangling relationships, by the ids alone.
-/

namespace CodeAtlas

/-- The value of the one member of an object with a key. -/
def Json.member? (key : String) : Json → Option Json
  | .object members => only? key members
  | _ => none

namespace Document

/-- A count of a document. -/
def count? (key : String) (v : Json) : Option Json :=
  (v.member? "meta").bind (Json.member? key)

/-- The relationships of a kind in a log, as pairs of ids. -/
def pairsOf (log : List Entry) (kind : RelationKind) : Json :=
  .array ((log.filterMap (Entry.relationship? kind)).map fun r =>
    .array [.string r.start, .string r.target])

/-- The relationships of all exported kinds in a log. -/
def exportedOf (log : List Entry) : List Relationship :=
  RelationKind.exported.flatMap fun kind => log.filterMap (Entry.relationship? kind)

/-- A value tells the graph `g` that was made from a log. -/
structure Tells (log : List Entry) (g : Graph) (v : Json) : Prop where
  nodes : ∃ items, v.member? "nodes" = some (.array items) ∧
    items.map Node.ofJson? = g.nodes.toList.map some
  relationships : ∃ members, v.member? "relationships" = some (.object members) ∧
    members.Perm [("CONTAINS", pairsOf log .contains), ("INHERITS", pairsOf log .inherits),
      ("CALLS", pairsOf log .calls)]
  nodeCount : count? "nodes" v = some (.nat g.nodes.size)
  exportedCount : count? "relationships" v = some (.nat (exportedOf log).length)
  danglingCount : count? "dangling" v = some (.nat ((exportedOf log).countP fun r =>
    r.start ∉ g.nodes.toList.map Node.id ∨ r.target ∉ g.nodes.toList.map Node.id))

/-! ## The value of a document -/

namespace DocumentLemmas

/-- The document with all its keys in their order. -/
theorem ofGraph_eq (g : Graph) : ofGraph g =
    .object [
      ("meta", .object [
        ("dangling", .nat (danglingCount g)),
        ("format", .string "compact"),
        ("nodes", .nat g.nodeCount),
        ("relationships", .nat (exportedCount g))]),
      ("nodes", .array (g.nodes.toList.map Node.toJson)),
      ("relationships", .object [
        ("CALLS", pairs g .calls),
        ("CONTAINS", pairs g .contains),
        ("INHERITS", pairs g .inherits)])] := by
  rfl

theorem wellNumbered_pairs (g : Graph) (kind : RelationKind) : (pairs g kind).WellNumbered := by
  refine .array fun v hv => ?_
  obtain ⟨r, -, rfl⟩ := List.mem_map.mp hv
  refine .array fun v hv => ?_
  obtain ⟨text, -, rfl⟩ := List.mem_map.mp hv
  exact .string text

theorem wellNumbered_ofGraph (g : Graph) : (ofGraph g).WellNumbered := by
  have count (n : Nat) : (Json.nat n).WellNumbered := .number (Json.isNumber_repr n)
  rw [ofGraph_eq]
  refine .object ?_
  simp only [List.forall_mem_cons]
  refine ⟨.object ?_, .array ?_, .object ?_, by simp⟩
  · simp only [List.forall_mem_cons]
    exact ⟨count _, .string _, count _, count _, by simp⟩
  · intro v hv
    obtain ⟨n, -, rfl⟩ := List.mem_map.mp hv
    exact RecordsLemmas.wellNumbered_node n
  · simp only [List.forall_mem_cons]
    exact ⟨wellNumbered_pairs g _, wellNumbered_pairs g _, wellNumbered_pairs g _, by simp⟩

/-- The text of a document reads as the document, in both forms. -/
theorem parse?_text_eq (g : Graph) (pretty : Bool) :
    Json.parse? (text g pretty) = some (ofGraph g) := by
  unfold text
  split
  · exact Json.parse?_pretty (wellNumbered_ofGraph g)
  · exact Json.parse?_compact (wellNumbered_ofGraph g)

/-! ## What the value tells -/

theorem danglingCount_eq (g : Graph) :
    danglingCount g = (RelationKind.exported.flatMap g.relationships).countP fun r =>
      r.start ∉ g.nodes.toList.map Node.id ∨ r.target ∉ g.nodes.toList.map Node.id := by
  have split : RelationKind.exported.flatMap g.dangling =
      (RelationKind.exported.flatMap g.relationships).filter (!g.resolves ·) :=
    List.filter_flatMap.symm
  rw [danglingCount, split, ← List.countP_eq_length_filter]
  refine List.countP_congr fun r _ => ?_
  rw [decide_eq_true_eq, Graph.mem_ids_iff, Graph.mem_ids_iff, Graph.resolves, Bool.not_and,
    Bool.or_eq_true, Bool.not_eq_true', Bool.not_eq_true', Bool.not_eq_true, Bool.not_eq_true]

theorem exported_addAll_empty (log : List Entry) :
    RelationKind.exported.flatMap (Graph.empty.addAll log).relationships = exportedOf log := by
  have each : (Graph.empty.addAll log).relationships =
      fun kind => log.filterMap (Entry.relationship? kind) :=
    funext (Graph.relationships_addAll_empty log)
  rw [each, exportedOf]

theorem pairs_addAll_empty (log : List Entry) (kind : RelationKind) :
    pairs (Graph.empty.addAll log) kind = pairsOf log kind := by
  rw [pairs, Graph.relationships_addAll_empty]
  rfl

theorem tells_ofGraph {log : List Entry} (built : ∀ n ∈ nodesOf log, n.Built) :
    Tells log (Graph.empty.addAll log) (ofGraph (Graph.empty.addAll log)) := by
  rw [ofGraph_eq]
  refine ⟨⟨_, rfl, ?_⟩, ⟨_, rfl, ?_⟩, rfl, ?_, ?_⟩
  · rw [List.map_map]
    refine List.map_congr_left fun n hn => ?_
    rw [Graph.nodes_addAll_empty] at hn
    exact Node.ofJson?_toJson (built n (FirstsLemmas.mem_of_mem_firsts hn)).wellKeyed
  · simp only [pairs_addAll_empty]
    exact (List.Perm.swap _ _ _).trans ((List.Perm.swap _ _ _).cons _)
  · rw [← exported_addAll_empty]
    rfl
  · rw [← exported_addAll_empty, ← danglingCount_eq]
    rfl

end DocumentLemmas

open DocumentLemmas in
/-- A document is faithful in both forms. For every log of nodes and relationships, both forms of
the document of its graph read as one value. The nodes in it decode to the nodes of the graph, in
order. It has the three exported kinds and no other, each with its pairs of ids in the order of the
log. It counts the nodes, the pairs, and the pairs with an id that is no node's. -/
theorem parse?_text {log : List Entry} (built : ∀ n ∈ nodesOf log, n.Built) :
    ∃ v, (∀ pretty, Json.parse? (text (Graph.empty.addAll log) pretty) = some v) ∧
      Tells log (Graph.empty.addAll log) v :=
  ⟨_, parse?_text_eq _, tells_ofGraph built⟩

namespace DocumentLemmas

open Tables.TablesLemmas (awkwardFile namelessClass awkwardFile_built namelessClass_built)

/-- A log with awkward texts, a node that comes twice, a relationship whose ends are both nodes and
one of a kind that is not exported. -/
def awkwardLog : List Entry :=
  [.relationship .calls ⟨"", "\n"⟩, .node awkwardFile, .node namelessClass,
    .relationship (.other "USES") ⟨"", ""⟩, .node ⟨"", .functionDef, []⟩,
    .relationship .calls ⟨"", awkwardFile.id⟩]

theorem awkwardLog_built : ∀ n ∈ nodesOf awkwardLog, n.Built := by
  have nodes : nodesOf awkwardLog = [awkwardFile, namelessClass, ⟨"", .functionDef, []⟩] := rfl
  rw [nodes]
  simp only [List.forall_mem_cons]
  exact ⟨awkwardFile_built, namelessClass_built, .new "" .functionDef, by simp⟩

end DocumentLemmas

open DocumentLemmas in
theorem parse?_text_awkward :
    (∀ n ∈ nodesOf awkwardLog, n.Built) ∧
      ∃ v items members,
        (∀ pretty, Json.parse? (text (Graph.empty.addAll awkwardLog) pretty) = some v) ∧
        v.member? "nodes" = some (.array items) ∧
        items.map Node.ofJson? =
          [some ⟨"a,\"b\r\n", .file, [("path", ""), ("x,y", "\"")]⟩,
            some ⟨"", .classDef, [("line", "3")]⟩] ∧
        v.member? "relationships" = some (.object members) ∧
        members.Perm [("CONTAINS", .array []), ("INHERITS", .array []),
          ("CALLS", .array [.array [.string "", .string "\n"],
            .array [.string "", .string "a,\"b\r\n"]])] ∧
        count? "nodes" v = some (.number "2") ∧
        count? "relationships" v = some (.number "2") ∧
        count? "dangling" v = some (.number "1") := by
  obtain ⟨v, read, tells⟩ := parse?_text awkwardLog_built
  obtain ⟨items, nodes, decoded⟩ := tells.nodes
  obtain ⟨members, relationships, kinds⟩ := tells.relationships
  refine ⟨awkwardLog_built, v, items, members, read, nodes, ?_, relationships, kinds, ?_, ?_, ?_⟩
  · rw [decoded]
    decide +kernel
  · exact tells.nodeCount
  · exact tells.exportedCount
  · exact tells.danglingCount

end Document

end CodeAtlas
