import CodeAtlas.Export.Plan
import CodeAtlas.Graph.Basic
import CodeAtlas.Graph.Codec
import CodeAtlas.Json.Printer

/-!
# Export as one document

The whole graph as one JSON document: its nodes, the relationships of the exported kinds as pairs of
ids, and some counts. All objects have their keys in ascending order.
-/

namespace CodeAtlas.Document

def fileName : String := "graph.json"

/-- The relationships of a kind as pairs of ids. -/
def pairs (g : Graph) (kind : RelationKind) : Json :=
  .array ((g.relationships kind).map fun r => Json.strings [r.start, r.target])

/-- The number of relationships that are exported. -/
def exportedCount (g : Graph) : Nat :=
  (RelationKind.exported.flatMap g.relationships).length

/-- The number of exported relationships with an end that is no node. -/
def danglingCount (g : Graph) : Nat :=
  (RelationKind.exported.flatMap g.dangling).length

/-- An object with its keys in ascending order. -/
def sorted (members : List (String × Json)) : Json :=
  .object (members.foldl (fun m (k, v) => Ascending.put k v m) [])

def ofGraph (g : Graph) : Json :=
  sorted [
    ("meta", sorted [
      ("nodes", .nat g.nodeCount),
      ("relationships", .nat (exportedCount g)),
      ("dangling", .nat (danglingCount g)),
      ("format", .string "compact")]),
    ("nodes", .array (g.nodes.toList.map Node.toJson)),
    ("relationships", sorted (RelationKind.exported.map fun k => (k.name, pairs g k)))]

/-- The text of the document. -/
def text (g : Graph) (pretty : Bool) : String :=
  if pretty then (ofGraph g).pretty else (ofGraph g).compact

/-- The plan of an export into a file. -/
def plan (g : Graph) (pretty : Bool) (path : String) : List ExportStep :=
  let directory := Path.parent path
  (if directory = "" then [] else [.makeDirectories directory]) ++
    [.document path (text g pretty)]

end CodeAtlas.Document
