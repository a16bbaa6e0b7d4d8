import CodeAtlas.Export.Csv
import CodeAtlas.Export.Cypher
import CodeAtlas.Export.Plan
import CodeAtlas.Graph.Basic

/-!
# Export as tables

One table of nodes, one table for each exported kind of relationship, and a script that imports
them.
-/

namespace CodeAtlas.Tables

def nodeFile : String := "nodes.csv"

def scriptFile : String := "import.cypher"

def usualLabel : String := "Entity"

/-- The records of the node table. A node has an empty field where it lacks an attribute. -/
def nodeRecords (g : Graph) : List (List String) :=
  let columns := g.columns
  columns :: g.nodes.toList.map fun n => columns.map fun c => (n.field? c).getD ""

/-- The records of a relationship table. -/
def relationshipRecords (g : Graph) (kind : RelationKind) : List (List String) :=
  ["start_id", "end_id"] :: (g.relationships kind).map fun r => [r.start, r.target]

def nodeSteps (g : Graph) (directory : String) : List ExportStep :=
  let path := Path.join directory nodeFile
  [.table path (Csv.write (nodeRecords g)),
    .log ⟨.debug, "Wrote " ++ Nat.repr g.nodeCount ++ " nodes to " ++ path⟩]

def relationshipSteps (g : Graph) (directory : String) (kind : RelationKind) : List ExportStep :=
  match kind.fileName? with
  | none => []
  | some file =>
    let path := Path.join directory file
    [.table path (Csv.write (relationshipRecords g kind)),
      .log ⟨.debug, "Wrote " ++ Nat.repr (g.relationships kind).length ++ " " ++ kind.name ++
        " relationships to " ++ path⟩]

/-- A warning if some relationships have no table. -/
def warningsOf (unexported : Nat) : List LogLine :=
  if unexported = 0 then []
  else [⟨.warn, Nat.repr unexported ++ " relationships of unexported kinds were not written"⟩]

def warningSteps (g : Graph) : List ExportStep := (warningsOf g.unexportedCount).map .log

/-- The plan of an export into a directory. -/
def plan (g : Graph) (label directory : String) : List ExportStep :=
  .makeDirectories directory :: nodeSteps g directory ++
    RelationKind.exported.flatMap (relationshipSteps g directory) ++ warningSteps g ++
    [.document (Path.join directory scriptFile) (Cypher.script label nodeFile)]

end CodeAtlas.Tables
