import CodeAtlas.Graph.Record

/-!
# Import script

The script that loads the exported tables into Neo4j.
-/

namespace CodeAtlas.Cypher

/-- Labels stand in the script without quotes, so they must be plain identifiers. -/
def isValidLabel (label : String) : Bool :=
  match label.toList with
  | [] => false
  | c :: rest => (c.isAlpha || c = '_') && rest.all fun c => c.isAlphanum || c = '_'

/-- A node pattern that matches by id. -/
def nodePattern (name label column : String) : String :=
  "(" ++ name ++ ":" ++ label ++ " \x7bid: row." ++ column ++ "\x7d)"

def loadLine (file : String) : String :=
  "LOAD CSV WITH HEADERS FROM \x27file:///" ++ file ++ "\x27 AS row\n"

/-- The part of the script that loads the relationships of a kind. -/
def relationshipPart (label : String) (kind : RelationKind) : String :=
  match kind.fileName? with
  | none => ""
  | some file =>
    loadLine file ++
      "MATCH " ++ nodePattern "a" label "start_id" ++ "\n" ++
      "MATCH " ++ nodePattern "b" label "end_id" ++ "\n" ++
      "MERGE (a)-[:" ++ kind.name ++ "]->(b);\n\n"

/-- The script for a node table and the tables of all exported kinds. -/
def script (label nodeFile : String) : String :=
  "// Run this in cypher-shell or Browser (adjust user/password as needed)\n" ++
    loadLine nodeFile ++
    "MERGE " ++ nodePattern "n" label "id" ++ " SET n += row;\n\n" ++
    String.join (RelationKind.exported.map (relationshipPart label))

end CodeAtlas.Cypher
