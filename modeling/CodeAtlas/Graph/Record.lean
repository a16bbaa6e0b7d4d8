import CodeAtlas.Ascending

/-!
# Records of the graph

Nodes stand for files, classes and functions. A node has an id, a label and attributes; a
relationship joins two ids and is of some kind.
-/

namespace CodeAtlas

/-- What a node stands for. -/
inductive Label where
  | file
  | classDef
  | functionDef
  deriving DecidableEq, Repr, Inhabited

namespace Label

def all : List Label := [.file, .classDef, .functionDef]

def name : Label → String
  | .file => "File"
  | .classDef => "Class"
  | .functionDef => "Function"

def ofName? (name : String) : Option Label := all.find? (·.name = name)

end Label

/-- A node. Its attributes are in ascending order of their keys. -/
structure Node where
  id : String
  label : Label
  attributes : List (String × String) := []
  deriving DecidableEq, Repr, Inhabited

namespace Node

/-- Keys that name the node's own fields and are no attributes. -/
def reserved : List String := ["id", "label"]

/-- Sets an attribute; reserved keys and absent values leave the node as it is. -/
def withAttribute (n : Node) (key : String) (value : Option String) : Node :=
  if reserved.contains key then n
  else match value with
    | none => n
    | some v => { n with attributes := Ascending.put key v n.attributes }

def withName (n : Node) (name : String) : Node := n.withAttribute "name" (some name)

def withPath (n : Node) (path : String) : Node := n.withAttribute "path" (some path)

def withLine (n : Node) (line : Nat) : Node := n.withAttribute "line" (some (Nat.repr line))

def attribute? (n : Node) (key : String) : Option String := n.attributes.lookup key

/-- The value in a column of the node table. -/
def field? (n : Node) (column : String) : Option String :=
  if column = "id" then some n.id
  else if column = "label" then some n.label.name
  else n.attribute? column

end Node

/-- A relationship from one id to another. -/
structure Relationship where
  start : String
  target : String
  deriving DecidableEq, Repr, Inhabited

/-- The kinds of relationships. Kinds other than the first three are kept but not exported. -/
inductive RelationKind where
  | contains
  | inherits
  | calls
  | other (name : String)
  deriving DecidableEq, Repr, Inhabited

namespace RelationKind

def exported : List RelationKind := [.contains, .inherits, .calls]

/-- The name of a kind in all output. -/
def name : RelationKind → String
  | .contains => "CONTAINS"
  | .inherits => "INHERITS"
  | .calls => "CALLS"
  | .other name => name

/-- The table that holds the relationships of a kind. -/
def fileName? : RelationKind → Option String
  | .contains => some "contains.csv"
  | .inherits => some "inherits.csv"
  | .calls => some "calls.csv"
  | .other _ => none

def isExported (k : RelationKind) : Bool := k.fileName?.isSome

/-- The kind with a name; the case of ASCII letters does not matter for the exported kinds. -/
def ofName (name : String) : RelationKind :=
  let upper := String.ofList (name.toList.map Char.toUpper)
  if upper = "CONTAINS" then .contains
  else if upper = "INHERITS" then .inherits
  else if upper = "CALLS" then .calls
  else .other name

end RelationKind

end CodeAtlas
