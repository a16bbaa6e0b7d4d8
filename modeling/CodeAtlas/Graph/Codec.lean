import CodeAtlas.Graph.Record
import CodeAtlas.Json.Value

/-!
# Records as JSON

A node is one flat object of its id, its label and its attributes, in ascending order of keys. A
label or kind without content is its name; reading also takes an object that gives it `null`.
-/

namespace CodeAtlas

namespace Json

def string? : Json → Option String
  | .string s => some s
  | _ => none

/-- The name of a variant without content: a string, or an object with that one key and `null`. -/
def variant? : Json → Option String
  | .string s => some s
  | .object [(s, .null)] => some s
  | _ => none

end Json

/-- The values of all members with a key. -/
def valuesOf (key : String) (members : List (String × Json)) : List Json :=
  (members.filter (·.1 = key)).map (·.2)

/-- The value of the one member with a key. -/
def only? (key : String) (members : List (String × Json)) : Option Json :=
  match valuesOf key members with
  | [v] => some v
  | _ => none

namespace Label

def toJson (l : Label) : Json := .string l.name

def ofJson? (j : Json) : Option Label := j.variant?.bind ofName?

end Label

namespace Node

/-- The members of the flat object. -/
def members (n : Node) : List (String × Json) :=
  Ascending.put "id" (.string n.id)
    (Ascending.put "label" n.label.toJson (n.attributes.map fun (k, v) => (k, .string v)))

def toJson (n : Node) : Json := .object n.members

/-- Attributes from members in order; of repeated keys the last one counts. -/
def attributesOf? : List (String × Json) → List (String × String) → Option (List (String × String))
  | [], attributes => some attributes
  | (k, .string v) :: rest, attributes => attributesOf? rest (Ascending.put k v attributes)
  | _ :: _, _ => none

def ofJson? : Json → Option Node
  | .object members => do
    let id ← (only? "id" members).bind Json.string?
    let label ← (only? "label" members).bind Label.ofJson?
    let attributes ← attributesOf? (members.filter (!reserved.contains ·.1)) []
    return ⟨id, label, attributes⟩
  | _ => none

end Node

namespace Relationship

def toJson (r : Relationship) : Json :=
  .object [("start_id", .string r.start), ("end_id", .string r.target)]

/-- Reads an object with both ids, whatever else it has, or an array of the two. -/
def ofJson? : Json → Option Relationship
  | .object members => do
    let start ← (only? "start_id" members).bind Json.string?
    let target ← (only? "end_id" members).bind Json.string?
    return ⟨start, target⟩
  | .array [.string start, .string target] => some ⟨start, target⟩
  | _ => none

end Relationship

namespace RelationKind

/-- The name of a kind inside records; a kind with a name of its own has none. -/
def variantName? : RelationKind → Option String
  | .contains => some "Contains"
  | .inherits => some "Inherits"
  | .calls => some "Calls"
  | .other _ => none

def toJson : RelationKind → Json
  | .other name => .object [("Other", .string name)]
  | kind => .string (kind.variantName?.getD "")

def ofJson? : Json → Option RelationKind
  | .object [("Other", .string name)] => some (.other name)
  | j => j.variant?.bind fun s => exported.find? (·.variantName? = some s)

end RelationKind

end CodeAtlas
