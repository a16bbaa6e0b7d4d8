/-!
# JSON values

Numbers are kept as they are written. Objects keep the order of their members and may repeat keys.
-/

namespace CodeAtlas

/-- A JSON value. -/
inductive Json where
  | null
  | bool (value : Bool)
  | number (text : String)
  | string (text : String)
  | array (items : List Json)
  | object (members : List (String × Json))
  deriving Repr, Inhabited

namespace Json

def nat (n : Nat) : Json := .number (Nat.repr n)

def strings (texts : List String) : Json := .array (texts.map .string)

end Json

end CodeAtlas
