/-!
# Comma-separated tables

Fields are separated by commas and records end with a carriage return and a line feed. A field with
a comma, a quote or a line break is put in quotes, and quotes inside are doubled.
-/

namespace CodeAtlas.Csv

/-- Characters that only a quoted field may hold. -/
def isSpecial (c : Char) : Bool := c = ',' || c = '"' || c = '\r' || c = '\n'

/-- Doubles quotes. -/
def doubleQuotes (cs : List Char) : List Char :=
  cs.flatMap fun c => if c = '"' then ['"', '"'] else [c]

/-- A field as it stands in a table. -/
def escapeField (field : String) : String :=
  if field.toList.any isSpecial then
    String.ofList ('"' :: doubleQuotes field.toList ++ ['"'])
  else field

def writeRecord (fields : List String) : String :=
  ",".intercalate (fields.map escapeField) ++ "\r\n"

def write (records : List (List String)) : String := String.join (records.map writeRecord)

end CodeAtlas.Csv
