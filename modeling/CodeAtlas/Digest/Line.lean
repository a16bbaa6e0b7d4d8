import CodeAtlas.Text.Space

/-!
# Lines of a digest

A digest holds the files of a source tree one after the other. A marker line opens each file and
names its path; separator lines are decoration.
-/

namespace CodeAtlas.Digest

/-- What a marker line starts with. -/
def marker : List Char := "FILE: ".toList

/-- The path that a marker line names, trimmed. It may be empty. -/
def markerPath? (line : String) : Option String :=
  (Text.afterStart? marker line.toList).map fun rest => String.ofList (Text.trimChars rest)

/-- A line without the carriage return at its end. -/
def withoutReturn (line : List Char) : List Char :=
  if line.getLast? = some '\r' then line.dropLast else line

/-- A separator is one or more `=`, perhaps with a carriage return behind them. -/
def isSeparator (line : String) : Bool :=
  let body := withoutReturn line.toList
  !body.isEmpty && body.all (· = '=')

end CodeAtlas.Digest
