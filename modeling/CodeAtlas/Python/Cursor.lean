/-!
# Positions in a source text
-/

namespace CodeAtlas.Python

/-- A position in a source text. -/
structure Cursor where
  /-- The text from here on. -/
  rest : List Char
  /-- How many characters came before. -/
  offset : Nat := 0
  /-- How many line feeds came before. -/
  row : Nat := 0
  deriving Inhabited

namespace Cursor

/-- The start of a source text, behind a byte order mark. -/
def start (source : String) : Cursor :=
  match source.toList with
  | '\ufeff' :: rest => ⟨rest, 0, 0⟩
  | rest => ⟨rest, 0, 0⟩

/-- The position `n` characters further on. -/
def advance (c : Cursor) (n : Nat) : Cursor :=
  ⟨c.rest.drop n, c.offset + n, c.row + ((c.rest.take n).filter (· == '\n')).length⟩

/-- The text of the next `n` characters. -/
def slice (c : Cursor) (n : Nat) : String := String.ofList (c.rest.take n)

end Cursor

end CodeAtlas.Python
