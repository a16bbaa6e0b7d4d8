/-!
# Bytes and lines

Text is stored as UTF-8. Raw input is cut into lines at line feeds before it is decoded.
-/

namespace CodeAtlas

abbrev Bytes := List UInt8

namespace Bytes

/-- The UTF-8 form of a text. -/
def ofString (s : String) : Bytes := s.toByteArray.data.toList

/-- The text of which these bytes are the UTF-8 form, if there is one. -/
def decode? (b : Bytes) : Option String := String.fromUTF8? ⟨b.toArray⟩

/-- The byte that ends a line. -/
def lineFeed : UInt8 := 10

/-- Cuts bytes at line feeds, given the finished lines and the current one, both backwards. -/
def linesFrom (finished : List Bytes) (current : Bytes) : Bytes → List Bytes
  | [] => (if current.isEmpty then finished else current.reverse :: finished).reverse
  | b :: rest =>
    if b = lineFeed then linesFrom (current.reverse :: finished) [] rest
    else linesFrom finished (b :: current) rest

/-- The lines of some bytes, without their line feeds. What follows the last line feed is a line
only if it is not empty. -/
def lines (b : Bytes) : List Bytes := linesFrom [] [] b

end Bytes

end CodeAtlas
