import CodeAtlas.Python.Token

/-!
# Layout

Line ends, indentation and strings are read with the help of a memory of the open blocks and the
open strings. Which of these tokens is looked for depends on what the grammar can use next.

* `Layout.scan` finds the next layout or string token.
* `Gap.read` reads the blanks, comments and continued lines between two tokens.
-/

namespace CodeAtlas.Python

/-- An open string: its quote character and the properties that its prefix letters give it. -/
structure Quote where
  mark : Char := '"'
  format : Bool := false
  raw : Bool := false
  bytes : Bool := false
  triple : Bool := false
  deriving DecidableEq, Inhabited

/-- The open blocks and strings, innermost first. -/
structure Layout where
  indents : List Nat := []
  quotes : List Quote := []
  /-- The last string opened or closed was left inside a formatted string. -/
  inFormat : Bool := false
  deriving DecidableEq, Inhabited

/-- Which layout tokens the grammar can use next. -/
structure Expected where
  newline : Bool
  indent : Bool
  dedent : Bool
  stringStart : Bool
  stringText : Bool
  braceEscape : Bool
  /-- Some closing bracket. -/
  closer : Bool

/-! ## Between tokens -/

/-- What stands between two tokens. -/
structure Gap where
  /-- Whether a line ended. -/
  lineEnd : Bool
  /-- The column where the next token starts. -/
  column : Nat
  /-- The column of the first comment on a line of its own. -/
  comment : Option Nat
  /-- The number of characters passed. -/
  size : Nat
  /-- The text behind the gap. -/
  rest : List Char

namespace Gap

mutual
/-- Reads a gap; there is none before a comment that follows a token on its line, nor at a
backslash that continues no line. A tab counts eight columns, and a carriage return or form feed
starts the count again. -/
def read (lineEnd : Bool) (column : Nat) (comment : Option Nat) (size : Nat) :
    List Char → Option Gap
  | [] => some ⟨true, 0, comment, size, []⟩
  | '\n' :: cs => read true 0 comment (size + 1) cs
  | ' ' :: cs => read lineEnd (column + 1) comment (size + 1) cs
  | '\t' :: cs => read lineEnd (column + 8) comment (size + 1) cs
  | '\r' :: cs => read lineEnd 0 comment (size + 1) cs
  | '\x0c' :: cs => read lineEnd 0 comment (size + 1) cs
  | '#' :: cs => if lineEnd then readComment (comment.or (some column)) (size + 1) cs else none
  | '\\' :: '\r' :: '\n' :: cs => read lineEnd column comment (size + 3) cs
  | '\\' :: '\n' :: cs => read lineEnd column comment (size + 2) cs
  | ['\\', '\r'] => some ⟨true, 0, comment, size + 2, []⟩
  | ['\\'] => some ⟨true, 0, comment, size + 1, []⟩
  | '\\' :: _ => none
  | cs => some ⟨lineEnd, column, comment, size, cs⟩
/-- Passes over a comment and goes on with the next line. -/
def readComment (comment : Option Nat) (size : Nat) : List Char → Option Gap
  | [] => some ⟨true, 0, comment, size, []⟩
  | c :: cs =>
    if c = '\n' || c = '\x00' then read true 0 comment (size + 1) cs
    else readComment comment (size + 1) cs
end

end Gap

/-! ## Strings -/

namespace Quote

/-- The prefix letters and quotes that open a string, with their length. -/
def opening (q : Quote) (size : Nat) : List Char → Option (Quote × Nat)
  | [] => none
  | c :: cs =>
    if c = 'f' || c = 'F' then opening { q with format := true } (size + 1) cs
    else if c = 'r' || c = 'R' then opening { q with raw := true } (size + 1) cs
    else if c = 'b' || c = 'B' then opening { q with bytes := true } (size + 1) cs
    else if c = 'u' || c = 'U' then opening q (size + 1) cs
    else if c = '\x60' then some ({ q with mark := c }, size + 1)
    else if c = '\x27' || c = '"' then
      if cs.take 2 = [c, c] then some ({ q with mark := c, triple := true }, size + 3)
      else some ({ q with mark := c }, size + 1)
    else none

/-- What a string goes on with. -/
inductive Piece where
  /-- Plain text of some length. -/
  | text (size : Nat)
  /-- The closing quotes, with what stands before them. -/
  | close (size : Nat)
  /-- Something that is not plain text. -/
  | other
  /-- The text ran out. -/
  | exhausted (rest : List Char) (size : Nat)

/-- In a raw string, how much a backslash takes along. -/
def escapedSize (q : Quote) (cs : List Char) : Nat :=
  let (own, behind) := match cs with
    | c :: rest => if c = q.mark || c = '\\' then (1, rest) else (0, cs)
    | [] => (0, [])
  match behind with
  | '\r' :: '\n' :: _ => own + 2
  | '\r' :: _ => own + 1
  | '\n' :: _ => own + 1
  | _ => own

/-- Reads on in an open string. `skip` characters are passed unseen, and `texted` tells whether
plain text stands before them. -/
def piece (q : Quote) (skip : Nat) (texted : Bool) (size : Nat) : List Char → Piece
  | [] => .exhausted [] size
  | c :: cs =>
    if 0 < skip then piece q (skip - 1) texted (size + 1) cs
    else if c = '\x00' then .exhausted (c :: cs) size
    else
      let textOrOther : Piece := if texted then .text size else .other
      if (c = '\x7b' || c = '\x7d') && q.format then textOrOther
      else if c = '\\' then
        if q.raw then piece q (q.escapedSize cs) texted (size + 1) cs
        else if q.bytes && (cs.head?.any fun d => d = 'N' || d = 'u' || d = 'U') then
          piece q 2 true (size + 1) cs
        else textOrOther
      else if c = q.mark then
        if q.triple then
          if cs.take 2 = [c, c] then if texted then .text size else .close (size + 3)
          else if cs.take 1 = [c] then .text (size + 2)
          else .text (size + 1)
        else if texted then .text size
        else .close (size + 1)
      else if c = '\n' && texted && !q.triple then .other
      else piece q 0 true (size + 1) cs

end Quote

/-! ## Layout tokens -/

namespace Layout

/-- A layout token: how many characters stand before it and in it, and what is open behind it. -/
structure Found where
  token : Token
  before : Nat
  size : Nat
  layout : Layout

/-- The column of the innermost open block. -/
def column (l : Layout) : Nat := l.indents.headD 0

/-- Looks for a line end, a change of indentation or the start of a string behind `size`
characters. A closed block may be reported even where the grammar has no use for it. Of the column
of a block only the last eight bits are kept. -/
def scanGap (e : Expected) (l : Layout) (size : Nat) (cs : List Char) : Option Found :=
  match Gap.read false 0 none 0 cs with
  | none => none
  | some gap =>
    let quoteNext := gap.rest.head?.any fun c => c = '"' || c = '\x27' || c = '\x60'
    let mayClose := e.dedent || (!e.newline && !(e.stringStart && quoteNext) && !e.closer)
    let past := gap.comment.all (· < l.column)
    if gap.lineEnd && e.indent && l.column < gap.column then
      some ⟨.indent, size, 0, { l with indents := gap.column % 256 :: l.indents }⟩
    else if gap.lineEnd && mayClose && gap.column < l.column && !l.inFormat && past then
      some ⟨.dedent, size, 0, { l with indents := l.indents.tail }⟩
    else if gap.lineEnd && e.newline then
      some ⟨.newline, size, 0, l⟩
    else if gap.comment.isNone && e.stringStart then
      (Quote.opening {} 0 gap.rest).map fun (q, n) =>
        ⟨.stringStart, size + gap.size, n, { l with quotes := q :: l.quotes, inFormat := q.format }⟩
    else none

/-- Looks for a piece of the innermost open string, or else for what `scanGap` finds. -/
def scan (e : Expected) (l : Layout) (cs : List Char) : Option Found :=
  match l.quotes with
  | [] => l.scanGap e 0 cs
  | q :: outer =>
    let brace := match cs with
      | c :: _ => c = '\x7b' || c = '\x7d'
      | [] => false
    if e.braceEscape && brace && q.format then
      match cs with
      | c :: d :: _ => if c = d then some ⟨.braceEscape, 0, 2, l⟩ else none
      | _ => none
    else if e.stringText then
      match q.piece 0 false 0 cs with
      | .text n => some ⟨.stringText, 0, n, l⟩
      | .close n => some ⟨.stringEnd, 0, n, { l with quotes := outer, inFormat := false }⟩
      | .other => none
      | .exhausted rest n => l.scanGap e n rest
    else l.scanGap e 0 cs

end Layout

end CodeAtlas.Python
