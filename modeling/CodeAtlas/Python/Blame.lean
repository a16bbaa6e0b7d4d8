import CodeAtlas.Python.Reading

/-!
# Blame

Where a reading cannot go on, the fault is often not in the next token but before it: in a bracket
or string that was never closed, in a line that ended too early, or between two operands without an
operator. `Reading.blamedRow` finds the row to report.
-/

namespace CodeAtlas.Python

/-! ## Brackets -/

/-- An open bracket and its row. -/
structure Bracket where
  mark : Char
  row : Nat
  deriving DecidableEq, Repr, Inhabited

namespace Bracket

/-- The closing bracket that belongs to an opening one. -/
def closer : Char → Char
  | '(' => ')'
  | '[' => ']'
  | _ => '\x7d'

/-- What the text is in the middle of. -/
inductive Inside where
  | code
  | comment
  /-- A string, with its quote and whether that is tripled. -/
  | string (quote : Char) (triple : Bool)

/-- The brackets still open at the end of a text, innermost first. `skip` characters are passed
unseen. Matching stops at a closing bracket that does not fit. -/
def openAtEnd (opened : List Bracket) (inside : Inside) (skip row : Nat) :
    List Char → List Bracket
  | [] => opened
  | c :: cs =>
    let below := if c = '\n' then row + 1 else row
    if 0 < skip then openAtEnd opened inside (skip - 1) below cs
    else match inside with
      | .comment => openAtEnd opened (if c = '\n' then .code else .comment) 0 below cs
      | .string q triple =>
        if c = '\\' then openAtEnd opened inside 1 below cs
        else if triple then
          if c = q && cs.take 2 = [q, q] then openAtEnd opened .code 2 below cs
          else openAtEnd opened inside 0 below cs
        else if c = q || c = '\n' then openAtEnd opened .code 0 below cs
        else openAtEnd opened inside 0 below cs
      | .code =>
        if c = '#' then openAtEnd opened .comment 0 below cs
        else if c = '"' || c = '\x27' then
          if cs.take 2 = [c, c] then openAtEnd opened (.string c true) 2 below cs
          else openAtEnd opened (.string c false) 0 below cs
        else if c = '(' || c = '[' || c = '\x7b' then
          openAtEnd (⟨c, row⟩ :: opened) .code 0 below cs
        else if c = ')' || c = ']' || c = '\x7d' then
          match opened with
          | b :: outer => if closer b.mark = c then openAtEnd outer .code 0 below cs else []
          | [] => []
        else openAtEnd opened .code 0 below cs

end Bracket

namespace Frame

/-- The bracket that a frame opens. -/
def opens? (f : Frame) : Option Char :=
  match f.token? with
  | some (.mark "(") => some '('
  | some (.mark "[") => some '['
  | some (.mark "\x7b") => some '\x7b'
  | _ => none

/-- Whether a frame closes a bracket. -/
def closes (f : Frame) : Bool :=
  f.token? == some (.mark ")") || f.token? == some (.mark "]") || f.token? == some (.mark "\x7d")

end Frame

/-! ## Gaps -/

/-- The size of the blanks, comments and continued lines before the next token. -/
def gapSize (inComment : Bool) : List Char → Nat
  | [] => 0
  | '\\' :: '\n' :: cs => 2 + gapSize false cs
  | '\\' :: '\r' :: '\n' :: cs => 3 + gapSize false cs
  | c :: cs =>
    if inComment then 1 + gapSize (c ≠ '\n') cs
    else if c = '#' then 1 + gapSize true cs
    else if Pattern.isBlank c then 1 + gapSize false cs
    else 0

/-- Whether a line ends before the next token. -/
def endsLine : List Char → Bool
  | [] => true
  | '\\' :: '\n' :: cs => endsLine cs
  | '\\' :: '\r' :: '\n' :: cs => endsLine cs
  | c :: cs =>
    if c = '\n' || c = '#' then true
    else if c = ' ' || c = '\t' || c = '\r' || c = '\x0c' then endsLine cs
    else false

/-! ## Operands -/

/-- The token that begins an operand with a given character. -/
def operandToken? (c : Char) : Option Token :=
  if Text.isIdentifierStart c then some .identifier
  else if c.isDigit then some .integer
  else if c = '"' || c = '\x27' then some .stringStart
  else none

/-- The row of the operand in whose place a token could stand, within the innermost bracket.
`closed` brackets are being passed over, and `above` is the row of the frame just passed. -/
def rivalRow? (token closed above : Nat) : List Frame → Option Nat
  | [] => none
  | f :: rest =>
    if closed = 0 && f.state.valid.contains token then some above
    else if f.closes then rivalRow? token (closed + 1) f.row rest
    else if f.opens?.isSome then
      if closed = 0 then none else rivalRow? token (closed - 1) f.row rest
    else rivalRow? token closed f.row rest

/-! ## Readings -/

namespace Reading

/-- The brackets that a reading has opened and not closed, innermost first. -/
def brackets (r : Reading) : List Bracket :=
  r.stack.foldr
    (fun f opened =>
      match f.opens? with
      | some mark => ⟨mark, f.row⟩ :: opened
      | none => if f.closes then opened.tail else opened)
    []

/-- Whether the last token began a line. -/
def atLineStart (r : Reading) : Bool :=
  match r.stack.head?.bind Frame.token? with
  | some .newline | some .indent | some .dedent => true
  | _ => r.stack.length ≤ 1

/-- The row where a line ended in the middle of the current statement, up to the next token. -/
def brokenBefore (r : Reading) : Option Nat :=
  if r.atLineStart then none
  else if endsLine r.cursor.rest && r.layout.quotes.isEmpty && r.brackets.isEmpty then
    r.brokenLine.or (some r.cursor.row)
  else r.brokenLine

/-- The row to report when a reading cannot go on. -/
def blamedRow (r : Reading) : Nat :=
  if r.state.valid.contains (vocabulary.number .stringText) then
    ((r.stack.find? fun f => f.token? == some .stringStart).map (·.row)).getD r.cursor.row
  else
    let next := r.cursor.advance (gapSize false r.cursor.rest)
    let row := match r.brokenBefore, next.rest with
      | some row, _ => row
      | none, [] => r.cursor.row
      | none, c :: _ =>
        if r.brackets.isEmpty then next.row
        else ((operandToken? c).bind fun t =>
          rivalRow? (vocabulary.number t) 0 next.row r.stack).getD next.row
    match Bracket.openAtEnd r.brackets .code 0 r.cursor.row r.cursor.rest with
    | b :: _ => min b.row row
    | [] => row

end Reading

end CodeAtlas.Python
