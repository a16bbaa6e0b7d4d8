import CodeAtlas.Python.Automaton
import CodeAtlas.Python.Cursor
import CodeAtlas.Python.Layout
import CodeAtlas.Text.Identifier

/-!
# Reading tokens

The next token is the longest one that the grammar can use here; a fixed spelling wins over a
pattern of the same length. Comments and continued lines are passed over.
-/

namespace CodeAtlas.Python

open Std (HashMap)

/-! ## Patterns

Each function gives the length of the longest match at the start of a text; no match has length 0.
-/

namespace Pattern

def identifier : List Char → Nat
  | c :: cs => if Text.isIdentifierStart c then 1 + (cs.takeWhile Text.isIdentifierRest).length else 0
  | [] => 0

/-- Groups of digits, each with an underscore in front or not. -/
def groupsAfter (digit : Char → Bool) : List Char → Nat
  | '_' :: c :: cs => if digit c then 2 + groupsAfter digit cs else 0
  | c :: cs => if digit c then 1 + groupsAfter digit cs else 0
  | [] => 0

/-- Decimal digits, each group with an underscore behind it or not. -/
def decimal : List Char → Nat
  | c :: '_' :: cs => if c.isDigit then 2 + decimal cs else 0
  | c :: cs => if c.isDigit then 1 + decimal cs else 0
  | [] => 0

/-- One character if it is in the class. -/
def one (p : Char → Bool) : List Char → Nat
  | c :: _ => if p c then 1 else 0
  | [] => 0

def isLong (c : Char) : Bool := c = 'L' || c = 'l'

def isImaginary (c : Char) : Bool := c = 'J' || c = 'j'

def isHex (c : Char) : Bool :=
  c.isDigit || ('a' ≤ c && c ≤ 'f') || ('A' ≤ c && c ≤ 'F')

/-- Digits behind a base such as `0x`, with the mark of a long number. -/
def based (digit : Char → Bool) (cs : List Char) : Nat :=
  match groupsAfter digit cs with
  | 0 => 0
  | n => 2 + n + one isLong (cs.drop n)

def integer (cs : List Char) : Nat :=
  let plain := match decimal cs with
    | 0 => 0
    | n => n + one (fun c => isLong c || isImaginary c) (cs.drop n)
  let other := match cs with
    | '0' :: c :: rest =>
      if c = 'x' || c = 'X' then based isHex rest
      else if c = 'o' || c = 'O' then based (fun d => '0' ≤ d && d ≤ '7') rest
      else if c = 'b' || c = 'B' then based (fun d => d = '0' || d = '1') rest
      else 0
    | _ => 0
  max plain other

def exponent : List Char → Nat
  | c :: cs =>
    if c = 'e' || c = 'E' then
      let sign := one (fun c => c = '+' || c = '-') cs
      match decimal (cs.drop sign) with
      | 0 => 0
      | n => 1 + sign + n
    else 0
  | [] => 0

def float (cs : List Char) : Nat :=
  let whole := decimal cs
  let mantissa := match cs.drop whole with
    | '.' :: rest =>
      let fraction := decimal rest
      if 0 < whole || 0 < fraction then whole + 1 + fraction else 0
    | _ => 0
  let body :=
    if 0 < mantissa then mantissa + exponent (cs.drop mantissa)
    else match whole, exponent (cs.drop whole) with
      | 0, _ => 0
      | _, 0 => 0
      | n, e => n + e
  if 0 < body then body + one (fun c => isLong c || isImaginary c) (cs.drop body) else 0

/-- `n` characters of a class. -/
def exactly (n : Nat) (p : Char → Bool) (cs : List Char) : Bool :=
  (cs.take n).length = n && (cs.take n).all p

/-- A backslash and what it escapes. -/
def escape : List Char → Nat
  | '\\' :: 'u' :: cs => if exactly 4 isHex cs then 6 else 0
  | '\\' :: 'U' :: cs => if exactly 8 isHex cs then 10 else 0
  | '\\' :: 'x' :: cs => if exactly 2 isHex cs then 4 else 0
  | '\\' :: '\r' :: '\n' :: _ => 3
  | '\\' :: '\n' :: _ => 2
  | '\\' :: 'N' :: '\x7b' :: cs =>
    let name := (cs.takeWhile fun c => c ≠ '\x7d' && c ≠ '\x00').length
    if 0 < name && cs[name]? = some '\x7d' then 4 + name else 0
  | '\\' :: c :: cs =>
    if "abfrntv\\\"\x27".contains c then 2
    else if exactly 3 Char.isDigit (c :: cs) then 4
    else 0
  | _ => 0

def conversion : List Char → Nat
  | '!' :: c :: _ => if c.isLower then 2 else 0
  | _ => 0

def comment : List Char → Nat
  | '#' :: cs => 1 + (cs.takeWhile fun c => c ≠ '\n' && c ≠ '\x00').length
  | _ => 0

/-- A backslash at the end of a line or of the source. -/
def continuation : List Char → Nat
  | ['\\'] => 1
  | '\\' :: '\n' :: _ => 2
  | '\\' :: '\x00' :: _ => 2
  | '\\' :: '\r' :: '\n' :: _ => 3
  | _ => 0

def formatText (cs : List Char) : Nat :=
  (cs.takeWhile fun c => c ≠ '\x7b' && c ≠ '\x7d' && c ≠ '\n' && c ≠ '\x00').length

/-- The characters that may stand between tokens. -/
def isBlank (c : Char) : Bool :=
  c = ' ' || c = '\n' || c = '\t' || c = '\r' || c = '\x0b' || c = '\x0c' ||
    c = '\ufeff' || c = '\u2060' || c = '\u200b'

end Pattern

/-! ## Tokens -/

/-- The numbers that a grammar gives to tokens, arranged for reading. -/
structure Vocabulary where
  number : Token → Nat
  /-- Spellings of operators and delimiters, longest first. -/
  marks : List (List Char × Nat)
  words : HashMap String Nat

def Vocabulary.ofAutomaton (a : Automaton) : Vocabulary :=
  let marks := a.symbols.toList.zipIdx.filterMap fun (s, n) =>
    match s with
    | .token (.mark text) => some (text.toList, n)
    | _ => none
  let words := a.symbols.toList.zipIdx.filterMap fun (s, n) =>
    match s with
    | .token (.word text) => some (text, n)
    | _ => none
  { number := fun t => a.numbers.getD (.token t) 0
    marks := marks.mergeSort fun x y => y.1.length ≤ x.1.length
    words := HashMap.ofList words }

/-- A token read from the source. -/
structure Lexeme where
  token : Nat
  /-- A keyword, which stands for a plain name where the keyword is of no use. -/
  keyword : Bool := false
  row : Nat
  text : String
  /-- The position behind the token. -/
  behind : Cursor
  layout : Layout

namespace Vocabulary

def expected (v : Vocabulary) (valid : TokenSet) : Expected :=
  let can (t : Token) : Bool := valid.contains (v.number t)
  { newline := can .newline
    indent := can .indent
    dedent := can .dedent
    stringStart := can .stringStart
    stringText := can .stringText
    braceEscape := can .braceEscape
    closer := can (.mark ")") || can (.mark "]") || can (.mark "\x7d") }

/-- The longest token at the start of a text that the grammar can use. `fresh` tells that no blank
stands before it. -/
def longest (v : Vocabulary) (valid : TokenSet) (fresh : Bool) (cs : List Char) :
    Option (Nat × Nat) :=
  let usable (t : Token) (size : Nat) : Nat × Nat :=
    (v.number t, if valid.contains (v.number t) then size else 0)
  let mark := (v.marks.find? fun (text, n) => valid.contains n && text.isPrefixOf cs).map
    fun (text, n) => (n, text.length)
  let candidates : List (Nat × Nat) := mark.toList ++ [
    if fresh then usable .escape (Pattern.escape cs) else (0, 0),
    if fresh then usable .backslash (Pattern.one (· = '\\') cs) else (0, 0),
    usable .conversion (Pattern.conversion cs),
    usable .float (Pattern.float cs),
    usable .integer (Pattern.integer cs),
    (v.number .identifier, Pattern.identifier cs)]
  let best := candidates.foldl (fun best c => if best.2 < c.2 then c else best) (0, 0)
  if best.2 = 0 then none else some best

/-- A comment or a continued line, which may stand before any token. -/
def passedOver (cs : List Char) : Nat := max (Pattern.comment cs) (Pattern.continuation cs)

/-- What stands at a position that holds no layout token: something to pass over, or a token. -/
inductive Plain where
  | pass (behind : Cursor)
  | found (lexeme : Lexeme)
  | none

/-- Reads on at a position that holds no layout token. -/
def plain (v : Vocabulary) (valid : TokenSet) (layout : Layout) (c : Cursor) : Plain :=
  let inSpecifier := valid.contains (v.number .formatText)
  let blanks := (c.rest.takeWhile fun ch =>
    if inSpecifier then ch = '\n' else Pattern.isBlank ch).length
  let here := c.advance blanks
  let lexeme (token size : Nat) (keyword : Bool) : Plain :=
    .found ⟨token, keyword, here.row, here.slice size, here.advance size, layout⟩
  let specifier := if inSpecifier then Pattern.formatText here.rest else 0
  if here.rest.isEmpty then lexeme (v.number .endOfInput) 0 false
  else if 0 < specifier then lexeme (v.number .formatText) specifier false
  else
    let (token, size) := (v.longest valid (blanks = 0) here.rest).getD (0, 0)
    let passed := passedOver here.rest
    if size < passed then .pass (here.advance passed)
    else if size = 0 then .none
    else if token = v.number .identifier then
      match v.words[here.slice size]? with
      | some word => if valid.contains word then lexeme word size true else lexeme token size false
      | none => lexeme token size false
    else lexeme token size false

/-- Reads the next token. Each comment or continued line uses up some fuel. -/
def nextLexeme (v : Vocabulary) (valid : TokenSet) (layout : Layout) :
    Nat → Cursor → Option Lexeme
  | 0, _ => none
  | fuel + 1, c =>
    match layout.scan (v.expected valid) c.rest with
    | some found =>
      let here := c.advance found.before
      some ⟨v.number found.token, false, here.row, here.slice found.size,
        here.advance found.size, found.layout⟩
    | none =>
      match v.plain valid layout c with
      | .pass behind => v.nextLexeme valid layout fuel behind
      | .found lexeme => some lexeme
      | .none => none

end Vocabulary

end CodeAtlas.Python
