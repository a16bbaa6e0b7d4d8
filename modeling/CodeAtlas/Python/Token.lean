/-!
# Tokens of Python source

The classes of tokens that the grammar tells apart. Keywords are words: a word is read as an
identifier and stands for its keyword only where the grammar can use that keyword. Line ends and
changes of indentation are tokens without text.
-/

namespace CodeAtlas.Python

/-- A class of tokens. -/
inductive Token where
  /-- The end of the source. -/
  | endOfInput
  /-- The end of a logical line. -/
  | newline
  /-- A line indented deeper than the open block. -/
  | indent
  /-- A line indented less than the open block. -/
  | dedent
  /-- The prefix letters and opening quotes of a string. -/
  | stringStart
  /-- A run of plain text inside a string. -/
  | stringText
  /-- A doubled brace inside a formatted string. -/
  | braceEscape
  /-- The closing quotes of a string. -/
  | stringEnd
  /-- A recognised backslash escape inside a string. -/
  | escape
  /-- A backslash inside a string that begins no recognised escape. -/
  | backslash
  /-- Plain text inside a format specifier. -/
  | formatText
  /-- A conversion such as `!r` inside a formatted string. -/
  | conversion
  | identifier
  | integer
  | float
  /-- A keyword. -/
  | word (text : String)
  /-- An operator or delimiter. -/
  | mark (text : String)
  deriving DecidableEq, Hashable, Repr, Inhabited

/-- Tokens that leave no node in the tree. -/
def Token.silent : Token → Bool
  | .endOfInput | .newline | .indent | .dedent | .stringText | .backslash => true
  | _ => false

/-- Tokens with a fixed spelling are anonymous nodes; all others are named. -/
def Token.named : Token → Bool
  | .word _ | .mark _ | .formatText => false
  | _ => true

end CodeAtlas.Python
