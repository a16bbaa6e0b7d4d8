import CodeAtlas.Python.Outline

/-!
# Extraction

The outline of a source text, or why it has none. Nothing is extracted from a text with a fault. The
`print` and `exec` statements of Python 2 are faults as well, but only of a text that has no others.
The parser is a parameter.
-/

namespace CodeAtlas.Python

/-- Why a text is not taken as Python. -/
inductive ParseFailure where
  /-- The grammar of the parser cannot be loaded. -/
  | grammar (reason : String)
  /-- The parser gives no tree. -/
  | noTree
  /-- The tree has a fault. Lines are counted from 1. -/
  | fault (line : Nat)
  deriving DecidableEq, Repr

namespace ParseFailure

def message : ParseFailure → String
  | .grammar reason => "failed to load grammar: " ++ reason
  | .noTree => "parser produced no syntax tree"
  | .fault line => "syntax error near line " ++ Nat.repr line

/-- The failure is that of one text, so that others can be read all the same. -/
def isRecoverable : ParseFailure → Bool
  | .grammar _ => false
  | .noTree | .fault _ => true

end ParseFailure

/-- A parser gives the trees of texts. -/
abbrev Parser := String → Option Tree

/-- Statements that only Python 2 has. -/
def legacyStatements : List Kind := [.phrase .printStatement, .phrase .execStatement]

/-- The line of the fault that a tree is rejected for. -/
def faultLine? (t : Tree) : Option Nat :=
  if t.hasFault then some (t.firstFault.getD t.row + 1)
  else (t.firstOfKinds legacyStatements).map (· + 1)

/-- The tree of a text without faults. -/
def treeOf (parse : Parser) (source : String) : Except ParseFailure Tree :=
  match parse source with
  | none => .error .noTree
  | some t =>
    match faultLine? t with
    | some line => .error (.fault line)
    | none => .ok t

/-- What came of an extraction: the graph behind it, and why it failed if it did. -/
structure Extraction where
  graph : Graph
  failure : Option ParseFailure := none

/-- Adds a file to a graph. -/
def extract (parse : Parser) (file source : String) (g : Graph) : Extraction :=
  match treeOf parse source with
  | .error f => { graph := g, failure := some f }
  | .ok t => { graph := g.addAll (outline file .module t) }

end CodeAtlas.Python
