import CodeAtlas.Python.Phrase

/-!
# Syntax trees

A tree node has a kind, the row where it starts, its text and its children; a node also knows the
role that it plays in its parent. Nodes that stand for unreadable source have the kind `error`, and
a node that was only supposed is marked as missing.
-/

namespace CodeAtlas.Python

/-- What a node is, apart from its children. -/
structure NodeInfo where
  kind : Kind
  /-- Anonymous nodes are keywords, operators and delimiters. -/
  named : Bool := true
  /-- Supposed by the parser, with no text of its own. -/
  missing : Bool := false
  /-- The row where the node starts, counted from 0. -/
  row : Nat := 0
  text : String := ""
  role : Option Role := none
  deriving DecidableEq, Repr, Inhabited

/-- A syntax tree. -/
inductive Tree where
  | node (info : NodeInfo) (children : List Tree)
  deriving Repr, Inhabited

namespace Tree

def info : Tree → NodeInfo
  | node i _ => i

def children : Tree → List Tree
  | node _ cs => cs

def kind (t : Tree) : Kind := t.info.kind

def row (t : Tree) : Nat := t.info.row

def text (t : Tree) : String := t.info.text

def role (t : Tree) : Option Role := t.info.role

def isNamed (t : Tree) : Bool := t.info.named

/-- The first child with a role. -/
def child? (t : Tree) (r : Role) : Option Tree := t.children.find? (·.role == some r)

def namedChildren (t : Tree) : List Tree := t.children.filter isNamed

/-- The node itself is unreadable or missing. -/
def isFault (t : Tree) : Bool := t.kind == .error || t.info.missing

mutual
/-- All nodes in pre-order. -/
def nodes : Tree → List Tree
  | node i cs => node i cs :: nodesAll cs
/-- All nodes of a list of trees, one tree after the other. -/
def nodesAll : List Tree → List Tree
  | [] => []
  | t :: ts => t.nodes ++ nodesAll ts
end

mutual
/-- The node or something below it is unreadable or missing. -/
def hasFault : Tree → Bool
  | node i cs => (i.kind == .error || i.missing) || anyFault cs
/-- Some tree of a list has a fault. -/
def anyFault : List Tree → Bool
  | [] => false
  | t :: ts => t.hasFault || anyFault ts
end

mutual
/-- The row of the first fault in pre-order. Subtrees without faults are not entered. -/
def firstFault : Tree → Option Nat
  | node i cs =>
    if i.kind == .error || i.missing then some i.row
    else if (node i cs).hasFault then firstFaultIn cs
    else none
/-- The row of the first fault in a list of trees. -/
def firstFaultIn : List Tree → Option Nat
  | [] => none
  | t :: ts => t.firstFault <|> firstFaultIn ts
end

mutual
/-- The row of the first node of one of the kinds, in pre-order over named nodes. -/
def firstOfKinds (kinds : List Kind) : Tree → Option Nat
  | node i cs => if kinds.contains i.kind then some i.row else firstOfKindsIn kinds cs
/-- The row of the first such node in a list of trees, anonymous ones skipped. -/
def firstOfKindsIn (kinds : List Kind) : List Tree → Option Nat
  | [] => none
  | t :: ts =>
    (if t.isNamed then t.firstOfKinds kinds else none) <|> firstOfKindsIn kinds ts
end

end Tree

end CodeAtlas.Python
