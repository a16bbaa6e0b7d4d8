import CodeAtlas.Python.Lexer
import CodeAtlas.Python.Tree

/-!
# Readings

A reading is one way to make sense of the text so far: a stack of automaton states with the nodes
that led to them, and a position. A reading goes on by finishing an item, which replaces the frames
of its steps, or by going behind a token.
-/

namespace CodeAtlas.Python

open Std (HashMap)

/-- The automaton of the Python grammar. -/
def automaton : Automaton := .build grammar

def vocabulary : Vocabulary := .ofAutomaton automaton

/-- The symbol with a number. -/
def symbolOf (n : Nat) : Symbol := automaton.symbols.getD n default

/-- The states made so far, by their kernels. -/
abbrev Memory := HashMap Kernel State

/-- The state of a kernel, made only once. -/
def Memory.recall (m : Memory) (k : Kernel) : State × Memory :=
  match m[k]? with
  | some s => (s, m)
  | none =>
    let s := { automaton.state k with number := m.size }
    (s, m.insert k s)

/-! ## Frames -/

/-- One entry of the stack: a matched symbol and the state behind it. -/
structure Frame where
  state : State
  /-- The number of the symbol. -/
  symbol : Nat := 0
  /-- The number of steps that the symbol was built from. -/
  parts : Nat := 0
  nodes : List Tree := []
  /-- Whether the symbol has no node of its own. -/
  transparent : Bool := true
  /-- The row where the symbol starts. -/
  row : Nat := 0

namespace Frame

/-- The nodes of a matched step, recorded as its label says. -/
def labelled (f : Frame) (l : StepLabel) : List Tree :=
  let renamed := match l.kind, f.transparent, f.nodes with
    | some kind, false, [.node info children] =>
      [.node { info with kind, named := true } children]
    | some kind, _, nodes => [.node { kind, row := f.row } nodes]
    | none, _, nodes => nodes
  match l.role with
  | none => renamed
  | some role => renamed.map fun
    | .node info children => .node { info with role := info.role.or (some role) } children

/-- The frame of a token. -/
def ofLexeme (x : Lexeme) (state : State) : Frame :=
  let symbol := x.token
  let row := x.row
  match symbolOf symbol with
  | .token t =>
    if t.silent then { state, symbol, row }
    else
      { state, symbol, row
        nodes := [.node { kind := .token t, named := t.named, row, text := x.text } []]
        transparent := false }
  | _ => { state, symbol, row }

/-- The frame of a finished item, from the frames of its steps, the last one first. A symbol that
matches nothing starts at `row`. -/
def ofItem (i : Item) (steps : List Frame) (row : Nat) (state : State) : Frame :=
  let symbol := i.head
  let parts := steps.length
  let children := (steps.zip i.done).reverse.flatMap fun (f, l) => f.labelled l
  let row := (steps.getLast?.map (·.row)).getD row
  match symbolOf symbol with
  | .phrase p =>
    if p.transparent then { state, symbol, parts, row, nodes := children }
    else
      { state, symbol, parts, row
        nodes := [.node { kind := .phrase p, row } children]
        transparent := false }
  | _ => { state, symbol, parts, row, nodes := children }

/-- The token that a frame holds. -/
def token? (f : Frame) : Option Token :=
  match symbolOf f.symbol with
  | .token t => some t
  | _ => none

/-- Whether two frames differ at most inside their symbols. -/
def alike (f g : Frame) : Bool :=
  f.state.number == g.state.number && f.symbol == g.symbol && f.parts == g.parts

/-- Whether two stacks differ at most inside their symbols. -/
def allAlike : List Frame → List Frame → Bool
  | [], [] => true
  | f :: fs, g :: gs => f.alike g && allAlike fs gs
  | _, _ => false

/-- Whether one list of frames comes before another: at the first difference it has the earlier
symbol, or the same one from fewer parts. -/
def precede : List Frame → List Frame → Bool
  | f :: fs, g :: gs =>
    if f.symbol = g.symbol then
      f.parts < g.parts || (f.parts = g.parts && precede fs gs)
    else f.symbol < g.symbol
  | _, _ => false

end Frame

/-! ## Readings -/

/-- One reading of the text so far. -/
structure Reading where
  /-- The frames, the last one first. -/
  stack : List Frame
  cursor : Cursor
  layout : Layout := {}
  /-- The sum of the weights of all finished phrases. -/
  weight : Int := 0
  /-- The row where a line ended in the middle of the current statement. -/
  brokenLine : Option Nat := none

namespace Reading

def state (r : Reading) : State := (r.stack.head?.map (·.state)).getD default

/-- Whether two readings stand in the same state at the same place. -/
def meets (r s : Reading) : Bool :=
  r.cursor.offset == s.cursor.offset && r.layout == s.layout && r.state.number == s.state.number

/-- Goes on behind a token. -/
def shift (r : Reading) (x : Lexeme) (state : State) : Reading :=
  { r with stack := .ofLexeme x state :: r.stack, cursor := x.behind, layout := x.layout }

/-- The tree of a reading in which the whole module is finished by an item. -/
def finishModule (r : Reading) (item : Item) : List (Int × Tree) :=
  (Frame.ofItem item (r.stack.take item.done.length) 0 default).nodes.map (r.weight + item.weight, ·)

/-- Finishes an item: its steps are replaced by the symbol that they build. -/
def finish (r : Reading) (memory : Memory) (item : Item) : Option (Reading × Memory) :=
  let size := item.done.length
  let below := r.stack.drop size
  match below.head?.bind fun base => base.state.successors[item.head]? with
  | none => none
  | some k =>
    let (state, memory) := memory.recall k
    let frame := Frame.ofItem item (r.stack.take size) r.cursor.row state
    some ({ r with stack := frame :: below, weight := r.weight + item.weight }, memory)

end Reading

end CodeAtlas.Python
