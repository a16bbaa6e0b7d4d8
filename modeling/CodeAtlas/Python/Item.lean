import CodeAtlas.Python.Grammar
import Std.Data.HashMap

/-!
# Items

A production is one way to build a phrase, and an item is a production of which some steps are
already matched. Of the matched steps an item keeps only what the finished node needs, so that
productions which go on in the same way share their items.
-/

namespace CodeAtlas.Python

/-- What a step of a production matches. A repetition is named by the shape that it repeats. -/
inductive Symbol where
  | token (token : Token)
  | phrase (phrase : Phrase)
  | many (each : Shape)
  deriving DecidableEq, Hashable, Inhabited

/-- How the match of a step is recorded in the finished node. -/
structure StepLabel where
  role : Option Role := none
  kind : Option Kind := none
  deriving DecidableEq, Hashable, Inhabited

/-- What a step inherits from the shapes around it. -/
structure Context where
  level : Option Int := none
  associativity : Option Associativity := none
  label : StepLabel := {}
  deriving DecidableEq, Hashable, Inhabited

/-- One step of a production; its symbol is given by number. -/
structure Step where
  symbol : Nat
  context : Context
  deriving DecidableEq, Hashable, Inhabited

/-- One way to build a phrase. -/
structure Production where
  steps : List Step
  weight : Int := 0
  deriving Inhabited

/-- Of two weights, the one that says more. -/
def strongerWeight (a b : Int) : Int := if a.natAbs < b.natAbs then b else a

/-- `p.append q` goes through the steps of `p` and then through those of `q`. -/
def Production.append (p q : Production) : Production :=
  ⟨p.steps ++ q.steps, strongerWeight p.weight q.weight⟩

/-- All ways to build a shape. Each step has the innermost precedence around it. -/
def Shape.productions (number : Symbol → Nat) (c : Context) : Shape → List Production
  | .blank => [⟨[], 0⟩]
  | .token t => [⟨[⟨number (.token t), c⟩], 0⟩]
  | .phrase p => [⟨[⟨number (.phrase p), c⟩], 0⟩]
  | .many s => [⟨[⟨number (.many s), c⟩], 0⟩]
  | .seq a b =>
    (a.productions number c).flatMap fun p => (b.productions number c).map p.append
  | .alt a b => a.productions number c ++ b.productions number c
  | .level n a s =>
    s.productions number { c with level := some n, associativity := a.or c.associativity }
  | .weight w s =>
    (s.productions number c).map fun p => { p with weight := strongerWeight w p.weight }
  | .role r s => s.productions number { c with label.role := some r }
  | .named k s => s.productions number { c with label.kind := some k }

/-- The symbols that a shape mentions, those inside its repetitions included. -/
def Shape.symbols : Shape → List Symbol
  | .blank => []
  | .token t => [.token t]
  | .phrase p => [.phrase p]
  | .many s => .many s :: s.symbols
  | .seq a b | .alt a b => a.symbols ++ b.symbols
  | .level _ _ s | .weight _ s | .role _ s | .named _ s => s.symbols

/-- A production of which some steps are matched. -/
structure Item where
  /-- The symbol that the production builds. -/
  head : Nat
  /-- How the matched steps are recorded, the last one first. -/
  done : List StepLabel
  /-- The precedence of the last matched step. -/
  level : Option Int
  /-- The associativity of the last matched step. -/
  associativity : Option Associativity
  weight : Int
  /-- The steps still to match. -/
  todo : List Step
  deriving DecidableEq, Hashable, Inhabited

namespace Item

/-- A production of which nothing is matched. -/
def start (head : Nat) (p : Production) : Item := ⟨head, [], none, none, p.weight, p.steps⟩

/-- The item after its next step. -/
def advance (i : Item) : Option Item :=
  match i.todo with
  | [] => none
  | s :: rest =>
    some ⟨i.head, s.context.label :: i.done, s.context.level, s.context.associativity, i.weight, rest⟩

/-- The order in which finished items are tried: by length, and among equals by the symbol built. -/
def comesBefore (i j : Item) : Bool :=
  i.done.length < j.done.length || (i.done.length = j.done.length && i.head ≤ j.head)

/-- An item and all that follow it, given its remaining steps. -/
def unfoldSteps (i : Item) : List Step → List Item
  | [] => [i]
  | s :: rest =>
    i :: unfoldSteps
      ⟨i.head, s.context.label :: i.done, s.context.level, s.context.associativity, i.weight, rest⟩
      rest

/-- An item and all that follow it. -/
def unfold (i : Item) : List Item := i.unfoldSteps i.todo

end Item

end CodeAtlas.Python
