import CodeAtlas.Python.Extract
import CodeAtlas.Python.Front

/-!
# Parsing

The parser follows all readings of a text side by side. A reading that cannot go on is dropped, and
readings that come together again are joined.
-/

namespace CodeAtlas.Python

/-- Joins fronts that meet. -/
def join (fronts : List Front) : List Front :=
  fronts.foldl
    (fun all f => f.readings.foldl
      (fun all r => (Front.addWhereMet r all).getD (all ++ [⟨r, []⟩])) all)
    []

/-- The greatest number of fronts that are followed side by side. -/
def maxFronts : Nat := 16

/-- The fronts to follow on: joined, and the greatest weights first. -/
def select (fronts : List Front) : List Front :=
  ((join fronts).mergeSort fun a b => b.weight ≤ a.weight).take maxFronts

/-- The first tree with the greatest weight. -/
def heaviest? : List (Int × Tree) → Option Tree
  | [] => none
  | t :: rest => some (rest.foldl (fun best u => if best.1 < u.1 then u else best) t).2

/-- The next token of a front, if there is one. A source of some size holds no more comments than
that. -/
def pending? (size : Nat) (f : Front) : Option Front.Pending :=
  (vocabulary.nextLexeme f.state.valid f.first.layout (size + 1) f.first.cursor).map fun token =>
    { front := f.map fun r => { r with brokenLine := r.brokenBefore }, token }

/-- Takes the next token in some fronts. -/
def advance (size : Nat) (out : Front.Outcome) (fronts : List Front) : Front.Outcome :=
  let depth := (fronts.flatMap Front.readings).foldl (fun n r => n + r.stack.length + 1) 1
  Front.takeAll (64 * depth) (fronts.filterMap (pending? size)) out

/-- Follows all fronts to the end: a tree, or a reading that cannot go on. The fronts that are behind
the others go first. -/
def follow (size : Nat) : Nat → List Front → Front.Outcome → Except (Option Reading) Tree
  | 0, _, _ => .error none
  | fuel + 1, fronts, out =>
    match (fronts.map (·.first.cursor.offset)).min? with
    | none =>
      match heaviest? out.trees with
      | none => .error none
      | some t => .ok t
    | some offset =>
      let (behind, ahead) := fronts.partition (·.first.cursor.offset = offset)
      let next := advance size out behind
      match select (next.live ++ ahead) with
      | [] =>
        match heaviest? next.trees with
        | none => .error (behind.getLast?.bind (·.readings.getLast?))
        | some t => .ok t
      | fronts => follow size fuel fronts { next with live := [] }

/-- The kernel of the state before a module. -/
def startKernel : Kernel :=
  let module := automaton.numbers.getD (.phrase .module) 0
  Automaton.normalize ((automaton.openings.getD module []).map fun item =>
    (item, .singleton (vocabulary.number .endOfInput)))

/-- The tree of a source text, or the row where it stops making sense. -/
def read (source : String) : Except Nat Tree :=
  let size := source.length
  let (state, memory) := Memory.recall ∅ startKernel
  let start : Reading := { stack := [{ state }], cursor := .start source }
  match follow size (8 * size + 64) [⟨start, []⟩] { memory } with
  | .ok t => .ok t
  | .error stuck => .error ((stuck.map (·.blamedRow)).getD 0)

/-- The tree of a source text. A text that makes no sense has a tree with an error node. -/
def parse (source : String) : Tree :=
  match read source with
  | .ok t => t
  | .error row => .node { kind := .phrase .module } [.node { kind := .error, row } []]

/-- The parser of Python. It has a tree for every text. -/
def parser : Parser := fun source => some (parse source)

end CodeAtlas.Python
