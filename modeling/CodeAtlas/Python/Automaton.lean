import CodeAtlas.Python.Item
import CodeAtlas.Python.TokenSet
import Std.Data.HashMap

/-!
# The automaton of the grammar

A state of the automaton is a set of items, each with the tokens that may follow it. States are
made from their kernels when a parse first needs them. Where both going on and finishing a phrase
are possible, the precedences decide; where they do not, the parser follows every reading.

* `Automaton.build` numbers the symbols and items of a grammar.
* `Automaton.state` completes a kernel to a state.
* `Automaton.moves` lists what may be done in a state before a token.
-/

namespace CodeAtlas.Python

open Std (HashMap)

/-- A symbol that can begin another one: the tokens that follow it there, and whether whatever
follows the whole may follow it too. -/
structure Corner where
  symbol : Nat
  after : TokenSet
  inherits : Bool
  deriving Inhabited

/-- The numbered symbols and items of a grammar. Tokens have the lowest numbers. -/
structure Automaton where
  symbols : Array Symbol
  numbers : HashMap Symbol Nat
  items : Array Item
  /-- By item: the number of its next symbol and of the item after that. -/
  next : Array (Option (Nat × Nat))
  /-- By symbol: the items of its productions, nothing matched. -/
  openings : Array (List Nat)
  /-- By symbol: the tokens that can begin it. -/
  first : Array TokenSet
  /-- By symbol: the symbols that can begin it, itself included. -/
  corners : Array (List Corner)
  deriving Inhabited

/-- Items with the tokens that may follow them, in ascending order of the items. -/
abbrev Kernel := List (Nat × TokenSet)

/-- A state of the automaton. -/
structure State where
  kernel : Kernel
  /-- The place of the state in the order of making. -/
  number : Nat := 0
  /-- The finished items, the shorter ones first. -/
  finished : Kernel
  /-- By symbol: the kernel of the state behind it. -/
  successors : HashMap Nat Kernel
  /-- The tokens with which the text may go on. -/
  valid : TokenSet
  deriving Inhabited

namespace Automaton

/-! ## Numbering -/

/-- Numbers the members of a list in order of first appearance. -/
def enumerate {α : Type} [BEq α] [Hashable α] (xs : List α) : Array α × HashMap α Nat :=
  xs.foldl
    (fun (seen, numbers) x =>
      if numbers.contains x then (seen, numbers)
      else (seen.push x, numbers.insert x seen.size))
    (#[], ∅)

/-- All symbols of a grammar: tokens, beginning with the end of input, then phrases in their order,
then repetitions. -/
def symbolList (rules : List (Phrase × Shape)) : List Symbol :=
  let all := rules.flatMap fun (_, s) => s.symbols
  let phrases := (rules.map (·.1)).mergeSort fun p q => (compare p q).isLE
  let isToken : Symbol → Bool
    | .token _ => true
    | _ => false
  .token .endOfInput :: all.filter isToken ++ phrases.map .phrase ++ all.filter (!isToken ·)

/-- The productions of a symbol. A repetition is two shorter ones or a single member. -/
def productionsOf (rules : List (Phrase × Shape)) (number : Symbol → Nat) :
    Symbol → List Production
  | .token _ => []
  | .phrase p => ((rules.lookup p).map (·.productions number {})).getD []
  | .many s =>
    let self : Step := ⟨number (.many s), {}⟩
    ⟨[self, self], 0⟩ :: s.productions number {}

/-! ## Beginnings -/

/-- One round of finding the tokens that can begin each symbol. -/
def firstRound (openings : Array (List Nat)) (next : Array (Option (Nat × Nat)))
    (first : Array TokenSet) : Array TokenSet :=
  openings.zipIdx.foldl
    (fun first (items, symbol) =>
      items.foldl
        (fun first item =>
          match next.getD item none with
          | some (s, _) => first.modify symbol (· ∪ first.getD s .empty)
          | none => first)
        first)
    first

/-- The symbols that can begin `symbol` directly. -/
def directCorners (openings : Array (List Nat)) (next : Array (Option (Nat × Nat)))
    (first : Array TokenSet) (tokens : Nat) (symbol : Nat) : List Corner :=
  (openings.getD symbol []).filterMap fun item =>
    match next.getD item none with
    | some (s, rest) =>
      if s < tokens then none
      else match next.getD rest none with
        | some (t, _) => some ⟨s, first.getD t .empty, false⟩
        | none => some ⟨s, .empty, true⟩
    | none => none

/-- Adds what is known of a corner; the flag tells whether that was news. -/
def addCorner (known : HashMap Nat Corner) (c : Corner) : HashMap Nat Corner × Bool :=
  match known[c.symbol]? with
  | none => (known.insert c.symbol c, true)
  | some old =>
    let after := old.after ∪ c.after
    let inherits := old.inherits || c.inherits
    if after = old.after && inherits == old.inherits then (known, false)
    else (known.insert c.symbol ⟨c.symbol, after, inherits⟩, true)

/-- Follows direct corners from the symbols in `work` until nothing new is found. -/
def spread (direct : Array (List Corner)) :
    Nat → List Nat → HashMap Nat Corner → HashMap Nat Corner
  | 0, _, known => known
  | _, [], known => known
  | fuel + 1, symbol :: work, known =>
    match known[symbol]? with
    | none => spread direct fuel work known
    | some via =>
      let (known, work) := (direct.getD symbol []).foldl
        (fun (known, work) c =>
          let through : Corner :=
            if c.inherits then ⟨c.symbol, via.after, via.inherits⟩ else c
          let (known, news) := addCorner known through
          (known, if news then c.symbol :: work else work))
        (known, work)
      spread direct fuel work known

/-- Numbers the symbols and items of a grammar. -/
def build (rules : List (Phrase × Shape)) : Automaton :=
  let (symbols, numbers) := enumerate (symbolList rules)
  let number (s : Symbol) : Nat := numbers.getD s 0
  let tokens := (symbols.filter fun | .token _ => true | _ => false).size
  let starts : Array (List Item) := symbols.mapIdx fun n s =>
    (productionsOf rules number s).map (Item.start n)
  let (items, itemNumbers) := enumerate (starts.toList.flatten.flatMap Item.unfold)
  let itemNumber (i : Item) : Nat := itemNumbers.getD i 0
  let next := items.map fun i =>
    match i.todo, i.advance with
    | s :: _, some j => some (s.symbol, itemNumber j)
    | _, _ => none
  let openings := starts.map (·.map itemNumber)
  let seed := symbols.mapIdx fun n _ => if n < tokens then TokenSet.singleton n else .empty
  let first := (List.range symbols.size).foldl (fun f _ => firstRound openings next f) seed
  let direct := symbols.mapIdx fun n _ => directCorners openings next first tokens n
  let corners := symbols.mapIdx fun n _ =>
    if n < tokens then []
    else (spread direct (symbols.size * symbols.size * 64) [n]
      (HashMap.ofList [(n, ⟨n, .empty, true⟩)])).values
  { symbols, numbers, items, next, openings, first, corners }

/-! ## States -/

/-- Merges neighbours that are the same item. -/
def mergeNeighbours : Kernel → Kernel
  | (i, s) :: (j, t) :: rest =>
    if i = j then mergeNeighbours ((i, s ∪ t) :: rest) else (i, s) :: mergeNeighbours ((j, t) :: rest)
  | short => short
termination_by k => k.length

/-- Sorts items and joins what follows the same item. -/
def normalize (k : Kernel) : Kernel := mergeNeighbours (k.mergeSort fun a b => a.1 ≤ b.1)

/-- The symbols that may come next in a kernel, with the tokens that may follow them. -/
def expansion (a : Automaton) (kernel : Kernel) : HashMap Nat TokenSet :=
  kernel.foldl
    (fun known (item, follow) =>
      match a.next.getD item none with
      | none => known
      | some (symbol, rest) =>
        let behind := match a.next.getD rest none with
          | some (t, _) => a.first.getD t .empty
          | none => follow
        (a.corners.getD symbol []).foldl
          (fun known c =>
            let set := if c.inherits then c.after ∪ behind else c.after
            known.insert c.symbol (known.getD c.symbol .empty ∪ set))
          known)
    ∅

/-- Completes a kernel to a state. -/
def state (a : Automaton) (kernel : Kernel) : State :=
  let expanded := (a.expansion kernel).toList.flatMap fun (symbol, follow) =>
    (a.openings.getD symbol []).map fun item => (item, follow)
  let all := kernel ++ expanded
  let finished := (all.filter fun (item, _) => (a.next.getD item none).isNone).mergeSort
    fun x y => (a.items.getD x.1 default).comesBefore (a.items.getD y.1 default)
  let successors := all.foldl
    (fun (m : HashMap Nat Kernel) (item, follow) =>
      match a.next.getD item none with
      | some (symbol, rest) => m.insert symbol ((rest, follow) :: m.getD symbol [])
      | none => m)
    ∅
  let reducible := finished.foldl (fun s (_, follow) => s ∪ follow) TokenSet.empty
  let valid := successors.fold
    (fun s symbol _ => match a.symbols.getD symbol default with
      | .token _ => s ∪ .singleton symbol
      | _ => s)
    reducible
  { kernel, finished, valid, successors := successors.map fun _ k => normalize k }

/-! ## Moves -/

/-- What may be done before a token: finish some items, and perhaps take the token. -/
structure Moves where
  finish : List Nat
  shift : Option Kernel

/-- The items that finish before a token; of several, those with the highest precedence. -/
def finishable (a : Automaton) (s : State) (token : Nat) : List Nat :=
  let level (item : Nat) : Int := ((a.items.getD item default).level).getD 0
  (s.finished.filter fun (_, follow) => follow.contains token).foldl
    (fun best (item, _) =>
      match best with
      | [] => [item]
      | b :: _ =>
        if level b < level item then [item]
        else if level item < level b then best
        else best ++ [item])
    []

/-- Weighs finishing against taking a token. Two members of one repetition are joined at once.
Otherwise the higher precedence wins, and among equals the associativity decides; if that does not
decide either, both are kept. -/
def moves (a : Automaton) (s : State) (token : Nat) : Moves :=
  let item (n : Nat) : Item := a.items.getD n default
  let finish := a.finishable s token
  match s.successors[token]?, finish with
  | shift, [] => ⟨[], shift⟩
  | none, finish => ⟨finish, none⟩
  | some shift, best :: _ =>
    let waiting := s.kernel.filter fun (n, _) =>
      match a.next.getD n none with
      | some (symbol, _) => (a.first.getD symbol .empty).contains token
      | none => false
    let heads := waiting.map (fun (n, _) => (item n).head) ++ finish.map (fun n => (item n).head)
    let repeats := match a.symbols.getD (item best).head default with
      | .many _ => heads.all (· == (item best).head)
      | _ => false
    let level := (item best).level.getD 0
    let more := waiting.any fun (n, _) => level < (item n).level.getD 0
    let less := waiting.any fun (n, _) => (item n).level.getD 0 < level
    let sides := finish.map fun n => (item n).associativity
    if repeats then ⟨finish, none⟩
    else if more && !less then ⟨[], some shift⟩
    else if less && !more then ⟨finish, none⟩
    else if more || less then ⟨finish, some shift⟩
    else if sides.all (· == some .left) then ⟨finish, none⟩
    else if sides.all (· == some .right) then ⟨[], some shift⟩
    else ⟨finish, some shift⟩

end Automaton

end CodeAtlas.Python
