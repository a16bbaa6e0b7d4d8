import CodeAtlas.Python.Blame

/-!
# Fronts

A front holds the readings that stand in the same state at the same place, so that all of them go on
in the same way. Where they have become the same reading of one phrase, one of them is kept.

* `Front.add` joins a reading with those that differ only inside their symbols.
* `Front.finish` finishes an item in all readings and settles which steps to keep.
* `Front.takeAll` takes a token in several fronts, one front after the other.
-/

namespace CodeAtlas.Python

/-- Readings that stand in the same state at the same place, the earlier ones first. -/
structure Front where
  first : Reading
  others : List Reading := []

namespace Front

def readings (f : Front) : List Reading := f.first :: f.others

def state (f : Front) : State := f.first.state

def map (f : Front) (g : Reading → Reading) : Front := ⟨g f.first, f.others.map g⟩

/-- The greatest weight of a reading. -/
def weight (f : Front) : Int := f.others.foldl (fun w r => max w r.weight) f.first.weight

/-- The greatest number of readings that a front holds. -/
def maxReadings : Nat := 256

/-- Adds a reading. Of two readings that differ only inside their symbols the heavier one is kept,
or else the one that was there. -/
def add (f : Front) (s : Reading) : Front :=
  if f.readings.any fun r => Frame.allAlike r.stack s.stack then
    f.map fun r => if Frame.allAlike r.stack s.stack && r.weight < s.weight then s else r
  else if f.readings.length < maxReadings then ⟨f.first, f.others ++ [s]⟩
  else f

/-- Adds a reading to the front that it meets; `none` if there is no such front. -/
def addWhereMet (s : Reading) : List Front → Option (List Front)
  | [] => none
  | f :: fs =>
    if f.first.meets s then some (f.add s :: fs) else (addWhereMet s fs).map (f :: ·)

/-! ## Finishing -/

/-- A reading behind a finished item, with the frames of the item's steps in their order. -/
structure Finished where
  reading : Reading
  steps : List Frame

/-- Whether two readings have finished the same item at the same place. -/
def Finished.rivals (r s : Finished) : Bool :=
  Frame.allAlike r.reading.stack.tail s.reading.stack.tail

/-- Whether one reading is to be kept in the place of another: it is heavier, or else its steps come
before those of the other. -/
def Finished.displaces (s r : Finished) : Bool :=
  r.reading.weight < s.reading.weight ||
    (r.reading.weight = s.reading.weight && Frame.precede s.steps r.steps)

/-- Adds a finished reading to others of the same item. -/
def addFinished (all : List Finished) (s : Finished) : List Finished :=
  if all.any (·.rivals s) then
    all.map fun r => if r.rivals s && s.displaces r then s else r
  else all ++ [s]

/-- Finishes an item in all readings. -/
def finish (f : Front) (memory : Memory) (item : Item) : List Reading × Memory :=
  let (all, memory) := f.readings.foldl
    (fun (all, memory) r =>
      match r.finish memory item with
      | none => (all, memory)
      | some (s, memory) =>
        (addFinished all ⟨s, (r.stack.take item.done.length).reverse⟩, memory))
    ([], memory)
  (all.map (·.reading), memory)

/-! ## Taking a token -/

/-- A front before a token. -/
structure Pending where
  front : Front
  token : Lexeme

/-- What became of some fronts: those that go on, and the finished trees with their weights. -/
structure Outcome where
  memory : Memory
  live : List Front := []
  trees : List (Int × Tree) := []

/-- The fronts before a token while items are being finished: those that wait, those that were made,
and which of these goes on first. -/
structure Forks where
  memory : Memory
  waiting : List Pending
  made : List Pending := []
  next : Nat := 0

/-- Adds a reading to the pending front that it meets. -/
def joinPending (s : Reading) : List Pending → Option (List Pending)
  | [] => none
  | p :: ps =>
    if p.front.first.meets s then some ({ p with front := p.front.add s } :: ps)
    else (joinPending s ps).map (p :: ·)

/-- Adds a reading to the front that it meets, or makes a new one. -/
def Forks.add (x : Lexeme) (forks : Forks) (s : Reading) : Forks :=
  match joinPending s forks.waiting with
  | some waiting => { forks with waiting }
  | none =>
    match joinPending s forks.made with
    | some made => { forks with made }
    | none => { forks with made := forks.made ++ [⟨⟨s, []⟩, x⟩] }

/-- Finishes an item in a front. The first front made in this way is the next to go on. -/
def Forks.finish (p : Pending) (forks : Forks) (item : Nat) : Forks :=
  let before := forks.made.length
  let (readings, memory) := p.front.finish forks.memory (automaton.items.getD item default)
  let forks := readings.foldl (Forks.add p.token) { forks with memory }
  if before < forks.made.length then { forks with next := before } else forks

/-- The pending fronts in their order. -/
def Forks.queue (forks : Forks) : List Pending :=
  match forks.made[forks.next]? with
  | some p => p :: forks.waiting ++ forks.made.eraseIdx forks.next
  | none => forks.waiting ++ forks.made

/-- The trees of the readings of a front in which an item finishes the whole module. -/
def finishModule (f : Front) (item : Item) : List (Int × Tree) :=
  if symbolOf item.head = .phrase .module then f.readings.flatMap (·.finishModule item) else []

/-- Takes tokens in pending fronts, one front after the other. A keyword that is of no use is taken
as a plain name. -/
def takeAll : Nat → List Pending → Outcome → Outcome
  | 0, _, out => out
  | _, [], out => out
  | fuel + 1, p :: waiting, out =>
    let moves := automaton.moves p.front.state p.token.token
    let forks := moves.finish.foldl (Forks.finish p) { memory := out.memory, waiting }
    let trees := moves.finish.flatMap fun n => p.front.finishModule (automaton.items.getD n default)
    let out := { out with memory := forks.memory, trees := out.trees ++ trees }
    match moves.shift with
    | some k =>
      let (state, memory) := out.memory.recall k
      takeAll fuel (forks.waiting ++ forks.made)
        { out with memory, live := out.live ++ [p.front.map (·.shift p.token state)] }
    | none =>
      if moves.finish.isEmpty && p.token.keyword then
        let name := { p.token with token := vocabulary.number .identifier, keyword := false }
        takeAll fuel (⟨p.front, name⟩ :: waiting) out
      else takeAll fuel forks.queue out

end Front

end CodeAtlas.Python
