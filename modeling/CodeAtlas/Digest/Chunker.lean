import CodeAtlas.Digest.Line
import CodeAtlas.Text.Bytes

/-!
# Chunks of a digest

A chunker walks through the lines of a digest and hands out one chunk for each file. It holds the
lines of at most one file. A file is complete when the next marker or the end of the digest is
reached; the last file is dropped if nothing follows its marker. A line that is not UTF-8 ends the
walk with a fault, and the file that it stands in is lost.
-/

namespace CodeAtlas.Digest

/-- One file of a digest. -/
structure Chunk where
  path : String
  content : String
  deriving DecidableEq, Repr, Inhabited

/-- A file whose end is not reached yet. -/
structure Pending where
  path : String
  /-- The lines so far, the last one first. -/
  lines : List String
  deriving DecidableEq, Repr

namespace Pending

def push (p : Pending) (line : String) : Pending := { p with lines := line :: p.lines }

def finish (p : Pending) : Chunk := ⟨p.path, "\n".intercalate p.lines.reverse⟩

end Pending

/-- Why a digest cannot be read on. -/
inductive Fault where
  /-- A line is not UTF-8. -/
  | notText
  deriving DecidableEq, Repr

/-- The state of a walk through a digest. -/
structure Chunker where
  lines : List Bytes
  pending : Option Pending := none
  done : Bool := false
  deriving DecidableEq, Repr

namespace Chunker

def ofBytes (digest : Bytes) : Chunker := { lines := digest.lines }

/-- The state behind the end of the digest. -/
def finished : Chunker := { lines := [], done := true }

/-- Walks through lines up to the next chunk or fault. -/
def walk (pending : Option Pending) : List Bytes → Option (Except Fault Chunk) × Chunker
  | [] =>
    match pending with
    | some p => if p.lines.isEmpty then (none, finished) else (some (.ok p.finish), finished)
    | none => (none, finished)
  | line :: rest =>
    match line.decode? with
    | none => (some (.error .notText), finished)
    | some text =>
      match markerPath? text with
      | some path =>
        match pending with
        | some p => (some (.ok p.finish), { lines := rest, pending := some ⟨path, []⟩ })
        | none => walk (some ⟨path, []⟩) rest
      | none =>
        if isSeparator text then walk pending rest
        else walk (pending.map (·.push text)) rest

/-- The next chunk or fault, and the state behind it. -/
def next (c : Chunker) : Option (Except Fault Chunk) × Chunker :=
  if c.done then (none, c) else walk c.pending c.lines

/-- How much of the walk is left. -/
def remaining (c : Chunker) : Nat := if c.done then 0 else c.lines.length + 1

theorem remaining_walk_snd (pending : Option Pending) (lines : List Bytes) :
    (walk pending lines).2.remaining ≤ lines.length := by
  induction lines generalizing pending with
  | nil => cases pending <;> simp only [walk] <;> (try split) <;> simp [finished, remaining]
  | cons line rest ih =>
    simp only [walk]
    split
    · simp [finished, remaining]
    · split
      · split
        · simp [remaining]
        · exact Nat.le_succ_of_le (ih _)
      · split
        · exact Nat.le_succ_of_le (ih _)
        · exact Nat.le_succ_of_le (ih _)

/-- Every step that is not the last one makes progress. -/
theorem remaining_next_lt (c : Chunker) (h : c.done = false) :
    c.next.2.remaining < c.remaining := by
  have := remaining_walk_snd c.pending c.lines
  simp only [next, remaining, h] at *
  exact Nat.lt_succ_of_le this

end Chunker

/-- The outcome of a whole walk: the chunks, the fault that ended it if any, and the state behind
its end. -/
structure Walk where
  chunks : List Chunk
  fault : Option Fault
  behind : Chunker

/-- Walks to the end of a digest. -/
def Chunker.run (c : Chunker) : Walk :=
  if h : c.done then ⟨[], none, c⟩
  else
    have progress := c.remaining_next_lt (by simpa using h)
    match hn : c.next with
    | (none, behind) => ⟨[], none, behind⟩
    | (some (.error f), behind) => ⟨[], some f, behind⟩
    | (some (.ok chunk), behind) =>
      have : behind.remaining < c.remaining := by rw [hn] at progress; exact progress
      let rest := behind.run
      { rest with chunks := chunk :: rest.chunks }
termination_by c.remaining

/-- The chunks of a digest, and the fault that ended it if any. -/
def walk (digest : Bytes) : Walk := (Chunker.ofBytes digest).run

end CodeAtlas.Digest
