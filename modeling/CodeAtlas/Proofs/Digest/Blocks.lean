import CodeAtlas.Digest.Chunker
import CodeAtlas.Proofs.Text.Lines
import Mathlib.Data.List.SplitBy
import Mathlib.Data.List.TakeWhile

/-!
# Blocks of a digest

What a walk through a digest hands out, said without a walk. The lines of the digest are grouped
into blocks, each opened by a marker; what stands before the first marker belongs to none.

* Every block is a chunk: the path that its marker names, and its lines without the separators.
  Only the last block is left out if it has no such line (`kept`).
* A line that is not UTF-8 cuts the digest off. The block that it stands in is never closed, so the
  blocks before that one are handed out, and then a fault.

Results:
1. `blocks_cons_of_opens`, `blocks_cons_of_not_opens`: the grouping, line by line.
2. `run_eq_outcome`: from any state that is not done, a walk hands out the blocks that its pending
   file and its lines make together.
3. `handOut_eq_getElem?`: the calls of `next` give the items of a walk one by one, and nothing
   after them.
4. `handOut_ofBytes`: for every digest these items are the `declared` ones.
-/

namespace CodeAtlas.Digest

/-! ## Lines -/

/-- A line opens a file. -/
def opens (line : String) : Bool := "FILE: ".toList.isPrefixOf line.toList

/-- The path that an opening line names. -/
def pathOf (line : String) : String := Text.trim (String.ofList (line.toList.drop 6))

/-- A line is one or more `=`, perhaps with a carriage return behind them. -/
def isRule (line : String) : Bool :=
  line.toList.head? == some '=' && [[], ['\r']].contains (line.toList.dropWhile (· = '='))

theorem marker_length : marker.length = 6 := by
  decide +kernel

theorem markerPath?_eq (line : String) :
    markerPath? line = if opens line then some (pathOf line) else none := by
  by_cases h : opens line = true
  · have h' : marker.isPrefixOf line.toList = true := h
    rw [markerPath?, Text.afterStart?, if_pos h', if_pos h, Option.map_some, marker_length, pathOf,
      Text.trim, String.toList_ofList]
  · have h' : ¬ marker.isPrefixOf line.toList = true := h
    rw [markerPath?, Text.afterStart?, if_neg h', if_neg h, Option.map_none]

/-- What both ways to recognise a separator come to. -/
def IsEquals (line : List Char) : Prop :=
  ∃ n, line = List.replicate (n + 1) '=' ∨ line = List.replicate (n + 1) '=' ++ ['\r']

theorem isRule_iff {line : String} : isRule line = true ↔ IsEquals line.toList := by
  simp only [isRule, Bool.and_eq_true, beq_iff_eq, List.contains_iff_mem, List.mem_cons,
    List.not_mem_nil, or_false]
  constructor
  · rintro ⟨head, rest⟩
    have whole := List.takeWhile_append_dropWhile (p := (· = '=')) (l := line.toList)
    obtain ⟨n, front⟩ : ∃ n, line.toList.takeWhile (· = '=') = List.replicate (n + 1) '=' := by
      cases hl : line.toList with
      | nil => simp [hl] at head
      | cons c cs =>
        obtain rfl : c = '=' := by simpa [hl] using head
        refine ⟨(cs.takeWhile (· = '=')).length, ?_⟩
        rw [List.takeWhile_cons_of_pos (by simp), List.replicate_succ, List.cons_inj_right]
        apply List.eq_replicate_of_mem
        intro c hc
        simpa using List.mem_takeWhile_imp hc
    refine ⟨n, ?_⟩
    rcases rest with rest | rest
    · rw [← whole, front, rest, List.append_nil]
      exact .inl rfl
    · rw [← whole, front, rest]
      exact .inr rfl
  · rintro ⟨n, h | h⟩
    · simp [h, List.replicate_succ]
    · simp [h, List.replicate_succ]

theorem isSeparator_iff {line : String} : isSeparator line = true ↔ IsEquals line.toList := by
  have equals : ∀ {cs : List Char}, cs ≠ [] → (∀ c ∈ cs, c = '=') →
      ∃ n, cs = List.replicate (n + 1) '=' := by
    intro cs nonempty same
    refine ⟨cs.length - 1, ?_⟩
    rw [Nat.sub_add_cancel (List.length_pos_iff.mpr nonempty)]
    exact List.eq_replicate_of_mem same
  simp only [isSeparator, withoutReturn, Bool.and_eq_true, Bool.not_eq_true',
    List.isEmpty_eq_false_iff, List.all_eq_true, decide_eq_true_eq]
  constructor
  · rintro ⟨nonempty, same⟩
    split at nonempty
    · next last =>
      rw [if_pos last] at same
      obtain ⟨n, hn⟩ := equals nonempty same
      obtain ⟨body, hb⟩ := List.getLast?_eq_some_iff.mp last
      refine ⟨n, .inr ?_⟩
      rw [hb, List.dropLast_concat] at hn
      rw [hb, hn]
    · next last =>
      rw [if_neg last] at same
      obtain ⟨n, hn⟩ := equals nonempty same
      exact ⟨n, .inl hn⟩
  · rintro ⟨n, h | h⟩
    · simp [h, List.getLast?_replicate]
    · simp [h]

theorem isSeparator_eq (line : String) : isSeparator line = isRule line := by
  rw [Bool.eq_iff_iff, isSeparator_iff, isRule_iff]

/-! ## Blocks -/

/-- A file of a digest: the path that its marker names, and its lines. -/
structure Block where
  path : String
  lines : List String
  deriving DecidableEq, Repr

namespace Block

/-- The block of a marker line and the lines behind it. Separators are left out. -/
def ofLines : List String → Block
  | [] => ⟨"", []⟩
  | opening :: lines => ⟨pathOf opening, lines.filter (!isRule ·)⟩

def chunk (b : Block) : Chunk := ⟨b.path, "\n".intercalate b.lines⟩

end Block

/-- The blocks of a list of lines, from the first marker on. -/
def blocks (texts : List String) : List Block :=
  ((texts.dropWhile (!opens ·)).splitBy fun _ line => !opens line).map Block.ofLines

/-- The blocks that a digest hands out when it is read to its end. -/
def kept (bs : List Block) : List Block :=
  bs.dropLast ++ bs.getLast?.toList.filter (!·.lines.isEmpty)

/-- The lines before the first one that is not UTF-8. -/
def readable (texts : List (Option String)) : List String :=
  (texts.takeWhile Option.isSome).filterMap id

/-- What a digest hands out. The blocks that are closed by a marker are all but the last one. -/
def declared (digest : Bytes) : List (Except Fault Chunk) :=
  let texts := digest.cut.map Bytes.textOf?
  let found := blocks (readable texts)
  if texts.all Option.isSome then (kept found).map (.ok ·.chunk)
  else found.dropLast.map (.ok ·.chunk) ++ [.error .notText]

theorem blocks_nil : blocks [] = [] := rfl

theorem blocks_cons_of_not_opens {line : String} (h : opens line = false) (rest : List String) :
    blocks (line :: rest) = blocks rest := by
  rw [blocks, List.dropWhile_cons_of_pos (by simp [h]), blocks]

theorem blocks_cons_of_opens {line : String} (h : opens line = true) (rest : List String) :
    blocks (line :: rest) =
      ⟨pathOf line, (rest.takeWhile (!opens ·)).filter (!isRule ·)⟩ :: blocks rest := by
  have body : ∀ x ∈ rest.takeWhile (!opens ·), (!opens x) = true := by
    intro x hx
    exact List.mem_takeWhile_imp (p := (!opens ·)) hx
  have chain : (line :: rest.takeWhile (!opens ·)).IsChain fun _ x => (!opens x) = true := by
    apply List.Pairwise.isChain
    exact List.pairwise_cons.mpr ⟨body, List.pairwise_of_forall_mem_list fun _ _ x hx => body x hx⟩
  have boundary : ∀ x ∈ (line :: rest.takeWhile (!opens ·)).getLast?,
      ∀ y ∈ (rest.dropWhile (!opens ·)).head?, (!opens y) = false := by
    intro x _ y hy
    have := List.head?_dropWhile_not (!opens ·) rest
    rwa [Option.mem_def.mp hy] at this
  have split := List.splitBy_append boundary
  rw [List.splitBy_of_isChain (List.cons_ne_nil _ _) chain, List.cons_append,
    List.takeWhile_append_dropWhile] at split
  rw [blocks, List.dropWhile_cons_of_neg (by simp [h]), split]
  rfl

/-! ## Walks -/

/-- The blocks that a pending file and the lines behind it make together. -/
def blocksFrom (pending : Option Pending) (texts : List String) : List Block :=
  match pending with
  | none => blocks texts
  | some p =>
    ⟨p.path, p.lines.reverse ++ (texts.takeWhile (!opens ·)).filter (!isRule ·)⟩ :: blocks texts

/-- The outcome of a walk that finds some blocks and reaches the end of the digest, or does not. -/
def outcome (found : List Block) (complete : Bool) : Walk :=
  if complete then ⟨(kept found).map Block.chunk, none, .finished⟩
  else ⟨found.dropLast.map Block.chunk, some .notText, .finished⟩

namespace BlocksLemmas

theorem blocksFrom_opens_none {text : String} (h : opens text = true) (texts : List String) :
    blocksFrom none (text :: texts) = blocksFrom (some ⟨pathOf text, []⟩) texts := by
  rw [blocksFrom, blocks_cons_of_opens h, blocksFrom, List.reverse_nil, List.nil_append]

theorem blocksFrom_opens_some {text : String} (h : opens text = true) (p : Pending)
    (texts : List String) :
    blocksFrom (some p) (text :: texts) =
      ⟨p.path, p.lines.reverse⟩ :: blocksFrom (some ⟨pathOf text, []⟩) texts := by
  rw [← blocksFrom_opens_none h, blocksFrom, blocksFrom,
    List.takeWhile_cons_of_neg (by simp [h]), List.filter_nil, List.append_nil]

theorem blocksFrom_rule {text : String} (h : opens text = false) (rule : isRule text = true)
    (pending : Option Pending) (texts : List String) :
    blocksFrom pending (text :: texts) = blocksFrom pending texts := by
  cases pending with
  | none => rw [blocksFrom, blocksFrom, blocks_cons_of_not_opens h]
  | some p =>
    rw [blocksFrom, blocksFrom, blocks_cons_of_not_opens h,
      List.takeWhile_cons_of_pos (by simp [h]), List.filter_cons_of_neg (by simp [rule])]

theorem blocksFrom_content {text : String} (h : opens text = false) (rule : isRule text = false)
    (pending : Option Pending) (texts : List String) :
    blocksFrom pending (text :: texts) = blocksFrom (pending.map (·.push text)) texts := by
  cases pending with
  | none => rw [Option.map_none, blocksFrom, blocksFrom, blocks_cons_of_not_opens h]
  | some p =>
    rw [Option.map_some, blocksFrom, blocksFrom, blocks_cons_of_not_opens h,
      List.takeWhile_cons_of_pos (by simp [h]), List.filter_cons_of_pos (by simp [rule])]
    simp [Pending.push]

/-- A block that another one follows is handed out in any case. -/
theorem outcome_cons (b : Block) {found : List Block} (h : found ≠ []) (complete : Bool) :
    outcome (b :: found) complete =
      { outcome found complete with chunks := b.chunk :: (outcome found complete).chunks } := by
  cases complete with
  | false => simp [outcome, List.dropLast_cons_of_ne_nil h]
  | true =>
    have last : (b :: found).getLast? = found.getLast? := by
      cases found with
      | nil => exact absurd rfl h
      | cons b' found => rw [List.getLast?_cons_cons]
    simp [outcome, kept, List.dropLast_cons_of_ne_nil h, last]

theorem run_of_next_none {c behind : Chunker} (h : c.done = false)
    (hn : c.next = (none, behind)) : c.run = ⟨[], none, behind⟩ := by
  rw [Chunker.run, dif_neg (by simp [h])]
  split <;> simp_all

theorem run_of_next_error {c behind : Chunker} {f : Fault} (h : c.done = false)
    (hn : c.next = (some (.error f), behind)) : c.run = ⟨[], some f, behind⟩ := by
  rw [Chunker.run, dif_neg (by simp [h])]
  split <;> simp_all

theorem run_of_next_ok {c behind : Chunker} {chunk : Chunk} (h : c.done = false)
    (hn : c.next = (some (.ok chunk), behind)) :
    c.run = { behind.run with chunks := chunk :: behind.run.chunks } := by
  rw [Chunker.run, dif_neg (by simp [h])]
  split <;> simp_all

/-- A walk depends only on its next step. -/
theorem run_congr {c c' : Chunker} (h : c.done = false) (h' : c'.done = false)
    (same : c.next = c'.next) : c.run = c'.run := by
  rcases hn : c'.next with ⟨_ | _ | chunk, behind⟩
  · rw [run_of_next_none h (same.trans hn), run_of_next_none h' hn]
  · rw [run_of_next_error h (same.trans hn), run_of_next_error h' hn]
  · rw [run_of_next_ok h (same.trans hn), run_of_next_ok h' hn]

theorem run_nil (pending : Option Pending) :
    Chunker.run { lines := [], pending } = outcome (blocksFrom pending []) true := by
  cases pending with
  | none => exact run_of_next_none rfl rfl
  | some p =>
    by_cases bare : p.lines = []
    · have hn : Chunker.next { lines := [], pending := some p } = (none, .finished) := by
        simp [Chunker.next, Chunker.walk, bare]
      rw [run_of_next_none rfl hn]
      simp [outcome, blocksFrom, blocks_nil, kept, bare]
    · have hn : Chunker.next { lines := [], pending := some p } =
          (some (.ok p.finish), .finished) := by
        simp [Chunker.next, Chunker.walk, bare]
      rw [run_of_next_ok rfl hn, Chunker.run]
      simp [Chunker.finished, outcome, blocksFrom, blocks_nil, kept, bare, Block.chunk,
        Pending.finish]

theorem run_undecodable {line : Bytes} (h : line.decode? = none) (pending : Option Pending)
    (rest : List Bytes) (texts : List (Option String)) :
    Chunker.run { lines := line :: rest, pending } =
      outcome (blocksFrom pending (readable (none :: texts))) false := by
  have hn : Chunker.next { lines := line :: rest, pending } =
      (some (.error .notText), .finished) := by
    simp [Chunker.next, Chunker.walk, h]
  rw [run_of_next_error rfl hn]
  cases pending with
  | none => rfl
  | some p => rfl

/-- A line that closes no file only changes the pending one. -/
theorem run_cons {line : Bytes} {rest : List Bytes} {pending pending' : Option Pending}
    (step : Chunker.walk pending (line :: rest) = Chunker.walk pending' rest) :
    Chunker.run { lines := line :: rest, pending } =
      Chunker.run { lines := rest, pending := pending' } := by
  apply run_congr rfl rfl
  simpa [Chunker.next] using step

end BlocksLemmas

open BlocksLemmas in
/-- From any state that is not done, a walk hands out the blocks that its pending file and its lines
make together. -/
theorem run_eq_outcome (pending : Option Pending) (lines : List Bytes) :
    Chunker.run { lines, pending } =
      outcome (blocksFrom pending (readable (lines.map Bytes.decode?)))
        ((lines.map Bytes.decode?).all Option.isSome) := by
  induction lines generalizing pending with
  | nil => exact run_nil pending
  | cons line rest ih =>
    cases decoded : line.decode? with
    | none =>
      rw [List.map_cons, decoded, run_undecodable decoded pending rest (rest.map Bytes.decode?)]
      simp
    | some text =>
      have texts : readable (some text :: rest.map Bytes.decode?) =
          text :: readable (rest.map Bytes.decode?) := by
        simp [readable]
      rw [List.map_cons, decoded, texts, List.all_cons, Option.isSome_some, Bool.true_and]
      have marks := markerPath?_eq text
      cases opening : opens text with
      | true =>
        rw [opening, if_pos rfl] at marks
        cases pending with
        | none =>
          rw [blocksFrom_opens_none opening, ← ih]
          exact run_cons (by simp [Chunker.walk, decoded, marks])
        | some p =>
          have hn : Chunker.next { lines := line :: rest, pending := some p } =
              (some (.ok p.finish), { lines := rest, pending := some ⟨pathOf text, []⟩ }) := by
            simp [Chunker.next, Chunker.walk, decoded, marks]
          rw [run_of_next_ok rfl hn, blocksFrom_opens_some opening,
            outcome_cons _ (by simp [blocksFrom]), ih]
          rfl
      | false =>
        rw [opening, if_neg (by simp)] at marks
        cases rule : isRule text with
        | true =>
          rw [blocksFrom_rule opening rule, ← ih]
          exact run_cons (by simp [Chunker.walk, decoded, marks, isSeparator_eq, rule])
        | false =>
          rw [blocksFrom_content opening rule, ← ih]
          exact run_cons (by simp [Chunker.walk, decoded, marks, isSeparator_eq, rule])

/-! ## Calls -/

/-- What the calls of `next` hand out one after the other, counted from 0. -/
def Chunker.handOut (c : Chunker) : Nat → Option (Except Fault Chunk)
  | 0 => c.next.1
  | n + 1 => c.next.2.handOut n

/-- Everything that a walk hands out, in order. -/
def Walk.items (w : Walk) : List (Except Fault Chunk) :=
  w.chunks.map .ok ++ w.fault.toList.map .error

namespace BlocksLemmas

/-- A step that hands out no chunk is the last one. -/
theorem walk_snd_of_no_chunk (pending : Option Pending) (lines : List Bytes)
    (h : ∀ chunk, (Chunker.walk pending lines).1 ≠ some (.ok chunk)) :
    (Chunker.walk pending lines).2 = .finished := by
  induction lines generalizing pending with
  | nil =>
    cases pending with
    | none => rfl
    | some p =>
      simp only [Chunker.walk]
      split <;> rfl
  | cons line rest ih =>
    simp only [Chunker.walk] at h ⊢
    split
    · rfl
    · next text decoded =>
      simp only [decoded] at h
      split
      · next path marks =>
        simp only [marks] at h
        cases pending with
        | none => exact ih _ h
        | some p => exact absurd rfl (h p.finish)
      · next marks =>
        simp only [marks] at h
        split
        · next rule => rw [if_pos rule] at h; exact ih _ h
        · next rule => rw [if_neg rule] at h; exact ih _ h

theorem done_of_no_chunk {c behind : Chunker} {item : Option (Except Fault Chunk)}
    (hn : c.next = (item, behind)) (h : ∀ chunk, item ≠ some (.ok chunk)) :
    behind.done = true := by
  unfold Chunker.next at hn
  split at hn
  · next done =>
    obtain ⟨-, rfl⟩ := Prod.mk.inj hn
    exact done
  · have := walk_snd_of_no_chunk c.pending c.lines (by rw [hn]; exact h)
    rw [hn] at this
    rw [show behind = .finished from this]
    rfl

theorem items_of_done {c : Chunker} (h : c.done = true) : c.run.items = [] := by
  rw [Chunker.run, dif_pos h]
  rfl

end BlocksLemmas

open BlocksLemmas in
/-- The calls of `next` give the items of a walk one by one, and nothing after them. -/
theorem handOut_eq_getElem? (c : Chunker) (n : Nat) : c.handOut n = c.run.items[n]? := by
  induction n generalizing c with
  | zero =>
    rw [Chunker.handOut]
    cases done : c.done with
    | true =>
      rw [items_of_done done, Chunker.next, if_pos done]
      rfl
    | false =>
      rcases hn : c.next with ⟨_ | _ | chunk, behind⟩
      · rw [run_of_next_none done hn]
        rfl
      · rw [run_of_next_error done hn]
        rfl
      · rw [run_of_next_ok done hn]
        rfl
  | succ n ih =>
    rw [Chunker.handOut, ih]
    cases done : c.done with
    | true =>
      rw [items_of_done done, Chunker.next, if_pos done, items_of_done done]
      rfl
    | false =>
      rcases hn : c.next with ⟨_ | _ | chunk, behind⟩
      · rw [items_of_done (done_of_no_chunk hn (by simp)), run_of_next_none done hn]
        rfl
      · rw [items_of_done (done_of_no_chunk hn (by simp)), run_of_next_error done hn]
        rfl
      · rw [run_of_next_ok done hn]
        rfl

theorem items_outcome (found : List Block) (complete : Bool) :
    (outcome found complete).items =
      if complete then (kept found).map (.ok ·.chunk)
      else found.dropLast.map (.ok ·.chunk) ++ [.error .notText] := by
  cases complete with
  | false => simp [outcome, Walk.items, Function.comp_def]
  | true => simp [outcome, Walk.items, Function.comp_def]

theorem items_walk (digest : Bytes) : (walk digest).items = declared digest := by
  rw [walk, Chunker.ofBytes, run_eq_outcome, items_outcome, ← Bytes.map_textOf?_cut]
  rfl

/-- For every digest a walk to its end hands out exactly the declared items, and so do the calls of
`next`: the `n`-th one gives the `n`-th item, and every further one gives nothing. -/
theorem handOut_ofBytes (digest : Bytes) :
    (walk digest).items = declared digest ∧
      ∀ n, (Chunker.ofBytes digest).handOut n = (declared digest)[n]? := by
  refine ⟨items_walk digest, fun n => ?_⟩
  rw [handOut_eq_getElem?, ← items_walk, walk]

end CodeAtlas.Digest
