import CodeAtlas.Proofs.Digest.Blocks
import CodeAtlas.Proofs.Text.Pieces

/-!
# Digests one behind the other

The blocks of a digest are found line by line, so two digests can be put one behind the other and
read as one. Three things can go wrong at the seam, and `Fits` excludes them: the first digest may
end within a line, its last file may have no line and would now be handed out, and the second digest
may begin with lines that belong to no file and would now belong to one.

* `walk_of_isText`, `fault_walk_eq_none_iff`: a digest is read to its end if it is text, and only
  then.
* `blocks_append`: lines that begin with a marker start a new block.
* `walk_append`: digests that fit hand out their chunks one behind the other.
-/

namespace CodeAtlas.Digest

/-! ## Walks by blocks -/

/-- The texts of the lines of a digest, up to the first line that is not UTF-8. -/
def texts (digest : Bytes) : List String := readable (digest.cut.map Bytes.textOf?)

theorem readable_append {ts : List (Option String)} (h : ∀ t ∈ ts, t.isSome)
    (us : List (Option String)) : readable (ts ++ us) = readable ts ++ readable us := by
  unfold readable
  rw [List.takeWhile_append_of_pos h, List.filterMap_append, List.takeWhile_eq_self_iff.mpr h]

theorem readable_map_some (ls : List String) : readable (ls.map some) = ls := by
  have all : ∀ t ∈ ls.map some, t.isSome := by simp
  rw [readable, List.takeWhile_eq_self_iff.mpr all, List.filterMap_map]
  exact List.filterMap_some

theorem walk_eq_outcome (digest : Bytes) :
    walk digest =
      outcome (blocks (texts digest)) ((digest.cut.map Bytes.textOf?).all Option.isSome) := by
  rw [texts, Bytes.map_textOf?_cut]
  exact run_eq_outcome none digest.lines

theorem walk_of_isText {digest : Bytes} (h : digest.IsText) :
    walk digest = ⟨(kept (blocks (texts digest))).map Block.chunk, none, .finished⟩ := by
  have complete : (digest.cut.map Bytes.textOf?).all Option.isSome = true :=
    List.all_eq_true.mpr fun _ ht => Bytes.isSome_of_isText h ht
  rw [walk_eq_outcome, complete]
  rfl

/-- A walk reaches the end of a digest if and only if the whole digest is text. -/
theorem fault_walk_eq_none_iff {digest : Bytes} : (walk digest).fault = none ↔ digest.IsText := by
  constructor
  · intro unfaulted
    rw [walk_eq_outcome] at unfaulted
    rw [Bytes.isText_iff_forall_textOf?, ← List.all_eq_true]
    cases complete : (digest.cut.map Bytes.textOf?).all Option.isSome with
    | true => rfl
    | false =>
      rw [complete] at unfaulted
      contradiction
  · intro h
    rw [walk_of_isText h]

/-! ## Blocks of joined lines -/

theorem blocks_of_not_opens {ls : List String} (h : ∀ l ∈ ls, opens l = false) :
    blocks ls = [] := by
  induction ls with
  | nil => exact blocks_nil
  | cons l ls ih =>
    rw [blocks_cons_of_not_opens (h l List.mem_cons_self)]
    exact ih fun l hl => h l (List.mem_cons_of_mem _ hl)

/-- The lines before a marker end where the marker stands. -/
theorem takeWhile_append_of_head? {ls ms : List String} (h : ∀ l ∈ ms.head?, opens l = true) :
    (ls ++ ms).takeWhile (!opens ·) = ls.takeWhile (!opens ·) := by
  have stop : ms.takeWhile (!opens ·) = [] := by
    cases ms with
    | nil => rfl
    | cons m ms => rw [List.takeWhile_cons_of_neg (by simp [h m rfl])]
  rw [List.takeWhile_append, stop, List.append_nil]
  split
  · next all => exact (List.IsPrefix.eq_of_length (List.takeWhile_prefix _) all).symm
  · rfl

/-- Lines that begin with a marker start a new block. -/
theorem blocks_append {ls ms : List String} (h : ∀ l ∈ ms.head?, opens l = true) :
    blocks (ls ++ ms) = blocks ls ++ blocks ms := by
  induction ls with
  | nil => rfl
  | cons l ls ih =>
    rw [List.cons_append]
    cases opening : opens l with
    | false => rw [blocks_cons_of_not_opens opening, blocks_cons_of_not_opens opening, ih]
    | true =>
      rw [blocks_cons_of_opens opening, blocks_cons_of_opens opening, ih,
        takeWhile_append_of_head? h, List.cons_append]

/-- A marker and lines that are none make one block. -/
theorem blocks_cons_of_forall {l : String} {ls : List String} (opening : opens l = true)
    (h : ∀ l ∈ ls, opens l = false) :
    blocks (l :: ls) = [⟨pathOf l, ls.filter (!isRule ·)⟩] := by
  have all : ls.takeWhile (!opens ·) = ls := by
    rw [List.takeWhile_eq_self_iff]
    intro l hl
    simp [h l hl]
  rw [blocks_cons_of_opens opening, all, blocks_of_not_opens h]

/-- If the last block has a line, no block is left out. -/
theorem kept_eq_self {bs : List Block} (full : ∀ b ∈ bs.getLast?, b.lines ≠ []) :
    kept bs = bs := by
  rcases List.eq_nil_or_concat bs with rfl | ⟨init, last, rfl⟩
  · rfl
  · have nonempty := full last (by simp)
    simp [kept, nonempty]

theorem kept_append {bs : List Block} (full : ∀ b ∈ bs.getLast?, b.lines ≠ []) (cs : List Block) :
    kept (bs ++ cs) = kept bs ++ kept cs := by
  rw [kept_eq_self full]
  by_cases only : cs = []
  · rw [only, List.append_nil, kept_eq_self full]
    exact (List.append_nil bs).symm
  · rw [kept, kept, List.dropLast_append_of_ne_nil only, List.getLast?_append_of_ne_nil bs only,
      List.append_assoc]

/-! ## Digests -/

/-- The last file among some lines has a line of its own, unless there is no file. -/
def EndsFull (ls : List String) : Prop :=
  (∀ l ∈ ls, opens l = false) ∨
    ∃ before opening after, ls = before ++ opening :: after ∧ opens opening = true ∧
      (∀ l ∈ after, opens l = false) ∧ ∃ l ∈ after, isRule l = false

theorem EndsFull.lines_ne_nil {ls : List String} (h : EndsFull ls) :
    ∀ b ∈ (blocks ls).getLast?, b.lines ≠ [] := by
  rcases h with none | ⟨before, opening, after, rfl, opens, none, l, hl, content⟩
  · rw [blocks_of_not_opens none]
    intro b hb
    contradiction
  · rw [blocks_append (by simpa using opens), blocks_cons_of_forall opens none,
      List.getLast?_concat]
    intro b hb
    obtain rfl := Option.some.inj hb
    exact List.ne_nil_of_mem (List.mem_filter.mpr ⟨hl, by simp [content]⟩)

/-- One digest can be continued by another one: it ends with a line, its last file is not empty, and
the other one begins with a file. -/
structure Fits (first second : Bytes) : Prop where
  ended : first = [] ∨ first.getLast? = some Bytes.lineFeed
  full : EndsFull (texts first)
  opened : ∃ l, (texts second).head? = some l ∧ opens l = true

theorem texts_append {first : Bytes} (h : first.IsText)
    (ended : first = [] ∨ first.getLast? = some Bytes.lineFeed) (second : Bytes) :
    texts (first ++ second) = texts first ++ texts second := by
  rw [texts, Bytes.cut_append ended, List.map_append,
    readable_append fun _ ht => Bytes.isSome_of_isText h ht, texts, texts]

theorem walk_append {first second : Bytes} (h₁ : first.IsText) (h₂ : second.IsText)
    (fits : Fits first second) :
    (walk (first ++ second)).chunks = (walk first).chunks ++ (walk second).chunks := by
  obtain ⟨l, head, opening⟩ := fits.opened
  have begins : ∀ m ∈ (texts second).head?, opens m = true := by
    intro m hm
    rw [head] at hm
    exact Option.some.inj hm ▸ opening
  rw [walk_of_isText h₁, walk_of_isText h₂, walk_of_isText (Bytes.isText_append h₁ h₂),
    texts_append h₁ fits.ended, blocks_append begins, kept_append fits.full.lines_ne_nil,
    List.map_append]

end CodeAtlas.Digest
