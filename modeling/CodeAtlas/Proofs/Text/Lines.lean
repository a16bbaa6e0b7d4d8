import CodeAtlas.Text.Bytes

/-!
# Lines and their texts

Two ways to read the lines of raw input give the same texts. `Bytes.lines` takes the line feeds off
before it decodes. A stream reader keeps them: it hands out each line up to and including its line
feed (`Bytes.cut`), decodes that, and takes the line feed off the text (`Bytes.textOf?`).

* `decode?_eq_some_iff`: decoding is the inverse of `ofString`.
* `decode?_append_lineFeed`: a line feed at the end of a line has no influence on its decoding.
* `map_textOf?_cut`: both ways give the same list of texts, faults included.
-/

namespace CodeAtlas.Bytes

/-! ## Decoding -/

theorem ofString_append (s t : String) : ofString (s ++ t) = ofString s ++ ofString t := by
  simp [ofString]

/-- The bytes of a text are the bytes of its characters. -/
theorem ofString_ofList (cs : List Char) :
    ofString (String.ofList cs) = cs.flatMap String.utf8EncodeChar := by
  simp [ofString, List.utf8Encode]

theorem ofString_lineFeed : ofString "\n" = [lineFeed] := by
  decide

theorem decode?_eq_some_iff {b : Bytes} {s : String} : decode? b = some s ↔ ofString s = b := by
  unfold decode? String.fromUTF8?
  constructor
  · intro h
    split at h
    · next valid =>
      rw [Option.some.injEq] at h
      subst h
      simp [ofString, String.fromUTF8]
    · contradiction
  · intro h
    subst h
    have valid : ByteArray.IsValidUTF8 ⟨(ofString s).toArray⟩ := by
      simpa [ofString] using s.isValidUTF8
    rw [dif_pos valid, Option.some.injEq, ← String.toByteArray_inj]
    simp [ofString, String.fromUTF8]

/-- All bytes of characters outside the ASCII range are at least 128, so the byte of a line feed
stands for nothing but a line feed. -/
theorem eq_of_lineFeed_mem {c : Char} (h : lineFeed ∈ String.utf8EncodeChar c) : c = '\n' := by
  have value : ∀ {n : Nat}, lineFeed = UInt8.ofNat n → n % 256 = 10 := by
    intro n hn
    have := congrArg UInt8.toNat hn
    simpa [lineFeed] using this.symm
  have code : c.val.toNat = 10 := by
    simp only [String.utf8EncodeChar] at h
    split at h
    · have := value (List.mem_singleton.mp h)
      omega
    split at h
    · simp only [List.mem_cons, List.not_mem_nil, or_false] at h
      rcases h with h | h <;> have := value h <;> omega
    split at h
    · simp only [List.mem_cons, List.not_mem_nil, or_false] at h
      rcases h with h | h | h <;> have := value h <;> omega
    · simp only [List.mem_cons, List.not_mem_nil, or_false] at h
      rcases h with h | h | h | h <;> have := value h <;> omega
  exact Char.toNat_inj.mp code

theorem exists_of_ofString_eq_append {t : String} {b : Bytes} (h : ofString t = b ++ [lineFeed]) :
    ∃ s, t = s ++ "\n" ∧ ofString s = b := by
  obtain ⟨cs, rfl⟩ : ∃ cs, t = String.ofList cs := ⟨t.toList, by simp⟩
  rw [ofString_ofList] at h
  rcases List.eq_nil_or_concat cs with rfl | ⟨first, c, rfl⟩
  · simp at h
  · rw [List.concat_eq_append, List.flatMap_append, List.flatMap_singleton] at h
    have last : (String.utf8EncodeChar c).getLast String.utf8EncodeChar_ne_nil = lineFeed := by
      have := congrArg List.getLast? h
      rw [List.getLast?_append, List.getLast?_eq_some_getLast String.utf8EncodeChar_ne_nil,
        List.getLast?_concat, Option.some_or, Option.some.injEq] at this
      exact this
    obtain rfl := eq_of_lineFeed_mem (last ▸ List.getLast_mem _)
    refine ⟨String.ofList first, by simp, ?_⟩
    rw [ofString_ofList]
    exact List.append_cancel_right h

/-- A line feed at its end has no influence on the decoding of a line. -/
theorem decode?_append_lineFeed (b : Bytes) :
    decode? (b ++ [lineFeed]) = (decode? b).map (· ++ "\n") := by
  ext t
  rw [decode?_eq_some_iff, Option.map_eq_some_iff]
  constructor
  · intro h
    obtain ⟨s, rfl, hs⟩ := exists_of_ofString_eq_append h
    exact ⟨s, decode?_eq_some_iff.mpr hs, rfl⟩
  · rintro ⟨s, hs, rfl⟩
    rw [ofString_append, ofString_lineFeed, decode?_eq_some_iff.mp hs]

/-! ## Lines with their line feeds -/

/-- The lines of some bytes, each up to and including its line feed. What follows the last line feed
is a line only if it is not empty. -/
def cut : Bytes → List Bytes
  | [] => []
  | b :: rest =>
    if b = lineFeed then [b] :: cut rest
    else
      match cut rest with
      | [] => [[b]]
      | line :: lines => (b :: line) :: lines

/-- A text without the line feed at its end. -/
def chomp (s : String) : String :=
  if s.toList.getLast? = some '\n' then String.ofList s.toList.dropLast else s

/-- The text of a line without the line feed at its end. -/
def textOf? (line : Bytes) : Option String := (decode? line).map chomp

theorem cut_of_lineFeed_notMem {line : Bytes} (h : lineFeed ∉ line) (nonempty : line ≠ []) :
    cut line = [line] := by
  induction line with
  | nil => exact absurd rfl nonempty
  | cons b rest ih =>
    rw [List.mem_cons, not_or] at h
    rw [cut, if_neg (Ne.symm h.1)]
    cases rest with
    | nil => rfl
    | cons b' rest => rw [ih h.2 (List.cons_ne_nil _ _)]

theorem cut_append_lineFeed {line : Bytes} (h : lineFeed ∉ line) (rest : Bytes) :
    cut (line ++ lineFeed :: rest) = (line ++ [lineFeed]) :: cut rest := by
  induction line with
  | nil => simp [cut]
  | cons b line ih =>
    rw [List.mem_cons, not_or] at h
    rw [List.cons_append, cut, if_neg (Ne.symm h.1), ih h.2]
    rfl

theorem chomp_append_lineFeed (s : String) : chomp (s ++ "\n") = s := by
  simp [chomp]

theorem textOf?_append_lineFeed (line : Bytes) : textOf? (line ++ [lineFeed]) = decode? line := by
  have undone : (chomp ∘ fun s => s ++ "\n") = id := funext chomp_append_lineFeed
  rw [textOf?, decode?_append_lineFeed, Option.map_map, undone, Option.map_id, id]

theorem textOf?_of_lineFeed_notMem {line : Bytes} (h : lineFeed ∉ line) :
    textOf? line = decode? line := by
  cases decoded : decode? line with
  | none => rw [textOf?, decoded, Option.map_none]
  | some s =>
    rw [textOf?, decoded, Option.map_some, chomp, if_neg]
    intro last
    obtain ⟨first, hs⟩ := List.getLast?_eq_some_iff.mp last
    apply h
    rw [← decode?_eq_some_iff.mp decoded, ← String.ofList_toList (s := s), hs, ofString_ofList]
    simp [String.utf8EncodeChar, lineFeed]

/-- The invariant of the loop that cuts lines: what stands in `current` has no line feed. -/
theorem map_decode?_linesFrom (finished : List Bytes) {current : Bytes} (h : lineFeed ∉ current)
    (rest : Bytes) :
    (linesFrom finished current rest).map decode? =
      finished.reverse.map decode? ++ (cut (current.reverse ++ rest)).map textOf? := by
  induction rest generalizing finished current with
  | nil =>
    have h' : lineFeed ∉ current.reverse := by rwa [List.mem_reverse]
    cases current with
    | nil => simp [linesFrom, cut]
    | cons b current =>
      rw [List.append_nil, cut_of_lineFeed_notMem h' (by simp), List.map_singleton,
        textOf?_of_lineFeed_notMem h']
      simp [linesFrom]
  | cons b rest ih =>
    by_cases hb : b = lineFeed
    · subst hb
      rw [cut_append_lineFeed (by rwa [List.mem_reverse]), List.map_cons, textOf?_append_lineFeed,
        linesFrom, if_pos rfl, ih _ List.not_mem_nil]
      simp
    · rw [linesFrom, if_neg hb, ih _ (by simp [h, Ne.symm hb])]
      simp

/-- Taking the line feeds off before or behind the decoding gives the same texts. -/
theorem map_textOf?_cut (b : Bytes) : (cut b).map textOf? = (lines b).map decode? := by
  rw [lines, map_decode?_linesFrom [] List.not_mem_nil]
  simp

end CodeAtlas.Bytes
