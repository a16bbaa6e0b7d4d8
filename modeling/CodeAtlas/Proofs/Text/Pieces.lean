import CodeAtlas.Proofs.Text.Lines
import CodeAtlas.Text.Space
import Mathlib.Data.List.DropRight

/-!
# Texts, their pieces and their lines

Two ways to look at the lines of a text. Its pieces are what stands between its line feeds, so that
there is one more piece than line feeds (`Text.pieces`). A stream reader sees lines that end with
line feeds (`Text.unlines`), and perhaps a last one that does not.

* `intercalate_pieces`, `pieces_intercalate`: pieces joined with line feeds are the text.
* `map_textOf?_unlines_append`: a reader gives back the lines that were written.
* `isText_iff_forall_textOf?`: bytes are text if and only if all their lines can be decoded.
* `cut_append`: behind a line feed, reading starts anew.
-/

namespace CodeAtlas

/-! ## Pieces -/

namespace Text

/-- What stands between the line feeds of a text. -/
def pieces (s : String) : List String := (s.toList.splitOn '\n').map String.ofList

/-- The text of some lines, with a line feed behind each. -/
def unlines (lines : List String) : String := String.join (lines.map (· ++ "\n"))

theorem pieces_ne_nil (s : String) : pieces s ≠ [] := by
  simp [pieces, List.splitOn_ne_nil]

theorem intercalate_pieces (s : String) : "\n".intercalate (pieces s) = s := by
  have same : (String.toList ∘ String.ofList) = id := funext fun _ => String.toList_ofList
  rw [← String.toList_inj, String.toList_intercalate, pieces, List.map_map, same, List.map_id]
  exact List.intercalate_splitOn '\n'

theorem pieces_intercalate {lines : List String} (nonempty : lines ≠ [])
    (h : ∀ l ∈ lines, '\n' ∉ l.toList) : pieces ("\n".intercalate lines) = lines := by
  have chars : ∀ l ∈ lines.map String.toList, '\n' ∉ l := by simpa using h
  have split := List.splitOn_intercalate '\n' chars (by simpa using nonempty)
  have same : (String.ofList ∘ String.toList) = id := funext fun _ => String.ofList_toList
  have feed : "\n".toList = ['\n'] := rfl
  rw [pieces, String.toList_intercalate, feed, split, List.map_map, same, List.map_id]

theorem lineFeed_notMem_of_mem_splitOn {cs l : List Char} (h : l ∈ cs.splitOn '\n') :
    '\n' ∉ l := by
  induction cs generalizing l with
  | nil => simp_all
  | cons c cs ih =>
    rw [List.splitOn_cons_eq_if_modifyHead] at h
    split at h
    · rcases List.mem_cons.mp h with rfl | h
      · exact List.not_mem_nil
      · exact ih h
    · next other =>
      cases split : cs.splitOn '\n' with
      | nil => exact absurd split (List.splitOn_ne_nil '\n' cs)
      | cons first rest =>
        rw [split] at h ih
        rcases List.mem_cons.mp h with rfl | h
        · have : c ≠ '\n' := by simpa using other
          simp [Ne.symm this, ih List.mem_cons_self]
        · exact ih (List.mem_cons_of_mem _ h)

theorem lineFeed_notMem_of_mem_pieces {s l : String} (h : l ∈ pieces s) : '\n' ∉ l.toList := by
  obtain ⟨cs, hcs, rfl⟩ := List.mem_map.mp h
  rw [String.toList_ofList]
  exact lineFeed_notMem_of_mem_splitOn hcs

theorem unlines_nil : unlines [] = "" := rfl

theorem unlines_append (ls ms : List String) : unlines (ls ++ ms) = unlines ls ++ unlines ms := by
  rw [unlines, List.map_append, String.join_append, unlines, unlines]

theorem unlines_cons (l : String) (ls : List String) :
    unlines (l :: ls) = l ++ "\n" ++ unlines ls := by
  rw [unlines, List.map_cons, String.join_cons, unlines]

/-- Joining lines with line feeds leaves out the one behind the last line. -/
theorem unlines_eq_intercalate {lines : List String} (nonempty : lines ≠ []) :
    unlines lines = "\n".intercalate lines ++ "\n" := by
  induction lines with
  | nil => contradiction
  | cons l lines ih =>
    cases lines with
    | nil => rw [unlines_cons, unlines_nil, String.append_empty, String.intercalate_singleton]
    | cons m lines =>
      rw [unlines_cons, ih (List.cons_ne_nil _ _), String.intercalate_cons_cons]
      simp only [String.append_assoc]

/-- Every text is made of whole lines and a last one without its line feed. -/
theorem exists_unlines (s : String) :
    ∃ lines last, s = unlines lines ++ last ∧ (∀ l ∈ lines, '\n' ∉ l.toList) ∧
      '\n' ∉ last.toList := by
  rcases List.eq_nil_or_concat (pieces s) with none | ⟨lines, last, split⟩
  · exact absurd none (pieces_ne_nil s)
  · rw [List.concat_eq_append] at split
    have free : ∀ l ∈ lines ++ [last], '\n' ∉ l.toList := by
      intro l hl
      exact lineFeed_notMem_of_mem_pieces (split ▸ hl)
    refine ⟨lines, last, ?_, fun l hl => free l (List.mem_append_left _ hl),
      free last (List.mem_append_right _ List.mem_cons_self)⟩
    have whole := intercalate_pieces s
    rw [split] at whole
    by_cases only : lines = []
    · rw [only, List.nil_append, String.intercalate_singleton] at whole
      rw [only, unlines_nil, String.empty_append, whole]
    · rw [String.intercalate_append_of_ne_nil only (List.cons_ne_nil _ _),
        String.intercalate_singleton] at whole
      rw [unlines_eq_intercalate only, whole]

/-! ## Trimming -/

theorem mem_of_mem_trimChars {cs : List Char} {c : Char} (h : c ∈ trimChars cs) : c ∈ cs := by
  have inner : c ∈ cs.dropWhile isSpace := (List.rdropWhile_prefix isSpace _).subset h
  exact (List.dropWhile_sublist isSpace).subset inner

/-- Nothing is left to be trimmed at the start, because trimming at the end keeps the first
character unless it takes all of them. -/
theorem trimChars_trimChars (cs : List Char) : trimChars (trimChars cs) = trimChars cs := by
  have start : (trimChars cs).dropWhile isSpace = trimChars cs := by
    cases trimmed : trimChars cs with
    | nil => rfl
    | cons c rest =>
      have first : c :: rest <+: cs.dropWhile isSpace :=
        trimmed ▸ List.rdropWhile_prefix isSpace _
      obtain ⟨more, whole⟩ := first
      have head := List.head?_dropWhile_not isSpace cs
      rw [← whole, List.cons_append, List.head?_cons] at head
      rw [List.dropWhile_cons_of_neg (by simpa using head)]
  show List.rdropWhile isSpace ((trimChars cs).dropWhile isSpace) = trimChars cs
  rw [start]
  exact List.rdropWhile_idempotent isSpace (cs.dropWhile isSpace)

end Text

/-! ## Lines -/

namespace Bytes

/-- Bytes are the UTF-8 form of some text. -/
def IsText (b : Bytes) : Prop := b.decode?.isSome

instance (b : Bytes) : Decidable b.IsText := inferInstanceAs (Decidable (b.decode?.isSome = true))

theorem isText_iff {b : Bytes} : b.IsText ↔ ∃ s, ofString s = b := by
  rw [IsText, Option.isSome_iff_exists]
  exact exists_congr fun _ => decode?_eq_some_iff

theorem isText_ofString (s : String) : (ofString s).IsText := isText_iff.mpr ⟨s, rfl⟩

theorem isText_append {b c : Bytes} (hb : b.IsText) (hc : c.IsText) : (b ++ c).IsText := by
  obtain ⟨s, rfl⟩ := isText_iff.mp hb
  obtain ⟨t, rfl⟩ := isText_iff.mp hc
  exact isText_iff.mpr ⟨s ++ t, ofString_append s t⟩

theorem lineFeed_mem_ofString_iff {s : String} : lineFeed ∈ ofString s ↔ '\n' ∈ s.toList := by
  rw [← String.ofList_toList (s := s), ofString_ofList, String.toList_ofList, List.mem_flatMap]
  constructor
  · rintro ⟨c, hc, feed⟩
    exact eq_of_lineFeed_mem feed ▸ hc
  · intro h
    exact ⟨'\n', h, by decide⟩

/-- The loop that cuts lines puts no line feed into a line. -/
theorem lineFeed_notMem_of_mem_linesFrom {finished : List Bytes} {current rest line : Bytes}
    (hf : ∀ l ∈ finished, lineFeed ∉ l) (hc : lineFeed ∉ current)
    (h : line ∈ linesFrom finished current rest) : lineFeed ∉ line := by
  induction rest generalizing finished current with
  | nil =>
    rw [linesFrom, List.mem_reverse] at h
    split at h
    · exact hf line h
    · rcases List.mem_cons.mp h with rfl | h
      · rwa [List.mem_reverse]
      · exact hf line h
  | cons b rest ih =>
    rw [linesFrom] at h
    split at h
    · refine ih ?_ List.not_mem_nil h
      intro l hl
      rcases List.mem_cons.mp hl with rfl | hl
      · rwa [List.mem_reverse]
      · exact hf l hl
    · next other =>
      refine ih hf ?_ h
      rw [List.mem_cons, not_or]
      exact ⟨Ne.symm other, hc⟩

theorem lineFeed_notMem_of_mem_lines {b line : Bytes} (h : line ∈ b.lines) : lineFeed ∉ line :=
  lineFeed_notMem_of_mem_linesFrom (fun _ hl => absurd hl List.not_mem_nil) List.not_mem_nil h

theorem map_textOf?_unlines_append {lines : List String} (h : ∀ l ∈ lines, '\n' ∉ l.toList)
    (rest : String) :
    (cut (ofString (Text.unlines lines ++ rest))).map textOf? =
      lines.map some ++ (cut (ofString rest)).map textOf? := by
  induction lines with
  | nil => rw [Text.unlines_nil, String.empty_append, List.map_nil, List.nil_append]
  | cons l lines ih =>
    have free : lineFeed ∉ ofString l := by
      rw [lineFeed_mem_ofString_iff]
      exact h l List.mem_cons_self
    have bytes : ofString (Text.unlines (l :: lines) ++ rest) =
        ofString l ++ lineFeed :: ofString (Text.unlines lines ++ rest) := by
      simp only [Text.unlines_cons, String.append_assoc, ofString_append, ofString_lineFeed,
        List.singleton_append]
    rw [bytes, cut_append_lineFeed free, List.map_cons, textOf?_append_lineFeed,
      decode?_eq_some_iff.mpr rfl, ih fun l hl => h l (List.mem_cons_of_mem _ hl), List.map_cons,
      List.cons_append]

/-- Every line of a text can be decoded. -/
theorem isSome_of_isText {b : Bytes} (h : b.IsText) {t : Option String}
    (ht : t ∈ (cut b).map textOf?) : t.isSome := by
  obtain ⟨s, rfl⟩ := isText_iff.mp h
  obtain ⟨lines, last, rfl, free, lastFree⟩ := Text.exists_unlines s
  rw [map_textOf?_unlines_append free, List.mem_append] at ht
  rcases ht with ht | ht
  · obtain ⟨l, -, rfl⟩ := List.mem_map.mp ht
    rfl
  · have feed : lineFeed ∉ ofString last := by rwa [lineFeed_mem_ofString_iff]
    by_cases empty : ofString last = []
    · rw [empty] at ht
      exact absurd ht List.not_mem_nil
    · rw [cut_of_lineFeed_notMem feed empty, List.map_singleton, List.mem_singleton] at ht
      rw [ht, textOf?_of_lineFeed_notMem feed, decode?_eq_some_iff.mpr rfl]
      rfl

/-- Nothing is lost at the cuts. -/
theorem flatten_cut (b : Bytes) : (cut b).flatten = b := by
  induction b with
  | nil => rfl
  | cons x b ih =>
    rw [cut]
    split
    · rw [List.flatten_cons, ih, List.singleton_append]
    · cases lines : cut b with
      | nil =>
        rw [lines, List.flatten_nil] at ih
        rw [← ih]
        rfl
      | cons line rest =>
        rw [lines, List.flatten_cons] at ih
        rw [← ih]
        rfl

theorem isText_flatten {bs : List Bytes} (h : ∀ b ∈ bs, b.IsText) : IsText bs.flatten := by
  induction bs with
  | nil => exact isText_ofString ""
  | cons b bs ih =>
    rw [List.flatten_cons]
    exact isText_append (h b List.mem_cons_self) (ih fun b hb => h b (List.mem_cons_of_mem _ hb))

/-- No character stands across a cut, so that bytes are text if and only if all their lines are. -/
theorem isText_iff_forall_textOf? {b : Bytes} :
    b.IsText ↔ ∀ t ∈ (cut b).map textOf?, t.isSome := by
  refine ⟨fun h _ ht => isSome_of_isText h ht, fun h => ?_⟩
  rw [← flatten_cut b]
  refine isText_flatten fun line hl => ?_
  have decoded := h _ (List.mem_map_of_mem hl)
  rwa [textOf?, Option.isSome_map] at decoded

theorem cut_ne_nil {b : Bytes} (h : b ≠ []) : cut b ≠ [] := by
  cases b with
  | nil => contradiction
  | cons x b =>
    rw [cut]
    split
    · exact List.cons_ne_nil _ _
    · split <;> exact List.cons_ne_nil _ _

/-- Behind a line feed, reading starts anew. -/
theorem cut_append {b : Bytes} (ended : b = [] ∨ b.getLast? = some lineFeed) (c : Bytes) :
    cut (b ++ c) = cut b ++ cut c := by
  induction b with
  | nil => rfl
  | cons x b ih =>
    have last : (x :: b).getLast? = some lineFeed := ended.resolve_left (List.cons_ne_nil _ _)
    by_cases only : b = []
    · subst only
      obtain rfl : x = lineFeed := by simpa using last
      rfl
    · have tail : cut (b ++ c) = cut b ++ cut c := by
        refine ih (.inr ?_)
        rw [List.getLast?_cons, List.getLast?_eq_some_getLast only] at last
        rw [List.getLast?_eq_some_getLast only]
        exact last
      rw [List.cons_append, cut, tail, cut]
      split
      · rfl
      · cases lines : cut b with
        | nil => exact absurd lines (cut_ne_nil only)
        | cons line rest => rfl

end Bytes

end CodeAtlas
