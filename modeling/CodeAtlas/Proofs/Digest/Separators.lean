import CodeAtlas.Convert
import CodeAtlas.Proofs.Digest.Joined

/-!
# Digests with separators put in

Separators are decoration: a digest may have any number of them at the start and behind each of its
lines, and nothing that is read from it changes (`Decorated`). That holds before the first file, in
an empty file at the end, before a last line that is not ended, and around a line that is not UTF-8.

The reason is that a walk is told by the lines that are no separators (`essential`). A separator is
never a marker and always UTF-8, so it can be taken out of the lines before they are grouped into
blocks as well as behind that.

* `blocks_filter`, `readable_filter`: separators can be taken out first.
* `walk_eq_of_essential`: what stands between separators decides a walk.
* `convert_decorated`: what is handed out, and what a conversion gives.
-/

namespace CodeAtlas

namespace Digest

/-! ## Lines that count -/

/-- The lines of a digest that are no separators. -/
def essential (digest : Bytes) : List (Option String) :=
  (digest.cut.map Bytes.textOf?).filter (!·.any isRule)

namespace SeparatorsLemmas

theorem opens_of_isRule {line : String} (h : isRule line = true) : opens line = false := by
  rw [isRule, Bool.and_eq_true, beq_iff_eq] at h
  obtain ⟨cs, chars⟩ := List.head?_eq_some_iff.mp h.1
  rw [opens, chars]
  rfl

/-- The lines up to the next marker, without separators. -/
theorem takeWhile_filter (ls : List String) :
    ((ls.filter (!isRule ·)).takeWhile (!opens ·)).filter (!isRule ·) =
      (ls.takeWhile (!opens ·)).filter (!isRule ·) := by
  induction ls with
  | nil => rfl
  | cons l ls ih =>
    cases rule : isRule l with
    | true =>
      have plain := opens_of_isRule rule
      rw [List.filter_cons_of_neg (by simp [rule]), List.takeWhile_cons_of_pos (by simp [plain]),
        List.filter_cons_of_neg (by simp [rule]), ih]
    | false =>
      rw [List.filter_cons_of_pos (by simp [rule])]
      cases opening : opens l with
      | true =>
        rw [List.takeWhile_cons_of_neg (by simp [opening]),
          List.takeWhile_cons_of_neg (by simp [opening])]
      | false =>
        rw [List.takeWhile_cons_of_pos (by simp [opening]),
          List.takeWhile_cons_of_pos (by simp [opening]), List.filter_cons_of_pos (by simp [rule]),
          List.filter_cons_of_pos (by simp [rule]), ih]

theorem blocks_filter (ls : List String) : blocks (ls.filter (!isRule ·)) = blocks ls := by
  induction ls with
  | nil => rfl
  | cons l ls ih =>
    cases rule : isRule l with
    | true =>
      rw [List.filter_cons_of_neg (by simp [rule]),
        blocks_cons_of_not_opens (opens_of_isRule rule), ih]
    | false =>
      rw [List.filter_cons_of_pos (by simp [rule])]
      cases opening : opens l with
      | true =>
        rw [blocks_cons_of_opens opening, blocks_cons_of_opens opening, takeWhile_filter, ih]
      | false => rw [blocks_cons_of_not_opens opening, blocks_cons_of_not_opens opening, ih]

theorem readable_filter (ts : List (Option String)) :
    readable (ts.filter (!·.any isRule)) = (readable ts).filter (!isRule ·) := by
  induction ts with
  | nil => rfl
  | cons t ts ih =>
    cases t with
    | none => rfl
    | some l =>
      have step : ∀ us, readable (some l :: us) = l :: readable us := fun us => by simp [readable]
      cases rule : isRule l with
      | true =>
        rw [List.filter_cons_of_neg (by simp [rule]), ih, step,
          List.filter_cons_of_neg (by simp [rule])]
      | false =>
        rw [List.filter_cons_of_pos (by simp [rule]), step, ih, step,
          List.filter_cons_of_pos (by simp [rule])]

theorem all_isSome_filter (ts : List (Option String)) :
    (ts.filter (!·.any isRule)).all Option.isSome = ts.all Option.isSome := by
  induction ts with
  | nil => rfl
  | cons t ts ih =>
    cases t with
    | none => rfl
    | some l =>
      cases rule : isRule l with
      | true => simpa [rule] using ih
      | false => simpa [rule] using ih

end SeparatorsLemmas

open SeparatorsLemmas in
/-- Digests whose lines are the same apart from separators give the same walk. -/
theorem walk_eq_of_essential {d d' : Bytes} (h : essential d = essential d') :
    walk d = walk d' := by
  have told : ∀ d : Bytes, walk d =
      outcome (blocks (readable (essential d))) ((essential d).all Option.isSome) := by
    intro d
    rw [walk_eq_outcome, texts, essential, readable_filter, blocks_filter, all_isSome_filter]
  rw [told d, told d', h]

/-! ## Separators put in -/

/-- A separator with the line feed behind it. -/
def IsSeparatorLine (line : Bytes) : Prop :=
  ∃ n, ∃ ending ∈ ["\n", "\r\n"],
    line = Bytes.ofString (String.ofList (List.replicate (n + 1) '=') ++ ending)

/-- A digest with any number of separators put in, each of them at the start or behind a line
feed. -/
inductive Decorated (digest : Bytes) : Bytes → Prop
  | plain : Decorated digest digest
  | separator {before line after : Bytes} :
      Decorated digest (before ++ after) →
      before = [] ∨ before.getLast? = some Bytes.lineFeed → IsSeparatorLine line →
      Decorated digest (before ++ line ++ after)

namespace SeparatorsLemmas

/-- A separator ends with a line feed and is one line, which does not count. -/
theorem map_textOf?_separator {line : Bytes} (h : IsSeparatorLine line) :
    line.getLast? = some Bytes.lineFeed ∧
      ∃ s, isRule s = true ∧ line.cut.map Bytes.textOf? = [some s] := by
  obtain ⟨s, rule, free, rfl⟩ : ∃ s, isRule s = true ∧ '\n' ∉ s.toList ∧
      line = Bytes.ofString (s ++ "\n") := by
    obtain ⟨n, ending, kind, rfl⟩ := h
    simp only [List.mem_cons, List.not_mem_nil, or_false] at kind
    rcases kind with rfl | rfl
    · refine ⟨String.ofList (List.replicate (n + 1) '='), ?_, by simp, rfl⟩
      exact isRule_iff.mpr ⟨n, .inl String.toList_ofList⟩
    · refine ⟨String.ofList (List.replicate (n + 1) '=') ++ "\r", ?_, by simp, ?_⟩
      · exact isRule_iff.mpr ⟨n, .inr (by simp)⟩
      · rw [String.append_assoc]
        rfl
  refine ⟨?_, s, rule, ?_⟩
  · rw [Bytes.ofString_append, Bytes.ofString_lineFeed, List.getLast?_concat]
  · have alone : ∀ l ∈ [s], '\n' ∉ l.toList := by simpa using free
    have written := Bytes.map_textOf?_unlines_append alone ""
    rw [Text.unlines_cons, Text.unlines_nil, String.append_empty, String.append_empty] at written
    exact written

theorem essential_separator {before line after : Bytes}
    (place : before = [] ∨ before.getLast? = some Bytes.lineFeed) (h : IsSeparatorLine line) :
    essential (before ++ line ++ after) = essential (before ++ after) := by
  obtain ⟨ended, s, rule, one⟩ := map_textOf?_separator h
  rw [essential, essential, List.append_assoc, Bytes.cut_append place,
    Bytes.cut_append (.inr ended), Bytes.cut_append place]
  simp [one, rule]

end SeparatorsLemmas

open SeparatorsLemmas in
theorem Decorated.walk_eq {digest decorated : Bytes} (h : Decorated digest decorated) :
    walk decorated = walk digest := by
  apply walk_eq_of_essential
  induction h with
  | plain => rfl
  | separator _ place line ih => rw [essential_separator place line, ih]

end Digest

open Digest

/-- Separators never matter. Whatever a digest is, valid or not, with separators put in it hands out
the same chunks and the same fault one by one, and every converter makes the same of it: the graph
or the failure, the counters and the log. -/
theorem Converter.convert_decorated {digest decorated : Bytes} (h : Decorated digest decorated) :
    (∀ n, (Chunker.ofBytes decorated).handOut n = (Chunker.ofBytes digest).handOut n) ∧
      ∀ c : Converter, c.convert decorated = c.convert digest := by
  have same : walk decorated = walk digest := h.walk_eq
  constructor
  · intro n
    rw [handOut_eq_getElem?, handOut_eq_getElem?]
    exact congrArg (·.items[n]?) same
  · intro c
    rw [convert, same, convert]

namespace Digest.SeparatorsLemmas

/-- A file with a line, and the marker of another one. -/
def readablePart : Bytes := Bytes.ofString "FILE: a\nx\nFILE: b\n"

/-- A line that is not UTF-8. -/
def unreadableLine : Bytes := [255, Bytes.lineFeed]

/-- A line that is not ended. -/
def openLine : Bytes := Bytes.ofString "y"

def rule : Bytes := Bytes.ofString "===\n"

def returnRule : Bytes := Bytes.ofString "=\r\n"

theorem isSeparatorLine_rule : IsSeparatorLine rule := ⟨2, "\n", by simp, rfl⟩

theorem isSeparatorLine_returnRule : IsSeparatorLine returnRule := ⟨0, "\r\n", by simp, rfl⟩

/-- Separators at the start, behind the marker of a file that has no other line, and before a last
line that is not ended. -/
def decoratedUnreadable : Bytes :=
  rule ++ readablePart ++ returnRule ++ unreadableLine ++ rule ++ openLine

theorem decorated_unreadable :
    Decorated (readablePart ++ unreadableLine ++ openLine) decoratedUnreadable := by
  have last : Decorated (readablePart ++ unreadableLine ++ openLine)
      (readablePart ++ unreadableLine ++ rule ++ openLine) :=
    .separator .plain (.inr rfl) isSeparatorLine_rule
  simp only [List.append_assoc] at last
  have behindMarker : Decorated (readablePart ++ (unreadableLine ++ openLine))
      (readablePart ++ returnRule ++ (unreadableLine ++ (rule ++ openLine))) :=
    .separator last (.inr (by decide +kernel)) isSeparatorLine_returnRule
  have start : Decorated (readablePart ++ (unreadableLine ++ openLine))
      ([] ++ rule ++ (readablePart ++ returnRule ++ (unreadableLine ++ (rule ++ openLine)))) :=
    .separator behindMarker (.inl rfl) isSeparatorLine_rule
  simpa only [decoratedUnreadable, List.append_assoc, List.nil_append] using start

/-- A separator at the end. -/
theorem decorated_readable : Decorated readablePart (readablePart ++ rule) := by
  have none : Decorated readablePart (readablePart ++ []) := by
    rw [List.append_nil]
    exact .plain
  have last := Decorated.separator none (.inr (by decide +kernel)) isSeparatorLine_rule
  rwa [List.append_nil] at last

end Digest.SeparatorsLemmas

open Digest.SeparatorsLemmas in
theorem Converter.convert_decorated_samples :
    (Decorated (readablePart ++ unreadableLine ++ openLine) decoratedUnreadable ∧
      (List.range 3).map (Chunker.ofBytes decoratedUnreadable).handOut =
        [some (.ok ⟨"a", "x"⟩), some (.error .notText), none]) ∧
    Decorated readablePart (readablePart ++ rule) ∧
      (List.range 2).map (Chunker.ofBytes (readablePart ++ rule)).handOut =
        [some (.ok ⟨"a", "x"⟩), none] := by
  refine ⟨⟨decorated_unreadable, ?_⟩, decorated_readable, ?_⟩
  · rw [funext (convert_decorated decorated_unreadable).1]
    decide +kernel
  · rw [funext (convert_decorated decorated_readable).1]
    decide +kernel

end CodeAtlas
