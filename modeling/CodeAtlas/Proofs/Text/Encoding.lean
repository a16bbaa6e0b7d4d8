import CodeAtlas.Proofs.Text.Pieces

/-!
# UTF-8 by its bytes

What the bytes of a text look like, and how they compare.

* `WellFormed`: bytes that are one character after the other, each in one of the forms that UTF-8
  has. Forms that are too long, surrogates, numbers beyond the last character and characters that
  are cut off are in none of them.
* `wellFormed_iff`: well-formed bytes are those that are the UTF-8 form of a text.
* `ofString_lt_ofString`: texts, which are compared by their characters, are in the order of their
  UTF-8 forms.

Both rest on the four forms of a character (`encoded_cases`): the digits of its number to the base
64, each with a mark.
-/

namespace CodeAtlas.Bytes

/-- The bytes that come second or later in a character. -/
def continuation : Nat × Nat := (0x80, 0xBF)

/-- The forms of a character, each as the ranges of its bytes. -/
def characterForms : List (List (Nat × Nat)) :=
  [[(0x00, 0x7F)],
    [(0xC2, 0xDF), continuation],
    [(0xE0, 0xE0), (0xA0, 0xBF), continuation],
    [(0xE1, 0xEC), continuation, continuation],
    [(0xED, 0xED), (0x80, 0x9F), continuation],
    [(0xEE, 0xEF), continuation, continuation],
    [(0xF0, 0xF0), (0x90, 0xBF), continuation, continuation],
    [(0xF1, 0xF3), continuation, continuation, continuation],
    [(0xF4, 0xF4), (0x80, 0x8F), continuation, continuation]]

/-- Bytes have one of the forms of a character. -/
def IsCharacter (b : Bytes) : Prop :=
  ∃ form ∈ characterForms,
    List.Forall₂ (fun range x => range.1 ≤ x.toNat ∧ x.toNat ≤ range.2) form b

/-- One character after the other. -/
inductive WellFormed : Bytes → Prop
  | nil : WellFormed []
  | cons {b rest : Bytes} : IsCharacter b → WellFormed rest → WellFormed (b ++ rest)

namespace EncodingLemmas

/-! ## Characters -/

theorem toNat_lt (c : Char) : c.val.toNat < 0x110000 := by
  rcases c.valid with h | h
  · exact Nat.lt_trans h (by decide)
  · exact h.2

/-- The four forms of a character: the digits of its number to the base 64, with marks. -/
theorem encoded_cases (c : Char) :
    let n := c.val.toNat
    n ≤ 127 ∧ String.utf8EncodeChar c = [UInt8.ofNat n] ∨
    127 < n ∧ n ≤ 2047 ∧ String.utf8EncodeChar c =
      [UInt8.ofNat (n / 64 + 192), UInt8.ofNat (n % 64 + 128)] ∨
    2047 < n ∧ n ≤ 65535 ∧ String.utf8EncodeChar c =
      [UInt8.ofNat (n / 64 / 64 + 224), UInt8.ofNat (n / 64 % 64 + 128),
        UInt8.ofNat (n % 64 + 128)] ∨
    65535 < n ∧ n < 0x110000 ∧ String.utf8EncodeChar c =
      [UInt8.ofNat (n / 64 / 64 / 64 + 240), UInt8.ofNat (n / 64 / 64 % 64 + 128),
        UInt8.ofNat (n / 64 % 64 + 128), UInt8.ofNat (n % 64 + 128)] := by
  intro n
  have bound : n < 0x110000 := toNat_lt c
  have digits : n / 4096 = n / 64 / 64 ∧ n / 262144 = n / 64 / 64 / 64 := by omega
  unfold String.utf8EncodeChar
  dsimp only
  rw [digits.1, digits.2]
  split
  · next one => exact .inl ⟨one, rfl⟩
  split
  · next one two =>
    have first : n / 64 % 32 = n / 64 := by omega
    exact .inr (.inl ⟨by omega, two, by rw [first]⟩)
  split
  · next two three =>
    have first : n / 64 / 64 % 16 = n / 64 / 64 := by omega
    exact .inr (.inr (.inl ⟨by omega, three, by rw [first]⟩))
  · next three =>
    have first : n / 64 / 64 / 64 % 8 = n / 64 / 64 / 64 := by omega
    exact .inr (.inr (.inr ⟨by omega, bound, by rw [first]⟩))

theorem ofNat_eq_iff {n : Nat} {b : UInt8} : UInt8.ofNat n = b ↔ n % 256 = b.toNat := by
  rw [← UInt8.toNat_inj, UInt8.toNat_ofNat']

theorem exists_char {n : Nat} (h : n < 0xD800 ∨ 0xDFFF < n ∧ n < 0x110000) :
    ∃ c : Char, c.val.toNat = n :=
  ⟨Char.ofNatAux n h, rfl⟩

section

variable {a b c d : UInt8}

theorem exists_encoded_one (ha : a.toNat ≤ 0x7F) : ∃ x, String.utf8EncodeChar x = [a] := by
  obtain ⟨x, hx⟩ := exists_char (n := a.toNat) (by omega)
  refine ⟨x, ?_⟩
  rcases encoded_cases x with ⟨_, h⟩ | ⟨_, _, _⟩ | ⟨_, _, _⟩ | ⟨_, _, _⟩
  · rw [h, hx, UInt8.ofNat_toNat]
  all_goals omega

theorem exists_encoded_two (ha : 0xC2 ≤ a.toNat ∧ a.toNat ≤ 0xDF)
    (hb : 0x80 ≤ b.toNat ∧ b.toNat ≤ 0xBF) :
    ∃ x, String.utf8EncodeChar x = [a, b] := by
  obtain ⟨x, hx⟩ := exists_char (n := (a.toNat - 192) * 64 + (b.toNat - 128)) (by omega)
  refine ⟨x, ?_⟩
  rcases encoded_cases x with ⟨_, _⟩ | ⟨_, _, h⟩ | ⟨_, _, _⟩ | ⟨_, _, _⟩
  · omega
  · rw [h, hx]
    simp only [List.cons.injEq, ofNat_eq_iff, and_true]
    omega
  all_goals omega

/-- The number is neither too small for three bytes nor that of a surrogate. -/
theorem exists_encoded_three (ha : 0xE0 ≤ a.toNat ∧ a.toNat ≤ 0xEF)
    (hb : 0x80 ≤ b.toNat ∧ b.toNat ≤ 0xBF) (hc : 0x80 ≤ c.toNat ∧ c.toNat ≤ 0xBF)
    (long : a.toNat = 0xE0 → 0xA0 ≤ b.toNat)
    (valid : a.toNat = 0xED → b.toNat ≤ 0x9F) : ∃ x, String.utf8EncodeChar x = [a, b, c] := by
  obtain ⟨x, hx⟩ := exists_char
    (n := (a.toNat - 224) * 4096 + (b.toNat - 128) * 64 + (c.toNat - 128)) (by omega)
  refine ⟨x, ?_⟩
  rcases encoded_cases x with ⟨_, _⟩ | ⟨_, _, _⟩ | ⟨_, _, h⟩ | ⟨_, _, _⟩
  · omega
  · omega
  · rw [h, hx]
    simp only [List.cons.injEq, ofNat_eq_iff, and_true]
    omega
  · omega

/-- The number is neither too small for four bytes nor beyond the last character. -/
theorem exists_encoded_four (ha : 0xF0 ≤ a.toNat ∧ a.toNat ≤ 0xF4)
    (hb : 0x80 ≤ b.toNat ∧ b.toNat ≤ 0xBF) (hc : 0x80 ≤ c.toNat ∧ c.toNat ≤ 0xBF)
    (hd : 0x80 ≤ d.toNat ∧ d.toNat ≤ 0xBF) (long : a.toNat = 0xF0 → 0x90 ≤ b.toNat)
    (valid : a.toNat = 0xF4 → b.toNat ≤ 0x8F) :
    ∃ x, String.utf8EncodeChar x = [a, b, c, d] := by
  obtain ⟨x, hx⟩ := exists_char (n := (a.toNat - 240) * 262144 + (b.toNat - 128) * 4096 +
    (c.toNat - 128) * 64 + (d.toNat - 128)) (by omega)
  refine ⟨x, ?_⟩
  rcases encoded_cases x with ⟨_, _⟩ | ⟨_, _, _⟩ | ⟨_, _, _⟩ | ⟨_, _, h⟩
  · omega
  · omega
  · omega
  · rw [h, hx]
    simp only [List.cons.injEq, ofNat_eq_iff, and_true]
    omega

end

/-- Every form is that of a character. -/
theorem exists_encoded {b : Bytes} (h : IsCharacter b) : ∃ x, String.utf8EncodeChar x = b := by
  obtain ⟨form, member, ranges⟩ := h
  simp only [characterForms, List.mem_cons, List.not_mem_nil, or_false] at member
  rcases member with rfl | rfl | rfl | rfl | rfl | rfl | rfl | rfl | rfl
  · obtain _ | ⟨ha, ⟨⟩⟩ := ranges
    exact exists_encoded_one ha.2
  · obtain _ | ⟨ha, _ | ⟨hb, ⟨⟩⟩⟩ := ranges
    exact exists_encoded_two ha hb
  · obtain _ | ⟨ha, _ | ⟨hb, _ | ⟨hc, ⟨⟩⟩⟩⟩ := ranges
    exact exists_encoded_three (by omega) (by omega) hc (by omega) (by omega)
  · obtain _ | ⟨ha, _ | ⟨hb, _ | ⟨hc, ⟨⟩⟩⟩⟩ := ranges
    exact exists_encoded_three (by omega) hb hc (by omega) (by omega)
  · obtain _ | ⟨ha, _ | ⟨hb, _ | ⟨hc, ⟨⟩⟩⟩⟩ := ranges
    exact exists_encoded_three (by omega) (by omega) hc (by omega) (by omega)
  · obtain _ | ⟨ha, _ | ⟨hb, _ | ⟨hc, ⟨⟩⟩⟩⟩ := ranges
    exact exists_encoded_three (by omega) hb hc (by omega) (by omega)
  · obtain _ | ⟨ha, _ | ⟨hb, _ | ⟨hc, _ | ⟨hd, ⟨⟩⟩⟩⟩⟩ := ranges
    exact exists_encoded_four (by omega) (by omega) hc hd (by omega) (by omega)
  · obtain _ | ⟨ha, _ | ⟨hb, _ | ⟨hc, _ | ⟨hd, ⟨⟩⟩⟩⟩⟩ := ranges
    exact exists_encoded_four (by omega) hb hc hd (by omega) (by omega)
  · obtain _ | ⟨ha, _ | ⟨hb, _ | ⟨hc, _ | ⟨hd, ⟨⟩⟩⟩⟩⟩ := ranges
    exact exists_encoded_four (by omega) (by omega) hc hd (by omega) (by omega)

/-- Every character has one of the forms. -/
theorem isCharacter_encoded (x : Char) : IsCharacter (String.utf8EncodeChar x) := by
  have valid : x.val.toNat < 0xD800 ∨ 0xDFFF < x.val.toNat ∧ x.val.toNat < 0x110000 := x.valid
  rcases encoded_cases x with ⟨_, hx⟩ | ⟨_, _, hx⟩ | ⟨_, _, hx⟩ | ⟨_, _, hx⟩ <;> rw [hx]
  · refine ⟨[(0x00, 0x7F)], by decide, ?_⟩
    simp only [List.forall₂_cons, List.Forall₂.nil, UInt8.toNat_ofNat', and_true]
    omega
  · refine ⟨[(0xC2, 0xDF), continuation], by decide, ?_⟩
    simp only [List.forall₂_cons, List.Forall₂.nil, UInt8.toNat_ofNat', continuation, and_true]
    omega
  -- where the first byte is the least or the greatest of its range, the second one is bounded
  · by_cases first : x.val.toNat < 0x1000
    · refine ⟨[(0xE0, 0xE0), (0xA0, 0xBF), continuation], by decide, ?_⟩
      simp only [List.forall₂_cons, List.Forall₂.nil, UInt8.toNat_ofNat', continuation, and_true]
      omega
    by_cases second : x.val.toNat < 0xD000
    · refine ⟨[(0xE1, 0xEC), continuation, continuation], by decide, ?_⟩
      simp only [List.forall₂_cons, List.Forall₂.nil, UInt8.toNat_ofNat', continuation, and_true]
      omega
    by_cases third : x.val.toNat < 0xE000
    · refine ⟨[(0xED, 0xED), (0x80, 0x9F), continuation], by decide, ?_⟩
      simp only [List.forall₂_cons, List.Forall₂.nil, UInt8.toNat_ofNat', continuation, and_true]
      omega
    · refine ⟨[(0xEE, 0xEF), continuation, continuation], by decide, ?_⟩
      simp only [List.forall₂_cons, List.Forall₂.nil, UInt8.toNat_ofNat', continuation, and_true]
      omega
  · by_cases first : x.val.toNat < 0x40000
    · refine ⟨[(0xF0, 0xF0), (0x90, 0xBF), continuation, continuation], by decide, ?_⟩
      simp only [List.forall₂_cons, List.Forall₂.nil, UInt8.toNat_ofNat', continuation, and_true]
      omega
    by_cases second : x.val.toNat < 0x100000
    · refine ⟨[(0xF1, 0xF3), continuation, continuation, continuation], by decide, ?_⟩
      simp only [List.forall₂_cons, List.Forall₂.nil, UInt8.toNat_ofNat', continuation, and_true]
      omega
    · refine ⟨[(0xF4, 0xF4), (0x80, 0x8F), continuation, continuation], by decide, ?_⟩
      simp only [List.forall₂_cons, List.Forall₂.nil, UInt8.toNat_ofNat', continuation, and_true]
      omega

theorem wellFormed_flatMap (cs : List Char) : WellFormed (cs.flatMap String.utf8EncodeChar) := by
  induction cs with
  | nil => exact .nil
  | cons c cs ih => exact .cons (isCharacter_encoded c) ih

end EncodingLemmas

open EncodingLemmas in
/-- Well-formed bytes are the UTF-8 forms of texts. -/
theorem wellFormed_iff {b : Bytes} : WellFormed b ↔ b.IsText := by
  constructor
  · intro h
    induction h with
    | nil => exact isText_ofString ""
    | cons character _ ih =>
      obtain ⟨c, rfl⟩ := exists_encoded character
      have first := isText_ofString (String.ofList [c])
      rw [ofString_ofList, List.flatMap_singleton] at first
      exact isText_append first ih
  · intro h
    obtain ⟨s, rfl⟩ := isText_iff.mp h
    rw [← String.ofList_toList (s := s), ofString_ofList]
    exact wellFormed_flatMap s.toList

namespace EncodingLemmas

/-! ## Order -/

/-- A lesser character has lesser bytes, whatever follows them. -/
theorem encoded_lt {c d : Char} (h : c < d) (rest rest' : Bytes) :
    String.utf8EncodeChar c ++ rest < String.utf8EncodeChar d ++ rest' := by
  have less : c.val.toNat < d.val.toNat := h
  -- first bytes are in the order of the lengths; at the same length digits are compared one by one
  rcases encoded_cases c with ⟨_, hc⟩ | ⟨_, _, hc⟩ | ⟨_, _, hc⟩ | ⟨_, _, hc⟩ <;>
    rcases encoded_cases d with ⟨_, hd⟩ | ⟨_, _, hd⟩ | ⟨_, _, hd⟩ | ⟨_, _, hd⟩
  all_goals
    rw [hc, hd]
    simp only [List.cons_append, List.nil_append, List.cons_lt_cons_iff, UInt8.lt_iff_toNat_lt,
      ofNat_eq_iff, UInt8.toNat_ofNat']
    omega

theorem append_lt_append_left {l l₁ l₂ : Bytes} : l ++ l₁ < l ++ l₂ ↔ l₁ < l₂ := by
  induction l with
  | nil => rfl
  | cons b l ih =>
    rw [List.cons_append, List.cons_append, List.cons_lt_cons_iff, ih]
    simp

theorem flatMap_encoded_lt {cs ds : List Char} :
    cs.flatMap String.utf8EncodeChar < ds.flatMap String.utf8EncodeChar ↔ cs < ds := by
  induction cs generalizing ds with
  | nil =>
    cases ds with
    | nil => simp
    | cons d ds =>
      obtain ⟨b, bs, encoded⟩ := List.exists_cons_of_ne_nil (String.utf8EncodeChar_ne_nil (c := d))
      rw [List.flatMap_nil, List.flatMap_cons, encoded, List.cons_append]
      exact iff_of_true (List.nil_lt_cons _ _) (List.nil_lt_cons _ _)
  | cons c cs ih =>
    cases ds with
    | nil => exact iff_of_false (List.not_lt_nil _) (List.not_lt_nil _)
    | cons d ds =>
      rw [List.flatMap_cons, List.flatMap_cons, List.cons_lt_cons_iff]
      rcases Std.lt_trichotomy c d with less | rfl | greater
      · exact iff_of_true (encoded_lt less _ _) (.inl less)
      · rw [append_lt_append_left, ih]
        simp
      · refine iff_of_false (List.lt_asymm (encoded_lt greater _ _)) ?_
        rintro (less | ⟨rfl, -⟩)
        · exact Char.lt_asymm less greater
        · exact Char.lt_irrefl _ greater

end EncodingLemmas

open EncodingLemmas in
/-- Texts are in the order of their UTF-8 forms. -/
theorem ofString_lt_ofString {s t : String} : ofString s < ofString t ↔ s < t := by
  rw [String.lt_iff, ← flatMap_encoded_lt, ← ofString_ofList, ← ofString_ofList,
    String.ofList_toList, String.ofList_toList]

end CodeAtlas.Bytes
