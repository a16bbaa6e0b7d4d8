import CodeAtlas.Json.Printer
import CodeAtlas.Json.Reader
import Mathlib.Data.List.TakeWhile

/-!
# Strings and numbers of JSON read back

A string is read up to the quote that closes it, whatever its characters are: `escape?` undoes
`escapeChar` one character at a time. A number has no closing mark. It is read as far as it goes, so
that what stands behind it must not continue it (`Ends`).

* `stringBody?_escapeChar`, `stringBody?_quote`: one character, and a string.
* `number?_append`: a text that is a number is read as that number where it ends.
* `isNumber_repr`: natural numbers are written as numbers.
-/

namespace CodeAtlas.Json

/-! ## Strings -/

theorem hexValue?_hexDigit : ∀ n < 16, hexValue? (hexDigit n) = some n := by
  decide

/-- The escape of a control character. -/
theorem unicodeEscape?_hexDigits {n : Nat} (control : n < 0x20) (rest : List Char) :
    unicodeEscape? ('0' :: '0' :: hexDigit (n / 16) :: hexDigit (n % 16) :: rest) =
      some (Char.ofNat n, rest) := by
  have high := hexValue?_hexDigit (n / 16) (by omega)
  have low := hexValue?_hexDigit (n % 16) (by omega)
  have zero : hexValue? '0' = some 0 := by decide
  have value : n / 16 * 16 + n % 16 = n := by omega
  have digits : hex4? ('0' :: '0' :: hexDigit (n / 16) :: hexDigit (n % 16) :: rest) =
      some (n, rest) := by
    simp [hex4?, high, low, zero, value]
  have noHigh : ¬ 0xD800 ≤ n := by omega
  have noLow : ¬ 0xDC00 ≤ n := by omega
  simp [unicodeEscape?, digits, noHigh, noLow]

/-- An escaped character is read back at the cost of one step. -/
theorem stringBody?_escapeChar (c : Char) (fuel : Nat) (done rest : List Char) :
    stringBody? (fuel + 1) done (escapeChar c ++ rest) = stringBody? fuel (c :: done) rest := by
  unfold escapeChar
  split
  iterate 7 rfl
  · next noQuote noBackslash _ _ _ _ _ =>
    split
    · next control =>
      have escape := unicodeEscape?_hexDigits control rest
      rw [Char.ofNat_toNat] at escape
      simp [stringBody?, escape?, escape]
    · next visible =>
      have noQuote : ¬ c = '"' := noQuote
      have noBackslash : ¬ c = '\\' := noBackslash
      rw [List.singleton_append, stringBody?, if_neg noQuote, if_neg noBackslash, if_neg visible]

theorem stringBody?_escaped (cs : List Char) {fuel : Nat} (done rest : List Char)
    (enough : cs.length < fuel) :
    stringBody? fuel done (cs.flatMap escapeChar ++ '"' :: rest) =
      some (String.ofList (done.reverse ++ cs), rest) := by
  induction cs generalizing fuel done with
  | nil =>
    obtain ⟨fuel, rfl⟩ : ∃ n, fuel = n + 1 := ⟨fuel - 1, by simp at enough; omega⟩
    simp [stringBody?]
  | cons c cs ih =>
    obtain ⟨fuel, rfl⟩ : ∃ n, fuel = n + 1 := ⟨fuel - 1, by simp at enough; omega⟩
    rw [List.flatMap_cons, List.append_assoc, stringBody?_escapeChar,
      ih (c :: done) (by simpa using enough)]
    simp

theorem length_le_flatMap_escapeChar (cs : List Char) :
    cs.length ≤ (cs.flatMap escapeChar).length := by
  induction cs with
  | nil => exact Nat.le_refl 0
  | cons c cs ih =>
    have one : 1 ≤ (escapeChar c).length := by
      unfold escapeChar
      split
      iterate 7 simp
      · split <;> simp
    rw [List.flatMap_cons, List.length_append, List.length_cons]
    omega

/-- A string is read up to the quote that closes it. -/
theorem stringBody?_quote (text : String) (rest : List Char) :
    ∃ cs, (quote text).toList ++ rest = '"' :: cs ∧
      stringBody? (cs.length + 1) [] cs = some (text, rest) := by
  refine ⟨text.toList.flatMap escapeChar ++ '"' :: rest, by simp [quote], ?_⟩
  have enough : text.toList.length <
      (text.toList.flatMap escapeChar ++ '"' :: rest).length + 1 := by
    have := length_le_flatMap_escapeChar text.toList
    rw [List.length_append]
    omega
  rw [stringBody?_escaped _ _ _ enough, List.reverse_nil, List.nil_append, String.ofList_toList]

/-! ## Numbers -/

/-- What stands behind a value does not continue it, if the value is a number. -/
def Ends (rest : List Char) : Prop :=
  ∀ c ∈ rest.head?, c.isDigit = false ∧ c ≠ '.' ∧ c ≠ 'e' ∧ c ≠ 'E'

/-- A text is a number. -/
def IsNumber (text : String) : Prop := number? text.toList = some (text, [])

theorem digits?_append {cs ds left rest : List Char} (h : digits? cs = some (ds, left))
    (ends : Ends rest) : digits? (cs ++ rest) = some (ds, left ++ rest) := by
  have stop : rest.takeWhile Char.isDigit = [] ∧ rest.dropWhile Char.isDigit = rest := by
    cases rest with
    | nil => exact ⟨rfl, rfl⟩
    | cons c rest => simp [(ends c rfl).1]
  have taken : (cs ++ rest).takeWhile Char.isDigit = cs.takeWhile Char.isDigit := by
    rw [List.takeWhile_append, stop.1, List.append_nil]
    split
    · next all => exact (List.IsPrefix.eq_of_length (List.takeWhile_prefix _) all).symm
    · rfl
  have dropped : (cs ++ rest).dropWhile Char.isDigit = cs.dropWhile Char.isDigit ++ rest := by
    rw [List.dropWhile_append, stop.2]
    split
    · next none => rw [List.isEmpty_iff.mp none, List.nil_append]
    · rfl
  unfold digits? at h ⊢
  rw [taken, dropped]
  cases found : cs.takeWhile Char.isDigit with
  | nil => simp [found] at h
  | cons d ds =>
    simp only [found, Option.some.injEq, Prod.mk.injEq] at h ⊢
    exact ⟨h.1, by rw [h.2]⟩

/-- The sign at the start of an exponent, and the rest. -/
def splitSign (signed : Bool) : List Char → List Char × List Char
  | [] => ([], [])
  | s :: more => if signed && (s = '+' || s = '-') then ([s], more) else ([], s :: more)

theorem splitSign_append {signed : Bool} {cs : List Char} (h : cs ≠ []) (rest : List Char) :
    splitSign signed (cs ++ rest) =
      ((splitSign signed cs).1, (splitSign signed cs).2 ++ rest) := by
  cases cs with
  | nil => contradiction
  | cons s more =>
    rw [List.cons_append, splitSign, splitSign]
    split <;> rfl

theorem numberPart?_of_starts {a b c : Char} (starts : (c = a || c = b) = true) (signed : Bool)
    (cs : List Char) :
    numberPart? a b signed (c :: cs) =
      (digits? (splitSign signed cs).2).map fun p =>
        (c :: (splitSign signed cs).1 ++ p.1, p.2) := by
  unfold numberPart?
  dsimp only
  rw [if_pos starts]
  cases cs <;> rfl

theorem numberPart?_append {a b : Char} {signed : Bool} {cs part left rest : List Char}
    (h : numberPart? a b signed cs = some (part, left)) (ends : Ends rest)
    (other : ∀ c ∈ rest.head?, c ≠ a ∧ c ≠ b) :
    numberPart? a b signed (cs ++ rest) = some (part, left ++ rest) := by
  cases cs with
  | nil =>
    obtain ⟨rfl, rfl⟩ : part = [] ∧ left = [] := by simpa [numberPart?, eq_comm] using h
    cases rest with
    | nil => rfl
    | cons c rest => simp [numberPart?, other c rfl]
  | cons c cs =>
    by_cases starts : (c = a || c = b) = true
    · rw [numberPart?_of_starts starts] at h
      obtain ⟨⟨ds, left'⟩, digits, same⟩ := Option.map_eq_some_iff.mp h
      have nonempty : cs ≠ [] := by
        rintro rfl
        simp [splitSign, digits?] at digits
      obtain ⟨rfl, rfl⟩ := Prod.mk.inj same
      rw [List.cons_append, numberPart?_of_starts starts, splitSign_append nonempty,
        digits?_append digits ends, Option.map_some]
    · have none : ∀ cs, numberPart? a b signed (c :: cs) = some ([], c :: cs) := by
        intro cs
        unfold numberPart?
        dsimp only
        rw [if_neg starts]
      rw [none, Option.some.injEq, Prod.mk.injEq] at h
      obtain ⟨rfl, rfl⟩ := h
      exact none (cs ++ rest)

/-- A number behind its sign. -/
def unsigned? (sign cs : List Char) : Option (String × List Char) := do
  let (whole, rest) ← digits? cs
  if whole.head? = some '0' && 1 < whole.length then none
  let (fraction, rest) ← numberPart? '.' '.' false rest
  let (exponent, rest) ← numberPart? 'e' 'E' true rest
  return (String.ofList (sign ++ whole ++ fraction ++ exponent), rest)

theorem number?_minus (cs : List Char) : number? ('-' :: cs) = unsigned? ['-'] cs := rfl

theorem number?_of_head? {cs : List Char} (h : cs.head? ≠ some '-') :
    number? cs = unsigned? [] cs := by
  have noMinus : ∀ rest, cs ≠ '-' :: rest := by
    rintro rest rfl
    exact h rfl
  rw [number?]
  · rfl
  · exact noMinus

theorem unsigned?_append {sign cs rest : List Char} {text : String}
    (h : unsigned? sign cs = some (text, [])) (ends : Ends rest) :
    unsigned? sign (cs ++ rest) = some (text, rest) := by
  simp only [unsigned?, Option.bind_eq_bind, Option.bind_eq_some_iff] at h
  obtain ⟨⟨whole, left⟩, digits, h⟩ := h
  split at h
  · contradiction
  · next zero =>
    simp only [Option.bind_eq_some_iff] at h
    obtain ⟨⟨fraction, left'⟩, point, ⟨exponent, left''⟩, power, same⟩ := h
    obtain ⟨rfl, rfl⟩ := Prod.mk.inj (Option.some.inj same)
    have zero : whole.head? = some '0' → whole.length ≤ 1 := by simpa using zero
    have noPoint : ∀ c ∈ rest.head?, c ≠ '.' ∧ c ≠ '.' := fun c hc =>
      ⟨(ends c hc).2.1, (ends c hc).2.1⟩
    have noPower : ∀ c ∈ rest.head?, c ≠ 'e' ∧ c ≠ 'E' := fun c hc => (ends c hc).2.2
    simpa [unsigned?, digits?_append digits ends, numberPart?_append point ends noPoint,
      numberPart?_append power ends noPower] using zero

theorem head?_of_digits? {cs : List Char} (h : (digits? cs).isSome = true) :
    ∃ c rest, cs = c :: rest ∧ c.isDigit = true := by
  cases cs with
  | nil => simp [digits?] at h
  | cons c rest =>
    refine ⟨c, rest, rfl, ?_⟩
    cases digit : c.isDigit with
    | true => rfl
    | false => simp [digits?, digit] at h

/-- A number starts with a digit or a minus sign. -/
theorem IsNumber.head {text : String} (h : IsNumber text) :
    ∃ c cs, text.toList = c :: cs ∧ (c = '-' ∨ c.isDigit = true) := by
  rw [IsNumber] at h
  by_cases minus : text.toList.head? = some '-'
  · obtain ⟨cs, hcs⟩ := List.head?_eq_some_iff.mp minus
    exact ⟨'-', cs, hcs, .inl rfl⟩
  · rw [number?_of_head? minus] at h
    have digits : (digits? text.toList).isSome = true := by
      cases found : digits? text.toList with
      | none => simp [unsigned?, found] at h
      | some p => rfl
    obtain ⟨c, cs, hcs, digit⟩ := head?_of_digits? digits
    exact ⟨c, cs, hcs, .inr digit⟩

/-- A text that is a number is read as that number where it ends. -/
theorem number?_append {text : String} (h : IsNumber text) {rest : List Char} (ends : Ends rest) :
    number? (text.toList ++ rest) = some (text, rest) := by
  obtain ⟨c, cs, chars, -⟩ := h.head
  rw [IsNumber, chars] at h
  rw [chars, List.cons_append]
  by_cases minus : c = '-'
  · subst minus
    rw [number?_minus] at h ⊢
    exact unsigned?_append h ends
  · rw [number?_of_head? (by simpa using minus)] at h ⊢
    exact unsigned?_append h ends

theorem eq_zero_of_digitChar : ∀ n < 10, n.digitChar = '0' → n = 0 := by
  decide

/-- Only zero itself starts with a zero. -/
theorem eq_zero_of_head?_toDigits {n : Nat} (h : (Nat.toDigits 10 n).head? = some '0') : n = 0 := by
  induction n using Nat.strongRecOn with
  | ind n ih =>
    by_cases small : n < 10
    · rw [Nat.toDigits_of_lt_base small, List.head?_singleton, Option.some.injEq] at h
      exact eq_zero_of_digitChar n small h
    · have split := Nat.toDigits_of_base_le (b := 10) (by decide) (Nat.le_of_not_lt small)
      obtain ⟨c, cs, front⟩ :=
        List.exists_cons_of_ne_nil (Nat.toDigits_ne_nil (b := 10) (n := n / 10))
      rw [split, front, List.cons_append, List.head?_cons] at h
      have := ih (n / 10) (by omega) (by rw [front, List.head?_cons, h])
      omega

theorem isNumber_repr (n : Nat) : IsNumber (Nat.repr n) := by
  have digits : ∀ c ∈ Nat.toDigits 10 n, c.isDigit = true :=
    fun c hc => Nat.isDigit_of_mem_toDigits (by decide) (by decide) hc
  have noMinus : (Nat.toDigits 10 n).head? ≠ some '-' := by
    intro minus
    exact absurd (digits _ (List.mem_of_mem_head? minus)) (by decide)
  have found : digits? (Nat.toDigits 10 n) = some (Nat.toDigits 10 n, []) := by
    unfold digits?
    rw [List.takeWhile_eq_self_iff.mpr digits, List.dropWhile_eq_nil_iff.mpr digits]
    split
    · next none => exact absurd none Nat.toDigits_ne_nil
    · rfl
  have zero : (Nat.toDigits 10 n).head? = some '0' → (Nat.toDigits 10 n).length ≤ 1 := by
    intro head
    rw [eq_zero_of_head?_toDigits head]
    decide
  rw [IsNumber, Nat.toList_repr, number?_of_head? noMinus, Nat.repr_eq_ofList_toDigits]
  simpa [unsigned?, found, numberPart?] using zero

end CodeAtlas.Json
