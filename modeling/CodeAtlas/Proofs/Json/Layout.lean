import CodeAtlas.Proofs.Json.Tokens

/-!
# JSON values read back

The compact and the pretty form of a value differ in blanks only. Both are instances of one way to
write values, in which a layout says which blanks stand before items, before closing brackets and
behind colons (`Layout`, `write`). Whatever these blanks are, the reader skips them, and it takes
back every value whose numbers are numbers (`WellNumbered`).

The reader counts its steps. Each step reads at least one character, so as many steps as the text
has characters are enough, and the text of a value is a bound for the steps that the value needs.

* `toList_compact`, `toList_prettyAt`: both forms are layouts.
* `items?_items`, `members?_members`: lists of values that are read back are read back.
* `readsBack`: every value is read back, in every layout.
* `parse?_compact`, `parse?_pretty`: both forms read as the value they were made from.
-/

namespace CodeAtlas.Json

/-! ## Layouts -/

/-- Only blanks, which the reader skips. -/
def Blank (cs : List Char) : Prop := ∀ c ∈ cs, isBlank c = true

/-- Where blanks stand in the text of a value. -/
structure Layout where
  /-- What stands before the items of a level, and before the bracket that closes the next one. -/
  gap : Nat → List Char
  /-- What stands behind a colon. -/
  space : List Char
  gap_blank : ∀ level, Blank (gap level)
  space_blank : Blank space

namespace Layout

/-- No blanks at all. -/
def tight : Layout where
  gap _ := []
  space := []
  gap_blank _ _ h := absurd h List.not_mem_nil
  space_blank _ h := absurd h List.not_mem_nil

/-- A line for each item. -/
def indented : Layout where
  gap level := (newLine level).toList
  space := [' ']
  gap_blank level c hc := by
    simp only [newLine, String.toList_append, String.toList_ofList, List.mem_append,
      List.mem_replicate] at hc
    rcases hc with hc | ⟨-, rfl⟩
    · obtain rfl : c = '\n' := by simpa using hc
      rfl
    · rfl
  space_blank c hc := by
    rw [List.mem_singleton.mp hc]
    rfl

/-- The text of items behind the first one and of the bracket that closes them. -/
def close (l : Layout) (level : Nat) (closing : Char) (texts : List (List Char)) : List Char :=
  texts.flatMap (fun t => ',' :: l.gap (level + 1) ++ t) ++ l.gap level ++ [closing]

/-- The text of items between brackets. -/
def enclose (l : Layout) (level : Nat) (opening closing : Char) :
    List (List Char) → List Char
  | [] => [opening, closing]
  | t :: texts => opening :: l.gap (level + 1) ++ t ++ l.close level closing texts

end Layout

mutual
/-- A value in a layout, at a level of brackets. -/
def write (l : Layout) (level : Nat) : Json → List Char
  | null => "null".toList
  | bool b => if b then "true".toList else "false".toList
  | number text => text.toList
  | string text => (quote text).toList
  | array items => l.enclose level '[' ']' (writeItems l (level + 1) items)
  | object members => l.enclose level '\x7b' '\x7d' (writeMembers l (level + 1) members)
def writeItems (l : Layout) (level : Nat) : List Json → List (List Char)
  | [] => []
  | v :: rest => write l level v :: writeItems l level rest
def writeMembers (l : Layout) (level : Nat) : List (String × Json) → List (List Char)
  | [] => []
  | (k, v) :: rest =>
    ((quote k).toList ++ ':' :: l.space ++ write l level v) :: writeMembers l level rest
end

theorem writeItems_eq (l : Layout) (level : Nat) (items : List Json) :
    writeItems l level items = items.map (write l level) := by
  induction items with
  | nil => rfl
  | cons v rest ih => rw [writeItems, ih, List.map_cons]

/-- A member of an object in a layout. -/
def writeMember (l : Layout) (level : Nat) (m : String × Json) : List Char :=
  (quote m.1).toList ++ ':' :: l.space ++ write l level m.2

theorem writeMembers_eq (l : Layout) (level : Nat) (members : List (String × Json)) :
    writeMembers l level members = members.map (writeMember l level) := by
  induction members with
  | nil => rfl
  | cons m rest ih =>
    obtain ⟨k, v⟩ := m
    rw [writeMembers, ih, List.map_cons, writeMember]

/-! ## Both forms -/

theorem toList_intercalate_cons (separator first : String) (rest : List String) :
    (separator.intercalate (first :: rest)).toList =
      first.toList ++ (rest.map String.toList).flatMap (separator.toList ++ ·) := by
  induction rest generalizing first with
  | nil => simp
  | cons next rest ih =>
    rw [String.intercalate_cons_cons, String.toList_append, String.toList_append, ih]
    simp

theorem toList_enclose_tight (level : Nat) {opening closing : String} {o c : Char}
    (ho : opening.toList = [o]) (hc : closing.toList = [c]) (texts : List String) :
    (opening ++ ",".intercalate texts ++ closing).toList =
      Layout.tight.enclose level o c (texts.map String.toList) := by
  cases texts with
  | nil => simp [Layout.enclose, ho, hc]
  | cons first rest =>
    rw [String.toList_append, String.toList_append, toList_intercalate_cons]
    simp [Layout.enclose, Layout.close, Layout.tight, ho, hc]

theorem toList_enclose_indented (level : Nat) {opening closing : String} {o c : Char}
    (ho : opening.toList = [o]) (hc : closing.toList = [c]) (lines : List String) :
    (enclose level opening closing lines).toList =
      Layout.indented.enclose level o c (lines.map String.toList) := by
  cases lines with
  | nil => simp [enclose, Layout.enclose, ho, hc]
  | cons first rest =>
    simp only [enclose, List.isEmpty_cons, Bool.false_eq_true, ↓reduceIte, String.toList_append,
      toList_intercalate_cons]
    simp [Layout.enclose, Layout.close, Layout.indented, ho, hc]

mutual
theorem toList_compact (level : Nat) (v : Json) : v.compact.toList = write .tight level v := by
  cases v with
  | null => rfl
  | bool b => cases b <;> rfl
  | number text => rfl
  | string text => rfl
  | array items =>
    rw [compact, write, toList_enclose_tight level (o := '[') (c := ']') rfl rfl,
      map_toList_compactItems (level + 1)]
  | object members =>
    rw [compact, write, toList_enclose_tight level (o := '\x7b') (c := '\x7d') rfl rfl,
      map_toList_compactMembers (level + 1)]
theorem map_toList_compactItems (level : Nat) (items : List Json) :
    (compactItems items).map String.toList = writeItems .tight level items := by
  cases items with
  | nil => rfl
  | cons v rest =>
    rw [compactItems, List.map_cons, toList_compact level v, map_toList_compactItems level rest,
      writeItems]
theorem map_toList_compactMembers (level : Nat) (members : List (String × Json)) :
    (compactMembers members).map String.toList = writeMembers .tight level members := by
  cases members with
  | nil => rfl
  | cons m rest =>
    obtain ⟨k, v⟩ := m
    rw [compactMembers, List.map_cons, String.toList_append, String.toList_append,
      toList_compact level v, map_toList_compactMembers level rest, writeMembers]
    simp [Layout.tight]
end

mutual
theorem toList_prettyAt (level : Nat) (v : Json) :
    (v.prettyAt level).toList = write .indented level v := by
  cases v with
  | null => rfl
  | bool b => cases b <;> rfl
  | number text => rfl
  | string text => rfl
  | array items =>
    rw [prettyAt, write, toList_enclose_indented level (o := '[') (c := ']') rfl rfl,
      map_toList_prettyItems]
  | object members =>
    rw [prettyAt, write, toList_enclose_indented level (o := '\x7b') (c := '\x7d') rfl rfl,
      map_toList_prettyMembers]
theorem map_toList_prettyItems (level : Nat) (items : List Json) :
    (prettyItems level items).map String.toList = writeItems .indented level items := by
  cases items with
  | nil => rfl
  | cons v rest =>
    rw [prettyItems, List.map_cons, toList_prettyAt level v, map_toList_prettyItems level rest,
      writeItems]
theorem map_toList_prettyMembers (level : Nat) (members : List (String × Json)) :
    (prettyMembers level members).map String.toList = writeMembers .indented level members := by
  cases members with
  | nil => rfl
  | cons m rest =>
    obtain ⟨k, v⟩ := m
    rw [prettyMembers, List.map_cons, String.toList_append, String.toList_append,
      toList_prettyAt level v, map_toList_prettyMembers level rest, writeMembers]
    simp [Layout.indented]
end

/-! ## Reading -/

/-- Every number in a value is a number. -/
inductive WellNumbered : Json → Prop
  | null : WellNumbered null
  | bool (b : Bool) : WellNumbered (bool b)
  | number {text : String} : IsNumber text → WellNumbered (number text)
  | string (text : String) : WellNumbered (string text)
  | array {items : List Json} : (∀ v ∈ items, WellNumbered v) → WellNumbered (array items)
  | object {members : List (String × Json)} :
      (∀ m ∈ members, WellNumbered m.2) → WellNumbered (object members)

/-- A value in a layout is read back, whatever blanks stand before it. -/
def ReadsBack (l : Layout) (level : Nat) (v : Json) : Prop :=
  ∀ (fuel : Nat) (before rest : List Char), Blank before → (write l level v).length ≤ fuel →
    Ends rest → value? fuel (before ++ (write l level v ++ rest)) = some (v, rest)

theorem skipBlanks_append {before : List Char} (h : Blank before) (cs : List Char) :
    skipBlanks (before ++ cs) = skipBlanks cs :=
  List.dropWhile_append_of_pos h

theorem skipBlanks_cons {c : Char} (h : isBlank c = false) (cs : List Char) :
    skipBlanks (c :: cs) = c :: cs := by
  rw [skipBlanks, List.dropWhile_cons_of_neg (by simp [h])]

theorem ends_cons {c : Char} (rest : List Char)
    (h : c.isDigit = false ∧ c ≠ '.' ∧ c ≠ 'e' ∧ c ≠ 'E') : Ends (c :: rest) := by
  intro d hd
  obtain rfl := Option.some.inj hd
  exact h

theorem ends_of_blank {before : List Char} (h : Blank before) {rest : List Char}
    (ends : Ends rest) : Ends (before ++ rest) := by
  cases before with
  | nil => exact ends
  | cons c before =>
    have blank := h c List.mem_cons_self
    simp only [isBlank, Bool.or_eq_true, decide_eq_true_eq] at blank
    rcases blank with ((rfl | rfl) | rfl) | rfl <;> exact ends_cons _ (by decide)

/-- Behind a value comes something that ends it: a comma, blanks or a bracket. -/
theorem ends_close (l : Layout) (level : Nat) {closing : Char}
    (h : closing = ']' ∨ closing = '\x7d') (texts : List (List Char)) (rest : List Char) :
    Ends (l.close level closing texts ++ rest) := by
  cases texts with
  | nil =>
    rw [Layout.close, List.flatMap_nil, List.nil_append, List.append_assoc]
    refine ends_of_blank (l.gap_blank level) ?_
    rcases h with rfl | rfl <;> exact ends_cons _ (by decide)
  | cons t texts =>
    simp only [Layout.close, List.flatMap_cons, List.cons_append]
    exact ends_cons _ (by decide)

theorem isBlank_of_start {c : Char} (h : c = '-' ∨ c.isDigit = true) : isBlank c = false := by
  rw [Bool.eq_false_iff]
  intro blank
  simp only [isBlank, Bool.or_eq_true, decide_eq_true_eq] at blank
  rcases blank with ((rfl | rfl) | rfl) | rfl <;> exact absurd h (by decide)

/-- The text of a value starts with neither a blank nor a closing bracket. -/
theorem head_write (l : Layout) (level : Nat) {v : Json} (h : v.WellNumbered) :
    ∃ c cs, write l level v = c :: cs ∧ isBlank c = false ∧ c ≠ ']' := by
  cases h with
  | null => exact ⟨'n', "ull".toList, rfl, rfl, by decide⟩
  | bool b =>
    cases b with
    | false => exact ⟨'f', "alse".toList, rfl, rfl, by decide⟩
    | true => exact ⟨'t', "rue".toList, rfl, rfl, by decide⟩
  | number isNumber =>
    obtain ⟨c, cs, chars, start⟩ := isNumber.head
    refine ⟨c, cs, chars, isBlank_of_start start, ?_⟩
    rintro rfl
    exact absurd start (by decide)
  | string text => exact ⟨'"', _, by simp [write, quote]; rfl, rfl, by decide⟩
  | @array items _ =>
    cases items with
    | nil => exact ⟨'[', [']'], rfl, rfl, by decide⟩
    | cons v items => exact ⟨'[', _, rfl, rfl, by decide⟩
  | @object members _ =>
    cases members with
    | nil => exact ⟨'\x7b', ['\x7d'], rfl, rfl, by decide⟩
    | cons m members => exact ⟨'\x7b', _, rfl, rfl, by decide⟩

/-! ### Items and members -/

section

variable (l : Layout) (level : Nat) (closing : Char)

theorem skipBlanks_close_nil (h : isBlank closing = false) (rest : List Char) :
    skipBlanks (l.close level closing [] ++ rest) = closing :: rest := by
  rw [Layout.close, List.flatMap_nil, List.nil_append, List.append_assoc,
    skipBlanks_append (l.gap_blank level)]
  exact skipBlanks_cons h rest

theorem skipBlanks_close_cons (t : List Char) (texts : List (List Char)) (rest : List Char) :
    skipBlanks (l.close level closing (t :: texts) ++ rest) =
      ',' :: (l.gap (level + 1) ++ (t ++ (l.close level closing texts ++ rest))) := by
  simp only [Layout.close, List.flatMap_cons, List.cons_append, List.append_assoc]
  exact skipBlanks_cons rfl _

theorem length_close_pos (texts : List (List Char)) : 0 < (l.close level closing texts).length := by
  rw [Layout.close, List.length_append, List.length_singleton]
  omega

theorem length_close_cons (t : List Char) (texts : List (List Char)) :
    t.length + (l.close level closing texts).length <
      (l.close level closing (t :: texts)).length := by
  simp only [Layout.close, List.flatMap_cons, List.length_append, List.length_cons]
  omega

end

variable {l : Layout} {level : Nat}

/-- One step of reading an array. -/
theorem items?_succ {v : Json} (h : ReadsBack l level v) {fuel : Nat} (done : List Json)
    {before rest : List Char} (blank : Blank before) (enough : (write l level v).length ≤ fuel)
    (ends : Ends rest) :
    items? (fuel + 1) done (before ++ (write l level v ++ rest)) =
      match skipBlanks rest with
      | ',' :: rest => items? fuel (v :: done) rest
      | ']' :: rest => some ((v :: done).reverse, rest)
      | _ => none := by
  rewrite [items?, h fuel before rest blank enough ends]
  rfl

theorem items?_items {v : Json} {items : List Json}
    (h : ∀ w ∈ v :: items, ReadsBack l (level + 1) w) {fuel : Nat} (done : List Json)
    {before : List Char} (blank : Blank before) (rest : List Char)
    (enough : (write l (level + 1) v).length +
      (l.close level ']' (items.map (write l (level + 1)))).length ≤ fuel) :
    items? fuel done (before ++ (write l (level + 1) v ++
      (l.close level ']' (items.map (write l (level + 1))) ++ rest))) =
      some (done.reverse ++ v :: items, rest) := by
  induction items generalizing v fuel done before with
  | nil =>
    rw [List.map_nil] at enough ⊢
    have := length_close_pos l level ']' []
    obtain ⟨fuel, rfl⟩ : ∃ n, fuel = n + 1 := ⟨fuel - 1, by omega⟩
    rw [items?_succ (h v List.mem_cons_self) done blank (by omega)
      (ends_close l level (.inl rfl) _ rest)]
    simp only [skipBlanks_close_nil l level ']' rfl]
    simp
  | cons w items ih =>
    rw [List.map_cons] at enough ⊢
    have step := length_close_cons l level ']' (write l (level + 1) w)
      (items.map (write l (level + 1)))
    obtain ⟨fuel, rfl⟩ : ∃ n, fuel = n + 1 := ⟨fuel - 1, by omega⟩
    rw [items?_succ (h v List.mem_cons_self) done blank (by omega)
      (ends_close l level (.inl rfl) _ rest)]
    simp only [skipBlanks_close_cons]
    rw [ih (fun u hu => h u (List.mem_cons_of_mem _ hu)) (v :: done) (l.gap_blank _) (by omega)]
    simp

/-- One step of reading an object. -/
theorem members?_succ {m : String × Json} (h : ReadsBack l level m.2) {fuel : Nat}
    (done : List (String × Json)) {before rest : List Char} (blank : Blank before)
    (enough : (writeMember l level m).length ≤ fuel) (ends : Ends rest) :
    members? (fuel + 1) done (before ++ (writeMember l level m ++ rest)) =
      match skipBlanks rest with
      | ',' :: rest => members? fuel (m :: done) rest
      | '\x7d' :: rest => some ((m :: done).reverse, rest)
      | _ => none := by
  obtain ⟨k, v⟩ := m
  have short : (write l level v).length ≤ fuel := by
    simp only [writeMember, List.length_append] at enough
    omega
  obtain ⟨cs, quoted, read⟩ := stringBody?_quote k (':' :: l.space ++ write l level v ++ rest)
  have start : skipBlanks (before ++ (writeMember l level (k, v) ++ rest)) = '"' :: cs := by
    rw [skipBlanks_append blank, writeMember]
    dsimp only
    simp only [List.append_assoc] at quoted ⊢
    rw [quoted]
    exact skipBlanks_cons rfl cs
  have colon : skipBlanks (':' :: l.space ++ write l level v ++ rest) =
      ':' :: (l.space ++ (write l level v ++ rest)) := by
    rw [List.append_assoc, List.cons_append]
    exact skipBlanks_cons rfl _
  have value := h fuel l.space rest l.space_blank short ends
  rw [members?]
  simp only [start, read, colon]
  rewrite [value]
  rfl

theorem members?_members {m : String × Json} {members : List (String × Json)}
    (h : ∀ w ∈ m :: members, ReadsBack l (level + 1) w.2) {fuel : Nat}
    (done : List (String × Json)) {before : List Char} (blank : Blank before) (rest : List Char)
    (enough : (writeMember l (level + 1) m).length +
      (l.close level '\x7d' (members.map (writeMember l (level + 1)))).length ≤ fuel) :
    members? fuel done (before ++ (writeMember l (level + 1) m ++
      (l.close level '\x7d' (members.map (writeMember l (level + 1))) ++ rest))) =
      some (done.reverse ++ m :: members, rest) := by
  induction members generalizing m fuel done before with
  | nil =>
    rw [List.map_nil] at enough ⊢
    have := length_close_pos l level '\x7d' []
    obtain ⟨fuel, rfl⟩ : ∃ n, fuel = n + 1 := ⟨fuel - 1, by omega⟩
    rw [members?_succ (h m List.mem_cons_self) done blank (by omega)
      (ends_close l level (.inr rfl) _ rest)]
    simp only [skipBlanks_close_nil l level '\x7d' rfl]
    simp
  | cons w members ih =>
    rw [List.map_cons] at enough ⊢
    have step := length_close_cons l level '\x7d' (writeMember l (level + 1) w)
      (members.map (writeMember l (level + 1)))
    obtain ⟨fuel, rfl⟩ : ∃ n, fuel = n + 1 := ⟨fuel - 1, by omega⟩
    rw [members?_succ (h m List.mem_cons_self) done blank (by omega)
      (ends_close l level (.inr rfl) _ rest)]
    simp only [skipBlanks_close_cons]
    rw [ih (fun u hu => h u (List.mem_cons_of_mem _ hu)) (m :: done) (l.gap_blank _) (by omega)]
    simp

/-! ### Values -/

theorem value?_number {c : Char} {cs text : List Char} (start : c = '-' ∨ c.isDigit = true)
    (h : skipBlanks text = c :: cs) (fuel : Nat) :
    value? (fuel + 1) text = (number? (c :: cs)).map fun p => (.number p.1, p.2) := by
  rw [value?, h]
  split
  -- what other values start with is neither a minus sign nor a digit
  iterate 6
    next other =>
      obtain ⟨rfl, -⟩ := List.cons.inj other
      exact absurd start (by decide)
  · rfl

theorem value?_array {text rest more : List Char} (h : skipBlanks text = '[' :: rest)
    (inside : skipBlanks rest = more) (filled : more.head? ≠ some ']') (fuel : Nat) :
    value? (fuel + 1) text = (items? fuel [] more).map fun p => (.array p.1, p.2) := by
  rw [value?]
  simp only [h, inside]
  split
  · simp at filled
  · rfl

theorem value?_object {text rest more : List Char} (h : skipBlanks text = '\x7b' :: rest)
    (inside : skipBlanks rest = more) (filled : more.head? ≠ some '\x7d') (fuel : Nat) :
    value? (fuel + 1) text = (members? fuel [] more).map fun p => (.object p.1, p.2) := by
  rw [value?]
  simp only [h, inside]
  split
  · simp at filled
  · rfl

/-- A value that one step reads. -/
theorem readsBack_of_step {v : Json} (numbered : v.WellNumbered)
    (step : ∀ (fuel : Nat) (before rest : List Char), Blank before → Ends rest →
      value? (fuel + 1) (before ++ (write l level v ++ rest)) = some (v, rest)) :
    ReadsBack l level v := by
  intro fuel before rest blank enough ends
  obtain ⟨c, cs, text, -⟩ := head_write l level numbered
  obtain ⟨fuel, rfl⟩ : ∃ n, fuel = n + 1 := by
    rw [text, List.length_cons] at enough
    exact ⟨fuel - 1, by omega⟩
  exact step fuel before rest blank ends

theorem readsBack_number {text : String} (h : IsNumber text) : ReadsBack l level (number text) := by
  refine readsBack_of_step (.number h) fun fuel before rest blank ends => ?_
  have read := number?_append h ends
  obtain ⟨c, cs, chars, start⟩ := h.head
  rw [chars, List.cons_append] at read
  have first :
      skipBlanks (before ++ (write l level (number text) ++ rest)) = c :: (cs ++ rest) := by
    rw [skipBlanks_append blank, write, chars, List.cons_append]
    exact skipBlanks_cons (isBlank_of_start start) _
  rw [value?_number start first, read]
  rfl

theorem readsBack_string (text : String) : ReadsBack l level (string text) := by
  refine readsBack_of_step (.string text) fun fuel before rest blank ends => ?_
  obtain ⟨cs, quoted, read⟩ := stringBody?_quote text rest
  have first : skipBlanks (before ++ (write l level (string text) ++ rest)) = '"' :: cs := by
    rw [skipBlanks_append blank, write, quoted]
    exact skipBlanks_cons rfl cs
  rw [value?]
  simp only [first, read]
  rfl

section

variable {before : List Char} (blank : Blank before)

include blank

/-- What an opening bracket is followed by. -/
theorem skipBlanks_enclose {opening : Char} (h : isBlank opening = false) (closing : Char)
    (t : List Char) (texts : List (List Char)) (rest : List Char) :
    skipBlanks (before ++ (l.enclose level opening closing (t :: texts) ++ rest)) =
      opening :: (l.gap (level + 1) ++ (t ++ (l.close level closing texts ++ rest))) := by
  rw [skipBlanks_append blank]
  simp only [Layout.enclose, List.cons_append, List.append_assoc]
  exact skipBlanks_cons h _

theorem skipBlanks_write {v : Json} (h : v.WellNumbered) (rest : List Char) :
    skipBlanks (before ++ (write l level v ++ rest)) = write l level v ++ rest ∧
      (write l level v ++ rest).head? ≠ some ']' := by
  obtain ⟨c, cs, text, notBlank, notClosing⟩ := head_write l level h
  rw [skipBlanks_append blank, text, List.cons_append]
  exact ⟨skipBlanks_cons notBlank _, by simpa using notClosing⟩

theorem skipBlanks_writeMember (m : String × Json) (rest : List Char) :
    skipBlanks (before ++ (writeMember l level m ++ rest)) = writeMember l level m ++ rest ∧
      (writeMember l level m ++ rest).head? ≠ some '\x7d' := by
  obtain ⟨cs, quoted, -⟩ := stringBody?_quote m.1 (':' :: l.space ++ write l level m.2 ++ rest)
  have text : writeMember l level m ++ rest = '"' :: cs := by
    rw [← quoted, writeMember]
    simp only [List.append_assoc]
  rw [skipBlanks_append blank, text]
  exact ⟨skipBlanks_cons rfl cs, by simp⟩

end

theorem blank_nil : Blank [] := fun _ h => absurd h List.not_mem_nil

/-- Opening and closing brackets are more than the items between them. -/
theorem length_enclose (l : Layout) (level : Nat) (opening closing : Char) (t : List Char)
    (texts : List (List Char)) :
    t.length + (l.close level closing texts).length <
      (l.enclose level opening closing (t :: texts)).length := by
  simp only [Layout.enclose, List.length_append, List.length_cons]
  omega

theorem readsBack_array {items : List Json} (numbered : ∀ v ∈ items, WellNumbered v)
    (h : ∀ v ∈ items, ReadsBack l (level + 1) v) : ReadsBack l level (array items) := by
  cases items with
  | nil =>
    refine readsBack_of_step (.array numbered) fun fuel before rest blank _ => ?_
    rw [value?, skipBlanks_append blank]
    rfl
  | cons v items =>
    intro fuel before rest blank enough ends
    rw [write, writeItems_eq, List.map_cons] at enough ⊢
    have longer := length_enclose l level '[' ']' (write l (level + 1) v)
      (items.map (write l (level + 1)))
    obtain ⟨fuel, rfl⟩ : ∃ n, fuel = n + 1 := ⟨fuel - 1, by omega⟩
    obtain ⟨inside, filled⟩ := skipBlanks_write (l.gap_blank (level + 1))
      (numbered v List.mem_cons_self) (l.close level ']' (items.map (write l (level + 1))) ++ rest)
    have left := Nat.le_of_lt_succ (Nat.lt_of_lt_of_le longer enough)
    have items := items?_items h [] blank_nil rest left
    rw [List.nil_append] at items
    rw [value?_array (skipBlanks_enclose blank rfl ']' _ _ rest) inside filled, items]
    rfl

theorem readsBack_object {members : List (String × Json)}
    (numbered : ∀ m ∈ members, WellNumbered m.2)
    (h : ∀ m ∈ members, ReadsBack l (level + 1) m.2) : ReadsBack l level (object members) := by
  cases members with
  | nil =>
    refine readsBack_of_step (.object numbered) fun fuel before rest blank _ => ?_
    rw [value?, skipBlanks_append blank]
    rfl
  | cons m members =>
    intro fuel before rest blank enough ends
    rw [write, writeMembers_eq, List.map_cons] at enough ⊢
    have longer := length_enclose l level '\x7b' '\x7d' (writeMember l (level + 1) m)
      (members.map (writeMember l (level + 1)))
    obtain ⟨fuel, rfl⟩ : ∃ n, fuel = n + 1 := ⟨fuel - 1, by omega⟩
    obtain ⟨inside, filled⟩ := skipBlanks_writeMember (l.gap_blank (level + 1)) m
      (l.close level '\x7d' (members.map (writeMember l (level + 1))) ++ rest)
    have left := Nat.le_of_lt_succ (Nat.lt_of_lt_of_le longer enough)
    have members := members?_members h [] blank_nil rest left
    rw [List.nil_append] at members
    rw [value?_object (skipBlanks_enclose blank rfl '\x7d' _ _ rest) inside filled, members]
    rfl

/-- Every value whose numbers are numbers is read back, in every layout. -/
theorem readsBack (l : Layout) {v : Json} (h : v.WellNumbered) (level : Nat) :
    ReadsBack l level v := by
  induction h generalizing level with
  | null =>
    refine readsBack_of_step .null fun fuel before rest blank _ => ?_
    rw [value?, skipBlanks_append blank]
    rfl
  | bool b =>
    refine readsBack_of_step (.bool b) fun fuel before rest blank _ => ?_
    rw [value?, skipBlanks_append blank]
    cases b <;> rfl
  | number isNumber => exact readsBack_number isNumber
  | string text => exact readsBack_string text
  | array numbered ih => exact readsBack_array numbered fun v hv => ih v hv (level + 1)
  | object numbered ih => exact readsBack_object numbered fun m hm => ih m hm (level + 1)

theorem parse?_of_write {l : Layout} {v : Json} (h : v.WellNumbered) {text : String}
    (written : text.toList = write l 0 v) : parse? text = some v := by
  have value := readsBack l h 0 (text.toList.length + 1) [] [] blank_nil (by rw [written]; omega)
    (fun _ hc => absurd hc (by simp))
  rw [List.nil_append, List.append_nil, ← written] at value
  rw [parse?, value]
  rfl

/-- The compact form reads as the value it was made from. -/
theorem parse?_compact {v : Json} (h : v.WellNumbered) : parse? v.compact = some v :=
  parse?_of_write h (toList_compact 0 v)

/-- The pretty form reads as the value it was made from. -/
theorem parse?_pretty {v : Json} (h : v.WellNumbered) : parse? v.pretty = some v :=
  parse?_of_write h (toList_prettyAt 0 v)

end CodeAtlas.Json
