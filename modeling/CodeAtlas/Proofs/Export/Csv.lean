import CodeAtlas.Export.Csv

/-!
# The format of tables

Which texts are tables and what they hold is said without a reader or a writer: a table is one
record after the other, each ended, a record is its fields with commas between them, and a field is
bare or in quotes (`TableForm`, `RecordForm`, `FieldForm`).

* `tableForm_write`: every table whose records have fields is written in this format, whatever the
  texts of its fields are.
* `read?`: a reader of tables.
* `read?_of_tableForm`, `tableForm_of_read?`: the reader reads the texts of this format, and no
  others. A field is read up to what ends it, a comma or the end of its record, and the reader goes
  on behind that: there is a step for one field, one for a record and one for a table.
* `read?_write`, `write_readable`: what was written is read back, and no two tables have one text.
-/

namespace CodeAtlas.Csv

/-! ## The format -/

/-- What stands between quotes for some characters: a quote is there twice. -/
inductive QuotedForm : List Char → List Char → Prop
  | nil : QuotedForm [] []
  | quote {text cs : List Char} : QuotedForm text cs → QuotedForm ('"' :: '"' :: text) ('"' :: cs)
  | other {c : Char} {text cs : List Char} :
      c ≠ '"' → QuotedForm text cs → QuotedForm (c :: text) (c :: cs)

/-- The texts of a field. -/
inductive FieldForm : List Char → String → Prop
  | bare {cs : List Char} : (∀ c ∈ cs, isSpecial c = false) → FieldForm cs (String.ofList cs)
  | quoted {text cs : List Char} :
      QuotedForm text cs → FieldForm ('"' :: text ++ ['"']) (String.ofList cs)

/-- The texts of a record. -/
inductive RecordForm : List Char → List String → Prop
  | last {text : List Char} {field : String} :
      FieldForm text field → RecordForm (text ++ ['\r', '\n']) [field]
  | cons {text rest : List Char} {field : String} {fields : List String} :
      FieldForm text field → RecordForm rest fields →
      RecordForm (text ++ ',' :: rest) (field :: fields)

/-- The texts of a table. -/
inductive TableForm : List Char → List (List String) → Prop
  | nil : TableForm [] []
  | cons {text rest : List Char} {fields : List String} {records : List (List String)} :
      RecordForm text fields → TableForm rest records →
      TableForm (text ++ rest) (fields :: records)

/-- Reads every text of the format as what it holds. Other texts may be read or refused. -/
def IsReader (reader : String → Option (List (List String))) : Prop :=
  ∀ text records, TableForm text.toList records → reader text = some records

/-! ## Writing -/

theorem quotedForm_doubleQuotes (cs : List Char) : QuotedForm (doubleQuotes cs) cs := by
  induction cs with
  | nil => exact .nil
  | cons c cs ih =>
    rw [doubleQuotes, List.flatMap_cons]
    split
    · next quote =>
      subst quote
      exact .quote ih
    · next other => exact .other other ih

theorem fieldForm_escapeField (field : String) : FieldForm (escapeField field).toList field := by
  unfold escapeField
  split
  · have written := FieldForm.quoted (quotedForm_doubleQuotes field.toList)
    rw [String.ofList_toList] at written
    rw [String.toList_ofList]
    exact written
  · next plain =>
    have plain : ∀ c ∈ field.toList, isSpecial c = false := by simpa using plain
    have written := FieldForm.bare plain
    rwa [String.ofList_toList] at written

theorem toList_writeRecord_singleton (field : String) :
    (writeRecord [field]).toList = (escapeField field).toList ++ ['\r', '\n'] := by
  simp [writeRecord, String.toList_append]

theorem toList_writeRecord_cons (field next : String) (fields : List String) :
    (writeRecord (field :: next :: fields)).toList =
      (escapeField field).toList ++ ',' :: (writeRecord (next :: fields)).toList := by
  simp [writeRecord, String.toList_append, String.intercalate_cons_cons]

theorem recordForm_writeRecord {fields : List String} (nonempty : fields ≠ []) :
    RecordForm (writeRecord fields).toList fields := by
  induction fields with
  | nil => contradiction
  | cons field fields ih =>
    cases fields with
    | nil =>
      rw [toList_writeRecord_singleton]
      exact .last (fieldForm_escapeField field)
    | cons next fields =>
      rw [toList_writeRecord_cons]
      exact .cons (fieldForm_escapeField field) (ih (List.cons_ne_nil next fields))

theorem tableForm_write {records : List (List String)} (h : ∀ r ∈ records, r ≠ []) :
    TableForm (write records).toList records := by
  induction records with
  | nil => exact .nil
  | cons fields records ih =>
    have text : (write (fields :: records)).toList =
        (writeRecord fields).toList ++ (write records).toList := by
      simp [write, String.toList_join]
    rw [text]
    exact .cons (recordForm_writeRecord (h fields List.mem_cons_self))
      (ih fun r hr => h r (List.mem_cons_of_mem _ hr))

/-! ## A reader -/

/-- Reads a quoted field behind its opening quote, given the characters so far, the last first. -/
def quoted? (done : List Char) : List Char → Option (String × List Char)
  | [] => none
  | '"' :: '"' :: rest => quoted? ('"' :: done) rest
  | '"' :: rest => some (String.ofList done.reverse, rest)
  | c :: rest => quoted? (c :: done) rest

/-- Reads a field at the start of a text. -/
def field? : List Char → Option (String × List Char)
  | '"' :: rest => quoted? [] rest
  | cs => some (String.ofList (cs.takeWhile (!isSpecial ·)), cs.dropWhile (!isSpecial ·))

/-- Reads records, given the fields of the current one and the records so far, both backwards. -/
def records? : Nat → List String → List (List String) → List Char → Option (List (List String))
  | 0, _, _, _ => none
  | fuel + 1, fields, records, cs =>
    match field? cs with
    | none => none
    | some (f, ',' :: rest) => records? fuel (f :: fields) records rest
    | some (f, ['\r', '\n']) => some ((f :: fields).reverse :: records).reverse
    | some (f, '\r' :: '\n' :: rest) => records? fuel [] ((f :: fields).reverse :: records) rest
    | some _ => none

/-- Reads a table in which every record is ended. -/
def read? (text : String) : Option (List (List String)) :=
  match text.toList with
  | [] => some []
  | cs => records? (cs.length + 1) [] [] cs

/-! ## Reading fields -/

theorem quoted?_of_quotedForm {text cs : List Char} (h : QuotedForm text cs) (done : List Char)
    {rest : List Char} (ends : rest.head? ≠ some '"') :
    quoted? done (text ++ '"' :: rest) = some (String.ofList (done.reverse ++ cs), rest) := by
  induction h generalizing done with
  | nil =>
    cases rest with
    | nil => simp [quoted?]
    | cons c rest =>
      have ne : c ≠ '"' := by simpa using ends
      simp [quoted?, ne]
  | quote _ ih =>
    rw [List.cons_append, List.cons_append, quoted?, ih, List.reverse_cons, List.append_assoc]
    rfl
  | other ne _ ih =>
    rw [List.cons_append, quoted?.eq_4 done _ _ (by simp [ne]) (by simp [ne]), ih,
      List.reverse_cons, List.append_assoc]
    rfl

theorem quotedForm_of_quoted? {done input rest : List Char} {field : String}
    (h : quoted? done input = some (field, rest)) :
    ∃ text cs, input = text ++ '"' :: rest ∧ QuotedForm text cs ∧
      field = String.ofList (done.reverse ++ cs) := by
  fun_induction quoted? done input with
  | case1 => contradiction
  | case2 done input ih =>
    obtain ⟨text, cs, rfl, form, rfl⟩ := ih h
    exact ⟨'"' :: '"' :: text, '"' :: cs, rfl, .quote form, by simp⟩
  | case3 done input _ =>
    obtain ⟨rfl, rfl⟩ := Prod.mk.inj (Option.some.inj h)
    exact ⟨[], [], rfl, .nil, by simp⟩
  | case4 done c input _ single ih =>
    obtain ⟨text, cs, rfl, form, rfl⟩ := ih h
    exact ⟨c :: text, c :: cs, rfl, .other single form, by simp⟩

/-- What may stand behind a field. -/
def Ends (rest : List Char) : Prop := rest.head? = some ',' ∨ rest.head? = some '\r'

theorem head?_ne_quote_of_ends {rest : List Char} (h : Ends rest) : rest.head? ≠ some '"' := by
  rcases h with h | h <;> simp [h]

theorem field?_of_head?_ne {cs : List Char} (h : cs.head? ≠ some '"') :
    field? cs =
      some (String.ofList (cs.takeWhile (!isSpecial ·)), cs.dropWhile (!isSpecial ·)) := by
  cases cs with
  | nil => rfl
  | cons c cs =>
    have ne : c ≠ '"' := by simpa using h
    simp [field?, ne]

theorem field?_of_plain {cs rest : List Char} (plain : ∀ c ∈ cs, isSpecial c = false)
    (h : Ends rest) : field? (cs ++ rest) = some (String.ofList cs, rest) := by
  have stops : rest.takeWhile (!isSpecial ·) = [] ∧ rest.dropWhile (!isSpecial ·) = rest := by
    cases rest with
    | nil => exact ⟨rfl, rfl⟩
    | cons c rest =>
      have special : isSpecial c = true := by
        rcases h with h | h <;> obtain rfl := Option.some.inj h <;> rfl
      simp [special]
  have noQuote : (cs ++ rest).head? ≠ some '"' := by
    cases cs with
    | nil => exact head?_ne_quote_of_ends h
    | cons c cs =>
      intro quote
      obtain rfl := Option.some.inj quote
      exact absurd (plain '"' List.mem_cons_self) (by decide)
  have all : ∀ c ∈ cs, (!isSpecial c) = true := fun c hc => by simp [plain c hc]
  rw [field?_of_head?_ne noQuote, List.takeWhile_append_of_pos all,
    List.dropWhile_append_of_pos all, stops.1, stops.2, List.append_nil]

/-- A field is read up to what ends it. -/
theorem field?_of_fieldForm {text rest : List Char} {field : String} (h : FieldForm text field)
    (ends : Ends rest) : field? (text ++ rest) = some (field, rest) := by
  cases h with
  | bare plain => exact field?_of_plain plain ends
  | quoted form =>
    have read := quoted?_of_quotedForm form [] (head?_ne_quote_of_ends ends)
    simpa [field?] using read

theorem fieldForm_of_field? {input rest : List Char} {field : String}
    (h : field? input = some (field, rest)) :
    ∃ text, input = text ++ rest ∧ FieldForm text field := by
  by_cases quote : input.head? = some '"'
  · obtain ⟨input, rfl⟩ := List.head?_eq_some_iff.mp quote
    obtain ⟨text, cs, rfl, form, rfl⟩ := quotedForm_of_quoted? h
    exact ⟨'"' :: text ++ ['"'], by simp, .quoted form⟩
  · rw [field?_of_head?_ne quote] at h
    obtain ⟨rfl, rfl⟩ := Prod.mk.inj (Option.some.inj h)
    refine ⟨_, List.takeWhile_append_dropWhile.symm, .bare fun c hc => ?_⟩
    have passed := List.all_eq_true.mp List.all_takeWhile c hc
    simpa using passed

/-! ## Reading records and tables -/

/-- What the reader does behind a record: it stops at the end of the text. -/
def readOn (fuel : Nat) (records : List (List String)) (rest : List Char) :
    Option (List (List String)) :=
  if rest = [] then some records.reverse else records? fuel [] records rest

/-! The reader takes one step for each field. -/

theorem records?_of_comma {fuel : Nat} {input rest : List Char} {field : String}
    (h : field? input = some (field, ',' :: rest)) (before : List String)
    (records : List (List String)) :
    records? (fuel + 1) before records input = records? fuel (field :: before) records rest := by
  simp [records?, h]

theorem records?_of_end {fuel : Nat} {input rest : List Char} {field : String}
    (h : field? input = some (field, '\r' :: '\n' :: rest)) (before : List String)
    (records : List (List String)) :
    records? (fuel + 1) before records input =
      readOn fuel ((field :: before).reverse :: records) rest := by
  cases rest <;> simp [records?, h, readOn]

/-- A record is read up to its end. Each field takes at least one character, the one that ends it,
so that there is always a step left. -/
theorem records?_of_recordForm {text : List Char} {fields : List String}
    (h : RecordForm text fields) {fuel : Nat} (before : List String)
    (records : List (List String)) (rest : List Char)
    (enough : (text ++ rest).length < fuel) :
    ∃ left, rest.length < left ∧
      records? fuel before records (text ++ rest) =
        readOn left ((before.reverse ++ fields) :: records) rest := by
  obtain ⟨fuel, rfl⟩ : ∃ n, fuel = n + 1 := ⟨fuel - 1, by omega⟩
  induction h generalizing before fuel with
  | @last text field form =>
    rw [List.append_assoc] at enough ⊢
    have shorter : rest.length < fuel := by
      simp only [List.length_append, List.length_cons] at enough
      omega
    refine ⟨fuel, shorter, ?_⟩
    have read : field? (text ++ (['\r', '\n'] ++ rest)) = some (field, '\r' :: '\n' :: rest) :=
      field?_of_fieldForm form (.inr rfl)
    rw [records?_of_end read, List.reverse_cons]
  | @cons text tail field fields form _ ih =>
    rw [List.append_assoc, List.cons_append] at enough ⊢
    have shorter : (tail ++ rest).length < fuel := by
      simp only [List.length_append, List.length_cons] at enough ⊢
      omega
    obtain ⟨fuel, rfl⟩ : ∃ n, fuel = n + 1 := ⟨fuel - 1, by omega⟩
    obtain ⟨left, remaining, read⟩ := ih (field :: before) fuel shorter
    refine ⟨left, remaining, ?_⟩
    rw [records?_of_comma (field?_of_fieldForm form (.inl rfl)), read, List.reverse_cons,
      List.append_assoc]
    rfl

theorem ne_nil_of_recordForm {text : List Char} {fields : List String}
    (h : RecordForm text fields) : text ≠ [] := by
  cases h <;> simp

theorem readOn_of_tableForm {text : List Char} {records : List (List String)}
    (h : TableForm text records) {fuel : Nat} (before : List (List String))
    (enough : text.length < fuel) :
    readOn fuel before text = some (before.reverse ++ records) := by
  induction h generalizing before fuel with
  | nil => simp [readOn]
  | @cons text rest fields records form _ ih =>
    obtain ⟨left, remaining, read⟩ := records?_of_recordForm form [] before rest enough
    have more : text ++ rest ≠ [] :=
      List.append_ne_nil_of_left_ne_nil (ne_nil_of_recordForm form) rest
    rw [readOn, if_neg more, read, ih _ remaining]
    simp

/-- What the reader returns is told by the text that it went through. -/
theorem tableForm_of_records? {fuel : Nat} {before : List String} {records : List (List String)}
    {input : List Char} {found : List (List String)}
    (h : records? fuel before records input = some found) :
    ∃ text rest fields more, input = text ++ rest ∧ RecordForm text fields ∧
      TableForm rest more ∧ found = records.reverse ++ (before.reverse ++ fields) :: more := by
  fun_induction records? fuel before records input with
  | case1 => contradiction
  | case2 => contradiction
  -- behind a comma the record goes on, behind its end there is nothing or a table of some records
  | case3 fuel before records input field rest read ih =>
    obtain ⟨first, rfl, fieldForm⟩ := fieldForm_of_field? read
    obtain ⟨text, rest, fields, more, rfl, form, table, rfl⟩ := ih h
    exact ⟨first ++ ',' :: text, rest, field :: fields, more, by simp, .cons fieldForm form, table,
      by simp⟩
  | case4 fuel before records input field read =>
    obtain ⟨first, rfl, fieldForm⟩ := fieldForm_of_field? read
    obtain rfl := Option.some.inj h
    exact ⟨_, [], [field], [], by simp, .last fieldForm, .nil, by simp⟩
  | case5 fuel before records input field rest _ read ih =>
    obtain ⟨first, rfl, fieldForm⟩ := fieldForm_of_field? read
    obtain ⟨text, rest, fields, more, rfl, form, table, rfl⟩ := ih h
    exact ⟨first ++ ['\r', '\n'], text ++ rest, [field], fields :: more, by simp, .last fieldForm,
      .cons form table, by simp⟩
  | case6 => contradiction

theorem read?_eq_readOn (text : String) :
    read? text = readOn (text.toList.length + 1) [] text.toList := by
  unfold read? readOn
  cases text.toList <;> rfl

theorem read?_of_tableForm {text : String} {records : List (List String)}
    (h : TableForm text.toList records) : read? text = some records := by
  rw [read?_eq_readOn, readOn_of_tableForm h [] (Nat.lt_succ_self _), List.reverse_nil,
    List.nil_append]

theorem tableForm_of_read? {text : String} {records : List (List String)}
    (h : read? text = some records) : TableForm text.toList records := by
  rw [read?_eq_readOn, readOn] at h
  split at h
  · next empty =>
    obtain rfl := Option.some.inj h
    rw [empty]
    exact .nil
  · obtain ⟨first, rest, fields, more, split, form, table, rfl⟩ := tableForm_of_records? h
    rw [split]
    exact .cons form table

/-! ## Reading what was written -/

/-- Reading is the inverse of writing. -/
theorem read?_write {records : List (List String)} (h : ∀ r ∈ records, r ≠ []) :
    read? (write records) = some records :=
  read?_of_tableForm (tableForm_write h)

theorem eq_of_write_eq {records records' : List (List String)} (h : ∀ r ∈ records, r ≠ [])
    (h' : ∀ r ∈ records', r ≠ []) (same : write records' = write records) :
    records' = records := by
  have read := read?_write h'
  rw [same, read?_write h] at read
  exact (Option.some.inj read).symm

/-- Tables are written in the format, whose texts are what `read?` reads, so every reader of the
format gets back the table that was written, and no other table is written so. -/
theorem write_readable {records : List (List String)} (h : ∀ r ∈ records, r ≠ []) :
    read? (write records) = some records ∧
      (∀ text found, read? text = some found ↔ TableForm text.toList found) ∧
      (∀ reader, IsReader reader → reader (write records) = some records) ∧
      ∀ records', (∀ r ∈ records', r ≠ []) → write records' = write records → records' = records :=
  ⟨read?_write h, fun _ _ => ⟨tableForm_of_read?, read?_of_tableForm⟩,
    fun _ reads => reads _ _ (tableForm_write h), fun _ h' same => eq_of_write_eq h h' same⟩

/-- Fields with separators, quotes and all kinds of line breaks, and a record of one empty field. -/
theorem write_readable_awkward :
    let records := [["", "a,b", "\"q\"", "\r", "\n", "x\r\ny", ",\"\",\r\n"], [""], ["é", ""]]
    (∀ r ∈ records, r ≠ []) ∧
      write records =
        ",\"a,b\",\"\"\"q\"\"\",\"\r\",\"\n\",\"x\r\ny\",\",\"\"\"\",\r\n\"\r\n\r\né,\r\n" ∧
      read? (write records) = some records := by
  intro records
  have nonempty : ∀ r ∈ records, r ≠ [] := by decide
  exact ⟨nonempty, by decide +kernel, (write_readable nonempty).1⟩

end CodeAtlas.Csv
