import CodeAtlas.Extensions
import CodeAtlas.Proofs.Ascending
import CodeAtlas.Proofs.Text.Encoding

/-!
# Which files are read

Files are told apart by a table of extensions that is filled one by one, searched from the start and
emptied before it is filled anew. All that can be seen of it is a set of normal forms.

* `toList_register`: one extension after the other is put in its place.
* `withPython_eq_iff`: extensions that are put in place of others leave nothing of these.
* `language?_eq_python_iff`: the search finds an extension if there is one.
* `withPython_exact`: the set of normal forms decides everything.

A normal form is made by dropping white space at both ends, and then dots at the start
(`Extensions.IsNorm`). White space that comes to the start in this way stays, so a normal form need
not be its own normal form.

* `dropWhile_rdropWhile`: it does not matter which end is trimmed first.
* `trimChars_eq_iff`, `isNorm_iff`: what is trimmed and what a normal form is, told by the parts of
  a text.
* `normalForm_dot_eq_iff`, `normalForm_normalForm_eq_iff`: when another dot, and when another round,
  makes no difference.
* `language?_given_again`: which files are read when extensions are given once more.
-/

namespace CodeAtlas

theorem Text.endsWith_iff {s ending : String} :
    endsWith s ending = true ↔ ∃ stem, s = stem ++ ending := by
  rw [endsWith, List.isSuffixOf_iff_suffix]
  constructor
  · rintro ⟨stem, whole⟩
    refine ⟨String.ofList stem, ?_⟩
    rw [← String.toList_inj, String.toList_append, String.toList_ofList, whole]
  · rintro ⟨stem, rfl⟩
    rw [String.toList_append]
    exact List.suffix_append _ _

/-! ## Trimming -/

/-- The second text is the first one without the white space at its ends. -/
structure Text.IsTrim (cs inner : List Char) : Prop where
  around : ∃ before behind, cs = before ++ inner ++ behind ∧
    (∀ c ∈ before, isSpace c = true) ∧ ∀ c ∈ behind, isSpace c = true
  start : inner.head?.any isSpace = false
  ending : inner.getLast?.any isSpace = false

/-- The second text is the normal form of the first one: without the white space at both ends, and
then without all dots at the start. -/
def Extensions.IsNorm (extension norm : String) : Prop :=
  ∃ dots, Text.IsTrim extension.toList (dots ++ norm.toList) ∧ (∀ c ∈ dots, c = '.') ∧
    norm.toList.head? ≠ some '.'

namespace Extensions

namespace DetectionLemmas

open Text

section

variable {α : Type} (p q : α → Bool)

theorem rdropWhile_cons (a : α) (l : List α) :
    (a :: l).rdropWhile q =
      if (l.rdropWhile q).isEmpty && q a then [] else a :: l.rdropWhile q := by
  rw [List.rdropWhile, List.rdropWhile, List.reverse_cons, List.dropWhile_append,
    List.isEmpty_reverse]
  cases empty : (l.reverse.dropWhile q).isEmpty with
  | true =>
    rw [if_pos rfl, Bool.true_and, List.isEmpty_iff.mp empty, List.dropWhile_cons]
    split <;> rfl
  | false => simp

/-- What is dropped at one end does not depend on what is dropped at the other end. -/
theorem dropWhile_rdropWhile (l : List α) :
    (l.rdropWhile q).dropWhile p = (l.dropWhile p).rdropWhile q := by
  induction l with
  | nil => rfl
  | cons a l ih =>
    by_cases ha : p a = true
    · rw [List.dropWhile_cons_of_pos ha, ← ih, rdropWhile_cons]
      split
      · next gone =>
        rw [List.isEmpty_iff.mp (Bool.and_eq_true_iff.mp gone).1]
      · rw [List.dropWhile_cons_of_pos ha]
    · rw [List.dropWhile_cons_of_neg ha, rdropWhile_cons]
      split
      · rfl
      · rw [List.dropWhile_cons_of_neg ha]

theorem dropWhile_eq_iff {l rest : List α} :
    l.dropWhile p = rest ↔
      ∃ front, l = front ++ rest ∧ (∀ a ∈ front, p a = true) ∧ rest.head?.any p = false := by
  constructor
  · rintro rfl
    refine ⟨l.takeWhile p, List.takeWhile_append_dropWhile.symm,
      fun _ ha => List.mem_takeWhile_imp ha, ?_⟩
    induction l with
    | nil => rfl
    | cons a l ih =>
      rw [List.dropWhile_cons]
      split
      · exact ih
      · next stops => simpa using stops
  · rintro ⟨front, rfl, all, stops⟩
    induction front with
    | nil =>
      cases rest with
      | nil => rfl
      | cons a rest => exact List.dropWhile_cons_of_neg (by simpa using stops)
    | cons a front ih =>
      obtain ⟨first, others⟩ := List.forall_mem_cons.mp all
      rw [List.cons_append, List.dropWhile_cons_of_pos first, ih others]

theorem rdropWhile_eq_iff {l rest : List α} :
    l.rdropWhile p = rest ↔
      ∃ back, l = rest ++ back ∧ (∀ a ∈ back, p a = true) ∧ rest.getLast?.any p = false := by
  rw [List.rdropWhile, List.reverse_eq_iff, dropWhile_eq_iff, List.head?_reverse]
  constructor
  · rintro ⟨front, whole, all, stops⟩
    refine ⟨front.reverse, ?_, by simpa using all, stops⟩
    rw [← List.reverse_reverse l, whole, List.reverse_append, List.reverse_reverse]
  · rintro ⟨back, rfl, all, stops⟩
    exact ⟨back.reverse, List.reverse_append, by simpa using all, stops⟩

end

theorem trimChars_eq (cs : List Char) :
    trimChars cs = (cs.rdropWhile isSpace).dropWhile isSpace :=
  (dropWhile_rdropWhile isSpace isSpace cs).symm

theorem trimChars_eq_iff {cs inner : List Char} : trimChars cs = inner ↔ IsTrim cs inner := by
  have trimmed : trimChars cs = (cs.dropWhile isSpace).rdropWhile isSpace := rfl
  constructor
  · rintro rfl
    obtain ⟨behind, rest, last, ending⟩ := (rdropWhile_eq_iff isSpace).mp trimmed.symm
    obtain ⟨before, whole, first, -⟩ := (dropWhile_eq_iff isSpace).mp rest
    -- the start is seen when the other end is trimmed first
    obtain ⟨-, -, -, start⟩ := (dropWhile_eq_iff isSpace).mp (trimChars_eq cs).symm
    exact ⟨⟨before, behind, by rw [List.append_assoc, ← whole], first, last⟩, start, ending⟩
  · rintro ⟨⟨before, behind, rfl, first, last⟩, start, ending⟩
    rw [trimmed]
    cases inner with
    | nil =>
      have gone : (before ++ [] ++ behind).dropWhile isSpace = [] := by
        rw [List.dropWhile_eq_nil_iff, List.append_nil]
        intro c hc
        exact (List.mem_append.mp hc).elim (first c) (last c)
      rw [gone]
      rfl
    | cons c inner =>
      have rest : (before ++ c :: inner ++ behind).dropWhile isSpace = c :: inner ++ behind :=
        (dropWhile_eq_iff isSpace).mpr ⟨before, List.append_assoc .., first, start⟩
      rw [rest]
      exact (rdropWhile_eq_iff isSpace).mpr ⟨behind, rfl, last, ending⟩

theorem toList_normalForm (x : String) :
    (normalForm x).toList = (trimChars x.toList).dropWhile (· = '.') :=
  String.toList_ofList

theorem isNorm_iff {x norm : String} : IsNorm x norm ↔ normalForm x = norm := by
  have dotless : norm.toList.head? ≠ some '.' ↔ norm.toList.head?.any (· = '.') = false := by
    cases norm.toList.head? <;> simp
  unfold IsNorm
  rw [← String.toList_inj, toList_normalForm, dropWhile_eq_iff]
  simp only [← trimChars_eq_iff, dotless, decide_eq_true_eq]

end DetectionLemmas

open DetectionLemmas

/-- The normal forms of some extensions, without those that are dropped. -/
def normalForms (extensions : List String) : List String :=
  (extensions.map normalForm).filter (!·.isEmpty)

theorem mem_normalForms {extensions : List String} {x : String} :
    x ∈ normalForms extensions ↔ x ≠ "" ∧ ∃ y ∈ extensions, normalForm y = x := by
  rw [normalForms, List.mem_filter, List.mem_map, and_comm]
  simp

/-! ## Tables -/

variable {e e' : Extensions}

/-- There is one language only, so the extensions alone tell the table. -/
theorem eq_of_toList_eq (h : e.toList = e'.toList) : e = e' := by
  have only : ∀ a b : String × Language, a.1 = b.1 → a = b := by
    rintro ⟨x, ⟨⟩⟩ ⟨y, ⟨⟩⟩ rfl
    rfl
  obtain ⟨table⟩ := e
  obtain ⟨table'⟩ := e'
  exact congrArg Extensions.mk ((List.map_inj_right only).mp h)

theorem toList_add (language : Language) (e : Extensions) (extension : String) :
    (e.add language extension).toList =
      if (normalForm extension).isEmpty then e.toList
      else Ascending.insert (normalForm extension) e.toList := by
  rw [add]
  split
  · rfl
  · exact Ascending.map_fst_put _ language e.languages

theorem toList_register (e : Extensions) (language : Language) (extensions : List String) :
    (e.register language extensions).toList =
      (normalForms extensions).foldl (fun s x => Ascending.insert x s) e.toList := by
  induction extensions generalizing e with
  | nil => rfl
  | cons x xs ih =>
    rw [register, List.foldl_cons, ← register, ih, toList_add, normalForms, normalForms,
      List.map_cons, List.filter_cons]
    cases (normalForm x).isEmpty <;> rfl

theorem without_python (e : Extensions) : e.without .python = {} := by
  have none : e.languages.filter (·.2 ≠ .python) = [] := by
    rw [List.filter_eq_nil_iff]
    rintro ⟨x, ⟨⟩⟩ _
    simp
  rw [without, none]

theorem toList_withPython (e : Extensions) (extensions : List String) :
    (e.withPython extensions).toList = Ascending.ofList (normalForms extensions) := by
  rw [withPython, without_python, toList_register]
  rfl

theorem mem_toList_withPython {extensions : List String} {x : String} :
    x ∈ (e.withPython extensions).toList ↔ x ∈ normalForms extensions := by
  rw [toList_withPython, Ascending.mem_ofList]

/-- Two lists give the same table if and only if they have the same normal forms, whatever the
tables were before. -/
theorem withPython_eq_iff {extensions extensions' : List String} :
    e.withPython extensions = e'.withPython extensions' ↔
      ∀ x, x ∈ normalForms extensions ↔ x ∈ normalForms extensions' := by
  constructor
  · intro same x
    rw [← mem_toList_withPython (e := e), same, mem_toList_withPython]
  · intro same
    refine eq_of_toList_eq ?_
    rw [toList_withPython, toList_withPython]
    exact Ascending.ofList_eq_of_mem_iff same

/-! ## Detection -/

theorem language?_eq_python_iff {path : String} :
    e.language? path = some .python ↔ ∃ x ∈ e.toList, ∃ stem, path = stem ++ "." ++ x := by
  have found : e.language? path = some .python ↔ (e.language? path).isSome := by
    cases e.language? path with
    | none => simp
    | some language => cases language; simp
  rw [found, language?, Option.isSome_map, List.find?_isSome]
  simp only [toList, List.mem_map, Text.endsWith_iff, String.append_assoc]
  constructor
  · rintro ⟨a, ha, stem, whole⟩
    exact ⟨a.1, ⟨a, ha, rfl⟩, stem, whole⟩
  · rintro ⟨_, ⟨a, ha, rfl⟩, stem, whole⟩
    exact ⟨a, ha, stem, whole⟩

/-- The gate of the extensions is exact. Each extension has one normal form. Whatever extensions
there were, after others were put in their place a file is read as Python if and only if its path
ends with a dot and the normal form of one of these. They are told in ascending order of their
bytes, each once. Neither the order of the list nor repetitions matter, and nothing of an earlier
list is left. -/
theorem withPython_exact (e : Extensions) (extensions : List String) :
    (∀ x, ∃! norm, IsNorm x norm) ∧
    (∀ path, (e.withPython extensions).language? path = some .python ↔
      ∃ x ∈ extensions, ∃ norm, IsNorm x norm ∧ norm ≠ "" ∧ ∃ stem, path = stem ++ "." ++ norm) ∧
    ((e.withPython extensions).toList.Pairwise fun x y => Bytes.ofString x < Bytes.ofString y) ∧
    (∀ norm, norm ∈ (e.withPython extensions).toList ↔
      norm ≠ "" ∧ ∃ x ∈ extensions, IsNorm x norm) ∧
    (∀ extensions', (∀ norm, norm ≠ "" →
      ((∃ x ∈ extensions, IsNorm x norm) ↔ ∃ x ∈ extensions', IsNorm x norm)) →
        e.withPython extensions = e.withPython extensions') ∧
    ∀ earlier, (e.withPython earlier).withPython extensions = e.withPython extensions := by
  simp only [isNorm_iff]
  refine ⟨fun x => ⟨_, rfl, fun _ same => same.symm⟩, fun path => ?_, ?_, fun norm => ?_,
    fun extensions' same => ?_, fun earlier => ?_⟩
  · rw [language?_eq_python_iff]
    simp only [mem_toList_withPython, mem_normalForms]
    constructor
    · rintro ⟨norm, ⟨nonempty, x, hx, made⟩, ends⟩
      exact ⟨x, hx, norm, made, nonempty, ends⟩
    · rintro ⟨x, hx, norm, made, nonempty, ends⟩
      exact ⟨norm, ⟨nonempty, x, hx, made⟩, ends⟩
  · rw [toList_withPython]
    exact (Ascending.pairwise_ofList _).imp Bytes.ofString_lt_ofString.mpr
  · rw [mem_toList_withPython, mem_normalForms]
  · refine withPython_eq_iff.mpr fun norm => ?_
    rw [mem_normalForms, mem_normalForms]
    exact and_congr_right (same norm)
  · exact withPython_eq_iff.mpr fun _ => Iff.rfl

namespace DetectionLemmas

/-- A list with white space, dots, repetitions and nothing at all. -/
def untidy : List String := [" .pyi", "pyw", "\u3000 ", "..pyi\n", "tar.py", "."]

end DetectionLemmas

theorem withPython_exact_untidy :
    (∀ norm, norm ≠ "" → ((∃ x ∈ untidy, IsNorm x norm) ↔
      ∃ x ∈ ["tar.py", "pyw", "pyi"], IsNorm x norm)) ∧
      usual.withPython untidy = usual.withPython ["tar.py", "pyw", "pyi"] ∧
      (usual.withPython ["rpy"]).withPython untidy = usual.withPython untidy ∧
      "pyi" ∈ (usual.withPython untidy).toList ∧
      (usual.withPython untidy).language? "stub.pyi" = some .python ∧
      (usual.withPython untidy).language? "app.py" = none := by
  have given : untidy.map normalForm = ["pyi", "pyw", "", "pyi", "tar.py", ""] := by decide
  have tidy : ["tar.py", "pyw", "pyi"].map normalForm = ["tar.py", "pyw", "pyi"] := by decide
  have same : ∀ norm, norm ≠ "" → ((∃ x ∈ untidy, IsNorm x norm) ↔
      ∃ x ∈ ["tar.py", "pyw", "pyi"], IsNorm x norm) := by
    intro norm nonempty
    simp only [isNorm_iff]
    rw [← List.mem_map, ← List.mem_map, given, tidy]
    simp only [List.mem_cons, List.not_mem_nil, nonempty, false_or, or_false]
    tauto
  have pyi : IsNorm "..pyi\n" "pyi" := isNorm_iff.mpr (by decide)
  have pyi' : IsNorm " .pyi" "pyi" := isNorm_iff.mpr (by decide)
  obtain ⟨-, detected, -, members, equal, replaced⟩ := withPython_exact usual untidy
  exact ⟨same, equal _ same, replaced ["rpy"],
    (members "pyi").mpr ⟨by decide, "..pyi\n", by decide, pyi⟩,
    (detected "stub.pyi").mpr ⟨" .pyi", by decide, "pyi", pyi', by decide, "stub", by decide⟩,
    by decide +kernel⟩

/-! ## Dots and white space -/

/-- White space comes before something else. -/
def isIndented (extension : String) : Bool :=
  (extension.toList.rdropWhile Text.isSpace).head?.any Text.isSpace

namespace DetectionLemmas

open Text

theorem rdropWhile_normalForm (x : String) :
    (normalForm x).toList.rdropWhile isSpace = (normalForm x).toList := by
  have trimmed : (trimChars x.toList).rdropWhile isSpace = trimChars x.toList :=
    List.rdropWhile_idempotent isSpace (x.toList.dropWhile isSpace)
  rw [toList_normalForm, ← dropWhile_rdropWhile, trimmed]

/-- Dots are found behind white space only if there is no white space. -/
theorem dropDots_eq_iff (cs : List Char) :
    (cs.dropWhile isSpace).dropWhile (· = '.') = cs.dropWhile (· = '.') ↔
      cs.head?.any isSpace = false := by
  cases cs with
  | nil => simp
  | cons c rest =>
    by_cases space : isSpace c = true
    · have notDot : ¬ c = '.' := by
        rintro rfl
        exact absurd space (by decide)
      rw [List.dropWhile_cons_of_pos space, List.dropWhile_cons_of_neg (by simpa using notDot)]
      -- what is left behind the white space is shorter than what still has it
      refine iff_of_false (fun same => ?_) (by simp [space])
      have shorter : ((rest.dropWhile isSpace).dropWhile (· = '.')).length ≤ rest.length :=
        ((List.dropWhile_sublist _).trans (List.dropWhile_sublist _)).length_le
      rw [same, List.length_cons] at shorter
      omega
    · rw [List.dropWhile_cons_of_neg space]
      exact iff_of_true rfl (by simpa using space)

theorem toList_normalForm_dot (x : String) :
    (normalForm ("." ++ x)).toList = (x.toList.rdropWhile isSpace).dropWhile (· = '.') := by
  have chars : ("." ++ x).toList = '.' :: x.toList := by
    rw [String.toList_append]
    rfl
  have dot : isSpace '.' = false := by decide
  rw [toList_normalForm, chars, trimChars_eq, rdropWhile_cons, dot, Bool.and_false,
    if_neg (by simp), List.dropWhile_cons_of_neg (by simp [dot]), List.dropWhile_cons_of_pos rfl]

end DetectionLemmas

/-- A dot before an extension makes no difference, unless it hides white space. -/
theorem normalForm_dot_eq_iff (x : String) :
    normalForm ("." ++ x) = normalForm x ↔ isIndented x = false := by
  rw [← String.toList_inj, toList_normalForm_dot, toList_normalForm, trimChars_eq, eq_comm,
    dropDots_eq_iff, isIndented]

/-- A normal form is its own normal form, unless dots were hiding white space. -/
theorem normalForm_normalForm_eq_iff (x : String) :
    normalForm (normalForm x) = normalForm x ↔ isIndented (normalForm x) = false := by
  have noDots : (normalForm x).toList.dropWhile (· = '.') = (normalForm x).toList := by
    rw [toList_normalForm]
    exact List.dropWhile_idempotent _ _
  rw [← String.toList_inj, toList_normalForm (normalForm x), trimChars_eq, isIndented,
    rdropWhile_normalForm, ← dropDots_eq_iff, noDots]

/-! ### Lists that are given once more -/

theorem ofList_eq_iff {extensions extensions' : List String} :
    ofList extensions = ofList extensions' ↔
      ∀ x, x ∈ normalForms extensions ↔ x ∈ normalForms extensions' := withPython_eq_iff

theorem ofList_map_dot {extensions : List String} (h : ∀ x ∈ extensions, isIndented x = false) :
    ofList (extensions.map ("." ++ ·)) = ofList extensions := by
  have same : (extensions.map ("." ++ ·)).map normalForm = extensions.map normalForm := by
    rw [List.map_map]
    exact List.map_congr_left fun x hx => (normalForm_dot_eq_iff x).mpr (h x hx)
  exact ofList_eq_iff.mpr fun x => by rw [normalForms, normalForms, same]

theorem ofList_toList_ofList {extensions : List String}
    (h : ∀ x ∈ extensions, isIndented (normalForm x) = false) :
    ofList (ofList extensions).toList = ofList extensions := by
  have settled : ∀ y ∈ normalForms extensions, normalForm y = y := by
    intro y hy
    obtain ⟨-, x, hx, rfl⟩ := mem_normalForms.mp hy
    exact (normalForm_normalForm_eq_iff x).mpr (h x hx)
  refine ofList_eq_iff.mpr fun x => ?_
  rw [mem_normalForms]
  simp only [ofList, mem_toList_withPython]
  constructor
  · rintro ⟨-, y, hy, rfl⟩
    exact (settled y hy).symm ▸ hy
  · intro hx
    exact ⟨(mem_normalForms.mp hx).1, x, hx, settled x hx⟩

theorem language?_singleton_iff {x path : String} :
    (ofList [x]).language? path = some .python ↔
      normalForm x ≠ "" ∧ ∃ stem, path = stem ++ "." ++ normalForm x := by
  rw [language?_eq_python_iff]
  simp [ofList, mem_toList_withPython, mem_normalForms]

/-- A single extension cannot stand for another one: of two, each would have to be an ending of the
other one. -/
theorem normalForm_eq_of_language? {x y : String}
    (h : ∀ path, (ofList [x]).language? path = (ofList [y]).language? path) :
    normalForm x = normalForm y := by
  have detects {x y : String}
      (h : ∀ path, (ofList [x]).language? path = (ofList [y]).language? path)
      (nonempty : normalForm x ≠ "") :
      normalForm y ≠ "" ∧ ∃ stem, "." ++ normalForm x = stem ++ "." ++ normalForm y := by
    refine language?_singleton_iff.mp ?_
    rw [← h]
    exact language?_singleton_iff.mpr ⟨nonempty, "", by rw [String.empty_append]⟩
  by_cases nonempty : normalForm x = ""
  · by_contra other
    exact (detects (fun path => (h path).symm) (nonempty ▸ Ne.symm other)).1 nonempty
  · obtain ⟨nonempty', stem, whole⟩ := detects h nonempty
    obtain ⟨-, stem', whole'⟩ := detects (fun path => (h path).symm) nonempty'
    -- each is an ending of the other one, so nothing comes before it
    have length := congrArg String.length whole
    have length' := congrArg String.length whole'
    simp only [String.length_append] at length length'
    have empty : stem = "" := by
      rw [← String.length_eq_zero_iff]
      omega
    rw [empty, String.empty_append] at whole
    exact String.append_right_inj "." |>.mp whole

/-- What becomes of extensions that are given once more, with dots before them or as they were told.
Files are read as before if no white space comes before the rest of an extension, or before the rest
of a normal form. For a single extension this is needed as well. -/
theorem language?_given_again (extensions : List String) :
    ((∀ x ∈ extensions, isIndented x = false) → ∀ path,
      (ofList (extensions.map ("." ++ ·))).language? path = (ofList extensions).language? path) ∧
    ((∀ x ∈ extensions, isIndented (normalForm x) = false) → ∀ path,
      (ofList (ofList extensions).toList).language? path = (ofList extensions).language? path) ∧
    (∀ x, (∀ path, (ofList ["." ++ x]).language? path = (ofList [x]).language? path) ↔
      isIndented x = false) ∧
    ∀ x, (∀ path, (ofList (ofList [x]).toList).language? path = (ofList [x]).language? path) ↔
      isIndented (normalForm x) = false := by
  refine ⟨fun h path => by rw [ofList_map_dot h], fun h path => by rw [ofList_toList_ofList h],
    fun x => ⟨fun h => ?_, fun h path => ?_⟩, fun x => ⟨fun h => ?_, fun h path => ?_⟩⟩
  · exact (normalForm_dot_eq_iff x).mp (normalForm_eq_of_language? h)
  · have plain : ∀ y ∈ [x], isIndented y = false := by simpa using h
    rw [← ofList_map_dot plain]
    rfl
  · by_cases nonempty : normalForm x = ""
    · rw [nonempty]
      rfl
    · have told : (ofList [x]).toList = [normalForm x] := by
        rw [ofList, toList_withPython, normalForms, List.map_singleton,
          List.filter_cons_of_pos (by simpa using nonempty)]
        rfl
      rw [told] at h
      exact (normalForm_normalForm_eq_iff x).mp (normalForm_eq_of_language? h)
  · rw [ofList_toList_ofList (by simpa using h)]

theorem language?_given_again_untidy :
    (∀ x ∈ ["..pyi\n", "tar.py", "\t"], isIndented x = false) ∧
      (∀ x ∈ untidy, isIndented (normalForm x) = false) ∧
      (ofList (["..pyi\n", "tar.py", "\t"].map ("." ++ ·))).language? "stub.pyi" =
        some .python ∧
      (ofList (ofList untidy).toList).language? "stub.pyi" = some .python := by
  have plain : ∀ x ∈ ["..pyi\n", "tar.py", "\t"], isIndented x = false := by decide
  have settled : ∀ x ∈ untidy, isIndented (normalForm x) = false := by decide
  refine ⟨plain, settled, ?_, ?_⟩
  · exact ((language?_given_again _).1 plain "stub.pyi").trans (by decide +kernel)
  · exact ((language?_given_again _).2.1 settled "stub.pyi").trans (by decide +kernel)

/-- White space behind a dot is taken for a part of the extension. So a dot before it makes another
extension of it, and one that is told with white space is another one when it is given again. -/
theorem language?_hidden_space :
    (ofList [" py"]).language? "a.py" = some .python ∧
      (ofList ["." ++ " py"]).language? "a.py" = none ∧
      (ofList ["." ++ " py"]).toList = [" py"] ∧
      (ofList (ofList ["." ++ " py"]).toList).language? "a.py" = some .python := by
  decide +kernel

end Extensions

end CodeAtlas
