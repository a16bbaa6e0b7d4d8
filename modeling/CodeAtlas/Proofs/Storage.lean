import CodeAtlas.Storage.Basic

/-!
# What is found after writing

A file that was written is found with its content, and a file with another name stays as it is. What
is on the way to a file are directories, and nothing is ever put in the place of a directory, so a
path leads to the same location before and after.

* `fileName?_join`: a name inside a directory is the name of the path.
* `find_eq_file_iff`, `write_eq_ok_iff`: when files are found, and when they are written.
* `follow_put`: paths lead to the same locations after something was put.
* `makeFrom_cons`: what happens at one part of the path of a new directory.
* `find_of_write`, `find_of_write_other`, `find_of_makeDirectories`: the file that was written, and
  any other.
-/

namespace CodeAtlas

namespace Path

/-- A text that stands for itself as the last part of a path. -/
def IsName (name : String) : Prop := '/' ∉ name.toList ∧ isIdle name = false ∧ name ≠ ".."

instance (name : String) : Decidable (IsName name) :=
  inferInstanceAs (Decidable (_ ∧ _ ∧ _))

theorem splitFrom_eq (finished : List String) (current cs : List Char) :
    splitFrom finished current cs = finished.reverse ++ splitFrom [] current cs := by
  induction cs generalizing finished current with
  | nil => simp [splitFrom]
  | cons c cs ih =>
    rw [splitFrom, splitFrom]
    split
    · rw [ih, ih [_]]
      simp
    · exact ih finished _

theorem splitFrom_slash (current xs ys : List Char) :
    splitFrom [] current (xs ++ '/' :: ys) = splitFrom [] current xs ++ splitFrom [] [] ys := by
  induction xs generalizing current with
  | nil =>
    have cut : splitFrom [] current ('/' :: ys) =
        splitFrom [String.ofList current.reverse] [] ys := by rw [splitFrom, if_pos rfl]
    rw [List.nil_append, cut, splitFrom_eq]
    rfl
  | cons c xs ih =>
    rw [List.cons_append, splitFrom, splitFrom]
    split
    · rw [splitFrom_eq, ih, splitFrom_eq [_] [] xs, List.append_assoc]
    · exact ih _

theorem splitFrom_of_slash_notMem {current cs : List Char} (h : '/' ∉ cs) :
    splitFrom [] current cs = [String.ofList (current.reverse ++ cs)] := by
  induction cs generalizing current with
  | nil => rw [List.append_nil]; rfl
  | cons c cs ih =>
    rw [List.mem_cons, not_or] at h
    rw [splitFrom, if_neg (Ne.symm h.1), ih h.2, List.reverse_cons, List.append_assoc]
    rfl

theorem parts_of_isName {name : String} (h : IsName name) : parts name = [name] := by
  have segments : segments name = [name] := by
    rw [segments, splitFrom_of_slash_notMem h.1, List.reverse_nil, List.nil_append,
      String.ofList_toList]
  rw [parts, segments, List.filter_cons_of_pos (by rw [h.2.1]; rfl), List.filter_nil]

theorem parts_slash {path : String} {xs ys : List Char} (h : path.toList = xs ++ '/' :: ys) :
    parts path = parts (String.ofList xs) ++ parts (String.ofList ys) := by
  rw [parts, segments, h, splitFrom_slash, List.filter_append, parts, parts, segments, segments,
    String.toList_ofList, String.toList_ofList]

theorem parts_join (directory : String) {name : String} (h : IsName name) :
    parts (join directory name) = parts directory ++ [name] := by
  unfold join
  split
  · next empty =>
    subst empty
    exact parts_of_isName h
  · split
    · next slash =>
      obtain ⟨xs, chars⟩ := List.getLast?_eq_some_iff.mp slash
      have whole : (directory ++ name).toList = xs ++ '/' :: name.toList := by
        rw [String.toList_append, chars, List.append_assoc]
        rfl
      have empty : parts (String.ofList []) = [] := rfl
      rw [parts_slash whole, parts_slash chars, empty, List.append_nil, String.ofList_toList,
        parts_of_isName h]
    · have whole : (directory ++ "/" ++ name).toList = directory.toList ++ '/' :: name.toList := by
        rw [String.toList_append, String.toList_append, List.append_assoc]
        rfl
      rw [parts_slash whole, String.ofList_toList, String.ofList_toList, parts_of_isName h]

theorem fileName?_join (directory : String) {name : String} (h : IsName name) :
    fileName? (join directory name) = some name := by
  rw [fileName?, parts_join directory h, List.getLast?_concat]
  split
  · next up => exact absurd (Option.some.inj up) h.2.2
  · rfl

/-- Two paths have names, and these differ. -/
def Apart (p q : String) : Prop := ∃ m n, fileName? p = some m ∧ fileName? q = some n ∧ m ≠ n

theorem apart_join (directory : String) {m n : String} (hm : IsName m) (hn : IsName n)
    (ne : m ≠ n) : Apart (join directory m) (join directory n) :=
  ⟨m, n, fileName?_join directory hm, fileName?_join directory hn, ne⟩

theorem getLast?_parts {path name : String} (h : fileName? path = some name) :
    (parts path).getLast? = some name ∧ name ≠ ".." := by
  unfold fileName? at h
  split at h
  · contradiction
  · next notUp =>
    refine ⟨h, ?_⟩
    rintro rfl
    exact notUp h

/-- Where a part leads from a location. -/
def step (here : Location) (part : String) : Location :=
  if part = ".." then here.dropLast else here ++ [part]

theorem step_of_ne {part : String} (h : part ≠ "..") (here : Location) :
    step here part = here ++ [part] := if_neg h

end Path

namespace Storage

variable {s s' : Storage} {path : String} {bytes : Bytes}

theorem lookup_cons_eq (l k : Location) (d : Content) (rest : List (Location × Content)) :
    ((k, d) :: rest).lookup l = if l = k then some d else rest.lookup l := by
  rw [List.lookup_cons]
  by_cases h : l = k
  · subst h
    simp
  · have other : (l == k) = false := beq_eq_false_iff_ne.mpr h
    rw [other, if_neg h]

theorem lookup_putEntry (loc l : Location) (c : Content) (entries : List (Location × Content)) :
    (putEntry loc c entries).lookup l = if l = loc then some c else entries.lookup l := by
  induction entries with
  | nil => exact lookup_cons_eq l loc c []
  | cons entry rest ih =>
    obtain ⟨k, d⟩ := entry
    rw [putEntry]
    split
    · next same =>
      subst same
      rw [lookup_cons_eq, lookup_cons_eq]
      split <;> rfl
    · next other =>
      rw [lookup_cons_eq, lookup_cons_eq, ih]
      split
      · next here =>
        subst here
        rw [if_neg other]
      · rfl

/-- Where no directory is something can be put; the working directory is not such a place. -/
theorem get?_put {loc : Location} (free : s.get? loc ≠ some .directory) (c : Content)
    (l : Location) : (s.put loc c).get? l = if l = loc then some c else s.get? l := by
  have inside : loc ≠ [] := by
    rintro rfl
    exact free rfl
  rw [get?, get?, put, lookup_putEntry]
  cases l with
  | nil => simp [Ne.symm inside]
  | cons part rest => rfl

/-! ## Locations -/

/-- A path leads to the same location when something is put where no directory was. -/
theorem follow_put {loc here there : Location} {parts : List String}
    (free : s.get? loc ≠ some .directory) (c : Content) (h : s.follow here parts = .ok there) :
    (s.put loc c).follow here parts = .ok there := by
  induction parts generalizing here with
  | nil => exact h
  | cons part rest ih =>
    rw [follow] at h ⊢
    cases content : s.get? here with
    | none => simp [content] at h
    | some found =>
      cases found with
      | file b => simp [content] at h
      | directory =>
        have other : here ≠ loc := by
          rintro rfl
          exact free content
        rw [content] at h
        rw [get?_put free, if_neg other, content]
        exact ih h

theorem locate_put {loc there : Location} (free : s.get? loc ≠ some .directory) (c : Content)
    (h : s.locate path = .ok there) : (s.put loc c).locate path = .ok there := by
  unfold locate at h ⊢
  split at h
  · contradiction
  · next nonempty =>
    rw [if_neg nonempty]
    exact follow_put free c h

theorem getLast?_follow {here there : Location} {parts : List String} {name : String}
    (h : s.follow here parts = .ok there) (last : parts.getLast? = some name) (down : name ≠ "..") :
    there.getLast? = some name := by
  induction parts generalizing here with
  | nil => simp at last
  | cons part rest ih =>
    rw [follow] at h
    split at h
    · contradiction
    · contradiction
    · cases rest with
      | nil =>
        obtain rfl : part = name := by simpa using last
        rw [if_neg down] at h
        obtain rfl := Except.ok.inj h
        exact List.getLast?_concat
      | cons next rest =>
        rw [List.getLast?_cons_cons] at last
        exact ih h last

/-- A location ends with the name of the path that leads to it. -/
theorem getLast?_locate {there : Location} {name : String} (h : s.locate path = .ok there)
    (named : Path.fileName? path = some name) : there.getLast? = some name := by
  obtain ⟨last, down⟩ := Path.getLast?_parts named
  unfold locate at h
  split at h
  · contradiction
  · exact getLast?_follow h last down

/-! ## Files -/

theorem find_eq_file_iff :
    s.find path = .ok (.file bytes) ↔ ∃ loc, s.locate path = .ok loc ∧
      s.get? loc = some (.file bytes) ∧ Path.namesDirectory path = false := by
  unfold find
  cases s.locate path with
  | error r => simp [bind, Except.bind]
  | ok loc =>
    simp only [bind, Except.bind, Except.ok.injEq, exists_eq_left']
    cases s.get? loc with
    | none => simp
    | some c =>
      cases c with
      | directory => simp
      | file b => cases Path.namesDirectory path <;> simp

theorem write_eq_ok_iff :
    s.write path bytes = .ok s' ↔ ∃ loc, s.locate path = .ok loc ∧
      s.get? loc.dropLast = some .directory ∧ Path.namesDirectory path = false ∧
      s.get? loc ≠ some .directory ∧ s' = s.put loc (.file bytes) := by
  unfold write
  cases s.locate path with
  | error r => simp [bind, Except.bind]
  | ok loc =>
    simp only [bind, Except.bind, Except.ok.injEq, exists_eq_left']
    cases s.get? loc.dropLast with
    | none => simp
    | some c =>
      cases c with
      | file b => simp
      | directory =>
        cases Path.namesDirectory path
        · by_cases free : s.get? loc = some .directory
          · simp [free]
          · simp [free, eq_comm]
        · simp

/-- A file stays as it is when something is put at another location. -/
theorem find_put {loc there : Location} (free : s.get? loc ≠ some .directory) (c : Content)
    (located : s.locate path = .ok there) (apart : there ≠ loc)
    (found : s.find path = .ok (.file bytes)) : (s.put loc c).find path = .ok (.file bytes) := by
  obtain ⟨l, hl, file, named⟩ := find_eq_file_iff.mp found
  obtain rfl := Except.ok.inj (located.symm.trans hl)
  refine find_eq_file_iff.mpr ⟨there, locate_put free c located, ?_, named⟩
  rw [get?_put free, if_neg apart, file]

/-- A file that was written is found with its content. -/
theorem find_of_write (h : s.write path bytes = .ok s') : s'.find path = .ok (.file bytes) := by
  obtain ⟨loc, located, -, named, free, rfl⟩ := write_eq_ok_iff.mp h
  refine find_eq_file_iff.mpr ⟨loc, locate_put free _ located, ?_, named⟩
  rw [get?_put free, if_pos rfl]

/-- A write leaves files with other names as they are. -/
theorem find_of_write_other {other : String} {content : Bytes} (h : s.write path bytes = .ok s')
    (apart : Path.Apart path other) (found : s.find other = .ok (.file content)) :
    s'.find other = .ok (.file content) := by
  obtain ⟨name, otherName, named, otherNamed, ne⟩ := apart
  obtain ⟨loc, located, -, -, free, rfl⟩ := write_eq_ok_iff.mp h
  obtain ⟨there, otherLocated, -, -⟩ := find_eq_file_iff.mp found
  refine find_put free _ otherLocated ?_ found
  rintro rfl
  have last := getLast?_locate located named
  rw [getLast?_locate otherLocated otherNamed] at last
  exact ne (Option.some.inj last).symm

/-! ## Directories -/

/-- What one part of a path can do: it is refused, it leads on, or a directory is made for it. -/
theorem makeFrom_cons (s : Storage) (dotted made : Bool) (here : Location) (part : String)
    (rest : List String) :
    (∃ r, s.makeFrom dotted made here (part :: rest) = ⟨s, some r⟩) ∨
      (part = ".." ∨ s.get? (Path.step here part) = some .directory) ∧
        s.makeFrom dotted made here (part :: rest) =
          s.makeFrom dotted made (Path.step here part) rest ∨
      s.get? (Path.step here part) = none ∧
        s.makeFrom dotted made here (part :: rest) =
          (s.put (Path.step here part) .directory).makeFrom dotted true (Path.step here part)
            rest := by
  by_cases up : part = ".."
  · refine .inr (.inl ⟨.inl up, ?_⟩)
    rw [makeFrom, if_pos up, Path.step, if_pos up]
  · rw [makeFrom, if_neg up, Path.step_of_ne up]
    dsimp only
    split
    · next there => exact .inr (.inl ⟨.inr there, rfl⟩)
    · exact .inl ⟨_, rfl⟩
    · next missing =>
      split
      · exact .inl ⟨_, rfl⟩
      · exact .inr (.inr ⟨missing, rfl⟩)

theorem find_makeFrom (dotted made : Bool) (here : Location) (parts : List String)
    (found : s.find path = .ok (.file bytes)) :
    (s.makeFrom dotted made here parts).storage.find path = .ok (.file bytes) := by
  induction parts generalizing s made here with
  | nil => exact found
  | cons part rest ih =>
    rcases s.makeFrom_cons dotted made here part rest with
      ⟨r, stopped⟩ | ⟨-, onward⟩ | ⟨missing, onward⟩
    · rw [stopped]
      exact found
    · rw [onward]
      exact ih made _ found
    · -- a directory is made where nothing was, so not where the file is
      have free : s.get? (Path.step here part) ≠ some .directory := by simp [missing]
      obtain ⟨there, located, file, -⟩ := find_eq_file_iff.mp found
      rw [onward]
      refine ih true _ (find_put free _ located ?_ found)
      rintro rfl
      simp [missing] at file

theorem makeDirectories_eq_ok_iff {directory : String} :
    s.makeDirectories directory = .ok s' ↔
      (s.makeMissing directory).refusal = none ∧ (s.makeMissing directory).storage = s' := by
  unfold makeDirectories
  cases (s.makeMissing directory).refusal <;> simp

/-- Making directories leaves all files as they are. -/
theorem find_of_makeDirectories {directory : String} (h : s.makeDirectories directory = .ok s')
    (found : s.find path = .ok (.file bytes)) : s'.find path = .ok (.file bytes) := by
  obtain ⟨-, rfl⟩ := makeDirectories_eq_ok_iff.mp h
  exact find_makeFrom _ _ _ _ found

end Storage

end CodeAtlas
