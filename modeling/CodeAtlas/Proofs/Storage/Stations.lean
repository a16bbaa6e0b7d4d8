import CodeAtlas.Proofs.Storage

/-!
# The directories on the way

There are no links, so a path alone tells which locations it leads through (`Path.stations`) and
where it leads (`Path.location`). Two dots lead back to a location that was passed before, and so
the way to a directory may go through directories that are not above it.

* `get?_makeMissing`: making a directory puts directories where nothing was, at stations of its path
  only.
* `open_makeMissing`: if it is not refused, all stations are directories (`Open`).
* `makeMissing_of_open`: on a way that is open there is nothing to make.
* `Open.write_join`: on such a way a file can be written, unless a directory is in its place.
-/

namespace CodeAtlas

namespace Path

/-- The locations that parts lead through from a location. -/
def stationsFrom (here : Location) : List String → List Location
  | [] => []
  | part :: rest => step here part :: stationsFrom (step here part) rest

/-- The locations that a path leads through, the last one included. -/
def stations (path : String) : List Location := stationsFrom [] (parts path)

/-- The location that a path leads to. -/
def location (path : String) : Location := (parts path).foldl step []

/-- The location of something inside the directory that a path leads to. -/
def place (directory name : String) : Location := location directory ++ [name]

theorem place_inj {directory m n : String} : place directory m = place directory n ↔ m = n := by
  simp [place]

theorem foldl_step_mem (here : Location) (parts : List String) :
    parts.foldl step here ∈ here :: stationsFrom here parts := by
  induction parts generalizing here with
  | nil => exact List.mem_cons_self
  | cons part rest ih => exact List.mem_cons_of_mem _ (ih (step here part))

/-- A way that never leads back only goes down. -/
theorem foldl_step_of_down {parts : List String} (down : ".." ∉ parts) (here : Location) :
    parts.foldl step here = here ++ parts := by
  induction parts generalizing here with
  | nil => exact (List.append_nil here).symm
  | cons part rest ih =>
    rw [List.mem_cons, not_or] at down
    rw [List.foldl_cons, step_of_ne (Ne.symm down.1), ih down.2, List.append_assoc]
    rfl

theorem isPrefix_of_mem_stationsFrom {parts : List String} (down : ".." ∉ parts)
    {here loc : Location} (station : loc ∈ stationsFrom here parts) : loc <+: here ++ parts := by
  induction parts generalizing here with
  | nil => contradiction
  | cons part rest ih =>
    rw [List.mem_cons, not_or] at down
    rw [stationsFrom, step_of_ne (Ne.symm down.1)] at station
    rw [List.append_cons]
    rcases List.mem_cons.mp station with rfl | station
    · exact List.prefix_append _ _
    · exact ih down.2 station

/-- Without two dots a path leads through nothing but what is above its end. -/
theorem isPrefix_of_mem_stations {path : String} (down : ".." ∉ parts path) {loc : Location}
    (station : loc ∈ stations path) : loc <+: location path := by
  rw [location, foldl_step_of_down down]
  exact isPrefix_of_mem_stationsFrom down station

theorem place_notMem_stations {directory : String} (down : ".." ∉ parts directory)
    (name : String) : place directory name ∉ stations directory := by
  intro station
  have above := (isPrefix_of_mem_stations down station).length_le
  rw [place, List.length_append] at above
  exact Nat.not_succ_le_self _ above

theorem getLast?_segments_slash {path name : String} (h : '/' ∉ name.toList) (xs : List Char)
    (whole : path.toList = xs ++ '/' :: name.toList) : (segments path).getLast? = some name := by
  rw [segments, whole, splitFrom_slash, splitFrom_of_slash_notMem h, List.getLast?_concat,
    List.reverse_nil, List.nil_append, String.ofList_toList]

theorem getLast?_segments_join (directory : String) {name : String} (h : '/' ∉ name.toList) :
    (segments (join directory name)).getLast? = some name := by
  unfold join
  split
  · rw [segments, splitFrom_of_slash_notMem h, List.reverse_nil, List.nil_append,
      String.ofList_toList]
    rfl
  · split
    · next slash =>
      obtain ⟨xs, chars⟩ := List.getLast?_eq_some_iff.mp slash
      refine getLast?_segments_slash h xs ?_
      rw [String.toList_append, chars, List.append_assoc]
      rfl
    · refine getLast?_segments_slash h directory.toList ?_
      rw [String.toList_append, String.toList_append, List.append_assoc]
      rfl

/-- A path that ends with a name does not ask for a directory. -/
theorem namesDirectory_join (directory : String) {name : String} (h : IsName name) :
    namesDirectory (join directory name) = false := by
  rw [namesDirectory, getLast?_segments_join directory h.1]
  exact h.2.1

end Path

namespace Storage

open CodeAtlas.Path

variable {s : Storage}

/-! ## Making directories -/

/-- Directories are made only where nothing was, at stations, and nothing else is changed. -/
theorem get?_makeFrom (s : Storage) (dotted made : Bool) (here : Location) (parts : List String)
    (loc : Location) :
    (s.makeFrom dotted made here parts).storage.get? loc = s.get? loc ∨
      s.get? loc = none ∧ loc ∈ stationsFrom here parts ∧
        (s.makeFrom dotted made here parts).storage.get? loc = some .directory := by
  induction parts generalizing s made here with
  | nil => exact .inl rfl
  | cons part rest ih =>
    rw [stationsFrom]
    rcases s.makeFrom_cons dotted made here part rest with
      ⟨r, stopped⟩ | ⟨-, onward⟩ | ⟨missing, onward⟩
    · rw [stopped]
      exact .inl rfl
    · rw [onward]
      rcases ih s made (step here part) with kept | ⟨free, station, new⟩
      · exact .inl kept
      · exact .inr ⟨free, List.mem_cons_of_mem _ station, new⟩
    · have free : s.get? (step here part) ≠ some .directory := by simp [missing]
      have further := ih (s.put (step here part) .directory) true (step here part)
      rw [get?_put free] at further
      rw [onward]
      by_cases same : loc = step here part
      · -- what was made here is not made again when the way comes back
        subst same
        rw [if_pos rfl] at further
        rcases further with kept | ⟨absurd, -⟩
        · exact .inr ⟨missing, List.mem_cons_self, kept⟩
        · contradiction
      · rw [if_neg same] at further
        rcases further with kept | ⟨free, station, new⟩
        · exact .inl kept
        · exact .inr ⟨free, List.mem_cons_of_mem _ station, new⟩

theorem directory_makeFrom {loc : Location} (h : s.get? loc = some .directory) (dotted made : Bool)
    (here : Location) (parts : List String) :
    (s.makeFrom dotted made here parts).storage.get? loc = some .directory := by
  rcases get?_makeFrom s dotted made here parts loc with kept | ⟨-, -, new⟩
  · exact kept.trans h
  · exact new

/-- All from the working directory down to a location are directories. -/
def Reaches (s : Storage) (here : Location) : Prop := ∀ l, l <+: here → s.get? l = some .directory

theorem Reaches.step {here : Location} (h : s.Reaches here) {part : String}
    (next : part = ".." ∨ s.get? (step here part) = some .directory) :
    s.Reaches (step here part) := by
  intro l above
  by_cases up : part = ".."
  · rw [Path.step, if_pos up] at above
    exact h l (above.trans (List.dropLast_prefix here))
  · rw [step_of_ne up] at above next
    rcases List.prefix_concat_iff.mp above with rfl | above
    · exact next.resolve_left up
    · exact h l above

theorem Reaches.put {here loc : Location} (h : s.Reaches here)
    (free : s.get? loc ≠ some .directory) : (s.put loc .directory).Reaches here := by
  intro l above
  rw [get?_put free]
  split
  · rfl
  · exact h l above

/-- All stations are directories in the end. Two dots lead back to a location above, so all of these
have to be directories as well, which they are when the way comes from there. -/
theorem stations_makeFrom (dotted made : Bool) {here : Location} {parts : List String}
    (reached : s.Reaches here)
    (done : (s.makeFrom dotted made here parts).refusal = none) {loc : Location}
    (station : loc ∈ stationsFrom here parts) :
    (s.makeFrom dotted made here parts).storage.get? loc = some .directory := by
  induction parts generalizing s made here with
  | nil => contradiction
  | cons part rest ih =>
    -- the way leads on, in the storage as it is or with one more directory
    have onwards {t : Storage} {made' : Bool} (reached : t.Reaches (Path.step here part))
        (onward : s.makeFrom dotted made here (part :: rest) =
          t.makeFrom dotted made' (Path.step here part) rest) :
        (s.makeFrom dotted made here (part :: rest)).storage.get? loc = some .directory := by
      rw [onward] at done ⊢
      rcases List.mem_cons.mp station with rfl | station
      · exact directory_makeFrom (reached _ (List.prefix_refl _)) _ _ _ _
      · exact ih made' reached done station
    rcases s.makeFrom_cons dotted made here part rest with
      ⟨r, stopped⟩ | ⟨next, onward⟩ | ⟨missing, onward⟩
    · rw [stopped] at done
      contradiction
    · exact onwards (reached.step next) onward
    · have free : s.get? (Path.step here part) ≠ some .directory := by simp [missing]
      have new : (s.put (Path.step here part) .directory).get? (Path.step here part) =
          some .directory := by rw [get?_put free, if_pos rfl]
      exact onwards ((reached.put free).step (.inr new)) onward

theorem makeFrom_of_directories {here : Location} {parts : List String}
    (h : ∀ l ∈ stationsFrom here parts, s.get? l = some .directory) (dotted made : Bool) :
    s.makeFrom dotted made here parts = ⟨s, none⟩ := by
  induction parts generalizing here with
  | nil => rfl
  | cons part rest ih =>
    rw [stationsFrom, List.forall_mem_cons] at h
    rw [makeFrom]
    split
    · next up =>
      rw [step, if_pos up] at h
      exact ih h.2
    · next down =>
      rw [step_of_ne down] at h
      simp only [h.1]
      exact ih h.2

/-- All that a path leads through are directories. -/
def Open (s : Storage) (path : String) : Prop :=
  ∀ l ∈ stations path, s.get? l = some .directory

theorem get?_makeMissing (s : Storage) (path : String) (loc : Location) :
    (s.makeMissing path).storage.get? loc = s.get? loc ∨
      s.get? loc = none ∧ loc ∈ stations path ∧
        (s.makeMissing path).storage.get? loc = some .directory :=
  get?_makeFrom s _ _ _ _ loc

theorem open_makeMissing {path : String} (done : (s.makeMissing path).refusal = none) :
    (s.makeMissing path).storage.Open path := by
  have start : s.Reaches [] := by
    intro l above
    rw [List.prefix_nil.mp above]
    rfl
  exact fun l station => stations_makeFrom _ _ start done station

/-- No file changes when directories are made. -/
theorem file_makeMissing_iff {path : String} {loc : Location} {bytes : Bytes} :
    (s.makeMissing path).storage.get? loc = some (.file bytes) ↔
      s.get? loc = some (.file bytes) := by
  rcases s.get?_makeMissing path loc with kept | ⟨free, -, new⟩
  · rw [kept]
  · simp [free, new]

theorem directory_makeMissing_iff {path : String} (done : (s.makeMissing path).refusal = none)
    {loc : Location} :
    (s.makeMissing path).storage.get? loc = some .directory ↔
      s.get? loc = some .directory ∨ loc ∈ stations path := by
  constructor
  · intro there
    rcases s.get?_makeMissing path loc with kept | ⟨-, station, -⟩
    · exact .inl (kept.symm.trans there)
    · exact .inr station
  · rintro (there | station)
    · exact directory_makeFrom there _ _ _ _
    · exact open_makeMissing done loc station

theorem makeMissing_of_open {path : String} (h : s.Open path) : s.makeMissing path = ⟨s, none⟩ :=
  makeFrom_of_directories h _ _

/-! ## Files at the end of an open way -/

theorem follow_concat {here : Location} {parts : List String} {name : String} (down : name ≠ "..")
    (h : ∀ l ∈ here :: stationsFrom here parts, s.get? l = some .directory) :
    s.follow here (parts ++ [name]) = .ok (parts.foldl step here ++ [name]) := by
  induction parts generalizing here with
  | nil =>
    rw [List.nil_append, follow, h here List.mem_cons_self]
    exact congrArg Except.ok (if_neg down)
  | cons part rest ih =>
    obtain ⟨directory, further⟩ := List.forall_mem_cons.mp h
    rw [List.cons_append, follow, directory]
    exact ih further

variable {directory name : String}

theorem Open.locate_join (h : s.Open directory) (named : IsName name) :
    s.locate (join directory name) = .ok (place directory name) := by
  have nonempty : join directory name ≠ "" := by
    intro empty
    have parts := parts_join directory named
    rw [empty] at parts
    exact List.append_ne_nil_of_right_ne_nil _ (List.cons_ne_nil name []) parts.symm
  have start : ∀ l ∈ [] :: stations directory, s.get? l = some .directory :=
    List.forall_mem_cons.mpr ⟨rfl, h⟩
  rw [locate, if_neg nonempty, parts_join directory named]
  exact follow_concat named.2.2 start

theorem Open.get?_location (h : s.Open directory) :
    s.get? (location directory) = some .directory := by
  rcases List.mem_cons.mp (foldl_step_mem [] (parts directory)) with root | station
  · rw [location, root]
    rfl
  · exact h _ station

theorem Open.find_join (h : s.Open directory) (named : IsName name) {content : Content}
    (there : s.get? (place directory name) = some content) :
    s.find (join directory name) = .ok content := by
  rw [find, h.locate_join named]
  cases content <;> simp [bind, Except.bind, there, namesDirectory_join directory named]

/-- A file can be written at the end of an open way, unless a directory is in its place. -/
theorem Open.write_join (h : s.Open directory) (named : IsName name) (bytes : Bytes) :
    s.write (join directory name) bytes =
      if s.get? (place directory name) = some .directory then .error .isDirectory
      else .ok (s.put (place directory name) (.file bytes)) := by
  have outer : s.get? (place directory name).dropLast = some .directory := by
    rw [place, List.dropLast_concat]
    exact h.get?_location
  rw [write, h.locate_join named]
  simp only [bind, Except.bind, outer,
    namesDirectory_join directory named, Bool.false_or, decide_eq_true_eq]

theorem Open.put {loc : Location} (h : s.Open directory) (free : s.get? loc ≠ some .directory)
    (c : Content) : (s.put loc c).Open directory := by
  intro l station
  have other : l ≠ loc := by
    rintro rfl
    exact free (h l station)
  rw [get?_put free, if_neg other]
  exact h l station

theorem putEntry_of_lookup {loc : Location} {c : Content} {entries : List (Location × Content)}
    (h : entries.lookup loc = some c) : putEntry loc c entries = entries := by
  induction entries with
  | nil => contradiction
  | cons entry rest ih =>
    obtain ⟨l, d⟩ := entry
    rw [lookup_cons_eq] at h
    rw [putEntry]
    split
    · next here =>
      rw [if_pos here.symm] at h
      rw [Option.some.inj h]
    · next other =>
      rw [if_neg (Ne.symm other)] at h
      rw [ih h]

/-- A file that is put where it is already changes nothing. -/
theorem put_of_get? {loc : Location} {bytes : Bytes} (h : s.get? loc = some (.file bytes)) :
    s.put loc (.file bytes) = s := by
  rw [get?] at h
  split at h
  · cases Option.some.inj h
  · rw [Storage.put, putEntry_of_lookup h]

end Storage

end CodeAtlas
