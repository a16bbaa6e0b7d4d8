import CodeAtlas.Proofs.Export.Stored
import CodeAtlas.Proofs.Storage.Stations

/-!
# What an export changes

An export into a directory has five files, and it writes them one after the other. It stops at the
first that has a directory in its place. Until then it has changed nothing but the files that it
wrote and the directories that were missing on the way.

The way to the directory may lead through the place of one of the files and back by two dots. Then a
directory is made there, which is in the way of that file later on (`carryOut_through_target`). All
other files that were not written are as they were.

* `Filled`: what writing some files into a directory changes.
* `carryOut_files`: the run that writes files, up to the first that is refused.
* `carryOut_filled`: files that are there already are written without a change.
* `carryOut_touches`: all that an export changes, whether it fails or not.
-/

namespace CodeAtlas

/-- The path of the file that was not written since a directory is in its place. -/
def Failure.blockedAt? : Failure → Option String
  | .createFile path .isDirectory => some path
  | .writeFile path .isDirectory => some path
  | _ => none

namespace Tables

open CodeAtlas.Path (place)

/-- The names and texts of the files of an export, in the order in which they are written. -/
def files (g : Graph) (label : String) : List (String × String) :=
  [("nodes.csv", Csv.write (nodeRecords g)),
    ("contains.csv", Csv.write (relationshipRecords g .contains)),
    ("inherits.csv", Csv.write (relationshipRecords g .inherits)),
    ("calls.csv", Csv.write (relationshipRecords g .calls)),
    ("import.cypher", Cypher.script label "nodes.csv")]

/-- What has changed in a storage when files were written into a directory that may be new. -/
structure Touched (s s' : Storage) (directory : String) (written : List (String × String)) :
    Prop where
  /-- The files are there, whatever was there before. -/
  files : ∀ f ∈ written, s'.find (Path.join directory f.1) = .ok (.file (Bytes.ofString f.2))
  /-- All other files are those that were there before, with what they held. -/
  others : ∀ loc, (∀ f ∈ written, loc ≠ place directory f.1) →
    ∀ bytes, s'.get? loc = some (.file bytes) ↔ s.get? loc = some (.file bytes)
  /-- The new directories are those that were missing on the way. -/
  directories : ∀ loc, s'.get? loc = some .directory ↔
    s.get? loc = some .directory ∨ loc ∈ Path.stations directory
  /-- If no two dots are on the way, then these are the directory itself and what is above it. -/
  above : ".." ∉ Path.parts directory → ∀ loc, s'.get? loc = some .directory →
    s.get? loc = some .directory ∨ loc <+: Path.location directory

/-- A location is as it was, or two dots lead the way to a directory through it, and a directory was
made there where nothing was. -/
def Spared (s s' : Storage) (directory : String) (loc : Location) : Prop :=
  s'.get? loc = s.get? loc ∨
    ".." ∈ Path.parts directory ∧ loc ∈ Path.stations directory ∧
      s.get? loc = none ∧ s'.get? loc = some .directory

/-- What writing files into a directory changes in a storage that has this directory. -/
structure Filled (s s' : Storage) (directory : String) (written : List (String × String)) :
    Prop where
  free : ∀ f ∈ written, s.get? (place directory f.1) ≠ some .directory
  inside : ∀ f ∈ written, s'.get? (place directory f.1) = some (.file (Bytes.ofString f.2))
  outside : ∀ loc, (∀ f ∈ written, loc ≠ place directory f.1) → s'.get? loc = s.get? loc

/-- How a run has ended that was to write some more files. -/
def StoppedBefore (out : Exported) (directory : String) : List (String × String) → Prop
  | [] => out.failure = none
  | f :: _ => out.failure.bind Failure.blockedAt? = some (Path.join directory f.1) ∧
      out.storage.get? (place directory f.1) = some .directory

variable {s s' : Storage} {g : Graph} {label directory : String} {step : ExportStep}
  {steps : List ExportStep} {f : String × String} {fs : List (String × String)}

/-! ## Runs that write files -/

theorem Filled.nil (s : Storage) (directory : String) : Filled s s directory [] :=
  ⟨fun _ h => absurd h List.not_mem_nil, fun _ h => absurd h List.not_mem_nil, fun _ _ => rfl⟩

theorem Filled.cons (free : s.get? (place directory f.1) ≠ some .directory)
    (new : f.1 ∉ fs.map Prod.fst)
    (rest : Filled (s.put (place directory f.1) (.file (Bytes.ofString f.2))) s' directory fs) :
    Filled s s' directory (f :: fs) := by
  have apart : ∀ f' ∈ fs, place directory f.1 ≠ place directory f'.1 := by
    intro f' mem same
    exact new (Path.place_inj.mp same ▸ List.mem_map_of_mem mem)
  refine ⟨List.forall_mem_cons.mpr ⟨free, ?_⟩, List.forall_mem_cons.mpr ⟨?_, rest.inside⟩, ?_⟩
  · intro f' mem
    have still := rest.free f' mem
    rwa [Storage.get?_put free, if_neg (Ne.symm (apart f' mem))] at still
  · rw [rest.outside _ apart, Storage.get?_put free, if_pos rfl]
  · intro loc other
    obtain ⟨here, further⟩ := List.forall_mem_cons.mp other
    rw [rest.outside loc further, Storage.get?_put free, if_neg here]

theorem Filled.opened (h : Filled s s' directory fs) (way : s.Open directory) :
    s'.Open directory := by
  intro l station
  rw [h.outside l ?_, way l station]
  rintro f mem rfl
  exact h.free f mem (way _ station)

/-- The steps write files into a directory, and make no directories. -/
structure Writes (directory : String) (steps : List ExportStep) (fs : List (String × String)) :
    Prop where
  written : steps.filterMap ExportStep.written? = fs.map fun f => (Path.join directory f.1, f.2)
  made : ∀ path, .makeDirectories path ∉ steps
  named : ∀ f ∈ fs, Path.IsName f.1
  distinct : (fs.map Prod.fst).Nodup

/-- The first of such steps is a log line, or it writes the first file. -/
theorem Writes.cases (h : Writes directory (step :: steps) fs) :
    (∃ line, step = .log line ∧ Writes directory steps fs) ∨
      ∃ f rest, fs = f :: rest ∧ step.written? = some (Path.join directory f.1, f.2) ∧
        Path.IsName f.1 ∧ f.1 ∉ rest.map Prod.fst ∧ Writes directory steps rest := by
  obtain ⟨written, made, named, distinct⟩ := h
  have made' : ∀ path, .makeDirectories path ∉ steps :=
    fun path mem => made path (List.mem_cons_of_mem _ mem)
  cases first : step.written? with
  | none =>
    rw [List.filterMap_cons_none first] at written
    cases step with
    | makeDirectories path => exact absurd List.mem_cons_self (made path)
    | table path text => contradiction
    | document path text => contradiction
    | log line => exact .inl ⟨line, rfl, written, made', named, distinct⟩
  | some w =>
    rw [List.filterMap_cons_some first] at written
    cases fs with
    | nil => contradiction
    | cons f rest =>
      obtain ⟨same, written⟩ := List.cons.inj written
      obtain ⟨name, named⟩ := List.forall_mem_cons.mp named
      obtain ⟨new, distinct⟩ := List.nodup_cons.mp distinct
      exact .inr ⟨f, rest, rfl, congrArg some same, name, new, written, made', named, distinct⟩

namespace FrameLemmas

open ExportStep

theorem carryOut_of_apply (h : step.apply s = .ok s') (steps : List ExportStep) :
    (carryOut s (step :: steps)).storage = (carryOut s' steps).storage ∧
      (carryOut s (step :: steps)).failure = (carryOut s' steps).failure := by
  rw [carryOut, h]
  exact ⟨rfl, rfl⟩

theorem apply_of_written {w : String × String} (written : step.written? = some w) (s : Storage) :
    ∃ refused : Refusal → Failure, (refused .isDirectory).blockedAt? = some w.1 ∧
      step.apply s = (s.write w.1 (Bytes.ofString w.2)).mapError refused ∧
      step.leftBehind s = s := by
  cases step with
  | makeDirectories path => contradiction
  | log line => contradiction
  | table path text =>
    cases written
    exact ⟨.createFile path, rfl, rfl, rfl⟩
  | document path text =>
    cases written
    exact ⟨.writeFile path, rfl, rfl, rfl⟩

/-- A step that writes a file goes on, unless a directory is in the place of the file. -/
theorem apply_of_free (way : s.Open directory) (named : Path.IsName f.1)
    (written : step.written? = some (Path.join directory f.1, f.2))
    (free : s.get? (place directory f.1) ≠ some .directory) :
    step.apply s = .ok (s.put (place directory f.1) (.file (Bytes.ofString f.2))) := by
  obtain ⟨refused, -, apply, -⟩ := apply_of_written written s
  rw [apply, way.write_join named, if_neg free]
  rfl

theorem carryOut_of_blocked (way : s.Open directory) (named : Path.IsName f.1)
    (written : step.written? = some (Path.join directory f.1, f.2))
    (blocked : s.get? (place directory f.1) = some .directory) (steps : List ExportStep) :
    (carryOut s (step :: steps)).storage = s ∧
      (carryOut s (step :: steps)).failure.bind Failure.blockedAt? =
        some (Path.join directory f.1) := by
  obtain ⟨refused, blockedAt, apply, left⟩ := apply_of_written written s
  rw [carryOut, apply, way.write_join named, if_pos blocked]
  exact ⟨left, blockedAt⟩

/-- A run writes its files one after the other, up to the first with a directory in its place. -/
theorem carryOut_files (h : Writes directory steps fs) (way : s.Open directory) :
    ∃ before after, fs = before ++ after ∧
      Filled s (carryOut s steps).storage directory before ∧
      StoppedBefore (carryOut s steps) directory after := by
  induction steps generalizing s fs with
  | nil =>
    obtain rfl : fs = [] := List.map_eq_nil_iff.mp h.written.symm
    exact ⟨[], [], rfl, .nil s directory, rfl⟩
  | cons step steps ih =>
    rcases h.cases with ⟨line, rfl, rest⟩ | ⟨f, rest, rfl, written, named, new, h⟩
    · exact ih rest way
    · by_cases blocked : s.get? (place directory f.1) = some .directory
      · -- the run ends here, and this step has left everything as it was
        obtain ⟨storage, failure⟩ := carryOut_of_blocked way named written blocked steps
        refine ⟨[], f :: rest, rfl, ?_, failure, ?_⟩
        · rw [storage]
          exact .nil s directory
        · rw [storage]
          exact blocked
      · -- one more file, and the way is still open for the next
        have applied := apply_of_free way named written blocked
        obtain ⟨storage, failure⟩ := carryOut_of_apply applied steps
        obtain ⟨before, after, rfl, filled, stopped⟩ := ih h (way.put blocked _)
        refine ⟨f :: before, after, rfl, ?_, ?_⟩
        · rw [storage]
          refine .cons blocked ?_ filled
          rw [List.map_append, List.mem_append, not_or] at new
          exact new.1
        · unfold StoppedBefore at stopped ⊢
          rw [storage, failure]
          exact stopped

/-- Files that are there already are written without a change. -/
theorem carryOut_filled (h : Writes directory steps fs) (way : s.Open directory)
    (there : ∀ f ∈ fs, s.get? (place directory f.1) = some (.file (Bytes.ofString f.2))) :
    (carryOut s steps).storage = s ∧ (carryOut s steps).failure = none := by
  induction steps generalizing fs with
  | nil => exact ⟨rfl, rfl⟩
  | cons step steps ih =>
    rcases h.cases with ⟨line, rfl, rest⟩ | ⟨f, rest, rfl, written, named, -, h⟩
    · exact ih rest there
    · obtain ⟨here, there⟩ := List.forall_mem_cons.mp there
      have free : s.get? (place directory f.1) ≠ some .directory := by simp [here]
      obtain ⟨storage, failure⟩ := carryOut_of_apply (apply_of_free way named written free) steps
      rw [storage, failure, Storage.put_of_get? here]
      exact ih h there

/-! ## Exports -/

theorem writes_plan (g : Graph) (label directory : String) :
    Writes directory (plan g label directory).tail (files g label) where
  written := StoredLemmas.written_plan g label directory
  made path mem := by
    have warning : .makeDirectories path ∉ warningSteps g := by
      unfold warningSteps
      simp
    simp [plan, nodeSteps, relationshipSteps, RelationKind.exported, RelationKind.fileName?,
      warning] at mem
  named := by
    simp only [files, List.forall_mem_cons, List.not_mem_nil, false_imp_iff, implies_true, and_true]
    decide
  distinct := by
    change ["nodes.csv", "contains.csv", "inherits.csv", "calls.csv", "import.cypher"].Nodup
    decide

theorem carryOut_plan_of_refused {r : Refusal}
    (refused : (s.makeMissing directory).refusal = some r) (g : Graph) (label : String) :
    carryOut s (plan g label directory) =
      ⟨(s.makeMissing directory).storage, [], some (.makeDirectory directory r)⟩ := by
  have apply : (ExportStep.makeDirectories directory).apply s =
      .error (.makeDirectory directory r) := by
    rw [ExportStep.apply, Storage.makeDirectories, refused]
    rfl
  change carryOut s (.makeDirectories directory :: _) = _
  rw [carryOut, apply]
  rfl

theorem carryOut_plan_of_made (made : (s.makeMissing directory).refusal = none) (g : Graph)
    (label : String) :
    (carryOut s (plan g label directory)).storage =
        (carryOut (s.makeMissing directory).storage (plan g label directory).tail).storage ∧
      (carryOut s (plan g label directory)).failure =
        (carryOut (s.makeMissing directory).storage (plan g label directory).tail).failure := by
  refine carryOut_of_apply ?_ (plan g label directory).tail
  rw [ExportStep.apply, Storage.makeDirectories, made]
  rfl

theorem directory_of_filled_iff (made : (s.makeMissing directory).refusal = none)
    (filled : Filled (s.makeMissing directory).storage s' directory fs) (loc : Location) :
    s'.get? loc = some .directory ↔
      s.get? loc = some .directory ∨ loc ∈ Path.stations directory := by
  rw [← Storage.directory_makeMissing_iff made]
  by_cases other : ∀ f ∈ fs, loc ≠ place directory f.1
  · rw [filled.outside loc other]
  · -- a file was written here, where no directory was
    push Not at other
    obtain ⟨f, mem, rfl⟩ := other
    simp [filled.inside f mem, filled.free f mem]

/-- What was made on the way, and then what was written. -/
theorem touched_of_filled (made : (s.makeMissing directory).refusal = none)
    (filled : Filled (s.makeMissing directory).storage s' directory fs)
    (named : ∀ f ∈ fs, Path.IsName f.1) : Touched s s' directory fs where
  files f mem :=
    (filled.opened (Storage.open_makeMissing made)).find_join (named f mem) (filled.inside f mem)
  others loc other bytes := by
    rw [filled.outside loc other, Storage.file_makeMissing_iff]
  directories := directory_of_filled_iff made filled
  above down loc there :=
    ((directory_of_filled_iff made filled loc).mp there).imp_right
      (Path.isPrefix_of_mem_stations down)

theorem spared_of_filled {name : String}
    (filled : Filled (s.makeMissing directory).storage s' directory fs)
    (new : name ∉ fs.map Prod.fst) : Spared s s' directory (place directory name) := by
  have other : ∀ f ∈ fs, place directory name ≠ place directory f.1 := by
    intro f mem same
    exact new (Path.place_inj.mp same ▸ List.mem_map_of_mem mem)
  unfold Spared
  rw [filled.outside _ other]
  rcases s.get?_makeMissing directory (place directory name) with kept | ⟨free, station, made⟩
  · exact .inl kept
  · -- the place is inside the directory, so a way that only goes down has not come to it
    refine .inr ⟨?_, station, free, made⟩
    by_contra down
    exact Path.place_notMem_stations down name station

/-- Where all files of an export are already, it changes nothing. -/
theorem carryOut_plan_of_filled (way : s.Open directory)
    (there : ∀ f ∈ files g label, s.get? (place directory f.1) =
      some (.file (Bytes.ofString f.2))) :
    (carryOut s (plan g label directory)).storage = s ∧
      (carryOut s (plan g label directory)).failure = none := by
  have nothing := Storage.makeMissing_of_open way
  obtain ⟨storage, failure⟩ := carryOut_plan_of_made (congrArg Storage.Made.refusal nothing) g label
  rw [storage, failure, nothing]
  exact carryOut_filled (writes_plan g label directory) way there

end FrameLemmas

open FrameLemmas

/-- What an export does to a storage. -/
structure Touches (s : Storage) (g : Graph) (label directory : String) (out : Exported) :
    Prop where
  /-- When it is not refused, its files are there, with texts that only the graph and the label
  tell, and all else is as it was but for new directories on the way. -/
  whole : out.failure = none → Touched s out.storage directory (files g label)
  /-- Then the same once more changes nothing. -/
  again : out.failure = none → carryOut out.storage (plan g label directory) = out
  /-- When a directory is in the place of one of its files, the files before it are there, and the
  others are as they were. -/
  blocked : ∀ failure path, out.failure = some failure → failure.blockedAt? = some path →
    ∃ before f after, files g label = before ++ f :: after ∧ path = Path.join directory f.1 ∧
      out.storage.find path = .ok .directory ∧ Touched s out.storage directory before ∧
      ∀ u ∈ f :: after, Spared s out.storage directory (place directory u.1)
  /-- Nothing else can stand in its way but the directory itself, and then no file has changed. -/
  refused : ∀ failure, out.failure = some failure → failure.blockedAt? = none →
    (∃ r, failure = .makeDirectory directory r) ∧
      ∀ loc bytes, out.storage.get? loc = some (.file bytes) ↔ s.get? loc = some (.file bytes)

namespace FrameLemmas

theorem touches_of_refused {r : Refusal} (refused : (s.makeMissing directory).refusal = some r)
    (g : Graph) (label : String) :
    Touches s g label directory (carryOut s (plan g label directory)) := by
  rw [carryOut_plan_of_refused refused]
  refine ⟨nofun, nofun, ?_, ?_⟩
  · intro failure path failed blocked
    cases failed
    contradiction
  · intro failure failed _
    cases failed
    exact ⟨⟨r, rfl⟩, fun _ _ => Storage.file_makeMissing_iff⟩

theorem touches_of_done (made : (s.makeMissing directory).refusal = none)
    (filled : Filled (s.makeMissing directory).storage
      (carryOut s (plan g label directory)).storage directory (files g label))
    (done : (carryOut s (plan g label directory)).failure = none) :
    Touches s g label directory (carryOut s (plan g label directory)) := by
  refine ⟨?_, ?_, ?_, ?_⟩
  · intro _
    exact touched_of_filled made filled (writes_plan g label directory).named
  · intro _
    have way := filled.opened (Storage.open_makeMissing made)
    obtain ⟨storage, failure⟩ := carryOut_plan_of_filled way filled.inside
    -- the log lines of a plan do not depend on the storage
    refine Exported.ext storage ?_ (failure.trans done.symm)
    rw [PlanLemmas.logs_carryOut failure, PlanLemmas.logs_carryOut done]
  · intro failure _ failed
    rw [done] at failed
    contradiction
  · intro failure failed
    rw [done] at failed
    contradiction

theorem touches_of_blocked {before after : List (String × String)}
    (made : (s.makeMissing directory).refusal = none)
    (split : files g label = before ++ f :: after)
    (filled : Filled (s.makeMissing directory).storage
      (carryOut s (plan g label directory)).storage directory before)
    (stopped : StoppedBefore (carryOut s (plan g label directory)) directory (f :: after)) :
    Touches s g label directory (carryOut s (plan g label directory)) := by
  obtain ⟨stopped, there⟩ := stopped
  obtain ⟨reason, failed, blockedAt⟩ := Option.bind_eq_some_iff.mp stopped
  obtain ⟨-, -, named, distinct⟩ := writes_plan g label directory
  rw [split] at named distinct
  have way := filled.opened (Storage.open_makeMissing made)
  refine ⟨?_, ?_, ?_, ?_⟩
  · rw [failed]
    nofun
  · rw [failed]
    nofun
  · intro failure path failed' blocked
    obtain rfl : reason = failure := Option.some.inj (failed.symm.trans failed')
    obtain rfl : path = Path.join directory f.1 := Option.some.inj (blocked.symm.trans blockedAt)
    refine ⟨before, f, after, split, rfl, ?_, ?_, ?_⟩
    · exact way.find_join (named f (List.mem_append_right _ List.mem_cons_self)) there
    · exact touched_of_filled made filled fun f mem => named f (List.mem_append_left _ mem)
    · intro u mem
      refine spared_of_filled filled fun clash => ?_
      rw [List.map_append] at distinct
      exact (List.nodup_append.mp distinct).2.2 u.1 clash u.1 (List.mem_map_of_mem mem) rfl
  · intro failure failed' other
    obtain rfl : reason = failure := Option.some.inj (failed.symm.trans failed')
    rw [blockedAt] at other
    contradiction

end FrameLemmas

/-- An export changes its own files only, one after the other. -/
theorem carryOut_touches (s : Storage) (g : Graph) (label directory : String) :
    Touches s g label directory (carryOut s (plan g label directory)) := by
  cases made : (s.makeMissing directory).refusal with
  | some r => exact touches_of_refused made g label
  | none =>
    obtain ⟨before, after, split, filled, stopped⟩ :=
      carryOut_files (writes_plan g label directory) (Storage.open_makeMissing made)
    obtain ⟨storage, failure⟩ := carryOut_plan_of_made made g label
    rw [← storage] at filled
    unfold StoppedBefore at stopped
    rw [← storage, ← failure] at stopped
    cases after with
    | nil =>
      rw [List.append_nil] at split
      rw [← split] at filled
      exact touches_of_done made filled stopped
    | cons f after => exact touches_of_blocked made split filled stopped

/-- A directory that has a longer table from before, and a file of another name. -/
def occupied : Storage :=
  ⟨[(["out"], .directory), (["out", "notes"], .file (Bytes.ofString "kept")),
    (["out", "nodes.csv"], .file (Bytes.ofString "id,label,line,name,path\na,File,,a,a\n"))]⟩

/-- The old table is replaced, on a way that makes a directory and leads back from it. Where a
directory has the name of the third file, the first two are written. -/
theorem carryOut_touches_occupied :
    (carryOut occupied (plan .empty usualLabel "out/deep/..")).failure = none ∧
      Touched occupied (carryOut occupied (plan .empty usualLabel "out/deep/..")).storage
        "out/deep/.." (files .empty usualLabel) ∧
      (carryOut (occupied.put ["out", "inherits.csv"] .directory)
        (plan .empty usualLabel "out")).failure =
          some (.createFile "out/inherits.csv" .isDirectory) ∧
      ∃ before f after, files .empty usualLabel = before ++ f :: after ∧
        "out/inherits.csv" = Path.join "out" f.1 ∧
        Touched (occupied.put ["out", "inherits.csv"] .directory)
          (carryOut (occupied.put ["out", "inherits.csv"] .directory)
            (plan .empty usualLabel "out")).storage "out" before := by
  have done : (carryOut occupied (plan .empty usualLabel "out/deep/..")).failure = none := by
    decide +kernel
  have failed : (carryOut (occupied.put ["out", "inherits.csv"] .directory)
      (plan .empty usualLabel "out")).failure =
        some (.createFile "out/inherits.csv" .isDirectory) := by
    decide +kernel
  obtain ⟨before, f, after, split, path, -, touched, -⟩ :=
    (carryOut_touches _ _ _ _).blocked _ _ failed rfl
  exact ⟨done, (carryOut_touches _ _ _ _).whole done, failed, before, f, after, split, path,
    touched⟩

/-- The way to the directory makes a directory where the first file is to be, so that file is not as
it was. -/
theorem carryOut_through_target :
    (carryOut .empty (plan .empty usualLabel "x/nodes.csv/..")).failure =
        some (.createFile "x/nodes.csv/../nodes.csv" .isDirectory) ∧
      place "x/nodes.csv/.." "nodes.csv" = ["x", "nodes.csv"] ∧
      Storage.empty.get? ["x", "nodes.csv"] = none ∧
      (carryOut .empty (plan .empty usualLabel "x/nodes.csv/..")).storage.get? ["x", "nodes.csv"] =
        some .directory := by
  decide +kernel

end Tables

end CodeAtlas
