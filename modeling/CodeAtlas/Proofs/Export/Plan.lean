import CodeAtlas.Export.Plan
import CodeAtlas.Proofs.Storage

/-!
# Plans that were carried out

When no step of a plan is refused, its log lines are those of the plan (`logs_carryOut`), and all
files that it writes are there in the end (`find_carryOut`), if no two of them have the same name.
-/

namespace CodeAtlas

/-- The path and the text of what a step writes. -/
def ExportStep.written? : ExportStep → Option (String × String)
  | .table path text => some (path, text)
  | .document path text => some (path, text)
  | _ => none

attribute [ext] Exported

namespace PlanLemmas

open ExportStep

variable {s s' : Storage} {step : ExportStep} {steps : List ExportStep}

theorem mapError_eq_ok {α ε ε' : Type} {f : ε → ε'} {x : Except ε α} {a : α}
    (h : x.mapError f = .ok a) : x = .ok a := by
  cases x with
  | error e => contradiction
  | ok b => exact congrArg Except.ok (Except.ok.inj h)

theorem write_of_apply {w : String × String} (h : step.apply s = .ok s')
    (written : step.written? = some w) : s.write w.1 (Bytes.ofString w.2) = .ok s' := by
  cases step with
  | makeDirectories path => contradiction
  | table path text =>
    obtain rfl := Option.some.inj written
    exact mapError_eq_ok h
  | document path text =>
    obtain rfl := Option.some.inj written
    exact mapError_eq_ok h
  | log line => contradiction

/-- A step leaves a file as it is, unless it writes a file of that name. -/
theorem find_of_apply {path : String} {bytes : Bytes} (h : step.apply s = .ok s')
    (apart : ∀ w, step.written? = some w → Path.Apart w.1 path)
    (found : s.find path = .ok (.file bytes)) : s'.find path = .ok (.file bytes) := by
  cases step with
  | makeDirectories directory => exact Storage.find_of_makeDirectories (mapError_eq_ok h) found
  | table p text =>
    exact Storage.find_of_write_other (write_of_apply h rfl) (apart (p, text) rfl) found
  | document p text =>
    exact Storage.find_of_write_other (write_of_apply h rfl) (apart (p, text) rfl) found
  | log line => exact Except.ok.inj h ▸ found

/-- The first step of a plan was carried out, and then the others. -/
theorem carryOut_cons (done : (carryOut s (step :: steps)).failure = none) :
    ∃ s', step.apply s = .ok s' ∧ (carryOut s' steps).failure = none ∧
      (carryOut s (step :: steps)).storage = (carryOut s' steps).storage ∧
      (carryOut s (step :: steps)).logs = step.logLines ++ (carryOut s' steps).logs := by
  rw [carryOut] at done ⊢
  cases h : step.apply s with
  | error f => simp [h] at done
  | ok s' =>
    rw [h] at done
    exact ⟨s', rfl, done, rfl, rfl⟩

theorem logs_carryOut (done : (carryOut s steps).failure = none) :
    (carryOut s steps).logs = steps.flatMap logLines := by
  induction steps generalizing s with
  | nil => rfl
  | cons step steps ih =>
    obtain ⟨s', -, done, -, logs⟩ := carryOut_cons done
    rw [logs, ih done, List.flatMap_cons]

theorem find_carryOut_of_found {path : String} {bytes : Bytes}
    (done : (carryOut s steps).failure = none)
    (apart : ∀ w ∈ steps.filterMap written?, Path.Apart w.1 path)
    (found : s.find path = .ok (.file bytes)) :
    (carryOut s steps).storage.find path = .ok (.file bytes) := by
  induction steps generalizing s with
  | nil => exact found
  | cons step steps ih =>
    obtain ⟨s', applied, done, storage, -⟩ := carryOut_cons done
    have here : ∀ w, step.written? = some w → Path.Apart w.1 path := by
      intro w hw
      exact apart w (List.mem_filterMap.mpr ⟨step, List.mem_cons_self, hw⟩)
    have rest : ∀ w ∈ steps.filterMap written?, Path.Apart w.1 path := by
      intro w hw
      obtain ⟨step', mem, hw⟩ := List.mem_filterMap.mp hw
      exact apart w (List.mem_filterMap.mpr ⟨step', List.mem_cons_of_mem _ mem, hw⟩)
    rw [storage]
    exact ih done rest (find_of_apply applied here found)

end PlanLemmas

open PlanLemmas in
/-- What a plan writes is there in the end, if its files have different names. -/
theorem find_carryOut {s : Storage} {steps : List ExportStep}
    (done : (carryOut s steps).failure = none)
    (apart : (steps.filterMap ExportStep.written?).Pairwise fun v w => Path.Apart w.1 v.1)
    {w : String × String} (hw : w ∈ steps.filterMap ExportStep.written?) :
    (carryOut s steps).storage.find w.1 = .ok (.file (Bytes.ofString w.2)) := by
  induction steps generalizing s with
  | nil => exact absurd hw List.not_mem_nil
  | cons step steps ih =>
    obtain ⟨s', applied, done, storage, -⟩ := carryOut_cons done
    rw [storage]
    cases written : step.written? with
    | none =>
      rw [List.filterMap_cons_none written] at apart hw
      exact ih done apart hw
    | some v =>
      rw [List.filterMap_cons_some written] at apart hw
      obtain ⟨first, apart⟩ := List.pairwise_cons.mp apart
      rcases List.mem_cons.mp hw with rfl | hw
      · exact find_carryOut_of_found done first
          (Storage.find_of_write (write_of_apply applied written))
      · exact ih done apart hw

end CodeAtlas
