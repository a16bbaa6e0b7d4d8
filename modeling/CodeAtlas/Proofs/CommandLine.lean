import CodeAtlas.CommandLine.Run
import CodeAtlas.Proofs.Counts

/-!
# Runs of a command line

A run reads its whole digest before it writes anything. So a digest that cannot be read leaves the
storage as it was, even if the fault is in its last line. Any other digest can be converted,
whatever its files are, and then only the storage can stand in the way. What a run prints in the end
is counted in the graph and not in the files, but the files have the same numbers: a conversion has
relationships of the exported kinds only, and each of these has its place in the output.

* `run_of_failed`, `run_of_converted`: what a run does without a graph, and with one.
* `wrote_carryOut`: an export writes as many nodes and relationships as there are.
* `respond_faithful`: the answer to a command line is true.
-/

namespace CodeAtlas.CommandLine

/-- No digest can be read at a path. -/
inductive Unreadable (s : Storage) (path : String) : Prop
  | missing {r : Refusal} : s.find path = .error r → Unreadable s path
  | directory : s.find path = .ok .directory → Unreadable s path
  | notText {bytes : Bytes} : s.find path = .ok (.file bytes) → ¬ bytes.IsText → Unreadable s path

/-- The output of a run, as it stands in a storage, has some number of nodes and some number of
relationships: rows of the tables, or what the document tells of itself. -/
def Options.Wrote (o : Options) (s : Storage) (nodes relationships : Nat) : Prop :=
  match o.format with
  | .neo4j => ∃ ns contains inherits calls,
      Tables.rows? s (Path.join o.output "nodes.csv") = some ns ∧
      Tables.rows? s (Path.join o.output "contains.csv") = some contains ∧
      Tables.rows? s (Path.join o.output "inherits.csv") = some inherits ∧
      Tables.rows? s (Path.join o.output "calls.csv") = some calls ∧
      nodes = ns.length ∧ relationships = contains.length + inherits.length + calls.length
  | .json => ∃ v, Document.stored? s (Path.join o.output "graph.json") = some v ∧
      Document.count? "nodes" v = some (.nat nodes) ∧
      Document.count? "relationships" v = some (.nat relationships)

namespace RunLemmas

variable {o : Options} {parse : Python.Parser} {s : Storage} {g : Graph}

/-! ## Digests -/

theorem not_unreadable_iff {path : String} :
    ¬ Unreadable s path ↔ ∃ bytes, s.find path = .ok (.file bytes) ∧ bytes.IsText := by
  constructor
  · intro h
    cases found : s.find path with
    | error r => exact absurd (.missing found) h
    | ok content =>
      cases content with
      | directory => exact absurd (.directory found) h
      | file bytes =>
        refine ⟨bytes, rfl, ?_⟩
        by_contra other
        exact h (.notText found other)
  · rintro ⟨bytes, found, text⟩ unreadable
    cases unreadable with
    | missing missing =>
      rw [found] at missing
      contradiction
    | directory directory =>
      rw [found] at directory
      cases Except.ok.inj directory
    | notText same other =>
      rw [found] at same
      obtain rfl := Content.file.inj (Except.ok.inj same)
      exact other text

theorem convertFound_of_unreadable (parse : Python.Parser) (h : Unreadable s o.digest) :
    ∃ f, (o.convertFound parse (s.find o.digest)).1 = .error f := by
  cases h with
  | missing found =>
    rw [found]
    exact ⟨_, rfl⟩
  | directory found =>
    rw [found]
    exact ⟨_, rfl⟩
  | notText found other =>
    rw [found]
    exact ⟨_, (o.converter parse).convert_of_not_isText other⟩

/-- A digest that can be read is converted, and its graph has no kinds but the exported ones. -/
theorem convertFound_of_readable (parse : Python.Parser) (h : ¬ Unreadable s o.digest) :
    ∃ g, ((o.converter parse).convertStored s o.digest).result = .ok g ∧
      (o.convertFound parse (s.find o.digest)).1 = .ok g ∧
      g.Grouped ∧ ∀ kind ∈ g.kinds, kind ∈ RelationKind.exported := by
  obtain ⟨bytes, found, text⟩ := not_unreadable_iff.mp h
  have converted := (o.converter parse).convert_of_isText text
  rw [Converter.convertStored, found]
  exact ⟨_, converted, converted, Graph.grouped_addAll_empty _,
    fun _ hk => CountsLemmas.kinds_exported _ _ hk⟩

/-! ## Runs -/

/-- A run without a graph changes nothing. -/
theorem run_of_failed {f : Failure} (h : (o.convertFound parse (s.find o.digest)).1 = .error f) :
    (o.run parse s).storage = s ∧ (o.run parse s).result = .error f := by
  unfold Options.run
  cases converted : o.convertFound parse (s.find o.digest) with
  | mk result logs =>
    rw [converted] at h
    subst h
    exact ⟨rfl, rfl⟩

/-- A run with a graph exports it. -/
theorem run_of_converted (h : (o.convertFound parse (s.find o.digest)).1 = .ok g) :
    (o.run parse s).storage = (carryOut s (o.plan g)).storage ∧
      (o.run parse s).result =
        match (carryOut s (o.plan g)).failure with
        | some f => .error f
        | none => .ok (o.farewell g) := by
  unfold Options.run
  cases converted : o.convertFound parse (s.find o.digest) with
  | mk result logs =>
    rw [converted] at h
    subst h
    dsimp only
    cases (carryOut s (o.plan g)).failure with
    | some f => exact ⟨rfl, rfl⟩
    | none => exact ⟨rfl, rfl⟩

/-! ## Output -/

theorem wrote_carryOut (done : (carryOut s (o.plan g)).failure = none) (grouped : g.Grouped)
    (exported : ∀ kind ∈ g.kinds, kind ∈ RelationKind.exported) :
    o.Wrote (carryOut s (o.plan g)).storage g.nodeCount g.relationshipCount := by
  have all : g.relationshipCount = Document.exportedCount g := by
    rw [CountsLemmas.relationshipCount_eq_exported grouped,
      CountsLemmas.unexportedCount_eq_zero exported, Nat.add_zero]
  rw [all]
  unfold Options.Wrote
  unfold Options.plan at done ⊢
  cases format : o.format with
  | neo4j =>
    simp only [format] at done ⊢
    refine ⟨_, _, _, _, Tables.rows?_nodes_carryOut done, Tables.rows?_carryOut done .contains rfl,
      Tables.rows?_carryOut done .inherits rfl, Tables.rows?_carryOut done .calls rfl, ?_, ?_⟩
    · rw [List.length_map, Array.length_toList]
      rfl
    · rw [CountsLemmas.exportedCount_eq]
      simp only [List.length_map]
  | json =>
    simp only [format] at done ⊢
    exact ⟨_, Document.stored?_carryOut done, rfl, rfl⟩

/-! ## Answers -/

variable {arguments : List String}

theorem respond_of_error {f : Failure} (accepted : Request.read arguments = .ok (.run o))
    (environment : Option String) (h : (o.run parse s).result = .error f) :
    (respond parse arguments environment s).exit = 1 ∧
      (respond parse arguments environment s).report = some f.report ∧
      (respond parse arguments environment s).stdout = "" ∧
      (respond parse arguments environment s).storage = (o.run parse s).storage := by
  unfold respond
  rw [accepted]
  dsimp only
  rw [h]
  exact ⟨rfl, rfl, rfl, rfl⟩

theorem respond_of_ok {text : String} (accepted : Request.read arguments = .ok (.run o))
    (environment : Option String) (h : (o.run parse s).result = .ok text) :
    (respond parse arguments environment s).exit = 0 ∧
      (respond parse arguments environment s).stdout = text ∧
      (respond parse arguments environment s).storage = (o.run parse s).storage := by
  unfold respond
  rw [accepted]
  dsimp only
  rw [h]
  exact ⟨rfl, rfl, rfl⟩

end RunLemmas

open RunLemmas in
/-- A command line fails clean or tells the truth. If no digest can be read, the answer is a
failure, nothing is printed, and the storage is what it was. Any other digest is converted, whatever
its files are, and the run succeeds if and only if the export is not refused. It prints how many
nodes and relationships there are in the files that it has written. -/
theorem respond_faithful {arguments : List String} {o : Options}
    (accepted : Request.read arguments = .ok (.run o)) (parse : Python.Parser)
    (environment : Option String) (s : Storage) :
    let response := respond parse arguments environment s
    (Unreadable s o.digest →
      response.exit = 1 ∧ response.report.isSome ∧ response.stdout = "" ∧ response.storage = s) ∧
    (¬ Unreadable s o.digest → ∃ g,
      ((o.converter parse).convertStored s o.digest).result = .ok g ∧
      (response.exit = 0 ↔ (carryOut s (o.plan g)).failure = none) ∧
      (response.exit = 0 → ∃ nodes relationships,
        response.stdout = "Written " ++ Nat.repr nodes ++ " nodes and " ++
          Nat.repr relationships ++ " relationships to " ++ o.output ++ "\n" ∧
        o.Wrote response.storage nodes relationships)) := by
  intro response
  constructor
  · intro unreadable
    obtain ⟨f, failed⟩ := convertFound_of_unreadable parse unreadable
    obtain ⟨storage, result⟩ := run_of_failed failed
    obtain ⟨exit, report, stdout, same⟩ := respond_of_error accepted environment result
    exact ⟨exit, Option.isSome_of_eq_some report, stdout, same.trans storage⟩
  · intro readable
    obtain ⟨g, converted, first, grouped, exported⟩ := convertFound_of_readable parse readable
    obtain ⟨storage, result⟩ := run_of_converted first
    refine ⟨g, converted, ?_⟩
    cases failure : (carryOut s (o.plan g)).failure with
    | some f =>
      rw [failure] at result
      obtain ⟨exit, -⟩ := respond_of_error accepted environment result
      have failed : response.exit ≠ 0 := exit ▸ Nat.one_ne_zero
      exact ⟨iff_of_false failed (Option.some_ne_none f), fun zero => absurd zero failed⟩
    | none =>
      rw [failure] at result
      obtain ⟨exit, stdout, same⟩ := respond_of_ok accepted environment result
      refine ⟨iff_of_true exit rfl, fun _ => ⟨_, _, stdout, ?_⟩⟩
      rw [same, storage]
      exact wrote_carryOut failure grouped exported

namespace RunLemmas

open AnchoredLemmas

/-- A digest, and the same digest with one more byte, which is not UTF-8. -/
def samples : Storage :=
  ⟨[(["digest"], .file digest), (["broken"], .file (digest ++ [255]))]⟩

/-- The options of the sample runs. -/
def options (format : Format) : Options := { digest := "digest", output := "out", format }

theorem unreadable_broken : Unreadable samples "broken" :=
  .notText rfl (by decide +kernel)

theorem readable_digest : ¬ Unreadable samples "digest" :=
  not_unreadable_iff.mpr ⟨digest, rfl, by decide +kernel⟩

theorem done_of_converted (format : Format)
    (h : (((options format).converter converter.parse).convertStored samples "digest").result =
      .ok g) :
    (carryOut samples ((options format).plan g)).failure = none := by
  obtain ⟨-, made⟩ := Converter.convert_eq_ok_iff.mp h
  rw [walk_digest.2] at made
  subst made
  cases format with
  | neo4j => decide +kernel
  | json => decide +kernel

end RunLemmas

open RunLemmas AnchoredLemmas in
theorem respond_faithful_samples :
    (let response := respond converter.parse ["broken", "out"] none samples
     response.exit = 1 ∧ response.report.isSome ∧ response.stdout = "" ∧
       response.storage = samples) ∧
    (let response := respond converter.parse ["digest", "out"] none samples
     response.exit = 0 ∧ ∃ nodes relationships,
       response.stdout = "Written " ++ Nat.repr nodes ++ " nodes and " ++
         Nat.repr relationships ++ " relationships to " ++ "out" ++ "\n" ∧
       (options .neo4j).Wrote response.storage nodes relationships) ∧
    (let response := respond converter.parse ["-fjson", "digest", "out"] (some "info") samples
     response.exit = 0 ∧ ∃ nodes relationships,
       response.stdout = "Written " ++ Nat.repr nodes ++ " nodes and " ++
         Nat.repr relationships ++ " relationships to " ++ "out" ++ "\n" ∧
       (options .json).Wrote response.storage nodes relationships) := by
  refine ⟨?_, ?_, ?_⟩
  · have accepted : Request.read ["broken", "out"] =
        .ok (.run { digest := "broken", output := "out" }) := rfl
    exact (respond_faithful accepted converter.parse none samples).1 unreadable_broken
  · have accepted : Request.read ["digest", "out"] = .ok (.run (options .neo4j)) := rfl
    obtain ⟨g, converted, exit, told⟩ :=
      (respond_faithful accepted converter.parse none samples).2 readable_digest
    have done := exit.mpr (done_of_converted .neo4j converted)
    obtain ⟨nodes, relationships, stdout, wrote⟩ := told done
    exact ⟨done, nodes, relationships, stdout, wrote⟩
  · have accepted : Request.read ["-fjson", "digest", "out"] = .ok (.run (options .json)) := rfl
    obtain ⟨g, converted, exit, told⟩ :=
      (respond_faithful accepted converter.parse (some "info") samples).2 readable_digest
    have done := exit.mpr (done_of_converted .json converted)
    obtain ⟨nodes, relationships, stdout, wrote⟩ := told done
    exact ⟨done, nodes, relationships, stdout, wrote⟩

end CodeAtlas.CommandLine
