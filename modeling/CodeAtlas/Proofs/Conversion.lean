import CodeAtlas.Convert
import CodeAtlas.Proofs.Digest.Joined
import CodeAtlas.Proofs.Graph.Entries
import CodeAtlas.Proofs.Python.Faults
import CodeAtlas.Proofs.Text.Encoding

/-!
# Conversions as lists of entries

A converter reads and writes its counters and its log while it adds files to a graph. The graph
depends on neither: each file adds a list of entries that its path and content alone decide, given
how the converter reads files.

* `processChunk_eq`: what one file does, and that it does not end the conversion.
* `graph_processAll`: files one after the other add their entries one after the other.
* `convert_eq_ok_iff`, `convert_of_isText`: when a conversion succeeds, and with which graph.
* `convert_of_not_isText`, `convert_refused_iff`: how and when it fails.
* `counters_convert`: the counters tell how many files there were, and what became of them.
-/

namespace CodeAtlas

namespace Converter

/-- The tree of a file, if the file is read as Python and has no fault. -/
def tree? (c : Converter) (chunk : Digest.Chunk) : Option Python.Tree :=
  match c.extensions.language? chunk.path with
  | none => none
  | some _ => (Python.treeOf c.parse chunk.content).toOption

/-- What a file adds to a graph: its node, and the outline of its tree if it has one. -/
def entries (c : Converter) (chunk : Digest.Chunk) : List Entry :=
  .node (fileNode chunk.path) ::
    match c.tree? chunk with
    | none => []
    | some t => Python.outline chunk.path .module t

/-- A file is read as Python and has no fault. -/
def accepts (c : Converter) (chunk : Digest.Chunk) : Bool :=
  (c.extensions.language? chunk.path).isSome && (Python.treeOf c.parse chunk.content).isOk

/-- A file is read as Python and has a fault. -/
def rejects (c : Converter) (chunk : Digest.Chunk) : Bool :=
  (c.extensions.language? chunk.path).isSome && !(Python.treeOf c.parse chunk.content).isOk

theorem tree?_eq_some_iff {c : Converter} {chunk : Digest.Chunk} {t : Python.Tree} :
    c.tree? chunk = some t ↔ (c.extensions.language? chunk.path).isSome = true ∧
      Python.treeOf c.parse chunk.content = .ok t := by
  unfold tree?
  cases c.extensions.language? chunk.path with
  | none => simp
  | some language => cases Python.treeOf c.parse chunk.content <;> simp [Except.toOption]

/-! ## One file -/

section

variable {p : Progress} {chunk : Digest.Chunk}

theorem addOutline_of_ok {t : Python.Tree}
    (h : Python.treeOf p.converter.parse chunk.content = .ok t) (language : Language) :
    addOutline p language chunk =
      { p with
        converter :=
          { p.converter with counters.parsed := p.converter.counters.parsed + 1 }
        graph := p.graph.addAll (Python.outline chunk.path .module t) } := by
  simp only [addOutline, Python.extract_of_ok h]

/-- A file with a fault is counted as rejected and logged, and that is all. -/
theorem addOutline_of_error {f : Python.ParseFailure}
    (h : Python.treeOf p.converter.parse chunk.content = .error f) (language : Language) :
    addOutline p language chunk =
      { p with
        converter :=
          { p.converter with counters.rejected := p.converter.counters.rejected + 1 }
        logs := p.logs ++ [⟨.debug, "Skipping " ++ language.name ++ " internals of " ++
          chunk.path ++ ": " ++ f.message⟩] } := by
  simp only [addOutline, Python.extract_of_error h, Python.isRecoverable_of_treeOf h, if_true]

end

section

variable (c : Converter) (chunk : Digest.Chunk) (g : Graph)

/-- What one file does: it is counted, its entries are added, and something may be logged. No file
ends a conversion, since whatever a text is not taken as Python for can be recovered from. -/
theorem processChunk_eq :
    ∃ logs, c.processChunk chunk g =
      { converter :=
          { c with
            counters :=
              { files := c.counters.files + 1
                parsed := c.counters.parsed + if c.accepts chunk then 1 else 0
                rejected := c.counters.rejected + if c.rejects chunk then 1 else 0 } }
        graph := g.addAll (c.entries chunk)
        logs
        failure := none } := by
  unfold processChunk accepts rejects entries tree?
  cases c.extensions.language? chunk.path with
  | none => exact ⟨_, rfl⟩
  | some language =>
    cases tree : Python.treeOf c.parse chunk.content with
    | ok t => exact ⟨_, addOutline_of_ok (p := c.countFile chunk.path g) tree language⟩
    | error f => exact ⟨_, addOutline_of_error (p := c.countFile chunk.path g) tree language⟩

theorem graph_processChunk : (c.processChunk chunk g).graph = g.addAll (c.entries chunk) := by
  obtain ⟨logs, h⟩ := c.processChunk_eq chunk g
  rw [h]

theorem failure_processChunk : (c.processChunk chunk g).failure = none := by
  obtain ⟨logs, h⟩ := c.processChunk_eq chunk g
  rw [h]

theorem counters_processChunk :
    (c.processChunk chunk g).converter.counters =
      { files := c.counters.files + 1
        parsed := c.counters.parsed + if c.accepts chunk then 1 else 0
        rejected := c.counters.rejected + if c.rejects chunk then 1 else 0 } := by
  obtain ⟨logs, h⟩ := c.processChunk_eq chunk g
  rw [h]

/-- A file changes the counters of a converter and nothing else. -/
theorem converter_processChunk :
    ∃ counters, (c.processChunk chunk g).converter = { c with counters } := by
  obtain ⟨logs, h⟩ := c.processChunk_eq chunk g
  exact ⟨_, congrArg Progress.converter h⟩

theorem entries_processChunk : (c.processChunk chunk g).converter.entries = c.entries := by
  obtain ⟨counters, h⟩ := c.converter_processChunk chunk g
  rw [h]
  rfl

end

/-! ## Files one after the other -/

theorem processAll_cons (p : Progress) (chunk : Digest.Chunk) (rest : List Digest.Chunk) :
    processAll p (chunk :: rest) =
      let q := p.converter.processChunk chunk p.graph
      processAll { q with logs := p.logs ++ q.logs } rest := by
  simp only [processAll, failure_processChunk]

theorem failure_processAll {p : Progress} (h : p.failure = none) (chunks : List Digest.Chunk) :
    (processAll p chunks).failure = none := by
  induction chunks generalizing p with
  | nil => exact h
  | cons chunk rest ih =>
    rw [processAll_cons]
    exact ih (failure_processChunk p.converter chunk p.graph)

theorem graph_processAll (p : Progress) (chunks : List Digest.Chunk) :
    (processAll p chunks).graph = p.graph.addAll (chunks.flatMap p.converter.entries) := by
  induction chunks generalizing p with
  | nil => rfl
  | cons chunk rest ih =>
    rw [processAll_cons, ih]
    dsimp only
    rw [graph_processChunk, entries_processChunk, List.flatMap_cons, Graph.addAll_append]

/-! ## Digests -/

/-- A conversion ends with the last file or at a line that cannot be read, and not before. -/
theorem convert_eq (c : Converter) (digest : Bytes) :
    c.convert digest =
      let p := processAll { converter := { c with counters := {} }, graph := .empty }
        (Digest.walk digest).chunks
      match (Digest.walk digest).fault with
      | some .notText => ⟨p.converter, .error (.readDigest .notText), p.logs⟩
      | none => ⟨p.converter, .ok p.graph, p.logs ++ [summary p.converter.counters p.graph]⟩ := by
  have unfailed := failure_processAll
    (p := { converter := { c with counters := {} }, graph := .empty }) rfl
    (Digest.walk digest).chunks
  simp only [convert, unfailed]
  cases (Digest.walk digest).fault with
  | none => rfl
  | some f => rfl

/-- A conversion succeeds if the digest can be read to its end, whatever its files are. -/
theorem convert_eq_ok_iff {c : Converter} {digest : Bytes} {g : Graph} :
    (c.convert digest).result = .ok g ↔
      (Digest.walk digest).fault = none ∧
        g = Graph.empty.addAll ((Digest.walk digest).chunks.flatMap c.entries) := by
  rw [convert_eq]
  dsimp only
  cases (Digest.walk digest).fault with
  | none =>
    simp only [graph_processAll, Except.ok.injEq, true_and]
    exact eq_comm
  | some f =>
    cases f
    simp

theorem convert_of_isText (c : Converter) {digest : Bytes} (h : digest.IsText) :
    (c.convert digest).result =
      .ok (Graph.empty.addAll ((Digest.walk digest).chunks.flatMap c.entries)) := by
  refine convert_eq_ok_iff.mpr ⟨?_, rfl⟩
  rw [Digest.walk_of_isText h]

theorem convert_of_not_isText (c : Converter) {digest : Bytes} (h : ¬ digest.IsText) :
    (c.convert digest).result = .error (.readDigest .notText) := by
  rw [convert_eq]
  dsimp only
  split
  · rfl
  · next unfaulted => exact absurd (Digest.fault_walk_eq_none_iff.mp unfaulted) h

/-- A digest is refused exactly if it is not UTF-8. Whatever the files in it are, how they are read,
which of them are read and whether they are accepted, a conversion fails if and only if the bytes of
the whole digest are not well formed, and then it says so. -/
theorem convert_refused_iff (c : Converter) (digest : Bytes) :
    ((∃ f, (c.convert digest).result = .error f) ↔ ¬ digest.WellFormed) ∧
    ∀ f, (c.convert digest).result = .error f ↔
      ¬ digest.WellFormed ∧ f = .readDigest .notText := by
  have told : ∀ f, (c.convert digest).result = .error f ↔
      ¬ digest.WellFormed ∧ f = .readDigest .notText := by
    intro f
    rw [Bytes.wellFormed_iff]
    by_cases text : digest.IsText
    · rw [c.convert_of_isText text]
      exact iff_of_false nofun fun refused => refused.1 text
    · rw [c.convert_of_not_isText text, Except.error.injEq]
      constructor
      · intro same
        exact ⟨text, same.symm⟩
      · intro refused
        exact refused.2.symm
  refine ⟨?_, told⟩
  constructor
  · rintro ⟨f, refused⟩
    exact ((told f).mp refused).1
  · intro malformed
    exact ⟨_, (told _).mpr ⟨malformed, rfl⟩⟩

/-! ## Counters -/

theorem counters_processAll (p : Progress) (chunks : List Digest.Chunk) :
    (processAll p chunks).converter.counters =
      { files := p.converter.counters.files + chunks.length
        parsed := p.converter.counters.parsed + chunks.countP p.converter.accepts
        rejected := p.converter.counters.rejected + chunks.countP p.converter.rejects } := by
  induction chunks generalizing p with
  | nil => rfl
  | cons chunk rest ih =>
    have here := p.converter.counters_processChunk chunk p.graph
    obtain ⟨counters, same⟩ := p.converter.converter_processChunk chunk p.graph
    have accepts : (p.converter.processChunk chunk p.graph).converter.accepts =
        p.converter.accepts := by rw [same]; rfl
    have rejects : (p.converter.processChunk chunk p.graph).converter.rejects =
        p.converter.rejects := by rw [same]; rfl
    rw [processAll_cons, ih]
    dsimp only
    rw [here, accepts, rejects, List.length_cons, List.countP_cons, List.countP_cons]
    simp only [Counters.mk.injEq]
    omega

/-- A fault of the digest does not undo what the files before it did to the converter. -/
theorem converter_convert (c : Converter) (digest : Bytes) :
    (c.convert digest).converter =
      (processAll { converter := { c with counters := {} }, graph := .empty }
        (Digest.walk digest).chunks).converter := by
  rw [convert_eq]
  dsimp only
  cases (Digest.walk digest).fault with
  | none => rfl
  | some f =>
    cases f
    rfl

/-- The counters start anew with every digest, and a fault of the digest does not set them back. -/
theorem counters_convert (c : Converter) (digest : Bytes) :
    (c.convert digest).converter.counters =
      { files := (Digest.walk digest).chunks.length
        parsed := (Digest.walk digest).chunks.countP c.accepts
        rejected := (Digest.walk digest).chunks.countP c.rejects } := by
  rw [converter_convert, counters_processAll]
  simp only [Nat.zero_add]
  rfl

end Converter

end CodeAtlas
