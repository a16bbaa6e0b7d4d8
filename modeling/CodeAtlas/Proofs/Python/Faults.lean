import CodeAtlas.Proofs.Python.Places
import CodeAtlas.Python.Extract

/-!
# First faults

A tree is searched twice before its outline is made. The search for faults enters a node only where
there is a fault below. The search for statements of Python 2 enters only named nodes, and what it
finds counts only if the first search finds nothing. Neither overlooks anything: both find what a
reader of all nodes in pre-order comes across first. The second one needs that no named node is
below an anonymous one (`Tree.Layered`).

* `hasFault_iff`: a tree has a fault if one of its nodes is one.
* `firstFault_eq`, `firstOfKinds_eq`: the two searches and pre-order.
* `extract_of_ok`, `extract_of_error`: what comes of an extraction.
* `extract_offender`: which files are rejected, and which line is told.
-/

namespace CodeAtlas.Python

namespace Tree

/-- Nothing below an anonymous node is named. -/
def Layered (t : Tree) : Prop :=
  ∀ s ∈ t.nodes, s.isNamed = false → ∀ n ∈ s.nodes, n.isNamed = false

instance (t : Tree) : Decidable t.Layered :=
  inferInstanceAs (Decidable (∀ s ∈ t.nodes, s.isNamed = false → ∀ n ∈ s.nodes, n.isNamed = false))

/-- The named nodes in pre-order. The root counts as one of them, as in syntax trees it is. -/
def namedNodes (t : Tree) : List Tree := t :: (nodesAll t.children).filter isNamed

/-- A statement that only Python 2 has. -/
def isLegacy (t : Tree) : Bool :=
  t.kind == .phrase .printStatement || t.kind == .phrase .execStatement

end Tree

namespace FaultsLemmas

open CodeAtlas.Python.Tree PlacesLemmas

/-! ## Searches and lists of nodes -/

theorem namedNodes_eq {t : Tree} (h : t.isNamed = true) :
    t.namedNodes = t.nodes.filter isNamed := by
  rw [namedNodes, nodesAll_eq, nodes_eq, List.filter_cons_of_pos h]

/-- To search trees one after the other is to search their nodes. -/
theorem findSome?_eq_find? {ts : List Tree} {search : Tree → Option Nat}
    {members : Tree → List Tree} {p : Tree → Bool}
    (h : ∀ t ∈ ts, search t = ((members t).find? p).map row) :
    ts.findSome? search = ((ts.flatMap members).find? p).map row := by
  induction ts with
  | nil => rfl
  | cons t ts ih =>
    have here := h t List.mem_cons_self
    have rest := ih fun t ht => h t (List.mem_cons_of_mem _ ht)
    rw [List.findSome?_cons, here, rest, List.flatMap_cons, List.find?_append]
    cases (members t).find? p with
    | none => rfl
    | some n => rfl

/-! ## Faults -/

theorem anyFault_eq (ts : List Tree) : anyFault ts = ts.any hasFault := by
  induction ts with
  | nil => rw [anyFault, List.any_nil]
  | cons t ts ih => rw [anyFault, ih, List.any_cons]

theorem hasFault_eq (t : Tree) : t.hasFault = (t.isFault || t.children.any hasFault) := by
  obtain ⟨info, children⟩ := t
  rw [hasFault, anyFault_eq]
  rfl

theorem hasFault_iff {t : Tree} : t.hasFault = true ↔ ∃ n ∈ t.nodes, n.isFault = true := by
  induction t using Tree.child_induction with
  | step t ih =>
    rw [hasFault_eq, Bool.or_eq_true, List.any_eq_true, nodes_eq]
    constructor
    · rintro (here | ⟨c, hc, below⟩)
      · exact ⟨t, List.mem_cons_self, here⟩
      · obtain ⟨n, hn, fault⟩ := (ih c hc).mp below
        exact ⟨n, List.mem_cons_of_mem _ (List.mem_flatMap.mpr ⟨c, hc, hn⟩), fault⟩
    · rintro ⟨n, hn, fault⟩
      rcases List.mem_cons.mp hn with rfl | hn
      · exact .inl fault
      · obtain ⟨c, hc, hn⟩ := List.mem_flatMap.mp hn
        exact .inr ⟨c, hc, (ih c hc).mpr ⟨n, hn, fault⟩⟩

theorem firstFaultIn_eq (ts : List Tree) : firstFaultIn ts = ts.findSome? firstFault := by
  induction ts with
  | nil => rw [firstFaultIn, List.findSome?_nil]
  | cons t ts ih =>
    rw [firstFaultIn, ih, List.findSome?_cons]
    cases t.firstFault with
    | none => rfl
    | some row => rfl

theorem firstFault_eq_ite (t : Tree) :
    t.firstFault =
      if t.isFault then some t.row
      else if t.hasFault then t.children.findSome? firstFault
      else none := by
  obtain ⟨info, children⟩ := t
  rw [firstFault, firstFaultIn_eq]
  rfl

/-- The search that enters no subtree without a fault finds the first fault of all. -/
theorem firstFault_eq (t : Tree) : t.firstFault = (t.nodes.find? isFault).map row := by
  induction t using Tree.child_induction with
  | step t ih =>
    rw [firstFault_eq_ite, nodes_eq, List.find?_cons]
    cases t.isFault with
    | true => rfl
    | false =>
      show _ = ((t.children.flatMap nodes).find? isFault).map row
      rw [← findSome?_eq_find? ih]
      cases below : t.hasFault with
      | true => rfl
      | false =>
        -- no child has a fault either, so the search that was left out finds nothing
        symm
        refine List.findSome?_eq_none_iff.mpr fun c hc => ?_
        rw [ih c hc, Option.map_eq_none_iff, List.find?_eq_none]
        intro n hn fault
        have known := hasFault_iff.mpr ⟨n, mem_nodes_of_child hc hn, fault⟩
        rw [below] at known
        contradiction

/-! ## Statements of Python 2 -/

theorem firstOfKindsIn_eq (kinds : List Kind) (ts : List Tree) :
    firstOfKindsIn kinds ts =
      ts.findSome? fun t => if t.isNamed then t.firstOfKinds kinds else none := by
  induction ts with
  | nil => rw [firstOfKindsIn, List.findSome?_nil]
  | cons t ts ih =>
    rw [firstOfKindsIn, ih, List.findSome?_cons]
    cases (if t.isNamed then t.firstOfKinds kinds else none) with
    | none => rfl
    | some row => rfl

theorem firstOfKinds_eq_ite (kinds : List Kind) (t : Tree) :
    t.firstOfKinds kinds =
      if kinds.contains t.kind then some t.row
      else t.children.findSome? fun c => if c.isNamed then c.firstOfKinds kinds else none := by
  obtain ⟨info, children⟩ := t
  rw [firstOfKinds, firstOfKindsIn_eq]
  rfl

theorem layered_child {t c : Tree} (h : t.Layered) (hc : c ∈ t.children) : c.Layered :=
  fun s hs => h s (mem_nodes_of_child hc hs)

/-- The search that enters no anonymous node finds the first of all named nodes. -/
theorem firstOfKinds_eq (kinds : List Kind) {t : Tree} (h : t.Layered) :
    t.firstOfKinds kinds = (t.namedNodes.find? (kinds.contains ·.kind)).map row := by
  induction t using Tree.child_induction with
  | step t ih =>
    rw [firstOfKinds_eq_ite, namedNodes, nodesAll_eq, List.filter_flatMap, List.find?_cons]
    cases here : kinds.contains t.kind with
    | true => rfl
    | false =>
      refine findSome?_eq_find? fun c hc => ?_
      cases named : c.isNamed with
      | true =>
        rw [← namedNodes_eq named]
        exact ih c hc (layered_child h hc)
      | false =>
        have none : c.nodes.filter isNamed = [] := by
          rw [List.filter_eq_nil_iff]
          intro n hn
          have anonymous := h c (mem_nodes_of_child hc (mem_nodes_self c)) named n hn
          simp [anonymous]
        rw [none]
        rfl

theorem isLegacy_eq : (fun n : Tree => legacyStatements.contains n.kind) = isLegacy := by
  funext n
  unfold legacyStatements isLegacy
  rw [List.contains_cons, List.contains_cons, List.contains_nil, Bool.or_false]

theorem firstLegacy_eq {t : Tree} (h : t.Layered) :
    t.firstOfKinds legacyStatements = (t.namedNodes.find? isLegacy).map row := by
  rw [firstOfKinds_eq legacyStatements h, isLegacy_eq]

/-- The line of a tree is that of its first offender: the first fault if there is one, and else the
first statement of Python 2. -/
theorem faultLine?_eq {t : Tree} (h : t.Layered) :
    faultLine? t = ((t.nodes.find? isFault).or (t.namedNodes.find? isLegacy)).map (·.row + 1) := by
  unfold faultLine?
  cases first : t.nodes.find? isFault with
  | some n =>
    have known : t.hasFault = true :=
      hasFault_iff.mpr ⟨n, List.mem_of_find?_eq_some first, List.find?_some first⟩
    rw [if_pos known, firstFault_eq, first]
    rfl
  | none =>
    have clean : ¬ t.hasFault = true := by
      intro known
      obtain ⟨n, hn, fault⟩ := hasFault_iff.mp known
      exact List.find?_eq_none.mp first n hn fault
    rw [if_neg clean, firstLegacy_eq h, Option.map_map]
    rfl

end FaultsLemmas

/-! ## Extraction -/

section

variable {parse : Parser} {source : String} {t : Tree} {f : ParseFailure}

theorem treeOf_eq_ok_iff :
    treeOf parse source = .ok t ↔ parse source = some t ∧ faultLine? t = none := by
  unfold treeOf
  cases parse source with
  | none => exact ⟨nofun, nofun⟩
  | some s =>
    dsimp only
    cases line : faultLine? s with
    | some n =>
      refine ⟨nofun, ?_⟩
      rintro ⟨same, clean⟩
      obtain rfl := Option.some.inj same
      rw [line] at clean
      contradiction
    | none =>
      constructor
      · intro h
        obtain rfl := Except.ok.inj h
        exact ⟨rfl, line⟩
      · rintro ⟨same, -⟩
        exact congrArg Except.ok (Option.some.inj same)

theorem treeOf_of_fault {line : Nat} (h : parse source = some t)
    (fault : faultLine? t = some line) : treeOf parse source = .error (.fault line) := by
  simp only [treeOf, h, fault]

/-- A text that is not taken as Python does not stand in the way of others. -/
theorem isRecoverable_of_treeOf (h : treeOf parse source = .error f) : f.isRecoverable = true := by
  unfold treeOf at h
  split at h
  · exact Except.error.inj h ▸ rfl
  · split at h
    · exact Except.error.inj h ▸ rfl
    · contradiction

theorem extract_of_ok (h : treeOf parse source = .ok t) (file : String) (g : Graph) :
    extract parse file source g = { graph := g.addAll (outline file .module t) } := by
  simp only [extract, h]

theorem extract_of_error (h : treeOf parse source = .error f) (file : String) (g : Graph) :
    extract parse file source g = { graph := g, failure := some f } := by
  simp only [extract, h]

/-- Whether and why extraction fails does not depend on the graph. -/
theorem failure_extract_eq_some_iff {file : String} {g : Graph} :
    (extract parse file source g).failure = some f ↔ treeOf parse source = .error f := by
  cases tree : treeOf parse source with
  | ok t =>
    rw [extract_of_ok tree]
    exact ⟨nofun, nofun⟩
  | error f' =>
    rw [extract_of_error tree, Option.some.injEq, Except.error.injEq]

theorem failure_extract_eq_none_iff {file : String} {g : Graph} :
    (extract parse file source g).failure = none ↔ ∃ t, treeOf parse source = .ok t := by
  cases tree : treeOf parse source with
  | ok t =>
    rw [extract_of_ok tree]
    exact iff_of_true rfl ⟨t, rfl⟩
  | error f =>
    rw [extract_of_error tree]
    exact ⟨nofun, nofun⟩

theorem isNone_failure_extract (parse : Parser) (file source : String) (g : Graph) :
    (extract parse file source g).failure.isNone = (treeOf parse source).isOk := by
  cases tree : treeOf parse source with
  | ok t =>
    rw [extract_of_ok tree]
    rfl
  | error f =>
    rw [extract_of_error tree]
    rfl

end

open FaultsLemmas in
/-- Rejection is exact, and it tells the first offender. A file is rejected if some node of its tree
is a fault, at any depth, or some named node is a statement of Python 2. The line that is told is
that of the first fault in pre-order over all nodes, and if there is none, that of the first such
statement. The searches, which leave out subtrees, find the first of all. A tree that has a fault
has a first one, so that the row of the root is never told in its place. -/
theorem extract_offender (parse : Parser) (file source : String) (g : Graph) {t : Tree}
    (parsed : parse source = some t) (h : t.Layered) :
    ((∃ f, (extract parse file source g).failure = some f) ↔
      (∃ n ∈ t.nodes, n.isFault = true) ∨ ∃ n ∈ t.namedNodes, n.isLegacy = true) ∧
    (∀ n, t.nodes.find? Tree.isFault = some n →
      (extract parse file source g).failure = some (.fault (n.row + 1))) ∧
    (∀ n, t.nodes.find? Tree.isFault = none → t.namedNodes.find? Tree.isLegacy = some n →
      (extract parse file source g).failure = some (.fault (n.row + 1))) ∧
    t.firstFault = (t.nodes.find? Tree.isFault).map Tree.row ∧
    (t.hasFault = true → t.firstFault.isSome = true) ∧
    t.firstOfKinds legacyStatements = (t.namedNodes.find? Tree.isLegacy).map Tree.row := by
  have told := faultLine?_eq h
  have failure : (extract parse file source g).failure = (faultLine? t).map .fault := by
    cases line : faultLine? t with
    | some n =>
      rw [extract_of_error (treeOf_of_fault parsed line)]
      rfl
    | none =>
      rw [extract_of_ok (treeOf_eq_ok_iff.mpr ⟨parsed, line⟩)]
      rfl
  rw [failure, told]
  refine ⟨?_, ?_, ?_, firstFault_eq t, ?_, firstLegacy_eq h⟩
  · rw [← Option.isSome_iff_exists, Option.isSome_map, Option.isSome_map, Option.isSome_or,
      Bool.or_eq_true, List.find?_isSome, List.find?_isSome]
  · intro n first
    rw [first]
    rfl
  · intro n clean first
    rw [clean, first]
    rfl
  · intro known
    rw [firstFault_eq, Option.isSome_map, List.find?_isSome]
    exact hasFault_iff.mp known

namespace FaultsLemmas

open PlacesLemmas

/-- Statements of Python 2, one of them in a block. -/
def datedSource : String := "if x:\n    exec y\nprint z\n"

def dated : List Tree :=
  [phrase 0 .ifStatement [keyword 0 "if", nameOf 0 "x" none, sign 0 ":",
      phrase 1 .block [phrase 1 .execStatement [keyword 1 "exec", nameOf 1 "y" none]]],
    phrase 2 .printStatement [keyword 2 "print", nameOf 2 "z" none]]

/-- The same with a call behind them whose bracket is not closed. -/
def unclosedSource : String := datedSource ++ "f("

def unclosed : Tree :=
  phrase 3 .expressionStatement [phrase 3 .call [nameOf 3 "f" (some .function),
    phrase 3 .argumentList [sign 3 "(",
      .node { kind := .token (.mark ")"), named := false, missing := true, row := 3 } []]]]

/-- A parser that knows these two texts. -/
def datedParser : Parser := fun source =>
  if source = datedSource then some (phrase 0 .module dated)
  else if source = unclosedSource then some (phrase 0 .module (dated ++ [unclosed]))
  else none

end FaultsLemmas

open FaultsLemmas PlacesLemmas in
/-- The fault comes before all statements of Python 2, wherever they stand. -/
theorem extract_offender_dated :
    (∃ t, datedParser datedSource = some t ∧ t.Layered) ∧
      (∃ t, datedParser unclosedSource = some t ∧ t.Layered) ∧
      (extract datedParser "s.py" datedSource .empty).failure = some (.fault 2) ∧
      (extract datedParser "s.py" unclosedSource .empty).failure = some (.fault 4) := by
  have parsed : datedParser datedSource = some (phrase 0 .module dated) := rfl
  have parsed' : datedParser unclosedSource = some (phrase 0 .module (dated ++ [unclosed])) := rfl
  have layered : (phrase 0 .module dated).Layered := by decide +kernel
  have layered' : (phrase 0 .module (dated ++ [unclosed])).Layered := by decide +kernel
  obtain ⟨-, -, legacy, -⟩ := extract_offender datedParser "s.py" datedSource .empty parsed layered
  obtain ⟨-, fault, -⟩ := extract_offender datedParser "s.py" unclosedSource .empty parsed' layered'
  exact ⟨⟨_, parsed, layered⟩, ⟨_, parsed', layered'⟩, legacy _ rfl rfl, fault _ rfl⟩

end CodeAtlas.Python
