import CodeAtlas.Export.Tables
import CodeAtlas.Proofs.Export.Csv
import CodeAtlas.Proofs.Graph.Built

/-!
# What the tables of an export tell

The tables lose nothing of what is exported, whatever the ids, keys and values of a graph are. From
the texts of the tables alone, all nodes and all relationships of the exported kinds can be told in
their order (`Tables.read?_texts`). Only an attribute without text is not seen, because a node that
lacks the attribute has an empty cell too.

* `mem_columns`, `Ascending.pairwise_ofList`: the header of the node table.
* `nodeOf?_row`: a row tells its node, given the header.
* `read?_nodes`, `read?_relationships`: what the texts of the tables read as.
-/

namespace CodeAtlas

/-- A node without its empty attributes. -/
def Node.shown (n : Node) : Node := { n with attributes := n.attributes.filter (·.2 ≠ "") }

namespace Tables

/-- The paths and texts of the tables that a plan writes. -/
def texts (steps : List ExportStep) : List (String × String) :=
  steps.filterMap fun
    | .table path text => some (path, text)
    | _ => none

/-- The node that a row of a node table tells. An empty cell is no attribute. -/
def nodeOf? (header row : List String) : Option Node := do
  let cells := header.zip row
  let id ← cells.lookup "id"
  let label ← (cells.lookup "label").bind Label.ofName?
  return ⟨id, label, cells.filter fun (key, value) => !Node.reserved.contains key && value ≠ ""⟩

/-- The header and the rows of a table tell the nodes of a graph. -/
structure TellsNodes (g : Graph) (header : List String) (rows : List (List String)) : Prop where
  ascending : header.Pairwise (· < ·)
  columns : ∀ c, c ∈ header ↔
    c = "id" ∨ c = "label" ∨ ∃ n ∈ g.nodes, c ∈ n.attributes.map (·.1)
  cells : ∀ row ∈ rows, row.length = header.length
  nodes : rows.map (nodeOf? header) = g.nodes.toList.map (some ·.shown)

/-! ## Rows -/

namespace TablesLemmas

theorem mem_columns {g : Graph} {c : String} :
    c ∈ g.columns ↔ c = "id" ∨ c = "label" ∨ ∃ n ∈ g.nodes, c ∈ n.attributes.map (·.1) := by
  rw [Graph.columns, Ascending.mem_ofList]
  simp

theorem columns_ne_nil (g : Graph) : g.columns ≠ [] :=
  List.ne_nil_of_mem (mem_columns.mpr (.inl rfl))

theorem field?_of_not_mem_reserved {c : String} (h : c ∉ Node.reserved) (n : Node) :
    n.field? c = n.attribute? c := by
  simp only [Node.reserved, List.mem_cons, List.not_mem_nil, or_false, not_or] at h
  rw [Node.field?, if_neg h.1, if_neg h.2]

/-- The cells of a row, each with its column. -/
def cellsOf (header : List String) (n : Node) : List (String × String) :=
  header.map fun c => (c, (n.field? c).getD "")

theorem zip_row (header : List String) (n : Node) :
    header.zip (header.map fun c => (n.field? c).getD "") = cellsOf header n := by
  have zip := List.zip_map' (f := id) (g := fun c => (n.field? c).getD "") (l := header)
  rwa [List.map_id] at zip

variable {header : List String} {n : Node}

theorem pairwise_cellsOf (ascending : header.Pairwise (· < ·)) :
    ((cellsOf header n).map (·.1)).Pairwise (· < ·) := by
  have keys : (cellsOf header n).map (·.1) = header := by simp [cellsOf, Function.comp_def]
  rwa [keys]

theorem lookup_cellsOf (ascending : header.Pairwise (· < ·)) {c v : String} (h : c ∈ header)
    (hv : n.field? c = some v) : (cellsOf header n).lookup c = some v := by
  rw [Ascending.lookup_eq_some_iff (pairwise_cellsOf ascending)]
  exact List.mem_map.mpr ⟨c, h, by rw [hv]; rfl⟩

theorem attributes_cellsOf (keyed : n.WellKeyed) (ascending : header.Pairwise (· < ·))
    (known : ∀ c ∈ n.attributes.map (·.1), c ∈ header) :
    ((cellsOf header n).filter fun (key, value) => !Node.reserved.contains key && value ≠ "") =
      n.shown.attributes := by
  -- both sides are ascending, so that it is enough to compare their members
  refine Ascending.eq_of_mem_iff
    ((pairwise_cellsOf ascending).sublist (List.filter_sublist.map _))
    (keyed.ascending.sublist (List.filter_sublist.map _)) ?_
  rintro ⟨key, value⟩
  simp only [cellsOf, Node.shown, List.mem_filter, List.mem_map, Prod.mk.injEq, Bool.and_eq_true,
    Bool.not_eq_true', List.contains_eq_mem, decide_eq_false_iff_not, decide_eq_true_eq]
  constructor
  · rintro ⟨⟨c, -, rfl, hv⟩, free, nonempty⟩
    rw [field?_of_not_mem_reserved free] at hv
    refine ⟨(Node.attribute?_eq_some_iff keyed).mp ?_, nonempty⟩
    cases ha : n.attribute? c with
    | none => exact absurd (by rw [← hv, ha]; rfl) nonempty
    | some v =>
      rw [ha] at hv
      exact congrArg some hv
  · rintro ⟨hm, nonempty⟩
    have hk : key ∈ n.attributes.map (·.1) := List.mem_map_of_mem hm
    have free := keyed.free key hk
    refine ⟨⟨key, known key hk, rfl, ?_⟩, free, nonempty⟩
    rw [field?_of_not_mem_reserved free, (Node.attribute?_eq_some_iff keyed).mpr hm]
    rfl

/-- A row tells its node, if all keys of the node are columns. -/
theorem nodeOf?_row (keyed : n.WellKeyed) (ascending : header.Pairwise (· < ·))
    (id : "id" ∈ header) (label : "label" ∈ header)
    (known : ∀ c ∈ n.attributes.map (·.1), c ∈ header) :
    nodeOf? header (header.map fun c => (n.field? c).getD "") = some n.shown := by
  have hid : (cellsOf header n).lookup "id" = some n.id := lookup_cellsOf ascending id rfl
  have hlabel : (cellsOf header n).lookup "label" = some n.label.name :=
    lookup_cellsOf ascending label rfl
  simp only [nodeOf?, zip_row, hid, hlabel, Option.bind_some, Label.ofName?_name,
    attributes_cellsOf keyed ascending known]
  rfl

/-! ## Texts -/

theorem texts_plan (g : Graph) (label directory : String) :
    texts (plan g label directory) =
      [(Path.join directory "nodes.csv", Csv.write (nodeRecords g)),
        (Path.join directory "contains.csv", Csv.write (relationshipRecords g .contains)),
        (Path.join directory "inherits.csv", Csv.write (relationshipRecords g .inherits)),
        (Path.join directory "calls.csv", Csv.write (relationshipRecords g .calls))] := by
  have warning : texts (warningSteps g) = [] := by
    unfold warningSteps warningsOf
    split <;> rfl
  unfold plan
  simp only [texts, List.filterMap_append] at warning ⊢
  rw [warning]
  rfl

theorem ne_nil_of_mem_nodeRecords (g : Graph) : ∀ r ∈ nodeRecords g, r ≠ [] := by
  simp [nodeRecords, columns_ne_nil]

theorem read?_nodes {g : Graph} (h : ∀ n ∈ g.nodes, n.WellKeyed) :
    ∃ header rows, Csv.read? (Csv.write (nodeRecords g)) = some (header :: rows) ∧
      TellsNodes g header rows := by
  refine ⟨_, _, Csv.read?_write (ne_nil_of_mem_nodeRecords g), Ascending.pairwise_ofList _,
    fun c => mem_columns, ?_, ?_⟩
  · intro row hrow
    obtain ⟨n, -, rfl⟩ := List.mem_map.mp hrow
    exact List.length_map _
  · rw [List.map_map]
    refine List.map_congr_left fun n hn => ?_
    have hn : n ∈ g.nodes := Array.mem_toList_iff.mp hn
    exact nodeOf?_row (h n hn) (Ascending.pairwise_ofList _) (mem_columns.mpr (.inl rfl))
      (mem_columns.mpr (.inr (.inl rfl))) fun c hc => mem_columns.mpr (.inr (.inr ⟨n, hn, hc⟩))

theorem read?_relationships (g : Graph) (kind : RelationKind) :
    Csv.read? (Csv.write (relationshipRecords g kind)) =
      some (["start_id", "end_id"] :: (g.relationships kind).map fun r => [r.start, r.target]) := by
  refine Csv.read?_write ?_
  simp [relationshipRecords]

end TablesLemmas

open TablesLemmas in
/-- The tables lose nothing that is exported. For every graph that nodes and relationships were
added to, an export writes four tables. The first one reads as a header of exactly the columns that
the nodes need and one row for each node, which tells the node's id, its label and its attributes
that are not empty; the others read as the relationships of their kind, in order. -/
theorem read?_texts {g : Graph} (built : g.Built) (label directory : String) :
    ∃ header rows,
      (texts (plan g label directory)).map (fun t => (t.1, Csv.read? t.2)) =
        [(Path.join directory "nodes.csv", some (header :: rows)),
          (Path.join directory "contains.csv", some (["start_id", "end_id"] ::
            (g.relationships .contains).map fun r => [r.start, r.target])),
          (Path.join directory "inherits.csv", some (["start_id", "end_id"] ::
            (g.relationships .inherits).map fun r => [r.start, r.target])),
          (Path.join directory "calls.csv", some (["start_id", "end_id"] ::
            (g.relationships .calls).map fun r => [r.start, r.target]))] ∧
      TellsNodes g header rows := by
  obtain ⟨header, rows, read, tells⟩ := read?_nodes fun n hn => (built.node_built hn).wellKeyed
  refine ⟨header, rows, ?_, tells⟩
  rw [texts_plan]
  simp only [List.map_cons, List.map_nil, read, read?_relationships]

namespace TablesLemmas

/-- A file whose id, key and value need quotes, with an empty attribute and one that is refused. -/
def awkwardFile : Node :=
  ((Node.mk "a,\"b\r\n" .file []).withAttribute "x,y" (some "\"")).withAttribute "id" (some "c")
    |>.withPath ""

/-- A class without a name. -/
def namelessClass : Node := (Node.mk "" .classDef []).withLine 3

def awkward : Graph :=
  ((Graph.empty.insertNode awkwardFile).2.insertNode namelessClass).2
    |>.addRelationship .calls ⟨"", "\n"⟩ |>.addRelationship .calls ⟨"", "\n"⟩

theorem awkwardFile_built : awkwardFile.Built :=
  .withAttribute "path" (some "") (.withAttribute "id" (some "c")
    (.withAttribute "x,y" (some "\"") (.new "a,\"b\r\n" .file)))

theorem namelessClass_built : namelessClass.Built :=
  .withAttribute "line" (some (Nat.repr 3)) (.new "" .classDef)

theorem awkward_built : awkward.Built :=
  .relationship _ _ (.relationship _ _
    (.node (.node .empty awkwardFile_built) namelessClass_built))

end TablesLemmas

open TablesLemmas in
theorem read?_texts_awkward :
    awkward.Built ∧ ∃ header rows,
      (texts (plan awkward "Entity" "out")).map (fun t => (t.1, Csv.read? t.2)) =
        [("out/nodes.csv", some (header :: rows)),
          ("out/contains.csv", some [["start_id", "end_id"]]),
          ("out/inherits.csv", some [["start_id", "end_id"]]),
          ("out/calls.csv", some [["start_id", "end_id"], ["", "\n"], ["", "\n"]])] ∧
      header.Pairwise (· < ·) ∧
      (∀ c, c ∈ header ↔ c = "id" ∨ c = "label" ∨ c = "path" ∨ c = "x,y" ∨ c = "line") ∧
      rows.map (nodeOf? header) =
        [some ⟨"a,\"b\r\n", .file, [("x,y", "\"")]⟩, some ⟨"", .classDef, [("line", "3")]⟩] := by
  obtain ⟨header, rows, read, tells⟩ := read?_texts awkward_built "Entity" "out"
  refine ⟨awkward_built, header, rows, ?_, tells.ascending, ?_, ?_⟩
  · have contains : awkward.relationships .contains = [] := by decide +kernel
    have inherits : awkward.relationships .inherits = [] := by decide +kernel
    have calls : awkward.relationships .calls = [⟨"", "\n"⟩, ⟨"", "\n"⟩] := by decide +kernel
    rw [read, contains, inherits, calls]
    rfl
  · intro c
    have nodes : awkward.nodes = #[⟨"a,\"b\r\n", .file, [("path", ""), ("x,y", "\"")]⟩,
        ⟨"", .classDef, [("line", "3")]⟩] := by decide +kernel
    rw [tells.columns, nodes]
    simp [exists_or, or_assoc]
  · rw [tells.nodes]
    decide +kernel

end Tables

end CodeAtlas
