import CodeAtlas.Proofs.Ascending
import CodeAtlas.Proofs.Graph.Kinds
import CodeAtlas.Proofs.Text.Encoding
import Mathlib.Data.List.Nodup

/-!
# One resolved view

The resolved view goes through the kinds of a graph in the order of their names, and the kinds come
to be sorted in an order that nobody promises. Two kinds with the same name would be left in that
order. Kinds that were found by a name have different names (`RelationKind.name_inj`), because a
kind is found again by its own name (`RelationKind.ofName_name`), in whatever case the name was
first given. So there is one resolved view, and it can be told by the names alone
(`resolvedBy_eq_of_perm`).
-/

namespace CodeAtlas

namespace RelationKind

/-- A kind that was found by a name is found again by its own name. -/
theorem ofName_name (s : String) : ofName (ofName s).name = ofName s := by
  unfold ofName
  dsimp only
  split
  · decide +kernel
  split
  · decide +kernel
  split
  · decide +kernel
  · next contains inherits calls =>
    rw [name, if_neg contains, if_neg inherits, if_neg calls]

theorem name_inj {s t : String} (h : (ofName s).name = (ofName t).name) : ofName s = ofName t := by
  rw [← ofName_name s, h, ofName_name]

end RelationKind

/-- The edge of a relationship between nodes that are given in their order. -/
def joined? (nodes : List Node) (kind : RelationKind) (r : Relationship) : Option Edge :=
  match nodes.findIdx? (·.id = r.start), nodes.findIdx? (·.id = r.target) with
  | some i, some j => some ⟨i, j, kind⟩
  | _, _ => none

/-- A view of a graph that its kinds give in the order of some names: the edges of the kind with the
first name come first, and those of each kind in the order of their arrival. -/
structure ResolvedGraph.ByNames (view : ResolvedGraph) (g : Graph) (names : List String) :
    Prop where
  nodes : view.nodes = g.nodes.toList
  /-- Names are compared by their bytes. -/
  ascending : names.Pairwise fun a b => Bytes.ofString a < Bytes.ofString b
  complete : ∀ name, name ∈ names ↔ ∃ kind ∈ g.kinds, kind.name = name
  edges : view.edges = names.flatMap fun name =>
    (g.relationships (.ofName name)).filterMap (joined? g.nodes.toList (.ofName name))

namespace Graph

namespace ResolvedLemmas

/-! ## Positions -/

/-- The index finds the position of an id among the nodes. -/
theorem indexOf?_eq_findIdx? (g : Graph) (id : String) :
    g.indexOf? id = g.nodes.toList.findIdx? (·.id = id) := by
  ext i
  rw [indexOf?_eq_some_iff, List.findIdx?_eq_some_iff_getElem]
  constructor
  · rintro ⟨h, same⟩
    refine ⟨by simpa using h, by simpa using same, ?_⟩
    intro j before also
    have also : g.indexOf? id = some j := indexOf?_eq_some_iff.mpr ⟨by omega, by simpa using also⟩
    rw [indexOf?_eq_some_iff.mpr ⟨h, same⟩, Option.some.injEq] at also
    omega
  · rintro ⟨h, same, -⟩
    exact ⟨by simpa using h, by simpa using same⟩

theorem edge?_eq_joined? (g : Graph) (kind : RelationKind) (r : Relationship) :
    g.edge? kind r = joined? g.nodes.toList kind r := by
  rw [edge?, indexOf?_eq_findIdx?, indexOf?_eq_findIdx?]
  rfl

/-! ## Names -/

theorem pairwise_sortKinds (order : List RelationKind) :
    ((sortKinds order).map RelationKind.name).Pairwise (· ≤ ·) := by
  rw [List.pairwise_map]
  refine (List.pairwise_mergeSort ?_ ?_ order).imp fun le => of_decide_eq_true le
  · intro a b c
    simp only [decide_eq_true_eq]
    exact String.le_trans
  · intro a b
    simp only [Bool.or_eq_true, decide_eq_true_eq]
    exact String.le_total _ _

/-- Names that differ come in ascending order, in whatever order their kinds were. -/
theorem map_name_sortKinds {order kinds : List RelationKind} (perm : order.Perm kinds)
    (distinct : (kinds.map RelationKind.name).Nodup) :
    (sortKinds order).map RelationKind.name = Ascending.ofList (kinds.map RelationKind.name) := by
  have strict := Ascending.pairwise_ofList (kinds.map RelationKind.name)
  have nodup : (Ascending.ofList (kinds.map RelationKind.name)).Nodup := by
    refine strict.imp ?_
    rintro a _ less rfl
    exact String.lt_irrefl a less
  have sorted : (sortKinds order).Perm kinds := (List.mergeSort_perm order _).trans perm
  -- two ascending lists of the same names are equal
  have same : ((sortKinds order).map RelationKind.name).Perm
      (Ascending.ofList (kinds.map RelationKind.name)) :=
    (sorted.map _).trans
      ((List.perm_ext_iff_of_nodup distinct nodup).mpr fun _ => Ascending.mem_ofList.symm)
  refine same.eq_of_pairwise (fun _ _ _ _ => String.le_antisymm) (pairwise_sortKinds order) ?_
  exact strict.imp fun less => Std.le_of_lt less

/-- Kinds that are found by their names come in one order only. -/
theorem sortKinds_eq {order kinds : List RelationKind} (perm : order.Perm kinds)
    (distinct : kinds.Nodup) (found : ∀ kind ∈ kinds, RelationKind.ofName kind.name = kind) :
    sortKinds order = (Ascending.ofList (kinds.map RelationKind.name)).map .ofName := by
  have differ : (kinds.map RelationKind.name).Nodup := by
    refine List.Nodup.map_on ?_ distinct
    intro a ha b hb same
    rw [← found a ha, same, found b hb]
  have back : ∀ kind ∈ sortKinds order, RelationKind.ofName kind.name = kind := by
    intro kind hk
    exact found kind (perm.mem_iff.mp ((List.mergeSort_perm order _).mem_iff.mp hk))
  rw [← map_name_sortKinds perm differ, List.map_map]
  exact ((List.map_congr_left back).trans (List.map_id _)).symm

theorem ofName_of_mem_kinds {log : List Entry}
    (named : ∀ kind r, .relationship kind r ∈ log → ∃ s, kind = .ofName s) {kind : RelationKind}
    (h : kind ∈ (empty.addAll log).kinds) : RelationKind.ofName kind.name = kind := by
  rw [(grouped_addAll_empty log).filled, relationships_addAll_empty] at h
  obtain ⟨r, hr⟩ := List.exists_mem_of_ne_nil _ h
  obtain ⟨s, rfl⟩ := named kind r (mem_filterMap_relationship?.mp hr)
  exact RelationKind.ofName_name s

end ResolvedLemmas

open ResolvedLemmas in
/-- The resolved view does not depend on the order in which a graph enumerates its kinds. For every
graph whose kinds were all found by names, every order gives the same view: the nodes at their
positions, and for the kinds in the order of their names the relationships whose ends are nodes,
joining the positions of these. Kinds that were found by names are told apart by their own names. -/
theorem resolvedBy_eq_of_perm {log : List Entry}
    (named : ∀ kind r, .relationship kind r ∈ log → ∃ s, kind = .ofName s) :
    let g := empty.addAll log
    (∀ order order', order.Perm g.kinds → order'.Perm g.kinds →
      g.resolvedBy order = g.resolvedBy order') ∧
    (∃ names, ∀ order, order.Perm g.kinds → (g.resolvedBy order).ByNames g names) ∧
    (∀ s, RelationKind.ofName (RelationKind.ofName s).name = .ofName s) ∧
    ∀ s t, (RelationKind.ofName s).name = (RelationKind.ofName t).name →
      RelationKind.ofName s = .ofName t := by
  intro g
  have distinct : g.kinds.Nodup := (grouped_addAll_empty log).distinct
  have found : ∀ kind ∈ g.kinds, RelationKind.ofName kind.name = kind :=
    fun _ hk => ofName_of_mem_kinds named hk
  refine ⟨?_, ⟨Ascending.ofList (g.kinds.map RelationKind.name), ?_⟩, RelationKind.ofName_name,
    fun _ _ => RelationKind.name_inj⟩
  · intro order order' perm perm'
    rw [resolvedBy, resolvedBy, sortKinds_eq perm distinct found, sortKinds_eq perm' distinct found]
  · intro order perm
    refine ⟨rfl, ?_, ?_, ?_⟩
    · exact (Ascending.pairwise_ofList _).imp fun less => Bytes.ofString_lt_ofString.mpr less
    · intro name
      rw [Ascending.mem_ofList, List.mem_map]
    · rw [resolvedBy]
      dsimp only
      rw [sortKinds_eq perm distinct found, List.flatMap_map]
      simp only [funext (edge?_eq_joined? g _)]

namespace ResolvedLemmas

/-- Two nodes, and relationships whose kinds are named in any case, one of which dangles. -/
def mixedCase : List Entry :=
  [.relationship (.ofName "uses") ⟨"a", "b"⟩, .node ⟨"b", .file, []⟩,
    .relationship (.ofName "Calls") ⟨"b", "a"⟩, .node ⟨"a", .file, []⟩,
    .relationship (.ofName "USES") ⟨"a", "a"⟩, .relationship (.ofName "cALLS") ⟨"a", "print"⟩,
    .relationship (.ofName "contains") ⟨"b", "b"⟩]

theorem kinds_mixedCase : (empty.addAll mixedCase).kinds =
    [.other "uses", .calls, .other "USES", .contains] := by
  decide +kernel

theorem named_mixedCase (kind : RelationKind) (r : Relationship)
    (h : .relationship kind r ∈ mixedCase) : ∃ s, kind = .ofName s := by
  simp only [mixedCase, List.mem_cons, reduceCtorEq, Entry.relationship.injEq, List.not_mem_nil,
    or_false, false_or] at h
  rcases h with ⟨rfl, -⟩ | ⟨rfl, -⟩ | ⟨rfl, -⟩ | ⟨rfl, -⟩ | ⟨rfl, -⟩ <;> exact ⟨_, rfl⟩

end ResolvedLemmas

open ResolvedLemmas in
theorem resolvedBy_eq_of_perm_mixedCase :
    (∀ kind r, .relationship kind r ∈ mixedCase → ∃ s, kind = .ofName s) ∧
      (empty.addAll mixedCase).kinds = [.other "uses", .calls, .other "USES", .contains] ∧
      ∃ view : ResolvedGraph,
        (empty.addAll mixedCase).resolvedBy [.other "uses", .calls, .other "USES", .contains] =
          view ∧
        (empty.addAll mixedCase).resolvedBy [.contains, .other "USES", .other "uses", .calls] =
          view ∧
        view.nodes.map Node.id = ["b", "a"] ∧
        view.edges = [⟨0, 1, .calls⟩, ⟨0, 0, .contains⟩, ⟨1, 1, .other "USES"⟩,
          ⟨1, 0, .other "uses"⟩] := by
  obtain ⟨same, -⟩ := resolvedBy_eq_of_perm named_mixedCase
  rw [kinds_mixedCase] at same
  refine ⟨named_mixedCase, kinds_mixedCase, _, rfl, ?_, ?_, ?_⟩
  · exact same _ _ (by decide) (.refl _)
  · decide +kernel
  · rw [resolvedBy, sortKinds_eq (.refl _) (by decide) (by decide +kernel)]
    decide +kernel

end Graph

end CodeAtlas
