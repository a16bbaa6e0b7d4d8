import CodeAtlas.Graph.Basic

/-!
# Graphs and the entries they are made of

What a graph holds after entries were added to it, for every graph and every list of entries in any
order. One lemma says what a single entry does, and one what a list does.

* `relationships_addAll`: the relationships of a kind are those before, and then those of the
  entries in their order. Entries of other kinds and nodes do not matter.
* `hasNode_addAll`: an id is known if it was known before or some entry brings it, whether or not
  that entry was the first one with the id.
* `mem_nodes_add`: no node comes from elsewhere.
-/

namespace CodeAtlas

namespace Entry

/-- The relationship of a kind that an entry adds. -/
def relationship? (kind : RelationKind) : Entry → Option Relationship
  | .node _ => none
  | .relationship k r => if k = kind then some r else none

/-- The node that an entry adds if its id is new. -/
def node? : Entry → Option Node
  | .node n => some n
  | .relationship _ _ => none

end Entry

/-- The nodes among some entries, whether or not their ids are new. -/
def nodesOf (entries : List Entry) : List Node := entries.filterMap Entry.node?

theorem nodesOf_append (es fs : List Entry) : nodesOf (es ++ fs) = nodesOf es ++ nodesOf fs :=
  List.filterMap_append

theorem nodesOf_flatMap {α : Type} (f : α → List Entry) (l : List α) :
    nodesOf (l.flatMap f) = l.flatMap fun a => nodesOf (f a) := List.filterMap_flatMap

/-- The ids of the nodes among some entries. -/
def nodeIds (entries : List Entry) : List String := (nodesOf entries).map (·.id)

theorem mem_nodeIds {entries : List Entry} {id : String} :
    id ∈ nodeIds entries ↔ ∃ n, .node n ∈ entries ∧ n.id = id := by
  simp only [nodeIds, nodesOf, List.mem_map, List.mem_filterMap]
  constructor
  · rintro ⟨n, ⟨e, he, hn⟩, hid⟩
    cases e with
    | node m =>
      obtain rfl : m = n := Option.some.inj hn
      exact ⟨m, he, hid⟩
    | relationship k r => exact absurd hn (by simp [Entry.node?])
  · rintro ⟨n, he, hid⟩
    exact ⟨n, ⟨.node n, he, rfl⟩, hid⟩

theorem nodeIds_append (es fs : List Entry) : nodeIds (es ++ fs) = nodeIds es ++ nodeIds fs := by
  rw [nodeIds, nodesOf_append, List.map_append]
  rfl

theorem nodeIds_perm {es fs : List Entry} (h : es.Perm fs) : (nodeIds es).Perm (nodeIds fs) :=
  (h.filterMap _).map _

theorem mem_filterMap_relationship? {es : List Entry} {kind : RelationKind} {r : Relationship} :
    r ∈ es.filterMap (·.relationship? kind) ↔ .relationship kind r ∈ es := by
  rw [List.mem_filterMap]
  constructor
  · rintro ⟨e, he, hr⟩
    cases e with
    | node n => contradiction
    | relationship k r' =>
      rw [Entry.relationship?] at hr
      split at hr
      · next same =>
        obtain rfl := Option.some.inj hr
        exact same ▸ he
      · contradiction
  · intro he
    exact ⟨_, he, by rw [Entry.relationship?, if_pos rfl]⟩

namespace Graph

theorem hasNode_iff {g : Graph} {id : String} :
    g.hasNode id = true ↔ ∃ n ∈ g.nodes, n.id = id := by
  rw [hasNode, Option.isSome_iff_exists]
  constructor
  · rintro ⟨i, found⟩
    obtain ⟨h, same⟩ := indexOf?_eq_some_iff.mp found
    exact ⟨g.nodes[i], Array.getElem_mem h, same⟩
  · rintro ⟨n, hn, same⟩
    obtain ⟨i, h, rfl⟩ := Array.getElem_of_mem hn
    exact ⟨i, indexOf?_eq_some_iff.mpr ⟨h, same⟩⟩

theorem mem_ids_iff {g : Graph} {id : String} :
    id ∈ g.nodes.toList.map Node.id ↔ g.hasNode id = true := by
  rw [hasNode_iff, List.mem_map]
  simp

/-! ## One entry -/

theorem lookup_pushInto (kind k : RelationKind) (r : Relationship)
    (groups : List (RelationKind × Array Relationship)) :
    (pushInto kind r groups).lookup k =
      if kind = k then some (((groups.lookup k).getD #[]).push r) else groups.lookup k := by
  induction groups with
  | nil =>
    by_cases h : kind = k
    · subst h
      simp [pushInto]
    · have h' : (k == kind) = false := by simp [Ne.symm h]
      simp [pushInto, List.lookup_cons, h, h']
  | cons group rest ih =>
    obtain ⟨k', rs⟩ := group
    by_cases h' : k' = kind
    · subst h'
      by_cases h : k' = k
      · subst h
        simp [pushInto]
      · have h'' : (k == k') = false := by simp [Ne.symm h]
        simp [pushInto, List.lookup_cons, h, h'']
    · rw [pushInto, if_neg h', List.lookup_cons, List.lookup_cons, ih]
      by_cases h'' : k = k'
      · subst h''
        simp [Ne.symm h']
      · have : (k == k') = false := by simp [h'']
        simp [this]

theorem relationships_addRelationship (g : Graph) (kind k : RelationKind) (r : Relationship) :
    (g.addRelationship kind r).relationships k =
      g.relationships k ++ if kind = k then [r] else [] := by
  rw [relationships, addRelationship, lookup_pushInto]
  split
  · simp [relationships]
  · simp [relationships]

theorem relationships_insertNode (g : Graph) (n : Node) (k : RelationKind) :
    (g.insertNode n).2.relationships k = g.relationships k := by
  unfold insertNode
  split <;> rfl

theorem relationships_add (g : Graph) (e : Entry) (k : RelationKind) :
    (g.add e).relationships k = g.relationships k ++ (e.relationship? k).toList := by
  cases e with
  | node n => rw [add, relationships_insertNode, Entry.relationship?, Option.toList_none,
      List.append_nil]
  | relationship kind r =>
    rw [add, relationships_addRelationship, Entry.relationship?]
    split <;> rfl

theorem hasNode_addRelationship (g : Graph) (kind : RelationKind) (r : Relationship)
    (id : String) : (g.addRelationship kind r).hasNode id = g.hasNode id := rfl

theorem hasNode_insertNode (g : Graph) (n : Node) (id : String) :
    (g.insertNode n).2.hasNode id = true ↔ g.hasNode id = true ∨ n.id = id := by
  unfold insertNode
  split
  · next known =>
    constructor
    · exact .inl
    · rintro (h | rfl)
      · exact h
      · exact known
  · rw [hasNode_iff, hasNode_iff]
    simp [Array.mem_push, or_and_right, exists_or]

theorem hasNode_add (g : Graph) (e : Entry) (id : String) :
    (g.add e).hasNode id = true ↔ g.hasNode id = true ∨ id ∈ nodeIds [e] := by
  cases e with
  | node n =>
    have ids : nodeIds [.node n] = [n.id] := rfl
    rw [add, hasNode_insertNode, ids, List.mem_singleton]
    exact or_congr Iff.rfl eq_comm
  | relationship kind r =>
    have ids : nodeIds [.relationship kind r] = [] := rfl
    rw [add, hasNode_addRelationship, ids]
    simp

theorem mem_nodes_add {g : Graph} {e : Entry} {n : Node} (h : n ∈ (g.add e).nodes) :
    n ∈ g.nodes ∨ e = .node n := by
  cases e with
  | node m =>
    rw [add, insertNode] at h
    split at h
    · exact .inl h
    · rcases Array.mem_push.mp h with h | rfl
      · exact .inl h
      · exact .inr rfl
  | relationship kind r => exact .inl h

/-! ## Lists of entries -/

theorem addAll_nil (g : Graph) : g.addAll [] = g := rfl

theorem addAll_cons (g : Graph) (e : Entry) (es : List Entry) :
    g.addAll (e :: es) = (g.add e).addAll es := rfl

theorem addAll_append (g : Graph) (es fs : List Entry) :
    g.addAll (es ++ fs) = (g.addAll es).addAll fs := List.foldl_append

theorem relationships_addAll (g : Graph) (es : List Entry) (k : RelationKind) :
    (g.addAll es).relationships k = g.relationships k ++ es.filterMap (·.relationship? k) := by
  induction es generalizing g with
  | nil => simp [addAll_nil]
  | cons e es ih =>
    rw [addAll_cons, ih, relationships_add, List.append_assoc, List.filterMap_cons]
    cases e.relationship? k <;> rfl

theorem relationships_addAll_empty (es : List Entry) (k : RelationKind) :
    (empty.addAll es).relationships k = es.filterMap (·.relationship? k) :=
  relationships_addAll empty es k

theorem hasNode_addAll (g : Graph) (es : List Entry) (id : String) :
    (g.addAll es).hasNode id = true ↔ g.hasNode id = true ∨ id ∈ nodeIds es := by
  induction es generalizing g with
  | nil => simp [addAll_nil, nodeIds, nodesOf]
  | cons e es ih =>
    rw [addAll_cons, ih, hasNode_add, or_assoc, ← List.mem_append, ← nodeIds_append]
    rfl

end Graph

end CodeAtlas
