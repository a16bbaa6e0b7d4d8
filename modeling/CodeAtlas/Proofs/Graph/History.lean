import CodeAtlas.Proofs.Firsts
import CodeAtlas.Proofs.Graph.Entries

/-!
# What a graph remembers of the calls that built it

A graph keeps an array of nodes, an index of their positions and groups of relationships. All of
them can be told from the list of entries that were added, in any order and with any repetition.

* `nodes_addAll`: nodes come behind those that were there, the first one for each new id, unchanged.
* `node?_eq_some_iff`: the index always leads to the node that has the id.
* `relationshipCount_addAll`: no relationship is lost or joined with another one.
* `records_addAll`: every view of a graph that was built from the empty one, by its entries.
-/

namespace CodeAtlas

/-- An entry adds a relationship of some kind. -/
def Entry.isRelationship : Entry → Bool
  | .node _ => false
  | .relationship _ _ => true

namespace Graph

open FirstsLemmas

/-! ## Nodes -/

theorem hasNode_empty (id : String) : empty.hasNode id = false := rfl

theorem nodes_insertNode (g : Graph) (n : Node) :
    (g.insertNode n).2.nodes.toList =
      g.nodes.toList ++ if g.hasNode n.id then [] else [n] := by
  unfold insertNode
  split
  · rw [List.append_nil]
  · exact Array.toList_push

theorem nodes_addAll (g : Graph) (es : List Entry) :
    (g.addAll es).nodes.toList =
      g.nodes.toList ++ (firsts Node.id (nodesOf es)).filter (!g.hasNode ·.id) := by
  induction es generalizing g with
  | nil => simp [addAll_nil, nodesOf, firsts_nil]
  | cons e es ih =>
    rw [addAll_cons, ih]
    cases e with
    | relationship kind r => rfl
    | node n =>
      -- what is new behind the node `n` is what is new before it and has another id
      have new : ∀ m : Node, (!(g.add (.node n)).hasNode m.id) =
          (!g.hasNode m.id && decide (m.id ≠ n.id)) := by
        intro m
        have either := hasNode_insertNode g n m.id
        by_cases same : m.id = n.id
        · rw [add, either.mpr (.inr same.symm), decide_eq_false (not_not_intro same),
            Bool.and_false]
          rfl
        · have before : (g.insertNode n).2.hasNode m.id = g.hasNode m.id := by
            rw [Bool.eq_iff_iff, either, or_iff_left (Ne.symm same)]
          simp [add, before, same]
      have nodes : nodesOf (.node n :: es) = n :: nodesOf es := rfl
      rw [nodes, firsts_cons, List.filter_cons, List.filter_filter]
      simp only [new]
      rw [add, nodes_insertNode, List.append_assoc]
      by_cases known : g.hasNode n.id = true
      · simp [known]
      · simp [known]

theorem nodes_addAll_empty (es : List Entry) :
    (empty.addAll es).nodes.toList = firsts Node.id (nodesOf es) := by
  have all : (fun n : Node => !empty.hasNode n.id) = fun _ => true := rfl
  rw [nodes_addAll, all, List.filter_true]
  rfl

/-- The index leads to the node that has the id, and there is only one. -/
theorem node?_eq_some_iff {g : Graph} {id : String} {n : Node} :
    g.node? id = some n ↔ n ∈ g.nodes ∧ n.id = id := by
  unfold node?
  split
  · next missing =>
    constructor
    · intro h
      contradiction
    · rintro ⟨hn, rfl⟩
      obtain ⟨i, h, rfl⟩ := Array.getElem_of_mem hn
      rw [indexOf?_eq_some_iff.mpr ⟨h, rfl⟩] at missing
      contradiction
  · next i found =>
    obtain ⟨h, same⟩ := indexOf?_eq_some_iff.mp found
    constructor
    · intro hn
      obtain rfl := Option.some.inj hn
      exact ⟨Array.getElem_mem h, same⟩
    · rintro ⟨hn, rfl⟩
      obtain ⟨j, h', rfl⟩ := Array.getElem_of_mem hn
      rw [indexOf?_eq_some_iff.mpr ⟨h', rfl⟩, Option.some.injEq] at found
      subst found
      rfl

/-! ## Relationships -/

theorem length_pushInto (kind : RelationKind) (r : Relationship)
    (groups : List (RelationKind × Array Relationship)) :
    ((pushInto kind r groups).flatMap (·.2.toList)).length =
      (groups.flatMap (·.2.toList)).length + 1 := by
  induction groups with
  | nil => rfl
  | cons group rest ih =>
    obtain ⟨k, rs⟩ := group
    rw [pushInto]
    split
    · simp only [List.flatMap_cons, Array.toList_push, List.length_append, List.length_singleton]
      omega
    · rw [List.flatMap_cons, List.length_append, ih, List.flatMap_cons, List.length_append,
        Nat.add_assoc]

theorem relationshipCount_add (g : Graph) (e : Entry) :
    (g.add e).relationshipCount = g.relationshipCount + if e.isRelationship then 1 else 0 := by
  cases e with
  | node n =>
    rw [add, insertNode]
    split <;> rfl
  | relationship kind r => exact length_pushInto kind r g.groups

theorem relationshipCount_addAll (g : Graph) (es : List Entry) :
    (g.addAll es).relationshipCount = g.relationshipCount + es.countP Entry.isRelationship := by
  induction es generalizing g with
  | nil => rfl
  | cons e es ih =>
    rw [addAll_cons, ih, relationshipCount_add, List.countP_cons]
    omega

/-! ## All views -/

/-- Every view of a graph, told by a list of entries: what its arrays, its index and its groups give
is what the list says. -/
structure Records (g : Graph) (log : List Entry) : Prop where
  /-- Of the nodes that were to be added, the first one for each id is there as it was given. -/
  nodes : g.nodes.toList = firsts Node.id (nodesOf log)
  distinct : (g.nodes.toList.map Node.id).Nodup
  /-- A further node is added, and the call says so, if no call brought its id. -/
  inserted : ∀ n, (g.insertNode n).1 = true ↔ ∀ m, .node m ∈ log → m.id ≠ n.id
  index : ∀ id i, g.indexOf? id = some i ↔ ∃ h : i < g.nodes.size, g.nodes[i].id = id
  node : ∀ id, g.node? id = (nodesOf log).find? (·.id = id)
  known : ∀ id, g.hasNode id = true ↔ ∃ n, .node n ∈ log ∧ n.id = id
  relationships : ∀ kind, g.relationships kind = log.filterMap (·.relationship? kind)
  count : g.relationshipCount = log.countP Entry.isRelationship

theorem fst_insertNode (g : Graph) (n : Node) : (g.insertNode n).1 = !g.hasNode n.id := by
  unfold insertNode
  split
  · next known => simp [known]
  · next unknown => simp [unknown]

/-- A graph that was built from the empty one remembers the first node for each id, finds it by that
id, and keeps all relationships of each kind in their order, whatever was added and in which
order. -/
theorem records_addAll (log : List Entry) : (empty.addAll log).Records log := by
  have nodes : (empty.addAll log).nodes.toList = firsts Node.id (nodesOf log) :=
    nodes_addAll_empty log
  have distinct : ((empty.addAll log).nodes.toList.map Node.id).Nodup := by
    rw [nodes]
    exact nodup_map_firsts _
  have known : ∀ id, (empty.addAll log).hasNode id = true ↔ ∃ n, .node n ∈ log ∧ n.id = id := by
    intro id
    rw [hasNode_addAll, hasNode_empty, mem_nodeIds]
    simp
  refine ⟨nodes, distinct, ?_, fun _ _ => indexOf?_eq_some_iff, ?_, known,
    relationships_addAll_empty log, ?_⟩
  · intro n
    rw [fst_insertNode, Bool.not_eq_true', ← Bool.not_eq_true, known]
    simp
  · intro id
    ext n
    rw [node?_eq_some_iff, ← Array.mem_toList_iff, ← find?_firsts, ← nodes,
      find?_eq_some_iff_of_nodup distinct]
  · rw [relationshipCount_addAll]
    exact Nat.zero_add _

end Graph

end CodeAtlas
