import CodeAtlas.Proofs.Ascending
import CodeAtlas.Proofs.Graph.Entries

/-!
# Nodes and graphs and how they are built

Nodes begin with an id and a label, and attributes are set one after the other (`Node.Built`).
Graphs begin empty, and such nodes and any relationships are added one after the other
(`Graph.Built`). However that is done, the keys of a node are in ascending order and none of them is
the name of one of the node's own fields (`Node.WellKeyed`).
-/

namespace CodeAtlas

theorem Label.ofName?_name (l : Label) : ofName? l.name = some l := by
  cases l <;> decide

namespace Node

@[simp] theorem id_withAttribute (n : Node) (key : String) (value : Option String) :
    (n.withAttribute key value).id = n.id := by
  unfold withAttribute
  split
  · rfl
  · cases value <;> rfl

@[simp] theorem label_withAttribute (n : Node) (key : String) (value : Option String) :
    (n.withAttribute key value).label = n.label := by
  unfold withAttribute
  split
  · rfl
  · cases value <;> rfl

theorem attribute?_withAttribute_self (n : Node) {key : String} (h : key ∉ reserved)
    (value : String) : (n.withAttribute key (some value)).attribute? key = some value := by
  have free : ¬ reserved.contains key = true := by simpa using h
  rw [withAttribute, if_neg free]
  exact Ascending.lookup_put_self key value n.attributes

/-- Nodes that are made from an id and a label by setting attributes. -/
inductive Built : Node → Prop
  | new (id : String) (label : Label) : Built ⟨id, label, []⟩
  | withAttribute {n : Node} (key : String) (value : Option String) :
      Built n → Built (n.withAttribute key value)

/-- The keys of a node are in ascending order and are free for attributes. -/
structure WellKeyed (n : Node) : Prop where
  ascending : (n.attributes.map (·.1)).Pairwise (· < ·)
  free : ∀ key ∈ n.attributes.map (·.1), key ∉ reserved

theorem WellKeyed.withAttribute {n : Node} (h : n.WellKeyed) (key : String)
    (value : Option String) : (n.withAttribute key value).WellKeyed := by
  unfold Node.withAttribute
  split
  · exact h
  · next notReserved =>
    cases value with
    | none => exact h
    | some v =>
      constructor
      · show ((Ascending.put key v n.attributes).map (·.1)).Pairwise (· < ·)
        rw [Ascending.map_fst_put]
        exact Ascending.pairwise_insert key h.ascending
      · show ∀ k ∈ (Ascending.put key v n.attributes).map (·.1), k ∉ reserved
        rw [Ascending.map_fst_put]
        intro k hk
        rcases Ascending.mem_insert.mp hk with rfl | hk
        · simpa using notReserved
        · exact h.free k hk

theorem Built.wellKeyed {n : Node} (h : n.Built) : n.WellKeyed := by
  induction h with
  | new id label => exact ⟨.nil, fun _ hk => absurd hk List.not_mem_nil⟩
  | withAttribute key value _ ih => exact ih.withAttribute key value

theorem attribute?_eq_some_iff {n : Node} (h : n.WellKeyed) {key value : String} :
    n.attribute? key = some value ↔ (key, value) ∈ n.attributes :=
  Ascending.lookup_eq_some_iff h.ascending

end Node

namespace Graph

/-- Graphs that are made from the empty one by adding nodes and relationships. -/
inductive Built : Graph → Prop
  | empty : Built empty
  | node {g : Graph} {n : Node} : Built g → n.Built → Built (g.insertNode n).2
  | relationship {g : Graph} (kind : RelationKind) (r : Relationship) :
      Built g → Built (g.addRelationship kind r)

theorem Built.node_built {g : Graph} (h : g.Built) {n : Node} (hn : n ∈ g.nodes) : n.Built := by
  induction h with
  | empty => exact absurd hn (Array.not_mem_empty n)
  | @node g m _ hm ih =>
    rcases mem_nodes_add (e := .node m) hn with hn | same
    · exact ih hn
    · obtain rfl := Entry.node.inj same
      exact hm
  | relationship kind r _ ih => exact ih hn

end Graph

end CodeAtlas
