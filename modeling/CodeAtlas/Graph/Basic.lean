import CodeAtlas.Graph.Record

/-!
# Graphs

A graph collects nodes and relationships. The first node with an id is kept and later ones with the
same id are ignored. Relationships are never joined and may lead to ids that are no nodes.
-/

namespace CodeAtlas

/-- A graph: its nodes in the order of their arrival, the position of each node by its id, and for
each kind its relationships in the order of their arrival. -/
structure Graph where
  nodes : Array Node := #[]
  /-- The positions of the nodes. -/
  index : List (String × Nat) := []
  groups : List (RelationKind × Array Relationship) := []
  /-- The index leads from the id of each node to that node, and nowhere else. -/
  index_iff : ∀ id i, index.lookup id = some i ↔ ∃ h : i < nodes.size, nodes[i].id = id := by simp
  deriving DecidableEq, Repr

/-- Something to be added to a graph. -/
inductive Entry where
  | node (node : Node)
  | relationship (kind : RelationKind) (relationship : Relationship)
  deriving DecidableEq, Repr

namespace Graph

def empty : Graph := {}

instance : Inhabited Graph := ⟨empty⟩

/-- The position of the node with an id. -/
def indexOf? (g : Graph) (id : String) : Option Nat := g.index.lookup id

theorem indexOf?_eq_some_iff {g : Graph} {id : String} {i : Nat} :
    g.indexOf? id = some i ↔ ∃ h : i < g.nodes.size, g.nodes[i].id = id := g.index_iff id i

def node? (g : Graph) (id : String) : Option Node :=
  match h : g.indexOf? id with
  | none => none
  | some i =>
    have : i < g.nodes.size := (indexOf?_eq_some_iff.mp h).1
    some g.nodes[i]

def hasNode (g : Graph) (id : String) : Bool := (g.indexOf? id).isSome

/-- The index stays right when a node with a new id comes behind the others. -/
theorem index_push {g : Graph} {n : Node} (new : ¬ g.hasNode n.id = true) (id : String) (i : Nat) :
    ((n.id, g.nodes.size) :: g.index).lookup id = some i ↔
      ∃ h : i < (g.nodes.push n).size, (g.nodes.push n)[i].id = id := by
  have fresh : ∀ j (h : j < g.nodes.size), g.nodes[j].id ≠ n.id := by
    intro j h same
    apply new
    rw [hasNode, indexOf?_eq_some_iff.mpr ⟨h, same⟩, Option.isSome_some]
  have size : (g.nodes.push n).size = g.nodes.size + 1 := Array.size_push n
  rw [List.lookup_cons]
  by_cases same : id = n.id
  · subst same
    simp only [BEq.rfl, Option.some.injEq]
    constructor
    · rintro rfl
      exact ⟨by omega, by rw [Array.getElem_push_eq]⟩
    · rintro ⟨h, found⟩
      by_cases before : i < g.nodes.size
      · rw [Array.getElem_push_lt before] at found
        exact absurd found (fresh i before)
      · omega
  · have other : (id == n.id) = false := by simp [same]
    simp only [other]
    rw [g.index_iff]
    constructor
    · rintro ⟨h, found⟩
      exact ⟨by omega, by rw [Array.getElem_push_lt h]; exact found⟩
    · rintro ⟨h, found⟩
      by_cases before : i < g.nodes.size
      · rw [Array.getElem_push_lt before] at found
        exact ⟨before, found⟩
      · obtain rfl : i = g.nodes.size := by omega
        rw [Array.getElem_push_eq] at found
        exact absurd found.symm same

/-- Adds a node unless its id is known; tells whether it was added. -/
def insertNode (g : Graph) (n : Node) : Bool × Graph :=
  if known : g.hasNode n.id then (false, g)
  else
    (true, { g with
      nodes := g.nodes.push n
      index := (n.id, g.nodes.size) :: g.index
      index_iff := index_push known })

/-- Adds a relationship to the group of its kind. -/
def pushInto (kind : RelationKind) (r : Relationship) :
    List (RelationKind × Array Relationship) → List (RelationKind × Array Relationship)
  | [] => [(kind, #[r])]
  | (k, rs) :: rest => if k = kind then (k, rs.push r) :: rest else (k, rs) :: pushInto kind r rest

def addRelationship (g : Graph) (kind : RelationKind) (r : Relationship) : Graph :=
  { g with groups := pushInto kind r g.groups }

def add (g : Graph) : Entry → Graph
  | .node n => (g.insertNode n).2
  | .relationship kind r => g.addRelationship kind r

def addAll (g : Graph) (entries : List Entry) : Graph := entries.foldl add g

/-! ## Views -/

def nodeCount (g : Graph) : Nat := g.nodes.size

/-- The relationships of a kind in the order of their arrival. -/
def relationships (g : Graph) (kind : RelationKind) : List Relationship :=
  ((g.groups.lookup kind).getD #[]).toList

/-- The kinds that have relationships, in the order of their first arrival. -/
def kinds (g : Graph) : List RelationKind := g.groups.map (·.1)

/-- The number of relationships of all kinds. -/
def relationshipCount (g : Graph) : Nat := (g.groups.flatMap (·.2.toList)).length

/-- Whether both ends of a relationship are nodes. -/
def resolves (g : Graph) (r : Relationship) : Bool := g.hasNode r.start && g.hasNode r.target

/-- The relationships of a kind that have an end which is no node. -/
def dangling (g : Graph) (kind : RelationKind) : List Relationship :=
  (g.relationships kind).filter (!g.resolves ·)

/-- The columns of the node table: `id`, `label` and every attribute key, in ascending order. -/
def columns (g : Graph) : List String :=
  Ascending.ofList ("id" :: "label" :: g.nodes.toList.flatMap fun n => n.attributes.map (·.1))

/-- The number of relationships of kinds that are not exported. -/
def unexportedCount (g : Graph) : Nat :=
  ((g.kinds.filter (!·.isExported)).flatMap g.relationships).length

end Graph

end CodeAtlas
