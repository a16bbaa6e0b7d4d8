import CodeAtlas.Graph.Basic

/-!
# Resolved graphs

The resolved view of a graph has only the relationships whose ends are both nodes, given by the
positions of these nodes. Kinds come in the order of their names.
-/

namespace CodeAtlas

/-- A relationship between two positions. -/
structure Edge where
  start : Nat
  target : Nat
  kind : RelationKind
  deriving DecidableEq, Repr

/-- Nodes, and edges between their positions. -/
structure ResolvedGraph where
  nodes : List Node
  edges : List Edge
  deriving Repr

namespace Graph

/-- The edge of a relationship whose ends are both nodes. -/
def edge? (g : Graph) (kind : RelationKind) (r : Relationship) : Option Edge :=
  match g.indexOf? r.start, g.indexOf? r.target with
  | some i, some j => some ⟨i, j, kind⟩
  | _, _ => none

/-- Kinds in ascending order of their names. -/
def sortKinds (kinds : List RelationKind) : List RelationKind :=
  kinds.mergeSort fun a b => decide (a.name ≤ b.name)

/-- The resolved view, given the kinds that have relationships. -/
def resolvedBy (g : Graph) (kinds : List RelationKind) : ResolvedGraph :=
  ⟨g.nodes.toList,
    (sortKinds kinds).flatMap fun k => (g.relationships k).filterMap (g.edge? k)⟩

/-- The resolved view. -/
def resolved (g : Graph) : ResolvedGraph := g.resolvedBy g.kinds

end Graph

end CodeAtlas
