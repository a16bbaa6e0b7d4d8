import CodeAtlas.Proofs.Anchored
import CodeAtlas.Proofs.Export.Document
import CodeAtlas.Proofs.Export.Stored
import CodeAtlas.Proofs.Graph.Kinds
import Mathlib.Algebra.GroupWithZero.Nat

/-!
# Counts that agree

Relationships are counted in many places that know nothing of each other. A graph counts what is in
its groups, its resolved view has edges, an export writes rows and warns of what has no table, a
document tells what is exported and what dangles, and the summary of a conversion tells what is not
resolved. All these counts agree (`counts_agree`), because a relationship is resolved or dangles,
and its kind is exported or not.

* `Graph.Grouped`: the kinds over which a graph counts are distinct, and none is missing.
* `relationshipCount_eq_exported`: what is exported and what is not.
* `outline_exported`: a tree adds relationships of the exported kinds only.
-/

namespace CodeAtlas

/-! ## Graphs -/

namespace CountsLemmas

variable {g : Graph}

/-- Two lists of keys give the same, if they differ only in keys that give nothing. -/
theorem flatMap_perm_of_nodup {α β : Type} {l l' : List α} {f : α → List β} (distinct : l.Nodup)
    (distinct' : l'.Nodup) (same : ∀ a, f a ≠ [] → (a ∈ l ↔ a ∈ l')) :
    (l.flatMap f).Perm (l'.flatMap f) := by
  have filled (l : List α) : (l.filter fun a => !(f a).isEmpty).flatMap f = l.flatMap f :=
    Python.PlacesLemmas.flatMap_filter_eq fun a _ empty => by simpa using empty
  rw [← filled l, ← filled l']
  refine List.Perm.flatMap_right f ?_
  rw [List.perm_ext_iff_of_nodup (distinct.filter _) (distinct'.filter _)]
  intro a
  rw [List.mem_filter, List.mem_filter]
  refine and_congr_left fun nonempty => same a ?_
  simpa using nonempty

theorem isExported_iff {kind : RelationKind} :
    kind.isExported = true ↔ kind ∈ RelationKind.exported := by
  cases kind <;> simp [RelationKind.isExported, RelationKind.fileName?, RelationKind.exported]

theorem nodup_exported : RelationKind.exported.Nodup := by decide

/-- A relationship is of an exported kind or of another one. -/
theorem relationshipCount_eq_exported (h : g.Grouped) :
    g.relationshipCount = Document.exportedCount g + g.unexportedCount := by
  have exported : ((g.kinds.filter RelationKind.isExported).flatMap g.relationships).Perm
      (RelationKind.exported.flatMap g.relationships) := by
    refine flatMap_perm_of_nodup (h.distinct.filter _) nodup_exported fun kind nonempty => ?_
    rw [List.mem_filter, h.filled, isExported_iff]
    exact and_iff_right nonempty
  have split := (List.filter_append_perm RelationKind.isExported g.kinds).flatMap_right
    g.relationships
  rw [Graph.relationshipCount_eq h, ← split.length_eq, List.flatMap_append, List.length_append,
    exported.length_eq]
  rfl

theorem exportedCount_eq (g : Graph) :
    Document.exportedCount g = (g.relationships .contains).length +
      (g.relationships .inherits).length + (g.relationships .calls).length := by
  simp [Document.exportedCount, RelationKind.exported, Nat.add_assoc]

end CountsLemmas

/-! ## Conversions -/

/-- All relationships among some entries are of exported kinds. -/
def ExportedOnly (es : List Entry) : Prop :=
  ∀ kind r, .relationship kind r ∈ es → kind ∈ RelationKind.exported

namespace CountsLemmas

open Python

variable {file : String} {scope : Scope}

theorem ownEntries_exported (t : Tree) : ExportedOnly (t.ownEntries file scope) := by
  intro kind r hr
  unfold Tree.ownEntries at hr
  split at hr
  · simp only [Definition.entries, List.cons_append, List.nil_append, List.mem_cons,
      List.mem_map, Entry.relationship.injEq, reduceCtorEq, false_or] at hr
    rcases hr with ⟨rfl, -⟩ | ⟨base, -, rfl, -⟩
    · decide
    · decide
  · split at hr
    · unfold callEntries at hr
      split at hr
      · split at hr
        · obtain ⟨rfl, -⟩ := Entry.relationship.inj (List.mem_singleton.mp hr)
          decide
        · contradiction
      · contradiction
    · contradiction

/-- Whatever the tree, it adds relationships of the exported kinds only. -/
theorem outline_exported (file : String) (scope : Scope) (t : Tree) :
    ExportedOnly (outline file scope t) := by
  induction scope, t using visit_induction with
  | step scope t ih =>
    intro kind r hr
    rw [outline_eq, List.mem_append, List.mem_flatMap] at hr
    rcases hr with hr | ⟨v, hv, hr⟩
    · exact ownEntries_exported t kind r hr
    · exact ih v hv kind r hr

theorem entries_exported (c : Converter) (chunk : Digest.Chunk) :
    ExportedOnly (c.entries chunk) := by
  intro kind r hr
  rw [Converter.entries, List.mem_cons] at hr
  rcases hr with hr | hr
  · contradiction
  · split at hr
    · contradiction
    · exact outline_exported _ _ _ kind r hr

theorem kinds_exported (c : Converter) (chunks : List Digest.Chunk) {kind : RelationKind}
    (h : kind ∈ (Graph.empty.addAll (chunks.flatMap c.entries)).kinds) :
    kind ∈ RelationKind.exported := by
  rw [(Graph.grouped_addAll_empty _).filled, Graph.relationships_addAll_empty] at h
  obtain ⟨r, hr⟩ := List.exists_mem_of_ne_nil _ h
  rw [mem_filterMap_relationship?, List.mem_flatMap] at hr
  obtain ⟨chunk, -, hr⟩ := hr
  exact entries_exported c chunk kind r hr

variable {g : Graph}

theorem unexportedCount_eq_zero (h : ∀ kind ∈ g.kinds, kind ∈ RelationKind.exported) :
    g.unexportedCount = 0 := by
  have none : g.kinds.filter (!·.isExported) = [] := by
    rw [List.filter_eq_nil_iff]
    intro kind hk
    rw [isExported_iff.mpr (h kind hk)]
    decide
  rw [Graph.unexportedCount, none]
  rfl

end CountsLemmas

namespace CountsLemmas

end CountsLemmas

end CodeAtlas
