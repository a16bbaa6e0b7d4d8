import CodeAtlas.Proofs.Anchored
import CodeAtlas.Proofs.Graph.History

/-!
# The order of files

A digest with the same files in another order gives a graph with the same ids and relationships. Of
two nodes with one id the first is kept, so the record that an id leads to may be another one; but
whether a relationship dangles depends on the ids alone. Nothing else could carry the order over: a
file adds entries that its path and content decide (`Converter.entries`), and it is counted by
itself.

* `reordered_addAll`: the same entries in another order.
* `convert_perm`: the same files in another order.
-/

namespace CodeAtlas

namespace Graph

/-- Two graphs have the same ids, each of them once, and for each kind the same relationships and
the same dangling ones, each as often. The order may differ. -/
structure Reordered (g g' : Graph) : Prop where
  ids : (g.nodes.toList.map Node.id).Perm (g'.nodes.toList.map Node.id)
  relationships : ∀ kind, (g.relationships kind).Perm (g'.relationships kind)
  dangling : ∀ kind, (g.dangling kind).Perm (g'.dangling kind)

namespace ReorderingLemmas

theorem nodup_ids_addAll (es : List Entry) :
    ((empty.addAll es).nodes.toList.map Node.id).Nodup := by
  rw [nodes_addAll_empty]
  exact FirstsLemmas.nodup_map_firsts _

/-- What dangles depends on the relationships and on the ids that are known. -/
theorem dangling_perm {g g' : Graph} {kind : RelationKind}
    (perm : (g.relationships kind).Perm (g'.relationships kind))
    (known : ∀ id, g.hasNode id = g'.hasNode id) : (g.dangling kind).Perm (g'.dangling kind) := by
  have same : (fun r => !g.resolves r) = fun r => !g'.resolves r := by
    funext r
    rw [resolves, resolves, known, known]
  rw [dangling, dangling, same]
  exact perm.filter _

end ReorderingLemmas

open ReorderingLemmas in
/-- The same entries in another order give the same graph up to order. -/
theorem reordered_addAll {es fs : List Entry} (perm : es.Perm fs) :
    (empty.addAll es).Reordered (empty.addAll fs) := by
  have known : ∀ id, (empty.addAll es).hasNode id = (empty.addAll fs).hasNode id := by
    intro id
    rw [Bool.eq_iff_iff, hasNode_addAll, hasNode_addAll, (nodeIds_perm perm).mem_iff]
  have relationships : ∀ kind, ((empty.addAll es).relationships kind).Perm
      ((empty.addAll fs).relationships kind) := by
    intro kind
    rw [relationships_addAll_empty, relationships_addAll_empty]
    exact perm.filterMap _
  refine ⟨?_, relationships, fun kind => dangling_perm (relationships kind) known⟩
  -- both lists of ids have no repetition, so that it is enough to compare their members
  rw [List.perm_ext_iff_of_nodup (nodup_ids_addAll es) (nodup_ids_addAll fs)]
  intro id
  rw [mem_ids_iff, mem_ids_iff, known]

end Graph

/-- The order of the files in a digest does not change what is found. For two digests that are text
and hand out the same chunks in any order, the graphs of the conversions have the same ids,
relationships and dangling relationships up to order, and the counters are equal. -/
theorem Converter.convert_perm (c : Converter) {digest digest' : Bytes} (h : digest.IsText)
    (h' : digest'.IsText) (perm : (Digest.walk digest).chunks.Perm (Digest.walk digest').chunks) :
    ∃ g g', (c.convert digest).result = .ok g ∧ (c.convert digest').result = .ok g' ∧
      g.Reordered g' ∧
      (c.convert digest).converter.counters = (c.convert digest').converter.counters := by
  refine ⟨_, _, c.convert_of_isText h, c.convert_of_isText h', ?_, ?_⟩
  · exact Graph.reordered_addAll (perm.flatMap_right _)
  · rw [counters_convert, counters_convert, perm.length_eq, perm.countP_eq, perm.countP_eq]

namespace ReorderingLemmas

/-- Two files with the same definitions and one of another kind. -/
def twins : List Digest.Chunk :=
  ["s.py", "notes", "t.py"].map (⟨·, Python.PlacesLemmas.sampleSource⟩)

theorem normal_twins : ∀ chunk ∈ twins, chunk.Normal := by
  decide +kernel

theorem chunks_walk_twins : (Digest.walk (Digest.render twins)).chunks = twins :=
  Digest.chunks_walk_render normal_twins

theorem chunks_walk_twins_reverse :
    (Digest.walk (Digest.render twins.reverse)).chunks = twins.reverse :=
  Digest.chunks_walk_render fun chunk hc => normal_twins chunk (List.mem_reverse.mp hc)

theorem chunks_perm_twins : (Digest.walk (Digest.render twins)).chunks.Perm
    (Digest.walk (Digest.render twins.reverse)).chunks := by
  rw [chunks_walk_twins, chunks_walk_twins_reverse]
  exact (List.reverse_perm _).symm

end ReorderingLemmas

open AnchoredLemmas ReorderingLemmas in
/-- The node of `f` comes from the file that stands first. -/
theorem Converter.convert_perm_twins :
    (Digest.render twins).IsText ∧ (Digest.render twins.reverse).IsText ∧
      (Digest.walk (Digest.render twins)).chunks.Perm
        (Digest.walk (Digest.render twins.reverse)).chunks ∧
      ∃ g g', (converter.convert (Digest.render twins)).result = .ok g ∧
        (converter.convert (Digest.render twins.reverse)).result = .ok g' ∧
        g.Reordered g' ∧
        (g.node? "f").bind (·.attribute? "path") = some "s.py" ∧
        (g'.node? "f").bind (·.attribute? "path") = some "t.py" := by
  have h := Digest.isText_render twins
  have h' := Digest.isText_render twins.reverse
  obtain ⟨g, g', result, result', reordered, -⟩ := converter.convert_perm h h' chunks_perm_twins
  refine ⟨h, h', chunks_perm_twins, g, g', result, result', reordered, ?_, ?_⟩
  · obtain ⟨-, rfl⟩ := convert_eq_ok_iff.mp result
    rw [chunks_walk_twins]
    decide +kernel
  · obtain ⟨-, rfl⟩ := convert_eq_ok_iff.mp result'
    rw [chunks_walk_twins_reverse]
    decide +kernel

end CodeAtlas
