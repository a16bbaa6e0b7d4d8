import CodeAtlas.Proofs.Anchored
import CodeAtlas.Proofs.Graph.History

/-!
# Joined digests and merged graphs

Converting two digests one behind the other is the same as converting each alone and merging the
results. The files of both are handed out in turn (`Digest.walk_append`), a file adds entries that
depend on nothing but the file (`Converter.entries`), and a graph takes from further entries what a
new graph takes from them, apart from nodes whose ids it knows (`Graph.IsMerged`).
-/

namespace CodeAtlas

/-- A graph has what one graph has and behind it what another one has, apart from nodes of the other
one whose ids are known. -/
structure Graph.IsMerged (g first second : Graph) : Prop where
  nodes : g.nodes.toList =
    first.nodes.toList ++ second.nodes.toList.filter (!first.hasNode ·.id)
  relationships : ∀ kind,
    g.relationships kind = first.relationships kind ++ second.relationships kind

/-- Entries that are added to a graph are merged into it. -/
theorem Graph.isMerged_addAll (g : Graph) (es : List Entry) :
    (g.addAll es).IsMerged g (empty.addAll es) := by
  constructor
  · rw [nodes_addAll, nodes_addAll_empty]
  · intro kind
    rw [relationships_addAll, relationships_addAll_empty]

namespace Converter

/-- For digests that are text and fit together, the conversion of both in one gives the graphs of
the two conversions, merged, and the sums of their counters. -/
theorem convert_append (c : Converter) {first second : Bytes} (h₁ : first.IsText)
    (h₂ : second.IsText) (fits : Digest.Fits first second) :
    ∃ g₁ g₂ g, (c.convert first).result = .ok g₁ ∧ (c.convert second).result = .ok g₂ ∧
      (c.convert (first ++ second)).result = .ok g ∧ g.IsMerged g₁ g₂ ∧
      let counters := (c.convert (first ++ second)).converter.counters
      let counters₁ := (c.convert first).converter.counters
      let counters₂ := (c.convert second).converter.counters
      counters.files = counters₁.files + counters₂.files ∧
        counters.parsed = counters₁.parsed + counters₂.parsed ∧
        counters.rejected = counters₁.rejected + counters₂.rejected := by
  have chunks := Digest.walk_append h₁ h₂ fits
  refine ⟨_, _, _, c.convert_of_isText h₁, c.convert_of_isText h₂,
    c.convert_of_isText (Bytes.isText_append h₁ h₂), ?_, ?_⟩
  · rw [chunks, List.flatMap_append, Graph.addAll_append]
    exact Graph.isMerged_addAll _ _
  · simp only [counters_convert, chunks, List.length_append, List.countP_append, and_self]

end Converter

namespace MergingLemmas

/-- The lines of `Python.PlacesLemmas.sampleSource`. -/
def source : List String := ["@d()", "def f() -> g():", "    class A(B):", "        h()"]

/-- Lines before the first file, two files, and a separator at the end. -/
def openingLines : List String := ["Files", "FILE: notes", "x", "FILE: s.py"] ++ source ++ ["==="]

def opening : Bytes := Bytes.ofString (Text.unlines openingLines)

/-- A file with the same definitions, and one with a known path whose last line is not ended. -/
def continuation : Bytes :=
  Bytes.ofString (Text.unlines (["FILE: t.py"] ++ source ++ ["FILE: notes"]) ++ "y")

theorem texts_opening : Digest.texts opening = openingLines := by
  decide +kernel

theorem opening_fits : Digest.Fits opening continuation where
  ended := .inr (by decide +kernel)
  full := by
    rw [texts_opening]
    exact .inr ⟨["Files", "FILE: notes", "x"], "FILE: s.py", source ++ ["==="], rfl,
      by decide +kernel, by decide +kernel, "@d()", by decide +kernel, by decide +kernel⟩
  opened := ⟨"FILE: t.py", by decide +kernel, by decide +kernel⟩

end MergingLemmas

open AnchoredLemmas MergingLemmas in
theorem Converter.convert_append_sample :
    opening.IsText ∧ continuation.IsText ∧ Digest.Fits opening continuation ∧
      ∃ g₁ g₂ g, (converter.convert opening).result = .ok g₁ ∧
        (converter.convert continuation).result = .ok g₂ ∧
        (converter.convert (opening ++ continuation)).result = .ok g ∧ g.IsMerged g₁ g₂ ∧
        g.nodes.toList.map Node.id = ["notes", "s.py", "f", "f.A", "t.py"] := by
  have h₁ : opening.IsText := Bytes.isText_ofString _
  have h₂ : continuation.IsText := Bytes.isText_ofString _
  obtain ⟨g₁, g₂, g, r₁, r₂, r, merged, -⟩ := converter.convert_append h₁ h₂ opening_fits
  refine ⟨h₁, h₂, opening_fits, g₁, g₂, g, r₁, r₂, r, merged, ?_⟩
  obtain ⟨-, rfl⟩ := convert_eq_ok_iff.mp r
  rw [Digest.walk_of_isText (Bytes.isText_append h₁ h₂)]
  decide +kernel

end CodeAtlas
