import CodeAtlas.Proofs.Detection
import CodeAtlas.Proofs.Ignored
import CodeAtlas.Proofs.Reordering
import Mathlib.Data.List.Flatten

/-!
# More extensions

A converter that reads more files as Python finds what it found before, and perhaps more. The files
that are newly read add their outlines in the middle of the run. Relationships are kept in the order
in which they come, so the old ones stay in order. Nodes need not stay: an id can be taken by a file
that is newly read and stands before the one that had it. But the id is still known.

* `toList_ofList_subset`, `language?_of_subset`: more extensions detect more files.
* `entries_sublist`: a file adds at least as much.
* `within_addAll`: a graph to which more is added has more ids and more relationships.
* `convert_extensions`: digests.
-/

namespace CodeAtlas

/-! ## Detection -/

namespace Extensions

theorem toList_ofList_subset {extensions extensions' : List String}
    (h : extensions ⊆ extensions') : (ofList extensions).toList ⊆ (ofList extensions').toList := by
  intro x hx
  have hx := mem_toList_withPython.mp hx
  exact mem_toList_withPython.mpr (List.filter_subset _ (List.map_subset _ h) hx)

/-- A file that is read as some language stays so. -/
theorem language?_of_subset {e e' : Extensions} (h : e.toList ⊆ e'.toList) {path : String}
    {language : Language} (detected : e.language? path = some language) :
    e'.language? path = some language := by
  cases language
  obtain ⟨x, hx, ends⟩ := language?_eq_python_iff.mp detected
  exact language?_eq_python_iff.mpr ⟨x, h hx, ends⟩

end Extensions

namespace ExtensionsLemmas

open Converter

variable {e e' : Extensions}

theorem isSome_language?_of_subset (h : e.toList ⊆ e'.toList) {path : String}
    (detected : (e.language? path).isSome = true) : (e'.language? path).isSome = true := by
  obtain ⟨language, found⟩ := Option.isSome_iff_exists.mp detected
  rw [Extensions.language?_of_subset h found]
  rfl

/-- A file that is read as Python and passes another test still does both. -/
theorem detected_and_of_subset (h : e.toList ⊆ e'.toList) {path : String} {b : Bool}
    (both : ((e.language? path).isSome && b) = true) :
    ((e'.language? path).isSome && b) = true := by
  obtain ⟨detected, hb⟩ := Bool.and_eq_true_iff.mp both
  exact Bool.and_eq_true_iff.mpr ⟨isSome_language?_of_subset h detected, hb⟩

/-! ## Files -/

theorem accepts_of_subset (h : e.toList ⊆ e'.toList) {c : Converter} {chunk : Digest.Chunk}
    (accepted : { c with extensions := e }.accepts chunk = true) :
    { c with extensions := e' }.accepts chunk = true :=
  detected_and_of_subset h accepted

theorem rejects_of_subset (h : e.toList ⊆ e'.toList) {c : Converter} {chunk : Digest.Chunk}
    (rejected : { c with extensions := e }.rejects chunk = true) :
    { c with extensions := e' }.rejects chunk = true :=
  detected_and_of_subset h rejected

theorem tree?_of_subset (h : e.toList ⊆ e'.toList) {c : Converter} {chunk : Digest.Chunk}
    {t : Python.Tree} (tree : { c with extensions := e }.tree? chunk = some t) :
    { c with extensions := e' }.tree? chunk = some t := by
  obtain ⟨detected, tree⟩ := tree?_eq_some_iff.mp tree
  exact tree?_eq_some_iff.mpr ⟨isSome_language?_of_subset h detected, tree⟩

/-- A file adds at least as much. -/
theorem entries_sublist (h : e.toList ⊆ e'.toList) (c : Converter) (chunk : Digest.Chunk) :
    ({ c with extensions := e }.entries chunk).Sublist
      ({ c with extensions := e' }.entries chunk) := by
  unfold entries
  apply List.Sublist.cons_cons
  cases tree : { c with extensions := e }.tree? chunk with
  | none => exact List.nil_sublist _
  | some t => rw [tree?_of_subset h tree]

end ExtensionsLemmas

/-! ## Graphs -/

/-- A graph knows the ids of another one, and has its relationships of each kind in their order. -/
structure Graph.Within (g g' : Graph) : Prop where
  ids : g.nodes.toList.map Node.id ⊆ g'.nodes.toList.map Node.id
  relationships : ∀ kind, (g.relationships kind).Sublist (g'.relationships kind)

theorem Graph.within_addAll {es fs : List Entry} (h : es.Sublist fs) :
    (empty.addAll es).Within (empty.addAll fs) where
  ids id hid := by
    rw [mem_ids_iff, hasNode_addAll] at hid ⊢
    exact hid.imp_right fun known => ((h.filterMap _).map _).subset known
  relationships kind := by
    rw [relationships_addAll_empty, relationships_addAll_empty]
    exact h.filterMap _

open ExtensionsLemmas in
/-- More extensions only add. For a digest that is text, the conversion with more extensions has all
ids, and all relationships of each kind in their order. As many files are counted, and at least as
many of them as parsed and as rejected. -/
theorem Converter.convert_extensions (c : Converter) {digest : Bytes} (h : digest.IsText)
    {extensions extensions' : List String} (more : extensions ⊆ extensions') :
    let few := { c with extensions := .ofList extensions }.convert digest
    let many := { c with extensions := .ofList extensions' }.convert digest
    ∃ g g', few.result = .ok g ∧ many.result = .ok g' ∧ g.Within g' ∧
      few.converter.counters.files = many.converter.counters.files ∧
      few.converter.counters.parsed ≤ many.converter.counters.parsed ∧
      few.converter.counters.rejected ≤ many.converter.counters.rejected := by
  have subset := Extensions.toList_ofList_subset more
  refine ⟨_, _, convert_of_isText _ h, convert_of_isText _ h, ?_, ?_⟩
  · exact Graph.within_addAll
      (List.Sublist.flatMap_right _ fun chunk _ => entries_sublist subset c chunk)
  · rw [counters_convert, counters_convert]
    exact ⟨rfl, List.countP_mono_left fun _ _ => accepts_of_subset subset,
      List.countP_mono_left fun _ _ => rejects_of_subset subset⟩

namespace ExtensionsLemmas

open IgnoredLemmas ReorderingLemmas

/-- A file that defines a class, another file whose path is the qualified name of that class, an
empty file that is read in any case, and one with a fault. -/
def stubs : List Digest.Chunk :=
  [⟨"s.pyi", Python.PlacesLemmas.sampleSource⟩, ⟨"f.A", "x"⟩, ⟨"t.py", ""⟩, ⟨"u.pyi", "("⟩]

theorem chunks_walk_stubs : (Digest.walk (Digest.render stubs)).chunks = stubs :=
  Digest.chunks_walk_render (by decide +kernel)

def few : Converter := { reader with extensions := .ofList ["py"] }

def many : Converter := { reader with extensions := .ofList [".pyi", "py"] }

end ExtensionsLemmas

open ExtensionsLemmas ReorderingLemmas in
/-- The id `f.A` goes from the file of that path to the class. -/
theorem Converter.convert_extensions_stubs :
    (Digest.render stubs).IsText ∧ ["py"] ⊆ [".pyi", "py"] ∧
      ∃ g g', (few.convert (Digest.render stubs)).result = .ok g ∧
        (many.convert (Digest.render stubs)).result = .ok g' ∧ g.Within g' ∧
        (few.convert (Digest.render stubs)).converter.counters = ⟨4, 1, 0⟩ ∧
        (many.convert (Digest.render stubs)).converter.counters = ⟨4, 2, 1⟩ ∧
        (g.node? "f.A").map Node.label = some .file ∧
        (g'.node? "f.A").map Node.label = some .classDef := by
  have h := Digest.isText_render stubs
  have more : ["py"] ⊆ [".pyi", "py"] := by decide
  obtain ⟨g, g', result, result', within, -⟩ := IgnoredLemmas.reader.convert_extensions h more
  refine ⟨h, more, g, g', result, result', within, ?_, ?_, ?_, ?_⟩
  · rw [counters_convert, chunks_walk_stubs]
    decide +kernel
  · rw [counters_convert, chunks_walk_stubs]
    decide +kernel
  · obtain ⟨-, rfl⟩ := convert_eq_ok_iff.mp result
    rw [chunks_walk_stubs]
    decide +kernel
  · obtain ⟨-, rfl⟩ := convert_eq_ok_iff.mp result'
    rw [chunks_walk_stubs]
    decide +kernel

end CodeAtlas
