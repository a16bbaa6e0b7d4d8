import CodeAtlas.Proofs.Digest.Joined

/-!
# Chunks written and read again

A chunk is written as a marker line with its path, its content and a line feed. Written chunks read
as themselves exactly if they are normal: a path is one trimmed line, and no line of the content is
a marker or a separator. The chunks that a walk hands out are always normal, whatever the digest is,
so that writing and reading them again changes nothing.

Content without any line and content that is one blank line are the same text. Both are written with
a blank line behind the marker, and therefore the last chunk is not lost even if it is empty.

* `normal_of_mem_chunks`: what a walk hands out is normal.
* `chunks_walk_render`, `items_walk_render`: normal chunks survive.
-/

namespace CodeAtlas.Digest

/-- A chunk that can be read from a digest. -/
structure Chunk.Normal (c : Chunk) : Prop where
  oneLine : '\n' ∉ c.path.toList
  trimmed : Text.trim c.path = c.path
  plain : ∀ l ∈ Text.pieces c.content, opens l = false ∧ isRule l = false

instance (c : Chunk) : Decidable c.Normal :=
  decidable_of_iff
    ('\n' ∉ c.path.toList ∧ Text.trim c.path = c.path ∧
      ∀ l ∈ Text.pieces c.content, opens l = false ∧ isRule l = false)
    ⟨fun h => ⟨h.1, h.2.1, h.2.2⟩, fun h => ⟨h.oneLine, h.trimmed, h.plain⟩⟩

/-- A chunk as it stands in a digest. -/
def Chunk.render (c : Chunk) : String :=
  String.ofList marker ++ c.path ++ "\n" ++ c.content ++ "\n"

/-- Chunks as a digest, one behind the other. -/
def render (cs : List Chunk) : Bytes := Bytes.ofString (String.join (cs.map Chunk.render))

theorem isText_render (cs : List Chunk) : (render cs).IsText := Bytes.isText_ofString _

namespace RoundTripLemmas

/-! ## What a walk hands out -/

theorem lineFeed_notMem_of_mem_texts {digest : Bytes} {l : String} (h : l ∈ texts digest) :
    '\n' ∉ l.toList := by
  rw [texts, Bytes.map_textOf?_cut, readable, List.mem_filterMap] at h
  obtain ⟨t, ht, rfl⟩ := h
  obtain ⟨line, hline, decoded⟩ := List.mem_map.mp ((List.takeWhile_subset _) ht)
  rw [← Bytes.lineFeed_mem_ofString_iff, Bytes.decode?_eq_some_iff.mp decoded]
  exact Bytes.lineFeed_notMem_of_mem_lines hline

/-- Paths and lines of blocks come from the lines that were grouped. -/
theorem of_mem_blocks {ls : List String} {b : Block} (h : b ∈ blocks ls) :
    (∃ l ∈ ls, b.path = pathOf l) ∧
      ∀ l ∈ b.lines, l ∈ ls ∧ opens l = false ∧ isRule l = false := by
  induction ls with
  | nil =>
    rw [blocks_nil] at h
    contradiction
  | cons l ls ih =>
    have later : b ∈ blocks ls → (∃ m ∈ l :: ls, b.path = pathOf m) ∧
        ∀ m ∈ b.lines, m ∈ l :: ls ∧ opens m = false ∧ isRule m = false := by
      intro hb
      obtain ⟨⟨m, hm, path⟩, lines⟩ := ih hb
      refine ⟨⟨m, List.mem_cons_of_mem _ hm, path⟩, fun m hm => ?_⟩
      exact ⟨List.mem_cons_of_mem _ (lines m hm).1, (lines m hm).2⟩
    cases opening : opens l with
    | false =>
      rw [blocks_cons_of_not_opens opening] at h
      exact later h
    | true =>
      rw [blocks_cons_of_opens opening] at h
      rcases List.mem_cons.mp h with rfl | h
      · refine ⟨⟨l, List.mem_cons_self, rfl⟩, fun m hm => ?_⟩
        obtain ⟨hm, content⟩ := List.mem_filter.mp hm
        have closed := List.mem_takeWhile_imp (p := (!opens ·)) hm
        exact ⟨List.mem_cons_of_mem _ ((List.takeWhile_subset _) hm), by simpa using closed,
          by simpa using content⟩
      · exact later h

theorem mem_blocks_of_mem_chunks {digest : Bytes} {c : Chunk} (h : c ∈ (walk digest).chunks) :
    ∃ b ∈ blocks (texts digest), b.chunk = c := by
  rw [walk_eq_outcome, outcome] at h
  split at h
  · obtain ⟨b, hb, rfl⟩ := List.mem_map.mp h
    refine ⟨b, ?_, rfl⟩
    rcases List.mem_append.mp hb with hb | hb
    · exact (List.dropLast_sublist _).subset hb
    · exact List.mem_of_getLast? (Option.mem_toList.mp (List.mem_filter.mp hb).1)
  · obtain ⟨b, hb, rfl⟩ := List.mem_map.mp h
    exact ⟨b, (List.dropLast_sublist _).subset hb, rfl⟩

theorem trim_pathOf (l : String) : Text.trim (pathOf l) = pathOf l := by
  simp [pathOf, Text.trim, Text.trimChars_trimChars]

theorem lineFeed_notMem_pathOf {l : String} (h : '\n' ∉ l.toList) : '\n' ∉ (pathOf l).toList := by
  intro feed
  rw [pathOf, Text.trim, String.toList_ofList, String.toList_ofList] at feed
  exact h ((List.drop_subset 6 _) (Text.mem_of_mem_trimChars feed))

theorem pieces_content_chunk {b : Block} (h : ∀ l ∈ b.lines, '\n' ∉ l.toList) :
    ∀ l ∈ Text.pieces b.chunk.content, l ∈ b.lines ∨ l = "" := by
  intro l hl
  by_cases none : b.lines = []
  · have content : b.chunk.content = "" := by rw [Block.chunk, none]; rfl
    have blank : Text.pieces "" = [""] := by decide +kernel
    rw [content, blank, List.mem_singleton] at hl
    exact .inr hl
  · have lines : Text.pieces b.chunk.content = b.lines := Text.pieces_intercalate none h
    exact .inl (lines ▸ hl)

end RoundTripLemmas

open RoundTripLemmas in
/-- What a walk hands out is normal. -/
theorem normal_of_mem_chunks {digest : Bytes} {c : Chunk} (h : c ∈ (walk digest).chunks) :
    c.Normal := by
  obtain ⟨b, hb, rfl⟩ := mem_blocks_of_mem_chunks h
  obtain ⟨⟨l, hl, path⟩, lines⟩ := of_mem_blocks hb
  have free : ∀ l ∈ texts digest, '\n' ∉ l.toList := fun l hl => lineFeed_notMem_of_mem_texts hl
  refine ⟨?_, ?_, ?_⟩
  · show '\n' ∉ b.path.toList
    rw [path]
    exact lineFeed_notMem_pathOf (free l hl)
  · show Text.trim b.path = b.path
    rw [path, trim_pathOf]
  · intro m hm
    rcases pieces_content_chunk (fun m hm => free m (lines m hm).1) m hm with hm | rfl
    · exact (lines m hm).2
    · decide +kernel

/-! ## What is written -/

namespace RoundTripLemmas

/-- The line that opens a chunk. -/
def opening (c : Chunk) : String := String.ofList marker ++ c.path

/-- The lines of a written chunk. -/
def linesOf (c : Chunk) : List String := opening c :: Text.pieces c.content

theorem render_eq_unlines (c : Chunk) : c.render = Text.unlines (linesOf c) := by
  rw [linesOf, Text.unlines_cons, Text.unlines_eq_intercalate (Text.pieces_ne_nil _),
    Text.intercalate_pieces, Chunk.render, opening]
  simp only [String.append_assoc]

theorem join_render (cs : List Chunk) :
    String.join (cs.map Chunk.render) = Text.unlines (cs.flatMap linesOf) := by
  induction cs with
  | nil => rfl
  | cons c cs ih =>
    rw [List.map_cons, String.join_cons, ih, render_eq_unlines, List.flatMap_cons,
      Text.unlines_append]

theorem opens_opening (c : Chunk) : opens (opening c) = true := by
  rw [opens, opening, String.toList_append, String.toList_ofList, List.isPrefixOf_iff_prefix]
  exact List.prefix_append marker c.path.toList

theorem pathOf_opening {c : Chunk} (h : c.Normal) : pathOf (opening c) = c.path := by
  rw [pathOf, opening, String.toList_append, String.toList_ofList, ← marker_length,
    List.drop_left, String.ofList_toList, h.trimmed]

theorem lineFeed_notMem_opening {c : Chunk} (h : c.Normal) : '\n' ∉ (opening c).toList := by
  rw [opening, String.toList_append, String.toList_ofList, List.mem_append, not_or]
  exact ⟨by decide +kernel, h.oneLine⟩

theorem texts_render {cs : List Chunk} (h : ∀ c ∈ cs, c.Normal) :
    texts (render cs) = cs.flatMap linesOf := by
  have free : ∀ l ∈ cs.flatMap linesOf, '\n' ∉ l.toList := by
    intro l hl
    obtain ⟨c, hc, hl⟩ := List.mem_flatMap.mp hl
    rcases List.mem_cons.mp hl with rfl | hl
    · exact lineFeed_notMem_opening (h c hc)
    · exact Text.lineFeed_notMem_of_mem_pieces hl
  have written := Bytes.map_textOf?_unlines_append free ""
  have nothing : (Bytes.ofString "").cut = [] := rfl
  rw [String.append_empty, nothing, List.map_nil, List.append_nil] at written
  rw [texts, render, join_render, written, readable_map_some]

/-- The block of a written chunk. -/
def blockOf (c : Chunk) : Block := ⟨c.path, Text.pieces c.content⟩

theorem blocks_linesOf {c : Chunk} (h : c.Normal) : blocks (linesOf c) = [blockOf c] := by
  have content : (Text.pieces c.content).filter (!isRule ·) = Text.pieces c.content := by
    rw [List.filter_eq_self]
    intro l hl
    simp [(h.plain l hl).2]
  rw [linesOf, blocks_cons_of_forall (opens_opening c) fun l hl => (h.plain l hl).1, content,
    pathOf_opening h, blockOf]

theorem blocks_flatMap_linesOf {cs : List Chunk} (h : ∀ c ∈ cs, c.Normal) :
    blocks (cs.flatMap linesOf) = cs.map blockOf := by
  induction cs with
  | nil => exact blocks_nil
  | cons c cs ih =>
    have begins : ∀ l ∈ (cs.flatMap linesOf).head?, opens l = true := by
      cases cs with
      | nil => simp
      | cons d cs =>
        intro l hl
        obtain rfl := Option.some.inj hl
        exact opens_opening d
    rw [List.flatMap_cons, blocks_append begins, blocks_linesOf (h c List.mem_cons_self),
      ih fun d hd => h d (List.mem_cons_of_mem _ hd), List.map_cons, List.singleton_append]

theorem kept_map_blockOf (cs : List Chunk) : kept (cs.map blockOf) = cs.map blockOf := by
  refine kept_eq_self fun b hb => ?_
  obtain ⟨c, -, rfl⟩ := List.mem_map.mp (List.mem_of_getLast? hb)
  exact Text.pieces_ne_nil c.content

theorem chunk_blockOf (c : Chunk) : (blockOf c).chunk = c := by
  rw [Block.chunk, blockOf, Text.intercalate_pieces]

end RoundTripLemmas

open RoundTripLemmas in
/-- Normal chunks survive being written and read again. -/
theorem chunks_walk_render {cs : List Chunk} (h : ∀ c ∈ cs, c.Normal) :
    (walk (render cs)).chunks = cs := by
  have same : Block.chunk ∘ blockOf = id := funext chunk_blockOf
  rw [walk_of_isText (isText_render cs), texts_render h, blocks_flatMap_linesOf h,
    kept_map_blockOf, List.map_map, same, List.map_id]

theorem fault_walk_render (cs : List Chunk) : (walk (render cs)).fault = none :=
  fault_walk_eq_none_iff.mpr (isText_render cs)

theorem items_walk_render {cs : List Chunk} (h : ∀ c ∈ cs, c.Normal) :
    (walk (render cs)).items = cs.map .ok := by
  rw [Walk.items, chunks_walk_render h, fault_walk_render]
  exact List.append_nil _

/-- Writing and reading again is the identity on all chunks that a walk can hand out. Those are
normal for every digest, valid or not; any normal chunks read as themselves, with no fault, however
many they are and also if paths or contents are empty; and so a digest that is read, written and
read again gives the same chunks. -/
theorem walk_render_walk :
    (∀ digest, ∀ c ∈ (walk digest).chunks, c.Normal) ∧
      (∀ cs : List Chunk, (∀ c ∈ cs, c.Normal) → (walk (render cs)).items = cs.map .ok) ∧
      ∀ digest, (walk (render (walk digest).chunks)).items = (walk digest).chunks.map .ok := by
  have normal : ∀ digest, ∀ c ∈ (walk digest).chunks, c.Normal :=
    fun digest c hc => normal_of_mem_chunks hc
  exact ⟨normal, fun cs h => items_walk_render h, fun digest => items_walk_render (normal digest)⟩

namespace RoundTripLemmas

/-- Chunks without paths or content, content that ends with a blank line, lines that are nearly
markers or separators, and an empty chunk at the end. -/
def oddChunks : List Chunk :=
  [⟨"", ""⟩, ⟨"a b.py", "x\n"⟩, ⟨"c", "\n FILE: d\r\nFILE:\n= =\r"⟩, ⟨"é", ""⟩]

end RoundTripLemmas

open RoundTripLemmas in
theorem walk_render_walk_oddChunks :
    (∀ c ∈ oddChunks, c.Normal) ∧ (walk (render oddChunks)).items = oddChunks.map .ok := by
  have normal : ∀ c ∈ oddChunks, c.Normal := by decide +kernel
  exact ⟨normal, walk_render_walk.2.1 oddChunks normal⟩

end CodeAtlas.Digest
