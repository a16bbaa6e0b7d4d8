import CodeAtlas.Proofs.Digest.Separators
import CodeAtlas.Proofs.Ignored
import Mathlib.Data.List.DropRight

/-!
# The life of a converter

A converter serves any number of calls. It converts digests and what paths lead to, and it adds
single files to graphs that others hold. Its counters survive every call: they are set back where a
conversion begins and nowhere else, so that a path that leads nowhere changes none of them, and a
conversion that fails leaves behind what it has counted.

A life is told by its events, which are conversions that begin and files that are processed. The
counters tell about the files behind the last beginning.

* `run_eq_foldl`: a call does its events to the converter, one after the other.
* `foldl_observe`: events one after the other count the files behind the last beginning.
* `length_chunks_of_fault`: how many files a digest hands out that cannot be read to its end.
* `counters_after`: the counters at every point of every life.
-/

namespace CodeAtlas

/-! ## Lives -/

/-- What the counters of a converter notice. -/
inductive Event where
  /-- A conversion begins. -/
  | began
  /-- A file is processed. -/
  | processed (chunk : Digest.Chunk)
  deriving DecidableEq, Repr

namespace Event

/-- The file that is processed. -/
def chunk? : Event → Option Digest.Chunk
  | .began => none
  | .processed chunk => some chunk

/-- The files that are processed behind the last beginning, or all of them if there is none. -/
def recent (events : List Event) : List Digest.Chunk :=
  (events.rtakeWhile (·.chunk?.isSome)).filterMap chunk?

/-- The events of a conversion: it begins, and then the files of the digest are processed. -/
def ofDigest (digest : Bytes) : List Event :=
  .began :: (Digest.walk digest).chunks.map .processed

/-- The events of the conversion of what was found at a path. It begins for a directory too, which
can be opened but not read. -/
def ofFound : Except Refusal Content → List Event
  | .error _ => []
  | .ok .directory => [.began]
  | .ok (.file bytes) => ofDigest bytes

end Event

/-- A call that a converter serves. -/
inductive Call where
  /-- A digest is converted. -/
  | digest (bytes : Bytes)
  /-- What a path leads to is converted. -/
  | stored (storage : Storage) (path : String)
  /-- A file is added to a graph. -/
  | file (chunk : Digest.Chunk) (graph : Graph)

namespace Call

/-- The digest that a call converts. -/
def digest? : Call → Option Bytes
  | .digest bytes => some bytes
  | .stored storage path =>
    match storage.find path with
    | .ok (.file bytes) => some bytes
    | _ => none
  | .file _ _ => none

/-- The converter behind a call. -/
def run (c : Converter) : Call → Converter
  | .digest bytes => (c.convert bytes).converter
  | .stored storage path => (c.convertStored storage path).converter
  | .file chunk graph => (c.processChunk chunk graph).converter

/-- What a conversion comes to. -/
def result? (c : Converter) : Call → Option (Except Failure Graph)
  | .digest bytes => some (c.convert bytes).result
  | .stored storage path => some (c.convertStored storage path).result
  | .file _ _ => none

def events : Call → List Event
  | .digest bytes => Event.ofDigest bytes
  | .stored storage path => Event.ofFound (storage.find path)
  | .file chunk _ => [.processed chunk]

end Call

/-- The converter behind some calls. -/
def Converter.after (c : Converter) (calls : List Call) : Converter := calls.foldl Call.run c

/-- Counters tell how many of some files there are, how many of them are read as Python, and on how
many of those extraction succeeds, in whatever graph. -/
structure Counters.Tell (n : Counters) (parse : Python.Parser) (extensions : Extensions)
    (chunks : List Digest.Chunk) : Prop where
  files : n.files = chunks.length
  detected : n.parsed + n.rejected =
    chunks.countP fun chunk => (extensions.language? chunk.path).isSome
  parsed : ∀ g : Graph, n.parsed = chunks.countP fun chunk =>
    (extensions.language? chunk.path).isSome &&
      (Python.extract parse chunk.path chunk.content g).failure.isNone
  bounded : n.parsed + n.rejected ≤ n.files

namespace LifetimeLemmas

open Converter

/-! ## Events -/

/-- What an event does to a converter. -/
def observe (c : Converter) : Event → Converter
  | .began => { c with counters := {} }
  | .processed chunk =>
    { c with
      counters :=
        { files := c.counters.files + 1
          parsed := c.counters.parsed + if c.accepts chunk then 1 else 0
          rejected := c.counters.rejected + if c.rejects chunk then 1 else 0 } }

theorem processChunk_eq_observe (c : Converter) (chunk : Digest.Chunk) (g : Graph) :
    (c.processChunk chunk g).converter = observe c (.processed chunk) := by
  obtain ⟨logs, h⟩ := c.processChunk_eq chunk g
  rw [h]
  rfl

theorem processAll_eq_foldl (p : Progress) (chunks : List Digest.Chunk) :
    (processAll p chunks).converter = (chunks.map .processed).foldl observe p.converter := by
  induction chunks generalizing p with
  | nil => rfl
  | cons chunk rest ih =>
    rw [processAll_cons, ih, List.map_cons, List.foldl_cons, ← processChunk_eq_observe]

theorem convert_eq_foldl (c : Converter) (digest : Bytes) :
    (c.convert digest).converter = (Event.ofDigest digest).foldl observe c := by
  rw [converter_convert, processAll_eq_foldl]
  rfl

theorem convertFound_eq_foldl (c : Converter) (path : String) (found : Except Refusal Content) :
    (c.convertFound path found).converter = (Event.ofFound found).foldl observe c := by
  cases found with
  | error refusal => rfl
  | ok content =>
    cases content with
    | directory => rfl
    | file bytes => exact convert_eq_foldl c bytes

/-- A call does its events to the converter, one after the other. -/
theorem run_eq_foldl (c : Converter) (call : Call) : call.run c = call.events.foldl observe c := by
  cases call with
  | digest bytes => exact convert_eq_foldl c bytes
  | stored storage path => exact convertFound_eq_foldl c path (storage.find path)
  | file chunk graph => exact processChunk_eq_observe c chunk graph

theorem after_eq_foldl (c : Converter) (calls : List Call) :
    c.after calls = (calls.flatMap Call.events).foldl observe c := by
  rw [after, List.foldl_flatMap]
  exact congrArg (fun run => calls.foldl run c) (funext₂ run_eq_foldl)

/-! ## Files behind the last beginning -/

theorem recent_concat_began (events : List Event) : Event.recent (events ++ [.began]) = [] := by
  rw [Event.recent, List.rtakeWhile_concat_neg _ _ _ (by simp [Event.chunk?]), List.filterMap_nil]

theorem recent_concat_processed (events : List Event) (chunk : Digest.Chunk) :
    Event.recent (events ++ [.processed chunk]) = Event.recent events ++ [chunk] := by
  rw [Event.recent, List.rtakeWhile_concat_pos _ _ _ rfl, List.filterMap_append]
  rfl

/-- The counters for some files. -/
def tally (c : Converter) (chunks : List Digest.Chunk) : Counters where
  files := chunks.length
  parsed := chunks.countP c.accepts
  rejected := chunks.countP c.rejects

theorem tally_concat (c : Converter) (chunks : List Digest.Chunk) (chunk : Digest.Chunk) :
    tally c (chunks ++ [chunk]) =
      { files := chunks.length + 1
        parsed := chunks.countP c.accepts + if c.accepts chunk then 1 else 0
        rejected := chunks.countP c.rejects + if c.rejects chunk then 1 else 0 } := by
  simp only [tally, List.length_append, List.length_singleton, List.countP_append,
    List.countP_singleton]

/-- Events one after the other count the files behind the last beginning. -/
theorem foldl_observe (c : Converter) (new : c.counters = {}) (events : List Event) :
    events.foldl observe c = { c with counters := tally c (Event.recent events) } := by
  induction events using List.reverseRecOn with
  | nil =>
    obtain ⟨parse, extensions, counters⟩ := c
    obtain rfl : counters = {} := new
    rfl
  | append_singleton events event ih =>
    rw [List.foldl_concat, ih]
    -- a beginning forgets the files before it, and a file is one more
    cases event with
    | began =>
      rw [recent_concat_began]
      rfl
    | processed chunk =>
      rw [recent_concat_processed, tally_concat]
      rfl

theorem tell_tally (c : Converter) (chunks : List Digest.Chunk) :
    (tally c chunks).Tell c.parse c.extensions chunks := by
  have detected : chunks.countP c.accepts + chunks.countP c.rejects =
      chunks.countP fun chunk => (c.extensions.language? chunk.path).isSome := by
    have split := chunks.countP_eq_countP_filter_add
      (fun chunk => (c.extensions.language? chunk.path).isSome)
      (fun chunk => (Python.treeOf c.parse chunk.content).isOk)
    rw [List.countP_filter, List.countP_filter] at split
    exact split.symm
  refine ⟨rfl, detected, fun g => ?_, ?_⟩
  · simp only [Python.isNone_failure_extract]
    rfl
  · exact detected.trans_le List.countP_le_length

/-! ## Digests that cannot be read to their end -/

theorem length_blocks (ls : List String) :
    (Digest.blocks ls).length = ls.countP Digest.opens := by
  induction ls with
  | nil => rfl
  | cons l ls ih =>
    cases opening : Digest.opens l with
    | true =>
      rw [Digest.blocks_cons_of_opens opening, List.length_cons, ih,
        List.countP_cons_of_pos opening]
    | false =>
      rw [Digest.blocks_cons_of_not_opens opening, ih, List.countP_cons_of_neg (by simp [opening])]

/-- Every marker before the fault but the first one closes a block. -/
theorem length_chunks_of_fault {digest : Bytes} {f : Digest.Fault}
    (h : (Digest.walk digest).fault = some f) :
    (Digest.walk digest).chunks.length = (Digest.texts digest).countP Digest.opens - 1 := by
  rw [Digest.walk_eq_outcome] at h ⊢
  unfold Digest.outcome at h ⊢
  split
  · next complete =>
    rw [if_pos complete] at h
    contradiction
  · rw [List.length_map, List.length_dropLast, length_blocks]

theorem fault_of_notText {c : Converter} {digest : Bytes}
    (h : (c.convert digest).result = .error (.readDigest .notText)) :
    (Digest.walk digest).fault = some .notText := by
  rw [convert_eq] at h
  cases fault : (Digest.walk digest).fault with
  | none =>
    rw [fault] at h
    contradiction
  | some f =>
    cases f
    rfl

/-- A line that is not UTF-8 is found in a digest only. -/
theorem digest_of_notText {c : Converter} {call : Call}
    (h : call.result? c = some (.error (.readDigest .notText))) :
    ∃ digest, call.digest? = some digest ∧ (Digest.walk digest).fault = some .notText := by
  cases call with
  | file chunk graph => contradiction
  | digest bytes => exact ⟨bytes, rfl, fault_of_notText (Option.some.inj h)⟩
  | stored storage path =>
    have h := Option.some.inj h
    rw [convertStored] at h
    rw [Call.digest?]
    cases found : storage.find path with
    | error refusal => simp [found, convertFound] at h
    | ok content =>
      cases content with
      | directory => simp [found, convertFound] at h
      | file bytes =>
        rw [found] at h
        exact ⟨bytes, rfl, fault_of_notText h⟩

theorem events_of_digest {call : Call} {digest : Bytes} (h : call.digest? = some digest) :
    call.events = Event.ofDigest digest := by
  cases call with
  | file chunk graph => contradiction
  | digest bytes =>
    obtain rfl := Option.some.inj h
    rfl
  | stored storage path =>
    rw [Call.digest?] at h
    rw [Call.events]
    split at h
    · next bytes found =>
      obtain rfl := Option.some.inj h
      rw [found]
      rfl
    · contradiction

theorem files_run (c : Converter) {call : Call} {digest : Bytes} (h : call.digest? = some digest) :
    (call.run c).counters.files = (Digest.walk digest).chunks.length := by
  rw [run_eq_foldl, events_of_digest h, ← convert_eq_foldl, counters_convert]

end LifetimeLemmas

open LifetimeLemmas in
/-- The counters at every point of the life of a converter. Behind any calls, they tell about the
files that were processed since the last conversion began, or since the start. A call with a path
that cannot be opened changes none of them. Behind a call that fails at a line that is not UTF-8,
as many files are counted as markers stand before that line, without the first one: the others each
close a file. -/
theorem Converter.counters_after (parse : Python.Parser) (extensions : Extensions)
    (calls : List Call) :
    let c := after { parse, extensions } calls
    c.counters.Tell parse extensions (Event.recent (calls.flatMap Call.events)) ∧
      (∀ storage path refusal, storage.find path = .error refusal →
        ((Call.stored storage path).run c).counters = c.counters) ∧
      ∀ call : Call, call.result? c = some (.error (.readDigest .notText)) →
        ∃ digest, call.digest? = some digest ∧ (call.run c).counters.files =
          (Digest.texts digest).countP Digest.opens - 1 := by
  intro c
  refine ⟨?_, ?_, ?_⟩
  · have counted := foldl_observe { parse, extensions } rfl (calls.flatMap Call.events)
    rw [← after_eq_foldl] at counted
    have told := tell_tally { parse, extensions } (Event.recent (calls.flatMap Call.events))
    rwa [show c.counters = _ from congrArg counters counted]
  · intro storage path refusal h
    rw [run_eq_foldl, Call.events, h]
    rfl
  · intro call h
    obtain ⟨digest, converts, fault⟩ := digest_of_notText h
    exact ⟨digest, converts, (files_run c converts).trans (length_chunks_of_fault fault)⟩

namespace LifetimeLemmas

open IgnoredLemmas Digest.SeparatorsLemmas Python.PlacesLemmas

/-- A digest whose second file has a line that is not UTF-8. -/
def unreadable : Bytes := readablePart ++ unreadableLine ++ openLine

theorem walk_unreadable : (Digest.walk unreadable).chunks = [⟨"a", "x"⟩] ∧
    (Digest.walk unreadable).fault = some .notText := by
  rw [Digest.walk_eq_outcome]
  decide +kernel

/-- A file before any conversion, a conversion that fails, one that does not begin, and then a file
with a fault and an empty one. -/
def life : List Call :=
  [.file ⟨"s.py", sampleSource⟩ .empty, .digest unreadable, .stored .empty "absent",
    .file ⟨"b.py", "("⟩ .empty, .file ⟨"c.py", ""⟩ .empty]

theorem recent_life : Event.recent (life.flatMap Call.events) =
    [⟨"a", "x"⟩, ⟨"b.py", "("⟩, ⟨"c.py", ""⟩] := by
  simp only [life, List.flatMap_cons, Call.events, Event.ofDigest, walk_unreadable.1]
  decide +kernel

def survivor : Converter := reader.after life

end LifetimeLemmas

open LifetimeLemmas in
theorem Converter.counters_after_life :
    survivor.counters.Tell IgnoredLemmas.faultyParser .usual
        [⟨"a", "x"⟩, ⟨"b.py", "("⟩, ⟨"c.py", ""⟩] ∧
      survivor.counters.files = 3 ∧ survivor.counters.parsed = 1 ∧
      survivor.counters.parsed + survivor.counters.rejected = 2 ∧
      Storage.empty.find "absent" = .error .notFound ∧
      ((Call.stored .empty "absent").run survivor).counters = survivor.counters ∧
      (Call.digest unreadable).result? survivor = some (.error (.readDigest .notText)) ∧
      ((Call.digest unreadable).run survivor).counters.files = 1 := by
  obtain ⟨told, unopened, failed⟩ := counters_after IgnoredLemmas.faultyParser .usual life
  rw [recent_life] at told
  have absent : Storage.empty.find "absent" = .error .notFound := by decide +kernel
  have fails : (Call.digest unreadable).result? survivor =
      some (.error (.readDigest .notText)) := by
    rw [Call.result?, convert_eq, walk_unreadable.2]
  obtain ⟨digest, converts, files⟩ := failed (.digest unreadable) fails
  obtain rfl : unreadable = digest := Option.some.inj converts
  exact ⟨told, told.files, (told.parsed .empty).trans (by decide +kernel),
    told.detected.trans (by decide +kernel), absent, unopened _ _ _ absent, fails,
    files.trans (by decide +kernel)⟩

end CodeAtlas
