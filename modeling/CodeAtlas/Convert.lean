import CodeAtlas.Digest.Chunker
import CodeAtlas.Extensions
import CodeAtlas.Failure
import CodeAtlas.Graph.Resolved
import CodeAtlas.Log

/-!
# Conversion

A converter turns digests into graphs. Each file of a digest becomes a node, and each Python file
adds its outline; a file that is not Python is counted as rejected and adds nothing else. Only a
failure that is not that of the file alone ends a conversion. The counters start anew with every
digest.
-/

namespace CodeAtlas

/-- How many files a converter has seen, and what became of them. -/
structure Counters where
  files : Nat := 0
  parsed : Nat := 0
  rejected : Nat := 0
  deriving DecidableEq, Repr, Inhabited

/-- A converter: which files it reads as Python, how it reads them, and its counters. -/
structure Converter where
  parse : Python.Parser
  extensions : Extensions := .usual
  counters : Counters := {}

namespace Converter

/-- The node of a file. -/
def fileNode (path : String) : Node :=
  ((Node.mk path .file []).withAttribute "name" (Path.fileName? path)).withPath path

/-- The state of a conversion: the converter, the graph so far and the log so far. -/
structure Progress where
  converter : Converter
  graph : Graph
  logs : List LogLine := []
  /-- Why the conversion cannot go on. -/
  failure : Option Failure := none

/-- Counts a file and adds its node. -/
def countFile (c : Converter) (path : String) (g : Graph) : Progress :=
  let (inserted, g) := g.insertNode (fileNode path)
  { converter := { c with counters.files := c.counters.files + 1 }
    graph := g
    logs := if inserted then [] else [⟨.debug, "Duplicate file block " ++ path⟩] }

/-- Adds the outline of a file in some language. -/
def addOutline (p : Progress) (language : Language) (chunk : Digest.Chunk) : Progress :=
  let c := p.converter
  let extraction := Python.extract c.parse chunk.path chunk.content p.graph
  let p := { p with graph := extraction.graph }
  match extraction.failure with
  | none => { p with converter := { c with counters.parsed := c.counters.parsed + 1 } }
  | some f =>
    if f.isRecoverable then
      { p with
        converter := { c with counters.rejected := c.counters.rejected + 1 }
        logs := p.logs ++ [⟨.debug, "Skipping " ++ language.name ++ " internals of " ++
          chunk.path ++ ": " ++ f.message⟩] }
    else { p with failure := some (.parseFile chunk.path f) }

/-- Adds one file to a graph. -/
def processChunk (c : Converter) (chunk : Digest.Chunk) (g : Graph) : Progress :=
  let p := c.countFile chunk.path g
  match c.extensions.language? chunk.path with
  | none => p
  | some language => addOutline p language chunk

/-- Adds files to a graph, one after the other, up to a failure. -/
def processAll (p : Progress) : List Digest.Chunk → Progress
  | [] => p
  | chunk :: rest =>
    let q := p.converter.processChunk chunk p.graph
    let q := { q with logs := p.logs ++ q.logs }
    match q.failure with
    | some _ => q
    | none => processAll q rest

/-- The log line with some numbers that sums up a conversion. -/
def summaryOf (c : Counters) (nodes relationships dangling : Nat) : LogLine :=
  ⟨.info, "Processed " ++ Nat.repr c.files ++ " files (" ++ Nat.repr c.parsed ++ " parsed, " ++
    Nat.repr c.rejected ++ " rejected): " ++ Nat.repr nodes ++ " nodes, " ++
    Nat.repr relationships ++ " relationships, " ++ Nat.repr dangling ++ " dangling"⟩

/-- The log line that sums up a conversion. -/
def summary (c : Counters) (g : Graph) : LogLine :=
  summaryOf c g.nodeCount g.relationshipCount (g.relationshipCount - g.resolved.edges.length)

/-- What came of a conversion. -/
structure Conversion where
  converter : Converter
  result : Except Failure Graph
  logs : List LogLine

/-- Converts a digest. -/
def convert (c : Converter) (digest : Bytes) : Conversion :=
  let walk := Digest.walk digest
  let p := processAll { converter := { c with counters := {} }, graph := .empty } walk.chunks
  match p.failure, walk.fault with
  | some f, _ => ⟨p.converter, .error f, p.logs⟩
  | none, some .notText => ⟨p.converter, .error (.readDigest .notText), p.logs⟩
  | none, none => ⟨p.converter, .ok p.graph, p.logs ++ [summary p.converter.counters p.graph]⟩

/-- Converts what was found at a path. The counters stay as they were if nothing could be opened. -/
def convertFound (c : Converter) (path : String) (found : Except Refusal Content) : Conversion :=
  let begun : LogLine := ⟨.info, "Converting digest " ++ path⟩
  match found with
  | .error r => ⟨c, .error (.openDigest path r), []⟩
  | .ok .directory =>
    ⟨{ c with counters := {} }, .error (.readDigest (.refused .isDirectory)), [begun]⟩
  | .ok (.file bytes) =>
    let conversion := c.convert bytes
    { conversion with logs := begun :: conversion.logs }

/-- Converts a digest that stands in a storage. -/
def convertStored (c : Converter) (s : Storage) (path : String) : Conversion :=
  c.convertFound path (s.find path)

end Converter

end CodeAtlas
