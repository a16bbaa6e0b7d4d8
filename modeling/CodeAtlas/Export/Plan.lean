import CodeAtlas.Failure
import CodeAtlas.Log

/-!
# Export plans

An export is planned as a list of steps before anything is written. Carrying out a plan stops at
the first step that is refused; what was written until then stays.
-/

namespace CodeAtlas

/-- One step of an export. -/
inductive ExportStep where
  | makeDirectories (path : String)
  /-- Writes a table. -/
  | table (path text : String)
  /-- Writes a document. -/
  | document (path text : String)
  | log (line : LogLine)
  deriving DecidableEq, Repr

namespace ExportStep

/-- Carries out a step in a storage. -/
def apply (s : Storage) : ExportStep → Except Failure Storage
  | .makeDirectories path => (s.makeDirectories path).mapError (.makeDirectory path)
  | .table path text => (s.write path (Bytes.ofString text)).mapError (.createFile path)
  | .document path text => (s.write path (Bytes.ofString text)).mapError (.writeFile path)
  | .log _ => .ok s

/-- What is left of a storage by a step that is refused. -/
def leftBehind (s : Storage) : ExportStep → Storage
  | .makeDirectories path => (s.makeMissing path).storage
  | _ => s

def logLines : ExportStep → List LogLine
  | .log line => [line]
  | _ => []

end ExportStep

/-- What came of carrying out a plan. -/
structure Exported where
  storage : Storage
  logs : List LogLine := []
  failure : Option Failure := none

/-- Carries out a plan in a storage. -/
def carryOut (s : Storage) : List ExportStep → Exported
  | [] => ⟨s, [], none⟩
  | step :: rest =>
    match step.apply s with
    | .error f => ⟨step.leftBehind s, [], some f⟩
    | .ok s =>
      let out := carryOut s rest
      { out with logs := step.logLines ++ out.logs }

end CodeAtlas
