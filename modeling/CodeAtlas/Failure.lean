import CodeAtlas.Python.Extract
import CodeAtlas.Storage.Basic

/-!
# Failures

Why a conversion or an export fails: what was being done, and what stood in the way.
-/

namespace CodeAtlas

/-- Why the content of a digest cannot be read. -/
inductive ReadFailure where
  | refused (refusal : Refusal)
  /-- A line is not UTF-8. -/
  | notText
  deriving DecidableEq, Repr

def ReadFailure.message : ReadFailure → String
  | .refused r => r.message
  | .notText => "stream did not contain valid UTF-8"

/-- Why a run fails. -/
inductive Failure where
  | digestNotFound (path : String)
  | openDigest (path : String) (refusal : Refusal)
  | readDigest (failure : ReadFailure)
  | parseFile (path : String) (failure : Python.ParseFailure)
  | makeDirectory (path : String) (refusal : Refusal)
  | createFile (path : String) (refusal : Refusal)
  | writeFile (path : String) (refusal : Refusal)
  deriving DecidableEq, Repr

namespace Failure

/-- What was being done. -/
def attempt : Failure → String
  | .digestNotFound path => "Digest not found: " ++ path
  | .openDigest path _ => "failed to open digest " ++ path
  | .readDigest _ => "failed to read digest"
  | .parseFile path _ => "failed to parse " ++ path
  | .makeDirectory path _ => "failed to create output directory " ++ path
  | .createFile path _ => "failed to create " ++ path
  | .writeFile path _ => "failed to write " ++ path

/-- What stood in the way. -/
def cause? : Failure → Option String
  | .digestNotFound _ => none
  | .openDigest _ r | .makeDirectory _ r | .createFile _ r | .writeFile _ r => some r.message
  | .readDigest f => some f.message
  | .parseFile _ f => some f.message

/-- The whole story on one line. -/
def message (f : Failure) : String :=
  match f.cause? with
  | none => f.attempt
  | some cause => f.attempt ++ ": " ++ cause

/-- The whole story as a report on several lines. -/
def report (f : Failure) : String :=
  match f.cause? with
  | none => "Error: " ++ f.attempt ++ "\n"
  | some cause => "Error: " ++ f.attempt ++ "\n\nCaused by:\n    " ++ cause ++ "\n"

end Failure

end CodeAtlas
