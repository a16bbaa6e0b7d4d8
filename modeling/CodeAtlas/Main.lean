import CodeAtlas.CommandLine.Run
import CodeAtlas.Python.Parse

/-!
# The program

Carries out on the disk what a command line asks for. All decisions are made elsewhere: this module
reads the digest, performs the steps of the export plan and prints.
-/

namespace CodeAtlas.Disk

/-- The refusal that an error of the operating system stands for, if it is one of those. Error codes
come with either sign. -/
def refusal? : IO.Error → Option Refusal
  | .noFileOrDirectory .. => some .notFound
  | .alreadyExists .. => some .alreadyThere
  | .inappropriateType _ code _ =>
    if code = 20 ∨ -code = 20 then some .notDirectory
    else if code = 21 ∨ -code = 21 then some .isDirectory
    else none
  | _ => none

/-- Tries an action; errors that are no refusal end the program. -/
def attempt {α : Type} (action : IO α) : IO (Except Refusal α) := do
  try
    return .ok (← action)
  catch e =>
    match refusal? e with
    | some r => return .error r
    | none => throw e

/-- What stands at a path. -/
def find (path : String) : IO (Except Refusal Content) := do
  match ← attempt (IO.FS.readBinFile path) with
  | .ok bytes => return .ok (.file bytes.toList)
  | .error .isDirectory => return .ok .directory
  | .error r => return .error r

/-- Makes a directory and all that are missing on the way to it. -/
def makeDirectories (path : String) : IO (Except Refusal Unit) := do
  match ← attempt (IO.FS.createDir path) with
  | .error .notFound | .error .alreadyThere => attempt (IO.FS.createDirAll path)
  | made => return made

def write (path text : String) : IO (Except Refusal Unit) :=
  attempt (IO.FS.writeFile path text)

/-- Prints a log line if the threshold admits it. -/
def log (threshold : CommandLine.Threshold) (line : LogLine) : IO Unit :=
  if threshold.shows line then IO.eprintln (line.level.name ++ " " ++ line.message) else pure ()

/-- Carries out one step of an export. -/
def perform (threshold : CommandLine.Threshold) : ExportStep → IO (Except Failure Unit)
  | .makeDirectories path =>
    return (← makeDirectories path).mapError (.makeDirectory path)
  | .table path text => return (← write path text).mapError (.createFile path)
  | .document path text => return (← write path text).mapError (.writeFile path)
  | .log line => return .ok (← log threshold line)

/-- Carries out a plan, up to the first step that is refused. -/
def performAll (threshold : CommandLine.Threshold) : List ExportStep → IO (Except Failure Unit)
  | [] => return .ok ()
  | step :: rest => do
    match ← perform threshold step with
    | .error f => return .error f
    | .ok () => performAll threshold rest

/-- Runs on the disk. -/
def run (o : CommandLine.Options) (threshold : CommandLine.Threshold) :
    IO (Except Failure String) := do
  let (result, logs) := o.convertFound Python.parser (← find o.digest)
  logs.forM (log threshold)
  match result with
  | .error f => return .error f
  | .ok g => return (← performAll threshold (o.plan g)).map fun () => o.farewell g

/-- The environment variable that overrides the log threshold. -/
def thresholdVariable : String := "RUST_LOG"

end CodeAtlas.Disk

open CodeAtlas CommandLine in
/-- Answers the command line; the exit status is 0 for success, 1 for a failed run and 2 for a
command line that cannot be read. -/
def main (arguments : List String) : IO UInt32 := do
  match Request.read arguments with
  | .error _ =>
    IO.eprint helpText
    return 2
  | .ok .version =>
    IO.print versionLine
    return 0
  | .ok .help =>
    IO.print helpText
    return 0
  | .ok (.run o) =>
    match ← Disk.run o (o.threshold (← IO.getEnv Disk.thresholdVariable)) with
    | .ok text =>
      IO.print text
      return 0
    | .error f =>
      IO.eprint f.report
      return 1
