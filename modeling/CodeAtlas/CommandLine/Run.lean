import CodeAtlas.CommandLine.Options
import CodeAtlas.Convert
import CodeAtlas.Export.Document

/-!
# Running a command line

A run reads the digest, converts it and exports the graph. Nothing is written before the conversion
has succeeded. The answer to a command line is its exit status, what it prints, its log and the
storage behind it.
-/

namespace CodeAtlas.CommandLine

/-- The least important level that is still shown; `none` shows nothing. -/
abbrev Threshold := Option Level

def Threshold.shows (t : Threshold) (line : LogLine) : Bool :=
  t.any fun level => line.level.rank ≤ level.rank

/-- The threshold with a name. -/
def Threshold.ofName? (name : String) : Option Threshold :=
  [("off", none), ("error", some Level.error), ("warn", some .warn), ("info", some .info),
    ("debug", some .debug), ("trace", some .trace)].lookup name

/-- The threshold of a run; the environment has the last word. -/
def Options.threshold (o : Options) (environment : Option String) : Threshold :=
  match environment.bind Threshold.ofName? with
  | some t => t
  | none => if o.quiet then some .error else if o.verbose then some .debug else some .warn

/-- The converter of a run. -/
def Options.converter (o : Options) (parse : Python.Parser) : Converter :=
  { parse, extensions := .ofList o.extensions }

/-- The log line that tells the extensions of a run. -/
def extensionsLine (e : Extensions) : LogLine :=
  ⟨.debug, "Parsing extensions: " ++ ",".intercalate e.toList⟩

/-- The plan of the export of a run. -/
def Options.plan (o : Options) (g : Graph) : List ExportStep :=
  match o.format with
  | .neo4j => Tables.plan g o.label o.output
  | .json => Document.plan g false (Path.join o.output Document.fileName)

/-- What a successful run prints. -/
def Options.farewell (o : Options) (g : Graph) : String :=
  "Written " ++ Nat.repr g.nodeCount ++ " nodes and " ++ Nat.repr g.relationshipCount ++
    " relationships to " ++ o.output ++ "\n"

/-- What came of a run. -/
structure Run where
  storage : Storage
  logs : List LogLine
  /-- What is printed, or why the run failed. -/
  result : Except Failure String

/-- Converts what was found at the digest's path. A digest that is not there is told apart before
anything is logged. -/
def Options.convertFound (o : Options) (parse : Python.Parser)
    (found : Except Refusal Content) : Except Failure Graph × List LogLine :=
  match found with
  | .error _ => (.error (.digestNotFound o.digest), [])
  | .ok content =>
    let converter := o.converter parse
    let conversion := converter.convertFound o.digest (.ok content)
    (conversion.result, extensionsLine converter.extensions :: conversion.logs)

/-- Runs in a storage. -/
def Options.run (o : Options) (parse : Python.Parser) (s : Storage) : Run :=
  match o.convertFound parse (s.find o.digest) with
  | (.error f, logs) => ⟨s, logs, .error f⟩
  | (.ok g, logs) =>
    let exported := carryOut s (o.plan g)
    match exported.failure with
    | some f => ⟨exported.storage, logs ++ exported.logs, .error f⟩
    | none => ⟨exported.storage, logs ++ exported.logs, .ok (o.farewell g)⟩

/-- What the program calls itself. -/
def versionLine : String := "digest2graph 0.1.0\n"

def helpText : String :=
  "Convert a source digest into Neo4j-ready graph CSVs\n\n" ++
  "Usage: digest2graph [OPTIONS] <DIGEST> <OUTPUT_DIR>\n\n" ++
  "Arguments:\n" ++
  "  <DIGEST>      Digest file to convert\n" ++
  "  <OUTPUT_DIR>  Directory that receives the generated files\n\n" ++
  "Options:\n" ++
  "  -f, --format <FORMAT>           Output format: neo4j (CSVs + import.cypher) or json\n" ++
  "      --python-extensions <EXTS>  Comma-separated file extensions parsed as Python\n" ++
  "      --entity-label <LABEL>      Node label used by the generated Cypher script\n" ++
  "  -v, --verbose                   Log debug details to stderr\n" ++
  "  -q, --quiet                     Only log errors\n" ++
  "  -h, --help                      Print help\n" ++
  "  -V, --version                   Print version\n"

/-- The answer to a command line. -/
structure Response where
  exit : Nat
  stdout : String := ""
  /-- The report of a failure. -/
  report : Option String := none
  logs : List LogLine := []
  storage : Storage

/-- Answers a command line, given the log threshold that the environment names. -/
def respond (parse : Python.Parser) (arguments : List String)
    (environment : Option String) (s : Storage) : Response :=
  match Request.read arguments with
  | .error _ => { exit := 2, storage := s }
  | .ok .version => { exit := 0, stdout := versionLine, storage := s }
  | .ok .help => { exit := 0, stdout := helpText, storage := s }
  | .ok (.run o) =>
    let run := o.run parse s
    let logs := run.logs.filter (o.threshold environment).shows
    match run.result with
    | .ok text => { exit := 0, stdout := text, logs, storage := run.storage }
    | .error f => { exit := 1, report := some f.report, logs, storage := run.storage }

end CodeAtlas.CommandLine
