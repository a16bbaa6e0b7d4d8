import CodeAtlas.Export.Cypher
import CodeAtlas.Export.Tables

/-!
# Command line options

A command line names a digest and an output directory, and may hold options before, between and
behind them. Long options take their value behind an equals sign or as the next argument, short
ones also directly behind their letter. After `--` all arguments are plain.

* `Argument.readAll` splits arguments into plain ones, flags and settings.
* `Options.read` collects them and reports the first fault.
-/

namespace CodeAtlas.CommandLine

/-- The form of the output. -/
inductive Format where
  /-- Tables and an import script for Neo4j. -/
  | neo4j
  /-- One JSON document. -/
  | json
  deriving DecidableEq, Repr

def Format.ofName? (name : String) : Option Format :=
  if name = "neo4j" then some .neo4j else if name = "json" then some .json else none

/-- Options without a value. -/
inductive Flag where
  | verbose
  | quiet
  | version
  | help
  deriving DecidableEq, Repr

/-- Options with a value. -/
inductive Setting where
  | format
  | extensions
  | label
  deriving DecidableEq, Repr

/-- One part of a command line. -/
inductive Argument where
  | plain (text : String)
  | flag (flag : Flag)
  /-- A setting and its value, if it has one. -/
  | setting (setting : Setting) (value : Option String)
  /-- Something that looks like an option and is none. -/
  | unknown (text : String)
  deriving DecidableEq, Repr

namespace Argument

/-- What an option is called. -/
inductive Name where
  | flag (flag : Flag)
  | setting (setting : Setting)

def longName? (name : String) : Option Name :=
  [("verbose", Name.flag .verbose), ("quiet", .flag .quiet), ("version", .flag .version),
    ("help", .flag .help), ("format", .setting .format),
    ("python-extensions", .setting .extensions), ("entity-label", .setting .label)].lookup name

def shortName? : Char → Option Name
  | 'v' => some (.flag .verbose)
  | 'q' => some (.flag .quiet)
  | 'V' => some (.flag .version)
  | 'h' => some (.flag .help)
  | 'f' => some (.setting .format)
  | _ => none

/-- What one argument holds, and the setting that waits for the next argument, if any. -/
structure Piece where
  arguments : List Argument := []
  waiting : Option Setting := none

/-- A long option, without its dashes. -/
def long (text : List Char) : Piece :=
  let name := String.ofList (text.takeWhile (· ≠ '='))
  let value := match text.dropWhile (· ≠ '=') with
    | [] => none
    | _ :: value => some (String.ofList value)
  match longName? name, value with
  | some (.flag f), none => { arguments := [.flag f] }
  | some (.setting s), none => { waiting := some s }
  | some (.setting s), some v => { arguments := [.setting s (some v)] }
  | _, _ => { arguments := [.unknown (String.ofList text)] }

/-- Short options run together, without their dash. -/
def short : List Char → Piece
  | [] => {}
  | c :: rest =>
    match shortName? c with
    | some (.flag f) =>
      let more := short rest
      { more with arguments := .flag f :: more.arguments }
    | some (.setting s) =>
      match rest with
      | [] => { waiting := some s }
      | '=' :: value => { arguments := [.setting s (some (String.ofList value))] }
      | value => { arguments := [.setting s (some (String.ofList value))] }
    | none => { arguments := [.unknown (String.ofList (c :: rest))] }

/-- Whether an argument cannot be the value of a setting. -/
def looksLikeOption (text : String) : Bool :=
  match text.toList with
  | '-' :: _ :: _ => true
  | _ => false

def piece (text : String) : Piece :=
  match text.toList with
  | '-' :: '-' :: name => long name
  | '-' :: c :: more => short (c :: more)
  | _ => { arguments := [.plain text] }

/-- Splits arguments into parts, while a setting may wait for its value. -/
def readFrom (waiting : Option Setting) : List String → List Argument
  | [] => (waiting.map (.setting · none)).toList
  | text :: rest =>
    match waiting, looksLikeOption text with
    | some s, false => .setting s (some text) :: readFrom none rest
    | waiting, _ =>
      (waiting.map (.setting · none)).toList ++
        if text = "--" then rest.map .plain
        else (piece text).arguments ++ readFrom (piece text).waiting rest

/-- Splits a command line into its parts. -/
def readAll (arguments : List String) : List Argument := readFrom none arguments

end Argument

/-- Why a command line is refused. -/
inductive UsageFault where
  | unknownOption (text : String)
  | tooMany (text : String)
  | missing
  | emptyPath
  | noValue (setting : Setting)
  | badValue (setting : Setting) (value : String)
  | repeatedFlag (flag : Flag)
  | repeatedSetting (setting : Setting)
  | verboseAndQuiet
  deriving DecidableEq, Repr

/-- The options of a run. -/
structure Options where
  digest : String
  output : String
  format : Format := .neo4j
  extensions : List String := ["py"]
  label : String := Tables.usualLabel
  verbose : Bool := false
  quiet : Bool := false
  deriving DecidableEq, Repr

/-- What a command line asks for. -/
inductive Request where
  | run (options : Options)
  | version
  | help
  deriving DecidableEq, Repr

/-- What is known of the options while a command line is read. -/
structure Draft where
  plain : List String := []
  format : Option Format := none
  extensions : Option (List String) := none
  label : Option String := none
  verbose : Bool := false
  quiet : Bool := false

/-- The texts between the commas of a text, given those so far and the current one, backwards. -/
def splitCommas (finished : List String) (current : List Char) : List Char → List String
  | [] => (String.ofList current.reverse :: finished).reverse
  | c :: rest =>
    if c = ',' then splitCommas (String.ofList current.reverse :: finished) [] rest
    else splitCommas finished (c :: current) rest

namespace Draft

def addPlain (d : Draft) (text : String) : Except UsageFault Draft :=
  if 2 ≤ d.plain.length then .error (.tooMany text)
  else if text.isEmpty then .error .emptyPath
  else .ok { d with plain := d.plain ++ [text] }

/-- Gives a setting its value. Extensions accumulate; all others are given once. -/
def set (d : Draft) (setting : Setting) (value : String) : Except UsageFault Draft :=
  match setting with
  | .format =>
    match d.format, Format.ofName? value with
    | some _, _ => .error (.repeatedSetting .format)
    | none, some f => .ok { d with format := some f }
    | none, none => .error (.badValue .format value)
  | .label =>
    if d.label.isSome then .error (.repeatedSetting .label)
    else if Cypher.isValidLabel value then .ok { d with label := some value }
    else .error (.badValue .label value)
  | .extensions =>
    .ok { d with extensions := some (d.extensions.getD [] ++ splitCommas [] [] value.toList) }

/-- The options of a complete draft. -/
def finish (d : Draft) : Except UsageFault Options :=
  match d.plain with
  | [digest, output] =>
    if d.verbose && d.quiet then .error .verboseAndQuiet
    else .ok {
      digest, output
      format := d.format.getD .neo4j
      extensions := d.extensions.getD ["py"]
      label := d.label.getD Tables.usualLabel
      verbose := d.verbose
      quiet := d.quiet }
  | _ => .error .missing

/-- Collects the parts of a command line in order, up to the first fault or question. -/
def collect (d : Draft) : List Argument → Except UsageFault Request
  | [] => d.finish.map .run
  | .plain text :: rest => do (← d.addPlain text).collect rest
  | .unknown text :: _ => .error (.unknownOption text)
  | .setting s none :: _ => .error (.noValue s)
  | .setting s (some v) :: rest => do (← d.set s v).collect rest
  | .flag .version :: _ => .ok .version
  | .flag .help :: _ => .ok .help
  | .flag .verbose :: rest =>
    if d.verbose then .error (.repeatedFlag .verbose)
    else collect { d with verbose := true } rest
  | .flag .quiet :: rest =>
    if d.quiet then .error (.repeatedFlag .quiet) else collect { d with quiet := true } rest

end Draft

/-- Reads a command line. -/
def Request.read (arguments : List String) : Except UsageFault Request :=
  Draft.collect {} (Argument.readAll arguments)

end CodeAtlas.CommandLine
