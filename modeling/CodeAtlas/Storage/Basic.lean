import CodeAtlas.Storage.Path
import CodeAtlas.Text.Bytes

/-!
# Storage

A storage holds files and directories below a working directory. There are no links, permissions or
limits. Every operation either succeeds or fails with a refusal that says why.
-/

namespace CodeAtlas

/-- Why a storage refuses an operation. -/
inductive Refusal where
  | notFound
  | alreadyThere
  | notDirectory
  | isDirectory
  deriving DecidableEq, Repr

def Refusal.message : Refusal → String
  | .notFound => "No such file or directory (os error 2)"
  | .alreadyThere => "File exists (os error 17)"
  | .notDirectory => "Not a directory (os error 20)"
  | .isDirectory => "Is a directory (os error 21)"

/-- What stands at a location. -/
inductive Content where
  | directory
  | file (bytes : Bytes)
  deriving DecidableEq, Repr

/-- A place in a storage: the names that lead to it from the working directory. -/
abbrev Location := List String

/-- Files and directories by location. The working directory itself is not listed. -/
structure Storage where
  entries : List (Location × Content) := []
  deriving DecidableEq, Repr, Inhabited

namespace Storage

def empty : Storage := {}

/-- What stands at a location. -/
def get? (s : Storage) (loc : Location) : Option Content :=
  if loc.isEmpty then some .directory else s.entries.lookup loc

/-- Replaces or adds what stands at a location. -/
def putEntry (loc : Location) (c : Content) :
    List (Location × Content) → List (Location × Content)
  | [] => [(loc, c)]
  | (l, d) :: rest => if l = loc then (l, c) :: rest else (l, d) :: putEntry loc c rest

def put (s : Storage) (loc : Location) (c : Content) : Storage := ⟨putEntry loc c s.entries⟩

/-! ## Finding -/

/-- Follows parts from a location; all but the last must lead to directories. -/
def follow (s : Storage) (here : Location) : List String → Except Refusal Location
  | [] => .ok here
  | part :: rest =>
    match s.get? here with
    | none => .error .notFound
    | some (.file _) => .error .notDirectory
    | some .directory => s.follow (if part = ".." then here.dropLast else here ++ [part]) rest

/-- The location that a path leads to, whether or not something is there. -/
def locate (s : Storage) (path : String) : Except Refusal Location :=
  if path = "" then .error .notFound else s.follow [] (Path.parts path)

/-- What a path leads to. -/
def find (s : Storage) (path : String) : Except Refusal Content := do
  let loc ← s.locate path
  match s.get? loc with
  | none => .error .notFound
  | some (.file b) => if Path.namesDirectory path then .error .notDirectory else .ok (.file b)
  | some .directory => .ok .directory

/-! ## Changing -/

/-- What came of making directories. Those that were made stay, also when the next is refused. -/
structure Made where
  storage : Storage
  refusal : Option Refusal := none

/-- Why a directory cannot be made where a file is. The file is in the way of the whole path, but
behind a directory that was `made` just now only of the next part. -/
def refusalAtFile (dotted made last : Bool) : Refusal :=
  if last then if dotted then .notDirectory else .alreadyThere
  else if made then .alreadyThere else .notDirectory

/-- Follows parts from a location and makes the directories that are missing on the way. Before a
dot at the end of the path the last one must be there. -/
def makeFrom (s : Storage) (dotted made : Bool) (here : Location) : List String → Made
  | [] => ⟨s, none⟩
  | part :: rest =>
    if part = ".." then s.makeFrom dotted made here.dropLast rest
    else
      let there := here ++ [part]
      match s.get? there with
      | some .directory => s.makeFrom dotted made there rest
      | some (.file _) => ⟨s, some (refusalAtFile dotted made rest.isEmpty)⟩
      | none =>
        if rest.isEmpty && dotted then ⟨s, some .notFound⟩
        else (s.put there .directory).makeFrom dotted true there rest

/-- Makes a directory and all that are missing on the way to it, as far as that is possible. -/
def makeMissing (s : Storage) (path : String) : Made :=
  s.makeFrom (Path.endsWithDot path) false [] (Path.parts path)

/-- Makes a directory and all that are missing on the way to it. -/
def makeDirectories (s : Storage) (path : String) : Except Refusal Storage :=
  match (s.makeMissing path).refusal with
  | none => .ok (s.makeMissing path).storage
  | some r => .error r

/-- Writes a file, in place of what it held before. -/
def write (s : Storage) (path : String) (bytes : Bytes) : Except Refusal Storage := do
  let loc ← s.locate path
  match s.get? loc.dropLast with
  | none => .error .notFound
  | some (.file _) => .error .notDirectory
  | some .directory =>
    if Path.namesDirectory path || s.get? loc = some .directory then .error .isDirectory
    else .ok (s.put loc (.file bytes))

end Storage

end CodeAtlas
