/-!
# Paths

Paths are texts whose parts are separated by slashes. Empty parts and parts that are a single dot
stand for nothing.
-/

namespace CodeAtlas.Path

/-- Cuts a text at slashes, given the parts so far and the current one, both backwards. -/
def splitFrom (finished : List String) (current : List Char) : List Char → List String
  | [] => (String.ofList current.reverse :: finished).reverse
  | c :: rest =>
    if c = '/' then splitFrom (String.ofList current.reverse :: finished) [] rest
    else splitFrom finished (c :: current) rest

/-- The parts between the slashes. -/
def segments (path : String) : List String := splitFrom [] [] path.toList

/-- A part that stands for nothing. -/
def isIdle (segment : String) : Bool := segment = "" || segment = "."

/-- The parts that stand for something. -/
def parts (path : String) : List String := (segments path).filter (!isIdle ·)

/-- Whether the last part is a single dot. Such a path leads to what is already there. -/
def endsWithDot (path : String) : Bool := ((segments path).filter (· ≠ "")).getLast? = some "."

/-- The name of the file or directory that a path leads to, unless it leads upwards or nowhere. -/
def fileName? (path : String) : Option String :=
  match (parts path).getLast? with
  | some ".." => none
  | last => last

/-- The path of something inside a directory. -/
def join (directory name : String) : String :=
  if directory = "" then name
  else if directory.toList.getLast? = some '/' then directory ++ name
  else directory ++ "/" ++ name

/-- Drops parts at the end that stand for nothing, but not the first part. -/
def dropIdle (first : String) (rest : List String) : List String :=
  first :: (rest.reverse.dropWhile isIdle).reverse

/-- The directory that a path stands in; empty if the path does not name one. -/
def parent (path : String) : String :=
  match segments path with
  | [] => ""
  | first :: rest =>
    match dropIdle first rest with
    | [_] => if first = "" then "" else if rest.all isIdle then "" else first
    | kept =>
      match kept.dropLast with
      | [] => ""
      | [""] => "/"
      | f :: more => "/".intercalate (dropIdle f more)

/-- Whether a path can only lead to a directory. -/
def namesDirectory (path : String) : Bool := ((segments path).getLast?.map isIdle).getD false

end CodeAtlas.Path
