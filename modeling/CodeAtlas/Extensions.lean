import CodeAtlas.Ascending
import CodeAtlas.Text.Space

/-!
# File extensions

Which files are read as source code is decided by their extensions. An extension may be given with
or without its dot and with white space around it.
-/

namespace CodeAtlas

/-- The languages that can be read. -/
inductive Language where
  | python
  deriving DecidableEq, Repr

namespace Language

def name : Language → String
  | .python => "python"

/-- The extensions that files of a language usually have. -/
def usualExtensions : Language → List String
  | .python => ["py"]

end Language

/-- The languages of files by their extensions. These are without their dots and in ascending
order. -/
structure Extensions where
  languages : List (String × Language) := []
  deriving DecidableEq, Repr, Inhabited

namespace Extensions

/-- An extension without white space around it and dots in front of it. -/
def normalForm (extension : String) : String :=
  String.ofList ((Text.trimChars extension.toList).dropWhile (· = '.'))

/-- Gives an extension to a language. One with nothing but dots and white space is dropped. -/
def add (language : Language) (e : Extensions) (extension : String) : Extensions :=
  let x := normalForm extension
  if x.isEmpty then e else ⟨Ascending.put x language e.languages⟩

/-- Gives extensions to a language, one after the other. -/
def register (e : Extensions) (language : Language) (extensions : List String) : Extensions :=
  extensions.foldl (add language) e

/-- Takes all its extensions from a language. -/
def without (e : Extensions) (language : Language) : Extensions :=
  ⟨e.languages.filter (·.2 ≠ language)⟩

/-- The usual extensions. -/
def usual : Extensions := register {} .python Language.python.usualExtensions

/-- Puts other extensions in place of those that Python files have. -/
def withPython (e : Extensions) (extensions : List String) : Extensions :=
  (e.without .python).register .python extensions

/-- The extensions in a list, in place of the usual ones. -/
def ofList (extensions : List String) : Extensions := usual.withPython extensions

/-- The extensions alone, in ascending order. -/
def toList (e : Extensions) : List String := e.languages.map (·.1)

/-- The language of a path: that of the first extension with which it ends, behind a dot. -/
def language? (e : Extensions) (path : String) : Option Language :=
  (e.languages.find? fun x => Text.endsWith path ("." ++ x.1)).map (·.2)

end Extensions

end CodeAtlas
