/-!
# Scopes

A scope is the list of definitions that enclose a place in a file. Names are qualified by the
enclosing definitions, joined with dots.
-/

namespace CodeAtlas

/-- The names of the enclosing definitions, outermost first. -/
structure Scope where
  names : List String
  deriving DecidableEq, Repr, Inhabited

namespace Scope

/-- The top level of a file. -/
def module : Scope := ⟨[]⟩

def isModule (s : Scope) : Bool := s.names.isEmpty

/-- The enclosing names joined with dots. -/
def path (s : Scope) : String := ".".intercalate s.names

/-- The full name of `name` when it is defined in this scope. -/
def qualify (s : Scope) (name : String) : String :=
  if s.isModule then name else s.path ++ "." ++ name

/-- The id of what contains this scope: the innermost definition, or the file. -/
def owner (s : Scope) (file : String) : String := if s.isModule then file else s.path

/-- The scope inside a definition. -/
def enter (s : Scope) (name : String) : Scope := ⟨s.names ++ [name]⟩

end Scope

end CodeAtlas
