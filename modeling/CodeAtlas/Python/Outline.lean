import CodeAtlas.Graph.Basic
import CodeAtlas.Python.Tree
import CodeAtlas.Scope

/-!
# Outlines

The outline of a file is what its syntax tree adds to the graph: a node for each class and function,
what contains it, what a class inherits from, and the calls of plain names.

A tree is walked in pre-order. Everything that belongs to a definition is inside its scope: first
its parameters, bases and body, then its decorators, and last its return annotation.
-/

namespace CodeAtlas.Python

/-- A named class or function. -/
structure Definition where
  name : String
  label : Label
  /-- The row where the definition starts. -/
  row : Nat
  /-- The plain names among the bases of a class. -/
  bases : List String
  deriving DecidableEq, Repr

namespace Definition

/-- The plain names among the bases of a class. -/
def basesOf (t : Tree) : List String :=
  match t.child? .superclasses with
  | none => []
  | some s => (s.namedChildren.filter (·.kind == .token .identifier)).map (·.text)

/-- The definition that a node stands for, if it has a name. -/
def ofTree? (t : Tree) : Option Definition :=
  match t.child? .name with
  | none => none
  | some name =>
    if name.text.isEmpty then none
    else if t.kind == .phrase .classDefinition then some ⟨name.text, .classDef, t.row, basesOf t⟩
    else some ⟨name.text, .functionDef, t.row, []⟩

/-- The node of a class or function with some full name. -/
def nodeOf (file full : String) (label : Label) (name : String) (row : Nat) : Node :=
  ((Node.mk full label []).withName name).withPath file |>.withLine (row + 1)

/-- The node of a definition in some scope. -/
def node (d : Definition) (file : String) (scope : Scope) : Node :=
  nodeOf file (scope.qualify d.name) d.label d.name d.row

/-- What a definition itself adds to the graph. -/
def entries (d : Definition) (file : String) (scope : Scope) : List Entry :=
  let id := scope.qualify d.name
  [.node (d.node file scope), .relationship .contains ⟨scope.owner file, id⟩] ++
    d.bases.map fun base => .relationship .inherits ⟨id, base⟩

end Definition

/-- The call of a plain name that a call node adds to the graph. -/
def callEntries (file : String) (scope : Scope) (t : Tree) : List Entry :=
  match t.child? .function with
  | some callee =>
    if callee.kind == .token .identifier then
      [.relationship .calls ⟨scope.owner file, callee.text⟩]
    else []
  | none => []

mutual
/-- What a tree adds to the graph. -/
def outline (file : String) (scope : Scope) : Tree → List Entry
  | .node info children =>
    match info.kind with
    | .phrase .classDefinition | .phrase .functionDefinition =>
      match Definition.ofTree? (.node info children) with
      | some d =>
        d.entries file scope ++ outlineParts file (scope.enter d.name) false children ++
          outlineReturn file (scope.enter d.name) children
      | none => outlineNamed file scope children
    | .phrase .decoratedDefinition =>
      match (children.find? (·.role == some .definition)).bind Definition.ofTree? with
      | some d =>
        d.entries file scope ++ outlineDefinitionParts file (scope.enter d.name) children ++
          outlineDecorators file (scope.enter d.name) children ++
          outlineDefinitionReturn file (scope.enter d.name) children
      | none => outlineNamed file scope children
    | .phrase .call =>
      callEntries file scope (.node info children) ++ outlineNamed file scope children
    | _ => outlineNamed file scope children
/-- What the named nodes of a list add. -/
def outlineNamed (file : String) (scope : Scope) : List Tree → List Entry
  | [] => []
  | t :: ts =>
    (if t.isNamed then outline file scope t else []) ++ outlineNamed file scope ts
/-- What the named nodes of a list add, apart from the first return annotation, which may have been
passed already. -/
def outlineParts (file : String) (scope : Scope) (passed : Bool) : List Tree → List Entry
  | [] => []
  | t :: ts =>
    if !passed && t.role == some .returnType then outlineParts file scope true ts
    else (if t.isNamed then outline file scope t else []) ++ outlineParts file scope passed ts
/-- What the first return annotation of a list adds. -/
def outlineReturn (file : String) (scope : Scope) : List Tree → List Entry
  | [] => []
  | t :: ts =>
    if t.role == some .returnType then outline file scope t else outlineReturn file scope ts
/-- What the decorators of a list add. -/
def outlineDecorators (file : String) (scope : Scope) : List Tree → List Entry
  | [] => []
  | t :: ts =>
    (if t.kind == .phrase .decorator then outline file scope t else []) ++
      outlineDecorators file scope ts
/-- What the first definition of a list adds apart from its return annotation. -/
def outlineDefinitionParts (file : String) (scope : Scope) : List Tree → List Entry
  | [] => []
  | .node info children :: ts =>
    if info.role == some .definition then outlineParts file scope false children
    else outlineDefinitionParts file scope ts
/-- What the return annotation of the first definition of a list adds. -/
def outlineDefinitionReturn (file : String) (scope : Scope) : List Tree → List Entry
  | [] => []
  | .node info children :: ts =>
    if info.role == some .definition then outlineReturn file scope children
    else outlineDefinitionReturn file scope ts
end

end CodeAtlas.Python
