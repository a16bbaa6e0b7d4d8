import CodeAtlas.Python.Token

/-!
# Phrases and shapes

A *phrase* is a named part of Python's grammar and a *shape* says how a phrase is built from
tokens and other phrases. Shapes carry the precedences that settle ambiguities, the roles under
which a node is looked up in its parent, and the kinds under which a part is recorded.
-/

namespace CodeAtlas.Python

/-- The named parts of the grammar. Of two readings of one text the parser may prefer the one with the
earlier phrases, so their order matters. -/
inductive Phrase where
  -- statements
  | module | statement | simpleStatements
  | importStatement | importPrefix | relativeImport | futureImportStatement
  | importFromStatement | importList | aliasedImport | wildcardImport
  | printStatement | chevron | assertStatement | expressionStatement
  | namedExpression | namedTarget | returnStatement | deleteStatement | raiseStatement
  | passStatement | breakStatement | continueStatement
  | ifStatement | elifClause | elseClause | matchStatement | matchBlock | caseClause
  | forStatement | whileStatement | tryStatement | exceptClause | exceptGroupClause
  | finallyClause | withStatement | withClause | withItem
  -- definitions, splats and the statements that declare names
  | functionDefinition | parameters | lambdaParameters | listSplat | dictionarySplat
  | globalStatement | nonlocalStatement | execStatement | typeAliasStatement
  | classDefinition | typeParameter | parenthesizedListSplat | argumentList
  | decoratedDefinition | decorator | block | expressionList | dottedName
  -- patterns of `case`
  | casePattern | simpleCasePattern | asCasePattern | unionPattern | listCasePattern
  | tupleCasePattern | dictPattern | keyValuePattern | keywordPattern | splatPattern
  | classPattern | complexPattern
  -- parameters and assignment targets
  | parameterList | patternSequence | parameter | pattern | tuplePattern | listPattern
  | defaultParameter | typedDefaultParameter | listSplatPattern | dictionarySplatPattern
  | asPattern | asPatternTarget
  -- expressions
  | expressionInFor | expression | primaryExpression | notOperator | booleanOperator
  | binaryOperator | unaryOperator | comparisonOperator | lambda | lambdaInFor
  | assignment | augmentedAssignment | patternList | rightHandSide | yield
  | attribute | subscript | slice | ellipsis | call
  -- types
  | typedParameter | type | splatType | genericType | unionType | constrainedType | memberType
  -- collections
  | keywordArgument | list | set | tuple | dictionary | pair
  | listComprehension | dictionaryComprehension | setComprehension | generatorExpression
  | comprehensionClauses | parenthesizedExpression | collectionElements
  | forInClause | ifClause | conditionalExpression
  -- strings and single words
  | concatenatedString | string | stringContent | interpolation | interpolated
  | formatSpecifier | formatExpression
  | literalTrue | literalFalse | literalNone | await | positionalSeparator | keywordSeparator
  deriving DecidableEq, Hashable, Ord, Repr, Inhabited

/-- Phrases that leave no node of their own: their parts become parts of the parent. -/
def Phrase.transparent : Phrase → Bool
  | .statement | .simpleStatements | .importList | .matchBlock | .parameterList | .parameter
  | .simpleCasePattern | .asCasePattern | .listCasePattern | .tupleCasePattern | .keyValuePattern
  | .pattern | .patternSequence | .expression | .primaryExpression | .namedTarget
  | .expressionInFor | .rightHandSide | .collectionElements | .comprehensionClauses
  | .interpolated => true
  | _ => false

/-- What a node of a syntax tree is. -/
inductive Kind where
  /-- Source that fits no phrase. -/
  | error
  | phrase (phrase : Phrase)
  | token (token : Token)
  deriving DecidableEq, Hashable, Repr, Inhabited

/-- The part that a node plays in its parent. -/
inductive Role where
  | name
  | superclasses
  | returnType
  | definition
  | function
  deriving DecidableEq, Hashable, Repr

/-- Which way an operator groups with its equals. -/
inductive Associativity where
  | left
  | right
  deriving DecidableEq, Hashable, Repr

/-- How a phrase is built. -/
inductive Shape where
  | blank
  | token (token : Token)
  | phrase (phrase : Phrase)
  | seq (first second : Shape)
  | alt (first second : Shape)
  /-- One or more of a shape. -/
  | many (each : Shape)
  /-- The precedence, and perhaps the associativity, of the enclosed steps. -/
  | level (level : Int) (associativity : Option Associativity) (inner : Shape)
  /-- The weight of a reading, for choosing among several readings of one text. -/
  | weight (weight : Int) (inner : Shape)
  | role (role : Role) (inner : Shape)
  /-- Records the enclosed part under another kind. -/
  | named (kind : Kind) (inner : Shape)
  deriving DecidableEq, Hashable, Repr, Inhabited

namespace Shape

/-- `a ++ b` is `a` followed by `b`. -/
instance : Append Shape := ⟨seq⟩

/-- `a ||| b` is `a` or `b`. -/
instance : OrOp Shape := ⟨alt⟩

/-- A keyword. -/
def kw (text : String) : Shape := token (.word text)

/-- An operator or delimiter. -/
def op (text : String) : Shape := token (.mark text)

def optional (s : Shape) : Shape := s ||| blank

/-- Zero or more of a shape. -/
def many0 (s : Shape) : Shape := optional (many s)

/-- One or more of a shape, with separators between them. -/
def sepBy1 (s separator : Shape) : Shape := s ++ many0 (separator ++ s)

def commaSep1 (s : Shape) : Shape := sepBy1 s (op ",")

/-- The first that fits of a list of shapes. -/
def oneOf : List Shape → Shape
  | [] => blank
  | [s] => s
  | s :: rest => s ||| oneOf rest

/-- Any of the phrases. -/
def anyOf (phrases : List Phrase) : Shape := oneOf (phrases.map phrase)

def prec (n : Int) (s : Shape) : Shape := level n none s

def leftAssoc (n : Int) (s : Shape) : Shape := level n (some .left) s

def rightAssoc (n : Int) (s : Shape) : Shape := level n (some .right) s

/-- Records a part under the kind of another phrase. -/
def recordedAs (p : Phrase) (s : Shape) : Shape := named (.phrase p) s

end Shape

end CodeAtlas.Python
