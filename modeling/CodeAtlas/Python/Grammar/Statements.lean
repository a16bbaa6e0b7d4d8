import CodeAtlas.Python.Phrase

/-!
# Statements

The shapes of modules, blocks and statements. A simple statement ends with its line; the body of a
compound statement is an indented block, a list of simple statements on the same line, or nothing.
-/

namespace CodeAtlas.Python.Grammar

open Shape

/-- Words that are keywords in some places and names in all others. Except for `type`, reading
them as keywords wins where both readings go on. -/
def softKeyword : Shape :=
  prec (-3) (named (.token .identifier) (oneOf (["print", "exec", "async", "await", "match"].map kw)))
    ||| named (.token .identifier) (kw "type")

/-- One expression or several. -/
def expressions : Shape := anyOf [.expression, .expressionList]

/-- One assignment target or several. -/
def targets : Shape := anyOf [.pattern, .patternList]

/-- The body of a compound statement. -/
def suite : Shape :=
  oneOf [
    recordedAs .block (phrase .simpleStatements),
    token .indent ++ phrase .block,
    recordedAs .block (token .newline)]

def simpleStatement : Shape :=
  anyOf [
    .futureImportStatement, .importStatement, .importFromStatement, .printStatement,
    .assertStatement, .expressionStatement, .returnStatement, .deleteStatement, .raiseStatement,
    .passStatement, .breakStatement, .continueStatement, .globalStatement, .nonlocalStatement,
    .execStatement, .typeAliasStatement]

def compoundStatement : Shape :=
  anyOf [
    .ifStatement, .forStatement, .whileStatement, .tryStatement, .withStatement,
    .functionDefinition, .classDefinition, .decoratedDefinition, .matchStatement]

def blockRules : List (Phrase × Shape) := [
  (.module, many0 (phrase .statement)),
  (.statement, phrase .simpleStatements ||| compoundStatement),
  (.simpleStatements,
    sepBy1 simpleStatement (op ";") ++ optional (op ";") ++ token .newline),
  (.block, many0 (phrase .statement) ++ token .dedent)]

def importRules : List (Phrase × Shape) := [
  (.importStatement, kw "import" ++ phrase .importList),
  (.importPrefix, many (op ".")),
  (.relativeImport, phrase .importPrefix ++ optional (phrase .dottedName)),
  (.futureImportStatement,
    kw "from" ++ kw "__future__" ++ kw "import" ++
      (phrase .importList ||| (op "(" ++ phrase .importList ++ op ")"))),
  (.importFromStatement,
    kw "from" ++ anyOf [.relativeImport, .dottedName] ++ kw "import" ++
      oneOf [
        phrase .wildcardImport,
        phrase .importList,
        op "(" ++ phrase .importList ++ op ")"]),
  (.importList, commaSep1 (anyOf [.dottedName, .aliasedImport]) ++ optional (op ",")),
  (.aliasedImport, phrase .dottedName ++ kw "as" ++ token .identifier),
  (.wildcardImport, op "*")]

def simpleRules : List (Phrase × Shape) := [
  (.printStatement,
    prec 1 (kw "print" ++ phrase .chevron ++ many0 (op "," ++ phrase .expression) ++
        optional (op ",")) |||
      prec (-3) (weight (-1) (kw "print" ++ commaSep1 (phrase .expression) ++
        optional (op ",")))),
  (.chevron, op ">>" ++ phrase .expression),
  (.execStatement,
    kw "exec" ++ (phrase .string ||| token .identifier) ++
      optional (kw "in" ++ commaSep1 (phrase .expression))),
  (.assertStatement, kw "assert" ++ commaSep1 (phrase .expression)),
  (.expressionStatement,
    oneOf [
      phrase .expression,
      commaSep1 (phrase .expression) ++ optional (op ","),
      phrase .assignment,
      phrase .augmentedAssignment,
      phrase .yield]),
  (.returnStatement, kw "return" ++ optional expressions),
  (.deleteStatement, kw "del" ++ expressions),
  (.raiseStatement,
    kw "raise" ++ optional expressions ++ optional (kw "from" ++ phrase .expression)),
  (.passStatement, leftAssoc 0 (kw "pass")),
  (.breakStatement, leftAssoc 0 (kw "break")),
  (.continueStatement, leftAssoc 0 (kw "continue")),
  (.globalStatement, kw "global" ++ commaSep1 (token .identifier)),
  (.nonlocalStatement, kw "nonlocal" ++ commaSep1 (token .identifier)),
  (.typeAliasStatement,
    weight 1 (kw "type" ++ phrase .type ++ op "=" ++ phrase .type))]

def compoundRules : List (Phrase × Shape) := [
  (.ifStatement,
    kw "if" ++ phrase .expression ++ op ":" ++ suite ++
      many0 (phrase .elifClause) ++ optional (phrase .elseClause)),
  (.elifClause, kw "elif" ++ phrase .expression ++ op ":" ++ suite),
  (.elseClause, kw "else" ++ op ":" ++ suite),
  (.forStatement,
    optional (kw "async") ++ kw "for" ++ targets ++ kw "in" ++ expressions ++ op ":" ++ suite ++
      optional (phrase .elseClause)),
  (.whileStatement,
    kw "while" ++ phrase .expression ++ op ":" ++ suite ++ optional (phrase .elseClause)),
  (.tryStatement,
    kw "try" ++ op ":" ++ suite ++
      oneOf [
        many (phrase .exceptClause) ++ optional (phrase .elseClause) ++
          optional (phrase .finallyClause),
        many (phrase .exceptGroupClause) ++ optional (phrase .elseClause) ++
          optional (phrase .finallyClause),
        phrase .finallyClause]),
  (.exceptClause,
    kw "except" ++
      optional (phrase .expression ++ optional ((kw "as" ||| op ",") ++ phrase .expression)) ++
      op ":" ++ suite),
  (.exceptGroupClause,
    op "except*" ++ phrase .expression ++ optional (kw "as" ++ phrase .expression) ++
      op ":" ++ suite),
  (.finallyClause, kw "finally" ++ op ":" ++ suite),
  (.withStatement,
    optional (kw "async") ++ kw "with" ++ phrase .withClause ++ op ":" ++ suite),
  (.withClause,
    (commaSep1 (phrase .withItem) ++ optional (op ",")) |||
      (op "(" ++ commaSep1 (phrase .withItem) ++ optional (op ",") ++ op ")")),
  (.withItem, weight 1 (phrase .expression)),
  (.matchStatement,
    kw "match" ++ commaSep1 (phrase .expression) ++ optional (op ",") ++ op ":" ++
      recordedAs .block (phrase .matchBlock)),
  (.matchBlock,
    (token .indent ++ many0 (phrase .caseClause) ++ token .dedent) ||| token .newline),
  (.caseClause,
    kw "case" ++ commaSep1 (phrase .casePattern) ++ optional (op ",") ++
      optional (phrase .ifClause) ++ op ":" ++ suite)]

end CodeAtlas.Python.Grammar
