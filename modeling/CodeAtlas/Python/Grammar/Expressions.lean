import CodeAtlas.Python.Grammar.Statements

/-!
# Expressions

The shapes of expressions and strings. Precedences grow from conditional expressions up to calls.
-/

namespace CodeAtlas.Python.Grammar

open Shape

/-- An operator between two primary expressions that groups to the left. -/
def infixLeft (n : Int) (operator : String) : Shape :=
  leftAssoc n (phrase .primaryExpression ++ op operator ++ phrase .primaryExpression)

def comparisonOperators : Shape :=
  oneOf [
    op "<", op "<=", op "==", op "!=", op ">=", op ">", op "<>", kw "in", kw "not" ++ kw "in",
    kw "is", kw "is" ++ kw "not"]

def augmentedOperators : Shape :=
  oneOf (["+=", "-=", "*=", "/=", "@=", "//=", "%=", "**=", ">>=", "<<=", "&=", "^=", "|="].map op)

def operatorRules : List (Phrase × Shape) := [
  (.expression,
    anyOf [
      .comparisonOperator, .notOperator, .booleanOperator, .lambda, .primaryExpression,
      .conditionalExpression, .namedExpression, .asPattern]),
  (.primaryExpression,
    oneOf [
      anyOf [.await, .binaryOperator],
      token .identifier,
      softKeyword,
      anyOf [.string, .concatenatedString],
      token .integer,
      token .float,
      anyOf [
        .literalTrue, .literalFalse, .literalNone, .unaryOperator, .attribute, .subscript, .call,
        .list, .listComprehension, .dictionary, .dictionaryComprehension, .set, .setComprehension,
        .tuple, .parenthesizedExpression, .generatorExpression, .ellipsis],
      recordedAs .listSplat (phrase .listSplatPattern)]),
  (.expressionList,
    rightAssoc 0 (phrase .expression ++
      (op "," ||| (many (op "," ++ phrase .expression) ++ optional (op ","))))),
  (.namedExpression, phrase .namedTarget ++ op ":=" ++ phrase .expression),
  (.namedTarget, token .identifier ||| softKeyword),
  (.asPattern,
    leftAssoc 0 (phrase .expression ++ kw "as" ++
      recordedAs .asPatternTarget (phrase .expression))),
  (.conditionalExpression,
    rightAssoc (-1) (phrase .expression ++ kw "if" ++ phrase .expression ++ kw "else" ++
      phrase .expression)),
  (.lambda,
    prec (-2) (kw "lambda" ++ optional (phrase .lambdaParameters) ++ op ":" ++
      phrase .expression)),
  (.lambdaInFor,
    kw "lambda" ++ optional (phrase .lambdaParameters) ++ op ":" ++ phrase .expressionInFor),
  (.expressionInFor,
    phrase .expression ||| recordedAs .lambda (phrase .lambdaInFor)),
  (.booleanOperator,
    leftAssoc 11 (phrase .expression ++ kw "and" ++ phrase .expression) |||
      leftAssoc 10 (phrase .expression ++ kw "or" ++ phrase .expression)),
  (.notOperator, prec 12 (kw "not" ++ phrase .expression)),
  (.comparisonOperator,
    leftAssoc 13 (phrase .primaryExpression ++
      many (comparisonOperators ++ phrase .primaryExpression))),
  (.binaryOperator,
    oneOf [
      infixLeft 18 "+", infixLeft 18 "-", infixLeft 19 "*", infixLeft 19 "@", infixLeft 19 "/",
      infixLeft 19 "%", infixLeft 19 "//",
      rightAssoc 21 (phrase .primaryExpression ++ op "**" ++ phrase .primaryExpression),
      infixLeft 14 "|", infixLeft 15 "&", infixLeft 16 "^", infixLeft 17 "<<",
      infixLeft 17 ">>"]),
  (.unaryOperator,
    prec 20 (oneOf (["+", "-", "~"].map op) ++ phrase .primaryExpression)),
  (.await, prec 20 (kw "await" ++ phrase .primaryExpression))]

def assignmentRules : List (Phrase × Shape) := [
  (.assignment,
    targets ++
      oneOf [
        op "=" ++ phrase .rightHandSide,
        op ":" ++ phrase .type,
        op ":" ++ phrase .type ++ op "=" ++ phrase .rightHandSide]),
  (.augmentedAssignment, targets ++ augmentedOperators ++ phrase .rightHandSide),
  (.rightHandSide,
    anyOf [
      .expression, .expressionList, .assignment, .augmentedAssignment, .patternList, .yield]),
  (.yield,
    rightAssoc 0 (kw "yield" ++
      ((kw "from" ++ phrase .expression) ||| optional expressions)))]

def primaryRules : List (Phrase × Shape) := [
  (.attribute, prec 22 (phrase .primaryExpression ++ op "." ++ token .identifier)),
  (.subscript,
    prec 22 (phrase .primaryExpression ++ op "[" ++
      commaSep1 (anyOf [.expression, .slice]) ++ optional (op ",") ++ op "]")),
  (.slice,
    optional (phrase .expression) ++ op ":" ++ optional (phrase .expression) ++
      optional (op ":" ++ optional (phrase .expression))),
  (.ellipsis, op "..."),
  (.call,
    prec 22 (role .function (phrase .primaryExpression) ++
      anyOf [.generatorExpression, .argumentList])),
  (.listSplat, op "*" ++ phrase .expression),
  (.dictionarySplat, op "**" ++ phrase .expression),
  (.parenthesizedListSplat,
    prec 1 (op "(" ++
      (recordedAs .parenthesizedExpression (phrase .parenthesizedListSplat) |||
        phrase .listSplat) ++
      op ")")),
  (.parenthesizedExpression, prec 1 (op "(" ++ anyOf [.expression, .yield] ++ op ")")),
  (.literalTrue, kw "True"),
  (.literalFalse, kw "False"),
  (.literalNone, kw "None")]

def collectionRules : List (Phrase × Shape) := [
  (.list, op "[" ++ optional (phrase .collectionElements) ++ op "]"),
  (.set, op "\x7b" ++ phrase .collectionElements ++ op "\x7d"),
  (.tuple, op "(" ++ optional (phrase .collectionElements) ++ op ")"),
  (.dictionary,
    op "\x7b" ++ optional (commaSep1 (anyOf [.pair, .dictionarySplat])) ++ optional (op ",") ++
      op "\x7d"),
  (.pair, phrase .expression ++ op ":" ++ phrase .expression),
  (.collectionElements,
    commaSep1 (anyOf [.expression, .yield, .listSplat, .parenthesizedListSplat]) ++
      optional (op ",")),
  (.listComprehension,
    op "[" ++ phrase .expression ++ phrase .comprehensionClauses ++ op "]"),
  (.dictionaryComprehension,
    op "\x7b" ++ phrase .pair ++ phrase .comprehensionClauses ++ op "\x7d"),
  (.setComprehension,
    op "\x7b" ++ phrase .expression ++ phrase .comprehensionClauses ++ op "\x7d"),
  (.generatorExpression,
    op "(" ++ phrase .expression ++ phrase .comprehensionClauses ++ op ")"),
  (.comprehensionClauses, phrase .forInClause ++ many0 (anyOf [.forInClause, .ifClause])),
  (.forInClause,
    leftAssoc 0 (optional (kw "async") ++ kw "for" ++ targets ++ kw "in" ++
      commaSep1 (phrase .expressionInFor) ++ optional (op ","))),
  (.ifClause, kw "if" ++ phrase .expression)]

def stringRules : List (Phrase × Shape) := [
  (.concatenatedString, phrase .string ++ many (phrase .string)),
  (.string,
    token .stringStart ++ many0 (anyOf [.interpolation, .stringContent]) ++ token .stringEnd),
  (.stringContent,
    rightAssoc 0 (many (oneOf [
      token .braceEscape, token .escape, token .backslash, token .stringText]))),
  (.interpolation,
    op "\x7b" ++ phrase .interpolated ++ optional (op "=") ++ optional (token .conversion) ++
      optional (phrase .formatSpecifier) ++ op "\x7d"),
  (.interpolated, anyOf [.expression, .expressionList, .patternList, .yield]),
  (.formatSpecifier,
    op ":" ++ many0 (token .formatText |||
      recordedAs .formatExpression (phrase .interpolation)))]

end CodeAtlas.Python.Grammar
