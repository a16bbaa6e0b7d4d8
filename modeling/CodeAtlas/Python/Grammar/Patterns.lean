import CodeAtlas.Python.Grammar.Statements

/-!
# Patterns

The shapes of `case` patterns and of assignment targets.
-/

namespace CodeAtlas.Python.Grammar

open Shape

/-- Nothing, or `case` patterns with an optional comma after the last. -/
def casePatterns : Shape :=
  optional (commaSep1 (phrase .casePattern) ++ optional (op ","))

def number : Shape := token .integer ||| token .float

def caseRules : List (Phrase × Shape) := [
  (.casePattern,
    prec 1 (oneOf [
      recordedAs .asPattern (phrase .asCasePattern),
      phrase .keywordPattern,
      phrase .simpleCasePattern])),
  (.simpleCasePattern,
    prec 1 (oneOf [
      phrase .classPattern,
      phrase .splatPattern,
      phrase .unionPattern,
      recordedAs .listPattern (phrase .listCasePattern),
      recordedAs .tuplePattern (phrase .tupleCasePattern),
      phrase .dictPattern,
      phrase .string,
      phrase .concatenatedString,
      phrase .literalTrue,
      phrase .literalFalse,
      phrase .literalNone,
      optional (op "-") ++ number,
      phrase .complexPattern,
      phrase .dottedName,
      kw "_"])),
  (.asCasePattern, phrase .casePattern ++ kw "as" ++ token .identifier),
  (.unionPattern,
    rightAssoc 0 (phrase .simpleCasePattern ++
      many (leftAssoc 0 (op "|" ++ phrase .simpleCasePattern)))),
  (.listCasePattern, op "[" ++ casePatterns ++ op "]"),
  (.tupleCasePattern, op "(" ++ casePatterns ++ op ")"),
  (.dictPattern,
    op "\x7b" ++
      optional (commaSep1 (anyOf [.keyValuePattern, .splatPattern]) ++ optional (op ",")) ++
      op "\x7d"),
  (.keyValuePattern, phrase .simpleCasePattern ++ op ":" ++ phrase .casePattern),
  (.keywordPattern, token .identifier ++ op "=" ++ phrase .simpleCasePattern),
  (.splatPattern, prec 1 ((op "*" ||| op "**") ++ (token .identifier ||| kw "_"))),
  (.classPattern, phrase .dottedName ++ op "(" ++ casePatterns ++ op ")"),
  (.complexPattern,
    prec 1 (optional (op "-") ++ number ++ (op "+" ||| op "-") ++ number)),
  (.dottedName, prec 1 (sepBy1 (token .identifier) (op ".")))]

/-- What may follow the stars of a starred target. -/
def starred : Shape := token .identifier ||| softKeyword ||| anyOf [.subscript, .attribute]

def targetRules : List (Phrase × Shape) := [
  (.pattern,
    token .identifier ||| softKeyword |||
      anyOf [.subscript, .attribute, .listSplatPattern, .tuplePattern, .listPattern]),
  (.patternSequence, commaSep1 (phrase .pattern) ++ optional (op ",")),
  (.patternList,
    phrase .pattern ++
      (op "," ||| (many (op "," ++ phrase .pattern) ++ optional (op ",")))),
  (.tuplePattern, op "(" ++ optional (phrase .patternSequence) ++ op ")"),
  (.listPattern, op "[" ++ optional (phrase .patternSequence) ++ op "]"),
  (.listSplatPattern, op "*" ++ starred),
  (.dictionarySplatPattern, op "**" ++ starred)]

end CodeAtlas.Python.Grammar
