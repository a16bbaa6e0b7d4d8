import CodeAtlas.Python.Grammar.Statements

/-!
# Definitions

The shapes of classes, functions and their decorators, parameters, arguments and annotations.
-/

namespace CodeAtlas.Python.Grammar

open Shape

def definitionRules : List (Phrase × Shape) := [
  (.functionDefinition,
    optional (kw "async") ++ kw "def" ++ role .name (token .identifier) ++
      optional (phrase .typeParameter) ++ phrase .parameters ++
      optional (op "->" ++ role .returnType (phrase .type)) ++ op ":" ++ suite),
  (.classDefinition,
    kw "class" ++ role .name (token .identifier) ++ optional (phrase .typeParameter) ++
      role .superclasses (optional (phrase .argumentList)) ++ op ":" ++ suite),
  (.decoratedDefinition,
    many (phrase .decorator) ++
      role .definition (anyOf [.classDefinition, .functionDefinition])),
  (.decorator, op "@" ++ phrase .expression ++ token .newline),
  (.argumentList,
    op "(" ++
      optional (commaSep1 (oneOf [
        phrase .expression,
        phrase .listSplat,
        phrase .dictionarySplat,
        recordedAs .parenthesizedExpression (phrase .parenthesizedListSplat),
        phrase .keywordArgument])) ++
      optional (op ",") ++ op ")"),
  (.keywordArgument,
    (token .identifier ||| softKeyword) ++ op "=" ++ phrase .expression)]

def parameterRules : List (Phrase × Shape) := [
  (.parameters, op "(" ++ optional (phrase .parameterList) ++ op ")"),
  (.lambdaParameters, phrase .parameterList),
  (.parameterList, commaSep1 (phrase .parameter) ++ optional (op ",")),
  (.parameter,
    token .identifier |||
      anyOf [
        .typedParameter, .defaultParameter, .typedDefaultParameter, .listSplatPattern,
        .tuplePattern, .keywordSeparator, .positionalSeparator, .dictionarySplatPattern]),
  (.defaultParameter,
    (token .identifier ||| phrase .tuplePattern) ++ op "=" ++ phrase .expression),
  (.typedParameter,
    prec (-1) ((token .identifier ||| anyOf [.listSplatPattern, .dictionarySplatPattern]) ++
      op ":" ++ phrase .type)),
  (.typedDefaultParameter,
    prec (-1) (token .identifier ++ op ":" ++ phrase .type ++ op "=" ++ phrase .expression)),
  (.positionalSeparator, op "/"),
  (.keywordSeparator, op "*")]

def typeRules : List (Phrase × Shape) := [
  (.type,
    anyOf [.expression, .splatType, .genericType, .unionType, .constrainedType, .memberType]),
  (.typeParameter, op "[" ++ commaSep1 (phrase .type) ++ op "]"),
  (.splatType, prec 1 ((op "*" ||| op "**") ++ token .identifier)),
  (.genericType, prec 1 (token .identifier ++ phrase .typeParameter)),
  (.unionType, leftAssoc 0 (phrase .type ++ op "|" ++ phrase .type)),
  (.constrainedType, rightAssoc 0 (phrase .type ++ op ":" ++ phrase .type)),
  (.memberType, phrase .type ++ op "." ++ token .identifier)]

end CodeAtlas.Python.Grammar
