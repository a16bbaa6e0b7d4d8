import CodeAtlas.Python.Grammar.Definitions
import CodeAtlas.Python.Grammar.Expressions
import CodeAtlas.Python.Grammar.Patterns
import CodeAtlas.Python.Grammar.Statements

/-!
# The grammar

All rules together: one shape for each phrase. Python 2's `print` and `exec` statements are phrases
too, so that they can be told from other errors.
-/

namespace CodeAtlas.Python

/-- The shape of every phrase. -/
def grammar : List (Phrase × Shape) :=
  Grammar.blockRules ++ Grammar.importRules ++ Grammar.simpleRules ++ Grammar.compoundRules ++
    Grammar.definitionRules ++ Grammar.parameterRules ++ Grammar.typeRules ++
    Grammar.caseRules ++ Grammar.targetRules ++ Grammar.operatorRules ++
    Grammar.assignmentRules ++ Grammar.primaryRules ++ Grammar.collectionRules ++
    Grammar.stringRules

end CodeAtlas.Python
