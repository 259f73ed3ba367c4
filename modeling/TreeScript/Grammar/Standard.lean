import TreeScript.Grammar.Basic

/-!
# The standard grammar

The grammar of tree scripts, which is there without any file.
-/

namespace TreeScript.Grammar

def standardId : String := "script-1.0"

/-- The tags of the constructs of code. -/
def statementTags : List String :=
  ["assert", "block", "buffer", "call", "exec", "for", "goto", "if", "input", "label", "math",
    "member-call", "return", "set", "subroutine", "while"]

def ruleOf (attributes required children : List String) (text : Bool) : Rule :=
  ⟨.ofNames attributes, .ofNames required, .ofNames children, text⟩

def standardRules : List (String × Rule) :=
  [ ("script", ruleOf [] [] ["header", "code"] false),
    ("header",
      ruleOf ["name", "uid", "version-number"] ["name", "version-number"] ["note", "output"] false),
    ("note", ruleOf [] [] [] true),
    ("output", ruleOf ["name", "type"] ["name"] [] false),
    ("code", ruleOf [] [] statementTags false),
    ("block", ruleOf [] [] statementTags false),
    ("assert", ruleOf ["item", "type"] ["item"] statementTags false),
    ("buffer", ruleOf ["name", "clear", "eval", "value", "buffer"] ["name"] [] true),
    ("call", ruleOf ["name", "result"] ["name"] ["set"] false),
    ("exec", ruleOf ["name", "result"] ["name"] ["set"] false),
    ("subroutine", ruleOf ["name", "result"] ["name"] ["set"] false),
    ("member-call", ruleOf ["name", "method", "result"] ["name", "method"] ["set"] false),
    ("for", ruleOf ["name", "count", "eval", "ref", "buffer"] ["name"] statementTags false),
    ("while", ruleOf ["name", "eval", "value", "ref", "buffer"] ["name"] statementTags false),
    ("if", ruleOf ["item", "type", "eval", "value", "ref", "buffer"] ["item"] statementTags false),
    ("goto", ruleOf ["label"] ["label"] [] false),
    ("label", ruleOf ["name"] ["name"] [] false),
    ("math",
      ruleOf ["left", "oper", "output", "eval", "value", "ref", "buffer"] ["left", "oper"] []
        false),
    ("set", ruleOf ["name", "new", "eval", "value", "ref", "buffer"] ["name"] [] false),
    ("input", ruleOf ["name", "eval", "value", "buffer"] ["name"] [] false),
    ("return", ruleOf [] [] [] false) ]

def standard : Grammar :=
  ⟨standardId, "script", SortedMap.ofList standardRules⟩

end TreeScript.Grammar
