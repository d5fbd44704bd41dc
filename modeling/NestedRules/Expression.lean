import NestedRules.Node.Basic

namespace NestedRules

/-- Joins the clauses of a group: nothing for none, a single clause as it is, more in parentheses. -/
def Logic.join (logic : Logic) : List String → String
  | [] => ""
  | [clause] => clause
  | clauses => "(" ++ String.intercalate (" " ++ logic.word ++ " ") clauses ++ ")"

mutual

/-- The expression of a node; `inherited` tells that an enclosing group is disabled. -/
def Node.expression (inherited : Bool) : Node → String
  | .filter f => if inherited || f.isDisabled then "" else f.text
  | .group h cs => if inherited || h.isDisabled then "" else h.logic.join (Forest.clauses cs)

def Forest.clauses : Forest → List String
  | [] => []
  | c :: cs =>
    let clause := Node.expression false c
    if clause = "" then Forest.clauses cs else clause :: Forest.clauses cs

end

end NestedRules
