import NestedRules.Rule.Edit

namespace NestedRules

inductive Edit
  | updateGroup (id : String) (f : Group → Group)
  | updateFilter (id : String) (f : Filter → Filter)
  | insert (parent : String) (node : Node) (index : Option Nat)
  | remove (id : String)
  | move (source dest : String) (index : Nat)

namespace Rule

def apply (r : Rule) : Edit → Except Refusal Rule
  | .updateGroup id f => r.updateGroup id f
  | .updateFilter id f => r.updateFilter id f
  | .insert parent node index => r.insert parent node index
  | .remove id => r.remove id
  | .move source dest index => r.move source dest index

/-- Applies edits in order and skips those that are refused. -/
def run (r : Rule) (edits : List Edit) : Rule :=
  edits.foldl (fun r edit => (r.apply edit).toOption.getD r) r

end Rule

end NestedRules
