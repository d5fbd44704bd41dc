import NestedRules.Rule.Edit

namespace NestedRules

inductive Candidate
  | zone (group : String)
  | item (id : String) (isGroup : Bool)
  | root
  deriving DecidableEq

namespace Candidate

def rank : Candidate → Nat
  | zone _ => 0
  | item _ _ => 1
  | root => 2

def best? : List Candidate → Option Candidate
  | [] => none
  | c :: cs =>
    match best? cs with
    | none => some c
    | some d => if c.rank ≤ d.rank then some c else some d

end Candidate

structure Landing where
  parent : String
  index : Nat
  deriving DecidableEq

namespace Rule

def endOf? (r : Rule) (group : String) : Option Landing :=
  match r.node? group with
  | some (.group _ cs) => some ⟨group, cs.length⟩
  | _ => none

/-- Where `dragged` goes. A body, the surface, or the row of a group stands for the end of that
    group, any other row for the position before it, and the row of the dragged node for nothing. -/
def landing? (r : Rule) (dragged : String) (candidates : List Candidate) : Option Landing :=
  match Candidate.best? candidates with
  | none => none
  | some (.zone group) => r.endOf? group
  | some .root => r.endOf? r.root.id
  | some (.item id isGroup) =>
    if id = dragged then none
    else
      match r.locate? id with
      | none => none
      | some hit =>
        if isGroup && hit.node.isGroup then r.endOf? id
        else
          match hit with
          | .root _ => none
          | .inside place => some ⟨place.parent.id, place.index⟩

end Rule

end NestedRules
