import NestedRules.Drag.Landing

namespace NestedRules

structure Drag where
  carried? : Option Node
  deriving DecidableEq

inductive DragRefusal
  | alreadyDragging (id : String)
  | unknown (id : String)
  | root
  | locked (id : String)
  deriving DecidableEq

def DragRefusal.message : DragRefusal → String
  | alreadyDragging id => "a drag of '" ++ id ++ "' is already in progress"
  | unknown id => "node '" ++ id ++ "' is not in the tree"
  | root => "the root group cannot be dragged"
  | locked id => "node '" ++ id ++ "' sits in a locked or disabled group"

inductive Outcome
  | moved (rule : Rule)
  | noTarget
  | rejected (why : Refusal)
  | notDragging
  deriving DecidableEq

namespace Drag

def idle : Drag := ⟨none⟩

def isDragging (d : Drag) : Bool := d.carried?.isSome

def start (d : Drag) (r : Rule) (id : String) : Except DragRefusal Drag :=
  match d.carried? with
  | some carried => .error (.alreadyDragging carried.id)
  | none =>
    match r.locate? id with
    | none => .error (.unknown id)
    | some (.root _) => .error .root
    | some (.inside place) => .ok ⟨some place.node⟩

def landing? (d : Drag) (r : Rule) (candidates : List Candidate) : Option Landing :=
  match d.carried? with
  | none => none
  | some carried => r.landing? carried.id candidates

/-- Drops the carried node, unless `veto` has something against the landing. Whatever the outcome, no
    drag runs after it. -/
def drop (d : Drag) (r : Rule) (candidates : List Candidate) (veto : Landing → Option Refusal) :
    Outcome :=
  match d.carried? with
  | none => .notDragging
  | some carried =>
    match r.landing? carried.id candidates with
    | none => .noTarget
    | some landing =>
      match veto landing with
      | some why => .rejected why
      | none =>
        match r.move carried.id landing.parent landing.index with
        | .error why => .rejected why
        | .ok moved => .moved moved

end Drag

end NestedRules
