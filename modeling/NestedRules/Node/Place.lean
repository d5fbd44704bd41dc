import NestedRules.Node.Basic

namespace NestedRules

/-- A group with a gap between two of its members. -/
structure Frame where
  header : Header
  before : Forest
  after : Forest

namespace Frame

def fill (fr : Frame) (n : Node) : Group := ⟨fr.header, fr.before ++ n :: fr.after⟩

def close (fr : Frame) : Group := ⟨fr.header, fr.before ++ fr.after⟩

/-- Fills each frame, the outermost first, with the one inside it and the innermost with `g`. -/
def wrap : List Frame → Group → Group
  | [], g => g
  | fr :: inner, g => fr.fill (wrap inner g).toNode

end Frame

/-- A member of a group: the frames around that group, outermost first, and the group itself with a
    gap in place of the member. -/
structure Place where
  outer : List Frame
  frame : Frame
  node : Node

namespace Place

def parent (p : Place) : Group := p.frame.fill p.node

def index (p : Place) : Nat := p.frame.before.length

def depth (p : Place) : Nat := p.outer.length + 1

def put (p : Place) (n : Node) : Group := Frame.wrap p.outer (p.frame.fill n)

def without (p : Place) : Group := Frame.wrap p.outer p.frame.close

def under (fr : Frame) (p : Place) : Place := { p with outer := fr :: p.outer }

end Place

mutual

/-- The place of the first node that carries `id` among those strictly below a node. -/
def Node.place? (id : String) : Node → Option Place
  | .filter _ => none
  | .group h cs => Forest.place? id h [] cs

/-- Searches the members of the group `h` from left to right; `before` are those already passed. -/
def Forest.place? (id : String) (h : Header) (before : Forest) : Forest → Option Place
  | [] => none
  | c :: cs =>
    if c.id = id then some ⟨[], ⟨h, before, cs⟩, c⟩
    else
      match Node.place? id c with
      | some p => some (p.under ⟨h, before, cs⟩)
      | none => Forest.place? id h (before ++ [c]) cs

end

inductive Location
  | root (node : Node)
  | inside (place : Place)

namespace Location

def node : Location → Node
  | root n => n
  | inside p => p.node

def isRoot : Location → Bool
  | root _ => true
  | inside _ => false

def parent? : Location → Option Group
  | root _ => none
  | inside p => some p.parent

def index? : Location → Option Nat
  | root _ => none
  | inside p => some p.index

def depth : Location → Nat
  | root _ => 0
  | inside p => p.depth

end Location

/-- Where the first node that carries `id` stands in a tree. -/
def Node.locate? (root : Node) (id : String) : Option Location :=
  if root.id = id then some (.root root) else (root.place? id).map .inside

end NestedRules
