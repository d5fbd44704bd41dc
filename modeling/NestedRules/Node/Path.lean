import NestedRules.Node.Basic

namespace NestedRules

/-- The nodes passed on the way down, the root first, and the node at the end. -/
structure Path where
  above : List Node
  target : Node
  deriving DecidableEq

namespace Path

def root (n : Node) : Path := ⟨[], n⟩

def under (top : Node) (p : Path) : Path := ⟨top :: p.above, p.target⟩

def child (p : Path) (n : Node) : Path := ⟨p.above ++ [p.target], n⟩

def nodes (p : Path) : List Node := p.above ++ [p.target]

def ids (p : Path) : List String := p.nodes.map Node.id

def targetId (p : Path) : String := p.target.id

def parent? (p : Path) : Option Node := p.above.getLast?

def length (p : Path) : Nat := p.above.length + 1

def isEmpty (p : Path) : Bool := p.nodes.isEmpty

def isRoot (p : Path) : Bool := p.above.isEmpty

end Path

mutual

/-- The path from a node down to the first node that carries `id`. -/
def Node.path? (id : String) : Node → Option Path
  | .filter f => if f.id = id then some (.root (.filter f)) else none
  | .group h cs =>
    if h.id = id then some (.root (.group h cs))
    else (Forest.path? id cs).map (.under (.group h cs))

def Forest.path? (id : String) : Forest → Option Path
  | [] => none
  | c :: cs =>
    match Node.path? id c with
    | some p => some p
    | none => Forest.path? id cs

end

def Node.ancestors? (root : Node) (id : String) : Option (List String) :=
  (root.path? id).map (·.ids.reverse)

end NestedRules
