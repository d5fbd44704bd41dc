import NestedRules.Rule.Basic

namespace NestedRules

inductive Refusal
  | unresolved (id : String)
  | wrongKind (id : String) (expected : Kind)
  | rootFixed
  | cycle (group destination : String)
  | duplicateId (id : String)
  | locked (id : String)
  deriving DecidableEq

def Refusal.message : Refusal → String
  | unresolved id => "node '" ++ id ++ "' does not resolve against the current tree"
  | wrongKind id expected => "node '" ++ id ++ "' is not a " ++ expected.word
  | rootFixed => "the root group cannot be removed or moved"
  | cycle group destination =>
    "moving group '" ++ group ++ "' into '" ++ destination ++ "' would nest it inside itself"
  | duplicateId id => "node id '" ++ id ++ "' is already present in the tree"
  | locked id => "node '" ++ id ++ "' is locked or disabled"

/-- A node in reach of an edit: a group with the frames around it, or a filter in its place. Only a
    group can be the root, which has no frame around it. -/
inductive Focus
  | group (around : List Frame) (group : Group)
  | filter (place : Place) (filter : Filter)

def Place.focus (p : Place) : Focus :=
  match p.node with
  | .group h cs => .group (p.outer ++ [p.frame]) ⟨h, cs⟩
  | .filter f => .filter p f

namespace Rule

def focus? (r : Rule) (id : String) : Option Focus :=
  if r.root.id = id then some (.group [] r.root) else (r.node.place? id).map Place.focus

/-- The first id of `new` that the rule uses outside `old`, or that `new` itself uses twice. -/
def clash? (r : Rule) (old new : Node) : Option String :=
  firstRepeat? (r.ids.filter (· ∉ old.ids)) new.ids

def updateGroup (r : Rule) (id : String) (f : Group → Group) : Except Refusal Rule :=
  match r.focus? id with
  | none => .error (.unresolved id)
  | some (.filter ..) => .error (.wrongKind id .group)
  | some (.group around old) =>
    let new : Group := { f old with id := id }
    match r.clash? old new with
    | some taken => .error (.duplicateId taken)
    | none => .ok ⟨Frame.wrap around new⟩

def updateFilter (r : Rule) (id : String) (f : Filter → Filter) : Except Refusal Rule :=
  match r.focus? id with
  | none => .error (.unresolved id)
  | some (.group ..) => .error (.wrongKind id .filter)
  | some (.filter place old) =>
    let new : Filter := { f old with id := id }
    match r.clash? old new with
    | some taken => .error (.duplicateId taken)
    | none => .ok ⟨place.put new⟩

/-- Puts a node before position `index` of the group `parent`, or last where there is no such
    position, without a look at the ids that it brings. -/
def attach (r : Rule) (parent : String) (n : Node) (index : Option Nat) : Except Refusal Rule :=
  match r.focus? parent with
  | none => .error (.unresolved parent)
  | some (.filter ..) => .error (.wrongKind parent .group)
  | some (.group around g) => .ok ⟨Frame.wrap around (g.insert (index.getD g.children.length) n)⟩

/-- Adds a node to the group `parent`; the ids that it brings are looked at first. -/
def insert (r : Rule) (parent : String) (n : Node) (index : Option Nat) : Except Refusal Rule :=
  match firstRepeat? r.ids n.ids with
  | some taken => .error (.duplicateId taken)
  | none => r.attach parent n index

def remove (r : Rule) (id : String) : Except Refusal Rule :=
  match r.locate? id with
  | none => .error (.unresolved id)
  | some (.root _) => .error .rootFixed
  | some (.inside place) => .ok ⟨place.without⟩

/-- Moves the node `source` into the group `dest`, before the member that stands at `index` before
    the move. Among the members of one group the removal of an earlier member shifts the later ones,
    which the index then follows. -/
def move (r : Rule) (source dest : String) (index : Nat) : Except Refusal Rule :=
  match r.locate? source, r.locate? dest with
  | none, _ => .error (.unresolved source)
  | some _, none => .error (.unresolved dest)
  | some (.root _), some _ => .error .rootFixed
  | some (.inside place), some target =>
    if place.node.isGroup && ((r.ancestors? dest).getD []).contains source then
      .error (.cycle source dest)
    else if !target.node.isGroup then
      .error (.wrongKind dest .group)
    else
      let shifted := if place.parent.id = dest ∧ place.index < index then index - 1 else index
      attach ⟨place.without⟩ dest place.node (some shifted)

end Rule

end NestedRules
