import NestedRules.Vocabulary

namespace NestedRules

inductive Kind
  | group | filter
  deriving DecidableEq

def Kind.word : Kind → String
  | group => "group"
  | filter => "filter"

structure Filter where
  id : String
  field : Field
  operator : Operator
  value : String
  isDisabled : Bool
  deriving DecidableEq

structure Header where
  id : String
  name : String
  logic : Logic
  isLocked : Bool
  isDisabled : Bool
  isCollapsed : Bool
  deriving DecidableEq

inductive Node
  | group (header : Header) (children : List Node)
  | filter (filter : Filter)

abbrev Forest := List Node

/-- A group on its own: its header and its members. -/
structure Group extends Header where
  children : Forest

def Group.toNode (g : Group) : Node := .group g.toHeader g.children

instance : Coe Group Node := ⟨Group.toNode⟩

instance : Coe Filter Node := ⟨Node.filter⟩

namespace Node

@[elab_as_elim, induction_eliminator]
theorem induct {motive : Node → Prop}
    (group : ∀ header children, (∀ c ∈ children, motive c) → motive (.group header children))
    (filter : ∀ f, motive (.filter f)) : ∀ n, motive n
  | .group header children => group header children fun c _ => induct group filter c
  | .filter f => filter f

mutual

def decEq : (a b : Node) → Decidable (a = b)
  | .filter f, .filter g =>
    if same : f = g then .isTrue (by rw [same]) else .isFalse (by simp [same])
  | .filter _, .group _ _ => .isFalse (by simp)
  | .group _ _, .filter _ => .isFalse (by simp)
  | .group h cs, .group k ds =>
    if same : h = k then
      match decEqForest cs ds with
      | .isTrue members => .isTrue (by rw [same, members])
      | .isFalse members => .isFalse (by simp [members])
    else .isFalse (by simp [same])

def decEqForest : (as bs : List Node) → Decidable (as = bs)
  | [], [] => .isTrue rfl
  | [], _ :: _ => .isFalse (by simp)
  | _ :: _, [] => .isFalse (by simp)
  | a :: as, b :: bs =>
    match decEq a b with
    | .isTrue head =>
      match decEqForest as bs with
      | .isTrue rest => .isTrue (by rw [head, rest])
      | .isFalse rest => .isFalse (by simp [rest])
    | .isFalse head => .isFalse (by simp [head])

end

instance : DecidableEq Node := decEq

def id : Node → String
  | .group h _ => h.id
  | .filter f => f.id

def kind : Node → Kind
  | .group _ _ => .group
  | .filter _ => .filter

def isGroup : Node → Bool
  | .group _ _ => true
  | .filter _ => false

def isDisabled : Node → Bool
  | .group h _ => h.isDisabled
  | .filter f => f.isDisabled

def isLocked : Node → Bool
  | .group h _ => h.isLocked
  | .filter _ => false

def children : Node → Forest
  | .group _ cs => cs
  | .filter _ => []

def group? : Node → Option Group
  | .group h cs => some ⟨h, cs⟩
  | .filter _ => none

end Node

instance : DecidableEq Group := fun a b =>
  decidable_of_iff (a.toNode = b.toNode) (by
    cases a; cases b; simp [Group.toNode])

namespace Group

def empty (id name : String) : Group :=
  ⟨⟨id, name, .and, false, false, false⟩, []⟩

def push (g : Group) (n : Node) : Group := { g with children := g.children ++ [n] }

/-- Adds a member before position `i`, or as the last one where there is no such position. -/
def insert (g : Group) (i : Nat) (n : Node) : Group :=
  { g with children := g.children.take i ++ n :: g.children.drop i }

def position? (g : Group) (id : String) : Option Nat := g.children.findIdx? (·.id = id)

end Group

namespace Filter

def enabled (id : String) (field : Field) (operator : Operator) (value : String) : Filter :=
  ⟨id, field, operator, value, false⟩

def blank (id : String) : Filter := .enabled id .newField .equals ""

/-- The condition in words; the value stands in single quotes, and only where it is compared. -/
def text (f : Filter) : String :=
  if f.operator.takesValue then
    f.field.word ++ " " ++ f.operator.word ++ " '" ++ f.value ++ "'"
  else
    f.field.word ++ " " ++ f.operator.word

end Filter

end NestedRules
