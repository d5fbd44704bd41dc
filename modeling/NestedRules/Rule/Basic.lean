import NestedRules.Expression
import NestedRules.Node.Path
import NestedRules.Node.Place
import NestedRules.Node.Preorder

namespace NestedRules

/-- A whole rule. Its root is a group; ids are looked up over all of its nodes. -/
structure Rule where
  root : Group
  deriving DecidableEq

inductive RuleError
  | rootNotGroup
  | duplicateId (id : String)
  deriving DecidableEq

def RuleError.message : RuleError → String
  | rootNotGroup => "the root of a rule tree must be a group"
  | duplicateId id => "duplicate node id '" ++ id ++ "'"

/-- The first id of a list that was seen before it, in the list or among `seen`. -/
def firstRepeat? (seen : List String) : List String → Option String
  | [] => none
  | id :: ids => if id ∈ seen then some id else firstRepeat? (id :: seen) ids

theorem firstRepeat?_eq_none_iff {seen ids : List String} :
    firstRepeat? seen ids = none ↔ ids.Nodup ∧ ∀ id ∈ ids, id ∉ seen := by
  induction ids generalizing seen with
  | nil => simp [firstRepeat?]
  | cons id ids ih =>
    by_cases known : id ∈ seen
    · simp [firstRepeat?, known]
    · simp only [firstRepeat?, known, if_false, ih, List.nodup_cons, List.mem_cons, not_or]
      grind

namespace Rule

def node (r : Rule) : Node := r.root.toNode

def ids (r : Rule) : List String := r.node.ids

def Valid (r : Rule) : Prop := r.ids.Nodup

instance (r : Rule) : Decidable r.Valid := inferInstanceAs (Decidable r.ids.Nodup)

def ofGroup (g : Group) : Except RuleError Rule :=
  match firstRepeat? [] g.toNode.ids with
  | some id => .error (.duplicateId id)
  | none => .ok ⟨g⟩

def ofNode : Node → Except RuleError Rule
  | .group h cs => ofGroup ⟨h, cs⟩
  | .filter _ => .error .rootNotGroup

def empty (id name : String) : Rule := ⟨.empty id name⟩

def size (r : Rule) : Nat := r.node.nodes.length

def isEmpty (r : Rule) : Bool := r.size = 0

def contains (r : Rule) (id : String) : Bool := r.ids.contains id

def path? (r : Rule) (id : String) : Option Path := r.node.path? id

def rootPath (r : Rule) : Path := .root r.node

def locate? (r : Rule) (id : String) : Option Location := r.node.locate? id

def node? (r : Rule) (id : String) : Option Node := (r.locate? id).map (·.node)

def ancestors? (r : Rule) (id : String) : Option (List String) := r.node.ancestors? id

def expression (r : Rule) : String := r.node.expression false

def summary (r : Rule) : String :=
  let groups := (r.node.nodes.filter (·.isGroup)).length
  "RuleTree('" ++ r.root.name ++ "', " ++ toString groups ++ " groups, " ++
    toString (r.size - groups) ++ " filters)"

theorem ids_eq_preorder (r : Rule) : r.ids = r.node.preorder.map Node.id := by
  rw [ids, Node.ids, Node.nodes_eq_preorder]

theorem ofGroup_eq_ok_iff {g : Group} {r : Rule} :
    ofGroup g = .ok r ↔ r = ⟨g⟩ ∧ r.Valid := by
  unfold ofGroup
  cases h : firstRepeat? [] g.toNode.ids with
  | none =>
    have nodup := (firstRepeat?_eq_none_iff.mp h).1
    constructor
    · rintro ⟨⟩
      exact ⟨rfl, nodup⟩
    · rintro ⟨rfl, _⟩
      rfl
  | some id =>
    constructor
    · rintro ⟨⟩
    · rintro ⟨rfl, nodup⟩
      have fresh := firstRepeat?_eq_none_iff.mpr ⟨nodup, fun _ _ => List.not_mem_nil⟩
      exact absurd (h.symm.trans fresh) (by simp)

end Rule

end NestedRules
