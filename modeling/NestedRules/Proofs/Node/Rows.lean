import Mathlib.Data.List.Nodup
import Mathlib.Data.List.Perm.Basic
import NestedRules.Node.Preorder

namespace NestedRules

def Node.bare : Node → Node
  | .group h _ => .group h []
  | .filter f => .filter f

def Node.memberIds (n : Node) : List String := n.children.map Node.id

structure Row where
  own : Node
  members : List String
  deriving DecidableEq

def Row.id (row : Row) : String := row.own.id

def Node.row (n : Node) : Row := ⟨n.bare, n.memberIds⟩

def Node.rows (n : Node) : List Row := n.preorder.map Node.row

def Forest.rows (forest : Forest) : List Row := (Forest.preorder forest).map Node.row

def Forest.ids (forest : Forest) : List String := (Forest.preorder forest).map Node.id

namespace Node

@[simp] theorem id_bare (n : Node) : n.bare.id = n.id := by cases n <;> rfl

@[simp] theorem kind_bare (n : Node) : n.bare.kind = n.kind := by cases n <;> rfl

@[simp] theorem isLocked_bare (n : Node) : n.bare.isLocked = n.isLocked := by cases n <;> rfl

@[simp] theorem isDisabled_bare (n : Node) : n.bare.isDisabled = n.isDisabled := by cases n <;> rfl

@[simp] theorem id_row (n : Node) : n.row.id = n.id := n.id_bare

theorem eq_of_bare {m n : Node} (same : m.bare = n.bare) (members : m.children = n.children) :
    m = n := by
  cases m with
  | group h cs =>
    cases n with
    | group k ds =>
      obtain rfl : h = k := (Node.group.inj same).1
      exact congrArg (Node.group h) members
    | filter f => cases same
  | filter f =>
    cases n with
    | group k ds => cases same
    | filter g => exact same

theorem rows_eq (n : Node) : n.rows = n.row :: Forest.rows n.children := by
  rw [rows, preorder_eq, List.map_cons, Forest.rows]

theorem ids_eq (n : Node) : n.ids = n.id :: Forest.ids n.children := by
  rw [ids, nodes_eq_preorder, preorder_eq, List.map_cons, Forest.ids]

theorem ids_group (h : Header) (cs : Forest) : (Node.group h cs).ids = h.id :: Forest.ids cs :=
  ids_eq _

theorem ids_filter (f : Filter) : (Node.filter f).ids = [f.id] := ids_eq _

theorem map_id_rows (n : Node) : n.rows.map Row.id = n.ids := by
  simp only [rows, ids, nodes_eq_preorder, List.map_map]
  exact List.map_congr_left fun m _ => m.id_row

@[simp] theorem rows_group (h : Header) (cs : Forest) :
    (Node.group h cs).rows = ⟨.group h [], cs.map Node.id⟩ :: Forest.rows cs := rows_eq _

theorem id_mem_ids (n : Node) : n.id ∈ n.ids := by simp [ids_eq]

end Node

namespace Forest

@[simp] theorem rows_nil : Forest.rows [] = [] := rfl

@[simp] theorem rows_cons (c : Node) (cs : Forest) :
    Forest.rows (c :: cs) = c.rows ++ Forest.rows cs := by
  simp [Forest.rows, Node.rows, Forest.preorder]

@[simp] theorem rows_append (as bs : Forest) :
    Forest.rows (as ++ bs) = Forest.rows as ++ Forest.rows bs := by
  simp [Forest.rows, preorder_append]

@[simp] theorem ids_nil : Forest.ids [] = [] := rfl

@[simp] theorem ids_cons (c : Node) (cs : Forest) :
    Forest.ids (c :: cs) = c.ids ++ Forest.ids cs := by
  simp [Forest.ids, Node.ids, Node.nodes_eq_preorder, Forest.preorder]

@[simp] theorem ids_append (as bs : Forest) :
    Forest.ids (as ++ bs) = Forest.ids as ++ Forest.ids bs := by
  simp [Forest.ids, preorder_append]

end Forest

theorem Forest.flatMap_members_rows {cs : Forest}
    (each : ∀ c ∈ cs, (c.rows.flatMap Row.members).Perm (Forest.ids c.children)) :
    (cs.map Node.id ++ (Forest.rows cs).flatMap Row.members).Perm (Forest.ids cs) := by
  induction cs with
  | nil => simp
  | cons c cs ih =>
    have first := each c List.mem_cons_self
    have rest := ih fun b member => each b (List.mem_cons_of_mem _ member)
    rw [List.perm_iff_count] at first rest ⊢
    intro x
    have atFirst := first x
    have atRest := rest x
    simp only [List.map_cons, rows_cons, List.flatMap_append, ids_cons, Node.ids_eq c,
      List.cons_append, List.count_cons, List.count_append] at atRest ⊢
    omega

/-- The members of the rows are the ids below the root, each as often as it stands there. -/
theorem Node.flatMap_members_rows (n : Node) :
    (n.rows.flatMap Row.members).Perm (Forest.ids n.children) := by
  induction n with
  | filter f => simp [rows_eq, row, memberIds, children]
  | group header children ih =>
    simpa [rows_eq, row, memberIds, Node.children] using Forest.flatMap_members_rows ih

theorem Node.nodup_flatMap_members {n : Node} (distinct : n.ids.Nodup) :
    (n.rows.flatMap Row.members).Nodup := by
  rw [ids_eq, List.nodup_cons] at distinct
  exact n.flatMap_members_rows.nodup_iff.mpr distinct.2

end NestedRules
