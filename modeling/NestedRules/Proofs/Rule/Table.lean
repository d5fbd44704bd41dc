import NestedRules.Proofs.Rule.Swap

namespace NestedRules

namespace Row

def without (id : String) (row : Row) : Row := { row with members := row.members.filter (· ≠ id) }

def gain (parent : String) (index : Option Nat) (id : String) (row : Row) : Row :=
  if row.id = parent then
    let i := index.getD row.members.length
    { row with members := row.members.take i ++ id :: row.members.drop i }
  else row

/-- The row after a move of `source` into the group `dest`, before the member at `index`. -/
def moved (source dest : String) (index : Nat) (row : Row) : Row :=
  if row.id = dest then
    { row with members := (row.members.take index).filter (· ≠ source) ++
        source :: (row.members.drop index).filter (· ≠ source) }
  else row.without source

@[simp] theorem id_without (id : String) (row : Row) : (row.without id).id = row.id := rfl

@[simp] theorem own_without (id : String) (row : Row) : (row.without id).own = row.own := rfl

@[simp] theorem own_gain (parent id : String) (index : Option Nat) (row : Row) :
    (row.gain parent index id).own = row.own := by
  unfold gain
  split <;> rfl

@[simp] theorem id_gain (parent id : String) (index : Option Nat) (row : Row) :
    (row.gain parent index id).id = row.id := by
  rw [Row.id, own_gain, Row.id]

@[simp] theorem own_moved (source dest : String) (index : Nat) (row : Row) :
    (row.moved source dest index).own = row.own := by
  unfold moved
  split <;> rfl

@[simp] theorem id_moved (source dest : String) (index : Nat) (row : Row) :
    (row.moved source dest index).id = row.id := by
  rw [id, own_moved, id]

theorem filter_ne_eq_self {id : String} {members : List String} (absent : id ∉ members) :
    members.filter (· ≠ id) = members := by
  rw [List.filter_eq_self]
  intro member isMember
  have other : member ≠ id := fun same => absent (same ▸ isMember)
  simpa using other

theorem without_of_not_mem {id : String} {row : Row} (absent : id ∉ row.members) :
    row.without id = row := by
  rw [without, filter_ne_eq_self absent]

theorem gain_of_ne {parent id : String} {index : Option Nat} {row : Row} (other : row.id ≠ parent) :
    row.gain parent index id = row := if_neg other

theorem moved_eq_without {source dest : String} {index : Nat} {row : Row} (other : row.id ≠ dest) :
    row.moved source dest index = row.without source := if_neg other

theorem without_moved (source dest : String) (index : Nat) (row : Row) :
    (row.moved source dest index).without source = row.without source := by
  unfold moved
  split
  · have halves : (row.members.take index).filter (· ≠ source) ++
        (row.members.drop index).filter (· ≠ source) = row.members.filter (· ≠ source) := by
      rw [← List.filter_append, List.take_append_drop]
    rw [without, List.filter_append, List.filter_cons_of_neg (by simp)]
    simp only [List.filter_filter, Bool.and_self, halves]
    rfl
  · simp [without]

theorem moved_of_not_mem {source dest : String} {index : Nat} {row : Row}
    (absent : source ∉ row.members) :
    row.moved source dest index = (row.without source).gain dest (some index) source := by
  have left := filter_ne_eq_self fun member => absent (List.mem_of_mem_take (i := index) member)
  have right := filter_ne_eq_self fun member => absent (List.mem_of_mem_drop (i := index) member)
  rw [without_of_not_mem absent, moved, gain, left, right, without_of_not_mem absent]
  rfl

theorem moved_of_mem {source dest : String} {index : Nat} {row : Row} {before after : List String}
    (members : row.members = before ++ source :: after) (notBefore : source ∉ before)
    (notAfter : source ∉ after) :
    row.moved source dest index = (row.without source).gain dest
      (some (if before.length < index then index - 1 else index)) source := by
  by_cases other : row.id = dest
  · have rest : (row.without source).members = before ++ after := by
      rw [without, members, List.filter_append, filter_ne_eq_self notBefore,
        List.filter_cons_of_neg (by simp), filter_ne_eq_self notAfter]
    have top : (row.without source).id = dest := other
    rw [moved, gain, if_pos other, if_pos top, rest, members, own_without]
    by_cases earlier : before.length < index
    · obtain ⟨k, rfl⟩ := Nat.exists_eq_add_of_le earlier
      have kept := filter_ne_eq_self fun member => notAfter (List.mem_of_mem_take (i := k) member)
      have dropped := filter_ne_eq_self fun member => notAfter (List.mem_of_mem_drop (i := k) member)
      have shifted : before.length + 1 + k - 1 = before.length + k := by omega
      have past : before.length + 1 + k = before.length + (k + 1) := by omega
      simp only [if_pos earlier, Option.getD_some, shifted]
      rw [past, List.take_length_add_append, List.drop_length_add_append, List.take_succ_cons,
        List.drop_succ_cons, List.take_length_add_append, List.drop_length_add_append,
        List.filter_append, filter_ne_eq_self notBefore, List.filter_cons_of_neg (by simp), kept, dropped]
    · have left := filter_ne_eq_self fun member =>
        notBefore (List.mem_of_mem_take (i := index) member)
      have right := filter_ne_eq_self fun member =>
        notBefore (List.mem_of_mem_drop (i := index) member)
      have inside : index ≤ before.length := by omega
      simp only [if_neg earlier, Option.getD_some]
      rw [List.take_append_of_le_length inside, List.drop_append_of_le_length inside,
        List.take_append_of_le_length inside, List.drop_append_of_le_length inside,
        List.filter_append, left, right, List.filter_cons_of_neg (by simp), filter_ne_eq_self notAfter]
  · have elsewhere : (row.without source).id ≠ dest := other
    rw [moved_eq_without other, gain_of_ne elsewhere]

theorem map_id_map_gain (parent id : String) (index : Option Nat) (rows : List Row) :
    (rows.map (gain parent index id)).map Row.id = rows.map Row.id := by
  simp [Function.comp_def]

theorem map_without_eq_self {id : String} {rows : List Row} (absent : id ∉ rows.flatMap members) :
    rows.map (without id) = rows := by
  rw [List.mem_flatMap] at absent
  have kept : ∀ row ∈ rows, without id row = row :=
    fun row stored => without_of_not_mem fun member => absent ⟨row, stored, member⟩
  rw [List.map_congr_left kept, List.map_id']

theorem map_gain_eq_self {parent id : String} {index : Option Nat} {rows : List Row}
    (absent : parent ∉ rows.map Row.id) : rows.map (gain parent index id) = rows := by
  have kept : ∀ row ∈ rows, gain parent index id row = row :=
    fun row stored => gain_of_ne fun same => absent (same ▸ List.mem_map_of_mem stored)
  rw [List.map_congr_left kept, List.map_id']

end Row

namespace Group

def row (g : Group) : Row := ⟨.group g.toHeader [], g.children.map Node.id⟩

theorem rows_toNode (g : Group) : g.toNode.rows = g.row :: Forest.rows g.children :=
  Node.rows_group ..

theorem row_insert (g : Group) (index : Option Nat) (n : Node) :
    (g.insert (index.getD g.children.length) n).row = g.row.gain g.id index n.id := by
  simp [row, insert, Row.gain, Row.id, Node.id, List.map_take, List.map_drop]

theorem rows_insert (g : Group) (i : Nat) (n : Node) :
    (g.insert i n).toNode.rows.Perm ((g.insert i n).row :: Forest.rows g.children ++ n.rows) := by
  have split : Forest.rows g.children =
      Forest.rows (g.children.take i) ++ Forest.rows (g.children.drop i) := by
    rw [← Forest.rows_append, List.take_append_drop]
  have members : Forest.rows (g.insert i n).children =
      Forest.rows (g.children.take i) ++ (n.rows ++ Forest.rows (g.children.drop i)) := by
    simp [insert]
  rw [rows_toNode, split, members, List.perm_iff_count]
  intro row
  simp only [List.cons_append, List.count_append, List.count_cons]
  omega

end Group

namespace Frame

theorem rows_close_eq (fr : Frame) :
    fr.close.toNode.rows = fr.close.row :: Forest.rows fr.before ++ Forest.rows fr.after := by
  rw [Group.rows_toNode, close, Forest.rows_append]
  rfl

theorem row_close {fr : Frame} {id : String} (before : id ∉ fr.before.map Node.id)
    (after : id ∉ fr.after.map Node.id) : fr.close.row = (fr.row id).without id := by
  simp only [Group.row, close, Frame.row, Row.without, List.map_append, List.filter_append]
  rw [Row.filter_ne_eq_self before, List.filter_cons_of_neg (by simp), Row.filter_ne_eq_self after]

end Frame

namespace Rule

variable {r r' : Rule} {id : String}

theorem rows_attach {n : Node} {index : Option Nat} (valid : r.Valid)
    (accepted : r.attach id n index = .ok r') :
    r'.rows.Perm (r.rows.map (Row.gain id index n.id) ++ n.rows) := by
  obtain ⟨g, same, swap⟩ := swap_of_attach accepted
  obtain ⟨before, after, outgoing, incoming⟩ := swap.rows
  rw [Valid, ← map_id_rows, outgoing, Group.rows_toNode] at valid
  have others : id ∉ before.map Row.id ∧ id ∉ (Forest.rows g.children).map Row.id ∧
      id ∉ after.map Row.id := by
    simp only [List.map_append, List.map_cons, List.nodup_append, List.mem_append, List.nodup_cons,
      List.mem_cons] at valid
    have top : g.row.id = id := same
    grind
  have table : r.rows.map (Row.gain id index n.id) =
      before ++ (g.insert (index.getD g.children.length) n).row :: Forest.rows g.children ++ after := by
    rw [outgoing, Group.rows_toNode, Group.row_insert, same]
    simp only [List.map_append, List.map_cons, Row.map_gain_eq_self others.1,
      Row.map_gain_eq_self others.2.1, Row.map_gain_eq_self others.2.2]
  have inserted := g.rows_insert (index.getD g.children.length) n
  rw [table, incoming, List.perm_iff_count]
  rw [List.perm_iff_count] at inserted
  intro row
  have atRow := inserted row
  simp only [List.cons_append, List.count_append, List.count_cons] at atRow ⊢
  omega

theorem ids_attach {n : Node} {index : Option Nat} (valid : r.Valid)
    (accepted : r.attach id n index = .ok r') : r'.ids.Perm (r.ids ++ n.ids) := by
  have ids := (rows_attach valid accepted).map Row.id
  rwa [List.map_append, map_id_rows, Node.map_id_rows, Row.map_id_map_gain, map_id_rows] at ids

theorem Valid.not_mem_beside {p : Place} (valid : r.Valid)
    (found : r.locate? id = some (.inside p)) :
    id ∉ p.frame.before.map Node.id ∧ id ∉ p.frame.after.map Node.id := by
  have single := (List.nodup_flatMap.mp (Node.nodup_flatMap_members valid)).1 _
    (row_mem_rows_of_locate? found)
  simp only [Frame.row, List.nodup_append, List.nodup_cons, List.mem_cons] at single
  grind

/-- What is left without a subtree, and the subtree, are the rule with the id of the subtree struck
    from every row. -/
theorem rows_without {p : Place} (valid : r.Valid) (found : r.locate? id = some (.inside p)) :
    (r.rows.map (Row.without id)).Perm ((⟨p.without⟩ : Rule).rows ++ p.node.rows) := by
  obtain ⟨before, after, outgoing, incoming⟩ := (swap_without found).rows
  have same : p.node.id = id := (around_of_locate?_inside found).2
  rw [Place.parent, Frame.rows_fill, same] at outgoing
  have once : (r.rows.flatMap Row.members).Nodup := Node.nodup_flatMap_members valid
  simp only [outgoing, List.flatMap_append, List.flatMap_cons, List.nodup_append, List.mem_append]
    at once
  have holder : id ∈ (p.frame.row id).members := by simp [Frame.row]
  have others : id ∉ before.flatMap Row.members ∧ id ∉ p.node.rows.flatMap Row.members ∧
      id ∉ (Forest.rows p.frame.before).flatMap Row.members ∧
      id ∉ (Forest.rows p.frame.after).flatMap Row.members ∧ id ∉ after.flatMap Row.members := by
    grind
  have beside := valid.not_mem_beside found
  have table : r.rows.map (Row.without id) = before ++ (p.frame.close.row ::
      Forest.rows p.frame.before ++ p.node.rows ++ Forest.rows p.frame.after) ++ after := by
    rw [outgoing, Frame.row_close beside.1 beside.2]
    simp only [List.map_append, List.map_cons, Row.map_without_eq_self others.1,
      Row.map_without_eq_self others.2.1, Row.map_without_eq_self others.2.2.1,
      Row.map_without_eq_self others.2.2.2.1, Row.map_without_eq_self others.2.2.2.2]
  rw [table, incoming, Frame.rows_close_eq, List.perm_iff_count]
  intro row
  simp only [List.cons_append, List.count_append, List.count_cons]
  omega

theorem ids_without {p : Place} (valid : r.Valid) (found : r.locate? id = some (.inside p)) :
    r.ids.Perm ((⟨p.without⟩ : Rule).ids ++ p.node.ids) := by
  have table := (rows_without valid found).map Row.id
  simpa only [List.map_map, Function.comp_def, Row.id_without, List.map_append, map_id_rows,
    Node.map_id_rows] using table

theorem Valid.without {p : Place} (valid : r.Valid) (found : r.locate? id = some (.inside p)) :
    ((⟨p.without⟩ : Rule).ids ++ p.node.ids).Nodup :=
  (ids_without valid found).nodup_iff.mp valid

theorem mem_ids_of_attach {n : Node} {index : Option Nat} (attached : r.attach id n index = .ok r') :
    id ∈ r.ids := by
  obtain ⟨g, rfl, swap⟩ := swap_of_attach attached
  obtain ⟨before, after, outgoing, -⟩ := swap.ids
  have top : g.id ∈ g.toNode.ids := g.toNode.id_mem_ids
  simp [outgoing, top]

theorem Valid.moved_eq_gain {source dest : String} {index : Nat} {p : Place} (valid : r.Valid)
    (found : r.locate? source = some (.inside p)) {row : Row} (stored : row ∈ r.rows) :
    row.moved source dest index = (row.without source).gain dest
      (some (if p.parent.id = dest ∧ p.index < index then index - 1 else index)) source := by
  by_cases top : row.id = dest
  · -- The index is shifted only where the destination is the group that loses the source.
    by_cases member : source ∈ row.members
    · obtain rfl := valid.row_eq_of_member found stored member
      have ⟨notBefore, notAfter⟩ := valid.not_mem_beside found
      have parent : p.parent.id = dest := top
      have position : p.index = (p.frame.before.map Node.id).length := by simp [Place.index]
      simp only [parent, true_and, position]
      exact Row.moved_of_mem rfl notBefore notAfter
    · have elsewhere : p.parent.id ≠ dest := by
        intro parent
        have holder : row = p.frame.row source :=
          valid.row_unique stored (row_mem_rows_of_locate? found) (top.trans parent.symm)
        exact member (by simp [holder, Frame.row])
      simp only [elsewhere, false_and, if_false]
      exact Row.moved_of_not_mem member
  · have other : (row.without source).id ≠ dest := top
    rw [Row.moved_eq_without top, Row.gain_of_ne other]

theorem rows_move {source dest : String} {index : Nat} (valid : r.Valid)
    (accepted : r.move source dest index = .ok r') :
    r'.rows.Perm (r.rows.map (Row.moved source dest index)) := by
  obtain ⟨p, target, found, -, -, -, attached⟩ := move_cases accepted
  have same : p.node.id = source := (around_of_locate?_inside found).2
  have apart := List.nodup_append.mp (valid.without found)
  have outside : dest ∉ p.node.rows.map Row.id := by
    rw [Node.map_id_rows]
    exact fun inside => apart.2.2 dest (mem_ids_of_attach attached) dest inside rfl
  have lost := (rows_without valid found).map (Row.gain dest
    (some (if p.parent.id = dest ∧ p.index < index then index - 1 else index)) source)
  rw [List.map_append, Row.map_gain_eq_self outside, List.map_map] at lost
  have gained := rows_attach apart.1 attached
  rw [same] at gained
  rw [List.map_congr_left fun row stored => valid.moved_eq_gain found stored]
  exact gained.trans lost.symm

end Rule

end NestedRules
