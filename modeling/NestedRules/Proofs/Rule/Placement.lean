import NestedRules.Proofs.Rule.Invariant

namespace NestedRules.Rule

variable {r r' : Rule} {source dest : String} {index : Nat}

theorem Valid.row?_move (valid : r.Valid) (accepted : r.move source dest index = .ok r')
    (id : String) : r'.row? id = (r.row? id).map (Row.moved source dest index) :=
  (valid.row?_of_perm (by simp) (rows_move valid accepted)).2 id

theorem Valid.own?_move (valid : r.Valid) (accepted : r.move source dest index = .ok r')
    (id : String) : r'.own? id = r.own? id := by
  rw [own?_eq, own?_eq, valid.row?_move accepted, Option.map_map]
  congr 1
  funext row
  exact row.own_moved ..

theorem Valid.ids_move (valid : r.Valid) (accepted : r.move source dest index = .ok r') :
    r'.ids.Perm r.ids := by
  have table := (rows_move valid accepted).map Row.id
  rwa [List.map_map, map_id_rows, show Row.id ∘ Row.moved source dest index = Row.id from
    funext fun row => row.id_moved .., map_id_rows] at table

theorem Valid.members?_move_dest (valid : r.Valid) (accepted : r.move source dest index = .ok r')
    {members : List String} (before : r.members? dest = some members) :
    r'.members? dest = some ((members.take index).filter (· ≠ source) ++
      source :: (members.drop index).filter (· ≠ source)) := by
  rw [members?_eq, Option.map_eq_some_iff] at before
  obtain ⟨row, found, rfl⟩ := before
  have same : row.id = dest := (valid.row?_eq_some_iff.mp found).2
  rw [members?_eq, valid.row?_move accepted, found]
  simp [Row.moved, same]

theorem Valid.members?_move_of_ne (valid : r.Valid) (accepted : r.move source dest index = .ok r')
    {id : String} (other : id ≠ dest) :
    r'.members? id = (r.members? id).map (·.filter (· ≠ source)) := by
  rw [members?_eq, members?_eq, valid.row?_move accepted]
  cases found : r.row? id with
  | none => rfl
  | some row =>
    have same : row.id = id := (valid.row?_eq_some_iff.mp found).2
    have elsewhere : row.id ≠ dest := fun hit => other (same.symm.trans hit)
    simp [Row.moved_eq_without elsewhere, Row.without]

theorem Valid.not_mem_members (valid : r.Valid) {id : String} {p : Place}
    (found : r.locate? id = some (.inside p)) {group : String} (other : group ≠ p.parent.id)
    {members : List String} (of : r.members? group = some members) : id ∉ members := by
  intro member
  rw [members?_eq, Option.map_eq_some_iff] at of
  obtain ⟨row, stored, rfl⟩ := of
  have ⟨inTable, same⟩ := valid.row?_eq_some_iff.mp stored
  have holder := valid.row_eq_of_member found inTable member
  apply other
  rw [← same, holder]
  rfl

theorem Valid.members?_move_frame (valid : r.Valid)
    (accepted : r.move source dest index = .ok r') {p : Place}
    (found : r.locate? source = some (.inside p)) {id : String} (notOld : id ≠ p.parent.id)
    (notNew : id ≠ dest) : r'.members? id = r.members? id := by
  rw [valid.members?_move_of_ne accepted notNew]
  cases stored : r.members? id with
  | none => rfl
  | some members =>
    rw [Option.map_some, Row.filter_ne_eq_self (valid.not_mem_members found notOld stored)]

theorem exists_members?_dest (accepted : r.move source dest index = .ok r') :
    ∃ members, r.members? dest = some members := by
  obtain ⟨p, target, -, found, -, -, -⟩ := move_cases accepted
  exact ⟨target.node.memberIds, by simp [members?, node?, found]⟩

/-- A move keeps every node with all that it carries. It puts the source before the member that
    stands at the index, takes it out of its old group, and leaves the members of every other group as
    they are. The source stands in the rule once, and the index is shifted only when it is not zero. -/
theorem move_places (valid : r.Valid) (accepted : r.move source dest index = .ok r') :
    (r'.ids.Perm r.ids ∧ ∀ id, r'.own? id = r.own? id) ∧
      (∃ members, r.members? dest = some members ∧
        r'.members? dest = some ((members.take index).filter (· ≠ source) ++ [source] ++
          (members.drop index).filter (· ≠ source))) ∧
      ∃ p, r.locate? source = some (.inside p) ∧
        (p.parent.id ≠ dest →
          r'.members? p.parent.id = (r.members? p.parent.id).map (·.filter (· ≠ source))) ∧
        (∀ id, id ≠ p.parent.id → id ≠ dest → r'.members? id = r.members? id) ∧
        r'.ids.count source = 1 ∧ p.index < p.parent.children.length ∧
        (p.parent.id = dest → p.index < index → index - 1 + 1 = index) := by
  obtain ⟨p, target, found, -, -, -, -⟩ := move_cases accepted
  obtain ⟨members, stored⟩ := exists_members?_dest accepted
  have sourceKnown : source ∈ r'.ids := by
    rw [(valid.ids_move accepted).mem_iff]
    exact mem_ids_of_locate? found
  refine ⟨⟨valid.ids_move accepted, valid.own?_move accepted⟩, ⟨members, stored, ?_⟩, p, found,
    fun other => valid.members?_move_of_ne accepted other,
    fun id notOld notNew => valid.members?_move_frame accepted found notOld notNew,
    List.count_eq_one_of_mem (valid.move accepted).1 sourceKnown, ?_, by omega⟩
  · rw [valid.members?_move_dest accepted stored]
    simp
  · simp [Place.index, Place.parent, Frame.fill]

/-- The group `g` goes behind its sibling `b`; the index counts `g` itself, which stands before it. -/
theorem move_places_twoLevels :
    ∃ r', twoLevels.move "g" "root" 2 = .ok r' ∧ r'.ids.Perm twoLevels.ids ∧
      r'.members? "root" = some ["b", "g"] ∧ r'.members? "g" = some ["a"] := by
  obtain ⟨r', accepted⟩ : ∃ r', twoLevels.move "g" "root" 2 = .ok r' := ⟨_, rfl⟩
  obtain ⟨⟨ids, -⟩, ⟨members, stored, placed⟩, p, found, -, others, -⟩ :=
    move_places valid_twoLevels accepted
  obtain rfl : ["g", "b"] = members := Option.some.inj stored
  have located : twoLevels.locate? "g" = some (.inside ⟨_, _, _⟩) := rfl
  obtain rfl := Location.inside.inj (Option.some.inj (located.symm.trans found))
  exact ⟨r', accepted, ids, placed, others "g" (by decide) (by decide)⟩

end NestedRules.Rule
