import NestedRules.Proofs.Rule.Invariant

namespace NestedRules.Rule

variable {r r' : Rule} {id x : String}

theorem Swap.rows_eq {old new : Node} (swap : Swap r r' old new) :
    ∃ before after, r.rows = before ++ (old.row :: Forest.rows old.children) ++ after ∧
      r'.rows = before ++ (new.row :: Forest.rows new.children) ++ after := by
  obtain ⟨before, after, outgoing, incoming⟩ := swap.rows
  exact ⟨before, after, by rw [outgoing, old.rows_eq], by rw [incoming, new.rows_eq]⟩

theorem Swap.row?_old {old new : Node} (swap : Swap r r' old new) (valid : r.Valid) :
    r.row? old.id = some old.row := by
  obtain ⟨before, after, outgoing, -⟩ := swap.rows_eq
  exact valid.row?_eq_some_iff.mpr ⟨by simp [outgoing], old.id_row⟩

theorem Swap.row?_new {old new : Node} (swap : Swap r r' old new) (valid' : r'.Valid) :
    r'.row? old.id = some new.row := by
  obtain ⟨before, after, -, incoming⟩ := swap.rows_eq
  have same : new.id = old.id := swap.choose_spec.2.2
  exact valid'.row?_eq_some_iff.mpr ⟨by simp [incoming], new.id_row.trans same⟩

theorem Swap.row?_of_ne {old new : Node} (swap : Swap r r' old new) (valid : r.Valid)
    (valid' : r'.Valid) (keeps : new.children = old.children) (other : x ≠ old.id) :
    r'.row? x = r.row? x := by
  obtain ⟨before, after, outgoing, incoming⟩ := swap.rows_eq
  have same : new.id = old.id := swap.choose_spec.2.2
  ext row
  rw [valid.row?_eq_some_iff, valid'.row?_eq_some_iff, outgoing, incoming, keeps]
  apply and_congr_left
  rintro rfl
  have notOld : row ≠ old.row := by
    rintro rfl
    exact other old.id_row
  have notNew : row ≠ new.row := by
    rintro rfl
    exact other (new.id_row.trans same)
  simp [notOld, notNew]

theorem Swap.ids_eq {old new : Node} (swap : Swap r r' old new)
    (keeps : new.children = old.children) : r'.ids = r.ids := by
  obtain ⟨before, after, outgoing, incoming⟩ := swap.ids
  have same : new.id = old.id := swap.choose_spec.2.2
  rw [outgoing, incoming, old.ids_eq, new.ids_eq, keeps, same]

theorem Valid.row?_updateGroup {f : Group → Group} (valid : r.Valid)
    (accepted : r.updateGroup id f = .ok r') :
    ∃ old : Group, old.id = id ∧ r.row? id = some old.row ∧
      r'.row? id = some { f old with id }.row := by
  obtain ⟨old, swap, rfl, -⟩ := swap_of_updateGroup accepted
  exact ⟨old, rfl, swap.row?_old valid, swap.row?_new (valid.updateGroup accepted).1⟩

theorem Valid.row?_updateGroup_of_ne {f : Group → Group} (valid : r.Valid)
    (accepted : r.updateGroup id f = .ok r') (keeps : ∀ g, (f g).children = g.children)
    (other : x ≠ id) : r'.row? x = r.row? x := by
  obtain ⟨old, swap, rfl, -⟩ := swap_of_updateGroup accepted
  exact swap.row?_of_ne valid (valid.updateGroup accepted).1 (keeps old) other

theorem ids_updateGroup {f : Group → Group} (accepted : r.updateGroup id f = .ok r')
    (keeps : ∀ g, (f g).children = g.children) : r'.ids = r.ids := by
  obtain ⟨old, swap, -, -⟩ := swap_of_updateGroup accepted
  exact swap.ids_eq (keeps old)

theorem Valid.row?_updateFilter {f : Filter → Filter} (valid : r.Valid)
    (accepted : r.updateFilter id f = .ok r') :
    ∃ old : Filter, old.id = id ∧ r.row? id = some ⟨.filter old, []⟩ ∧
      r'.row? id = some ⟨.filter { f old with id }, []⟩ := by
  obtain ⟨old, swap, rfl, -⟩ := swap_of_updateFilter accepted
  exact ⟨old, rfl, swap.row?_old valid, swap.row?_new (valid.updateFilter accepted).1⟩

theorem Valid.row?_updateFilter_of_ne {f : Filter → Filter} (valid : r.Valid)
    (accepted : r.updateFilter id f = .ok r') (other : x ≠ id) : r'.row? x = r.row? x := by
  obtain ⟨old, swap, rfl, -⟩ := swap_of_updateFilter accepted
  exact swap.row?_of_ne valid (valid.updateFilter accepted).1 rfl other

theorem ids_updateFilter {f : Filter → Filter} (accepted : r.updateFilter id f = .ok r') :
    r'.ids = r.ids := by
  obtain ⟨old, swap, -, -⟩ := swap_of_updateFilter accepted
  exact swap.ids_eq rfl

theorem Valid.row?_insert {parent : String} {n : Node} {index : Option Nat} (valid : r.Valid)
    (accepted : r.insert parent n index = .ok r') (known : x ∈ r.ids) :
    r'.row? x = (r.row? x).map (Row.gain parent index n.id) := by
  have table := rows_attach valid (insert_cases accepted).2
  obtain ⟨row, stored⟩ := exists_row? known
  have ⟨member, same⟩ := valid.row?_eq_some_iff.mp stored
  rw [stored, Option.map_some, (valid.insert accepted).1.row?_eq_some_iff, table.mem_iff]
  refine ⟨List.mem_append_left _ (List.mem_map_of_mem member), ?_⟩
  rw [Row.id_gain, same]

theorem Valid.mem_ids_insert {parent : String} {n : Node} {index : Option Nat} (valid : r.Valid)
    (accepted : r.insert parent n index = .ok r') : x ∈ r'.ids ↔ x ∈ r.ids ∨ x ∈ n.ids := by
  rw [(ids_attach valid (insert_cases accepted).2).mem_iff, List.mem_append]

theorem Valid.row?_remove (valid : r.Valid) (accepted : r.remove id = .ok r') (still : x ∈ r'.ids) :
    r'.row? x = (r.row? x).map (Row.without id) := by
  have valid' := (valid.remove accepted).1
  obtain ⟨row, stored⟩ := exists_row? still
  have ⟨member, same⟩ := valid'.row?_eq_some_iff.mp stored
  obtain ⟨p, found, rfl⟩ := remove_cases accepted
  have struck := (rows_without valid found).mem_iff.mpr (List.mem_append_left _ member)
  obtain ⟨before, known, rfl⟩ := List.mem_map.mp struck
  rw [stored, valid.row?_eq_some_iff.mpr ⟨known, same⟩]
  rfl

end NestedRules.Rule
