import NestedRules.Proofs.Rule.Effect

namespace NestedRules.Rule

variable {r r' : Rule} {id x : String}

def kind? (r : Rule) (id : String) : Option Kind := (r.own? id).map Node.kind

theorem kind?_eq (r : Rule) (id : String) : r.kind? id = (r.row? id).map fun row => row.own.kind := by
  simp [kind?, own?_eq, Function.comp_def]

theorem kind?_eq_map (r : Rule) (id : String) : r.kind? id = (r.node? id).map Node.kind := by
  simp [kind?, own?, Function.comp_def]

theorem kind?_eq_group_iff :
    r.kind? id = some .group ↔ ∃ h cs, r.node? id = some (.group h cs) := by
  rw [kind?_eq_map]
  cases r.node? id with
  | none => simp
  | some n => cases n <;> simp [Node.kind]

theorem kind?_eq_filter_iff : r.kind? id = some .filter ↔ ∃ f, r.node? id = some (.filter f) := by
  rw [kind?_eq_map]
  cases r.node? id with
  | none => simp
  | some n => cases n <;> simp [Node.kind]

theorem mem_ids_of_kind? {kind : Kind} (found : r.kind? id = some kind) : id ∈ r.ids := by
  rw [kind?_eq_map, Option.map_eq_some_iff] at found
  obtain ⟨n, node, -⟩ := found
  exact mem_ids_of_node? node

theorem kind?_ne_group_iff (known : id ∈ r.ids) :
    r.kind? id ≠ some .group ↔ r.kind? id = some .filter := by
  obtain ⟨n, node⟩ := exists_node? known
  rw [kind?_eq_map, node]
  cases n <;> simp [Node.kind]

theorem isGroup_iff_kind? {n : Node} (found : r.node? id = some n) :
    n.isGroup = true ↔ r.kind? id = some .group := by
  rw [kind?_eq_map, found]
  cases n <;> simp [Node.isGroup, Node.kind]

theorem Valid.kind?_updateGroup {f : Group → Group} (valid : r.Valid)
    (accepted : r.updateGroup id f = .ok r') (keeps : ∀ g, (f g).children = g.children) :
    r'.kind? x = r.kind? x := by
  by_cases hit : x = id
  · obtain ⟨old, -, before, after⟩ := valid.row?_updateGroup accepted
    rw [kind?_eq, kind?_eq, hit, before, after]
    rfl
  · rw [kind?_eq, kind?_eq, valid.row?_updateGroup_of_ne accepted keeps hit]

theorem Valid.kind?_updateFilter {f : Filter → Filter} (valid : r.Valid)
    (accepted : r.updateFilter id f = .ok r') : r'.kind? x = r.kind? x := by
  by_cases hit : x = id
  · obtain ⟨old, -, before, after⟩ := valid.row?_updateFilter accepted
    rw [kind?_eq, kind?_eq, hit, before, after]
    rfl
  · rw [kind?_eq, kind?_eq, valid.row?_updateFilter_of_ne accepted hit]

theorem Valid.kind?_insert {parent : String} {n : Node} {index : Option Nat} (valid : r.Valid)
    (accepted : r.insert parent n index = .ok r') (known : x ∈ r.ids) : r'.kind? x = r.kind? x := by
  rw [kind?_eq, kind?_eq, valid.row?_insert accepted known, Option.map_map]
  simp [Function.comp_def]

theorem Valid.kind?_insert_new {parent : String} {n : Node} {index : Option Nat} (valid : r.Valid)
    (accepted : r.insert parent n index = .ok r') : r'.kind? n.id = some n.kind := by
  have stored : n.row ∈ r'.rows := by
    rw [(rows_attach valid (insert_cases accepted).2).mem_iff, n.rows_eq]
    simp
  rw [kind?_eq, (valid.insert accepted).1.row?_eq_some_iff.mpr ⟨stored, n.id_row⟩]
  cases n <;> rfl

theorem Valid.kind?_remove (valid : r.Valid) (accepted : r.remove id = .ok r') (still : x ∈ r'.ids) :
    r'.kind? x = r.kind? x := by
  rw [kind?_eq, kind?_eq, valid.row?_remove accepted still, Option.map_map]
  rfl

end NestedRules.Rule
