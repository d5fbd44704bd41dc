import Mathlib.Data.List.Pairwise
import NestedRules.Proofs.Node.Around
import NestedRules.Rule.Edit

namespace NestedRules

theorem find?_eq_some_iff_of_nodup {α : Type} {key : α → String} {entries : List α}
    (distinct : (entries.map key).Nodup) {id : String} {a : α} :
    entries.find? (key · = id) = some a ↔ a ∈ entries ∧ key a = id := by
  constructor
  · intro found
    exact ⟨List.mem_of_find?_eq_some found, by simpa using List.find?_some found⟩
  · rintro ⟨member, rfl⟩
    cases found : entries.find? (key · = key a) with
    | none =>
      have missed := List.find?_eq_none.mp found a member
      simp at missed
    | some b =>
      have same : key b = key a := by simpa using List.find?_some found
      rw [List.inj_on_of_nodup_map distinct (List.mem_of_find?_eq_some found) member same]

namespace Rule

variable {r r' : Rule} {id : String}

def rows (r : Rule) : List Row := r.node.rows

def row? (r : Rule) (id : String) : Option Row := (r.node? id).map Node.row

def own? (r : Rule) (id : String) : Option Node := (r.node? id).map Node.bare

def members? (r : Rule) (id : String) : Option (List String) := (r.node? id).map Node.memberIds

def parent? (r : Rule) (id : String) : Option String :=
  ((r.locate? id).bind Location.parent?).map fun g => g.id

theorem own?_eq (r : Rule) (id : String) : r.own? id = (r.row? id).map Row.own := by
  simp [own?, row?, Node.row, Function.comp_def]

theorem members?_eq (r : Rule) (id : String) : r.members? id = (r.row? id).map Row.members := by
  simp [members?, row?, Node.row, Function.comp_def]

theorem map_id_rows (r : Rule) : r.rows.map Row.id = r.ids := r.node.map_id_rows

theorem id_node (r : Rule) : r.node.id = r.root.id := rfl

theorem eq_of_node (same : r.node = r'.node) : r = r' := by
  obtain ⟨h, cs⟩ := r
  obtain ⟨k, ds⟩ := r'
  cases same
  rfl

theorem node?_eq_find? (r : Rule) (id : String) :
    r.node? id = r.node.preorder.find? (·.id = id) := by
  rw [node?, locate?, Node.locate?, Node.preorder_eq, List.find?_cons, ← Node.place?_eq_find?]
  by_cases top : r.node.id = id
  · simp [top, Location.node]
  · simp [top, Function.comp_def, Location.node]

theorem node?_eq_none_iff : r.node? id = none ↔ id ∉ r.ids := by
  rw [node?_eq_find?, List.find?_eq_none, ids_eq_preorder]
  simp

theorem mem_ids_of_node? {n : Node} (found : r.node? id = some n) : id ∈ r.ids := by
  by_contra unknown
  rw [← node?_eq_none_iff, found] at unknown
  cases unknown

theorem exists_node? (known : id ∈ r.ids) : ∃ n, r.node? id = some n :=
  Option.ne_none_iff_exists'.mp (mt node?_eq_none_iff.mp (not_not.mpr known))

theorem locate?_eq_none_iff : r.locate? id = none ↔ id ∉ r.ids := by
  rw [← node?_eq_none_iff, node?, Option.map_eq_none_iff]

theorem exists_locate? (known : id ∈ r.ids) : ∃ location, r.locate? id = some location :=
  Option.ne_none_iff_exists'.mp (mt locate?_eq_none_iff.mp (not_not.mpr known))

theorem node?_of_locate? {location : Location} (found : r.locate? id = some location) :
    r.node? id = some location.node := by
  rw [node?, found, Option.map_some]

theorem mem_ids_of_locate? {location : Location} (found : r.locate? id = some location) :
    id ∈ r.ids := mem_ids_of_node? (node?_of_locate? found)

theorem node_of_locate?_root {n : Node} (found : r.locate? id = some (.root n)) :
    n = r.node ∧ r.root.id = id := by
  unfold locate? Node.locate? at found
  split at found
  · rename_i top
    cases found
    exact ⟨rfl, top⟩
  · cases below : r.node.place? id <;> simp [below] at found

theorem place?_of_locate?_inside {p : Place} (found : r.locate? id = some (.inside p)) :
    r.node.place? id = some p ∧ r.root.id ≠ id := by
  unfold locate? Node.locate? at found
  split at found
  · cases found
  · rename_i notTop
    cases below : r.node.place? id with
    | none => simp [below] at found
    | some q =>
      simp only [below, Option.map_some, Option.some.injEq, Location.inside.injEq] at found
      exact ⟨by rw [found], notTop⟩

theorem around_of_locate?_inside {p : Place} (found : r.locate? id = some (.inside p)) :
    Frame.around p.frames p.node = r.node ∧ p.node.id = id :=
  Node.around_of_place? _ (place?_of_locate?_inside found).1

theorem exists_around {n : Node} (found : r.node? id = some n) :
    n.id = id ∧ ∃ frames, Frame.around frames n = r.node := by
  obtain ⟨location, located, rfl⟩ := Option.map_eq_some_iff.mp found
  cases location with
  | root n =>
    obtain ⟨rfl, top⟩ := node_of_locate?_root located
    exact ⟨top, [], rfl⟩
  | inside p =>
    obtain ⟨rebuilt, same⟩ := around_of_locate?_inside located
    exact ⟨same, p.frames, rebuilt⟩

theorem Valid.row_unique (valid : r.Valid) {first second : Row} (one : first ∈ r.rows)
    (two : second ∈ r.rows) (same : first.id = second.id) : first = second := by
  rw [Valid, ← map_id_rows] at valid
  exact List.inj_on_of_nodup_map valid one two same

theorem Valid.node?_eq_some_iff (valid : r.Valid) {n : Node} :
    r.node? id = some n ↔ n ∈ r.node.preorder ∧ n.id = id := by
  rw [Valid, ids_eq_preorder] at valid
  rw [node?_eq_find?, find?_eq_some_iff_of_nodup valid]

theorem Valid.node?_of_child {h : Header} {cs : Forest} {c : Node} (valid : r.Valid)
    (found : r.node? id = some (.group h cs)) (member : c ∈ cs) : r.node? c.id = some c := by
  have visited := (valid.node?_eq_some_iff.mp found).1
  exact valid.node?_eq_some_iff.mpr ⟨Node.mem_preorder_of_child visited member, rfl⟩

theorem Valid.row?_eq_some_iff (valid : r.Valid) {row : Row} :
    r.row? id = some row ↔ row ∈ r.rows ∧ row.id = id := by
  simp only [row?, Option.map_eq_some_iff, valid.node?_eq_some_iff, rows, Node.rows, List.mem_map]
  constructor
  · rintro ⟨n, ⟨member, rfl⟩, rfl⟩
    exact ⟨⟨n, member, rfl⟩, n.id_row⟩
  · rintro ⟨⟨n, member, rfl⟩, rfl⟩
    exact ⟨n, ⟨member, n.id_row.symm⟩, rfl⟩

theorem row?_eq_none_iff : r.row? id = none ↔ id ∉ r.ids := by
  rw [row?, Option.map_eq_none_iff, node?_eq_none_iff]

theorem exists_row? (known : id ∈ r.ids) : ∃ row, r.row? id = some row :=
  Option.ne_none_iff_exists'.mp (mt row?_eq_none_iff.mp (not_not.mpr known))

theorem Valid.member_unique (valid : r.Valid) {first second : Row} (one : first ∈ r.rows)
    (two : second ∈ r.rows) (inFirst : id ∈ first.members) (inSecond : id ∈ second.members) :
    first = second := by
  have apart := (List.nodup_flatMap.mp (Node.nodup_flatMap_members valid)).2
  have symmetric : Std.Symm (Function.onFun List.Disjoint Row.members) :=
    ⟨fun _ _ apart _ left right => apart right left⟩
  by_contra different
  exact apart.forall one two different inFirst inSecond

theorem mem_ids_of_member {row : Row} (stored : row ∈ r.rows) (member : id ∈ row.members) :
    id ∈ Forest.ids r.node.children :=
  r.node.flatMap_members_rows.mem_iff.mp (List.mem_flatMap.mpr ⟨row, stored, member⟩)

theorem Valid.ne_root_of_member (valid : r.Valid) {row : Row} (stored : row ∈ r.rows)
    (member : id ∈ row.members) : r.root.id ≠ id := by
  rw [Valid, ids, Node.ids_eq, List.nodup_cons] at valid
  rintro rfl
  exact valid.1 (mem_ids_of_member stored member)

theorem exists_locate?_inside (known : id ∈ r.ids) (notTop : r.root.id ≠ id) :
    ∃ p, r.locate? id = some (.inside p) := by
  obtain ⟨location, found⟩ := exists_locate? known
  cases location with
  | root n => exact absurd (node_of_locate?_root found).2 notTop
  | inside p => exact ⟨p, found⟩

theorem row_mem_rows_of_locate? {p : Place} (found : r.locate? id = some (.inside p)) :
    p.frame.row id ∈ r.rows := by
  have ⟨rebuilt, same⟩ := around_of_locate?_inside found
  rw [Place.frames, Frame.around_append] at rebuilt
  rw [rows, ← rebuilt, ← same]
  exact Frame.mem_rows_around (by simp [Frame.around, Frame.rows_fill])

theorem Valid.row_eq_of_member {p : Place} (valid : r.Valid)
    (found : r.locate? id = some (.inside p)) {row : Row} (stored : row ∈ r.rows)
    (member : id ∈ row.members) : row = p.frame.row id :=
  valid.member_unique stored (row_mem_rows_of_locate? found) member (by simp [Frame.row])

theorem Valid.exists_place_of_member (valid : r.Valid) {row : Row} (stored : row ∈ r.rows)
    (member : id ∈ row.members) : ∃ p, r.locate? id = some (.inside p) ∧ p.parent.id = row.id := by
  have known : id ∈ r.ids := by
    rw [ids, Node.ids_eq]
    exact List.mem_cons_of_mem _ (mem_ids_of_member stored member)
  obtain ⟨p, located⟩ := exists_locate?_inside known (valid.ne_root_of_member stored member)
  refine ⟨p, located, ?_⟩
  rw [valid.row_eq_of_member located stored member]
  rfl

theorem Valid.parent?_eq_some_iff (valid : r.Valid) {parent : String} :
    r.parent? id = some parent ↔ ∃ row ∈ r.rows, row.id = parent ∧ id ∈ row.members := by
  constructor
  · intro found
    cases located : r.locate? id with
    | none => simp [parent?, located] at found
    | some location =>
      cases location with
      | root n => simp [parent?, located, Location.parent?] at found
      | inside p =>
        simp only [parent?, located, Option.bind_some, Location.parent?, Option.map_some,
          Option.some.injEq] at found
        exact ⟨_, row_mem_rows_of_locate? located, found, by simp [Frame.row]⟩
  · rintro ⟨row, stored, rfl, member⟩
    obtain ⟨p, located, same⟩ := valid.exists_place_of_member stored member
    simp [parent?, located, Location.parent?, same]

/-- A table that is rewritten row by row, each row under its id, is that of a rule whose look-ups
    give the rewritten rows. -/
theorem Valid.row?_of_perm (valid : r.Valid) {f : Row → Row} (same : ∀ row, (f row).id = row.id)
    (table : r'.rows.Perm (r.rows.map f)) : r'.Valid ∧ ∀ id, r'.row? id = (r.row? id).map f := by
  have ids : r'.ids.Perm r.ids := by
    rw [← map_id_rows, ← map_id_rows]
    simpa [Function.comp_def, same] using table.map Row.id
  have valid' : r'.Valid := ids.nodup_iff.mpr valid
  refine ⟨valid', fun id => ?_⟩
  cases found : r.row? id with
  | none =>
    rw [row?_eq_none_iff] at found
    rw [Option.map_none, row?_eq_none_iff]
    exact fun member => found (ids.mem_iff.mp member)
  | some row =>
    have ⟨member, hit⟩ := valid.row?_eq_some_iff.mp found
    rw [Option.map_some, valid'.row?_eq_some_iff]
    exact ⟨table.mem_iff.mpr (List.mem_map_of_mem member), (same row).trans hit⟩

end Rule

end NestedRules
