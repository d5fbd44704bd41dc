import NestedRules.Proofs.Rule.Acceptance
import NestedRules.Proofs.Rule.Enclosure
import NestedRules.Proofs.Rule.Kind

namespace NestedRules

mutual

theorem Node.mem_ids_of_above {id : String} {p : Path} {g : Node} : (n : Node) →
    n.path? id = some p → g ∈ p.above → g ∈ n.preorder ∧ id ∈ g.ids
  | .filter f, found, above => by
    rw [Node.path?] at found
    split at found <;> cases found
    cases above
  | .group h cs, found, above => by
    have known : id ∈ (Node.group h cs).ids := by
      by_contra unknown
      rw [← Node.path?_eq_none_iff, found] at unknown
      cases unknown
    rw [Node.path?] at found
    split at found
    · cases found
      cases above
    · obtain ⟨q, below, rfl⟩ := Option.map_eq_some_iff.mp found
      rcases List.mem_cons.mp above with rfl | inside
      · exact ⟨Node.mem_preorder_self _, known⟩
      · obtain ⟨visited, holds⟩ := Forest.mem_ids_of_above cs below inside
        exact ⟨List.mem_cons_of_mem _ visited, holds⟩

theorem Forest.mem_ids_of_above {id : String} {p : Path} {g : Node} : (cs : Forest) →
    Forest.path? id cs = some p → g ∈ p.above → g ∈ Forest.preorder cs ∧ id ∈ g.ids
  | [], found, _ => by cases found
  | c :: cs, found, above => by
    rw [Forest.path?] at found
    split at found
    · rename_i first
      cases found
      obtain ⟨visited, holds⟩ := Node.mem_ids_of_above c first above
      exact ⟨List.mem_append_left _ visited, holds⟩
    · obtain ⟨visited, holds⟩ := Forest.mem_ids_of_above cs found above
      exact ⟨List.mem_append_right _ visited, holds⟩

end

namespace Rule

variable {r r' : Rule} {id x source dest : String} {p : Place}

def subtreeIds (r : Rule) (id : String) : List String := ((r.node? id).map Node.ids).getD []

theorem subtreeIds_of_node? {n : Node} (found : r.node? id = some n) : r.subtreeIds id = n.ids := by
  rw [subtreeIds, found]
  rfl

theorem subtreeIds_of_locate? (found : r.locate? id = some (.inside p)) :
    r.subtreeIds id = p.node.ids :=
  subtreeIds_of_node? (node?_of_locate? found)

theorem Valid.mem_subtreeIds_of_encloses (valid : r.Valid) (above : r.Encloses id x) :
    x ∈ r.subtreeIds id := by
  obtain ⟨path, found, above⟩ := above
  obtain ⟨g, inPath, rfl⟩ := List.mem_map.mp above
  obtain ⟨visited, holds⟩ := Node.mem_ids_of_above _ found inPath
  rwa [subtreeIds_of_node? (valid.node?_eq_some_iff.mpr ⟨visited, rfl⟩)]

/-- A node stands among the ancestors of another, or is that other one, exactly where the other one
    stands in its subtree. -/
theorem Valid.mem_ancestors?_iff (valid : r.Valid) (found : r.locate? source = some (.inside p))
    (known : dest ∈ r.ids) :
    source ∈ (r.ancestors? dest).getD [] ↔ dest ∈ r.subtreeIds source := by
  obtain ⟨path, route⟩ := exists_path? known
  have target : path.target.id = dest := (valid.node?_eq_some_iff.mp (node?_of_path? route)).2
  have passed : source ∈ (r.ancestors? dest).getD [] ↔ r.Encloses source dest ∨ source = dest := by
    rw [path?] at route
    simp [ancestors?, Node.ancestors?, Encloses, path?, route, Path.ids, Path.nodes, target, or_comm,
      eq_comm]
  rw [passed]
  constructor
  · rintro (above | rfl)
    · exact valid.mem_subtreeIds_of_encloses above
    · rw [subtreeIds_of_locate? found]
      exact (around_of_locate?_inside found).2 ▸ p.node.id_mem_ids
  · intro inside
    rw [subtreeIds_of_locate? found] at inside
    by_cases same : dest = source
    · exact .inr same.symm
    · exact .inl (valid.encloses_of_mem found inside same).2

/-- The first reason against a move. -/
def moveRefusal? (r : Rule) (source dest : String) : Option Refusal :=
  if source ∉ r.ids then some (.unresolved source)
  else if dest ∉ r.ids then some (.unresolved dest)
  else if source = r.root.id then some .rootFixed
  else if r.kind? source = some .group ∧ dest ∈ r.subtreeIds source then some (.cycle source dest)
  else if r.kind? dest = some .filter then some (.wrongKind dest .group)
  else none

theorem Valid.exists_attach (valid : r.Valid) (found : r.locate? source = some (.inside p))
    (group : r.kind? dest = some .group) (outside : dest ∉ r.subtreeIds source)
    (index : Option Nat) : ∃ r', attach ⟨p.without⟩ dest p.node index = .ok r' := by
  have removed : r.remove source = .ok ⟨p.without⟩ := by rw [Rule.remove, found]
  have known := mem_ids_of_kind? group
  rw [subtreeIds_of_locate? found] at outside
  rw [(ids_without valid found).mem_iff, List.mem_append, or_iff_left outside] at known
  have still : kind? ⟨p.without⟩ dest = some .group :=
    (valid.kind?_remove removed known).trans group
  obtain ⟨h, cs, node⟩ := kind?_eq_group_iff.mp still
  obtain ⟨frames, focus⟩ := exists_focus?_group node
  exact ⟨_, by rw [attach, focus]⟩

theorem Valid.not_mem_subtreeIds (valid : r.Valid) (found : r.locate? source = some (.inside p))
    (group : r.kind? dest = some .group)
    (apart : ¬ (r.kind? source = some .group ∧ dest ∈ r.subtreeIds source)) :
    dest ∉ r.subtreeIds source := by
  intro inside
  refine apart ⟨?_, inside⟩
  by_cases same : dest = source
  · exact same ▸ group
  · rw [subtreeIds_of_locate? found] at inside
    exact (isGroup_iff_kind? (node?_of_locate? found)).mp (valid.encloses_of_mem found inside same).1

theorem Valid.move_eq (valid : r.Valid) (found : r.locate? source = some (.inside p))
    (known : dest ∈ r.ids) (index : Nat) :
    r.move source dest index =
      if r.kind? source = some .group ∧ dest ∈ r.subtreeIds source then .error (.cycle source dest)
      else if r.kind? dest = some .filter then .error (.wrongKind dest .group)
      else attach ⟨p.without⟩ dest p.node
        (some (if p.parent.id = dest ∧ p.index < index then index - 1 else index)) := by
  obtain ⟨target, aimed⟩ := exists_locate? known
  have cyclic : (p.node.isGroup && ((r.ancestors? dest).getD []).contains source) = true ↔
      r.kind? source = some .group ∧ dest ∈ r.subtreeIds source := by
    rw [Bool.and_eq_true, List.contains_iff_mem, valid.mem_ancestors?_iff found known,
      ← isGroup_iff_kind? (node?_of_locate? found)]
    rfl
  have flat : (!target.node.isGroup) = true ↔ r.kind? dest = some .filter := by
    rw [← kind?_ne_group_iff known, Ne, ← isGroup_iff_kind? (node?_of_locate? aimed),
      Bool.not_eq_true', Bool.not_eq_true]
  simp only [Rule.move, found, aimed, cyclic, flat]

theorem move_of_source_unknown (unknown : source ∉ r.ids) (index : Nat) :
    r.move source dest index = .error (.unresolved source) := by
  simp only [Rule.move, locate?_eq_none_iff.mpr unknown]

theorem move_of_dest_unknown (known : source ∈ r.ids) (unknown : dest ∉ r.ids) (index : Nat) :
    r.move source dest index = .error (.unresolved dest) := by
  obtain ⟨location, found⟩ := exists_locate? known
  simp only [Rule.move, found, locate?_eq_none_iff.mpr unknown]

theorem move_root (known : dest ∈ r.ids) (index : Nat) :
    r.move r.root.id dest index = .error .rootFixed := by
  have top : r.locate? r.root.id = some (.root r.node) := if_pos rfl
  obtain ⟨target, aimed⟩ := exists_locate? known
  simp only [Rule.move, top, aimed]

/-- A move is refused for the first reason that there is against it. Without one it is accepted: its
    source, once it has been taken out, may be put into the destination at any position. -/
theorem move_answers (valid : r.Valid) (source dest : String) (index : Nat) :
    (∀ why, r.moveRefusal? source dest = some why → r.move source dest index = .error why) ∧
      (r.moveRefusal? source dest = none → (∃ r', r.move source dest index = .ok r') ∧
        ∃ p, r.locate? source = some (.inside p) ∧
          ∀ i, ∃ r', attach ⟨p.without⟩ dest p.node (some i) = .ok r') := by
  unfold moveRefusal?
  by_cases sourceKnown : source ∈ r.ids
  swap
  · simp [sourceKnown, move_of_source_unknown sourceKnown]
  by_cases destKnown : dest ∈ r.ids
  swap
  · simp [sourceKnown, destKnown, move_of_dest_unknown sourceKnown destKnown]
  by_cases top : source = r.root.id
  · subst top
    simp [sourceKnown, destKnown, move_root destKnown]
  obtain ⟨p, found⟩ := exists_locate?_inside sourceKnown (Ne.symm top)
  rw [valid.move_eq found destKnown, if_neg (not_not.mpr sourceKnown),
    if_neg (not_not.mpr destKnown), if_neg top]
  by_cases cyclic : r.kind? source = some .group ∧ dest ∈ r.subtreeIds source
  · simp [cyclic]
  by_cases flat : r.kind? dest = some .filter
  · simp [cyclic, flat]
  have group : r.kind? dest = some .group := by
    by_contra other
    exact flat ((kind?_ne_group_iff destKnown).mp other)
  have attaches := valid.exists_attach found group (valid.not_mem_subtreeIds found group cyclic)
  rw [if_neg cyclic, if_neg flat, if_neg cyclic, if_neg flat]
  exact ⟨nofun, fun _ => ⟨attaches _, p, found, fun i => attaches _⟩⟩

theorem move_answers_twoLevels :
    twoLevels.move "x" "y" 0 = .error (.unresolved "x") ∧
      twoLevels.move "a" "y" 0 = .error (.unresolved "y") ∧
      twoLevels.move "root" "root" 0 = .error .rootFixed ∧
      twoLevels.move "g" "a" 0 = .error (.cycle "g" "a") ∧
      twoLevels.move "a" "a" 0 = .error (.wrongKind "a" .group) ∧
      ∃ r', twoLevels.move "a" "root" 7 = .ok r' := by
  have answers := move_answers valid_twoLevels
  exact ⟨(answers "x" "y" 0).1 _ (by decide +kernel), (answers "a" "y" 0).1 _ (by decide +kernel),
    (answers "root" "root" 0).1 _ (by decide +kernel), (answers "g" "a" 0).1 _ (by decide +kernel),
    (answers "a" "a" 0).1 _ (by decide +kernel),
    ((answers "a" "root" 7).2 (by decide +kernel)).1⟩

end Rule

end NestedRules
