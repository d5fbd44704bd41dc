import NestedRules.Proofs.Rule.Effect
import NestedRules.Proofs.Rule.Standing
import NestedRules.Proofs.Session.Intents

namespace NestedRules

/-- What a node carries itself, its lock, its switch and its fold left out. -/
def Node.wording : Node → Node
  | .group h _ => .group { h with isLocked := false, isDisabled := false, isCollapsed := false } []
  | .filter f => .filter { f with isDisabled := false }

theorem Node.wording_bare (n : Node) : n.bare.wording = n.wording := by cases n <;> rfl

namespace Rule

variable {r r' : Rule} {id x : String}

/-- In both rules the node has the same wording and the same members in the same order. -/
def Alike (r r' : Rule) (id : String) : Prop :=
  (r'.own? id).map Node.wording = (r.own? id).map Node.wording ∧ r'.members? id = r.members? id

theorem alike_of_row? (same : r'.row? x = r.row? x) : Alike r r' x := by
  simp [Alike, own?_eq, members?_eq, same]

theorem Alike.exists_group {h : Header} {cs : Forest} (alike : Alike r r' x)
    (found : r.node? x = some (.group h cs)) :
    ∃ k ds, r'.node? x = some (.group k ds) ∧ k.name = h.name ∧ k.logic = h.logic ∧
      ds.map Node.id = cs.map Node.id := by
  obtain ⟨wording, members⟩ := alike
  simp only [own?, members?, found, Option.map_some, Option.map_eq_some_iff,
    Option.map_map, Function.comp_apply, Node.wording_bare] at wording members
  obtain ⟨n, same, memberIds⟩ := members
  simp only [same, Option.some.injEq, exists_eq_left'] at wording
  cases n with
  | filter f => simp [Node.wording] at wording
  | group k ds =>
    simp only [Node.wording, Node.group.injEq, Header.mk.injEq] at wording
    exact ⟨k, ds, same, wording.1.2.1, wording.1.2.2.1, memberIds⟩

theorem Alike.exists_filter {f : Filter} (alike : Alike r r' x)
    (found : r.node? x = some (.filter f)) :
    ∃ f' : Filter, r'.node? x = some (.filter f') ∧ f'.id = f.id ∧ f'.field = f.field ∧
      f'.operator = f.operator ∧ f'.value = f.value := by
  obtain ⟨wording, members⟩ := alike
  simp only [own?, members?, found, Option.map_some, Option.map_eq_some_iff,
    Option.map_map, Function.comp_apply, Node.wording_bare] at wording members
  obtain ⟨n, same, -⟩ := members
  simp only [same, Option.some.injEq, exists_eq_left'] at wording
  cases n with
  | group k ds => simp [Node.wording] at wording
  | filter f' =>
    simp only [Node.wording, Node.filter.injEq, Filter.mk.injEq] at wording
    exact ⟨f', same, wording.1, wording.2.1, wording.2.2.1, wording.2.2.2.1⟩

theorem Valid.kept_updateGroup {f : Group → Group} (valid : r.Valid) (known : x ∈ r.ids)
    (accepted : r.updateGroup id f = .ok r') (keeps : ∀ g, (f g).children = g.children)
    (worded : x = id → ∀ g, (f g).toNode.wording = g.toNode.wording) :
    x ∈ r'.ids ∧ Alike r r' x := by
  refine ⟨ids_updateGroup accepted keeps ▸ known, ?_⟩
  by_cases hit : x = id
  · obtain ⟨old, same, before, after⟩ := valid.row?_updateGroup accepted
    have said := worded hit old
    simp only [Group.toNode, Node.wording, Node.group.injEq, Header.mk.injEq] at said
    simp [Alike, own?_eq, members?_eq, hit, before, after, Group.row, Node.wording, keeps old, same,
      said]
  · exact alike_of_row? (valid.row?_updateGroup_of_ne accepted keeps hit)

theorem Valid.kept_updateFilter {f : Filter → Filter} (valid : r.Valid) (known : x ∈ r.ids)
    (accepted : r.updateFilter id f = .ok r')
    (worded : x = id → ∀ g, (Node.filter (f g)).wording = (Node.filter g).wording) :
    x ∈ r'.ids ∧ Alike r r' x := by
  refine ⟨ids_updateFilter accepted ▸ known, ?_⟩
  by_cases hit : x = id
  · obtain ⟨old, same, before, after⟩ := valid.row?_updateFilter accepted
    have said := worded hit old
    simp only [Node.wording, Node.filter.injEq, Filter.mk.injEq] at said
    simp [Alike, own?_eq, members?_eq, hit, before, after, Node.wording, same, said]
  · exact alike_of_row? (valid.row?_updateFilter_of_ne accepted hit)

theorem Valid.kept_insert {parent : String} {n : Node} {index : Option Nat} (valid : r.Valid)
    (known : x ∈ r.ids) (accepted : r.insert parent n index = .ok r') (other : x ≠ parent) :
    x ∈ r'.ids ∧ Alike r r' x := by
  refine ⟨(valid.mem_ids_insert accepted).mpr (.inl known), alike_of_row? ?_⟩
  rw [valid.row?_insert accepted known]
  cases stored : r.row? x with
  | none => rfl
  | some row =>
    have same : row.id = x := (valid.row?_eq_some_iff.mp stored).2
    rw [Option.map_some, Row.gain_of_ne (same ▸ other)]

theorem Valid.alike_remove (valid : r.Valid) (accepted : r.remove id = .ok r')
    (free : ¬ r.Barred id) (shut : r.Shut x) (still : x ∈ r'.ids) : Alike r r' x := by
  apply alike_of_row?
  rw [valid.row?_remove accepted still]
  cases stored : r.row? x with
  | none => rfl
  | some row =>
    obtain ⟨known, same⟩ := valid.row?_eq_some_iff.mp stored
    have absent : id ∉ row.members := by
      intro member
      obtain ⟨p, found, parent⟩ := valid.exists_place_of_member known member
      rw [valid.barred_iff_shut_parent found, parent, same] at free
      exact free shut
    rw [Option.map_some, Row.without_of_not_mem absent]

theorem Valid.barred_of_child {g : String} {h : Header} {cs : Forest} {c : Node} (valid : r.Valid)
    (found : r.node? g = some (.group h cs)) (member : c ∈ cs) (shut : r.Shut g) : r.Barred c.id := by
  have stored : r.row? g = some (Node.group h cs).row := by rw [row?, found, Option.map_some]
  obtain ⟨known, same⟩ := valid.row?_eq_some_iff.mp stored
  obtain ⟨p, located, parent⟩ := valid.exists_place_of_member known (List.mem_map_of_mem member)
  rw [valid.barred_iff_shut_parent located, parent, same]
  exact shut

/-- The node is a shut group, or some group around it is shut. -/
def Guarded (r : Rule) (id : String) : Prop :=
  r.Barred id ∨ r.Shut id ∧ ∃ h cs, r.node? id = some (.group h cs)

theorem Guarded.shut (guarded : r.Guarded id) : r.Shut id := by
  rcases guarded with barred | ⟨shut, -⟩
  · exact barred.shut
  · exact shut

theorem Shut.mem_ids (shut : r.Shut id) : id ∈ r.ids := by
  obtain ⟨p, found, -⟩ := shut_iff_route.mp shut
  exact Node.mem_ids_of_route? found

end Rule

namespace Session

variable {s s' : Session} {x : String}

theorem Step.guarded_cases {intent : Intent} (step : Step s intent s') (valid : s.rule.Valid)
    (notDrop : ∀ candidates, intent ≠ .drop candidates) (guarded : s.rule.Guarded x) :
    x ∈ s'.rule.ids ∧ Rule.Alike s.rule s'.rule x ∨
      x ∉ s'.rule.ids ∧ ∃ id, intent = .delete id ∧ s.rule.Encloses id x ∧ ¬ s.rule.Shut id := by
  have shut := guarded.shut
  have known := shut.mem_ids
  have ne_of_free : ∀ {id}, ¬ s.rule.Shut id → x ≠ id := by
    rintro id free rfl
    exact free shut
  cases step with
  | rename free edited | setLogic free edited =>
    exact .inl (valid.kept_updateGroup known edited (fun _ => rfl) fun hit =>
      absurd hit (ne_of_free free))
  | toggleCollapsed found free edited | toggleLocked found free edited
  | toggleGroup found free edited =>
    exact .inl (valid.kept_updateGroup known edited (fun _ => rfl) fun _ _ => rfl)
  | toggleFilter found free edited =>
    exact .inl (valid.kept_updateFilter known edited fun _ _ => rfl)
  | addFilter free edited | addGroup free edited =>
    exact .inl (valid.kept_insert known edited (ne_of_free free))
  | @delete id p rule found below free groupFree edited =>
    by_cases still : x ∈ rule.ids
    · exact .inl ⟨still, valid.alike_remove edited free shut still⟩
    · obtain ⟨place, located, rfl⟩ := Rule.remove_cases edited
      have inside : x ∈ place.node.ids :=
        (List.mem_append.mp ((Rule.ids_without valid located).mem_iff.mp known)).resolve_left still
      have target := Rule.node?_of_path? found
      have other : x ≠ id := by
        rintro rfl
        rcases guarded with barred | ⟨-, h, cs, node⟩
        · exact free barred
        · have isGroup : p.target = .group h cs := Option.some.inj (target.symm.trans node)
          exact groupFree (by rw [isGroup, Node.isGroup]) shut
      obtain ⟨isGroup, encloses⟩ := valid.encloses_of_mem located inside other
      have same : p.target = place.node := by
        simpa [Rule.node?, located, Location.node] using target.symm
      exact .inr ⟨still, id, rfl, encloses, groupFree (same ▸ isGroup)⟩
  | @saveFilter id _ _ _ rule free edited =>
    have other : x ≠ id := by
      rintro rfl
      rcases guarded with barred | ⟨-, h, cs, node⟩
      · exact free barred
      · obtain ⟨old, -, before, -⟩ := valid.row?_updateFilter edited
        simp [Rule.row?, node, Node.row, Node.bare] at before
    exact .inl (valid.kept_updateFilter known edited fun hit => absurd hit other)
  | startEdit | cancelEdit | startDrag | cancelDrag => exact .inl ⟨known, rfl, rfl⟩
  | drop | dropMoved => exact absurd rfl (notDrop _)

theorem perform_guarded_cases (intent : Intent) (valid : s.rule.Valid)
    (notDrop : ∀ candidates, intent ≠ .drop candidates) (guarded : s.rule.Guarded x) :
    x ∈ (s.perform intent).1.rule.ids ∧ Rule.Alike s.rule (s.perform intent).1.rule x ∨
      x ∉ (s.perform intent).1.rule.ids ∧
        ∃ id, intent = .delete id ∧ s.rule.Encloses id x ∧ ¬ s.rule.Shut id := by
  rcases s.perform_cases intent with same | step
  · rw [same]
    exact .inl ⟨guarded.shut.mem_ids, rfl, rfl⟩
  · exact step.guarded_cases valid notDrop guarded

/-- A group that is shut before an intent other than a drop is there afterwards with its name, its
    logic, its members in order and the conditions of the filters among them, or the intent has
    deleted a group around it, one that is open as are the groups around that. -/
theorem perform_spares_shut (intent : Intent) {g : String} {h : Header} {cs : Forest}
    (valid : s.rule.Valid) (notDrop : ∀ candidates, intent ≠ .drop candidates)
    (found : s.rule.node? g = some (.group h cs)) (shut : s.rule.Shut g) :
    (g ∈ (s.perform intent).1.rule.ids →
      ∃ k ds, (s.perform intent).1.rule.node? g = some (.group k ds) ∧ k.name = h.name ∧
        k.logic = h.logic ∧ ds.map Node.id = cs.map Node.id ∧
        ∀ f : Filter, .filter f ∈ cs → ∃ f' : Filter, .filter f' ∈ ds ∧ f'.id = f.id ∧
          f'.field = f.field ∧ f'.operator = f.operator ∧ f'.value = f.value) ∧
      (g ∉ (s.perform intent).1.rule.ids →
        ∃ id, intent = .delete id ∧ s.rule.Encloses id g ∧ ¬ s.rule.Shut id) := by
  have guarded : s.rule.Guarded g := .inr ⟨shut, h, cs, found⟩
  rcases perform_guarded_cases intent valid notDrop guarded with ⟨still, alike⟩ | ⟨gone, deleted⟩
  · refine ⟨fun _ => ?_, fun gone => absurd still gone⟩
    obtain ⟨k, ds, found', name, logic, members⟩ := alike.exists_group found
    refine ⟨k, ds, found', name, logic, members, fun f member => ?_⟩
    have valid' := (valid_perform valid intent).1
    obtain ⟨d, isMember, same⟩ : ∃ d ∈ ds, d.id = f.id := by
      rw [← List.mem_map, members]
      exact List.mem_map_of_mem member
    have known := valid'.node?_of_child found' isMember
    have stays : f.id ∈ (s.perform intent).1.rule.ids := same ▸ Rule.mem_ids_of_node? known
    have barred : s.rule.Guarded f.id := .inl (valid.barred_of_child found member shut)
    rcases perform_guarded_cases intent valid notDrop barred with ⟨-, alike⟩ | ⟨gone, -⟩
    · obtain ⟨f', now, terms⟩ := alike.exists_filter (valid.node?_of_child found member)
      rw [← same, known, Option.some.injEq] at now
      exact ⟨f', now ▸ isMember, terms⟩
    · exact absurd stays gone
  · exact ⟨fun still => absurd still gone, fun _ => deleted⟩

def lockedInside : Rule :=
  ⟨⟨⟨"root", "Rule", .and, false, false, false⟩,
    [.group ⟨"outer", "Outer", .or, false, false, false⟩
      [.group ⟨"g", "Group", .or, true, false, false⟩ [.filter (.blank "a")]]]⟩⟩

theorem perform_spares_shut_inside :
    let s := ofRule lockedInside .default
    (∃ k ds, (s.perform (.toggleLocked "g")).1.rule.node? "g" = some (.group k ds) ∧
        k.name = "Group" ∧ ds.map Node.id = ["a"]) ∧
      ∃ id, Intent.delete "outer" = .delete id ∧ s.rule.Encloses id "g" ∧ ¬ s.rule.Shut id := by
  have valid : lockedInside.Valid := by
    rw [Rule.Valid, Rule.ids_eq_preorder]
    decide
  have shut : lockedInside.Shut "g" := ⟨_, rfl, _, List.mem_append_right _ List.mem_cons_self, rfl⟩
  constructor
  · obtain ⟨kept, -⟩ := perform_spares_shut (s := ofRule lockedInside .default)
      (.toggleLocked "g") valid (fun _ => Intent.noConfusion) rfl shut
    obtain ⟨k, ds, found, name, -, members, -⟩ := kept (by decide +kernel)
    exact ⟨k, ds, found, name, members⟩
  · obtain ⟨-, gone⟩ := perform_spares_shut (s := ofRule lockedInside .default)
      (.delete "outer") valid (fun _ => Intent.noConfusion) rfl shut
    exact gone (by decide +kernel)

end Session

end NestedRules
