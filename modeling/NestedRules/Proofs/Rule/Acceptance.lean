import NestedRules.Proofs.Node.Route
import NestedRules.Proofs.Rule.Invariant

namespace NestedRules.Rule

variable {r : Rule} {id : String}

theorem focus?_of_locate?_inside {p : Place} (found : r.locate? id = some (.inside p)) :
    r.focus? id = some p.focus := by
  obtain ⟨below, notTop⟩ := place?_of_locate?_inside found
  rw [focus?, if_neg notTop, below, Option.map_some]

theorem exists_focus?_group {h : Header} {cs : Forest} (found : r.node? id = some (.group h cs)) :
    ∃ frames, r.focus? id = some (.group frames ⟨h, cs⟩) := by
  obtain ⟨location, located, same⟩ := Option.map_eq_some_iff.mp found
  cases location with
  | root n =>
    obtain ⟨rfl, top⟩ := node_of_locate?_root located
    have root : r.root = ⟨h, cs⟩ := by
      have node : r.root.toNode = .group h cs := same
      rw [Group.toNode, Node.group.injEq] at node
      rw [← node.1, ← node.2]
    exact ⟨[], by rw [focus?, if_pos top, root]⟩
  | inside p =>
    have kind : p.node = .group h cs := same
    exact ⟨p.outer ++ [p.frame], by rw [focus?_of_locate?_inside located, Place.focus, kind]⟩

theorem exists_focus?_filter {f : Filter} (found : r.node? id = some (.filter f)) :
    ∃ p, r.locate? id = some (.inside p) ∧ p.node = .filter f ∧
      r.focus? id = some (.filter p f) := by
  obtain ⟨location, located, same⟩ := Option.map_eq_some_iff.mp found
  cases location with
  | root n =>
    obtain ⟨rfl, -⟩ := node_of_locate?_root located
    cases same
  | inside p =>
    have kind : p.node = .filter f := same
    exact ⟨p, located, kind, by rw [focus?_of_locate?_inside located, Place.focus, kind]⟩

theorem Valid.nodup_of_around {frames : List Frame} {n : Node} (valid : r.Valid)
    (rebuilt : Frame.around frames n = r.node) : n.ids.Nodup := by
  rw [Valid, ids, ← rebuilt] at valid
  exact Frame.nodup_of_around valid

theorem Valid.clash?_eq_none {frames : List Frame} {old new : Node} (valid : r.Valid)
    (rebuilt : Frame.around frames old = r.node) (same : new.ids = old.ids) :
    r.clash? old new = none := by
  rw [clash?_eq_none_iff, same]
  exact ⟨valid.nodup_of_around rebuilt, fun _ inside _ => inside⟩

theorem updateGroup_of_filter {f : Filter} (found : r.node? id = some (.filter f))
    (g : Group → Group) : r.updateGroup id g = .error (.wrongKind id .group) := by
  obtain ⟨p, -, -, focus⟩ := exists_focus?_filter found
  rw [updateGroup, focus]

theorem Valid.updateGroup_of_group {h : Header} {cs : Forest} (valid : r.Valid)
    (found : r.node? id = some (.group h cs)) {f : Group → Group}
    (keeps : ∀ g, (f g).children = g.children) :
    ∃ frames, Frame.around frames (.group h cs) = r.node ∧
      r.updateGroup id f = .ok ⟨Frame.wrap frames { f ⟨h, cs⟩ with id }⟩ := by
  obtain ⟨frames, focus⟩ := exists_focus?_group found
  obtain ⟨rebuilt, top⟩ := around_of_focus?_group focus
  have same : ({ f ⟨h, cs⟩ with id := id } : Group).toNode.ids = (Node.group h cs).ids := by
    simpa [Group.toNode, Node.ids_eq, Node.id, Node.children, keeps] using top.symm
  refine ⟨frames, rebuilt, ?_⟩
  rw [Rule.updateGroup, focus]
  dsimp only
  rw [valid.clash?_eq_none rebuilt same]

theorem Valid.updateFilter_of_filter {f : Filter} (valid : r.Valid)
    (found : r.node? id = some (.filter f)) (g : Filter → Filter) :
    ∃ p, r.locate? id = some (.inside p) ∧ p.node = .filter f ∧
      r.updateFilter id g = .ok ⟨p.put (.filter { g f with id })⟩ := by
  obtain ⟨p, located, kind, focus⟩ := exists_focus?_filter found
  obtain ⟨rebuilt, top⟩ := around_of_focus?_filter focus
  have same : (Node.filter { g f with id := id }).ids = (Node.filter f).ids := by
    simp [Node.ids_eq, Node.id, Node.children, top]
  refine ⟨p, located, kind, ?_⟩
  rw [Rule.updateFilter, focus]
  dsimp only
  rw [valid.clash?_eq_none rebuilt same]

theorem insert_of_group {h : Header} {cs : Forest} {n : Node} (found : r.node? id = some (.group h cs))
    (distinct : n.ids.Nodup) (fresh : ∀ x ∈ n.ids, x ∉ r.ids) (index : Option Nat) :
    ∃ r', r.insert id n index = .ok r' := by
  obtain ⟨frames, focus⟩ := exists_focus?_group found
  refine ⟨⟨Frame.wrap frames (Group.insert ⟨h, cs⟩ (index.getD cs.length) n)⟩, ?_⟩
  rw [Rule.insert, firstRepeat?_eq_none_iff.mpr ⟨distinct, fresh⟩, attach, focus]

theorem remove_of_ne_root (known : id ∈ r.ids) (below : r.root.id ≠ id) :
    ∃ r', r.remove id = .ok r' := by
  obtain ⟨p, located⟩ := exists_locate?_inside known below
  exact ⟨⟨p.without⟩, by rw [Rule.remove, located]⟩

end NestedRules.Rule
