import NestedRules.Proofs.Node.Route
import NestedRules.Proofs.Rule.Invariant
import NestedRules.Session.Protection

namespace NestedRules

def Node.isShut (n : Node) : Bool := n.isLocked || n.isDisabled

@[simp] theorem Node.isShut_bare (n : Node) : n.bare.isShut = n.isShut := by simp [isShut]

namespace Protection

theorem parentBlocked_ofPath (p : Path) :
    (ofPath p).parentBlocked = true ↔ ∃ g ∈ p.above, g.isShut = true := by
  simp only [parentBlocked, ofPath, Bool.or_eq_true, List.any_eq_true, Node.isShut]
  grind

theorem controlsBlocked_ofPath (p : Path) :
    (ofPath p).controlsBlocked = true ↔ ∃ g ∈ p.nodes, g.isShut = true := by
  simp only [controlsBlocked, effectivelyLocked, effectivelyDisabled, ofPath, Bool.or_eq_true,
    List.any_eq_true, Node.isShut, Path.nodes, List.mem_append, List.mem_singleton]
  grind

end Protection

namespace Rule

variable {r r' : Rule} {id x : String}

def route? (r : Rule) (id : String) : Option Path := r.node.route? id

/-- Some group around the node is locked or disabled. -/
def Barred (r : Rule) (id : String) : Prop :=
  ∃ p, r.path? id = some p ∧ ∃ g ∈ p.above, g.isShut = true

/-- The node or some group around it is locked or disabled. -/
def Shut (r : Rule) (id : String) : Prop :=
  ∃ p, r.path? id = some p ∧ ∃ g ∈ p.nodes, g.isShut = true

def Encloses (r : Rule) (group id : String) : Prop :=
  ∃ p, r.path? id = some p ∧ group ∈ p.above.map Node.id

theorem barred_iff_route :
    r.Barred id ↔ ∃ p, r.route? id = some p ∧ ∃ g ∈ p.above, g.isShut = true := by
  simp [Barred, route?, Node.route?, path?, Path.bare]

theorem shut_iff_route :
    r.Shut id ↔ ∃ p, r.route? id = some p ∧ ∃ g ∈ p.nodes, g.isShut = true := by
  simp [Shut, route?, Node.route?, path?, Path.bare, Path.nodes, or_and_right, exists_or]

theorem barred_iff_parentBlocked {p : Path} (found : r.path? id = some p) :
    r.Barred id ↔ (Protection.ofPath p).parentBlocked = true := by
  simp [Barred, found, Protection.parentBlocked_ofPath]

theorem shut_iff_controlsBlocked {p : Path} (found : r.path? id = some p) :
    r.Shut id ↔ (Protection.ofPath p).controlsBlocked = true := by
  simp [Shut, found, Protection.controlsBlocked_ofPath]

theorem Barred.shut (barred : r.Barred id) : r.Shut id := by
  obtain ⟨p, found, g, above, shut⟩ := barred
  exact ⟨p, found, g, List.mem_append_left _ above, shut⟩

theorem encloses_iff_route {group : String} :
    r.Encloses group id ↔ ∃ p, r.route? id = some p ∧ group ∈ p.above.map Node.id := by
  simp [Encloses, route?, Node.route?, path?, Path.bare]

theorem exists_path? (known : id ∈ r.ids) : ∃ p, r.path? id = some p :=
  Option.ne_none_iff_exists'.mp (mt Node.path?_eq_none_iff.mp (not_not.mpr known))

theorem node?_of_path? {p : Path} (found : r.path? id = some p) : r.node? id = some p.target := by
  have target := Node.path?_eq_find? id r.node
  rw [← node?_eq_find?] at target
  rw [← target, ← path?, found, Option.map_some]

theorem Valid.route?_below {p : Place} {route : Path} (valid : r.Valid)
    (found : r.locate? id = some (.inside p)) (inside : p.node.route? x = some route) :
    r.route? x = some ⟨p.frames.map Frame.bare ++ route.above, route.target⟩ := by
  have rebuilt := (around_of_locate?_inside found).1
  rw [Valid, ids, ← rebuilt] at valid
  rw [route?, ← rebuilt]
  exact Frame.route?_around valid inside

theorem Valid.route?_of_around {frames : List Frame} {n : Node} (valid : r.Valid)
    (rebuilt : Frame.around frames n = r.node) :
    r.route? n.id = some ⟨frames.map Frame.bare, n.bare⟩ := by
  rw [Valid, ids, ← rebuilt] at valid
  rw [route?, ← rebuilt, Frame.route?_around valid n.route?_self]
  simp [Path.root]

theorem Valid.route?_parent {p : Place} (valid : r.Valid)
    (found : r.locate? id = some (.inside p)) :
    r.route? p.parent.id = some ⟨p.outer.map Frame.bare, p.frame.bare⟩ := by
  have rebuilt := (around_of_locate?_inside found).1
  rw [Place.frames, Frame.around_append] at rebuilt
  exact valid.route?_of_around (n := p.parent) rebuilt

theorem Valid.encloses_of_mem {p : Place} (valid : r.Valid)
    (found : r.locate? id = some (.inside p)) (inside : x ∈ p.node.ids) (other : x ≠ id) :
    p.node.isGroup = true ∧ r.Encloses id x := by
  have same : p.node.id = id := (around_of_locate?_inside found).2
  obtain ⟨route, below⟩ := Node.exists_route? inside
  have whole := valid.route?_below found below
  cases kind : p.node with
  | filter f =>
    rw [kind] at below same
    rw [Node.route?_filter, if_neg fun hit => other (hit.symm.trans same)] at below
    cases below
  | group h cs =>
    rw [kind] at below same
    rw [Node.route?_group, if_neg fun hit => other (hit.symm.trans same),
      Option.map_eq_some_iff] at below
    obtain ⟨inner, -, rfl⟩ := below
    refine ⟨rfl, encloses_iff_route.mpr ⟨_, whole, ?_⟩⟩
    have top : Node.group h [] ∈ p.frames.map Frame.bare ++ (inner.under (.group h [])).above :=
      List.mem_append_right _ List.mem_cons_self
    exact List.mem_map.mpr ⟨_, top, same⟩

theorem Swap.route?_congr {old new : Node} (swap : Swap r r' old new)
    (same : old.route? id = new.route? id) : r.route? id = r'.route? id := by
  obtain ⟨frames, outgoing, incoming, -⟩ := swap
  rw [route?, route?, ← outgoing, ← incoming]
  exact Frame.route?_around_congr same

theorem Swap.route?_inside {old new : Node} (swap : Swap r r' old new) (valid : r.Valid)
    (valid' : r'.Valid) : ∃ outer : List Node,
      (∀ id p, old.route? id = some p → r.route? id = some ⟨outer ++ p.above, p.target⟩) ∧
      ∀ id p, new.route? id = some p → r'.route? id = some ⟨outer ++ p.above, p.target⟩ := by
  obtain ⟨frames, outgoing, incoming, -⟩ := swap
  rw [Valid, Rule.ids, ← outgoing] at valid
  rw [Valid, Rule.ids, ← incoming] at valid'
  refine ⟨frames.map Frame.bare, fun id p inside => ?_, fun id p inside => ?_⟩
  · rw [route?, ← outgoing, Frame.route?_around valid inside]
  · rw [route?, ← incoming, Frame.route?_around valid' inside]

theorem Swap.barred_congr {old new : Node} (swap : Swap r r' old new)
    (same : old.route? x = new.route? x) (barred : r'.Barred x) : r.Barred x := by
  rw [barred_iff_route] at barred ⊢
  rwa [swap.route?_congr same]

theorem Swap.barred_of_above {old new : Node} {p : Path} (swap : Swap r r' old new) (valid : r.Valid)
    (valid' : r'.Valid) (before : old.route? x = some p) {g : Node} (inside : g ∈ p.above)
    (shut : g.isShut = true) : r.Barred x := by
  obtain ⟨outer, inOld, -⟩ := swap.route?_inside valid valid'
  rw [barred_iff_route]
  exact ⟨_, inOld x p before, g, List.mem_append_right _ inside, shut⟩

theorem Swap.barred_cases {old new : Node} {p q : Path} (swap : Swap r r' old new) (valid : r.Valid)
    (valid' : r'.Valid) (before : old.route? x = some p) (after : new.route? x = some q)
    (barred : r'.Barred x) : r.Barred x ∨ ∃ g ∈ q.above, g.isShut = true := by
  obtain ⟨outer, inOld, inNew⟩ := swap.route?_inside valid valid'
  rw [barred_iff_route] at barred ⊢
  obtain ⟨route, found, g, above, shut⟩ := barred
  rw [inNew x q after] at found
  cases found
  rcases List.mem_append.mp above with outside | inside
  · exact .inl ⟨_, inOld x p before, g, List.mem_append_left _ outside, shut⟩
  · exact .inr ⟨g, inside, shut⟩

theorem Swap.encloses_of_above {old new : Node} {p : Path} (swap : Swap r r' old new)
    (valid : r.Valid) (valid' : r'.Valid) (before : old.route? x = some p) {g : Node}
    (inside : g ∈ p.above) : r.Encloses g.id x := by
  obtain ⟨outer, inOld, -⟩ := swap.route?_inside valid valid'
  rw [encloses_iff_route]
  exact ⟨_, inOld x p before, List.mem_map_of_mem (List.mem_append_right _ inside)⟩

/-- A group whose header changes bars only what it encloses, and only where that shuts the group. -/
theorem Swap.barred_header {h k : Header} {cs : Forest}
    (swap : Swap r r' (.group h cs) (.group k cs)) (valid : r.Valid) (valid' : r'.Valid)
    (barred : r'.Barred x) :
    r.Barred x ∨ (r.Encloses h.id x ∧ (Node.group h cs).isShut = false ∧
      (Node.group k cs).isShut = true) := by
  have same : k.id = h.id := swap.choose_spec.2.2
  have before := Node.route?_group x h cs
  have after := Node.route?_group x k cs
  rw [same] at after
  by_cases hit : h.id = x
  · rw [if_pos hit] at before after
    refine .inl ((swap.barred_cases valid valid' before after barred).resolve_right ?_)
    simp [Path.root]
  · rw [if_neg hit] at before after
    cases inner : Forest.route? x cs with
    | none =>
      rw [inner, Option.map_none] at before after
      exact .inl (swap.barred_congr (before.trans after.symm) barred)
    | some p =>
      rw [inner, Option.map_some] at before after
      rcases swap.barred_cases valid valid' before after barred with kept | ⟨g, above, shut⟩
      · exact .inl kept
      · rcases List.mem_cons.mp above with rfl | inside
        · cases was : (Node.group h []).isShut with
          | true => exact .inl (swap.barred_of_above valid valid' before List.mem_cons_self was)
          | false =>
            have encloses := swap.encloses_of_above valid valid' before List.mem_cons_self
            exact .inr ⟨encloses, was, shut⟩
        · have kept : g ∈ (p.under (.group h [])).above := List.mem_cons_of_mem _ inside
          exact .inl (swap.barred_of_above valid valid' before kept shut)

theorem Valid.barred_updateGroup {f : Group → Group} (valid : r.Valid)
    (accepted : r.updateGroup id f = .ok r') (keeps : ∀ g, (f g).children = g.children)
    (barred : r'.Barred x) :
    r.Barred x ∨ (r.Encloses id x ∧
      ∃ g : Group, g.toNode.isShut = false ∧ (f g).toNode.isShut = true) := by
  obtain ⟨old, swap, same, -⟩ := swap_of_updateGroup accepted
  simp only [Group.toNode, keeps] at swap
  rcases swap.barred_header valid (valid.updateGroup accepted).1 barred with kept | ⟨above, was, is⟩
  · exact .inl kept
  · exact .inr ⟨same ▸ above, old, was, is⟩

theorem Valid.barred_updateGroup_of_isShut {f : Group → Group} (valid : r.Valid)
    (accepted : r.updateGroup id f = .ok r') (keeps : ∀ g, (f g).children = g.children)
    (same : ∀ g, (f g).toNode.isShut = g.toNode.isShut) (barred : r'.Barred x) : r.Barred x := by
  rcases valid.barred_updateGroup accepted keeps barred with kept | ⟨-, g, was, is⟩
  · exact kept
  · rw [same, was] at is
    cases is

theorem Valid.barred_updateFilter {f : Filter → Filter} (valid : r.Valid)
    (accepted : r.updateFilter id f = .ok r') (barred : r'.Barred x) : r.Barred x := by
  obtain ⟨old, swap, same, -⟩ := swap_of_updateFilter accepted
  have before := Node.route?_filter x old
  have after := Node.route?_filter x { f old with id }
  rw [same] at before
  by_cases hit : id = x
  · rw [if_pos hit] at before after
    have valid' := (valid.updateFilter accepted).1
    exact (swap.barred_cases valid valid' before after barred).resolve_right (by simp [Path.root])
  · rw [if_neg hit] at before after
    exact swap.barred_congr (before.trans after.symm) barred

theorem Valid.barred_insert {parent : String} {n : Node} {index : Option Nat} (valid : r.Valid)
    (accepted : r.insert parent n index = .ok r') (leaf : n.children = []) (barred : r'.Barred x) :
    r.Barred x ∨ r.Shut parent := by
  have ⟨free, attached⟩ := insert_cases accepted
  obtain ⟨g, rfl, swap⟩ := swap_of_attach attached
  have oldRoute := Node.route?_group x g.toHeader g.children
  have newRoute := Node.route?_group x g.toHeader
    (g.children.take (index.getD g.children.length) ++
      n :: g.children.drop (index.getD g.children.length))
  rw [Forest.route?_append, Forest.route?_cons] at newRoute
  by_cases new : n.id = x
  · -- The new leaf hangs right below its parent, and no member of the parent has its id.
    have unknown : g.toNode.route? x = none := by
      rw [Node.route?_eq_none_iff]
      intro known
      obtain ⟨front, back, split, -⟩ := swap.ids
      exact (firstRepeat?_eq_none_iff.mp free).2 x (new ▸ n.id_mem_ids) (by simp [split, known])
    obtain ⟨outer, before, after⟩ := swap.route?_inside valid (valid.insert accepted).1
    rw [Group.toNode, oldRoute] at unknown
    split at unknown
    · cases unknown
    · rename_i below
      rw [Option.map_eq_none_iff, ← List.take_append_drop (index.getD g.children.length) g.children,
        Forest.route?_append, Option.or_eq_none_iff] at unknown
      rw [if_neg below, unknown.1, Option.none_or, ← new, n.route?_self] at newRoute
      obtain ⟨p, route, top, above, shut⟩ := barred_iff_route.mp barred
      rw [← new, after _ _ newRoute] at route
      cases route
      refine .inr (shut_iff_route.mpr ⟨_, before g.id _ g.toNode.route?_self, top, ?_, shut⟩)
      simpa [Path.nodes, Path.under, Path.root, Group.toNode, Node.bare] using above
  · have absent : n.route? x = none := by
      rw [Node.route?_eq_none_iff, Node.ids_eq, leaf]
      simpa using Ne.symm new
    rw [absent, Option.none_or, ← Forest.route?_append, List.take_append_drop] at newRoute
    exact .inl (swap.barred_congr (oldRoute.trans newRoute.symm) barred)

theorem Valid.barred_remove (valid : r.Valid) (accepted : r.remove id = .ok r')
    (barred : r'.Barred x) : r.Barred x := by
  obtain ⟨p, found, rfl⟩ := remove_cases accepted
  obtain ⟨q, route, -⟩ := barred_iff_route.mp barred
  have known : x ∈ (⟨p.without⟩ : Rule).ids := Node.mem_ids_of_route? route
  have outside : p.node.route? x = none := by
    rw [Node.route?_eq_none_iff]
    exact fun inside => (List.nodup_append.mp (valid.without found)).2.2 x known x inside rfl
  have same : p.parent.toNode.route? x = p.frame.close.toNode.route? x := by
    rw [Place.parent, Frame.route?_fill, outside, Frame.close, Group.toNode, Node.route?_group,
      Forest.route?_append]
    rfl
  exact (swap_without found).barred_congr same barred

end Rule

end NestedRules
