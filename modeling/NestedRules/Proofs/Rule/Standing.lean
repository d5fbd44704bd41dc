import NestedRules.Proofs.Rule.Enclosure

namespace NestedRules.Rule

variable {r r' : Rule} {id : String} {mark : Node → Bool}

def Bears (r : Rule) (mark : Node → Bool) (id : String) : Prop :=
  ∃ n, r.node? id = some n ∧ mark n = true

def Under (r : Rule) (mark : Node → Bool) (id : String) : Prop :=
  ∃ p, r.path? id = some p ∧ ∃ g ∈ p.above, mark g = true

/-- The node or some group around it has the mark. -/
def Within (r : Rule) (mark : Node → Bool) (id : String) : Prop :=
  ∃ p, r.path? id = some p ∧ ∃ g ∈ p.nodes, mark g = true

instance : Decidable (r.Bears mark id) :=
  decidable_of_iff ((r.node? id).any mark = true) (by simp [Bears, Option.any_eq_true])

instance : Decidable (r.Under mark id) :=
  decidable_of_iff ((r.path? id).any (·.above.any mark) = true)
    (by simp [Under, Option.any_eq_true])

instance : Decidable (r.Within mark id) :=
  decidable_of_iff ((r.path? id).any (·.nodes.any mark) = true)
    (by simp [Within, Option.any_eq_true])

instance : Decidable (r.Barred id) := inferInstanceAs (Decidable (r.Under Node.isShut id))

instance : Decidable (r.Shut id) := inferInstanceAs (Decidable (r.Within Node.isShut id))

section

variable {p : Path} (found : r.path? id = some p)

include found

theorem bears_iff : r.Bears mark id ↔ mark p.target = true := by
  simp [Bears, node?_of_path? found]

theorem under_iff : r.Under mark id ↔ ∃ g ∈ p.above, mark g = true := by
  simp [Under, found]

theorem within_iff_bears_or_under : r.Within mark id ↔ r.Bears mark id ∨ r.Under mark id := by
  rw [bears_iff found, under_iff found]
  simp [Within, found, Path.nodes, or_and_right, exists_or, or_comm]

theorem bears_isLocked_iff : r.Bears Node.isLocked id ↔ (Protection.ofPath p).locked = true :=
  bears_iff found

theorem bears_isDisabled_iff :
    r.Bears Node.isDisabled id ↔ (Protection.ofPath p).disabled = true :=
  bears_iff found

theorem under_isLocked_iff :
    r.Under Node.isLocked id ↔ (Protection.ofPath p).ancestorLocked = true := by
  simp [under_iff found, Protection.ofPath]

theorem under_isDisabled_iff :
    r.Under Node.isDisabled id ↔ (Protection.ofPath p).ancestorDisabled = true := by
  simp [under_iff found, Protection.ofPath]

theorem within_isLocked_iff :
    r.Within Node.isLocked id ↔ (Protection.ofPath p).effectivelyLocked = true := by
  rw [within_iff_bears_or_under found, bears_isLocked_iff found, under_isLocked_iff found,
    Protection.effectivelyLocked, Bool.or_eq_true]

theorem within_isDisabled_iff :
    r.Within Node.isDisabled id ↔ (Protection.ofPath p).effectivelyDisabled = true := by
  rw [within_iff_bears_or_under found, bears_isDisabled_iff found, under_isDisabled_iff found,
    Protection.effectivelyDisabled, Bool.or_eq_true]

end

theorem Within.bears_or_under (within : r.Within mark id) : r.Bears mark id ∨ r.Under mark id := by
  have ⟨path, found, _⟩ := within
  exact (within_iff_bears_or_under found).mp within

theorem within_iff_route (bare : ∀ n, mark n.bare = mark n) :
    r.Within mark id ↔ ∃ p, r.route? id = some p ∧ ∃ g ∈ p.nodes, mark g = true := by
  simp [Within, route?, Node.route?, path?, Path.bare, Path.nodes, or_and_right, exists_or, bare]

theorem under_iff_route (bare : ∀ n, mark n.bare = mark n) :
    r.Under mark id ↔ ∃ p, r.route? id = some p ∧ ∃ g ∈ p.above, mark g = true := by
  simp [Under, route?, Node.route?, path?, Path.bare, bare]

theorem Valid.within_iff_around {frames : List Frame} {n : Node} (valid : r.Valid)
    (rebuilt : Frame.around frames n = r.node) (bare : ∀ n, mark n.bare = mark n) :
    r.Within mark n.id ↔ mark n = true ∨ ∃ fr ∈ frames, mark fr.bare = true := by
  rw [within_iff_route bare, valid.route?_of_around rebuilt]
  simp [Path.nodes, bare, or_and_right, exists_or, or_comm]

theorem Valid.under_iff_within_parent {p : Place} (valid : r.Valid)
    (bare : ∀ n, mark n.bare = mark n) (found : r.locate? id = some (.inside p)) :
    r.Under mark id ↔ r.Within mark p.parent.id := by
  have same : p.node.id = id := (around_of_locate?_inside found).2
  have route := valid.route?_below found p.node.route?_self
  rw [same] at route
  simp [under_iff_route bare, within_iff_route bare, route, valid.route?_parent found, Path.nodes,
    Place.frames, Path.root]

/-- A node is barred exactly where the group that it is a member of is shut. -/
theorem Valid.barred_iff_shut_parent {p : Place} (valid : r.Valid)
    (found : r.locate? id = some (.inside p)) : r.Barred id ↔ r.Shut p.parent.id :=
  valid.under_iff_within_parent Node.isShut_bare found

theorem Valid.node?_of_around {frames : List Frame} {n : Node} (valid : r.Valid)
    (rebuilt : Frame.around frames n = r.node) : r.node? n.id = some n := by
  have visited : ∀ frames, n ∈ (Frame.around frames n).preorder := by
    intro frames
    induction frames with
    | nil => exact n.mem_preorder_self
    | cons fr inner ih =>
      rw [Frame.around, Group.toNode, Node.preorder, List.mem_cons]
      exact .inr (Forest.mem_preorder_iff.mpr ⟨_, by simp [Frame.fill], ih⟩)
  exact valid.node?_eq_some_iff.mpr ⟨rebuilt ▸ visited frames, rfl⟩

section

variable {old new : Node} (swap : Swap r r' old new)

include swap

theorem Swap.node?_old (valid : r.Valid) : r.node? old.id = some old := by
  obtain ⟨frames, outgoing, -, -⟩ := swap
  exact valid.node?_of_around outgoing

theorem Swap.node?_new (valid' : r'.Valid) : r'.node? old.id = some new := by
  obtain ⟨frames, -, incoming, same⟩ := swap
  rw [← same]
  exact valid'.node?_of_around incoming

theorem Swap.bears_iff (valid : r.Valid) : r.Bears mark old.id ↔ mark old = true := by
  simp [Bears, swap.node?_old valid]

theorem Swap.bears_new_iff (valid' : r'.Valid) : r'.Bears mark old.id ↔ mark new = true := by
  simp [Bears, swap.node?_new valid']

end

end NestedRules.Rule
