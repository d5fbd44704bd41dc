import NestedRules.Proofs.Node.Relabel
import NestedRules.Proofs.Rule.MoveAnswers
import NestedRules.Proofs.Session.Refusals

namespace NestedRules

/-- What keeps a node as it is: the lock of a group, or the switch of any node. -/
inductive Mark
  | lock | switch

namespace Mark

def borne : Mark → Node → Bool
  | lock => Node.isLocked
  | switch => Node.isDisabled

def toggle : Mark → String → Intent
  | lock => .toggleLocked
  | switch => .toggleDisabled

def clear (ids : List String) : Mark → Relabel
  | lock =>
    { header := fun h => { h with isLocked := h.isLocked && h.id ∉ ids }
      filter := fun f => f
      id_header := fun _ => rfl
      id_filter := fun _ => rfl }
  | switch =>
    { header := fun h => { h with isDisabled := h.isDisabled && h.id ∉ ids }
      filter := fun f => { f with isDisabled := f.isDisabled && f.id ∉ ids }
      id_header := fun _ => rfl
      id_filter := fun _ => rfl }

variable {m : Mark} {ids : List String} {x : String}

theorem clear_leaves (outside : x ∉ ids) : (m.clear ids).Leaves x := by
  cases m <;> constructor <;> rintro _ rfl <;> simp [clear, outside]

theorem clear_nil (n : Node) : (m.clear []).node n = n :=
  Relabel.node_of_leaves fun _ _ => clear_leaves List.not_mem_nil

theorem clear_cons (m : Mark) (x : String) (ids : List String) :
    m.clear (x :: ids) = (m.clear ids).after (m.clear [x]) := by
  cases m <;> simp [clear, Relabel.after, Bool.and_assoc]

theorem own_clear_of_not_borne {n : Node} (free : m.borne n = false) : (m.clear ids).own n = n := by
  cases m with
  | lock =>
    cases n with
    | group h cs =>
      have same : (h.isLocked && h.id ∉ ids) = h.isLocked := by simp_all [borne, Node.isLocked]
      simp only [clear, Relabel.own, same]
    | filter f => rfl
  | switch =>
    cases n with
    | group h cs =>
      have same : (h.isDisabled && h.id ∉ ids) = h.isDisabled := by
        simp_all [borne, Node.isDisabled]
      simp only [clear, Relabel.own, same]
    | filter f =>
      have same : (f.isDisabled && f.id ∉ ids) = f.isDisabled := by
        simp_all [borne, Node.isDisabled]
      simp only [clear, Relabel.own, same]

theorem isDisabled_of_clear {n : Node} (disabled : ((m.clear ids).node n).isDisabled = true) :
    n.isDisabled = true := by
  cases m <;> cases n <;> simp_all [clear, Relabel.node, Node.isDisabled]

theorem isDisabled_clear_switch {n : Node} (inside : n.id ∈ ids) :
    ((switch.clear ids).node n).isDisabled = false := by
  cases n <;> simp_all [clear, Relabel.node, Node.isDisabled, Node.id]

end Mark

/-- Unlocked and enabled under some ids; under all others a node is as it was. -/
def Relabel.release (ids : List String) : Relabel where
  header h :=
    { h with isLocked := h.isLocked && h.id ∉ ids, isDisabled := h.isDisabled && h.id ∉ ids }
  filter f := { f with isDisabled := f.isDisabled && f.id ∉ ids }
  id_header _ := rfl
  id_filter _ := rfl

theorem Relabel.release_eq (ids : List String) :
    release ids = (Mark.lock.clear ids).after (Mark.switch.clear ids) := rfl

theorem Relabel.isLocked_release {n : Node} {ids : List String} (inside : n.id ∈ ids) :
    ((release ids).node n).isLocked = false := by
  cases n <;> simp_all [release, node, Node.isLocked, Node.id]

theorem Relabel.isDisabled_release {n : Node} {ids : List String} (inside : n.id ∈ ids) :
    ((release ids).node n).isDisabled = false := by
  cases n <;> simp_all [release, node, Node.isDisabled, Node.id]

namespace Rule

variable {r r' : Rule} {l : Relabel} {mark : Node → Bool} {id x : String}

/-- Where a mark comes off one node, it comes off that node in the whole rule. -/
theorem Swap.node_clear {m : Mark} {old new : Node} (swap : Swap r r' old new) (valid : r.Valid)
    (cleared : new = (m.clear [old.id]).own old) : r'.node = (m.clear [old.id]).node r.node := by
  obtain ⟨frames, outgoing, incoming, -⟩ := swap
  rw [Valid, Rule.ids, ← outgoing] at valid
  rw [← incoming, ← outgoing, cleared,
    Relabel.node_around valid fun id other => Mark.clear_leaves (by simpa using other)]

theorem Valid.node_clear_of_not_bears {m : Mark} (valid : r.Valid) (known : x ∈ r.ids)
    (free : ¬ r.Bears m.borne x) : (m.clear [x]).node r.node = r.node := by
  obtain ⟨location, located⟩ := exists_locate? known
  have found := node?_of_locate? located
  obtain ⟨rfl, frames, rebuilt⟩ := exists_around found
  have unmarked : m.borne location.node = false := by simpa [Bears, found] using free
  rw [Valid, ids, ← rebuilt] at valid
  rw [← rebuilt, Relabel.node_around valid fun id other => Mark.clear_leaves (by simpa using other),
    Mark.own_clear_of_not_borne unmarked]

section

variable (relabelled : r'.node = l.node r.node)

include relabelled

theorem ids_of_relabel : r'.ids = r.ids := by rw [ids, relabelled, l.ids_node, ids]

theorem Valid.of_relabel (valid : r.Valid) : r'.Valid := by
  rwa [Valid, ids_of_relabel relabelled]

theorem path?_of_relabel (id : String) : r'.path? id = (r.path? id).map l.path := by
  rw [path?, relabelled, l.path?_node, path?]

theorem under_of_relabel (keeps : ∀ n, mark (l.node n) = true → mark n = true)
    (under : r'.Under mark x) : r.Under mark x := by
  obtain ⟨p, found, g, above, marked⟩ := under
  rw [path?_of_relabel relabelled, Option.map_eq_some_iff] at found
  obtain ⟨q, found, rfl⟩ := found
  obtain ⟨n, inside, rfl⟩ := List.mem_map.mp above
  exact ⟨q, found, n, inside, keeps n marked⟩

end

theorem mem_ids_of_encloses (above : r.Encloses x id) : x ∈ r.ids := by
  obtain ⟨p, found, above⟩ := above
  obtain ⟨g, passed, rfl⟩ := List.mem_map.mp above
  rw [ids_eq_preorder]
  exact List.mem_map_of_mem (Node.mem_ids_of_above _ found passed).1

theorem Valid.eq_or_encloses {p : Path} (valid : r.Valid) (found : r.path? id = some p)
    (inside : x ∈ p.ids) : x = id ∨ r.Encloses x id := by
  have target : p.target.id = id := (valid.node?_eq_some_iff.mp (node?_of_path? found)).2
  rw [Path.ids, Path.nodes, List.map_append, List.mem_append, List.map_singleton,
    List.mem_singleton, target] at inside
  exact inside.elim (fun above => .inr ⟨p, found, above⟩) .inl

theorem Valid.under_of_encloses (valid : r.Valid) (bare : ∀ n, mark n.bare = mark n)
    (above : r.Encloses x id) (under : r.Under mark x) : r.Under mark id := by
  have ⟨q, found, g, passed, _⟩ := under
  have known : x ∈ r.ids := mem_ids_of_node? (node?_of_path? found)
  have below : r.root.id ≠ x := by
    intro top
    have empty := (Session.isRoot_iff found).mp top.symm
    rw [Path.isRoot, List.isEmpty_iff] at empty
    simp [empty] at passed
  obtain ⟨place, located⟩ := exists_locate?_inside known below
  have self := valid.route?_below located place.node.route?_self
  rw [(around_of_locate?_inside located).2] at self
  have inside := valid.mem_subtreeIds_of_encloses above
  rw [subtreeIds_of_locate? located] at inside
  obtain ⟨inner, route⟩ := Node.exists_route? inside
  rw [under_iff_route bare] at under ⊢
  obtain ⟨p, same, g, above, marked⟩ := under
  rw [self] at same
  cases same
  rw [Path.root, List.append_nil] at above
  exact ⟨_, valid.route?_below located route, g, List.mem_append_left _ above, marked⟩

end Rule

namespace Session

/-- The intents are carried out one after the other, none of them refused, and lead from the first
    session to the second. -/
inductive Performs : Session → List Intent → Session → Prop
  | nil {s : Session} : Performs s [] s
  | cons {s s' t : Session} {intent : Intent} {intents : List Intent}
      (done : s.perform intent = (s', .done)) (rest : Performs s' intents t) :
      Performs s (intent :: intents) t

variable {s s' t : Session} {intents later : List Intent} {id x : String}

theorem Performs.append (first : Performs s intents s') (rest : Performs s' later t) :
    Performs s (intents ++ later) t := by
  induction first with
  | nil => exact rest
  | cons done _ ih => exact .cons done (ih rest)

theorem Performs.run_eq (performs : Performs s intents t) : s.run intents = t := by
  induction performs with
  | nil => rfl
  | cons done _ ih => rw [run, List.foldl_cons, done, ← run, ih]

theorem exists_enable (valid : s.rule.Valid) (bears : s.rule.Bears Node.isDisabled x) : ∃ rule,
    s.perform (.toggleDisabled x) = ({ s with rule }, .done) ∧
    rule.node = (Mark.switch.clear [x]).node s.rule.node := by
  have known : x ∈ s.rule.ids := Rule.mem_ids_of_node? bears.choose_spec.1
  have fails := toggleDisabled_fails valid x
  rw [Rule.switchRefusal?, if_neg (not_not.mpr known), if_neg fun both => both.2 bears] at fails
  obtain ⟨next, accepted⟩ : ∃ next, s.toggleDisabled x = .ok next := fails
  cases Step.of_toggleDisabled accepted with
  | toggleGroup _ _ edited =>
    obtain ⟨old, swap, rfl, -⟩ := Rule.swap_of_updateGroup edited
    have was : old.isDisabled = true := (swap.bears_iff valid).mp bears
    refine ⟨_, by rw [perform, accepted]; rfl, swap.node_clear valid ?_⟩
    simp [Relabel.own, Mark.clear, Group.toNode, Node.id, was]
  | toggleFilter _ _ edited =>
    obtain ⟨old, swap, rfl, -⟩ := Rule.swap_of_updateFilter edited
    have was : old.isDisabled = true := (swap.bears_iff valid).mp bears
    refine ⟨_, by rw [perform, accepted]; rfl, swap.node_clear valid ?_⟩
    simp [Relabel.own, Mark.clear, Node.id, was]

theorem exists_unlock (valid : s.rule.Valid) (bears : s.rule.Bears Node.isLocked x)
    (free : ¬ s.rule.Under Node.isDisabled x) : ∃ rule,
      s.perform (.toggleLocked x) = ({ s with rule }, .done) ∧
      rule.node = (Mark.lock.clear [x]).node s.rule.node := by
  have known : x ∈ s.rule.ids := Rule.mem_ids_of_node? bears.choose_spec.1
  have group : s.rule.kind? x ≠ some .filter := by
    rw [Ne, Rule.kind?_eq_filter_iff]
    rintro ⟨f, filter⟩
    simp [Rule.Bears, filter, Node.isLocked] at bears
  have fails := toggleLocked_fails valid x
  rw [Rule.lockRefusal?, if_neg (not_not.mpr known), if_neg fun both => free both.2, if_neg group]
    at fails
  obtain ⟨next, accepted⟩ : ∃ next, s.toggleLocked x = .ok next := fails
  cases Step.of_toggleLocked accepted with
  | toggleLocked _ _ edited =>
    obtain ⟨old, swap, rfl, -⟩ := Rule.swap_of_updateGroup edited
    have was : old.isLocked = true := (swap.bears_iff valid).mp bears
    refine ⟨_, by rw [perform, accepted]; rfl, swap.node_clear valid ?_⟩
    simp [Relabel.own, Mark.clear, Group.toNode, Node.id, was]

/-- A mark that a node bears is taken off by its toggle; for a lock, nothing around may be
    disabled. -/
theorem exists_clear (m : Mark) (valid : s.rule.Valid) (bears : s.rule.Bears m.borne x)
    (free : m = .lock → ¬ s.rule.Under Node.isDisabled x) : ∃ rule,
      s.perform (m.toggle x) = ({ s with rule }, .done) ∧
      rule.node = (m.clear [x]).node s.rule.node := by
  cases m with
  | lock => exact exists_unlock valid bears (free rfl)
  | switch => exact exists_enable valid bears

theorem exists_performs (m : Mark) (valid : s.rule.Valid) (xs : List String)
    (known : ∀ x ∈ xs, x ∈ s.rule.ids)
    (free : m = .lock → ∀ x ∈ xs, ¬ s.rule.Under Node.isDisabled x) : ∃ marked rule,
      marked ⊆ xs ∧ Performs s (marked.map m.toggle) { s with rule } ∧
      rule.node = (m.clear xs).node s.rule.node := by
  induction xs generalizing s with
  | nil => exact ⟨[], s.rule, List.Subset.refl _, .nil, (m.clear_nil _).symm⟩
  | cons x xs ih =>
    rw [List.forall_mem_cons] at known
    have freeHere : m = .lock → ¬ s.rule.Under Node.isDisabled x :=
      fun lock => free lock x List.mem_cons_self
    have freeLater : m = .lock → ∀ y ∈ xs, ¬ s.rule.Under Node.isDisabled y :=
      fun lock y later => free lock y (List.mem_cons_of_mem _ later)
    by_cases bears : s.rule.Bears m.borne x
    · obtain ⟨first, done, cleared⟩ := exists_clear m valid bears freeHere
      have stillKnown : ∀ y ∈ xs, y ∈ first.ids := by
        rw [Rule.ids_of_relabel cleared]
        exact known.2
      -- The toggle of `x` disables nothing, so that the later locks are as free as they were.
      have stillFree : m = .lock → ∀ y ∈ xs, ¬ first.Under Node.isDisabled y :=
        fun lock y later under => freeLater lock y later
          (Rule.under_of_relabel cleared (fun _ => Mark.isDisabled_of_clear) under)
      obtain ⟨marked, rule, part, performs, result⟩ :=
        ih (s := { s with rule := first }) (valid.of_relabel cleared) stillKnown stillFree
      refine ⟨x :: marked, rule, List.cons_subset_cons x part, .cons done performs, ?_⟩
      rw [result, cleared, m.clear_cons x xs, Relabel.node_after]
    · obtain ⟨marked, rule, part, performs, result⟩ := ih valid known.2 freeLater
      refine ⟨marked, rule, List.subset_cons_of_subset x part, performs, ?_⟩
      rw [result, m.clear_cons x xs, Relabel.node_after,
        valid.node_clear_of_not_bears known.1 bears]

/-- With every switch on the way down to a node turned on, no node on that way stands under a
    disabled group. -/
theorem not_under_isDisabled {r r' : Rule} {p : Path} (valid : r'.Valid)
    (found : r.path? id = some p) (cleared : r'.node = (Mark.switch.clear p.ids).node r.node) :
    ∀ x ∈ p.ids, ¬ r'.Under Node.isDisabled x := by
  have now : r'.path? id = some ((Mark.switch.clear p.ids).path p) := by
    rw [Rule.path?_of_relabel cleared, found, Option.map_some]
  have free : ¬ r'.Under Node.isDisabled id := by
    rw [Rule.under_iff now]
    rintro ⟨g, above, disabled⟩
    obtain ⟨n, passed, rfl⟩ := List.mem_map.mp above
    have inside : n.id ∈ p.ids := List.mem_map_of_mem (List.mem_append_left _ passed)
    rw [Mark.isDisabled_clear_switch inside] at disabled
    cases disabled
  intro x inside under
  rw [← Relabel.ids_path] at inside
  rcases valid.eq_or_encloses now inside with rfl | above
  · exact free under
  · exact free (valid.under_of_encloses Node.isDisabled_bare above under)

theorem protection_of_release {rule : Rule} {p : Path} (found : s.rule.path? id = some p)
    (released : rule.node = (Relabel.release p.ids).node s.rule.node) :
    ({ s with rule } : Session).protection id = .ok ⟨p.isRoot, false, false, false, false⟩ := by
  have now : rule.path? id = some ((Relabel.release p.ids).path p) := by
    rw [Rule.path?_of_relabel released, found, Option.map_some]
  have target : p.target.id ∈ p.ids := List.mem_map_of_mem (List.mem_append_right _ (by simp))
  have above : ∀ g ∈ p.above, g.id ∈ p.ids :=
    fun g passed => List.mem_map_of_mem (List.mem_append_left _ passed)
  refine protection_eq_ok_iff.mpr ⟨_, now, ?_⟩
  simp +contextual [Protection.ofPath, Relabel.path, Path.isRoot, Relabel.isLocked_release,
    Relabel.isDisabled_release, target, above]

/-- Every node can be released: the node and the groups around it are enabled first, where they are
    disabled, and then unlocked, where they are locked. No toggle is refused, none of these nodes is
    locked or disabled after them, and nothing else has changed, in the rule or in the session. -/
theorem exists_release (s : Session) (valid : s.rule.Valid) (known : id ∈ s.rule.ids) :
    ∃ p disabled locked rule, s.rule.path? id = some p ∧ disabled ⊆ p.ids ∧ locked ⊆ p.ids ∧
      Performs s (disabled.map .toggleDisabled ++ locked.map .toggleLocked) { s with rule } ∧
      rule.node = (Relabel.release p.ids).node s.rule.node ∧
      ({ s with rule } : Session).protection id = .ok ⟨p.isRoot, false, false, false, false⟩ := by
  obtain ⟨p, found⟩ := Rule.exists_path? known
  have onPath : ∀ x ∈ p.ids, x ∈ s.rule.ids := by
    intro x inside
    rcases valid.eq_or_encloses found inside with rfl | above
    · exact known
    · exact Rule.mem_ids_of_encloses above
  obtain ⟨disabled, enabled, disabledOnPath, enables, cleared⟩ :=
    exists_performs .switch valid p.ids onPath (by simp)
  have valid' : enabled.Valid := valid.of_relabel cleared
  rw [← Rule.ids_of_relabel cleared] at onPath
  obtain ⟨locked, rule, lockedOnPath, unlocks, result⟩ :=
    exists_performs (s := { s with rule := enabled }) .lock valid' p.ids onPath
      fun _ => not_under_isDisabled valid' found cleared
  have released : rule.node = (Relabel.release p.ids).node s.rule.node := by
    rw [result, cleared, Relabel.release_eq, Relabel.node_after]
  exact ⟨p, disabled, locked, rule, found, disabledOnPath, lockedOnPath, enables.append unlocks,
    released, protection_of_release found released⟩

def allShut : Rule :=
  ⟨⟨⟨"root", "Rule", .and, true, true, false⟩,
    [.group ⟨"g", "Shut", .or, true, true, false⟩ [.filter ⟨"a", .city, .equals, "x", true⟩]]⟩⟩

theorem exists_release_allShut :
    let s := ofRule allShut .default
    allShut.Valid ∧ "a" ∈ allShut.ids ∧
      (s.perform (.toggleLocked "g")).2 = .refused (.locked "g") ∧
      ∃ intents, (s.run intents).rule.node = (Relabel.release ["root", "g", "a"]).node allShut.node ∧
        (s.run intents).protection "a" = .ok ⟨false, false, false, false, false⟩ := by
  have valid : allShut.Valid := by
    rw [Rule.Valid, Rule.ids_eq_preorder]
    decide
  have known : "a" ∈ allShut.ids := by
    rw [Rule.ids_eq_preorder]
    decide
  obtain ⟨p, disabled, locked, rule, found, -, -, performs, released, protection⟩ :=
    exists_release (ofRule allShut .default) valid known
  obtain rfl := Option.some.inj found
  refine ⟨valid, known, rfl, disabled.map .toggleDisabled ++ locked.map .toggleLocked, ?_, ?_⟩
  · rw [performs.run_eq]
    exact released
  · rw [performs.run_eq]
    exact protection

end Session

end NestedRules
