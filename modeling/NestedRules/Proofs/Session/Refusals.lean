import NestedRules.Proofs.Rule.Acceptance
import NestedRules.Proofs.Rule.Standing
import NestedRules.Proofs.Session.Soundness

namespace NestedRules

namespace Rule

variable (r : Rule) (id : String)

def groupRefusal? : Option Refusal :=
  if id ∉ r.ids then some (.unresolved id)
  else if r.kind? id = some .filter then some (.wrongKind id .group)
  else if r.Within Node.isShut id then some (.locked id)
  else none

def filterRefusal? : Option Refusal :=
  if id ∉ r.ids then some (.unresolved id)
  else if r.kind? id = some .group then some (.wrongKind id .filter)
  else if r.Under Node.isShut id then some (.locked id)
  else none

def deleteRefusal? : Option Refusal :=
  if id ∉ r.ids then some (.unresolved id)
  else if id = r.root.id then some .rootFixed
  else if r.Under Node.isShut id ∨ r.kind? id = some .group ∧ r.Bears Node.isShut id then
    some (.locked id)
  else none

def collapseRefusal? : Option Refusal :=
  if id ∉ r.ids then some (.unresolved id)
  else if r.Under Node.isLocked id then some (.locked id)
  else if r.kind? id = some .filter then some (.wrongKind id .group)
  else none

def lockRefusal? : Option Refusal :=
  if id ∉ r.ids then some (.unresolved id)
  else if r.Bears Node.isLocked id ∧ r.Under Node.isDisabled id then some (.locked id)
  else if r.kind? id = some .filter then some (.wrongKind id .group)
  else none

def switchRefusal? : Option Refusal :=
  if id ∉ r.ids then some (.unresolved id)
  else if r.Within Node.isLocked id ∧ ¬ r.Bears Node.isDisabled id then some (.locked id)
  else none

end Rule

def Intent.isDrag : Intent → Bool
  | .startDrag _ | .cancelDrag | .drop _ => true
  | _ => false

def Intent.fresh? : Intent → Option String
  | .addFilter _ fresh | .addGroup _ fresh => some fresh
  | _ => none

def Intent.answer : Intent → Reply
  | .addFilter _ fresh | .addGroup _ fresh => .added fresh
  | _ => .done

/-- The first reason against an intent, drags apart. -/
def Session.refusal? (s : Session) : Intent → Option Refusal
  | .rename id _ | .setLogic id _ | .addFilter id _ | .addGroup id _ => s.rule.groupRefusal? id
  | .toggleCollapsed id => s.rule.collapseRefusal? id
  | .toggleLocked id => s.rule.lockRefusal? id
  | .toggleDisabled id => s.rule.switchRefusal? id
  | .delete id => s.rule.deleteRefusal? id
  | .startEdit id | .saveFilter id _ _ _ => s.rule.filterRefusal? id
  | .cancelEdit | .startDrag _ | .cancelDrag | .drop _ => none

namespace Session

variable {s : Session} {id : String}

def Fails {α : Type} (attempt : Except Refusal α) (reason : Option Refusal) : Prop :=
  match reason with
  | some why => attempt = .error why
  | none => ∃ next, attempt = .ok next

section

variable {α β : Type} {reason : Option Refusal} {why : Refusal}

theorem Fails.bind {check : Except Refusal α} {next : α → Except Refusal β}
    (checked : Fails check reason) (goes : ∀ a, check = .ok a → ∃ b, next a = .ok b) :
    Fails (check >>= next) reason := by
  cases reason with
  | some why =>
    obtain rfl : check = .error why := checked
    exact rfl
  | none =>
    obtain ⟨a, rfl⟩ : ∃ a, check = .ok a := checked
    exact goes a rfl

theorem Fails.guard {P : Prop} [Decidable P] {blocked : Bool} {stop next : Except Refusal α}
    (same : P ↔ blocked = true) (stops : stop = .error why) (rest : ¬ P → Fails next reason) :
    Fails (if blocked = true then stop else next) (if P then some why else reason) := by
  by_cases holds : P
  · rw [if_pos holds, if_pos (same.mp holds)]
    exact stops
  · rw [if_neg holds, if_neg (mt same.mpr holds)]
    exact rest holds

theorem Fails.ofPath {next : Path → Except Refusal α}
    (goes : ∀ p, s.rule.path? id = some p → Fails (next p) reason) :
    Fails (s.path id >>= next) (if id ∉ s.rule.ids then some (.unresolved id) else reason) := by
  by_cases known : id ∈ s.rule.ids
  · obtain ⟨p, found⟩ := Rule.exists_path? known
    rw [if_neg (not_not.mpr known), path_eq_ok_iff.mpr found]
    exact goes p found
  · have unknown : s.rule.path? id = none := Node.path?_eq_none_iff.mpr known
    rw [if_pos known, path, unknown]
    exact rfl

end

theorem kind?_of_path? {r : Rule} {p : Path} (found : r.path? id = some p) :
    r.kind? id = some p.target.kind := by
  rw [Rule.kind?_eq_map, Rule.node?_of_path? found, Option.map_some]

theorem kind?_filter_iff {r : Rule} {p : Path} (found : r.path? id = some p) :
    r.kind? id = some .filter ↔ (!p.target.isGroup) = true := by
  rw [kind?_of_path? found]
  cases p.target <;> simp [Node.kind, Node.isGroup]

theorem kind?_group_iff {r : Rule} {p : Path} (found : r.path? id = some p) :
    r.kind? id = some .group ↔ p.target.isGroup = true := by
  rw [kind?_of_path? found]
  cases p.target <;> simp [Node.kind, Node.isGroup]

theorem isRoot_iff {r : Rule} {p : Path} (found : r.path? id = some p) :
    id = r.root.id ↔ p.isRoot = true := by
  rw [Rule.path?, Rule.node, Group.toNode, Node.path?] at found
  split at found
  · rename_i top
    cases found
    exact ⟨fun _ => rfl, fun _ => top.symm⟩
  · rename_i below
    obtain ⟨q, -, rfl⟩ := Option.map_eq_some_iff.mp found
    refine ⟨fun top => absurd top.symm below, fun root => ?_⟩
    cases root

theorem checkGroup_fails (s : Session) (id : String) :
    Fails (s.checkGroup id) (s.rule.groupRefusal? id) := by
  refine Fails.ofPath fun p found => Fails.guard (kind?_filter_iff found) rfl fun _ => ?_
  exact Fails.guard (Rule.shut_iff_controlsBlocked found) rfl fun _ => ⟨(), rfl⟩

theorem checkFilter_fails (s : Session) (id : String) :
    Fails (s.checkFilter id) (s.rule.filterRefusal? id) := by
  refine Fails.ofPath fun p found => Fails.guard (kind?_group_iff found) rfl fun _ => ?_
  exact Fails.guard (Rule.barred_iff_parentBlocked found) rfl fun _ => ⟨(), rfl⟩

theorem keep_ok {edited : Except Refusal Rule} {rule : Rule} (accepted : edited = .ok rule) :
    s.keep edited = .ok { s with rule } := keep_eq_ok_iff.mpr ⟨rule, accepted, rfl⟩

theorem exists_node?_group {r : Rule} {p : Path} (found : r.path? id = some p)
    (isGroup : p.target.isGroup = true) : ∃ h cs, r.node? id = some (.group h cs) := by
  rw [Rule.node?_of_path? found]
  cases kind : p.target with
  | group h cs => exact ⟨h, cs, rfl⟩
  | filter f => simp [kind, Node.isGroup] at isGroup

theorem exists_node?_filter {r : Rule} {p : Path} (found : r.path? id = some p)
    (isFilter : p.target.isGroup = false) : ∃ f, r.node? id = some (.filter f) := by
  rw [Rule.node?_of_path? found]
  cases kind : p.target with
  | group h cs => simp [kind, Node.isGroup] at isFilter
  | filter f => exact ⟨f, rfl⟩

theorem exists_keep_updateGroup {p : Path} {f : Group → Group} (valid : s.rule.Valid)
    (found : s.rule.path? id = some p) (isGroup : p.target.isGroup = true)
    (keeps : ∀ g, (f g).children = g.children) :
    ∃ next, s.keep (s.rule.updateGroup id f) = .ok next := by
  obtain ⟨h, cs, node⟩ := exists_node?_group found isGroup
  obtain ⟨frames, -, accepted⟩ := valid.updateGroup_of_group node keeps
  exact ⟨_, keep_ok accepted⟩

theorem exists_keep_updateFilter {p : Path} (valid : s.rule.Valid)
    (found : s.rule.path? id = some p) (isFilter : p.target.isGroup = false) (f : Filter → Filter) :
    ∃ next, s.keep (s.rule.updateFilter id f) = .ok next := by
  obtain ⟨old, node⟩ := exists_node?_filter found isFilter
  obtain ⟨place, -, -, accepted⟩ := valid.updateFilter_of_filter node f
  exact ⟨_, keep_ok accepted⟩

theorem exists_keep_insert {p : Path} {n : Node} (found : s.rule.path? id = some p)
    (isGroup : p.target.isGroup = true) (leaf : n.children = []) (fresh : n.id ∉ s.rule.ids) :
    ∃ next, s.keep (s.rule.insert id n none) = .ok next := by
  obtain ⟨h, cs, node⟩ := exists_node?_group found isGroup
  have single : n.ids = [n.id] := by rw [Node.ids_eq, leaf, Forest.ids_nil]
  obtain ⟨rule, accepted⟩ := Rule.insert_of_group (n := n) node (by simp [single])
    (by simpa [single] using fresh) none
  exact ⟨_, keep_ok accepted⟩

/-- A toggle of a group's mark finds the kind of its node out only when it makes its edit. -/
theorem keep_updateGroup_fails {p : Path} {f : Group → Group} (valid : s.rule.Valid)
    (found : s.rule.path? id = some p) (keeps : ∀ g, (f g).children = g.children) :
    Fails (s.keep (s.rule.updateGroup id f))
      (if s.rule.kind? id = some .filter then some (.wrongKind id .group) else none) := by
  by_cases isFilter : s.rule.kind? id = some .filter
  · rw [if_pos isFilter]
    obtain ⟨g, node⟩ := Rule.kind?_eq_filter_iff.mp isFilter
    rw [Rule.updateGroup_of_filter node]
    exact rfl
  · rw [if_neg isFilter]
    rw [kind?_filter_iff found, Bool.not_eq_true', Bool.not_eq_false] at isFilter
    exact exists_keep_updateGroup valid found isFilter keeps

section

variable (valid : s.rule.Valid)

include valid

theorem rename_fails (id name : String) : Fails (s.rename id name) (s.rule.groupRefusal? id) := by
  refine (checkGroup_fails s id).bind fun _ passed => ?_
  obtain ⟨p, found, isGroup, -⟩ := checkGroup_cases passed
  exact exists_keep_updateGroup valid found isGroup fun _ => rfl

theorem setLogic_fails (id : String) (logic : Logic) :
    Fails (s.setLogic id logic) (s.rule.groupRefusal? id) := by
  refine (checkGroup_fails s id).bind fun _ passed => ?_
  obtain ⟨p, found, isGroup, -⟩ := checkGroup_cases passed
  exact exists_keep_updateGroup valid found isGroup fun _ => rfl

theorem toggleCollapsed_fails (id : String) :
    Fails (s.toggleCollapsed id) (s.rule.collapseRefusal? id) := by
  refine Fails.ofPath fun p found => Fails.guard (Rule.under_isLocked_iff found) rfl fun _ => ?_
  exact keep_updateGroup_fails valid found fun _ => rfl

theorem toggleLocked_fails (id : String) :
    Fails (s.toggleLocked id) (s.rule.lockRefusal? id) := by
  refine Fails.ofPath fun p found => Fails.guard ?_ rfl fun _ => ?_
  · rw [Rule.bears_isLocked_iff found, Rule.under_isDisabled_iff found, Bool.and_eq_true, and_comm]
  · exact keep_updateGroup_fails valid found fun _ => rfl

theorem toggleDisabled_fails (id : String) :
    Fails (s.toggleDisabled id) (s.rule.switchRefusal? id) := by
  refine Fails.ofPath fun p found => Fails.guard ?_ rfl fun _ => ?_
  · rw [Rule.within_isLocked_iff found, Rule.bears_isDisabled_iff found, Bool.and_eq_true,
      Bool.not_eq_true', Bool.not_eq_true]
  · cases kind : p.target with
    | group h cs => exact exists_keep_updateGroup valid found (by rw [kind]; rfl) fun _ => rfl
    | filter f => exact exists_keep_updateFilter valid found (by rw [kind]; rfl) _

theorem saveFilter_fails (id : String) (field : Field) (operator : Operator) (value : String) :
    Fails (s.saveFilter id field operator value) (s.rule.filterRefusal? id) := by
  refine (checkFilter_fails s id).bind fun _ passed => ?_
  obtain ⟨p, found, isFilter, -⟩ := checkFilter_cases passed
  obtain ⟨next, kept⟩ := exists_keep_updateFilter valid found isFilter
    ({ · with field, operator, value })
  exact ⟨_, by rw [kept]; rfl⟩

end

theorem delete_fails (s : Session) (id : String) : Fails (s.delete id) (s.rule.deleteRefusal? id) := by
  refine Fails.ofPath fun p found => Fails.guard (isRoot_iff found) rfl fun below =>
    Fails.guard ?_ rfl fun _ => ?_
  · have around : s.rule.Under Node.isShut id ↔ (Protection.ofPath p).parentBlocked = true :=
      Rule.barred_iff_parentBlocked found
    have within : s.rule.Within Node.isShut id ↔ (Protection.ofPath p).controlsBlocked = true :=
      Rule.shut_iff_controlsBlocked found
    rw [Rule.within_iff_bears_or_under found] at within
    rw [kind?_group_iff found]
    cases p.target.isGroup with
    | true => simpa [or_comm] using within
    | false => simpa using around
  · have known : id ∈ s.rule.ids := Rule.mem_ids_of_node? (Rule.node?_of_path? found)
    obtain ⟨rule, accepted⟩ := Rule.remove_of_ne_root known (Ne.symm below)
    exact ⟨_, by rw [keep_ok accepted]; rfl⟩

theorem startEdit_fails (s : Session) (id : String) :
    Fails (s.startEdit id) (s.rule.filterRefusal? id) :=
  (checkFilter_fails s id).bind fun _ _ => ⟨_, rfl⟩

theorem addFilter_fails {parent fresh : String} (unused : fresh ∉ s.rule.ids) :
    Fails (s.addFilter parent fresh) (s.rule.groupRefusal? parent) := by
  refine (checkGroup_fails s parent).bind fun _ passed => ?_
  obtain ⟨p, found, isGroup, -⟩ := checkGroup_cases passed
  obtain ⟨next, kept⟩ := exists_keep_insert (n := .filter (.blank fresh)) found isGroup rfl unused
  exact ⟨_, by rw [kept]; rfl⟩

theorem addGroup_fails {parent fresh : String} (unused : fresh ∉ s.rule.ids) :
    Fails (s.addGroup parent fresh) (s.rule.groupRefusal? parent) := by
  refine (checkGroup_fails s parent).bind fun _ passed => ?_
  obtain ⟨p, found, isGroup, -⟩ := checkGroup_cases passed
  exact exists_keep_insert found isGroup rfl unused

theorem settle_of_fails {attempt : Except Refusal Session} {reason : Option Refusal}
    (answer : Reply) (fails : Fails attempt reason) :
    (s.settle answer attempt).2 = reason.elim answer .refused ∧
      (reason ≠ none → (s.settle answer attempt).1 = s) := by
  cases reason with
  | some why =>
    obtain rfl : attempt = .error why := fails
    exact ⟨rfl, fun _ => rfl⟩
  | none =>
    obtain ⟨next, rfl⟩ : ∃ next, attempt = .ok next := fails
    exact ⟨rfl, fun refused => absurd rfl refused⟩

/-- An intent is refused for the first reason that there is against it and carried out if there is
    none, and a refused intent leaves the session as it was. -/
theorem perform_answers (intent : Intent) (valid : s.rule.Valid) (noDrag : intent.isDrag = false)
    (unused : ∀ id, intent.fresh? = some id → id ∉ s.rule.ids) :
    (s.perform intent).2 = (s.refusal? intent).elim intent.answer .refused ∧
      (s.refusal? intent ≠ none → (s.perform intent).1 = s) := by
  cases intent with
  | rename id name => exact settle_of_fails .done (rename_fails valid id name)
  | setLogic id logic => exact settle_of_fails .done (setLogic_fails valid id logic)
  | toggleCollapsed id => exact settle_of_fails .done (toggleCollapsed_fails valid id)
  | toggleLocked id => exact settle_of_fails .done (toggleLocked_fails valid id)
  | toggleDisabled id => exact settle_of_fails .done (toggleDisabled_fails valid id)
  | addFilter parent fresh =>
    exact settle_of_fails (.added fresh) (addFilter_fails (unused fresh rfl))
  | addGroup parent fresh =>
    exact settle_of_fails (.added fresh) (addGroup_fails (unused fresh rfl))
  | delete id => exact settle_of_fails .done (delete_fails s id)
  | startEdit id => exact settle_of_fails .done (startEdit_fails s id)
  | cancelEdit => exact ⟨rfl, fun refused => absurd rfl refused⟩
  | saveFilter id field operator value =>
    exact settle_of_fails .done (saveFilter_fails valid id field operator value)
  | startDrag | cancelDrag | drop => cases noDrag

def mixedMarks : Rule :=
  ⟨⟨⟨"root", "Rule", .and, false, false, false⟩,
    [.group ⟨"g", "Open", .or, false, false, false⟩ [.filter (.blank "a")],
      .group ⟨"off", "Off", .or, false, true, false⟩
        [.group ⟨"h", "Locked", .or, true, false, false⟩ []]]⟩⟩

/-- The lock of `h` cannot be taken off under a disabled group, but the group may be folded; the
    filter `a` is no group, and a filter may be added beside it. -/
theorem perform_answers_mixedMarks :
    let s := ofRule mixedMarks .default
    mixedMarks.Valid ∧
      (s.perform (.toggleLocked "h")).2 = .refused (.locked "h") ∧
      (s.perform (.toggleLocked "h")).1 = s ∧
      (s.perform (.toggleCollapsed "h")).2 = .done ∧
      (s.perform (.rename "a" "x")).2 = .refused (.wrongKind "a" .group) ∧
      "b" ∉ mixedMarks.ids ∧ (s.perform (.addFilter "g" "b")).2 = .added "b" := by
  have valid : mixedMarks.Valid := by
    rw [Rule.Valid, Rule.ids_eq_preorder]
    decide
  have unused : "b" ∉ mixedMarks.ids := by
    rw [Rule.ids_eq_preorder]
    decide
  have lock := perform_answers (s := ofRule mixedMarks .default) (.toggleLocked "h") valid rfl
    fun id brought => by cases brought
  have fold := perform_answers (s := ofRule mixedMarks .default) (.toggleCollapsed "h") valid rfl
    fun id brought => by cases brought
  have name := perform_answers (s := ofRule mixedMarks .default) (.rename "a" "x") valid rfl
    fun id brought => by cases brought
  have add := perform_answers (s := ofRule mixedMarks .default) (.addFilter "g" "b") valid rfl
    fun id brought => Option.some.inj brought ▸ unused
  have locked : (ofRule mixedMarks .default).refusal? (.toggleLocked "h") = some (.locked "h") := by
    decide +kernel
  have folded : (ofRule mixedMarks .default).refusal? (.toggleCollapsed "h") = none := by
    decide +kernel
  have noGroup : (ofRule mixedMarks .default).refusal? (.rename "a" "x") =
      some (.wrongKind "a" .group) := by decide +kernel
  have open' : (ofRule mixedMarks .default).refusal? (.addFilter "g" "b") = none := by
    decide +kernel
  rw [locked] at lock
  rw [folded] at fold
  rw [noGroup] at name
  rw [open'] at add
  exact ⟨valid, lock.1, lock.2 (by simp), fold.1, name.1, unused, add.1⟩

end Session

end NestedRules
