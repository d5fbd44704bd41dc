import NestedRules.Proofs.Rule.MoveAnswers
import NestedRules.Proofs.Rule.Standing
import NestedRules.Proofs.Session.DragLocks
import NestedRules.Proofs.Session.Soundness

namespace NestedRules

namespace Rule

variable {r : Rule} {id x dragged : String} {cs : List Candidate} {landing : Landing}

/-- What there may be against a drop of the node `id` into the group `group`, the state of the group
    first. -/
inductive Objection (r : Rule) (id group : String) : Refusal → Prop
  | shut (shut : r.Within Node.isShut group) : Objection r id group (.locked group)
  | gone (free : ¬ r.Within Node.isShut group) (gone : id ∉ r.ids) :
      Objection r id group (.unresolved id)
  | cycle (free : ¬ r.Within Node.isShut group) (isGroup : r.kind? id = some .group)
      (inside : group ∈ r.subtreeIds id) : Objection r id group (.cycle id group)

theorem Objection.unique {group : String} {why why' : Refusal} (first : r.Objection id group why)
    (second : r.Objection id group why') : why = why' := by
  cases first with
  | shut shut =>
    cases second with
    | shut => rfl
    | gone free | cycle free => exact absurd shut free
  | gone free gone =>
    cases second with
    | shut shut => exact absurd shut free
    | gone => rfl
    | cycle _ isGroup => exact absurd (mem_ids_of_kind? isGroup) gone
  | cycle free isGroup =>
    cases second with
    | shut shut => exact absurd shut free
    | gone _ gone => exact absurd (mem_ids_of_kind? isGroup) gone
    | cycle => rfl

theorem Objection.not_mem_ids {group : String} (against : r.Objection id group (.unresolved x)) :
    x ∉ r.ids := by
  cases against with
  | gone free gone => exact gone

theorem kind?_of_isGroup (group : r.IsGroup id) : r.kind? id = some .group := by
  rw [kind?_eq_map, Option.map_eq_some_iff]
  exact group

theorem Valid.kind?_landing (valid : r.Valid) (aimed : r.landing? dragged cs = some landing) :
    r.kind? landing.parent = some .group := by
  have atEnd {group : String} (ends : r.endOf? group = some landing) :
      r.kind? landing.parent = some .group := by
    obtain ⟨isGroup, members, -, rfl⟩ := endOf?_eq_some_iff.mp ends
    exact kind?_of_isGroup isGroup
  unfold landing? at aimed
  split at aimed
  · cases aimed
  · exact atEnd aimed
  · exact atEnd aimed
  · split at aimed
    · cases aimed
    · split at aimed
      · cases aimed
      · rename_i hit located
        split at aimed
        · exact atEnd aimed
        · split at aimed
          · cases aimed
          · rename_i p _
            cases aimed
            have row : r.row? p.parent.id = some (p.frame.row _) :=
              valid.row?_eq_some_iff.mpr ⟨row_mem_rows_of_locate? located, rfl⟩
            rw [kind?_eq, row]
            rfl

end Rule

def Outcome.rule? : Outcome → Option Rule
  | .moved rule => some rule
  | _ => none

namespace Session

variable {start s : Session} {candidates : List Candidate} {carried : Node} {landing : Landing}

theorem drop_eq (s : Session) (candidates : List Candidate) :
    s.drop candidates =
      ({ s with
        drag := .idle
        rule := (s.drag.drop s.rule candidates s.veto).rule?.getD s.rule },
        s.drag.drop s.rule candidates s.veto) := by
  unfold Session.drop
  cases s.drag.drop s.rule candidates s.veto <;> rfl

theorem veto_of_shut (shut : s.rule.Within Node.isShut landing.parent) :
    s.veto landing = some (.locked landing.parent) := by
  obtain ⟨p, found, g, member, isShut⟩ := shut
  have blocked : (Protection.ofPath p).controlsBlocked = true :=
    Protection.controlsBlocked_ofPath p |>.mpr ⟨g, member, isShut⟩
  simp only [veto, protection, path_eq_ok_iff.mpr found, Except.map, blocked, if_true]

theorem veto_of_free (known : landing.parent ∈ s.rule.ids)
    (free : ¬ s.rule.Within Node.isShut landing.parent) : s.veto landing = none :=
  veto_eq_none_iff.mpr ⟨Rule.exists_path? known, free⟩

theorem drop_cases (valid : s.rule.Valid) (carries : s.drag.carried? = some carried)
    (below : carried.id ≠ s.rule.root.id)
    (aimed : s.rule.landing? carried.id candidates = some landing) :
    (∃ why, s.rule.Objection carried.id landing.parent why ∧
      s.drag.drop s.rule candidates s.veto = .rejected why) ∨
    ((∀ why, ¬ s.rule.Objection carried.id landing.parent why) ∧
      ∃ rule, s.drag.drop s.rule candidates s.veto = .moved rule) := by
  have group := valid.kind?_landing aimed
  have known := Rule.mem_ids_of_kind? group
  obtain ⟨refused, accepted⟩ :=
    Rule.move_answers valid carried.id landing.parent landing.index
  by_cases shut : s.rule.Within Node.isShut landing.parent
  · refine .inl ⟨_, .shut shut, ?_⟩
    simp only [Drag.drop, carries, aimed, veto_of_shut shut]
  have free := veto_of_free known shut
  have rejects {why : Refusal}
      (reason : s.rule.moveRefusal? carried.id landing.parent = some why) :
      s.drag.drop s.rule candidates s.veto = .rejected why := by
    simp only [Drag.drop, carries, aimed, free, refused why reason]
  unfold Rule.moveRefusal? at rejects accepted
  rw [if_neg (not_not.mpr known), if_neg below] at rejects accepted
  by_cases there : carried.id ∈ s.rule.ids
  swap
  · exact .inl ⟨_, .gone shut there, rejects (if_pos there)⟩
  rw [if_neg (not_not.mpr there)] at rejects accepted
  by_cases cyclic : s.rule.kind? carried.id = some .group ∧
      landing.parent ∈ s.rule.subtreeIds carried.id
  · exact .inl ⟨_, .cycle shut cyclic.1 cyclic.2, rejects (if_pos cyclic)⟩
  rw [if_neg cyclic, group, if_neg (by simp)] at accepted
  obtain ⟨⟨rule, moves⟩, -⟩ := accepted rfl
  refine .inr ⟨?_, rule, by simp only [Drag.drop, carries, aimed, free, moves]⟩
  rintro _ (shut' | ⟨_, gone⟩ | ⟨_, isGroup, inside⟩)
  · exact shut shut'
  · exact gone there
  · exact cyclic ⟨isGroup, inside⟩

theorem drop_eq_rejected_iff (valid : s.rule.Valid) (carries : s.drag.carried? = some carried)
    (below : carried.id ≠ s.rule.root.id)
    (aimed : s.rule.landing? carried.id candidates = some landing) {why : Refusal} :
    s.drag.drop s.rule candidates s.veto = .rejected why ↔
      s.rule.Objection carried.id landing.parent why := by
  rcases drop_cases valid carries below aimed with ⟨reason, against, rejected⟩ | ⟨none, rule, moved⟩
  · rw [rejected, Outcome.rejected.injEq]
    exact ⟨fun same => same ▸ against, against.unique⟩
  · simp [moved, none]

theorem exists_landing_of_rejected {why : Refusal}
    (rejected : s.drag.drop s.rule candidates s.veto = .rejected why) :
    ∃ carried landing, s.drag.carried? = some carried ∧
      s.rule.landing? carried.id candidates = some landing := by
  cases carries : s.drag.carried? with
  | none => simp [Drag.drop, carries] at rejected
  | some carried =>
    cases aimed : s.rule.landing? carried.id candidates with
    | none => simp [Drag.drop, carries, aimed] at rejected
    | some landing => exact ⟨carried, landing, rfl, aimed⟩

theorem drop_eq_notDragging_iff :
    s.drag.drop s.rule candidates s.veto = .notDragging ↔ s.drag.isDragging = false := by
  rw [Drag.isDragging]
  cases carries : s.drag.carried? with
  | none => simp [Drag.drop, carries]
  | some carried =>
    cases aimed : s.rule.landing? carried.id candidates with
    | none => simp [Drag.drop, carries, aimed]
    | some landing =>
      cases against : s.veto landing with
      | some why => simp [Drag.drop, carries, aimed, against]
      | none =>
        cases moves : s.rule.move carried.id landing.parent landing.index <;>
          simp [Drag.drop, carries, aimed, against, moves]

/-- Whatever a session has been through, a drop ends the drag and touches nothing else but the rule,
    and that only to make it the one that it answers. It answers that nothing is dragged just when
    that is so. It is rejected just when the group that it would land in is shut, when its node is
    gone, or when that group lies in the subtree of its node; the group itself is always there. -/
theorem drop_answers (opened : Opened start) (intents : List Intent)
    (candidates : List Candidate) :
    let s := start.run intents
    ∃ outcome, s.perform (.drop candidates) =
        ({ s with drag := .idle, rule := outcome.rule?.getD s.rule }, .dropped outcome) ∧
      (outcome = .notDragging ↔ s.drag.isDragging = false) ∧
      (∀ why, outcome = .rejected why ↔
        ∃ id landing, s.carriedId? = some id ∧ s.rule.landing? id candidates = some landing ∧
          s.rule.Objection id landing.parent why) ∧
      ∀ id landing, s.carriedId? = some id → s.rule.landing? id candidates = some landing →
        s.rule.kind? landing.parent = some .group ∧
          outcome ≠ .rejected (.unresolved landing.parent) := by
  intro s
  have sound : Sound start s := sound_run opened intents
  have valid : s.rule.Valid := sound.distinct
  refine ⟨s.drag.drop s.rule candidates s.veto, ?_, drop_eq_notDragging_iff, fun why => ?_, ?_⟩
  · rw [perform, drop_eq]
  · constructor
    · intro rejected
      obtain ⟨carried, landing, carries, aimed⟩ := exists_landing_of_rejected rejected
      exact ⟨carried.id, landing, by rw [carriedId?, carries, Option.map_some], aimed,
        (drop_eq_rejected_iff valid carries (sound.dragging _ carries) aimed).mp rejected⟩
    · rintro ⟨id, landing, carriesId, aimed, against⟩
      obtain ⟨carried, carries, rfl⟩ := Option.map_eq_some_iff.mp carriesId
      exact (drop_eq_rejected_iff valid carries (sound.dragging _ carries) aimed).mpr against
  · intro id landing carriesId aimed
    obtain ⟨carried, carries, rfl⟩ := Option.map_eq_some_iff.mp carriesId
    have group := valid.kind?_landing aimed
    refine ⟨group, fun rejected => ?_⟩
    have against :=
      (drop_eq_rejected_iff valid carries (sound.dragging _ carries) aimed).mp rejected
    exact against.not_mem_ids (Rule.mem_ids_of_kind? group)

/-- The filter `f` is dragged while its group is deleted, then while the root is locked that it is
    dropped on, and the group `g` is dropped on a group that has been put into it on the way. -/
theorem drop_answers_fresh :
    let s := (fresh "root" .default).run [.addGroup "root" "g", .addFilter "g" "f"]
    ((s.run [.startDrag "f", .delete "g"]).perform (.drop [.root])).2 =
        .dropped (.rejected (.unresolved "f")) ∧
      ((s.run [.startDrag "f", .toggleLocked "root"]).perform (.drop [.root])).2 =
        .dropped (.rejected (.locked "root")) ∧
      ((s.run [.startDrag "g", .addGroup "g" "h"]).perform (.drop [.zone "h"])).2 =
        .dropped (.rejected (.cycle "g" "h")) := by
  have answers := drop_answers (.fresh "root" .default)
  refine ⟨?_, ?_, ?_⟩
  · obtain ⟨outcome, performed, -, rejected, -⟩ := answers
      [.addGroup "root" "g", .addFilter "g" "f", .startDrag "f", .delete "g"] [.root]
    obtain rfl := (rejected (.unresolved "f")).mpr ⟨"f", ⟨"root", 0⟩, by decide +kernel,
      by decide +kernel, .gone (by decide +kernel) (by decide +kernel)⟩
    exact congrArg Prod.snd performed
  · obtain ⟨outcome, performed, -, rejected, -⟩ := answers
      [.addGroup "root" "g", .addFilter "g" "f", .startDrag "f", .toggleLocked "root"] [.root]
    obtain rfl := (rejected (.locked "root")).mpr ⟨"f", ⟨"root", 1⟩, by decide +kernel,
      by decide +kernel, .shut (by decide +kernel)⟩
    exact congrArg Prod.snd performed
  · obtain ⟨outcome, performed, -, rejected, -⟩ := answers
      [.addGroup "root" "g", .addFilter "g" "f", .startDrag "g", .addGroup "g" "h"] [.zone "h"]
    obtain rfl := (rejected (.cycle "g" "h")).mpr ⟨"g", ⟨"h", 0⟩, by decide +kernel,
      by decide +kernel, .cycle (by decide +kernel) (by decide +kernel) (by decide +kernel)⟩
    exact congrArg Prod.snd performed

end Session

end NestedRules
