import Mathlib.Data.List.Induction
import NestedRules.Proofs.Drag.Landing
import NestedRules.Proofs.Outcome
import NestedRules.Proofs.Rule.Enclosure
import NestedRules.Session.Basic

namespace NestedRules

namespace Session

variable {s s' : Session} {id : String}

/-- What an intent makes of a session that does not refuse it. -/
inductive Step (s : Session) : Intent → Session → Prop
  | rename {id name : String} {rule : Rule} (free : ¬ s.rule.Shut id)
      (edited : s.rule.updateGroup id (fun g =>
        { g with name := if name.isEmpty then s.settings.untitledGroupName else name }) = .ok rule) :
      Step s (.rename id name) { s with rule }
  | setLogic {id : String} {logic : Logic} {rule : Rule} (free : ¬ s.rule.Shut id)
      (edited : s.rule.updateGroup id ({ · with logic }) = .ok rule) :
      Step s (.setLogic id logic) { s with rule }
  | toggleCollapsed {id : String} {p : Path} {rule : Rule} (found : s.rule.path? id = some p)
      (free : (Protection.ofPath p).ancestorLocked = false)
      (edited : s.rule.updateGroup id (fun g => { g with isCollapsed := !g.isCollapsed }) = .ok rule) :
      Step s (.toggleCollapsed id) { s with rule }
  | toggleLocked {id : String} {p : Path} {rule : Rule} (found : s.rule.path? id = some p)
      (free : ¬ ((Protection.ofPath p).ancestorDisabled ∧ (Protection.ofPath p).locked))
      (edited : s.rule.updateGroup id (fun g => { g with isLocked := !g.isLocked }) = .ok rule) :
      Step s (.toggleLocked id) { s with rule }
  | toggleGroup {id : String} {p : Path} {rule : Rule} (found : s.rule.path? id = some p)
      (free : (Protection.ofPath p).effectivelyLocked → (Protection.ofPath p).disabled)
      (edited : s.rule.updateGroup id (fun g => { g with isDisabled := !g.isDisabled }) = .ok rule) :
      Step s (.toggleDisabled id) { s with rule }
  | toggleFilter {id : String} {p : Path} {rule : Rule} (found : s.rule.path? id = some p)
      (free : (Protection.ofPath p).effectivelyLocked → (Protection.ofPath p).disabled)
      (edited : s.rule.updateFilter id (fun f => { f with isDisabled := !f.isDisabled }) = .ok rule) :
      Step s (.toggleDisabled id) { s with rule }
  | addFilter {parent fresh : String} {rule : Rule} (free : ¬ s.rule.Shut parent)
      (edited : s.rule.insert parent (Filter.blank fresh) none = .ok rule) :
      Step s (.addFilter parent fresh) { s with rule, editing? := some fresh }
  | addGroup {parent fresh : String} {rule : Rule} (free : ¬ s.rule.Shut parent)
      (edited : s.rule.insert parent (Group.empty fresh s.settings.newGroupName) none = .ok rule) :
      Step s (.addGroup parent fresh) { s with rule }
  | delete {id : String} {p : Path} {rule : Rule} (found : s.rule.path? id = some p)
      (below : p.isRoot = false) (free : ¬ s.rule.Barred id)
      (groupFree : p.target.isGroup → ¬ s.rule.Shut id) (edited : s.rule.remove id = .ok rule) :
      Step s (.delete id) { s with rule, editing? := s.editing?.filter rule.contains }
  | startEdit {id : String} {p : Path} (found : s.rule.path? id = some p)
      (isFilter : p.target.isGroup = false) (free : ¬ s.rule.Barred id) :
      Step s (.startEdit id) { s with editing? := some id }
  | cancelEdit : Step s .cancelEdit s.cancelEdit
  | saveFilter {id : String} {field : Field} {operator : Operator} {value : String} {rule : Rule}
      (free : ¬ s.rule.Barred id)
      (edited : s.rule.updateFilter id ({ · with field, operator, value }) = .ok rule) :
      Step s (.saveFilter id field operator value) { s with rule, editing? := none }
  | startDrag {id : String} {p : Place} (free : ¬ s.rule.Barred id) (idle : s.drag = .idle)
      (found : s.rule.locate? id = some (.inside p)) :
      Step s (.startDrag id) { s with drag := ⟨some p.node⟩ }
  | cancelDrag : Step s .cancelDrag s.cancelDrag
  | drop {candidates : List Candidate} : Step s (.drop candidates) s.cancelDrag
  | dropMoved {candidates : List Candidate} {carried : Node} {landing : Landing} {rule : Rule}
      (carries : s.drag.carried? = some carried)
      (lands : s.rule.landing? carried.id candidates = some landing)
      (free : ¬ s.rule.Shut landing.parent)
      (edited : s.rule.move carried.id landing.parent landing.index = .ok rule) :
      Step s (.drop candidates) { s with rule, drag := .idle }

theorem path_eq_ok_iff {p : Path} : s.path id = .ok p ↔ s.rule.path? id = some p := by
  unfold path
  split <;> simp_all

theorem checkGroup_cases (passed : s.checkGroup id = .ok ()) :
    ∃ p, s.rule.path? id = some p ∧ p.target.isGroup = true ∧ ¬ s.rule.Shut id := by
  obtain ⟨p, found, passed⟩ := bind_eq_ok_iff.mp passed
  have found := path_eq_ok_iff.mp found
  refine ⟨p, found, ?_⟩
  rw [Rule.shut_iff_controlsBlocked found]
  cases kind : p.target.isGroup <;> cases blocked : (Protection.ofPath p).controlsBlocked <;>
    simp [kind, blocked, bind, Except.bind, throw, throwThe, MonadExceptOf.throw] at passed ⊢

theorem checkFilter_cases (passed : s.checkFilter id = .ok ()) :
    ∃ p, s.rule.path? id = some p ∧ p.target.isGroup = false ∧ ¬ s.rule.Barred id := by
  obtain ⟨p, found, passed⟩ := bind_eq_ok_iff.mp passed
  have found := path_eq_ok_iff.mp found
  refine ⟨p, found, ?_⟩
  rw [Rule.barred_iff_parentBlocked found]
  cases kind : p.target.isGroup <;> cases blocked : (Protection.ofPath p).parentBlocked <;>
    simp [kind, blocked, bind, Except.bind, throw, throwThe, MonadExceptOf.throw] at passed ⊢

theorem keep_eq_ok_iff {edited : Except Refusal Rule} :
    s.keep edited = .ok s' ↔ ∃ rule, edited = .ok rule ∧ s' = { s with rule } := by
  cases edited <;> simp [keep, bind, Except.bind, pure, Except.pure, eq_comm]

theorem Step.of_rename {name : String} (accepted : s.rename id name = .ok s') :
    Step s (.rename id name) s' := by
  obtain ⟨⟨⟩, passed, accepted⟩ := bind_eq_ok_iff.mp accepted
  obtain ⟨p, -, -, free⟩ := checkGroup_cases passed
  obtain ⟨rule, edited, rfl⟩ := keep_eq_ok_iff.mp accepted
  exact .rename free edited

theorem Step.of_setLogic {logic : Logic} (accepted : s.setLogic id logic = .ok s') :
    Step s (.setLogic id logic) s' := by
  obtain ⟨⟨⟩, passed, accepted⟩ := bind_eq_ok_iff.mp accepted
  obtain ⟨p, -, -, free⟩ := checkGroup_cases passed
  obtain ⟨rule, edited, rfl⟩ := keep_eq_ok_iff.mp accepted
  exact .setLogic free edited

theorem Step.of_toggleCollapsed (accepted : s.toggleCollapsed id = .ok s') :
    Step s (.toggleCollapsed id) s' := by
  obtain ⟨p, found, accepted⟩ := bind_eq_ok_iff.mp accepted
  cases blocked : (Protection.ofPath p).ancestorLocked with
  | true =>
    rw [blocked] at accepted
    cases accepted
  | false =>
    rw [blocked] at accepted
    obtain ⟨rule, edited, rfl⟩ := keep_eq_ok_iff.mp accepted
    exact .toggleCollapsed (path_eq_ok_iff.mp found) blocked edited

theorem Step.of_toggleLocked (accepted : s.toggleLocked id = .ok s') :
    Step s (.toggleLocked id) s' := by
  obtain ⟨p, found, accepted⟩ := bind_eq_ok_iff.mp accepted
  dsimp only at accepted
  split at accepted
  · cases accepted
  · rename_i free
    obtain ⟨rule, edited, rfl⟩ := keep_eq_ok_iff.mp accepted
    exact .toggleLocked (path_eq_ok_iff.mp found) (by simpa using free) edited

theorem Step.of_toggleDisabled (accepted : s.toggleDisabled id = .ok s') :
    Step s (.toggleDisabled id) s' := by
  obtain ⟨p, found, accepted⟩ := bind_eq_ok_iff.mp accepted
  dsimp only at accepted
  split at accepted
  · cases accepted
  · rename_i free
    have free : (Protection.ofPath p).effectivelyLocked → (Protection.ofPath p).disabled := by
      simpa using free
    cases kind : p.target.kind with
    | group =>
      rw [kind] at accepted
      obtain ⟨rule, edited, rfl⟩ := keep_eq_ok_iff.mp accepted
      exact .toggleGroup (path_eq_ok_iff.mp found) free edited
    | filter =>
      rw [kind] at accepted
      obtain ⟨rule, edited, rfl⟩ := keep_eq_ok_iff.mp accepted
      exact .toggleFilter (path_eq_ok_iff.mp found) free edited

theorem Step.of_addFilter {parent fresh : String} (accepted : s.addFilter parent fresh = .ok s') :
    Step s (.addFilter parent fresh) s' := by
  obtain ⟨⟨⟩, passed, accepted⟩ := bind_eq_ok_iff.mp accepted
  obtain ⟨p, -, -, free⟩ := checkGroup_cases passed
  obtain ⟨kept, accepted, rest⟩ := bind_eq_ok_iff.mp accepted
  obtain ⟨rule, edited, rfl⟩ := keep_eq_ok_iff.mp accepted
  cases rest
  exact .addFilter free edited

theorem Step.of_addGroup {parent fresh : String} (accepted : s.addGroup parent fresh = .ok s') :
    Step s (.addGroup parent fresh) s' := by
  obtain ⟨⟨⟩, passed, accepted⟩ := bind_eq_ok_iff.mp accepted
  obtain ⟨p, -, -, free⟩ := checkGroup_cases passed
  obtain ⟨rule, edited, rfl⟩ := keep_eq_ok_iff.mp accepted
  exact .addGroup free edited

theorem Step.of_delete (accepted : s.delete id = .ok s') : Step s (.delete id) s' := by
  obtain ⟨p, found, accepted⟩ := bind_eq_ok_iff.mp accepted
  have found := path_eq_ok_iff.mp found
  dsimp only at accepted
  split at accepted
  · cases accepted
  · rename_i below
    by_cases blocked : (if p.target.isGroup then (Protection.ofPath p).controlsBlocked
      else (Protection.ofPath p).parentBlocked) = true
    · rw [if_pos blocked] at accepted
      cases accepted
    · rw [if_neg blocked] at accepted
      obtain ⟨kept, accepted, rest⟩ := bind_eq_ok_iff.mp accepted
      obtain ⟨rule, edited, rfl⟩ := keep_eq_ok_iff.mp accepted
      cases rest
      have groupFree : p.target.isGroup → ¬ s.rule.Shut id := by
        intro kind
        rw [Rule.shut_iff_controlsBlocked found]
        rwa [if_pos kind] at blocked
      refine .delete found (by simpa [Protection.ofPath] using below) ?_ groupFree edited
      cases kind : p.target.isGroup with
      | true => exact fun barred => groupFree kind barred.shut
      | false =>
        rw [Rule.barred_iff_parentBlocked found]
        simpa [kind] using blocked

theorem Step.of_startEdit (accepted : s.startEdit id = .ok s') : Step s (.startEdit id) s' := by
  obtain ⟨⟨⟩, passed, accepted⟩ := bind_eq_ok_iff.mp accepted
  obtain ⟨p, found, kind, free⟩ := checkFilter_cases passed
  cases accepted
  exact .startEdit found kind free

theorem Step.of_saveFilter {field : Field} {operator : Operator} {value : String}
    (accepted : s.saveFilter id field operator value = .ok s') :
    Step s (.saveFilter id field operator value) s' := by
  obtain ⟨⟨⟩, passed, accepted⟩ := bind_eq_ok_iff.mp accepted
  obtain ⟨p, -, -, free⟩ := checkFilter_cases passed
  obtain ⟨kept, accepted, rest⟩ := bind_eq_ok_iff.mp accepted
  obtain ⟨rule, edited, rfl⟩ := keep_eq_ok_iff.mp accepted
  cases rest
  exact .saveFilter free edited

theorem protection_eq_ok_iff {state : Protection} :
    s.protection id = .ok state ↔ ∃ p, s.rule.path? id = some p ∧ state = .ofPath p := by
  unfold protection path
  cases s.rule.path? id <;> simp [Except.map, eq_comm]

theorem Step.of_startDrag (accepted : s.startDrag id = .ok s') : Step s (.startDrag id) s' := by
  unfold Session.startDrag at accepted
  split at accepted
  · cases accepted
  · rename_i state known
    obtain ⟨p, found, rfl⟩ := protection_eq_ok_iff.mp known
    split at accepted
    · cases accepted
    · rename_i free
      rw [← Rule.barred_iff_parentBlocked found] at free
      obtain ⟨started, accepted, rfl⟩ : ∃ started, s.drag.start s.rule id = .ok started ∧
          { s with drag := started } = s' := by
        cases outcome : s.drag.start s.rule id with
        | error why => simp [outcome, Except.map] at accepted
        | ok started => exact ⟨started, rfl, by simpa [outcome, Except.map] using accepted⟩
      unfold Drag.start at accepted
      split at accepted
      · cases accepted
      · rename_i idle
        split at accepted
        · cases accepted
        · cases accepted
        · rename_i place located
          cases accepted
          exact .startDrag free (congrArg Drag.mk idle) located

theorem veto_eq_none_iff {landing : Landing} :
    s.veto landing = none ↔
      (∃ p, s.rule.path? landing.parent = some p) ∧ ¬ s.rule.Shut landing.parent := by
  unfold veto protection path
  cases found : s.rule.path? landing.parent with
  | none => simp [Except.map]
  | some p =>
    rw [Rule.shut_iff_controlsBlocked found]
    cases blocked : (Protection.ofPath p).controlsBlocked <;> simp [Except.map, blocked]

theorem drop_eq_moved_iff {candidates : List Candidate} {moved : Rule} :
    (s.drop candidates).2 = .moved moved ↔
      ∃ carried landing, s.drag.carried? = some carried ∧
        s.rule.landing? carried.id candidates = some landing ∧
        ((∃ p, s.rule.path? landing.parent = some p) ∧ ¬ s.rule.Shut landing.parent) ∧
        s.rule.move carried.id landing.parent landing.index = .ok moved := by
  have same : (s.drop candidates).2 = s.drag.drop s.rule candidates s.veto := by
    cases outcome : s.drag.drop s.rule candidates s.veto <;> simp only [drop, outcome]
  simp only [same, Drag.drop_eq_moved_iff, veto_eq_none_iff]

theorem Step.of_drop (candidates : List Candidate) :
    Step s (.drop candidates) (s.drop candidates).1 := by
  cases outcome : s.drag.drop s.rule candidates s.veto with
  | moved rule =>
    obtain ⟨carried, landing, carries, lands, unvetoed, edited⟩ := Drag.drop_eq_moved_iff.mp outcome
    simp only [Session.drop, outcome]
    exact .dropMoved carries lands (veto_eq_none_iff.mp unvetoed).2 edited
  | noTarget => simpa only [Session.drop, outcome] using Step.drop
  | rejected why => simpa only [Session.drop, outcome] using Step.drop
  | notDragging => simpa only [Session.drop, outcome] using Step.drop

theorem perform_cases (s : Session) (intent : Intent) :
    (s.perform intent).1 = s ∨ Step s intent (s.perform intent).1 := by
  have settled : ∀ (answer : Reply) (attempt : Except Refusal Session),
      (∀ next, attempt = .ok next → Step s intent next) →
      (s.settle answer attempt).1 = s ∨ Step s intent (s.settle answer attempt).1 := by
    intro answer attempt steps
    cases outcome : attempt with
    | error why => exact .inl rfl
    | ok next => exact .inr (steps next outcome)
  cases intent with
  | rename id name => exact settled _ _ fun _ => .of_rename
  | setLogic id logic => exact settled _ _ fun _ => .of_setLogic
  | toggleCollapsed id => exact settled _ _ fun _ => .of_toggleCollapsed
  | toggleLocked id => exact settled _ _ fun _ => .of_toggleLocked
  | toggleDisabled id => exact settled _ _ fun _ => .of_toggleDisabled
  | addFilter parent fresh => exact settled _ _ fun _ => .of_addFilter
  | addGroup parent fresh => exact settled _ _ fun _ => .of_addGroup
  | delete id => exact settled _ _ fun _ => .of_delete
  | startEdit id => exact settled _ _ fun _ => .of_startEdit
  | cancelEdit => exact .inr .cancelEdit
  | saveFilter id field operator value => exact settled _ _ fun _ => .of_saveFilter
  | startDrag id =>
    simp only [perform]
    cases accepted : s.startDrag id with
    | error why => exact .inl rfl
    | ok next => exact .inr (.of_startDrag accepted)
  | cancelDrag => exact .inr .cancelDrag
  | drop candidates => exact .inr (.of_drop candidates)

theorem Step.valid {intent : Intent} (step : Step s intent s') (valid : s.rule.Valid) :
    s'.rule.Valid ∧ s'.rule.root.id = s.rule.root.id := by
  cases step with
  | rename free edited => exact valid.updateGroup edited
  | setLogic free edited => exact valid.updateGroup edited
  | toggleCollapsed found free edited => exact valid.updateGroup edited
  | toggleLocked found free edited => exact valid.updateGroup edited
  | toggleGroup found free edited => exact valid.updateGroup edited
  | toggleFilter found free edited => exact valid.updateFilter edited
  | addFilter free edited => exact valid.insert edited
  | addGroup free edited => exact valid.insert edited
  | delete found below free groupFree edited => exact valid.remove edited
  | startEdit found isFilter free => exact ⟨valid, rfl⟩
  | cancelEdit => exact ⟨valid, rfl⟩
  | saveFilter free edited => exact valid.updateFilter edited
  | startDrag free idle found => exact ⟨valid, rfl⟩
  | cancelDrag => exact ⟨valid, rfl⟩
  | drop => exact ⟨valid, rfl⟩
  | dropMoved carries lands free edited => exact valid.move edited

theorem valid_perform (valid : s.rule.Valid) (intent : Intent) :
    (s.perform intent).1.rule.Valid ∧ (s.perform intent).1.rule.root.id = s.rule.root.id := by
  rcases s.perform_cases intent with same | step
  · rw [same]
    exact ⟨valid, rfl⟩
  · exact step.valid valid

theorem run_concat (s : Session) (intents : List Intent) (intent : Intent) :
    s.run (intents ++ [intent]) = ((s.run intents).perform intent).1 := List.foldl_concat ..

theorem valid_run (valid : s.rule.Valid) (intents : List Intent) :
    (s.run intents).rule.Valid ∧ (s.run intents).rule.root.id = s.rule.root.id := by
  induction intents using List.reverseRecOn with
  | nil => exact ⟨valid, rfl⟩
  | append_singleton intents intent ih =>
    have ⟨kept, top⟩ := valid_perform ih.1 intent
    rw [run_concat]
    exact ⟨kept, top.trans ih.2⟩

end Session

end NestedRules
