import NestedRules.Proofs.Rule.Kind
import NestedRules.Proofs.Session.Intents

namespace NestedRules

namespace Session

variable {start s s' : Session} {id : String}

/-- What runs of intents keep of a session: a group for the root under the id that it had at the
    start, ids of which none occurs twice, a filter of the rule open for editing if any, a drag of
    anything but the root if any, and the settings. -/
structure Sound (start s : Session) : Prop where
  root_kind : s.rule.node.kind = .group
  root_id : s.rule.root.id = start.rule.root.id
  distinct : s.rule.ids.Nodup
  editing : ∀ id, s.editing? = some id → ∃ f, s.rule.node? id = some (.filter f)
  dragging : ∀ n, s.drag.carried? = some n → n.id ≠ s.rule.root.id
  settings : s.settings = start.settings

inductive Opened : Session → Prop
  | ofRule (rule : Rule) (settings : Settings) (valid : rule.Valid) : Opened (ofRule rule settings)
  | fresh (rootId : String) (settings : Settings) : Opened (fresh rootId settings)

theorem Opened.sound (opened : Opened s) : Sound s s := by
  cases opened with
  | ofRule rule settings valid => exact ⟨rfl, rfl, valid, nofun, nofun, rfl⟩
  | fresh rootId settings => exact ⟨rfl, rfl, Rule.valid_empty .., nofun, nofun, rfl⟩

theorem Step.settings {intent : Intent} (step : Step s intent s') : s'.settings = s.settings := by
  cases step <;> rfl

theorem Step.carried {intent : Intent} {n : Node} (step : Step s intent s')
    (carries : s'.drag.carried? = some n) :
    s.drag.carried? = some n ∨ n.id ≠ s.rule.root.id := by
  cases step with
  | startDrag free idle found =>
    obtain rfl := Option.some.inj carries
    rw [(Rule.around_of_locate?_inside found).2]
    exact .inr (Ne.symm (Rule.place?_of_locate?_inside found).2)
  | cancelDrag | drop | dropMoved => cases carries
  | _ => exact .inl carries

theorem Step.editing {intent : Intent} (step : Step s intent s') (valid : s.rule.Valid)
    (before : s.editing? = some id → s.rule.kind? id = some .filter)
    (editing : s'.editing? = some id) : s'.rule.kind? id = some .filter := by
  cases step with
  | rename free edited | setLogic free edited =>
    rw [valid.kind?_updateGroup edited (fun _ => rfl), before editing]
  | toggleCollapsed found free edited | toggleLocked found free edited
  | toggleGroup found free edited =>
    rw [valid.kind?_updateGroup edited (fun _ => rfl), before editing]
  | toggleFilter found free edited => rw [valid.kind?_updateFilter edited, before editing]
  | addFilter free edited =>
    obtain rfl := Option.some.inj editing
    exact valid.kind?_insert_new edited
  | addGroup free edited =>
    rw [valid.kind?_insert edited (Rule.mem_ids_of_kind? (before editing)), before editing]
  | delete found below free groupFree edited =>
    obtain ⟨was, still⟩ := Option.filter_eq_some_iff.mp editing
    rw [valid.kind?_remove edited (List.contains_iff_mem.mp still), before was]
  | @startEdit edited p found isFilter free =>
    obtain rfl := Option.some.inj editing
    rw [Rule.kind?_eq_filter_iff, Rule.node?_of_path? found]
    cases kind : p.target with
    | group h cs =>
      rw [kind] at isFilter
      cases isFilter
    | filter f => exact ⟨f, rfl⟩
  | cancelEdit | saveFilter => cases editing
  | startDrag | cancelDrag | drop => exact before editing
  | dropMoved carries lands free edited =>
    rw [Rule.kind?, valid.own?_move edited]
    exact before editing

theorem Step.sound {intent : Intent} (step : Step s intent s') (sound : Sound start s) :
    Sound start s' := by
  obtain ⟨valid', root⟩ := step.valid sound.distinct
  refine ⟨rfl, root.trans sound.root_id, valid', fun id editing => ?_, fun n carries => ?_,
    step.settings.trans sound.settings⟩
  · rw [← Rule.kind?_eq_filter_iff]
    refine step.editing sound.distinct (fun before => ?_) editing
    exact Rule.kind?_eq_filter_iff.mpr (sound.editing id before)
  · rw [root]
    exact (step.carried carries).elim (sound.dragging n) fun other => other

theorem Sound.perform (sound : Sound start s) (intent : Intent) :
    Sound start (s.perform intent).1 := by
  rcases s.perform_cases intent with same | step
  · rwa [same]
  · exact step.sound sound

/-- However a session starts, it is sound after any run of intents, refused ones among them. -/
theorem sound_run (opened : Opened start) (intents : List Intent) :
    Sound start (start.run intents) := by
  induction intents using List.reverseRecOn with
  | nil => exact opened.sound
  | append_singleton intents intent ih =>
    rw [run_concat]
    exact ih.perform intent

theorem sound_run_fresh :
    let s := (fresh "root" .default).run [.addGroup "root" "g", .addFilter "g" "f", .startDrag "f",
      .delete "g", .addFilter "root" "e"]
    s.rule.root.id = "root" ∧ s.rule.ids.Nodup ∧ (∃ f, s.rule.node? "e" = some (.filter f)) ∧
      s.drag.carried?.map Node.id = some "f" ∧ "f" ≠ s.rule.root.id := by
  have sound := sound_run (.fresh "root" .default) [.addGroup "root" "g", .addFilter "g" "f",
    .startDrag "f", .delete "g", .addFilter "root" "e"]
  have carries : ((fresh "root" .default).run [.addGroup "root" "g", .addFilter "g" "f",
      .startDrag "f", .delete "g", .addFilter "root" "e"]).drag.carried? =
        some (.filter (.blank "f")) := by decide +kernel
  refine ⟨sound.root_id, sound.distinct, sound.editing "e" (by decide +kernel), ?_,
    sound.dragging _ carries⟩
  rw [carries]
  rfl

end Session

end NestedRules
