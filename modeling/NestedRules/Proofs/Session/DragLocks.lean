import NestedRules.Proofs.Session.Intents

namespace NestedRules.Session

variable {s s' : Session} {id : String}

def carriedId? (s : Session) : Option String := s.drag.carried?.map Node.id

/-- While `id` was being dragged, a toggle of a group around it shut it in, and since then it has
    been dragged on and shut in. -/
def ShutDuring (start : Session) (intents : List Intent) (id : String) : Prop :=
  ∃ before toggle after group, intents = before ++ toggle :: after ∧
    (toggle = .toggleLocked group ∨ toggle = .toggleDisabled group) ∧
    (start.run before).carriedId? = some id ∧ (start.run before).rule.Encloses group id ∧
    ¬ (start.run before).rule.Barred id ∧
    ∀ since, since <+: after → (start.run (before ++ toggle :: since)).carriedId? = some id ∧
      (start.run (before ++ toggle :: since)).rule.Barred id

/-- A node that is being dragged comes to sit in a locked or disabled group by a toggle of a group
    around it and by no other intent. -/
theorem Step.barred {intent : Intent} (step : Step s intent s') (valid : s.rule.Valid)
    (carries : s'.carriedId? = some id) (barred : s'.rule.Barred id) :
    s.carriedId? = some id ∧ (s.rule.Barred id ∨ ∃ group,
      (intent = .toggleLocked group ∨ intent = .toggleDisabled group) ∧
        s.rule.Encloses group id) := by
  cases step with
  | rename free edited =>
    have kept := valid.barred_updateGroup_of_isShut edited (fun _ => rfl) (fun _ => rfl) barred
    exact ⟨carries, .inl kept⟩
  | setLogic free edited =>
    have kept := valid.barred_updateGroup_of_isShut edited (fun _ => rfl) (fun _ => rfl) barred
    exact ⟨carries, .inl kept⟩
  | toggleCollapsed found free edited =>
    have kept := valid.barred_updateGroup_of_isShut edited (fun _ => rfl) (fun _ => rfl) barred
    exact ⟨carries, .inl kept⟩
  | toggleLocked found free edited =>
    rcases valid.barred_updateGroup edited (fun _ => rfl) barred with kept | ⟨above, -⟩
    · exact ⟨carries, .inl kept⟩
    · exact ⟨carries, .inr ⟨_, .inl rfl, above⟩⟩
  | toggleGroup found free edited =>
    rcases valid.barred_updateGroup edited (fun _ => rfl) barred with kept | ⟨above, -⟩
    · exact ⟨carries, .inl kept⟩
    · exact ⟨carries, .inr ⟨_, .inr rfl, above⟩⟩
  | toggleFilter found free edited => exact ⟨carries, .inl (valid.barred_updateFilter edited barred)⟩
  | addFilter free edited =>
    exact ⟨carries, .inl ((valid.barred_insert edited rfl barred).resolve_right free)⟩
  | addGroup free edited =>
    exact ⟨carries, .inl ((valid.barred_insert edited rfl barred).resolve_right free)⟩
  | delete found below free groupFree edited =>
    exact ⟨carries, .inl (valid.barred_remove edited barred)⟩
  | startEdit found isFilter free => exact ⟨carries, .inl barred⟩
  | cancelEdit => exact ⟨carries, .inl barred⟩
  | saveFilter free edited => exact ⟨carries, .inl (valid.barred_updateFilter edited barred)⟩
  | startDrag free idle found =>
    obtain rfl := Option.some.inj carries
    rw [(Rule.around_of_locate?_inside found).2] at barred
    exact absurd barred free
  | cancelDrag => cases carries
  | drop => cases carries
  | dropMoved carried lands free edited => cases carries

theorem ShutDuring.concat {start : Session} {intents : List Intent} {intent : Intent}
    (earlier : start.ShutDuring intents id)
    (carries : (start.run (intents ++ [intent])).carriedId? = some id)
    (barred : (start.run (intents ++ [intent])).rule.Barred id) :
    start.ShutDuring (intents ++ [intent]) id := by
  obtain ⟨before, toggle, after, group, rfl, toggles, carried, above, free, lasts⟩ := earlier
  rw [List.append_assoc] at carries barred
  refine ⟨before, toggle, after ++ [intent], group, List.append_assoc .., toggles, carried, above,
    free, ?_⟩
  intro since upTo
  rcases List.prefix_concat_iff.mp upTo with rfl | upTo
  · exact ⟨carries, barred⟩
  · exact lasts since upTo

theorem shutDuring_of_barred {rule : Rule} {settings : Settings} {intents : List Intent}
    (valid : rule.Valid) (carries : ((ofRule rule settings).run intents).carriedId? = some id)
    (barred : ((ofRule rule settings).run intents).rule.Barred id) :
    (ofRule rule settings).ShutDuring intents id := by
  induction intents using List.reverseRecOn with
  | nil => cases carries
  | append_singleton intents intent ih =>
    have carriesNow := carries
    have barredNow := barred
    rw [run_concat] at carriesNow barredNow
    rcases perform_cases ((ofRule rule settings).run intents) intent with same | step
    · rw [same] at carriesNow barredNow
      exact (ih carriesNow barredNow).concat carries barred
    · obtain ⟨carried, origin⟩ := step.barred (valid_run valid intents).1 carriesNow barredNow
      by_cases was : ((ofRule rule settings).run intents).rule.Barred id
      · exact (ih carried was).concat carries barred
      · obtain ⟨group, toggles, above⟩ := origin.resolve_left was
        refine ⟨intents, intent, [], group, rfl, toggles, carried, above, was, ?_⟩
        intro since upTo
        rw [List.prefix_nil.mp upTo]
        exact ⟨carries, barred⟩

theorem barred_of_shutDuring {start : Session} {intents : List Intent}
    (shut : start.ShutDuring intents id) : (start.run intents).rule.Barred id := by
  obtain ⟨before, toggle, after, group, rfl, -, -, -, -, lasts⟩ := shut
  exact (lasts after (List.prefix_refl after)).2

theorem shutDuring_iff_barred {rule : Rule} {settings : Settings} {intents : List Intent}
    (valid : rule.Valid) (carries : ((ofRule rule settings).run intents).carriedId? = some id) :
    (ofRule rule settings).ShutDuring intents id ↔
      ((ofRule rule settings).run intents).rule.Barred id :=
  ⟨barred_of_shutDuring, shutDuring_of_barred valid carries⟩

/-- A drop that moves its node puts it into a group that is open, as are the groups around that group.
    The groups that it takes the node out of are open too, unless one was shut during the drag. -/
theorem drop_leaves_open_iff {rule moved : Rule} {settings : Settings} {intents : List Intent}
    {candidates : List Candidate} (valid : rule.Valid)
    (dropped : (((ofRule rule settings).run intents).perform (.drop candidates)).2 =
      .dropped (.moved moved)) :
    let s := (ofRule rule settings).run intents
    ∃ id landing source target, s.carriedId? = some id ∧
      s.rule.landing? id candidates = some landing ∧
      s.rule.move id landing.parent landing.index = .ok moved ∧
      s.rule.path? id = some source ∧ s.rule.path? landing.parent = some target ∧
      (∀ g ∈ target.nodes, g.isShut = false) ∧
      ((∀ g ∈ source.above, g.isShut = false) ↔ ¬ (ofRule rule settings).ShutDuring intents id) := by
  have outcome := Reply.dropped.inj dropped
  obtain ⟨carried, landing, carries, lands, ⟨⟨target, into⟩, free⟩, edited⟩ :=
    drop_eq_moved_iff.mp outcome
  have carriesId : ((ofRule rule settings).run intents).carriedId? = some carried.id := by
    rw [carriedId?, carries, Option.map_some]
  obtain ⟨place, -, located, -, -, -, -⟩ := Rule.move_cases edited
  obtain ⟨source, outOf⟩ := Rule.exists_path? (Rule.mem_ids_of_locate? located)
  refine ⟨carried.id, landing, source, target, carriesId, lands, edited, outOf, into, ?_, ?_⟩
  · intro g member
    by_contra shut
    exact free ⟨target, into, g, member, by simpa using shut⟩
  · rw [shutDuring_iff_barred valid carriesId]
    simp [Rule.Barred, outOf]

def lockedLevels : Rule :=
  ⟨⟨⟨"root", "Rule", .and, false, false, false⟩,
    [.group ⟨"g", "Group", .or, true, false, false⟩ [.filter (.blank "a")], .filter (.blank "b")]⟩⟩

theorem rule_run_lock :
    ((ofRule Rule.twoLevels .default).run [.startDrag "a", .toggleLocked "g"]).rule =
      lockedLevels := by
  decide +kernel

theorem drop_lock :
    (((ofRule Rule.twoLevels .default).run [.startDrag "a", .toggleLocked "g"]).drop [.root]).2 =
      .moved ⟨⟨⟨"root", "Rule", .and, false, false, false⟩,
        [.group ⟨"g", "Group", .or, true, false, false⟩ [], .filter (.blank "b"),
          .filter (.blank "a")]⟩⟩ := by
  decide +kernel

theorem drop_leaves_open_twoLevels :
    ¬ (ofRule Rule.twoLevels .default).ShutDuring [.startDrag "a"] "a" ∧
      (ofRule Rule.twoLevels .default).ShutDuring [.startDrag "a", .toggleLocked "g"] "a" := by
  constructor
  · obtain ⟨moved, dropped⟩ : ∃ moved,
        (((ofRule Rule.twoLevels .default).run [.startDrag "a"]).perform (.drop [.root])).2 =
          .dropped (.moved moved) := ⟨_, rfl⟩
    obtain ⟨id, landing, source, target, carries, -, -, outOf, -, -, free⟩ :=
      drop_leaves_open_iff Rule.valid_twoLevels dropped
    obtain rfl : "a" = id := Option.some.inj carries
    obtain rfl := Option.some.inj outOf
    exact free.mp (by decide)
  · obtain ⟨id, landing, source, target, carries, -, -, outOf, -, -, free⟩ :=
      drop_leaves_open_iff Rule.valid_twoLevels (congrArg Reply.dropped drop_lock)
    have dragged : ((ofRule Rule.twoLevels .default).run
      [.startDrag "a", .toggleLocked "g"]).carriedId? = some "a" := by decide +kernel
    obtain rfl : "a" = id := Option.some.inj (dragged.symm.trans carries)
    rw [rule_run_lock] at outOf
    obtain rfl := Option.some.inj outOf
    by_contra still
    exact absurd (free.mpr still) (by decide)

/-- The group `g` is locked while `a` is dragged out of it, and the drop goes through all the same. -/
theorem drop_takes_out_of_locked :
    let s := (ofRule Rule.twoLevels .default).run [.startDrag "a", .toggleLocked "g"]
    Rule.twoLevels.Valid ∧ s.carriedId? = some "a" ∧
      (∃ moved, (s.perform (.drop [.root])).2 = .dropped (.moved moved)) ∧
      ∃ source, s.rule.path? "a" = some source ∧ ∃ g ∈ source.above, g.isLocked = true := by
  refine ⟨Rule.valid_twoLevels, by decide +kernel, ⟨_, congrArg Reply.dropped drop_lock⟩, ?_⟩
  rw [rule_run_lock]
  exact ⟨_, rfl, by decide⟩

end NestedRules.Session
