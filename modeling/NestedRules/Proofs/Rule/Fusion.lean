import NestedRules.Proofs.Rule.IdChecks
import NestedRules.Proofs.Rule.Reversal

namespace NestedRules

theorem filter_not_mem_middle {before inner after : List String}
    (distinct : (before ++ inner ++ after).Nodup) :
    (before ++ inner ++ after).filter (· ∉ inner) = before ++ after := by
  simp only [List.nodup_append, List.mem_append] at distinct
  have front : before.filter (· ∉ inner) = before := by
    apply List.filter_eq_self.mpr
    intro id earlier
    have apart : id ∉ inner := fun inside => distinct.1.2.2 id earlier id inside rfl
    simpa using apart
  have back : after.filter (· ∉ inner) = after := by
    apply List.filter_eq_self.mpr
    intro id later
    have apart : id ∉ inner := fun inside => distinct.2.2 id (.inr inside) id later rfl
    simpa using apart
  have middle : inner.filter (· ∉ inner) = [] := by simp
  rw [List.filter_append, List.filter_append, front, middle, back, List.append_nil]

namespace Rule

variable {r r' : Rule} {id : String}

theorem Swap.clash?_eq {old new : Node} (swap : Swap r r' old new) (valid : r.Valid)
    (valid' : r'.Valid) (next : Node) : r'.clash? new next = r.clash? old next := by
  obtain ⟨before, after, outgoing, incoming⟩ := swap.ids
  rw [Valid, outgoing] at valid
  rw [Valid, incoming] at valid'
  rw [clash?, clash?, outgoing, incoming, filter_not_mem_middle valid, filter_not_mem_middle valid']

theorem Valid.updateGroup_updateGroup {f : Group → Group} (valid : r.Valid)
    (accepted : r.updateGroup id f = .ok r') (g : Group → Group) :
    r'.updateGroup id g = r.updateGroup id fun old => g { f old with id } := by
  have valid' := (valid.updateGroup accepted).1
  obtain ⟨old, swap, rfl, -⟩ := swap_of_updateGroup accepted
  have judged := swap.clash?_eq valid valid'
  obtain ⟨frames, outgoing, incoming, -⟩ := swap
  have focus := valid.focus?_of_around outgoing
  have focus' := valid'.focus?_of_around incoming
  rw [Rule.updateGroup, Rule.updateGroup, focus, focus']
  dsimp only
  rw [judged]

theorem Valid.updateGroup_id (valid : r.Valid) (group : r.kind? id = some .group) :
    r.updateGroup id (fun old => old) = .ok r := by
  obtain ⟨h, cs, found⟩ := kind?_eq_group_iff.mp group
  obtain ⟨frames, rebuilt, accepted⟩ := valid.updateGroup_of_group found fun _ => rfl
  have same : h.id = id := (valid.node?_eq_some_iff.mp found).2
  rw [accepted]
  apply congrArg Except.ok
  apply eq_of_node
  rw [node, Frame.toNode_wrap, ← rebuilt, ← same]
  rfl

theorem Valid.updateFilter_updateFilter {f : Filter → Filter} (valid : r.Valid)
    (accepted : r.updateFilter id f = .ok r') (g : Filter → Filter) :
    r'.updateFilter id g = r.updateFilter id fun old => g { f old with id } := by
  have valid' := (valid.updateFilter accepted).1
  obtain ⟨old, swap, rfl, -⟩ := swap_of_updateFilter accepted
  have judged := swap.clash?_eq valid valid'
  obtain ⟨frames, outgoing, incoming, -⟩ := swap
  rcases List.eq_nil_or_concat frames with rfl | ⟨outer, fr, rfl⟩
  · -- The root is a group.
    cases outgoing
  · rw [List.concat_eq_append] at outgoing incoming
    have focus := focus?_of_locate?_inside (valid.locate?_of_around outgoing)
    have focus' := focus?_of_locate?_inside (valid'.locate?_of_around incoming)
    simp only [Place.focus, Node.id] at focus focus'
    rw [Rule.updateFilter, Rule.updateFilter, focus, focus']
    dsimp only
    rw [judged]
    rfl

theorem Valid.updateFilter_id (valid : r.Valid) (filter : r.kind? id = some .filter) :
    r.updateFilter id (fun old => old) = .ok r := by
  obtain ⟨f, found⟩ := kind?_eq_filter_iff.mp filter
  obtain ⟨p, located, kind, accepted⟩ := valid.updateFilter_of_filter found fun old => old
  obtain ⟨rebuilt, same⟩ := around_of_locate?_inside located
  rw [kind] at rebuilt same
  rw [accepted]
  apply congrArg Except.ok
  apply eq_of_node
  rw [node, Place.toNode_put, ← rebuilt, ← same]
  rfl

/-- Two updates of one node are one: the second finds the node where it was and answers, by a rule or a
    refusal, what the rule before the first would answer to both at once. To give a node back as it is
    changes nothing. -/
theorem updates_fuse (valid : r.Valid) (id : String) :
    (∀ (f g : Group → Group) (r' : Rule), r.updateGroup id f = .ok r' →
      r'.updateGroup id g = r.updateGroup id fun old => g { f old with id }) ∧
    (∀ (f g : Filter → Filter) (r' : Rule), r.updateFilter id f = .ok r' →
      r'.updateFilter id g = r.updateFilter id fun old => g { f old with id }) ∧
    (r.kind? id = some .group → r.updateGroup id (fun old => old) = .ok r) ∧
    (r.kind? id = some .filter → r.updateFilter id (fun old => old) = .ok r) :=
  ⟨fun _ g _ accepted => valid.updateGroup_updateGroup accepted g,
    fun _ g _ accepted => valid.updateFilter_updateFilter accepted g,
    valid.updateGroup_id, valid.updateFilter_id⟩

/-- A filter that the first update puts into the group `g` is in the way of the second. -/
theorem updates_fuse_twoLevels :
    (∃ r', twoLevels.updateGroup "g" (·.push (Filter.blank "c")) = .ok r' ∧
      r'.updateGroup "g" (·.push (Filter.blank "c")) = .error (.duplicateId "c")) ∧
      twoLevels.updateGroup "g" (fun old => old) = .ok twoLevels ∧
      twoLevels.updateFilter "a" (fun old => old) = .ok twoLevels := by
  obtain ⟨groups, -, group, -⟩ := updates_fuse valid_twoLevels "g"
  obtain ⟨-, -, -, filter⟩ := updates_fuse valid_twoLevels "a"
  have found : twoLevels.node? "g" = some (Group.toNode
      ⟨⟨"g", "Group", .or, false, false, false⟩, [.filter (.blank "a")]⟩) := rfl
  obtain ⟨r', accepted, -⟩ :=
    (valid_twoLevels.answersReplacement_updateGroup found (·.push (Filter.blank "c"))).1
      (by decide +kernel)
  refine ⟨⟨r', accepted, ?_⟩, group rfl, filter rfl⟩
  rw [groups _ _ r' accepted]
  decide +kernel

end Rule

end NestedRules
