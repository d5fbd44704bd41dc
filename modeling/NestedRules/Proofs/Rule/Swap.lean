import NestedRules.Proofs.Rule.Lookup

namespace NestedRules.Rule

variable {r r' : Rule} {id : String}

/-- The second rule is the first with the subtree `new`, which has the id of `old`, in the place of
    `old`. -/
def Swap (r r' : Rule) (old new : Node) : Prop :=
  ∃ frames, Frame.around frames old = r.node ∧ Frame.around frames new = r'.node ∧ new.id = old.id

theorem Swap.rows {old new : Node} (swap : Swap r r' old new) :
    ∃ before after, r.rows = before ++ old.rows ++ after ∧ r'.rows = before ++ new.rows ++ after := by
  obtain ⟨frames, outgoing, incoming, same⟩ := swap
  obtain ⟨before, after, split⟩ := Frame.rows_around frames old.id
  refine ⟨before, after, ?_, ?_⟩
  · rw [Rule.rows, ← outgoing, split old rfl]
  · rw [Rule.rows, ← incoming, split new same]

theorem Swap.ids {old new : Node} (swap : Swap r r' old new) :
    ∃ before after, r.ids = before ++ old.ids ++ after ∧ r'.ids = before ++ new.ids ++ after := by
  obtain ⟨before, after, outgoing, incoming⟩ := swap.rows
  refine ⟨before.map Row.id, after.map Row.id, ?_, ?_⟩
  · simp [← map_id_rows, outgoing, Node.map_id_rows]
  · simp [← map_id_rows, incoming, Node.map_id_rows]

theorem Swap.root_id {old new : Node} (swap : Swap r r' old new) : r'.root.id = r.root.id := by
  obtain ⟨frames, outgoing, incoming, same⟩ := swap
  rw [← id_node, ← id_node, ← outgoing, ← incoming]
  exact Frame.id_around same

theorem Swap.valid {old new : Node} (swap : Swap r r' old new) (valid : r.Valid)
    (distinct : new.ids.Nodup) (unused : ∀ id ∈ new.ids, id ∈ r.ids → id ∈ old.ids) : r'.Valid := by
  obtain ⟨before, after, outgoing, incoming⟩ := swap.ids
  rw [Valid, outgoing] at valid
  rw [Valid, incoming]
  simp only [outgoing, List.mem_append] at unused
  simp only [List.nodup_append, List.mem_append] at valid ⊢
  grind

theorem around_of_focus?_group {frames : List Frame} {g : Group}
    (found : r.focus? id = some (.group frames g)) :
    Frame.around frames g.toNode = r.node ∧ g.id = id := by
  unfold focus? at found
  split at found
  · rename_i top
    cases found
    exact ⟨rfl, top⟩
  · cases below : r.node.place? id with
    | none => simp [below] at found
    | some p =>
      have ⟨rebuilt, same⟩ := Node.around_of_place? _ below
      simp only [below, Option.map_some, Option.some.injEq, Place.focus] at found
      split at found
      · rename_i h cs kind
        cases found
        exact ⟨by rw [← rebuilt, kind]; rfl, by rw [← same, kind]; rfl⟩
      · cases found

theorem around_of_focus?_filter {p : Place} {f : Filter}
    (found : r.focus? id = some (.filter p f)) :
    Frame.around p.frames (.filter f) = r.node ∧ f.id = id := by
  unfold focus? at found
  split at found
  · cases found
  · cases below : r.node.place? id with
    | none => simp [below] at found
    | some q =>
      have ⟨rebuilt, same⟩ := Node.around_of_place? _ below
      simp only [below, Option.map_some, Option.some.injEq, Place.focus] at found
      split at found
      · cases found
      · rename_i g kind
        cases found
        exact ⟨by rw [← rebuilt, kind], by rw [← same, kind]; rfl⟩

theorem clash?_eq_none_iff {old new : Node} :
    r.clash? old new = none ↔ new.ids.Nodup ∧ ∀ id ∈ new.ids, id ∈ r.ids → id ∈ old.ids := by
  rw [clash?, firstRepeat?_eq_none_iff]
  simp

theorem swap_of_updateGroup {f : Group → Group} (accepted : r.updateGroup id f = .ok r') :
    ∃ old : Group, Swap r r' old.toNode { f old with id }.toNode ∧ old.id = id ∧
      r.clash? old.toNode { f old with id }.toNode = none := by
  unfold updateGroup at accepted
  split at accepted
  · cases accepted
  · cases accepted
  · rename_i frames old found
    dsimp only at accepted
    split at accepted
    · cases accepted
    · rename_i free
      cases accepted
      have ⟨rebuilt, same⟩ := around_of_focus?_group found
      exact ⟨old, ⟨frames, rebuilt, (Frame.toNode_wrap ..).symm, same.symm⟩, same, free⟩

theorem swap_of_updateFilter {f : Filter → Filter} (accepted : r.updateFilter id f = .ok r') :
    ∃ old : Filter, Swap r r' (.filter old) (.filter { f old with id }) ∧ old.id = id ∧
      r.clash? (.filter old) (.filter { f old with id }) = none := by
  unfold updateFilter at accepted
  split at accepted
  · cases accepted
  · cases accepted
  · rename_i p old found
    dsimp only at accepted
    split at accepted
    · cases accepted
    · rename_i free
      cases accepted
      have ⟨rebuilt, same⟩ := around_of_focus?_filter found
      exact ⟨old, ⟨p.frames, rebuilt, (p.toNode_put _).symm, same.symm⟩, same, free⟩

theorem swap_of_attach {n : Node} {index : Option Nat} (accepted : r.attach id n index = .ok r') :
    ∃ g : Group, g.id = id ∧
      Swap r r' g.toNode (g.insert (index.getD g.children.length) n).toNode := by
  unfold attach at accepted
  split at accepted
  · cases accepted
  · cases accepted
  · rename_i frames g found
    cases accepted
    have ⟨rebuilt, same⟩ := around_of_focus?_group found
    exact ⟨g, same, frames, rebuilt, (Frame.toNode_wrap ..).symm, rfl⟩

theorem insert_cases {n : Node} {index : Option Nat} (accepted : r.insert id n index = .ok r') :
    firstRepeat? r.ids n.ids = none ∧ r.attach id n index = .ok r' := by
  unfold insert at accepted
  split at accepted
  · cases accepted
  · exact ⟨by assumption, accepted⟩

theorem swap_without {p : Place} (found : r.locate? id = some (.inside p)) :
    Swap r ⟨p.without⟩ p.parent.toNode p.frame.close.toNode := by
  refine ⟨p.outer, ?_, p.toNode_without.symm, rfl⟩
  rw [← (around_of_locate?_inside found).1, Place.frames, Frame.around_append]
  rfl

theorem remove_cases (accepted : r.remove id = .ok r') :
    ∃ p, r.locate? id = some (.inside p) ∧ r' = ⟨p.without⟩ := by
  unfold remove at accepted
  split at accepted
  · cases accepted
  · cases accepted
  · rename_i p found
    cases accepted
    exact ⟨p, found, rfl⟩

/-- An accepted move takes the source out of its place, which is neither the root nor around the
    destination, and puts it into the destination, a group. -/
theorem move_cases {source dest : String} {index : Nat}
    (accepted : r.move source dest index = .ok r') :
    ∃ p target, r.locate? source = some (.inside p) ∧ r.locate? dest = some target ∧
      ¬ (p.node.isGroup ∧ source ∈ (r.ancestors? dest).getD []) ∧ target.node.isGroup ∧
      attach ⟨p.without⟩ dest p.node
        (some (if p.parent.id = dest ∧ p.index < index then index - 1 else index)) = .ok r' := by
  unfold move at accepted
  split at accepted
  · cases accepted
  · cases accepted
  · cases accepted
  · rename_i p target sourceFound destFound
    split at accepted
    · cases accepted
    · rename_i apart
      split at accepted
      · cases accepted
      · rename_i group
        exact ⟨p, target, sourceFound, destFound, by simpa using apart, by simpa using group, accepted⟩

end NestedRules.Rule
