import NestedRules.Proofs.Node.Gap
import NestedRules.Proofs.Rule.MoveAnswers
import NestedRules.Proofs.Rule.Placement
import NestedRules.Proofs.Rule.Standing

namespace NestedRules

namespace Group

def gap (g : Group) (i : Nat) : Frame := ⟨g.toHeader, g.children.take i, g.children.drop i⟩

theorem fill_gap (g : Group) (i : Nat) (n : Node) : (g.gap i).fill n = g.insert i n := rfl

theorem close_gap (g : Group) (i : Nat) : (g.gap i).close = g := by
  rw [Frame.close, gap, List.take_append_drop]

theorem length_before_gap (g : Group) (i : Nat) :
    (g.gap i).before.length = min i g.children.length := List.length_take

end Group

theorem Frame.insert_close (fr : Frame) (n : Node) :
    fr.close.insert fr.before.length n = fr.fill n := by
  rw [Group.insert, close, fill, List.take_left, List.drop_left]

namespace Rule

variable {r r' : Rule} {id : String} {p : Place}

section

variable {outer frames : List Frame} {fr : Frame} {n : Node} {g : Group}

theorem Valid.locate?_of_around (valid : r.Valid)
    (rebuilt : Frame.around (outer ++ [fr]) n = r.node) :
    r.locate? n.id = some (.inside ⟨outer, fr, n⟩) := by
  rw [Valid, ids, ← rebuilt] at valid
  rw [locate?, ← rebuilt]
  exact Frame.locate?_around valid

theorem Valid.focus?_of_around (valid : r.Valid) (rebuilt : Frame.around frames g.toNode = r.node) :
    r.focus? g.id = some (.group frames g) := by
  rcases List.eq_nil_or_concat frames with rfl | ⟨outer, fr, rfl⟩
  · obtain rfl : ⟨g⟩ = r := eq_of_node rebuilt
    exact if_pos rfl
  · rw [List.concat_eq_append] at rebuilt ⊢
    exact focus?_of_locate?_inside (valid.locate?_of_around rebuilt)

/-- What has been put into a group stands, in the new rule, in a gap of the old one. -/
theorem Valid.exists_place_of_attach {index : Option Nat} (valid : r.Valid) (valid' : r'.Valid)
    (attached : r.attach id n index = .ok r') :
    ∃ q g, r'.locate? n.id = some (.inside q) ∧ q.node = n ∧ ⟨q.without⟩ = r ∧ q.parent.id = id ∧
      r.node? id = some (Group.toNode g) ∧
      q.index = min (index.getD g.children.length) g.children.length := by
  obtain ⟨g, rfl, frames, outgoing, incoming, -⟩ := swap_of_attach attached
  have gap : Frame.around (frames ++ [g.gap (index.getD g.children.length)]) n = r'.node := by
    rw [Frame.around_append, Frame.around, Frame.around, Group.fill_gap, incoming]
  have left : (⟨Frame.wrap frames (g.gap (index.getD g.children.length)).close⟩ : Rule) = r := by
    apply eq_of_node
    rw [node, Frame.toNode_wrap, g.close_gap, outgoing]
  exact ⟨_, g, valid'.locate?_of_around gap, rfl, left, rfl, valid.node?_of_around outgoing,
    g.length_before_gap _⟩

end

def eraseFrom (r : Rule) (parent id : String) (position? : Group → Option Nat) :
    Except Refusal Rule :=
  match r.focus? parent with
  | none => .error (.unresolved parent)
  | some (.filter ..) => .error (.wrongKind parent .group)
  | some (.group around g) =>
    match position? g with
    | none => .error (.unresolved id)
    | some i => .ok ⟨Frame.wrap around { g with children := g.children.eraseIdx i }⟩

section

variable (valid : r.Valid) (found : r.locate? id = some (.inside p))

include found

theorem remove_of_locate? : r.remove id = .ok ⟨p.without⟩ := by rw [Rule.remove, found]

include valid

theorem Valid.node?_parent : r.node? p.parent.id = some p.parent.toNode := by
  have rebuilt := (around_of_locate?_inside found).1
  rw [Place.frames, Frame.around_append] at rebuilt
  exact valid.node?_of_around (n := p.parent) rebuilt

theorem Valid.detached : (⟨p.without⟩ : Rule).Valid :=
  (List.nodup_append.mp (valid.without found)).1

theorem Valid.parent_not_mem : p.parent.id ∉ p.node.ids := by
  intro inside
  have parent := (valid.detached found).node?_of_around (n := p.frame.close) p.toNode_without.symm
  have apart := (List.nodup_append.mp (valid.without found)).2.2
  exact apart p.parent.id (mem_ids_of_node? parent) p.parent.id inside rfl

/-- A removal may look for the node again in the group that it is a member of, and a move may go by the
    position that it found before: either erases the member that `without` leaves out. -/
theorem Valid.remove_eq_eraseFrom :
    r.remove id = r.eraseFrom p.parent.id id (·.position? id) ∧
      r.remove id = r.eraseFrom p.parent.id id fun _ => some p.index := by
  obtain ⟨rebuilt, same⟩ := around_of_locate?_inside found
  rw [Place.frames, Frame.around_append] at rebuilt
  have focus : r.focus? p.parent.id = some (.group p.outer p.parent) :=
    valid.focus?_of_around rebuilt
  have distinct : p.parent.toNode.ids.Nodup := by
    rw [Valid, ids, ← rebuilt] at valid
    exact Frame.nodup_of_around valid
  have position : p.parent.position? id = some p.index := same ▸ Frame.position?_fill distinct
  have erased : { p.parent with children := p.parent.children.eraseIdx p.index } = p.frame.close :=
    (Frame.close_eq_eraseIdx p.frame p.node).symm
  have removed : r.remove id = .ok ⟨Frame.wrap p.outer p.frame.close⟩ := remove_of_locate? found
  constructor
  · rw [removed, ← erased, eraseFrom, focus]
    dsimp only
    rw [position]
  · rw [removed, ← erased, eraseFrom, focus]

theorem Valid.insert_detached (parent : String) (index : Option Nat) :
    Rule.insert ⟨p.without⟩ parent p.node index = attach ⟨p.without⟩ parent p.node index := by
  obtain ⟨-, distinct, apart⟩ := List.nodup_append.mp (valid.without found)
  have fresh : ∀ x ∈ p.node.ids, x ∉ (⟨p.without⟩ : Rule).ids := by
    intro x inside known
    exact apart x known x inside rfl
  rw [Rule.insert, firstRepeat?_eq_none_iff.mpr ⟨distinct, fresh⟩]

theorem Valid.attach_detached :
    attach ⟨p.without⟩ p.parent.id p.node (some p.index) = .ok r := by
  have focus := (valid.detached found).focus?_of_around (g := p.frame.close) p.toNode_without.symm
  have parent : p.parent.id = p.frame.close.id := rfl
  rw [attach, parent, focus]
  apply congrArg Except.ok
  apply eq_of_node
  rw [node, Frame.toNode_wrap, Option.getD_some, Place.index, Frame.insert_close,
    ← (around_of_locate?_inside found).1, Place.frames, Frame.around_append]
  rfl

end

/-- A node that an insertion puts in stands in its group at the index, or last where there is no such
    position, and its removal gives the rule before the insertion. A removal takes the subtree of its
    node and nothing else, and to insert the node at the position that it had gives the rule before the
    removal. -/
theorem insert_remove_inverse (valid : r.Valid) :
    (∀ parent n index r', r.insert parent n index = .ok r' →
      r'.remove n.id = .ok r ∧
        ∃ q members, r'.locate? n.id = some (.inside q) ∧ q.node = n ∧ q.parent.id = parent ∧
          r.members? parent = some members ∧
          q.index = min (index.getD members.length) members.length) ∧
      ∀ id ∈ r.ids, id ≠ r.root.id →
        ∃ p r', r.locate? id = some (.inside p) ∧ r.remove id = .ok r' ∧
          (∀ x, x ∈ r'.ids ↔ x ∈ r.ids ∧ x ∉ r.subtreeIds id) ∧
          r'.insert p.parent.id p.node (some p.index) = .ok r := by
  constructor
  · intro parent n index r' accepted
    have attached := (insert_cases accepted).2
    obtain ⟨q, g, found, node, left, inside, group, position⟩ :=
      valid.exists_place_of_attach (valid.insert accepted).1 attached
    have removed : r'.remove n.id = .ok r := by rw [remove_of_locate? found, left]
    have stored : r.members? parent = some (g.children.map Node.id) := by
      rw [members?, group]
      rfl
    refine ⟨removed, q, _, found, node, inside, stored, ?_⟩
    rw [position, List.length_map]
  · intro id known below
    obtain ⟨p, found⟩ := exists_locate?_inside known (Ne.symm below)
    have kept (x : String) :
        x ∈ (⟨p.without⟩ : Rule).ids ↔ x ∈ r.ids ∧ x ∉ r.subtreeIds id := by
      have apart := (List.nodup_append.mp (valid.without found)).2.2
      rw [subtreeIds_of_locate? found, (ids_without valid found).mem_iff, List.mem_append]
      grind
    refine ⟨p, _, found, remove_of_locate? found, kept, ?_⟩
    rw [valid.insert_detached found, valid.attach_detached found]

/-- The index 9 is past the end of `g`, which has one member; with `g` goes `a`. -/
theorem insert_remove_inverse_twoLevels :
    (∃ r' q, twoLevels.insert "g" (Group.empty "h" "New") (some 9) = .ok r' ∧
      r'.remove "h" = .ok twoLevels ∧ r'.locate? "h" = some (.inside q) ∧ q.index = 1) ∧
      ∃ p r', twoLevels.remove "g" = .ok r' ∧ "a" ∉ r'.ids ∧
        twoLevels.locate? "g" = some (.inside p) ∧
        r'.insert p.parent.id p.node (some p.index) = .ok twoLevels := by
  obtain ⟨removes, inserts⟩ := insert_remove_inverse valid_twoLevels
  obtain ⟨r', accepted⟩ : ∃ r', twoLevels.insert "g" (Group.empty "h" "New") (some 9) = .ok r' :=
    insert_of_group rfl (by decide +kernel) (by decide +kernel) _
  obtain ⟨removed, q, members, found, -, -, stored, position⟩ := removes _ _ _ _ accepted
  obtain rfl : ["a"] = members := Option.some.inj stored
  obtain ⟨p, u, located, detached, kept, inserted⟩ :=
    inserts "g" (by decide +kernel) (by decide)
  refine ⟨⟨r', q, accepted, removed, found, position⟩, p, u, detached, fun known => ?_, located,
    inserted⟩
  exact ((kept "a").mp known).2 (by decide +kernel)

/-- A move is the removal of its source and an insertion into the destination, which is still there.
    The index of the insertion is that of the move, less one where the source stood before it. -/
theorem move_two_steps {source dest : String} {index : Nat} (valid : r.Valid)
    (accepted : r.move source dest index = .ok r') :
    ∃ p u path, r.locate? source = some (.inside p) ∧ r.remove source = .ok u ∧
      u.path? dest = some path ∧
      u.insert path.targetId p.node
        (some (if p.parent.id = dest ∧ p.index < index then index - 1 else index)) = .ok r' := by
  obtain ⟨p, target, found, -, -, -, attached⟩ := move_cases accepted
  obtain ⟨path, route⟩ := exists_path? (mem_ids_of_attach attached)
  have aimed : path.targetId = dest :=
    ((valid.detached found).node?_eq_some_iff.mp (node?_of_path? route)).2
  refine ⟨p, _, path, found, remove_of_locate? found, route, ?_⟩
  rw [aimed, valid.insert_detached found, attached]

/-- The group `g` goes behind its sibling, which is by one position and not by two. -/
theorem move_two_steps_twoLevels :
    ∃ r' p u path, twoLevels.move "g" "root" 2 = .ok r' ∧
      twoLevels.locate? "g" = some (.inside p) ∧ twoLevels.remove "g" = .ok u ∧
      u.path? "root" = some path ∧ u.insert path.targetId p.node (some 1) = .ok r' := by
  obtain ⟨r', accepted⟩ : ∃ r', twoLevels.move "g" "root" 2 = .ok r' := ⟨_, rfl⟩
  obtain ⟨p, u, path, found, removed, route, inserted⟩ := move_two_steps valid_twoLevels accepted
  have located : twoLevels.locate? "g" = some (.inside ⟨_, _, _⟩) := rfl
  obtain rfl := Location.inside.inj (Option.some.inj (located.symm.trans found))
  exact ⟨r', _, u, path, accepted, found, removed, route, inserted⟩

/-- One move takes a move back: it aims at the old group of the source and at the old position there,
    where the index counts the source itself if that stands before it now. -/
theorem move_undone {source dest : String} {index : Nat} (valid : r.Valid)
    (accepted : r.move source dest index = .ok r') :
    ∃ p q, r.locate? source = some (.inside p) ∧ r'.locate? source = some (.inside q) ∧
      r'.move source p.parent.id
        (if p.parent.id = dest ∧ q.index < p.index then p.index + 1 else p.index) = .ok r := by
  obtain ⟨p, target, found, -, -, -, attached⟩ := move_cases accepted
  have valid' := (valid.move accepted).1
  obtain ⟨q, g, found', node, left, parent, -, -⟩ :=
    (valid.detached found).exists_place_of_attach valid' attached
  rw [(around_of_locate?_inside found).2] at found'
  have outside : p.parent.id ∉ r'.subtreeIds source := by
    rw [subtreeIds_of_locate? found', node]
    exact valid.parent_not_mem found
  have group : r'.kind? p.parent.id = some .group := by
    rw [kind?, valid.own?_move accepted, own?, valid.node?_parent found]
    rfl
  refine ⟨p, q, found, found', ?_⟩
  generalize counted : (if p.parent.id = dest ∧ q.index < p.index then p.index + 1 else p.index) = k
  have shifted : (if q.parent.id = p.parent.id ∧ q.index < k then k - 1 else k) = p.index := by
    rw [parent]
    grind
  rw [valid'.move_eq found' (mem_ids_of_kind? group), if_neg fun cyclic => outside cyclic.2,
    if_neg (by simp [group]), shifted, left, node, valid.attach_detached found]

theorem move_undone_twoLevels :
    ∃ r', twoLevels.move "b" "root" 0 = .ok r' ∧ r'.move "b" "root" 2 = .ok twoLevels := by
  obtain ⟨r', accepted⟩ : ∃ r', twoLevels.move "b" "root" 0 = .ok r' := ⟨_, rfl⟩
  obtain ⟨p, q, found, found', undone⟩ := move_undone valid_twoLevels accepted
  refine ⟨r', accepted, ?_⟩
  cases accepted
  have old : twoLevels.locate? "b" = some (.inside ⟨_, _, _⟩) := rfl
  obtain rfl := Location.inside.inj (Option.some.inj (old.symm.trans found))
  cases found'
  exact undone

end Rule

end NestedRules
