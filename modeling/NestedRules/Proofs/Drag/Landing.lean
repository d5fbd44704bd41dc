import NestedRules.Drag.Basic
import NestedRules.Proofs.Rule.Placement

namespace NestedRules

namespace Candidate

def isZone : Candidate → Bool
  | zone _ => true
  | _ => false

def isItem : Candidate → Bool
  | item _ _ => true
  | _ => false

def isRoot : Candidate → Bool
  | root => true
  | _ => false

/-- The first body under the pointer, without bodies the first row, without rows the surface. -/
def winner? (cs : List Candidate) : Option Candidate :=
  (cs.find? isZone).or ((cs.find? isItem).or (cs.find? isRoot))

theorem find?_isZone_cases (cs : List Candidate) :
    cs.find? isZone = none ∨ ∃ group, cs.find? isZone = some (zone group) := by
  cases found : cs.find? isZone with
  | none => exact .inl rfl
  | some c =>
    have body := List.find?_some found
    cases c with
    | zone group => exact .inr ⟨group, rfl⟩
    | item id isGroup => cases body
    | root => cases body

theorem find?_isItem_cases (cs : List Candidate) :
    cs.find? isItem = none ∨ ∃ id isGroup, cs.find? isItem = some (item id isGroup) := by
  cases found : cs.find? isItem with
  | none => exact .inl rfl
  | some c =>
    have row := List.find?_some found
    cases c with
    | zone group => cases row
    | item id isGroup => exact .inr ⟨id, isGroup, rfl⟩
    | root => cases row

theorem find?_isRoot_cases (cs : List Candidate) :
    cs.find? isRoot = none ∨ cs.find? isRoot = some root := by
  cases found : cs.find? isRoot with
  | none => exact .inl rfl
  | some c =>
    have surface := List.find?_some found
    cases c with
    | zone group => cases surface
    | item id isGroup => cases surface
    | root => exact .inr rfl

theorem best?_eq_winner? (cs : List Candidate) : best? cs = winner? cs := by
  induction cs with
  | nil => rfl
  | cons c cs ih =>
    rw [best?, ih]
    unfold winner?
    rcases find?_isZone_cases cs with zones | ⟨group, zones⟩ <;>
      rcases find?_isItem_cases cs with items | ⟨id, isGroup, items⟩ <;>
        rcases find?_isRoot_cases cs with roots | roots <;>
          cases c <;>
            simp only [List.find?_cons, zones, items, roots, isZone, isItem, isRoot, rank] <;> rfl

theorem winner?_eq_none_iff {cs : List Candidate} : winner? cs = none ↔ cs = [] := by
  rw [← best?_eq_winner?]
  cases cs with
  | nil => simp [best?]
  | cons c cs =>
    simp only [best?, reduceCtorEq, iff_false]
    split
    · simp
    · split <;> simp

end Candidate

namespace Rule

variable {r r' : Rule}

def IsGroup (r : Rule) (id : String) : Prop := ∃ n, r.node? id = some n ∧ n.kind = .group

def LastIn (r : Rule) (group id : String) : Prop := ∃ front, r.members? group = some (front ++ [id])

def RightBefore (r r' : Rule) (id next : String) : Prop :=
  ∃ parent front back, r.parent? next = some parent ∧ r'.parent? next = some parent ∧
    r'.members? parent = some (front ++ id :: next :: back)

end Rule

/-- The place that a candidate stands for is where the dragged node is after the move. -/
def Candidate.Lands (r r' : Rule) (dragged : String) : Candidate → Prop
  | .zone group => r'.LastIn group dragged
  | .root => r'.LastIn r.root.id dragged
  | .item id isGroup =>
    (isGroup = true ∧ r.IsGroup id → r'.LastIn id dragged) ∧
      (¬ (isGroup = true ∧ r.IsGroup id) → r.RightBefore r' dragged id)

/-- A candidate that stands for no place: a body that is no group, the row of the dragged node itself,
    a row that is gone, and the row of the root where it is not shown as a group. -/
def Candidate.Misses (r : Rule) (dragged : String) : Candidate → Prop
  | .zone group => group ∉ r.ids ∨ ∃ n, r.node? group = some n ∧ n.kind = .filter
  | .root => False
  | .item id isGroup => id = dragged ∨ id ∉ r.ids ∨ (id = r.root.id ∧ isGroup = false)

namespace Rule

variable {r r' : Rule}

theorem endOf?_eq_some_iff {group : String} {landing : Landing} :
    r.endOf? group = some landing ↔
      r.IsGroup group ∧ ∃ members, r.members? group = some members ∧
        landing = ⟨group, members.length⟩ := by
  unfold endOf? IsGroup members?
  cases found : r.node? group with
  | none => simp
  | some n =>
    cases n with
    | group h cs => simp [Node.kind, Node.memberIds, Node.children, eq_comm]
    | filter f => simp [Node.kind]

theorem endOf?_eq_none_iff {group : String} :
    r.endOf? group = none ↔ group ∉ r.ids ∨ ∃ n, r.node? group = some n ∧ n.kind = .filter := by
  rw [← node?_eq_none_iff]
  unfold endOf?
  cases found : r.node? group with
  | none => simp
  | some n => cases n <;> simp [Node.kind]

theorem endOf?_ne_none {group : String} (isGroup : r.IsGroup group) : r.endOf? group ≠ none := by
  obtain ⟨n, found, kind⟩ := isGroup
  rw [Ne, endOf?_eq_none_iff, ← node?_eq_none_iff, found]
  simp [kind]

theorem isGroup_iff_of_locate? {id : String} {hit : Location} (located : r.locate? id = some hit) :
    r.IsGroup id ↔ hit.node.isGroup = true := by
  have kind : hit.node.kind = .group ↔ hit.node.isGroup = true := by
    cases hit.node <;> simp [Node.kind, Node.isGroup]
  simp [IsGroup, node?, located, kind]

theorem isGroup_node (r : Rule) : r.node.isGroup = true := rfl

theorem isGroup_root (r : Rule) : r.IsGroup r.root.id := by
  refine ⟨r.node, ?_, rfl⟩
  simp [node?, locate?, Node.locate?, id_node, Location.node]

theorem landing?_eq_none_iff {dragged : String} {cs : List Candidate} :
    r.landing? dragged cs = none ↔
      cs = [] ∨ ∃ w, Candidate.winner? cs = some w ∧ w.Misses r dragged := by
  unfold landing?
  rw [Candidate.best?_eq_winner?, ← Candidate.winner?_eq_none_iff]
  cases won : Candidate.winner? cs with
  | none => simp
  | some w =>
    simp only [reduceCtorEq, false_or, Option.some.injEq, exists_eq_left']
    cases w with
    | zone group => exact endOf?_eq_none_iff
    | root =>
      have top := r.isGroup_root
      obtain ⟨n, found, isGroup⟩ := top
      simp [Candidate.Misses, endOf?_eq_none_iff, ← node?_eq_none_iff, found, isGroup]
    | item id isGroup =>
      by_cases self : id = dragged
      · simp [Candidate.Misses, self]
      · simp only [Candidate.Misses, self, if_false, false_or]
        cases located : r.locate? id with
        | none => simp [← locate?_eq_none_iff, located]
        | some hit =>
          have known : id ∈ r.ids := mem_ids_of_locate? located
          simp only [known, not_true, false_or]
          by_cases aimed : (isGroup && hit.node.isGroup) = true
          · have ⟨shown, live⟩ := Bool.and_eq_true_iff.mp aimed
            have group := endOf?_ne_none ((isGroup_iff_of_locate? located).mpr live)
            rw [if_pos aimed]
            simp [shown, group]
          · rw [if_neg aimed]
            cases hit with
            | root n =>
              obtain ⟨rfl, top⟩ := node_of_locate?_root located
              have hidden : isGroup = false := by simpa [Location.node, isGroup_node] using aimed
              simp [top, hidden]
            | inside p =>
              have notTop : id ≠ r.root.id := (place?_of_locate?_inside located).2.symm
              simp [notTop]

theorem Valid.members?_of_locate? (valid : r.Valid) {id : String} {p : Place}
    (found : r.locate? id = some (.inside p)) :
    r.members? p.parent.id = some (p.frame.before.map Node.id ++ id :: p.frame.after.map Node.id) := by
  have row : r.row? p.parent.id = some (p.frame.row id) :=
    valid.row?_eq_some_iff.mpr ⟨row_mem_rows_of_locate? found, rfl⟩
  rw [members?_eq, row]
  rfl

theorem Valid.parent?_of_members? (valid : r.Valid) {group id : String} {members : List String}
    (of : r.members? group = some members) (member : id ∈ members) : r.parent? id = some group := by
  rw [members?_eq, Option.map_eq_some_iff] at of
  obtain ⟨row, found, rfl⟩ := of
  have ⟨stored, same⟩ := valid.row?_eq_some_iff.mp found
  exact valid.parent?_eq_some_iff.mpr ⟨row, stored, same, member⟩

theorem Valid.lastIn_move (valid : r.Valid) {dragged group : String} {members : List String}
    (of : r.members? group = some members)
    (accepted : r.move dragged group members.length = .ok r') : r'.LastIn group dragged := by
  refine ⟨members.filter (· ≠ dragged), ?_⟩
  rw [valid.members?_move_dest accepted of, List.take_length, List.drop_length, List.filter_nil]

theorem Valid.rightBefore_move (valid : r.Valid) {dragged next : String} {p : Place}
    (found : r.locate? next = some (.inside p)) (other : next ≠ dragged)
    (accepted : r.move dragged p.parent.id p.index = .ok r') : r.RightBefore r' dragged next := by
  have before := valid.members?_of_locate? found
  have after := valid.members?_move_dest accepted before
  have position : p.index = (p.frame.before.map Node.id).length := by simp [Place.index]
  rw [position, List.take_left, List.drop_left, List.filter_cons_of_pos (by simpa using other)]
    at after
  exact ⟨_, _, _, valid.parent?_of_members? before (by simp),
    (valid.move accepted).1.parent?_of_members? after (by simp), after⟩

theorem Valid.siblings_move (valid : r.Valid) {source dest : String} {index : Nat}
    (accepted : r.move source dest index = .ok r') (group : String) :
    (r'.members? group).map (·.filter (· ≠ source)) =
      (r.members? group).map (·.filter (· ≠ source)) := by
  rw [members?_eq, members?_eq, valid.row?_move accepted]
  simp only [Option.map_map]
  congr 1
  funext row
  exact congrArg Row.members (row.without_moved source dest index)

theorem Valid.lands_move (valid : r.Valid) {dragged : String} {cs : List Candidate}
    {landing : Landing} (aimed : r.landing? dragged cs = some landing)
    (accepted : r.move dragged landing.parent landing.index = .ok r') :
    ∃ w, Candidate.winner? cs = some w ∧ w.Lands r r' dragged := by
  have last : ∀ group, r.endOf? group = some landing → r'.LastIn group dragged := by
    intro group atEnd
    obtain ⟨-, members, of, rfl⟩ := endOf?_eq_some_iff.mp atEnd
    exact valid.lastIn_move of accepted
  unfold landing? at aimed
  rw [Candidate.best?_eq_winner?] at aimed
  cases won : Candidate.winner? cs with
  | none => simp [won] at aimed
  | some w =>
    refine ⟨w, rfl, ?_⟩
    simp only [won] at aimed
    cases w with
    | zone group => exact last group aimed
    | root => exact last r.root.id aimed
    | item id isGroup =>
      dsimp only at aimed
      split at aimed
      · cases aimed
      · rename_i other
        split at aimed
        · cases aimed
        · rename_i hit located
          have live := isGroup_iff_of_locate? located
          split at aimed
          · rename_i header
            have onHeader : isGroup = true ∧ r.IsGroup id := by simpa [live] using header
            exact ⟨fun _ => last id aimed, fun miss => absurd onHeader miss⟩
          · rename_i notHeader
            have onRow : ¬ (isGroup = true ∧ r.IsGroup id) := by simpa [live] using notHeader
            split at aimed
            · cases aimed
            · rename_i p
              cases aimed
              exact ⟨fun header => absurd header onRow,
                fun _ => valid.rightBefore_move located other accepted⟩

end Rule

namespace Drag

variable {r r' : Rule} {cs : List Candidate} {veto : Landing → Option Refusal}

theorem drop_eq_moved_iff {drag : Drag} :
    drag.drop r cs veto = .moved r' ↔
      ∃ carried landing, drag.carried? = some carried ∧ r.landing? carried.id cs = some landing ∧
        veto landing = none ∧ r.move carried.id landing.parent landing.index = .ok r' := by
  unfold drop
  cases drag.carried? with
  | none => simp
  | some carried =>
    cases aimed : r.landing? carried.id cs with
    | none => simp [aimed]
    | some landing =>
      cases against : veto landing with
      | some why => simp [aimed, against]
      | none =>
        cases outcome : r.move carried.id landing.parent landing.index <;>
          simp [aimed, against, outcome]

theorem drop_eq_noTarget_iff {carried : Node} :
    (⟨some carried⟩ : Drag).drop r cs veto = .noTarget ↔ r.landing? carried.id cs = none := by
  unfold drop
  cases aimed : r.landing? carried.id cs with
  | none => simp [aimed]
  | some landing =>
    cases against : veto landing with
    | some why => simp [aimed, against]
    | none =>
      cases outcome : r.move carried.id landing.parent landing.index <;>
        simp [aimed, against, outcome]

/-- A drop that moves the dragged node puts it where the winning candidate stands and leaves the order
    of all other members as it was; a drop has no target exactly when there are no candidates or the
    winning one misses. -/
theorem drop_lands (valid : r.Valid) (carried : Node) (cs : List Candidate)
    (veto : Landing → Option Refusal) :
    (∀ r', (⟨some carried⟩ : Drag).drop r cs veto = .moved r' →
      (∃ w, Candidate.winner? cs = some w ∧ w.Lands r r' carried.id) ∧
        ∀ group, (r'.members? group).map (·.filter (· ≠ carried.id)) =
          (r.members? group).map (·.filter (· ≠ carried.id))) ∧
      ((⟨some carried⟩ : Drag).drop r cs veto = .noTarget ↔
        cs = [] ∨ ∃ w, Candidate.winner? cs = some w ∧ w.Misses r carried.id) := by
  refine ⟨?_, drop_eq_noTarget_iff.trans Rule.landing?_eq_none_iff⟩
  intro r' moved
  obtain ⟨carrying, landing, same, aimed, -, accepted⟩ := drop_eq_moved_iff.mp moved
  obtain rfl : carried = carrying := Option.some.inj same
  exact ⟨valid.lands_move aimed accepted, valid.siblings_move accepted⟩

/-- Of a body and a row the body wins, and a filter dropped on it goes to its end; with no candidates
    there is no target. -/
theorem drop_lands_twoLevels :
    (∃ r', (⟨some (.filter (.blank "b"))⟩ : Drag).drop Rule.twoLevels [.item "a" false, .zone "g"]
      (fun _ => none) = .moved r' ∧ r'.LastIn "g" "b") ∧
      (⟨some (.filter (.blank "b"))⟩ : Drag).drop Rule.twoLevels [] (fun _ => none) = .noTarget := by
  have lands := drop_lands Rule.valid_twoLevels (.filter (.blank "b"))
  obtain ⟨r', moved⟩ : ∃ r', (⟨some (.filter (.blank "b"))⟩ : Drag).drop Rule.twoLevels
    [.item "a" false, .zone "g"] (fun _ => none) = .moved r' := ⟨_, rfl⟩
  obtain ⟨w, wins, landed⟩ := ((lands _ _).1 r' moved).1
  obtain rfl : Candidate.zone "g" = w := Option.some.inj wins
  exact ⟨⟨r', moved, landed⟩, (lands [] _).2.mpr (.inl rfl)⟩

end Drag

end NestedRules
