import NestedRules.Proofs.Expression.Surroundings
import NestedRules.Proofs.Rule.Reversal

namespace NestedRules

theorem Group.expression_insert (g : Group) (i : Nat) {n : Node} (silent : n.expression false = "") :
    (g.insert i n).toNode.expression false = g.toNode.expression false := by
  rw [← fill_gap, ← Frame.expression_close _ silent, close_gap]

namespace Rule

variable {r r' : Rule} {old new n : Node} {id : String} {p : Place}

def clause? (r : Rule) (id : String) : Option String := (r.node? id).map (·.expression false)

theorem Swap.expression_eq (swap : Swap r r' old new)
    (same : new.expression false = old.expression false) : r'.expression = r.expression := by
  obtain ⟨frames, outgoing, incoming, -⟩ := swap
  rw [expression, expression, ← outgoing, ← incoming]
  exact Frame.expression_around_congr frames same

theorem Swap.expression_of_disabled (swap : Swap r r' old new) (off : old.isDisabled = true)
    (still : new.isDisabled = true) : r'.expression = r.expression := by
  apply swap.expression_eq
  rw [Node.expression_of_disabled off, Node.expression_of_disabled still]

theorem Swap.expression_of_under (swap : Swap r r' old new) (valid : r.Valid)
    (under : r.Under Node.isDisabled old.id) : r'.expression = r.expression := by
  obtain ⟨frames, outgoing, incoming, -⟩ := swap
  rw [under_iff_route Node.isDisabled_bare, valid.route?_of_around outgoing] at under
  obtain ⟨path, route, g, above, off⟩ := under
  cases route
  obtain ⟨fr, around, rfl⟩ := List.mem_map.mp above
  rw [expression, expression, ← outgoing, ← incoming]
  exact Frame.expression_around_of_disabled ⟨fr, around, off⟩ new old

theorem Swap.expression_of_within (swap : Swap r r' old new) (valid : r.Valid)
    (keeps : new.isDisabled = old.isDisabled) (within : r.Within Node.isDisabled old.id) :
    r'.expression = r.expression := by
  rcases within.bears_or_under with bears | under
  · have off := (swap.bears_iff valid).mp bears
    exact swap.expression_of_disabled off (keeps.trans off)
  · exact swap.expression_of_under valid under

/-- The node `id` says in the second rule what it says in the first, or it is not heard in either: it is
    disabled before and after, or stands under a disabled group. -/
def Restates (r r' : Rule) (id : String) : Prop :=
  r'.clause? id = r.clause? id ∨
    (r.Bears Node.isDisabled id ∧ r'.Bears Node.isDisabled id) ∨ r.Under Node.isDisabled id

theorem Swap.expression_of_restates (swap : Swap r r' old new) (valid : r.Valid)
    (valid' : r'.Valid) (restates : r.Restates r' old.id) : r'.expression = r.expression := by
  rcases restates with same | ⟨before, after⟩ | under
  · rw [clause?, clause?, swap.node?_old valid, swap.node?_new valid'] at same
    exact swap.expression_eq (Option.some.inj same)
  · have off := (swap.bears_iff valid).mp before
    have still := (swap.bears_new_iff valid').mp after
    exact swap.expression_of_disabled off still
  · exact swap.expression_of_under valid under

theorem expression_attach {index : Option Nat} (attached : r.attach id n index = .ok r')
    (silent : n.expression false = "") : r'.expression = r.expression := by
  obtain ⟨g, -, swap⟩ := swap_of_attach attached
  exact swap.expression_eq (g.expression_insert _ silent)

theorem expression_without (found : r.locate? id = some (.inside p))
    (silent : p.node.expression false = "") : expression ⟨p.without⟩ = r.expression :=
  (swap_without found).expression_eq (p.frame.expression_close silent)

theorem silent_of_clause? (found : r.locate? id = some (.inside p)) (silent : r.clause? id = some "") :
    p.node.expression false = "" := by
  rw [clause?, node?_of_locate? found] at silent
  exact Option.some.inj silent

/-- The edit that leads from the first rule to the second is not heard. An update restates its node;
    what is put in, taken out or moved says nothing; or a node is put in or taken out within a disabled
    group. -/
def Unheard (r r' : Rule) : Edit → Prop
  | .updateGroup id _ | .updateFilter id _ => r.Restates r' id
  | .insert parent n _ => n.expression false = "" ∨ r.Within Node.isDisabled parent
  | .remove id => r.clause? id = some "" ∨ r.Within Node.isDisabled id
  | .move source _ _ => r.clause? source = some ""

theorem Valid.expression_insert {index : Option Nat} (valid : r.Valid)
    (accepted : r.insert id n index = .ok r')
    (unheard : n.expression false = "" ∨ r.Within Node.isDisabled id) :
    r'.expression = r.expression := by
  have attached := (insert_cases accepted).2
  rcases unheard with silent | within
  · exact expression_attach attached silent
  · obtain ⟨g, rfl, swap⟩ := swap_of_attach attached
    exact swap.expression_of_within valid rfl within

theorem Valid.expression_remove (valid : r.Valid) (accepted : r.remove id = .ok r')
    (unheard : r.clause? id = some "" ∨ r.Within Node.isDisabled id) :
    r'.expression = r.expression := by
  obtain ⟨p, found, rfl⟩ := remove_cases accepted
  rcases unheard with silent | within
  · exact expression_without found (silent_of_clause? found silent)
  · rcases within.bears_or_under with ⟨n, found', off⟩ | under
    · rw [node?_of_locate? found] at found'
      cases found'
      exact expression_without found (Node.expression_of_disabled off)
    · have around := (valid.under_iff_within_parent Node.isDisabled_bare found).mp under
      exact (swap_without found).expression_of_within valid rfl around

theorem expression_move {source dest : String} {index : Nat}
    (accepted : r.move source dest index = .ok r') (silent : r.clause? source = some "") :
    r'.expression = r.expression := by
  obtain ⟨p, target, found, -, -, -, attached⟩ := move_cases accepted
  have quiet := silent_of_clause? found silent
  rw [expression_attach attached quiet, expression_without found quiet]

/-- An edit that is not heard leaves the expression as it is. -/
theorem expression_of_unheard {e : Edit} (valid : r.Valid) (accepted : r.apply e = .ok r')
    (unheard : r.Unheard r' e) : r'.expression = r.expression := by
  have valid' := (valid.apply accepted).1
  cases e with
  | updateGroup id f =>
    obtain ⟨old, swap, rfl, -⟩ := swap_of_updateGroup accepted
    exact swap.expression_of_restates valid valid' unheard
  | updateFilter id f =>
    obtain ⟨old, swap, rfl, -⟩ := swap_of_updateFilter accepted
    exact swap.expression_of_restates valid valid' unheard
  | insert parent n index => exact valid.expression_insert accepted unheard
  | remove id => exact valid.expression_remove accepted unheard
  | move source dest index => exact expression_move accepted unheard

def oneOff : Rule :=
  ⟨⟨⟨"root", "Rule", .and, false, false, false⟩,
    [.group ⟨"g", "Group", .or, false, true, false⟩ [.filter (.blank "a")], .filter (.blank "b")]⟩⟩

/-- The group `g` may be filled, emptied and moved, and its filter changed, while nobody hears of it. -/
theorem expression_of_unheard_oneOff :
    oneOff.Valid ∧
      (∃ r', oneOff.updateFilter "a" ({ · with value := "1" }) = .ok r' ∧
        r'.expression = oneOff.expression) ∧
      (∃ r', oneOff.insert "g" (Filter.blank "c") none = .ok r' ∧
        r'.expression = oneOff.expression) ∧
      (∃ r', oneOff.remove "a" = .ok r' ∧ r'.expression = oneOff.expression) ∧
      ∃ r', oneOff.move "g" "root" 2 = .ok r' ∧ r'.expression = oneOff.expression := by
  have valid : oneOff.Valid := by
    rw [Valid, ids_eq_preorder]
    decide
  refine ⟨valid, ?_, ?_, ?_, ?_⟩
  · have found : oneOff.node? "a" = some (.filter (.blank "a")) := rfl
    obtain ⟨p, -, -, accepted⟩ := valid.updateFilter_of_filter found ({ · with value := "1" })
    exact ⟨_, accepted, expression_of_unheard (e := .updateFilter "a" ({ · with value := "1" })) valid
      accepted (.inr (.inr (by decide +kernel)))⟩
  · have found : oneOff.node? "g" = some (.group ⟨"g", "Group", .or, false, true, false⟩
      [.filter (.blank "a")]) := rfl
    obtain ⟨r', accepted⟩ := insert_of_group (n := .filter (.blank "c")) found (by decide +kernel)
      (by decide +kernel) none
    exact ⟨r', accepted, expression_of_unheard (e := .insert "g" (Filter.blank "c") none) valid
      accepted (.inr (by decide +kernel))⟩
  · obtain ⟨r', accepted⟩ : ∃ r', oneOff.remove "a" = .ok r' := ⟨_, rfl⟩
    exact ⟨r', accepted, expression_of_unheard (e := .remove "a") valid accepted
      (.inr (by decide +kernel))⟩
  · obtain ⟨r', accepted⟩ : ∃ r', oneOff.move "g" "root" 2 = .ok r' := ⟨_, rfl⟩
    exact ⟨r', accepted, expression_of_unheard (e := .move "g" "root" 2) valid accepted rfl⟩

end Rule

end NestedRules
