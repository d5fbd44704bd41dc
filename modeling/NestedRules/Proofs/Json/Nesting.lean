import NestedRules.Proofs.Json.Prospect

namespace NestedRules.Json

mutual

def Value.depth : Value → Nat
  | .array items => itemsDepth items + 1
  | .object members => membersDepth members + 1
  | _ => 0

def itemsDepth : List Value → Nat
  | [] => 0
  | v :: vs => max v.depth (itemsDepth vs)

def membersDepth : List (String × Value) → Nat
  | [] => 0
  | (_, v) :: ms => max v.depth (membersDepth ms)

end

theorem itemsDepth_append (vs ws : List Value) :
    itemsDepth (vs ++ ws) = max (itemsDepth vs) (itemsDepth ws) := by
  induction vs with
  | nil => simp [itemsDepth]
  | cons v vs ih => rw [List.cons_append, itemsDepth, itemsDepth, ih, Nat.max_assoc]

theorem itemsDepth_reverse (vs : List Value) : itemsDepth vs.reverse = itemsDepth vs := by
  induction vs with
  | nil => rfl
  | cons v vs ih =>
    rw [List.reverse_cons, itemsDepth_append, ih]
    simp [itemsDepth, Nat.max_comm]

theorem membersDepth_eq (ms : List (String × Value)) :
    membersDepth ms = itemsDepth (ms.map Prod.snd) := by
  induction ms with
  | nil => rfl
  | cons m ms ih => rw [membersDepth, ih, List.map_cons, itemsDepth]

theorem membersDepth_reverse (ms : List (String × Value)) :
    membersDepth ms.reverse = membersDepth ms := by
  rw [membersDepth_eq, membersDepth_eq, List.map_reverse, itemsDepth_reverse]

theorem Value.IsNumber.depth_eq_zero {v : Value} (number : v.IsNumber) : v.depth = 0 := by
  cases v with
  | array | object => exact number.elim
  | _ => rfl

/-- The depth of the parts that stand complete in a context. -/
def Context.peak : Context → Nat
  | top => 0
  | item before outer => max outer.peak (outer.depth + 1 + itemsDepth before)
  | member before _ outer => max outer.peak (outer.depth + 1 + membersDepth before)

def Phase.level {α : Type} : Phase α → Nat
  | .value around | .colon around | .text around _ | .literal around _ _ | .numeral around _ =>
    around.depth
  | .itemOrEnd outer | .keyOrEnd outer | .key _ outer | .keyText _ outer _ | .afterItem _ outer
  | .afterMember _ outer => outer.depth + 1
  | .done _ => 0

def Phase.peak : Phase Value → Nat
  | .value around | .colon around | .text around _ | .numeral around _ =>
    max around.peak around.depth
  | .literal around _ v => max around.peak (around.depth + v.depth)
  | .itemOrEnd outer | .keyOrEnd outer => max outer.peak (outer.depth + 1)
  | .key members outer | .keyText members outer _ | .afterMember members outer =>
    max outer.peak (outer.depth + 1 + membersDepth members)
  | .afterItem items outer => max outer.peak (outer.depth + 1 + itemsDepth items)
  | .done v => v.depth

theorem Phase.level_le_peak (phase : Phase Value) : phase.level ≤ phase.peak := by
  cases phase <;> simp only [level, peak] <;> omega

section

variable {α : Type} {p q : Phase α} {around : Context} {v : Value}

theorem Phase.Begins.level_eq (begins : p.Begins around) : p.level = around.depth := by
  cases begins <;> rfl

theorem Phase.Ends.depth_le (ends : p.Ends around v) : around.depth ≤ p.level := by
  cases ends with
  | text | literal => exact Nat.le_refl _
  | _ => exact Nat.le_succ _

theorem Phase.GoesOn.level_eq (goesOn : p.GoesOn q) : q.level = p.level := by
  cases goesOn with
  | beginText begins | beginNull begins | beginBool begins | beginNumeral begins =>
    exact begins.level_eq.symm
  | _ => rfl

end

section

variable {p q : Phase Value} {around : Context} {v : Value}

theorem Phase.Begins.peak_eq (begins : p.Begins around) :
    p.peak = max around.peak around.depth := by
  cases begins <;> simp [peak, Context.peak, Context.depth, itemsDepth]

theorem Phase.Ends.peak_eq (ends : p.Ends around v) :
    p.peak = max around.peak (around.depth + v.depth) := by
  cases ends <;>
    simp only [peak, Value.depth, itemsDepth, membersDepth, itemsDepth_reverse,
      membersDepth_reverse] <;> omega

theorem Phase.GoesOn.peak_eq (goesOn : p.GoesOn q) : q.peak = p.peak := by
  cases goesOn with
  | beginText begins | beginNull begins | beginBool begins | beginNumeral begins =>
    exact begins.peak_eq.symm
  | firstKey => simp [peak, membersDepth]
  | _ => rfl

end

namespace Schema

section

variable {ε α : Type} {s : Schema ε α} {k : Nat} {r r' : Reader α} {slot : Slot} {around : Context}
  {v : Value} {c : Char}

/-- The same schema with brackets that nest only so deep. -/
def limited (s : Schema ε α) (k : Nat) : Schema ε α := { s with depth? := some k }

theorem level_complete (completed : s.complete slot around v = .ok r') :
    r'.phase.level ≤ around.depth := by
  cases around with
  | top =>
    obtain ⟨result, -, rfl⟩ := complete_top_iff.mp completed
    exact Nat.le_refl _
  | item before outer =>
    obtain rfl := eq_of_complete_item completed
    exact Nat.le_refl _
  | member before key outer =>
    obtain rfl := eq_of_complete_member completed
    exact Nat.le_refl _

theorem not_begins_of_complete {inner : Context} (completed : s.complete slot around v = .ok r') :
    ¬ r'.phase.Begins inner := by
  cases around with
  | top =>
    obtain ⟨result, -, rfl⟩ := complete_top_iff.mp completed
    exact nofun
  | item before outer =>
    obtain rfl := eq_of_complete_item completed
    exact nofun
  | member before key outer =>
    obtain rfl := eq_of_complete_member completed
    exact nofun

theorem level_turn (turn : s.Turn r r') (shut : ∀ inner, ¬ r.phase.Begins inner) :
    r'.phase.level ≤ r.phase.level := by
  induction turn with
  | blank | nextItem | keyEnds => exact Nat.le_refl _
  | goesOn goesOn => exact Nat.le_of_eq goesOn.level_eq
  | openArray begins | openObject begins => exact absurd begins (shut _)
  | ends ends completed => exact Nat.le_trans (level_complete completed) ends.depth_le
  | number known completed rest ih =>
    exact Nat.le_trans (ih fun _ => not_begins_of_complete completed) (level_complete completed)

theorem checkOpening_limited (unbounded : s.depth? = none) :
    (s.limited k).checkOpening slot around v =
      (s.checkOpening slot around v >>= fun _ =>
        if k ≤ around.depth then throw .malformed else pure ()) := by
  simp only [checkOpening, limited, unbounded, Option.any_some, Option.any_none, decide_eq_true_eq]
  by_cases checked : slot = .checked
  · simp only [checked, if_true]
    cases (judge (s.check v) : Except (Fault ε) Unit) <;> rfl
  · simp only [checked, if_false]
    rfl

theorem limited_opening (unbounded : s.depth? = none) {next : Except (Fault ε) (Reader α)}
    (level : ∀ r', next = .ok r' → r'.phase.level = around.depth + 1) :
    ((s.limited k).checkOpening slot around v >>= fun _ => next) = .ok r' ↔
      (s.checkOpening slot around v >>= fun _ => next) = .ok r' ∧ r'.phase.level ≤ k := by
  have opens : (s.checkOpening slot around v >>= fun _ => next) = .ok r' →
      r'.phase.level = around.depth + 1 := by
    intro opened
    obtain ⟨_, -, opened⟩ := bind_eq_ok_iff.mp opened
    exact level r' opened
  rw [checkOpening_limited unbounded, bind_assoc]
  by_cases full : k ≤ around.depth
  · simp only [full, if_true]
    constructor
    · intro opened
      obtain ⟨_, -, opened⟩ := bind_eq_ok_iff.mp opened
      cases opened
    · rintro ⟨opened, room⟩
      rw [opens opened] at room
      exact absurd full (Nat.not_le.mpr room)
  · simp only [full, if_false]
    exact (and_iff_left_of_imp fun opened => opens opened ▸ Nat.not_le.mp full).symm

theorem limited_of_level {x : Except (Fault ε) (Reader α)} {level : Nat}
    (bound : ∀ r', x = .ok r' → r'.phase.level ≤ level) (room : level ≤ k) :
    x = .ok r' ↔ x = .ok r' ∧ r'.phase.level ≤ k :=
  (and_iff_left_of_imp fun stepped => Nat.le_trans (bound r' stepped) room).symm

theorem limited_beginValue (unbounded : s.depth? = none) (room : around.depth ≤ k) :
    (s.limited k).beginValue slot around c = .ok r' ↔
      s.beginValue slot around c = .ok r' ∧ r'.phase.level ≤ k := by
  unfold beginValue
  split
  · exact limited_of_level (fun r' began => by cases began; exact Nat.le_refl _) room
  split
  · refine limited_opening unbounded fun r' opened => ?_
    obtain ⟨next, -, same⟩ := bind_eq_ok_iff.mp opened
    cases same
    rfl
  split
  · refine limited_opening unbounded fun r' opened => ?_
    cases opened
    rfl
  iterate 3
    split
    · exact limited_of_level (fun r' began => by cases began; exact Nat.le_refl _) room
  cases Numeral.start? c with
  | some n => exact limited_of_level (fun r' began => by cases began; exact Nat.le_refl _) room
  | none => exact limited_of_level (fun r' began => by cases began) room

/-- The step of a reader under a limit is that of one without, unless it opens a bracket too many. -/
theorem limited_step (unbounded : s.depth? = none) (room : r.phase.level ≤ k) :
    (s.limited k).step r c = .ok r' ↔ s.step r c = .ok r' ∧ r'.phase.level ≤ k := by
  have still (shut : ∀ inner, ¬ r.phase.Begins inner) :
      s.step r c = .ok r' ↔ s.step r c = .ok r' ∧ r'.phase.level ≤ k :=
    limited_of_level (fun _ stepped => level_turn (turn_of_step stepped) shut) room
  obtain ⟨slot, phase⟩ := r
  cases phase with
  | value around =>
    simp only [step]
    split
    · exact limited_of_level (fun r' stepped => by cases stepped; exact Nat.le_refl _) room
    · exact limited_beginValue unbounded room
  | itemOrEnd outer =>
    simp only [step]
    split
    · exact limited_of_level (fun r' stepped => by cases stepped; exact Nat.le_refl _) room
    · simp only [stepToken]
      split
      · exact limited_of_level (fun r' => level_complete) (Nat.le_of_succ_le room)
      · exact limited_beginValue unbounded room
  -- Elsewhere no bracket opens, and the two schemas take the same step.
  | literal around word v => cases word <;> exact still (by rintro _ ⟨⟩)
  | _ => exact still (by rintro _ ⟨⟩)

end

section

variable {r r' : Reader Value} {around : Context} {v : Value}

theorem peak_complete (completed : anyValue.complete .plain around v = .ok r') :
    r'.phase.peak = max around.peak (around.depth + v.depth) := by
  cases around with
  | top =>
    cases completed
    simp [Phase.peak, Context.peak, Context.depth]
  | item before outer =>
    rw [complete_item] at completed
    cases completed
    simp only [Phase.peak, Context.peak, Context.depth, itemsDepth]
    omega
  | member before key outer =>
    rw [complete_member] at completed
    cases completed
    simp only [Phase.peak, Context.peak, Context.depth, membersDepth]
    omega

theorem peak_still {peak : Nat} {phase : Phase Value} (same : peak = phase.peak) :
    phase.peak = max peak phase.level := by
  rw [same]
  exact (Nat.max_eq_left phase.level_le_peak).symm

theorem peak_ended {peak : Nat} (completed : anyValue.complete .plain around v = .ok r')
    (same : peak = max around.peak (around.depth + v.depth)) :
    r'.phase.peak = max peak r'.phase.level := by
  have level := level_complete completed
  rw [peak_complete completed, same]
  omega

/-- A step reaches deeper only by the brackets that are open after it. -/
theorem peak_turn (turn : anyValue.Turn r r') (plain : r.slot = .plain) :
    r'.phase.peak = max r.phase.peak r'.phase.level := by
  induction turn with
  | blank => exact peak_still rfl
  | goesOn goesOn => exact peak_still goesOn.peak_eq.symm
  | openArray begins | openObject begins =>
    rw [begins.peak_eq]
    simp only [Phase.peak, Phase.level]
    omega
  | nextItem => rfl
  | keyEnds =>
    refine peak_still ?_
    simp only [Phase.peak, Context.peak, Context.depth]
    omega
  | ends ends completed =>
    obtain rfl := plain
    exact peak_ended completed ends.peak_eq
  | number known completed rest ih =>
    obtain rfl := plain
    have flat := (isNumber_of_numeralValue (by decide) known).depth_eq_zero
    rw [ih (outlook_complete .null completed).1, peak_complete completed, flat]
    rfl

theorem peak_reaches {phase : Phase Value} {cs : List Char}
    (reaches : anyValue.Reaches ⟨.plain, phase⟩ cs r') : phase.peak ≤ r'.phase.peak := by
  induction cs generalizing phase with
  | nil =>
    cases reaches
    exact Nat.le_refl _
  | cons c cs ih =>
    rw [Reaches, List.foldlM_cons] at reaches
    obtain ⟨⟨slot, next⟩, stepped, rest⟩ := bind_eq_ok_iff.mp reaches
    have turn := turn_of_step stepped
    obtain ⟨rfl, -⟩ := outlook_turn .null turn rfl
    exact Nat.le_trans (peak_turn turn rfl ▸ Nat.le_max_left ..) (ih rest)

end

end Schema

end NestedRules.Json
