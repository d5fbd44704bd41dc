import Mathlib.Algebra.GroupWithZero.Nat
import NestedRules.Proofs.Expression.Readability
import NestedRules.Proofs.Node.Occurrence

namespace NestedRules

/-- No beginning of the text closes more parentheses than it has opened, and the whole text closes them
    all. -/
structure Balanced (cs : List Char) : Prop where
  covered : ∀ p, p <+: cs → p.count ')' ≤ p.count '('
  even : cs.count '(' = cs.count ')'

def Bare (cs : List Char) : Prop := '(' ∉ cs ∧ ')' ∉ cs

instance (cs : List Char) : Decidable (Bare cs) := inferInstanceAs (Decidable (_ ∧ _))

section

variable {cs ds : List Char} {c : Char}

theorem bare_cons : Bare (c :: cs) ↔ c ≠ '(' ∧ c ≠ ')' ∧ Bare cs := by
  simp only [Bare, List.mem_cons, not_or, ne_comm (a := c)]
  tauto

theorem bare_append : Bare (cs ++ ds) ↔ Bare cs ∧ Bare ds := by
  simp only [Bare, List.mem_append, not_or]
  tauto

theorem Bare.count_eq_zero (bare : Bare cs) : cs.count '(' = 0 := List.count_eq_zero.mpr bare.1

theorem Bare.balanced (bare : Bare cs) : Balanced cs where
  covered := by
    intro p part
    rw [List.count_eq_zero.mpr fun member => bare.2 (part.subset member)]
    exact Nat.zero_le _
  even := by rw [bare.count_eq_zero, List.count_eq_zero.mpr bare.2]

theorem prefix_append_cases {p : List Char} (part : p <+: cs ++ ds) :
    p <+: cs ∨ ∃ q, q <+: ds ∧ p = cs ++ q := by
  rcases List.prefix_or_prefix_of_prefix part (List.prefix_append cs ds) with inside | ⟨q, rfl⟩
  · exact .inl inside
  · exact .inr ⟨q, (List.prefix_append_right_inj cs).mp part, rfl⟩

theorem Balanced.append (first : Balanced cs) (second : Balanced ds) : Balanced (cs ++ ds) where
  covered := by
    intro p part
    rcases prefix_append_cases part with inside | ⟨q, rest, rfl⟩
    · exact first.covered p inside
    · rw [List.count_append, List.count_append, first.even]
      exact Nat.add_le_add_left (second.covered q rest) _
  even := by rw [List.count_append, List.count_append, first.even, second.even]

theorem Balanced.enclosed (inner : Balanced cs) : Balanced ('(' :: (cs ++ [')'])) where
  covered := by
    intro p part
    rcases List.prefix_cons_iff.mp part with rfl | ⟨p, rfl, opened⟩
    · exact Nat.le_refl _
    rcases prefix_append_cases opened with inside | ⟨q, rest, rfl⟩
    · have covered := inner.covered p inside
      simp only [List.count_cons_self, List.count_cons_of_ne, ne_eq, Char.reduceEq, not_false_eq_true]
      omega
    · -- All that may stand behind the inner text is its last parenthesis.
      have least := rest.sublist.count_le ')'
      have even := inner.even
      simp only [List.count_cons_self, List.count_nil] at least
      simp only [List.count_cons_self, List.count_cons_of_ne, List.count_append, ne_eq, Char.reduceEq,
        not_false_eq_true]
      omega
  even := by
    simp [List.count_append, inner.even]

end

theorem Field.bare_word (f : Field) : Bare f.word.toList := by cases f <;> decide

theorem Operator.bare_word (o : Operator) : Bare o.word.toList := by cases o <;> decide

theorem Logic.bare_word (l : Logic) : Bare l.word.toList := by cases l <;> decide

namespace Condition

mutual

def joins : Condition → Nat
  | .compare .. => 0
  | .join _ first second more => first.joins + (second.joins + joinsOf more) + 1

def joinsOf : List Condition → Nat
  | [] => 0
  | c :: cs => c.joins + joinsOf cs

end

theorem joinsOf_eq_sum (cs : List Condition) : joinsOf cs = (cs.map joins).sum := by
  induction cs with
  | nil => rfl
  | cons c cs ih => rw [joinsOf, ih, List.map_cons, List.sum_cons]

theorem valuesOf_eq_flatMap (cs : List Condition) : valuesOf cs = cs.flatMap values := by
  induction cs with
  | nil => rfl
  | cons c cs ih => rw [valuesOf, ih, List.flatMap_cons]

structure Encloses (cs : List Char) (joins : Nat) : Prop where
  balanced : Balanced cs
  count : cs.count '(' = joins

section

variable {cs ds : List Char} {m n : Nat}

theorem Encloses.append (first : Encloses cs m) (second : Encloses ds n) :
    Encloses (cs ++ ds) (m + n) :=
  ⟨first.balanced.append second.balanced, by rw [List.count_append, first.count, second.count]⟩

theorem encloses_of_bare (bare : Bare cs) : Encloses cs 0 := ⟨bare.balanced, bare.count_eq_zero⟩

theorem Encloses.enclosed (inner : Encloses cs m) : Encloses ('(' :: (cs ++ [')'])) (m + 1) :=
  ⟨inner.balanced.enclosed, by simp [inner.count]⟩

end

theorem bare_compare {field : Field} {operator : Operator} {value? : Option String}
    {fits : value?.isSome = operator.takesValue} (bare : ∀ v ∈ value?, Bare v.toList) :
    Bare (compare field operator value? fits).text.toList := by
  rw [toList_text_compare, bare_append, bare_cons, bare_append]
  refine ⟨field.bare_word, by decide, by decide, operator.bare_word, ?_⟩
  cases value? with
  | none => exact ⟨List.not_mem_nil, List.not_mem_nil⟩
  | some v =>
    rw [Option.elim_some, bare_cons, bare_cons, bare_append]
    exact ⟨by decide, by decide, by decide, by decide, bare v rfl, by decide⟩

theorem encloses_tail_cons {c : Condition} {cs : List Condition} (logic : Logic) {m n : Nat}
    (first : Encloses c.text.toList m) (rest : Encloses (tail logic cs) n) :
    Encloses (tail logic (c :: cs)) (m + n) := by
  have word : Bare (' ' :: (logic.word.toList ++ [' '])) := by
    rw [bare_cons, bare_append]
    exact ⟨by decide, by decide, logic.bare_word, by decide⟩
  have whole := (encloses_of_bare word).append (first.append rest)
  rw [tail_cons]
  simpa using whole

mutual

/-- The text of a condition has a pair of parentheses for every join. -/
theorem encloses_text : (c : Condition) → (∀ v ∈ c.values, Bare v.toList) →
    Encloses c.text.toList c.joins
  | .compare field operator value? fits, bare => by
    have shown : ∀ v ∈ value?, Bare v.toList := fun v held => bare v (by simpa [values] using held)
    exact encloses_of_bare (bare_compare shown)
  | .join logic first second more, bare => by
    simp only [values, List.mem_append, or_imp, forall_and] at bare
    obtain ⟨⟨atFirst, atSecond⟩, atMore⟩ := bare
    have one := encloses_text first atFirst
    have two := encloses_text second atSecond
    have others := encloses_tail logic more atMore
    have rest := encloses_tail_cons logic two others
    rw [toList_text_join, ← List.append_assoc, joins]
    exact (one.append rest).enclosed

theorem encloses_tail (logic : Logic) : (cs : List Condition) →
    (∀ v ∈ valuesOf cs, Bare v.toList) → Encloses (tail logic cs) (joinsOf cs)
  | [], _ => encloses_of_bare ⟨List.not_mem_nil, List.not_mem_nil⟩
  | c :: cs, bare => by
    simp only [valuesOf, List.mem_append, or_imp, forall_and] at bare
    have first := encloses_text c bare.1
    have rest := encloses_tail logic cs bare.2
    exact encloses_tail_cons logic first rest

end

theorem values_joined? (logic : Logic) (cs : List Condition) :
    (joined? logic cs).elim [] values = valuesOf cs := by
  match cs with
  | [] => rfl
  | [single] => simp [joined?, valuesOf]
  | first :: second :: more => simp [joined?, values, valuesOf]

theorem joins_joined? (logic : Logic) (cs : List Condition) :
    (joined? logic cs).elim 0 joins = joinsOf cs + if 2 ≤ cs.length then 1 else 0 := by
  match cs with
  | [] => rfl
  | [single] => simp [joined?, joinsOf]
  | first :: second :: more => simp [joined?, joins, joinsOf]

end Condition

theorem Forest.conditions_eq_flatMap (cs : Forest) :
    Forest.conditions cs = cs.flatMap fun c => c.condition?.toList := by
  induction cs with
  | nil => rfl
  | cons c cs ih => rw [Forest.conditions, ih, List.flatMap_cons]

theorem Forest.joinsOf_conditions (cs : Forest) :
    Condition.joinsOf (Forest.conditions cs) =
      (cs.map fun c => c.condition?.elim 0 Condition.joins).sum := by
  rw [Condition.joinsOf_eq_sum]
  induction cs with
  | nil => rfl
  | cons c cs ih =>
    rw [Forest.conditions, List.map_append, List.sum_append, ih, List.map_cons, List.sum_cons]
    cases c.condition? <;> simp

theorem Node.exists_filter_of_value {n : Node} {v : String} (shown : v ∈ n.values) :
    ∃ f, .filter f ∈ n.preorder ∧ f.value = v := by
  induction n with
  | filter f =>
    refine ⟨f, mem_preorder_self _, ?_⟩
    rw [values, condition?] at shown
    split at shown
    · cases shown
    · simp only [Option.elim_some, Condition.ofFilter, Condition.values] at shown
      split at shown
      · simpa [eq_comm] using shown
      · cases shown
  | group h cs ih =>
    have inside : v ∈ Condition.valuesOf (Forest.conditions cs) := by
      rw [values, condition?] at shown
      split at shown
      · cases shown
      · rwa [← Condition.values_joined? h.logic]
    rw [Condition.valuesOf_eq_flatMap, Forest.conditions_eq_flatMap] at inside
    obtain ⟨d, member, held⟩ := List.mem_flatMap.mp inside
    obtain ⟨c, among, asks⟩ := List.mem_flatMap.mp member
    have shownByC : v ∈ c.values := by
      rw [values, Option.mem_toList.mp asks]
      exact held
    obtain ⟨f, below, same⟩ := ih c among shownByC
    exact ⟨f, .tail _ (Forest.mem_preorder_iff.mpr ⟨c, among, below⟩), same⟩

namespace Node

/-- Neither the node at the address nor a group around it is disabled. -/
def isOnAlong (n : Node) (address : List Nat) : Bool :=
  address.inits.all fun above => (n.descend? above).all fun m => !m.isDisabled

def voices (n : Node) : Nat := n.children.countP fun c => c.expression false ≠ ""

/-- The occurrence is a group that is not disabled, nor stands in a disabled one, and of which two or
    more members are heard. -/
def joinsAt (n : Node) (o : Occurrence) : Bool :=
  o.node.isGroup && n.isOnAlong o.address && 2 ≤ o.node.voices

variable {n c : Node} {i : Nat}

theorem isOnAlong_nil (n : Node) : n.isOnAlong [] = !n.isDisabled := by
  simp [isOnAlong, descend?]

theorem isOnAlong_cons (atI : n.children[i]? = some c) (below : List Nat) :
    n.isOnAlong (i :: below) = (!n.isDisabled && c.isOnAlong below) := by
  simp [isOnAlong, descend?, atI, Function.comp_def]

theorem isOnAlong_of_disabled (off : n.isDisabled = true) (address : List Nat) :
    n.isOnAlong address = false := by
  rw [isOnAlong, List.all_eq_false]
  exact ⟨[], (List.mem_inits _ _).mpr (List.nil_prefix), by simp [descend?, off]⟩

theorem joinsAt_under (isOn : n.isDisabled = false) (atI : n.children[i]? = some c) (o : Occurrence) :
    n.joinsAt (o.under i) = c.joinsAt o := by
  have along := isOnAlong_cons atI o.address
  rw [isOn, Bool.not_false, Bool.true_and] at along
  rw [joinsAt, joinsAt, Occurrence.under, along]

theorem condition?_isSome_iff (n : Node) : n.condition?.isSome ↔ n.expression false ≠ "" := by
  rw [n.expression_eq_text]
  cases n.condition? with
  | none => simp
  | some d => simp [d.text_ne_empty]

end Node

theorem Forest.length_conditions (cs : Forest) :
    (Forest.conditions cs).length = cs.countP fun c => c.expression false ≠ "" := by
  induction cs with
  | nil => rfl
  | cons c cs ih =>
    have heard := c.condition?_isSome_iff
    rw [Forest.conditions, List.length_append, ih, List.countP_cons, Nat.add_comm]
    cases found : c.condition? <;> simp_all

theorem Forest.countP_occurrences {p : Occurrence → Bool} {count : Node → Nat} {cs : Forest} (i : Nat)
    (each : ∀ (j : Nat) (c : Node), cs[j]? = some c →
      c.occurrences.countP (fun o => p (o.under (i + j))) = count c) :
    (Forest.occurrences i cs).countP p = (cs.map count).sum := by
  induction cs generalizing i with
  | nil => rfl
  | cons c cs ih =>
    have later := ih (i + 1) fun j d atJ => by
      rw [← each (j + 1) d atJ, Nat.add_right_comm, Nat.add_assoc]
    rw [Forest.occurrences, List.countP_append, List.countP_map, later, List.map_cons, List.sum_cons,
      ← each 0 c rfl]
    rfl

theorem Node.joinsAt_top {h : Header} {cs : Forest} (isOn : h.isDisabled = false) :
    (Node.group h cs).joinsAt ⟨[], .group h cs⟩ = decide (2 ≤ (Forest.conditions cs).length) := by
  have along : (Node.group h cs).isOnAlong [] = true := by
    rw [isOnAlong_nil, isDisabled, isOn, Bool.not_false]
  rw [joinsAt, along, Forest.length_conditions]
  rfl

theorem Node.countP_joinsAt (n : Node) :
    n.occurrences.countP n.joinsAt = n.condition?.elim 0 Condition.joins := by
  induction n with
  | filter f =>
    rw [occurrences, condition?]
    cases f.isDisabled <;> simp [joinsAt, isGroup, Condition.ofFilter, Condition.joins]
  | group h cs ih =>
    cases off : h.isDisabled with
    | true =>
      -- The group silences its members, so the count below them does not matter.
      have silent : (Node.group h cs).condition? = none := if_pos off
      have none : ∀ o ∈ (Node.group h cs).occurrences, ¬ (Node.group h cs).joinsAt o = true := by
        intro o _
        simp [joinsAt, isOnAlong_of_disabled (n := .group h cs) off]
      rw [silent, List.countP_eq_zero.mpr none]
      rfl
    | false =>
      have inside (j : Nat) (c : Node) (atJ : cs[j]? = some c) :
          c.occurrences.countP (fun o => (Node.group h cs).joinsAt (o.under (0 + j))) =
            c.condition?.elim 0 Condition.joins := by
        rw [← ih c (List.mem_of_getElem? atJ), Nat.zero_add]
        exact congrArg (c.occurrences.countP ·)
          (funext fun o => joinsAt_under (n := .group h cs) off atJ o)
      have below := (Forest.countP_occurrences 0 inside).trans (Forest.joinsOf_conditions cs).symm
      rw [occurrences, List.countP_cons, below, joinsAt_top off, condition?, off,
        if_neg Bool.false_ne_true, Condition.joins_joined?]
      simp

/-- Where no value of a filter holds a parenthesis, the parentheses of an expression are balanced, and
    as many open as there are groups that join their members. -/
theorem Node.parentheses_structural (n : Node)
    (bare : ∀ f, .filter f ∈ n.nodes → '(' ∉ f.value.toList ∧ ')' ∉ f.value.toList) :
    let text := (n.expression false).toList
    (∀ p, p <+: text → p.count ')' ≤ p.count '(') ∧
      text.count '(' = text.count ')' ∧
      text.count '(' = n.occurrences.countP n.joinsAt := by
  have shown : ∀ v ∈ n.values, Bare v.toList := by
    intro v held
    obtain ⟨f, inside, rfl⟩ := exists_filter_of_value held
    exact bare f (n.nodes_eq_preorder ▸ inside)
  have encloses : Condition.Encloses (n.expression false).toList
      (n.condition?.elim 0 Condition.joins) := by
    rw [n.expression_eq_text]
    rw [values] at shown
    cases asks : n.condition? with
    | none => exact Condition.encloses_of_bare ⟨List.not_mem_nil, List.not_mem_nil⟩
    | some c =>
      rw [asks] at shown
      exact Condition.encloses_text c shown
  exact ⟨encloses.balanced.covered, encloses.balanced.even, by rw [n.countP_joinsAt, encloses.count]⟩

def Node.pruned : Node :=
  .group ⟨"root", "Rule", .and, false, false, false⟩
    [.filter (.blank "a"),
      .group ⟨"g", "Group", .or, false, false, false⟩ [.filter (.blank "b"), .filter (.blank "c")],
      .group ⟨"h", "Group", .or, false, true, false⟩ [.filter (.blank "d"), .filter (.blank "e")],
      .group ⟨"i", "Group", .and, false, false, false⟩ [.filter (.blank "f")]]

/-- Of the four groups the root and the first one below it have parentheses. -/
theorem Node.parentheses_structural_pruned :
    (∀ f, .filter f ∈ pruned.nodes → '(' ∉ f.value.toList ∧ ')' ∉ f.value.toList) ∧
      (pruned.expression false).toList.count '(' = 2 ∧
      (pruned.expression false).toList.count ')' = 2 := by
  have bare : ∀ f, .filter f ∈ pruned.nodes → '(' ∉ f.value.toList ∧ ')' ∉ f.value.toList := by
    intro f inside
    have blank : f.value = "" := by
      rw [nodes_eq_preorder] at inside
      simp only [pruned, preorder, Forest.preorder, List.mem_cons, List.mem_append, List.not_mem_nil,
        Node.filter.injEq, reduceCtorEq, or_false, false_or] at inside
      rcases inside with rfl | ⟨rfl | rfl⟩ | ⟨rfl | rfl⟩ | rfl <;> rfl
    simp [blank]
  obtain ⟨-, even, count⟩ := pruned.parentheses_structural bare
  have two : pruned.occurrences.countP pruned.joinsAt = 2 := by decide +kernel
  exact ⟨bare, count.trans two, even.symm.trans (count.trans two)⟩

end NestedRules
