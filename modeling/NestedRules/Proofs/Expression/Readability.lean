import Mathlib.Data.List.Infix
import NestedRules.Proofs.Expression.Condition

namespace NestedRules

/-- What stands before a mark, where the mark does not occur in it, can be told from what follows. -/
theorem append_mark_inj {mark : Char} {u v r s : List Char} (left : mark ∉ u) (right : mark ∉ v)
    (same : u ++ mark :: r = v ++ mark :: s) : u = v ∧ r = s := by
  induction u generalizing v with
  | nil =>
    cases v with
    | nil => exact ⟨rfl, (List.cons.inj same).2⟩
    | cons d v => exact absurd (List.cons.inj same).1 (fun hit => right (hit ▸ List.mem_cons_self))
  | cons c u ih =>
    cases v with
    | nil => exact absurd (List.cons.inj same).1.symm (fun hit => left (hit ▸ List.mem_cons_self))
    | cons d v =>
      obtain ⟨rfl, rest⟩ := List.cons.inj same
      have ⟨before, after⟩ := ih (fun member => left (List.mem_cons_of_mem _ member))
        (fun member => right (List.mem_cons_of_mem _ member)) rest
      exact ⟨by rw [before], after⟩

theorem Field.word_injective {f g : Field} (same : f.word = g.word) : f = g := by
  have read := Field.ofWord?_word f
  rw [same, Field.ofWord?_word] at read
  exact (Option.some.inj read).symm

theorem Field.not_mem_word {c : Char} (mark : c = ' ' ∨ c = '(') (f : Field) : c ∉ f.word.toList := by
  rcases mark with rfl | rfl <;> cases f <;> decide

theorem Operator.eq_of_word_begins {o p : Operator} (begins : o.word.toList <+: p.word.toList) :
    o = p := by
  revert begins
  cases o <;> cases p <;> decide

theorem Operator.word_append_inj {o p : Operator} {r s : List Char}
    (same : o.word.toList ++ r = p.word.toList ++ s) : o = p ∧ r = s := by
  have left : o.word.toList <+: p.word.toList ++ s := same ▸ List.prefix_append ..
  have right : p.word.toList <+: p.word.toList ++ s := List.prefix_append ..
  have one : o = p := by
    rcases List.prefix_or_prefix_of_prefix left right with begins | begins
    · exact eq_of_word_begins begins
    · exact (eq_of_word_begins begins).symm
  subst one
  exact ⟨rfl, List.append_cancel_left same⟩

theorem Logic.word_append_inj {l m : Logic} {r s : List Char}
    (same : l.word.toList ++ r = m.word.toList ++ s) : l = m ∧ r = s := by
  cases l <;> cases m <;> simp [Logic.word] at same ⊢
  all_goals exact same

namespace Condition

def tail (logic : Logic) (cs : List Condition) : List Char :=
  cs.flatMap fun c => ' ' :: logic.word.toList ++ ' ' :: c.text.toList

theorem tail_cons (logic : Logic) (c : Condition) (cs : List Condition) :
    tail logic (c :: cs) =
      ' ' :: (logic.word.toList ++ ' ' :: (c.text.toList ++ tail logic cs)) := by
  simp [tail]

theorem toList_intercalate_tail (logic : Logic) (c : Condition) (cs : List Condition) :
    (String.intercalate (" " ++ logic.word ++ " ") ((c :: cs).map text)).toList =
      c.text.toList ++ tail logic cs := by
  induction cs generalizing c with
  | nil => simp [tail]
  | cons d cs ih =>
    rw [List.map_cons, List.map_cons, String.intercalate_cons_cons, String.toList_append,
      ← List.map_cons, ih, tail_cons]
    simp

theorem toList_text_join (logic : Logic) (first second : Condition) (more : List Condition) :
    (join logic first second more).text.toList =
      '(' :: (first.text.toList ++ (tail logic (second :: more) ++ [')'])) := by
  have joined : (join logic first second more).text = "(" ++
      String.intercalate (" " ++ logic.word ++ " ") ((first :: second :: more).map text) ++ ")" := by
    rw [text, texts_eq_map]
    rfl
  rw [joined, String.toList_append, String.toList_append, toList_intercalate_tail]
  simp

theorem toList_text_compare (field : Field) (operator : Operator) (value? : Option String)
    (fits : value?.isSome = operator.takesValue) :
    (compare field operator value? fits).text.toList = field.word.toList ++ ' ' ::
      (operator.word.toList ++ value?.elim [] fun v => ' ' :: '\'' :: (v.toList ++ ['\''])) := by
  cases value? <;> simp [text]

theorem text_compare_ne_text_join {field : Field} {operator : Operator} {value? : Option String}
    {fits : value?.isSome = operator.takesValue} {logic : Logic} {first second : Condition}
    {more : List Condition} {r s : List Char} :
    (compare field operator value? fits).text.toList ++ r ≠
      (join logic first second more).text.toList ++ s := by
  rw [toList_text_compare, toList_text_join]
  intro same
  have bracket := Field.not_mem_word (.inr rfl) field
  cases word : field.word.toList with
  | nil => simp [word] at same
  | cons c cs =>
    rw [word] at same bracket
    exact bracket ((List.cons.inj same).1 ▸ List.mem_cons_self)

theorem compare_of_text_append {f g : Field} {o p : Operator} {v? w? : Option String}
    {fits : v?.isSome = o.takesValue} {fits' : w?.isSome = p.takesValue} {r s : List Char}
    (left : ∀ v ∈ v?, '\'' ∉ v.toList) (right : ∀ w ∈ w?, '\'' ∉ w.toList)
    (same : (compare f o v? fits).text.toList ++ r = (compare g p w? fits').text.toList ++ s) :
    compare f o v? fits = compare g p w? fits' ∧ r = s := by
  rw [toList_text_compare, toList_text_compare, List.append_assoc, List.append_assoc,
    List.cons_append, List.cons_append, List.append_assoc, List.append_assoc] at same
  obtain ⟨field, atOperator⟩ :=
    append_mark_inj (f.not_mem_word (.inl rfl)) (g.not_mem_word (.inl rfl)) same
  obtain rfl := Field.word_injective (String.toList_inj.mp field)
  obtain ⟨rfl, atValue⟩ := Operator.word_append_inj atOperator
  -- The operator is the same, so that both have a value or neither has one.
  cases v? with
  | none =>
    cases w? with
    | none => exact ⟨rfl, atValue⟩
    | some w => exact absurd (fits.trans fits'.symm) (by simp)
  | some v =>
    cases w? with
    | none => exact absurd (fits.trans fits'.symm) (by simp)
    | some w =>
      simp only [Option.elim_some, List.cons_append, List.cons.injEq, true_and, List.append_assoc,
        List.nil_append] at atValue
      obtain ⟨value, rest⟩ := append_mark_inj (left v rfl) (right w rfl) atValue
      obtain rfl := String.toList_inj.mp value
      exact ⟨rfl, rest⟩

def Plain (c : Condition) : Prop := ∀ v ∈ c.values, '\'' ∉ v.toList

def AllPlain (cs : List Condition) : Prop := ∀ v ∈ valuesOf cs, '\'' ∉ v.toList

theorem plain_join {logic : Logic} {first second : Condition} {more : List Condition} :
    (join logic first second more).Plain ↔ first.Plain ∧ second.Plain ∧ AllPlain more := by
  simp [Plain, AllPlain, values, or_imp, forall_and]

theorem allPlain_cons {c : Condition} {cs : List Condition} :
    AllPlain (c :: cs) ↔ c.Plain ∧ AllPlain cs := by
  simp [Plain, AllPlain, valuesOf, or_imp, forall_and]

mutual

/-- The text of a condition, whatever follows it, is the text of no other condition. -/
theorem eq_of_text_append : (a b : Condition) → a.Plain → b.Plain → {r s : List Char} →
    a.text.toList ++ r = b.text.toList ++ s → a = b ∧ r = s
  | .compare .., .compare .., left, right, _, _, same =>
    compare_of_text_append (fun v held => left v (by simpa [values] using held))
      (fun v held => right v (by simpa [values] using held)) same
  | .compare .., .join .., _, _, _, _, same => absurd same text_compare_ne_text_join
  | .join .., .compare .., _, _, _, _, same => absurd same.symm text_compare_ne_text_join
  | .join l first second more, .join m first' second' more', left, right, r, s, same => by
    obtain ⟨leftFirst, leftSecond, leftMore⟩ := plain_join.mp left
    obtain ⟨rightFirst, rightSecond, rightMore⟩ := plain_join.mp right
    rw [toList_text_join, toList_text_join, tail_cons, tail_cons] at same
    simp only [List.cons_append, List.append_assoc, List.cons.injEq, true_and] at same
    obtain ⟨rfl, atLogic⟩ := eq_of_text_append first first' leftFirst rightFirst same
    obtain ⟨rfl, atSecond⟩ := Logic.word_append_inj (List.cons.inj atLogic).2
    obtain ⟨rfl, atMore⟩ :=
      eq_of_text_append second second' leftSecond rightSecond (List.cons.inj atSecond).2
    obtain ⟨rfl, atEnd⟩ := eq_of_tail_append l more more' leftMore rightMore atMore
    exact ⟨rfl, atEnd⟩

theorem eq_of_tail_append (logic : Logic) : (as bs : List Condition) → AllPlain as →
    AllPlain bs → {r s : List Char} →
    tail logic as ++ ')' :: r = tail logic bs ++ ')' :: s → as = bs ∧ r = s
  | [], [], _, _, _, _, same => ⟨rfl, (List.cons.inj same).2⟩
  | [], b :: bs, _, _, _, _, same => by simp [tail] at same
  | a :: as, [], _, _, _, _, same => by simp [tail] at same
  | a :: as, b :: bs, left, right, r, s, same => by
    obtain ⟨leftFirst, leftRest⟩ := allPlain_cons.mp left
    obtain ⟨rightFirst, rightRest⟩ := allPlain_cons.mp right
    rw [tail_cons, tail_cons] at same
    simp only [List.cons_append, List.append_assoc, List.cons.injEq, true_and] at same
    have atFirst := (List.cons.inj (Logic.word_append_inj same).2).2
    obtain ⟨rfl, atRest⟩ := eq_of_text_append a b leftFirst rightFirst atFirst
    obtain ⟨rfl, atEnd⟩ := eq_of_tail_append logic as bs leftRest rightRest atRest
    exact ⟨rfl, atEnd⟩

end

end Condition

/-- Nodes that stand for one condition have one expression. Nodes with one expression stand for one
    condition, if no value in it holds an apostrophe. -/
theorem Node.expression_determines_condition (a b : Node) :
    (a.condition? = b.condition? → a.expression false = b.expression false) ∧
      ((∀ v ∈ a.values ++ b.values, '\'' ∉ v.toList) →
        a.expression false = b.expression false → a.condition? = b.condition?) := by
  rw [a.expression_eq_text, b.expression_eq_text]
  constructor
  · intro same
    rw [same]
  · intro plain same
    simp only [List.mem_append, or_imp, forall_and, Node.values] at plain
    obtain ⟨left, right⟩ := plain
    cases ofA : a.condition? with
    | none =>
      cases ofB : b.condition? with
      | none => rfl
      | some d =>
        rw [ofA, ofB] at same
        exact absurd same.symm d.text_ne_empty
    | some c =>
      cases ofB : b.condition? with
      | none =>
        rw [ofA, ofB] at same
        exact absurd same c.text_ne_empty
      | some d =>
        rw [ofA] at left same
        rw [ofB] at right same
        have texts : c.text.toList ++ [] = d.text.toList ++ [] := by
          rw [List.append_nil, List.append_nil]
          exact congrArg String.toList same
        rw [(Condition.eq_of_text_append c d left right texts).1]

/-- A filter beside one that is off, in a group within a group, is told by its expression from all others
    but those like it: the value of the other filter does not count. -/
theorem Node.expression_determines_condition_wrapped :
    let named (id : String) : Node := .filter (.enabled id .name .contains "(x) OR y")
    let off : Node := .filter ⟨"c", .city, .equals, "it's", true⟩
    let group (id : String) (members : Forest) : Node := .group (Group.empty id "Group").toHeader members
    let wrapped := group "root" [group "g" [named "b", off]]
    (∀ v ∈ (named "a").values ++ wrapped.values, '\'' ∉ v.toList) ∧
      (named "a").expression false = wrapped.expression false ∧
      (named "a").condition? = wrapped.condition? := by
  intro named off group wrapped
  have plain : ∀ v ∈ (named "a").values ++ wrapped.values, '\'' ∉ v.toList := by decide
  have same : (named "a").expression false = wrapped.expression false := by decide +kernel
  exact ⟨plain, same, (expression_determines_condition (named "a") wrapped).2 plain same⟩

/-- An apostrophe can make two conditions look like three. -/
example :
    let named (value : String) : Node := Filter.enabled value .name .equals value
    let group (members : List Node) : Node := .group (Group.empty "g" "Group").toHeader members
    (group [named "x' AND name equals 'y", named "z"]).expression false =
        (group [named "x", named "y", named "z"]).expression false ∧
      (group [named "x' AND name equals 'y", named "z"]).condition? ≠
        (group [named "x", named "y", named "z"]).condition? := by
  refine ⟨by decide +kernel, fun same => ?_⟩
  simp [Node.condition?, Forest.conditions, Condition.joined?, Filter.enabled, Group.empty] at same

end NestedRules
