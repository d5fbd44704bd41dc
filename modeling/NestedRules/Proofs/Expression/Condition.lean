import NestedRules.Expression

namespace NestedRules

/-- A comparison, with a value just where its operator takes one, or two or more conditions that are
    joined by one logic. -/
inductive Condition
  | compare (field : Field) (operator : Operator) (value? : Option String)
      (fits : value?.isSome = operator.takesValue)
  | join (logic : Logic) (first second : Condition) (more : List Condition)

namespace Condition

def ofFilter (f : Filter) : Condition :=
  .compare f.field f.operator (if f.operator.takesValue then some f.value else none) (by
    cases f.operator.takesValue <;> rfl)

def joined? (logic : Logic) : List Condition → Option Condition
  | [] => none
  | [single] => some single
  | first :: second :: more => some (.join logic first second more)

mutual

def text : Condition → String
  | .compare field operator none _ => field.word ++ " " ++ operator.word
  | .compare field operator (some value) _ =>
    field.word ++ " " ++ operator.word ++ " '" ++ value ++ "'"
  | .join logic first second more => logic.join (first.text :: second.text :: texts more)

def texts : List Condition → List String
  | [] => []
  | c :: cs => c.text :: texts cs

end

mutual

def values : Condition → List String
  | .compare _ _ value? _ => value?.toList
  | .join _ first second more => first.values ++ second.values ++ valuesOf more

def valuesOf : List Condition → List String
  | [] => []
  | c :: cs => c.values ++ valuesOf cs

end

theorem texts_eq_map (cs : List Condition) : texts cs = cs.map text := by
  induction cs with
  | nil => rfl
  | cons c cs ih => rw [texts, ih, List.map_cons]

end Condition

mutual

/-- The condition that a node stands for, if it stands for any. -/
def Node.condition? : Node → Option Condition
  | .filter f => if f.isDisabled then none else some (.ofFilter f)
  | .group h cs => if h.isDisabled then none else Condition.joined? h.logic (Forest.conditions cs)

def Forest.conditions : Forest → List Condition
  | [] => []
  | c :: cs => c.condition?.toList ++ Forest.conditions cs

end

def Node.values (n : Node) : List String := n.condition?.elim [] Condition.values

theorem Filter.text_ofFilter (f : Filter) : (Condition.ofFilter f).text = f.text := by
  unfold Condition.ofFilter Filter.text
  by_cases takes : f.operator.takesValue = true <;> simp [takes, Condition.text]

theorem Condition.text_ne_empty (c : Condition) : c.text ≠ "" := by
  cases c with
  | compare field operator value? fits => cases value? <;> simp [text]
  | join logic first second more => simp [text, Logic.join]

theorem Condition.text_joined? (logic : Logic) (cs : List Condition) :
    (Condition.joined? logic cs).elim "" text = logic.join (cs.map text) := by
  match cs with
  | [] => rfl
  | [single] => rfl
  | first :: second :: more => simp [joined?, text, texts_eq_map]

mutual

theorem Node.expression_eq_text : (n : Node) →
    n.expression false = n.condition?.elim "" Condition.text
  | .filter f => by
    rw [Node.expression, Node.condition?]
    cases f.isDisabled <;> simp [Filter.text_ofFilter]
  | .group h cs => by
    have members := Forest.clauses_eq_texts cs
    rw [Node.expression, Node.condition?]
    cases h.isDisabled <;> simp [members, Condition.text_joined?]

theorem Forest.clauses_eq_texts : (cs : Forest) →
    Forest.clauses cs = (Forest.conditions cs).map Condition.text
  | [] => rfl
  | c :: cs => by
    have first := Node.expression_eq_text c
    have rest := Forest.clauses_eq_texts cs
    rw [Forest.clauses, Forest.conditions, first, rest]
    cases c.condition? with
    | none => simp
    | some d => simp [d.text_ne_empty]

end

end NestedRules
