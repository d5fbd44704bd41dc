import NestedRules.Json.Reader
import NestedRules.Proofs.Outcome

namespace NestedRules.Json

variable {ε α : Type}

inductive Phase.Begins : Phase α → Context → Prop
  | value (around : Context) : Begins (.value around) around
  | item (outer : Context) : Begins (.itemOrEnd outer) (.item [] outer)

inductive Phase.Ends : Phase α → Context → Value → Prop
  | text (around : Context) (scribe : Scribe) (text : String) :
      Ends (.text around scribe) around (.string text)
  | literal (around : Context) (word : List Char) (v : Value) : Ends (.literal around word v) around v
  | noItem (outer : Context) : Ends (.itemOrEnd outer) outer (.array [])
  | noMember (outer : Context) : Ends (.keyOrEnd outer) outer (.object [])
  | array (items : List Value) (outer : Context) :
      Ends (.afterItem items outer) outer (.array items.reverse)
  | object (members : List (String × Value)) (outer : Context) :
      Ends (.afterMember members outer) outer (.object members.reverse)

inductive Phase.GoesOn : Phase α → Phase α → Prop
  | beginText {p : Phase α} {around : Context} (begins : p.Begins around) (scribe : Scribe) :
      GoesOn p (.text around scribe)
  | beginNull {p : Phase α} {around : Context} (begins : p.Begins around) (word : List Char) :
      GoesOn p (.literal around word .null)
  | beginBool {p : Phase α} {around : Context} (begins : p.Begins around) (word : List Char)
      (b : Bool) : GoesOn p (.literal around word (.bool b))
  | beginNumeral {p : Phase α} {around : Context} (begins : p.Begins around) (n : Numeral) :
      GoesOn p (.numeral around n)
  | text (around : Context) (scribe scribe' : Scribe) :
      GoesOn (.text around scribe) (.text around scribe')
  | literal (around : Context) (word word' : List Char) (v : Value) :
      GoesOn (.literal around word v) (.literal around word' v)
  | numeral (around : Context) (n n' : Numeral) : GoesOn (.numeral around n) (.numeral around n')
  | firstKey (outer : Context) (scribe : Scribe) : GoesOn (.keyOrEnd outer) (.keyText [] outer scribe)
  | key (members : List (String × Value)) (outer : Context) (scribe : Scribe) :
      GoesOn (.key members outer) (.keyText members outer scribe)
  | keyText (members : List (String × Value)) (outer : Context) (scribe scribe' : Scribe) :
      GoesOn (.keyText members outer scribe) (.keyText members outer scribe')
  | colon (around : Context) : GoesOn (.colon around) (.value around)
  | member (members : List (String × Value)) (outer : Context) :
      GoesOn (.afterMember members outer) (.key members outer)

namespace Schema

variable {s : Schema ε α} {slot : Slot} {around outer : Context} {v : Value} {r r' : Reader α}
  {p : Phase α} {c : Char}

theorem complete_top_iff :
    s.complete slot .top v = .ok r' ↔
      ∃ result, s.finish v = .ok result ∧ r' = ⟨slot, .done result⟩ := by
  constructor
  · intro completed
    obtain ⟨result, judged, same⟩ := bind_eq_ok_iff.mp completed
    cases same
    exact ⟨result, mapError_eq_ok_iff.mp judged, rfl⟩
  · rintro ⟨result, finished, rfl⟩
    exact bind_eq_ok_iff.mpr ⟨result, mapError_eq_ok_iff.mpr finished, rfl⟩

theorem eq_of_complete_item {before : List Value}
    (completed : s.complete slot (.item before outer) v = .ok r') :
    r' = ⟨outer.slotAfter slot, .afterItem (v :: before) outer⟩ := by
  simp only [complete] at completed
  split at completed
  · obtain ⟨_, -, same⟩ := bind_eq_ok_iff.mp completed
    cases same
    rfl
  · cases completed
    rfl

theorem eq_of_complete_member {before : List (String × Value)} {key : String}
    (completed : s.complete slot (.member before key outer) v = .ok r') :
    r' = ⟨outer.slotAfter slot, .afterMember ((key, v) :: before) outer⟩ := by
  simp only [complete] at completed
  split at completed
  · obtain ⟨_, -, same⟩ := bind_eq_ok_iff.mp completed
    cases same
    rfl
  · cases completed
    rfl

/-- What may become of a reader by one step. A number is over only with the character after it, which
    then does what it does where the value stands complete. -/
inductive Turn (s : Schema ε α) : Reader α → Reader α → Prop
  | blank (r : Reader α) : Turn s r r
  | goesOn {slot : Slot} {p q : Phase α} (goesOn : p.GoesOn q) : Turn s ⟨slot, p⟩ ⟨slot, q⟩
  | openArray {slot next : Slot} {p : Phase α} {around : Context} (begins : p.Begins around)
      (given : s.itemSlot slot 0 around = .ok next) : Turn s ⟨slot, p⟩ ⟨next, .itemOrEnd around⟩
  | openObject {slot : Slot} {p : Phase α} {around : Context} (begins : p.Begins around) :
      Turn s ⟨slot, p⟩ ⟨slot, .keyOrEnd around⟩
  | nextItem {slot next : Slot} {items : List Value} {outer : Context}
      (given : s.itemSlot slot items.length outer = .ok next) :
      Turn s ⟨slot, .afterItem items outer⟩ ⟨next, .value (.item items outer)⟩
  | keyEnds {slot next : Slot} {members : List (String × Value)} {outer : Context}
      {scribe : Scribe} {key : String} (given : s.memberSlot slot members key outer = .ok next) :
      Turn s ⟨slot, .keyText members outer scribe⟩ ⟨next, .colon (.member members key outer)⟩
  | ends {slot : Slot} {p : Phase α} {around : Context} {v : Value} {r' : Reader α}
      (ends : p.Ends around v) (completed : s.complete slot around v = .ok r') : Turn s ⟨slot, p⟩ r'
  | number {slot : Slot} {around : Context} {n : Numeral} {v : Value} {mid r' : Reader α}
      (known : (numeralValue slot n : Except (Fault ε) Value) = .ok v)
      (completed : s.complete slot around v = .ok mid) (rest : Turn s mid r') :
      Turn s ⟨slot, .numeral around n⟩ r'

theorem turn_of_beginValue (begins : p.Begins around)
    (began : s.beginValue slot around c = .ok r') : s.Turn ⟨slot, p⟩ r' := by
  unfold beginValue at began
  split at began
  · cases began
    exact .goesOn (.beginText begins _)
  split at began
  · obtain ⟨_, -, opened⟩ := bind_eq_ok_iff.mp began
    obtain ⟨next, given, same⟩ := bind_eq_ok_iff.mp opened
    cases same
    exact .openArray begins given
  split at began
  · obtain ⟨_, -, same⟩ := bind_eq_ok_iff.mp began
    cases same
    exact .openObject begins
  split at began
  · cases began
    exact .goesOn (.beginNull begins _)
  iterate 2
    split at began
    · cases began
      exact .goesOn (.beginBool begins _ _)
  split at began
  · cases began
    exact .goesOn (.beginNumeral begins _)
  · cases began

theorem turn_of_settled (stepped : s.settled r c = .ok r') : s.Turn r r' := by
  obtain ⟨slot, phase⟩ := r
  unfold settled at stepped
  split at stepped
  · cases stepped
    exact .blank _
  · cases phase with
    | afterItem items outer =>
      dsimp only at stepped
      split at stepped
      · obtain ⟨next, given, same⟩ := bind_eq_ok_iff.mp stepped
        cases same
        exact .nextItem given
      · split at stepped
        · exact .ends (.array items outer) stepped
        · cases stepped
    | afterMember members outer =>
      dsimp only at stepped
      split at stepped
      · cases stepped
        exact .goesOn (.member members outer)
      · split at stepped
        · exact .ends (.object members outer) stepped
        · cases stepped
    | _ => cases stepped

theorem turn_of_stepToken (stepped : s.stepToken r c = .ok r') : s.Turn r r' := by
  obtain ⟨slot, phase⟩ := r
  cases phase with
  | value around => exact turn_of_beginValue (.value around) stepped
  | itemOrEnd outer =>
    simp only [stepToken] at stepped
    split at stepped
    · exact .ends (.noItem outer) stepped
    · exact turn_of_beginValue (.item outer) stepped
  | keyOrEnd outer =>
    simp only [stepToken] at stepped
    split at stepped
    · cases stepped
      exact .goesOn (.firstKey outer _)
    · split at stepped
      · exact .ends (.noMember outer) stepped
      · cases stepped
  | key members outer =>
    simp only [stepToken] at stepped
    split at stepped
    · cases stepped
      exact .goesOn (.key members outer _)
    · cases stepped
  | colon around =>
    simp only [stepToken] at stepped
    split at stepped
    · cases stepped
      exact .goesOn (.colon around)
    · cases stepped
  | _ => exact turn_of_settled stepped

theorem turn_of_step (stepped : s.step r c = .ok r') : s.Turn r r' := by
  obtain ⟨slot, phase⟩ := r
  cases phase with
  | keyText members outer scribe =>
    simp only [step] at stepped
    split at stepped
    · cases stepped
      exact .goesOn (.keyText members outer _ _)
    · cases stepped
    · obtain ⟨next, given, same⟩ := bind_eq_ok_iff.mp stepped
      cases same
      exact .keyEnds given
  | text around scribe =>
    simp only [step] at stepped
    split at stepped
    · cases stepped
      exact .goesOn (.text around _ _)
    · cases stepped
    · exact .ends (.text around _ _) stepped
  | literal around word v =>
    cases word with
    | nil =>
      simp only [step] at stepped
      split at stepped
      · cases stepped
        exact .blank _
      · exact turn_of_stepToken stepped
    | cons next rest =>
      simp only [step] at stepped
      split at stepped
      · cases stepped
      · split at stepped
        · exact .ends (.literal around _ v) stepped
        · cases stepped
          exact .goesOn (.literal around _ _ v)
  | numeral around n =>
    simp only [step] at stepped
    split at stepped
    · cases stepped
      exact .goesOn (.numeral around _ _)
    · cases stepped
    · obtain ⟨v, known, stepped⟩ := bind_eq_ok_iff.mp stepped
      obtain ⟨ended, completed, stepped⟩ := bind_eq_ok_iff.mp stepped
      exact .number known completed (turn_of_settled stepped)
  | value | itemOrEnd | keyOrEnd | key | colon | afterItem | afterMember | done =>
    simp only [step] at stepped
    split at stepped
    · cases stepped
      exact .blank _
    · exact turn_of_stepToken stepped

end Schema

end NestedRules.Json
