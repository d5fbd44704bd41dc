import NestedRules.Proofs.Json.Turn
import NestedRules.Proofs.Json.WrittenValue

namespace NestedRules.Json

/-- With the value in the place that the context leaves open, and some parts after it, the outermost
    value is `whole`. -/
def Context.Fits : Context → Value → Value → Prop
  | top, v, whole => v = whole
  | item before outer, v, whole =>
    ∃ after, outer.Fits (.array (before.reverse ++ v :: after)) whole
  | member before key outer, v, whole =>
    ∃ after, outer.Fits (.object (before.reverse ++ (key, v) :: after)) whole

def Value.IsNumber : Value → Prop
  | integer _ | real _ => True
  | _ => False

theorem Value.IsNumber.not_numberFree {v : Value} (number : v.IsNumber) : ¬ v.NumberFree := by
  cases v <;> first | exact id | exact absurd number id

/-- The value that is being read may come out as `whole`. -/
def Phase.MayBe (whole : Value) : Phase Value → Prop
  | .value around | .colon around => ∃ v, around.Fits v whole
  | .itemOrEnd outer => ∃ items, outer.Fits (.array items) whole
  | .keyOrEnd outer => ∃ members, outer.Fits (.object members) whole
  | .key members outer | .keyText members outer _ | .afterMember members outer =>
    ∃ after, outer.Fits (.object (members.reverse ++ after)) whole
  | .text around _ => ∃ text, around.Fits (.string text) whole
  | .literal around _ v => around.Fits v whole
  | .numeral around _ => ∃ v, v.IsNumber ∧ around.Fits v whole
  | .afterItem items outer => ∃ after, outer.Fits (.array (items.reverse ++ after)) whole
  | .done v => v = whole

section

variable {whole v : Value} {p q : Phase Value} {around : Context}

theorem Phase.Begins.mayBe (begins : p.Begins around) (fits : around.Fits v whole) :
    p.MayBe whole := by
  cases begins with
  | value => exact ⟨v, fits⟩
  | item outer =>
    obtain ⟨after, fits⟩ := fits
    exact ⟨_, fits⟩

theorem Phase.Ends.mayBe (ends : p.Ends around v) (fits : around.Fits v whole) :
    p.MayBe whole := by
  cases ends with
  | text _ _ text => exact ⟨text, fits⟩
  | literal => exact fits
  | noItem | noMember => exact ⟨[], fits⟩
  | array | object => exact ⟨[], by rwa [List.append_nil]⟩

theorem Phase.GoesOn.mayBe (goesOn : p.GoesOn q) (leads : q.MayBe whole) : p.MayBe whole := by
  cases goesOn with
  | beginText begins =>
    obtain ⟨text, fits⟩ := leads
    exact begins.mayBe fits
  | beginNull begins | beginBool begins => exact begins.mayBe leads
  | beginNumeral begins =>
    obtain ⟨v, -, fits⟩ := leads
    exact begins.mayBe fits
  | _ => exact leads

end

namespace Schema

variable (whole : Value) {r r' : Reader Value} {around : Context} {v : Value}

def Outlook (whole : Value) (before : Prop) (r' : Reader Value) : Prop :=
  r'.slot = .plain ∧ (r'.phase.MayBe whole → before)

theorem outlook_complete (completed : anyValue.complete .plain around v = .ok r') :
    Outlook whole (around.Fits v whole) r' := by
  cases around with
  | top =>
    cases completed
    exact ⟨rfl, id⟩
  | item before outer =>
    rw [complete_item] at completed
    cases completed
    exact ⟨rfl, by simp [Phase.MayBe, Context.Fits]⟩
  | member before key outer =>
    rw [complete_member] at completed
    cases completed
    exact ⟨rfl, by simp [Phase.MayBe, Context.Fits]⟩

theorem itemSlot_anyValue (count : Nat) (around : Context) :
    anyValue.itemSlot .plain count around = .ok .plain := by
  cases around <;> rfl

theorem memberSlot_anyValue (before : List (String × Value)) (key : String) (around : Context) :
    anyValue.memberSlot .plain before key around = .ok .plain := by
  cases around <;> rfl

theorem isNumber_of_numeralValue {ε : Type} {slot : Slot} {n : Numeral} (looked : slot ≠ .skipped)
    (known : (numeralValue slot n : Except (Fault ε) Value) = .ok v) : v.IsNumber := by
  have value : n.value? = some v := by
    cases found : n.value? <;> simp_all [numeralValue]
  unfold Numeral.value? at value
  dsimp only at value
  split at value
  · cases value
    trivial
  · split at value
    · cases value
      trivial
    · obtain ⟨x, -, rfl⟩ := Option.map_eq_some_iff.mp value
      trivial

/-- What a step leads to, the reader could become before it. -/
theorem outlook_turn (turn : anyValue.Turn r r') (plain : r.slot = .plain) :
    Outlook whole (r.phase.MayBe whole) r' := by
  induction turn with
  | blank => exact ⟨plain, id⟩
  | goesOn goesOn => exact ⟨plain, goesOn.mayBe⟩
  | openArray begins given =>
    obtain rfl := plain
    rw [itemSlot_anyValue] at given
    cases given
    refine ⟨rfl, ?_⟩
    rintro ⟨items, fits⟩
    exact begins.mayBe fits
  | openObject begins =>
    refine ⟨plain, ?_⟩
    rintro ⟨members, fits⟩
    exact begins.mayBe fits
  | nextItem given =>
    obtain rfl := plain
    rw [itemSlot_anyValue] at given
    cases given
    refine ⟨rfl, ?_⟩
    rintro ⟨v, after, fits⟩
    exact ⟨v :: after, fits⟩
  | keyEnds given =>
    obtain rfl := plain
    rw [memberSlot_anyValue] at given
    cases given
    refine ⟨rfl, ?_⟩
    rintro ⟨v, after, fits⟩
    exact ⟨_, fits⟩
  | ends ends completed =>
    obtain rfl := plain
    obtain ⟨plain, back⟩ := outlook_complete whole completed
    exact ⟨plain, fun leads => ends.mayBe (back leads)⟩
  | @number slot around n v mid r' known completed rest ih =>
    obtain rfl := plain
    obtain ⟨between, back⟩ := outlook_complete whole completed
    obtain ⟨plain, before⟩ := ih between
    exact ⟨plain, fun leads => ⟨v, isNumber_of_numeralValue (by decide) known, back (before leads)⟩⟩

theorem outlook_reaches {phase : Phase Value} {cs : List Char}
    (reaches : anyValue.Reaches ⟨.plain, phase⟩ cs r') : Outlook whole (phase.MayBe whole) r' := by
  induction cs generalizing phase with
  | nil =>
    cases reaches
    exact ⟨rfl, id⟩
  | cons c cs ih =>
    rw [Reaches, List.foldlM_cons] at reaches
    obtain ⟨⟨slot, next⟩, stepped, rest⟩ := bind_eq_ok_iff.mp reaches
    obtain ⟨rfl, first⟩ := outlook_turn whole (turn_of_step stepped) rfl
    obtain ⟨plain, later⟩ := ih rest
    exact ⟨plain, fun leads => first (later leads)⟩

theorem reaches_of_parse {text : String} (parsed : Value.parse text = .ok v) :
    anyValue.Reaches start text.toList ⟨.plain, .done v⟩ ∨ v.IsNumber := by
  obtain ⟨⟨slot, phase⟩, reached, closed⟩ := bind_eq_ok_iff.mp parsed
  obtain ⟨rfl, -⟩ := outlook_reaches v reached
  cases phase with
  | numeral around n =>
    simp only [close] at closed
    split at closed
    · obtain ⟨number, known, closed⟩ := bind_eq_ok_iff.mp closed
      obtain ⟨ended, completed, closed⟩ := bind_eq_ok_iff.mp closed
      have isNumber := isNumber_of_numeralValue (by decide) known
      cases around with
      | top =>
        cases completed
        cases closed
        exact .inr isNumber
      | item before outer =>
        rw [complete_item] at completed
        cases completed
        cases closed
      | member before key outer =>
        rw [complete_member] at completed
        cases completed
        cases closed
    · cases closed
  | done result =>
    cases closed
    exact .inl reached
  | _ => cases closed

end Schema

theorem ItemsNumberFree.of_append_cons {before after : List Value} {v : Value}
    (free : ItemsNumberFree (before ++ v :: after)) : v.NumberFree := by
  induction before with
  | nil => exact free.1
  | cons first before ih => exact ih free.2

theorem MembersNumberFree.of_append_cons {before after : List (String × Value)} {key : String}
    {v : Value} (free : MembersNumberFree (before ++ (key, v) :: after)) : v.NumberFree := by
  induction before with
  | nil => exact free.1
  | cons first before ih => exact ih free.2

theorem Context.Fits.numberFree {around : Context} {v whole : Value} (fits : around.Fits v whole)
    (free : whole.NumberFree) : v.NumberFree := by
  induction around generalizing v with
  | top =>
    obtain rfl : v = whole := fits
    exact free
  | item before outer ih =>
    obtain ⟨after, fits⟩ := fits
    exact ItemsNumberFree.of_append_cons (ih fits)
  | member before key outer ih =>
    obtain ⟨after, fits⟩ := fits
    exact MembersNumberFree.of_append_cons (ih fits)

end NestedRules.Json
