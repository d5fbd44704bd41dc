import NestedRules.Json.Reader
import NestedRules.Proofs.Json.Spelling

namespace NestedRules.Json

structure Blanks where
  chars : List Char
  blank : ∀ c ∈ chars, isBlank c = true

structure Digits where
  first : Fin 10
  rest : List (Fin 10)

structure Exponent where
  isUpper : Bool
  negative? : Option Bool
  digits : Digits

structure Figure where
  negative : Bool
  whole : Digits
  trimmed : whole.first = 0 → whole.rest = []
  fraction? : Option Digits
  exponent? : Option Exponent

structure Item (α : Type) where
  lead : Blanks
  value : α
  trail : Blanks

structure Name where
  lead : Blanks
  letters : List Letter
  beforeColon : Blanks
  afterColon : Blanks

structure Member (α : Type) where
  name : Name
  value : α
  trail : Blanks

/-- A value as it stands in a text; `gap` is what stands right after an opening bracket. -/
inductive Draft
  | null
  | bool (b : Bool)
  | number (figure : Figure)
  | string (letters : List Letter)
  | array (gap : Blanks) (items : List (Item Draft))
  | object (gap : Blanks) (members : List (Member Draft))

def Digits.text (d : Digits) : List Char := (d.first :: d.rest).map fun n => Nat.digitChar n.val

def Exponent.text (e : Exponent) : List Char :=
  (if e.isUpper then 'E' else 'e') ::
    ((e.negative?.elim [] fun negative => [if negative then '-' else '+']) ++ e.digits.text)

def Figure.text (f : Figure) : List Char :=
  (if f.negative then ['-'] else []) ++ (f.whole.text ++
    ((f.fraction?.elim [] fun digits => '.' :: digits.text) ++ f.exponent?.elim [] Exponent.text))

def Name.text (n : Name) : List Char :=
  n.lead.chars ++ (quotedText n.letters ++ (n.beforeColon.chars ++ ':' :: n.afterColon.chars))

mutual

def Draft.text : Draft → List Char
  | .null => ['n', 'u', 'l', 'l']
  | .bool true => ['t', 'r', 'u', 'e']
  | .bool false => ['f', 'a', 'l', 's', 'e']
  | .number figure => figure.text
  | .string letters => quotedText letters
  | .array gap [] => '[' :: (gap.chars ++ [']'])
  | .array gap (⟨lead, v, trail⟩ :: items) =>
    '[' :: (gap.chars ++ (lead.chars ++ (v.text ++ (trail.chars ++ (itemsText items ++ [']'])))))
  | .object gap [] => '\x7b' :: (gap.chars ++ ['\x7d'])
  | .object gap (⟨name, v, trail⟩ :: members) =>
    '\x7b' :: (gap.chars ++
      (name.text ++ (v.text ++ (trail.chars ++ (membersText members ++ ['\x7d'])))))

def itemsText : List (Item Draft) → List Char
  | [] => []
  | ⟨lead, v, trail⟩ :: items =>
    ',' :: (lead.chars ++ (v.text ++ (trail.chars ++ itemsText items)))

def membersText : List (Member Draft) → List Char
  | [] => []
  | ⟨name, v, trail⟩ :: members =>
    ',' :: (name.text ++ (v.text ++ (trail.chars ++ membersText members)))

end

def Member.text (m : Member Draft) : List Char := m.name.text ++ (m.value.text ++ m.trail.chars)

theorem membersText_cons (m : Member Draft) (members : List (Member Draft)) :
    membersText (m :: members) = ',' :: (m.text ++ membersText members) := by
  simp [membersText, Member.text]

theorem Draft.text_object_cons (gap : Blanks) (m : Member Draft) (members : List (Member Draft)) :
    (object gap (m :: members)).text =
      '\x7b' :: (gap.chars ++ (m.text ++ (membersText members ++ ['\x7d']))) := by
  simp [text, Member.text]

structure ObjectText where
  lead : Blanks
  gap : Blanks
  members : List (Member Draft)
  trail : Blanks

def ObjectText.text (o : ObjectText) : String :=
  String.ofList (o.lead.chars ++ ((Draft.object o.gap o.members).text ++ o.trail.chars))

def Draft.string? : Draft → Option String
  | string letters => spelled? letters
  | _ => none

namespace Numeral

/-- The numeral takes the characters, and they are not all of the number. -/
def Takes (n : Numeral) : List Char → Numeral → Prop
  | [], m => n = m
  | c :: cs, m => ∃ next, n.push c = .more next ∧ Takes next cs m

theorem Takes.append {n m k : Numeral} {cs ds : List Char} (first : n.Takes cs m)
    (second : m.Takes ds k) : n.Takes (cs ++ ds) k := by
  induction cs generalizing n with
  | nil =>
    obtain rfl : n = m := first
    exact second
  | cons c cs ih =>
    obtain ⟨next, pushed, rest⟩ := first
    exact ⟨next, pushed, ih rest⟩

theorem digit?_digitChar (d : Fin 10) : digit? (Nat.digitChar d.val) = some d.val := by
  revert d
  decide

def Stage.Leads (a : Stage) (cs : List Char) (b : Stage) : Prop :=
  ∀ n : Numeral, n.stage = a → ∃ m : Numeral, n.Takes cs m ∧ m.stage = b

namespace Stage

variable {a b c : Stage} {cs ds : List Char}

theorem Leads.refl (a : Stage) : a.Leads [] a := fun n at' => ⟨n, rfl, at'⟩

theorem Leads.append (first : a.Leads cs b) (second : b.Leads ds c) : a.Leads (cs ++ ds) c := by
  intro n start
  obtain ⟨m, front, middle⟩ := first n start
  obtain ⟨k, back, stop⟩ := second m middle
  exact ⟨k, front.append back, stop⟩

def afterDigit? (d : Nat) : Stage → Option Stage
  | sign => some (if d = 0 then .zero else .whole)
  | whole => some .whole
  | point | fraction => some .fraction
  | mark | markSign | exponent => some .exponent
  | zero => none

theorem leads_digit {d : Fin 10} (allowed : a.afterDigit? d.val = some b) :
    a.Leads [Nat.digitChar d.val] b := by
  rintro ⟨negative, whole, fraction, shrinks, exponent, stage⟩ rfl
  cases stage with
  | zero => cases allowed
  | _ =>
    cases allowed
    simp [Takes, push, digit?_digitChar, pushWhole, pushFraction, pushExponent]

theorem leads_digits {d : Digits} (first : a.afterDigit? d.first.val = some b)
    (others : ∀ n ∈ d.rest, b.afterDigit? n.val = some b) : a.Leads d.text b := by
  have rest : ∀ ns : List (Fin 10), (∀ n ∈ ns, b.afterDigit? n.val = some b) →
      b.Leads (ns.map fun n => Nat.digitChar n.val) b := by
    intro ns allowed
    induction ns with
    | nil => exact .refl b
    | cons n ns ih =>
      exact (leads_digit (allowed n List.mem_cons_self)).append
        (ih fun k member => allowed k (List.mem_cons_of_mem n member))
  exact (leads_digit first).append (rest d.rest others)

theorem leads_fraction (d : Digits) (start : a = zero ∨ a = whole) :
    a.Leads ('.' :: d.text) fraction := by
  have point : a.Leads ['.'] point := by
    rintro ⟨negative, whole, fraction, shrinks, exponent, _⟩ rfl
    rcases start with rfl | rfl
    · simp [Takes, push, digit?]
    · simp [Takes, push, digit?]
  exact point.append (leads_digits rfl fun _ _ => rfl)

theorem leads_exponent (e : Exponent) (start : a = zero ∨ a = whole ∨ a = fraction) :
    a.Leads e.text exponent := by
  obtain ⟨isUpper, negative?, digits⟩ := e
  have mark : a.Leads [if isUpper then 'E' else 'e'] mark := by
    rintro ⟨negative, whole, fraction, shrinks, exponent, _⟩ rfl
    rcases start with rfl | rfl | rfl <;> cases isUpper <;> simp [Takes, push, digit?, isMark]
  cases negative? with
  | none => exact mark.append (leads_digits rfl fun _ _ => rfl)
  | some negative =>
    have sign : Stage.mark.Leads [if negative then '-' else '+'] markSign := by
      rintro ⟨_, whole, fraction, shrinks, exponent, _⟩ rfl
      cases negative <;> simp [Takes, push, digit?]
    exact mark.append (sign.append (leads_digits rfl fun _ _ => rfl))

theorem leads_tail (fraction? : Option Digits) (exponent? : Option Exponent)
    (start : a = zero ∨ a = whole) :
    ∃ b : Stage, a.Leads
        ((fraction?.elim [] fun d => '.' :: d.text) ++ exponent?.elim [] Exponent.text) b ∧
      (b = zero ∨ b = whole ∨ b = fraction ∨ b = exponent) := by
  obtain ⟨b, front, middle⟩ : ∃ b : Stage, a.Leads (fraction?.elim [] fun d => '.' :: d.text) b ∧
      (b = zero ∨ b = whole ∨ b = fraction) := by
    cases fraction? with
    | none => exact ⟨a, .refl a, start.imp_right .inl⟩
    | some digits => exact ⟨fraction, leads_fraction digits start, .inr (.inr rfl)⟩
  cases exponent? with
  | none =>
    rw [Option.elim_none, List.append_nil]
    exact ⟨b, front, middle.imp_right (.imp_right .inl)⟩
  | some e => exact ⟨exponent, front.append (leads_exponent e middle), by simp⟩

end Stage

theorem isComplete_iff {n : Numeral} :
    n.isComplete = true ↔
      n.stage = .zero ∨ n.stage = .whole ∨ n.stage = .fraction ∨ n.stage = .exponent := by
  cases n with
  | mk negative whole fraction shrinks exponent stage => cases stage <;> simp [isComplete]

theorem start?_digitChar {d : Fin 10} {n : Numeral}
    (pushed : empty.push (Nat.digitChar d.val) = .more n) : start? (Nat.digitChar d.val) = some n := by
  have noSign : ∀ d : Fin 10, Nat.digitChar d.val ≠ '-' := by decide
  rw [push, digit?_digitChar] at pushed
  cases pushed
  simp [start?, noSign d, digit?_digitChar, empty]

theorem takes_text (f : Figure) :
    ∃ c cs n m, f.text = c :: cs ∧ start? c = some n ∧ n.Takes cs m ∧ m.isComplete = true := by
  obtain ⟨negative, whole, trimmed, fraction?, exponent?⟩ := f
  obtain ⟨middle, front, stage⟩ : ∃ b : Stage,
      Stage.sign.Leads whole.text b ∧ (b = .zero ∨ b = .whole) := by
    by_cases zero : whole.first = 0
    · refine ⟨.zero, Stage.leads_digits (by simp [Stage.afterDigit?, zero]) ?_, .inl rfl⟩
      rw [trimmed zero]
      exact nofun
    · have first : Stage.afterDigit? whole.first.val .sign = some .whole := by
        simpa [Stage.afterDigit?] using zero
      exact ⟨.whole, Stage.leads_digits first fun _ _ => rfl, .inr rfl⟩
  obtain ⟨last, back, complete⟩ := Stage.leads_tail fraction? exponent? stage
  have all := front.append back
  -- A number without a sign starts with its first digit, as it would go on after a sign.
  cases negative with
  | true =>
    obtain ⟨m, taken, atLast⟩ := all { empty with negative := true } rfl
    exact ⟨'-', _, _, m, rfl, rfl, taken, isComplete_iff.mpr (atLast ▸ complete)⟩
  | false =>
    obtain ⟨m, ⟨n, pushed, taken⟩, atLast⟩ := all empty rfl
    exact ⟨_, _, n, m, rfl, start?_digitChar pushed, taken, isComplete_iff.mpr (atLast ▸ complete)⟩

end Numeral

end NestedRules.Json
