import NestedRules.Proofs.Json.WrittenString

namespace NestedRules.Json

structure HexDigit where
  value : Fin 16
  isUpper : Bool

structure HexCode where
  first : HexDigit
  second : HexDigit
  third : HexDigit
  fourth : HexDigit

def escapes : List (Char × Char) :=
  [('"', '"'), ('\\', '\\'), ('/', '/'), ('b', '\x08'), ('f', '\x0c'), ('n', '\n'), ('r', '\r'),
    ('t', '\t')]

inductive Letter
  | plain (c : Char) (bare : c ≠ '"' ∧ c ≠ '\\' ∧ 0x20 ≤ c.toNat)
  | escape (letter c : Char) (known : (letter, c) ∈ escapes)
  | code (code : HexCode)

def HexDigit.char (d : HexDigit) : Char :=
  let small := Nat.digitChar d.value
  if d.isUpper then small.toUpper else small

namespace HexCode

def digits (h : HexCode) : List HexDigit := [h.first, h.second, h.third, h.fourth]

def value (h : HexCode) : Nat := h.digits.foldl (fun n d => n * 16 + d.value) 0

def ofNat (n : Nat) : HexCode :=
  let digit (shift : Nat) : HexDigit := ⟨Fin.ofNat 16 (n / shift), false⟩
  ⟨digit 0x1000, digit 0x100, digit 0x10, digit 1⟩

end HexCode

def Letter.text : Letter → List Char
  | plain c _ => [c]
  | escape letter _ _ => ['\\', letter]
  | code h => '\\' :: 'u' :: h.digits.map HexDigit.char

/-- What a letter puts down after the first half of a surrogate pair, if one is left to be completed,
    and the half that it leaves itself; absent where the letter may not stand. -/
def Letter.spell? : Option Nat → Letter → Option (List Char × Option Nat)
  | none, plain c _ | none, escape _ c _ => some ([c], none)
  | none, code h =>
    if Scribe.isTrail h.value then none
    else if Scribe.isLead h.value then some ([], some h.value)
    else some ([Char.ofNat h.value], none)
  | some lead, code h =>
    if Scribe.isTrail h.value then
      some ([Char.ofNat (0x10000 + (lead - 0xD800) * 0x400 + (h.value - 0xDC00))], none)
    else none
  | some _, _ => none

def spelledAfter (lead? : Option Nat) : List Letter → Option (List Char)
  | [] => if lead?.isNone then some [] else none
  | letter :: letters =>
    (letter.spell? lead?).bind fun (cs, next?) => (spelledAfter next? letters).map (cs ++ ·)

/-- The text of a string, by its letters; absent where half a surrogate pair stands alone. -/
def spelled? (letters : List Letter) : Option String :=
  (spelledAfter none letters).map String.ofList

example : spelled? [.code (.ofNat 0xD83D), .code (.ofNat 0xDE00)] = some "😀" ∧
    spelled? [.code (.ofNat 0xD83D)] = none := by decide

def quotedText (letters : List Letter) : List Char := '"' :: (letters.flatMap Letter.text ++ ['"'])

namespace HexEscape

theorem push_char (h : HexEscape) (d : HexDigit) :
    h.push d.char = ⟨h.width + 1, h.value * 16 + d.value, h.isSound⟩ := by
  have read : ∀ (value : Fin 16) (isUpper : Bool),
      hexDigit? (HexDigit.char ⟨value, isUpper⟩) = some value.val := by decide
  rw [push, read d.value d.isUpper]

end HexEscape

namespace Scribe

theorem escaped?_of_mem {letter c : Char} (known : (letter, c) ∈ escapes) :
    letter ≠ 'u' ∧ escaped? letter = some c := by
  have table : ∀ entry ∈ escapes, entry.1 ≠ 'u' ∧ escaped? entry.1 = some entry.2 := by decide
  exact table _ known

/-- The scribe turns down one of the characters, and the string is not over before it. -/
def Stops (s : Scribe) : List Char → Prop
  | [] => False
  | c :: cs => s.push c = .malformed ∨ ∃ next, s.push c = .more next ∧ next.Stops cs

variable {s t : Scribe} {cs ds : List Char}

theorem Takes.stops (first : s.Takes cs t) (stops : t.Stops ds) : s.Stops (cs ++ ds) := by
  induction cs generalizing s with
  | nil =>
    obtain rfl : s = t := first
    exact stops
  | cons c cs ih =>
    obtain ⟨next, pushed, rest⟩ := first
    exact .inr ⟨next, pushed, ih rest⟩

theorem Stops.append (stops : s.Stops cs) (ds : List Char) : s.Stops (cs ++ ds) := by
  induction cs generalizing s with
  | nil => exact stops.elim
  | cons c cs ih =>
    refine stops.imp_right ?_
    rintro ⟨next, pushed, rest⟩
    exact ⟨next, pushed, ih rest⟩

section

variable (isLenient : Bool) (text : String)

theorem hex_turn (lead? : Option Nat) (h : HexCode) :
    ∃ mid : Scribe, (Scribe.mk isLenient text (.hex lead? .empty)).Takes
        ([h.first, h.second, h.third].map HexDigit.char) mid ∧
      mid.push h.fourth.char = (Scribe.mk isLenient text .plain).putCode lead? h.value := by
  let hex (width value : Nat) : Scribe := ⟨isLenient, text, .hex lead? ⟨width, value, true⟩⟩
  have one (width value : Nat) (d : HexDigit) (room : width + 1 < 4) :
      (hex width value).push d.char = .more (hex (width + 1) (value * 16 + d.value)) := by
    simp only [hex, push, HexEscape.push_char, room, if_true]
    rfl
  refine ⟨hex 3 _, ⟨_, one 0 0 h.first (by decide), _, one 1 _ h.second (by decide), _,
    one 2 _ h.third (by decide), rfl⟩, ?_⟩
  simp only [hex, push, HexEscape.push_char]
  rfl

theorem takes_hex {lead? : Option Nat} {h : HexCode} {next : Scribe}
    (put : (Scribe.mk isLenient text .plain).putCode lead? h.value = .more next) :
    (Scribe.mk isLenient text (.hex lead? .empty)).Takes (h.digits.map HexDigit.char) next := by
  obtain ⟨mid, waits, last⟩ := hex_turn isLenient text lead? h
  exact waits.append ⟨next, last.trans put, rfl⟩

theorem stops_hex {lead? : Option Nat} {h : HexCode}
    (put : (Scribe.mk isLenient text .plain).putCode lead? h.value = .malformed) :
    (Scribe.mk isLenient text (.hex lead? .empty)).Stops (h.digits.map HexDigit.char) := by
  obtain ⟨mid, waits, last⟩ := hex_turn isLenient text lead? h
  exact waits.stops (.inl (last.trans put))

theorem takes_plain {c : Char} (bare : c ≠ '"' ∧ c ≠ '\\' ∧ 0x20 ≤ c.toNat) :
    (Scribe.mk isLenient text .plain).Takes [c] ⟨isLenient, text.push c, .plain⟩ := by
  obtain ⟨notQuote, notSlash, printed⟩ := bare
  refine ⟨_, ?_, rfl⟩
  simp [push, put, notQuote, notSlash, Nat.not_lt.mpr printed]

theorem takes_escape {letter c : Char} (known : (letter, c) ∈ escapes) :
    (Scribe.mk isLenient text .plain).Takes ['\\', letter] ⟨isLenient, text.push c, .plain⟩ := by
  obtain ⟨noCode, escaped⟩ := escaped?_of_mem known
  refine ⟨⟨isLenient, text, .escape⟩, rfl, _, ?_, rfl⟩
  simp [push, put, noCode, escaped]

end

def waiting (text : String) : Option Nat → Scribe
  | none => page text
  | some lead => ⟨false, text, .pairSlash lead⟩

theorem takes_opening (text : String) (lead? : Option Nat) :
    (waiting text lead?).Takes ['\\', 'u'] ⟨false, text, .hex lead? .empty⟩ := by
  cases lead? with
  | none => exact ⟨⟨false, text, .escape⟩, rfl, _, rfl, rfl⟩
  | some lead => exact ⟨⟨false, text, .pairLetter lead⟩, rfl, _, rfl, rfl⟩

theorem takes_code {text : String} {lead? : Option Nat} {h : HexCode} {next : Scribe}
    (put : (page text).putCode lead? h.value = .more next) :
    (waiting text lead?).Takes (Letter.code h).text next :=
  (takes_opening text lead?).append (takes_hex false text put)

theorem stops_code {text : String} {lead? : Option Nat} {h : HexCode}
    (put : (page text).putCode lead? h.value = .malformed) :
    (waiting text lead?).Stops (Letter.code h).text :=
  (takes_opening text lead?).stops (stops_hex false text put)

theorem takes_letter {lead? next? : Option Nat} {letter : Letter} {cs : List Char} (text : String)
    (spelled : letter.spell? lead? = some (cs, next?)) :
    (waiting text lead?).Takes letter.text (waiting (text ++ String.ofList cs) next?) := by
  unfold Letter.spell? at spelled
  split at spelled
  · rename_i c bare
    cases spelled
    exact takes_plain false text bare
  · rename_i letter c known
    cases spelled
    exact takes_escape false text known
  · rename_i h
    split at spelled
    · cases spelled
    · rename_i notTrail
      split at spelled
      · rename_i lead
        cases spelled
        rw [String.ofList_nil, String.append_empty]
        exact takes_code (by simp [putCode, page, notTrail, lead, await, waiting])
      · rename_i notLead
        cases spelled
        exact takes_code (by simp [putCode, page, notTrail, notLead, put, waiting])
  · rename_i lead h
    split at spelled
    · rename_i trail
      cases spelled
      exact takes_code (by simp [putCode, page, trail, put, waiting])
    · cases spelled
  · cases spelled

theorem stops_letter {lead? : Option Nat} {letter : Letter} (text : String)
    (spelled : letter.spell? lead? = none) : (waiting text lead?).Stops letter.text := by
  unfold Letter.spell? at spelled
  split at spelled
  · cases spelled
  · cases spelled
  · rename_i h
    split at spelled
    · rename_i trail
      exact stops_code (by simp [putCode, page, trail])
    · split at spelled <;> cases spelled
  · rename_i lead h
    split at spelled
    · cases spelled
    · rename_i notTrail
      exact stops_code (by simp [putCode, page, notTrail])
  · rename_i lead noCode
    -- A pair that is begun goes on with a backslash and a `u`, which only a code has.
    cases letter with
    | plain c bare => exact .inl (by simp [waiting, push, bare])
    | escape letter c known =>
      obtain ⟨noCode, -⟩ := escaped?_of_mem known
      exact .inr ⟨⟨false, text, .pairLetter lead⟩, rfl, .inl (by simp [push, noCode])⟩
    | code h => exact absurd rfl (noCode h)

theorem passes_letter (text : String) (letter : Letter) :
    ∃ text', (Scribe.mk true text .plain).Takes letter.text ⟨true, text', .plain⟩ := by
  cases letter with
  | plain c bare => exact ⟨_, takes_plain true text bare⟩
  | escape letter c known => exact ⟨_, takes_escape true text known⟩
  | code h =>
    have opening : (Scribe.mk true text .plain).Takes ['\\', 'u'] ⟨true, text, .hex none .empty⟩ :=
      ⟨⟨true, text, .escape⟩, rfl, _, rfl, rfl⟩
    exact ⟨text, opening.append (takes_hex true text rfl)⟩

theorem takes_letters {lead? : Option Nat} {letters : List Letter} {cs : List Char} (text : String)
    (spelled : spelledAfter lead? letters = some cs) :
    (waiting text lead?).Takes (letters.flatMap Letter.text) (page (text ++ String.ofList cs)) := by
  induction letters generalizing lead? cs text with
  | nil =>
    cases lead? with
    | none =>
      cases spelled
      simp [waiting, Takes]
    | some lead => cases spelled
  | cons letter letters ih =>
    obtain ⟨⟨front, next?⟩, first, others⟩ := Option.bind_eq_some_iff.mp spelled
    obtain ⟨back, rest, rfl⟩ := Option.map_eq_some_iff.mp others
    rw [List.flatMap_cons, String.ofList_append, ← String.append_assoc]
    exact (takes_letter text first).append (ih _ rest)

theorem stops_letters {lead? : Option Nat} {letters : List Letter} (text : String)
    (spelled : spelledAfter lead? letters = none) :
    (waiting text lead?).Stops (letters.flatMap Letter.text ++ ['"']) := by
  induction letters generalizing lead? text with
  | nil =>
    cases lead? with
    | none => cases spelled
    | some lead => exact .inl rfl
  | cons letter letters ih =>
    rw [List.flatMap_cons, List.append_assoc]
    cases first : letter.spell? lead? with
    | none => exact (stops_letter text first).append _
    | some turn =>
      obtain ⟨cs, next?⟩ := turn
      rw [spelledAfter, first, Option.bind_some, Option.map_eq_none_iff] at spelled
      exact (takes_letter text first).stops (ih _ spelled)

theorem passes_letters (text : String) (letters : List Letter) :
    ∃ text', (Scribe.mk true text .plain).Takes (letters.flatMap Letter.text)
      ⟨true, text', .plain⟩ := by
  induction letters generalizing text with
  | nil => exact ⟨text, rfl⟩
  | cons letter letters ih =>
    obtain ⟨mid, first⟩ := passes_letter text letter
    obtain ⟨text', rest⟩ := ih mid
    exact ⟨text', first.append rest⟩

theorem takes_spelled {letters : List Letter} {text : String}
    (spelled : spelled? letters = some text) :
    (page "").Takes (letters.flatMap Letter.text) (page text) := by
  obtain ⟨cs, found, rfl⟩ := Option.map_eq_some_iff.mp spelled
  simpa [waiting] using takes_letters "" found

theorem stops_unspelled {letters : List Letter} (spelled : spelled? letters = none) :
    (page "").Stops (letters.flatMap Letter.text ++ ['"']) :=
  stops_letters "" (Option.map_eq_none_iff.mp spelled)

end Scribe

theorem exists_letter (c : Char) :
    ∃ letter : Letter, letter.text = writtenChar c ∧ letter.spell? none = some ([c], none) := by
  unfold writtenChar
  split
  iterate 7 exact ⟨.escape _ _ (by decide), rfl, rfl⟩
  split
  · rename_i control
    have code : c.toNat / 16 * 16 + c.toNat % 16 = c.toNat := by omega
    let h : HexCode := ⟨⟨0, false⟩, ⟨0, false⟩, ⟨⟨c.toNat / 16, by omega⟩, false⟩,
      ⟨⟨c.toNat % 16, by omega⟩, false⟩⟩
    have value : h.value = c.toNat := by simp [h, HexCode.value, HexCode.digits, code]
    refine ⟨.code h, rfl, ?_⟩
    simp [Letter.spell?, value, Scribe.isTrail, Scribe.isLead]
    omega
  · rename_i notQuote notSlash _ _ _ _ _ printed
    exact ⟨.plain c ⟨notQuote, notSlash, Nat.not_lt.mp printed⟩, rfl, rfl⟩

theorem exists_letters (text : String) :
    ∃ letters, quotedText letters = (writtenString text).toList ∧ spelled? letters = some text := by
  have all (cs : List Char) : ∃ letters : List Letter,
      letters.flatMap Letter.text = cs.flatMap writtenChar ∧ spelledAfter none letters = some cs := by
    induction cs with
    | nil => exact ⟨[], rfl, rfl⟩
    | cons c cs ih =>
      obtain ⟨letter, same, spells⟩ := exists_letter c
      obtain ⟨letters, others, spelled⟩ := ih
      refine ⟨letter :: letters, ?_, ?_⟩
      · rw [List.flatMap_cons, List.flatMap_cons, same, others]
      · simp [spelledAfter, spells, spelled]
  obtain ⟨letters, same, spelled⟩ := all text.toList
  refine ⟨letters, ?_, ?_⟩
  · rw [quotedText, same, toList_writtenString]
  · rw [spelled?, spelled, Option.map_some, String.ofList_toList]

end NestedRules.Json
