namespace NestedRules.Json

/-- The bytes of a `\u` escape read so far: how many, the number they spell, and whether all of them
    were digits. -/
structure HexEscape where
  width : Nat
  value : Nat
  isSound : Bool

namespace HexEscape

def empty : HexEscape := ⟨0, 0, true⟩

def hexDigit? (c : Char) : Option Nat :=
  if c.isDigit then some (c.toNat - '0'.toNat)
  else if 'a' ≤ c ∧ c ≤ 'f' then some (c.toNat - 'a'.toNat + 10)
  else if 'A' ≤ c ∧ c ≤ 'F' then some (c.toNat - 'A'.toNat + 10)
  else none

def push (h : HexEscape) (c : Char) : HexEscape :=
  match hexDigit? c with
  | some d => ⟨h.width + 1, h.value * 16 + d, h.isSound⟩
  | none => ⟨h.width + c.utf8Size, h.value, false⟩

end HexEscape

/-- What a scribe expects next: a plain character, the letter of an escape, the digits of one, or the
    two characters that open the second half of a surrogate pair. -/
inductive Scribe.Mode
  | plain
  | escape
  | hex (lead? : Option Nat) (digits : HexEscape)
  | pairSlash (lead : Nat)
  | pairLetter (lead : Nat)

structure Scribe where
  isLenient : Bool
  written : String
  mode : Scribe.Mode

namespace Scribe

def start (isLenient : Bool) : Scribe := ⟨isLenient, "", .plain⟩

inductive Progress
  | more (s : Scribe)
  | closed (text : String)
  | malformed

def put (s : Scribe) (c : Char) : Progress :=
  .more { s with written := s.written.push c, mode := .plain }

def await (s : Scribe) (mode : Mode) : Progress := .more { s with mode }

def escaped? : Char → Option Char
  | '"' => some '"'
  | '\\' => some '\\'
  | '/' => some '/'
  | 'b' => some '\x08'
  | 'f' => some '\x0c'
  | 'n' => some '\n'
  | 'r' => some '\r'
  | 't' => some '\t'
  | _ => none

def isLead (n : Nat) : Bool := 0xD800 ≤ n && n < 0xDC00

def isTrail (n : Nat) : Bool := 0xDC00 ≤ n && n < 0xE000

def putCode (s : Scribe) (lead? : Option Nat) (n : Nat) : Progress :=
  if s.isLenient then s.await .plain
  else
    match lead? with
    | some lead =>
      if isTrail n then s.put (Char.ofNat (0x10000 + (lead - 0xD800) * 0x400 + (n - 0xDC00)))
      else .malformed
    | none =>
      if isTrail n then .malformed
      else if isLead n then s.await (.pairSlash n)
      else s.put (Char.ofNat n)

def push (s : Scribe) (c : Char) : Progress :=
  match s.mode with
  | .plain =>
    if c = '"' then .closed s.written
    else if c = '\\' then s.await .escape
    else if c.toNat < 0x20 then .malformed
    else s.put c
  | .escape =>
    if c = 'u' then s.await (.hex none .empty)
    else (escaped? c).elim .malformed s.put
  | .hex lead? digits =>
    let digits := digits.push c
    if digits.width < 4 then s.await (.hex lead? digits)
    else if digits.isSound then s.putCode lead? digits.value
    else .malformed
  | .pairSlash lead => if c = '\\' then s.await (.pairLetter lead) else .malformed
  | .pairLetter lead => if c = 'u' then s.await (.hex (some lead) .empty) else .malformed

end Scribe

end NestedRules.Json
