import NestedRules.Json.Scribe
import NestedRules.Json.Value

namespace NestedRules.Json

namespace HexEscape

theorem hexDigit?_digitChar : ∀ d < 16, hexDigit? (Nat.digitChar d) = some d := by decide

theorem push_digitChar (h : HexEscape) {d : Nat} (digit : d < 16) :
    h.push (Nat.digitChar d) = ⟨h.width + 1, h.value * 16 + d, h.isSound⟩ := by
  rw [push, hexDigit?_digitChar d digit]

end HexEscape

namespace Scribe

/-- The scribe takes the characters without coming to the end of the string. -/
def Takes (s : Scribe) : List Char → Scribe → Prop
  | [], t => s = t
  | c :: cs, t => ∃ next, s.push c = .more next ∧ Takes next cs t

theorem Takes.append {s t u : Scribe} {cs ds : List Char} (first : s.Takes cs t)
    (second : t.Takes ds u) : s.Takes (cs ++ ds) u := by
  induction cs generalizing s with
  | nil =>
    obtain rfl : s = t := first
    exact second
  | cons c cs ih =>
    obtain ⟨next, pushed, rest⟩ := first
    exact ⟨next, pushed, ih rest⟩

def page (text : String) : Scribe := ⟨false, text, .plain⟩

theorem takes_control (text : String) {c : Char} (control : c.toNat < 0x20) :
    (page text).Takes
      ['\\', 'u', '0', '0', Nat.digitChar (c.toNat / 16), Nat.digitChar (c.toNat % 16)]
      (page (text.push c)) := by
  have code : c.toNat / 16 * 16 + c.toNat % 16 = c.toNat := by omega
  have notLead : isLead c.toNat = false := by simp [isLead]; omega
  have notTrail : isTrail c.toNat = false := by simp [isTrail]; omega
  have high (h : HexEscape) := h.push_digitChar (d := c.toNat / 16) (by omega)
  have low (h : HexEscape) := h.push_digitChar (d := c.toNat % 16) (by omega)
  -- The two zeros leave the value at zero, so that only the last two digits count.
  let hex (width value : Nat) : Scribe := ⟨false, text, .hex none ⟨width, value, true⟩⟩
  refine ⟨⟨false, text, .escape⟩, rfl, hex 0 0, rfl, hex 1 0, rfl, hex 2 0, rfl,
    hex 3 (c.toNat / 16), ?_, page (text.push c), ?_, rfl⟩
  · simp [hex, push, await, high]
  · simp [hex, push, low, putCode, code, notLead, notTrail, put, page]

theorem takes_writtenChar (text : String) (c : Char) :
    (page text).Takes (writtenChar c) (page (text.push c)) := by
  unfold writtenChar
  split
  iterate 7 exact ⟨_, rfl, _, rfl, rfl⟩
  split
  · rename_i control
    exact takes_control text control
  · rename_i printed
    have notQuote : c ≠ '"' := by assumption
    have notSlash : c ≠ '\\' := by assumption
    exact ⟨_, by simp [push, page, notQuote, notSlash, printed]; rfl, rfl⟩

theorem takes_written (text : String) (cs : List Char) :
    (page text).Takes (cs.flatMap writtenChar) (page (text ++ String.ofList cs)) := by
  induction cs generalizing text with
  | nil => simp [Takes]
  | cons c cs ih =>
    have page_cons : text.push c ++ String.ofList cs = text ++ String.ofList (c :: cs) := by
      simp [← String.toList_inj]
    rw [List.flatMap_cons, ← page_cons]
    exact (takes_writtenChar text c).append (ih (text.push c))

theorem takes_text (text : String) :
    (page "").Takes (text.toList.flatMap writtenChar) (page text) := by
  have taken := takes_written "" text.toList
  rwa [String.empty_append, String.ofList_toList] at taken

end Scribe

theorem toList_writtenString (text : String) :
    (writtenString text).toList = '"' :: (text.toList.flatMap writtenChar ++ ['"']) := by
  rw [writtenString, String.toList_ofList, List.cons_append]

end NestedRules.Json
