import NestedRules.Json.Reader
import NestedRules.Proofs.Json.WrittenString

namespace NestedRules.Json

/-- Whether blanks are passed over: everywhere but inside a string, a word or a number. -/
def Phase.SkipsBlanks {α : Type} : Phase α → Prop
  | .keyText .. | .text .. | .literal .. | .numeral .. => False
  | _ => True

namespace Schema

variable {ε α : Type} (s : Schema ε α)

def Reaches (r : Reader α) (cs : List Char) (t : Reader α) : Prop := cs.foldlM s.step r = .ok t

variable {s} {r t u : Reader α} {c : Char} {cs ds : List Char} {slot next : Slot}
  {around outer : Context} {before : List (String × Value)}

theorem Reaches.nil : s.Reaches r [] r := rfl

theorem Reaches.cons (first : s.step r c = .ok t) (rest : s.Reaches t cs u) :
    s.Reaches r (c :: cs) u := by
  rw [Reaches, List.foldlM_cons, first]
  exact rest

theorem Reaches.single (only : s.step r c = .ok t) : s.Reaches r [c] t := .cons only .nil

theorem Reaches.append (first : s.Reaches r cs t) (second : s.Reaches t ds u) :
    s.Reaches r (cs ++ ds) u := by
  rw [Reaches, List.foldlM_append, first]
  exact second

theorem read_of_reaches {text : String} {result : α}
    (reaches : s.Reaches start text.toList ⟨slot, .done result⟩) : s.read text = .ok result := by
  rw [read, reaches]
  rfl

theorem step_of_blank (between : r.phase.SkipsBlanks) (blank : isBlank c = true) :
    s.step r c = .ok r := by
  obtain ⟨slot, phase⟩ := r
  cases phase <;> simp_all [Phase.SkipsBlanks, step] <;> rfl

theorem step_of_token (between : r.phase.SkipsBlanks) (token : isBlank c = false) :
    s.step r c = s.stepToken r c := by
  obtain ⟨slot, phase⟩ := r
  cases phase <;> simp_all [Phase.SkipsBlanks, step]

theorem reaches_blanks (between : r.phase.SkipsBlanks) (blank : ∀ c ∈ cs, isBlank c = true) :
    s.Reaches r cs r := by
  induction cs with
  | nil => exact .nil
  | cons c cs ih =>
    exact .cons (step_of_blank between (blank c List.mem_cons_self))
      (ih fun d member => blank d (List.mem_cons_of_mem c member))

theorem step_text_of_more {a b : Scribe} (pushed : a.push c = .more b) :
    s.step ⟨slot, .text around a⟩ c = .ok ⟨slot, .text around b⟩ := by
  simp only [step, pushed]
  rfl

theorem step_keyText_of_more {a b : Scribe} (pushed : a.push c = .more b) :
    s.step ⟨slot, .keyText before outer a⟩ c = .ok ⟨slot, .keyText before outer b⟩ := by
  simp only [step, pushed]
  rfl

theorem reaches_of_takes (inside : Scribe → Reader α)
    (passes : ∀ {a b : Scribe} {c : Char}, a.push c = .more b → s.step (inside a) c = .ok (inside b))
    {a b : Scribe} (takes : a.Takes cs b) : s.Reaches (inside a) cs (inside b) := by
  induction cs generalizing a with
  | nil =>
    obtain rfl : a = b := takes
    exact .nil
  | cons c cs ih =>
    obtain ⟨next, pushed, rest⟩ := takes
    exact .cons (passes pushed) (ih rest)

section

/- The scribe takes the letters, and has a text when the quote after them comes. -/
variable {a b : Scribe} {text : String} (taken : a.Takes cs b) (closed : b.push '"' = .closed text)

include taken closed

theorem reaches_text (opens : s.step r '"' = .ok ⟨slot, .text around a⟩)
    (completed : s.complete slot around (.string text) = .ok t) :
    s.Reaches r ('"' :: (cs ++ ['"'])) t := by
  have letters : s.Reaches ⟨slot, .text around a⟩ cs ⟨slot, .text around b⟩ :=
    reaches_of_takes (fun scribe => ⟨slot, .text around scribe⟩) step_text_of_more taken
  have closes : s.step ⟨slot, .text around b⟩ '"' = .ok t := by
    simpa only [step, closed] using completed
  exact .cons opens (letters.append (.single closes))

theorem reaches_keyText (opens : s.step r '"' = .ok ⟨slot, .keyText before outer a⟩)
    (named : s.memberSlot slot before text outer = .ok next) :
    s.Reaches r ('"' :: (cs ++ ['"'])) ⟨next, .colon (.member before text outer)⟩ := by
  have letters : s.Reaches ⟨slot, .keyText before outer a⟩ cs ⟨slot, .keyText before outer b⟩ :=
    reaches_of_takes (fun scribe => ⟨slot, .keyText before outer scribe⟩) step_keyText_of_more taken
  have closes : s.step ⟨slot, .keyText before outer b⟩ '"' =
      .ok ⟨next, .colon (.member before text outer)⟩ := by
    simp only [step, closed, named]
    rfl
  exact .cons opens (letters.append (.single closes))

end

theorem reaches_string (text : String) (looked : slot ≠ .skipped)
    (completed : s.complete slot around (.string text) = .ok t) :
    s.Reaches ⟨slot, .value around⟩ (writtenString text).toList t := by
  have opens : s.step ⟨slot, .value around⟩ '"' = .ok ⟨slot, .text around (.page "")⟩ := by
    rw [step_of_token (r := ⟨slot, .value around⟩) trivial rfl]
    simp only [stepToken, beginValue, looked]
    rfl
  rw [toList_writtenString]
  exact reaches_text (Scribe.takes_text text) rfl opens completed

theorem reaches_key (key : String)
    (opens : s.step r '"' = .ok ⟨slot, .keyText before outer (.page "")⟩)
    (named : s.memberSlot slot before key outer = .ok next) :
    s.Reaches r (writtenString key).toList ⟨next, .colon (.member before key outer)⟩ := by
  rw [toList_writtenString]
  exact reaches_keyText (Scribe.takes_text key) rfl opens named

end Schema

end NestedRules.Json
