import NestedRules.Proofs.Json.Prospect
import NestedRules.Proofs.Json.Skipping

namespace NestedRules.Json.Schema

variable {ε α : Type} {s : Schema ε α} {r t : Reader α} {cs ds : List Char} {slot : Slot}
  {around outer : Context} {v : Value}

def Fails (s : Schema ε α) (r : Reader α) (cs : List Char) : Prop := ∀ t, ¬ s.Reaches r cs t

/-- The reader does not get past the text and a character that would end a number. -/
def Balks (s : Schema ε α) (r : Reader α) (cs : List Char) : Prop :=
  ∀ c, Delimits c → s.Fails r (cs ++ [c])

theorem Fails.append (fails : s.Fails r cs) (ds : List Char) : s.Fails r (cs ++ ds) := by
  intro t reaches
  rw [Reaches, List.foldlM_append] at reaches
  obtain ⟨u, first, -⟩ := bind_eq_ok_iff.mp reaches
  exact fails u first

theorem Fails.balks (fails : s.Fails r cs) : s.Balks r cs := fun c _ => fails.append [c]

theorem Reaches.fails (reaches : s.Reaches r cs t) (fails : s.Fails t ds) : s.Fails r (cs ++ ds) := by
  intro u all
  rw [Reaches, List.foldlM_append, reaches] at all
  exact fails u all

theorem Reaches.balks (reaches : s.Reaches r cs t) (balks : s.Balks t ds) : s.Balks r (cs ++ ds) := by
  intro c delimits
  rw [List.append_assoc]
  exact reaches.fails (balks c delimits)

theorem Leads.balks {c : Char} (leads : s.Leads r cs t) (delimits : Delimits c)
    (balks : s.Balks t (c :: ds)) : s.Balks r (cs ++ c :: ds) := by
  intro d last u all
  rw [List.append_assoc, List.cons_append, List.append_cons, Reaches, List.foldlM_append,
    leads c delimits] at all
  exact balks d last u all

theorem Balks.fails {c : Char} (balks : s.Balks r cs) (delimits : Delimits c) (ds : List Char) :
    s.Fails r (cs ++ c :: ds) := by
  rw [List.append_cons]
  exact (balks c delimits).append ds

theorem Balks.append (balks : s.Balks r cs) (delimited : Delimited ds) : s.Balks r (cs ++ ds) := by
  cases ds with
  | nil => rwa [List.append_nil]
  | cons d ds => exact (balks.fails (delimited d rfl) ds).balks

theorem fails_of_stops (inside : Scribe → Reader α)
    (passes : ∀ {a b : Scribe} {c : Char}, a.push c = .more b → s.step (inside a) c = .ok (inside b))
    (halts : ∀ {a : Scribe} {c : Char}, a.push c = .malformed → s.step (inside a) c = .error .malformed)
    {a : Scribe} (stops : a.Stops cs) : s.Fails (inside a) cs := by
  induction cs generalizing a with
  | nil => exact stops.elim
  | cons c cs ih =>
    intro t reaches
    rw [Reaches, List.foldlM_cons] at reaches
    rcases stops with malformed | ⟨next, pushed, rest⟩
    · rw [halts malformed] at reaches
      cases reaches
    · rw [passes pushed] at reaches
      exact ih rest t reaches

theorem step_text_of_malformed {a : Scribe} {c : Char} (pushed : a.push c = .malformed) :
    s.step ⟨slot, .text around a⟩ c = .error .malformed := by
  simp only [step, pushed]
  rfl

theorem step_keyText_of_malformed {a : Scribe} {c : Char} {before : List (String × Value)}
    (pushed : a.push c = .malformed) :
    s.step ⟨slot, .keyText before outer a⟩ c = .error .malformed := by
  simp only [step, pushed]
  rfl

theorem fails_quoted {letters : List Letter} (inside : Scribe → Reader α)
    (passes : ∀ {a b : Scribe} {c : Char}, a.push c = .more b → s.step (inside a) c = .ok (inside b))
    (halts : ∀ {a : Scribe} {c : Char}, a.push c = .malformed → s.step (inside a) c = .error .malformed)
    (opens : s.step r '"' = .ok (inside (.page ""))) (spelled : spelled? letters = none) :
    s.Fails r (quotedText letters) :=
  (Reaches.single opens).fails
    (fails_of_stops inside passes halts (Scribe.stops_unspelled spelled))

theorem fails_name {n : Name} {before : List (String × Value)} (between : r.phase.SkipsBlanks)
    (opens : s.step r '"' = .ok ⟨slot, .keyText before outer (.page "")⟩)
    (spelled : spelled? n.letters = none) : s.Fails r n.text := by
  have quoted : s.Fails r (quotedText n.letters) :=
    fails_quoted (fun scribe => ⟨slot, .keyText before outer scribe⟩) step_keyText_of_more
      step_keyText_of_malformed opens spelled
  exact (n.lead.reaches between).fails (quoted.append _)

theorem fails_refused_name {n : Name} {key : String} {before : List (String × Value)}
    (between : r.phase.SkipsBlanks)
    (opens : s.step r '"' = .ok ⟨slot, .keyText before outer (.page "")⟩)
    (spelled : spelled? n.letters = some key) {why : Fault ε}
    (refused : s.memberSlot slot before key outer = .error why) : s.Fails r n.text := by
  have letters : s.Reaches ⟨slot, .keyText before outer (.page "")⟩ (n.letters.flatMap Letter.text)
      ⟨slot, .keyText before outer (.page key)⟩ :=
    reaches_of_takes (fun scribe => ⟨slot, .keyText before outer scribe⟩) step_keyText_of_more
      (Scribe.takes_spelled spelled)
  have closes : s.Fails ⟨slot, .keyText before outer (.page key)⟩ ['"'] := by
    intro t reaches
    have closed : (Scribe.page key).push '"' = .closed key := rfl
    rw [Reaches, foldlM_single] at reaches
    simp only [step, closed, refused] at reaches
    cases reaches
  have quoted : s.Fails r (quotedText n.letters) := (Reaches.single opens).fails (letters.fails closes)
  exact (n.lead.reaches between).fails (quoted.append _)

theorem leads_checked {d : Draft} {text : String} (string : d.string? = some text)
    (completed : s.complete .checked around (.string text) = .ok t) :
    s.Leads ⟨.checked, .value around⟩ d.text t := by
  cases d with
  | string letters =>
    exact .of_reaches (reaches_text (Scribe.takes_spelled string) rfl rfl completed)
  | _ => cases string

section

/- The schema judges values and lets nothing but strings pass. -/
variable (strict : ∀ v, s.check v = .ok () → ∃ text, v = .string text)

include strict

theorem not_complete_checked (inner : around ≠ .top) (other : ∀ text, v ≠ .string text) (t : Reader α) :
    s.complete .checked around v ≠ .ok t := by
  intro completed
  have passed : s.check v = .ok () := by
    cases around with
    | top => exact absurd rfl inner
    | item before outer =>
      obtain ⟨⟨⟩, judged, -⟩ := bind_eq_ok_iff.mp completed
      exact mapError_eq_ok_iff.mp judged
    | member before key outer =>
      obtain ⟨⟨⟩, judged, -⟩ := bind_eq_ok_iff.mp completed
      exact mapError_eq_ok_iff.mp judged
  obtain ⟨text, same⟩ := strict v passed
  exact other text same

theorem fails_checked_opening {empty : Value} (other : ∀ text, empty ≠ .string text)
    {next : Except (Fault ε) (Reader α)} (t : Reader α) :
    (s.checkOpening .checked around empty >>= fun _ => next) ≠ .ok t := by
  intro opened
  obtain ⟨_, checked, -⟩ := bind_eq_ok_iff.mp opened
  obtain ⟨⟨⟩, judged, -⟩ := bind_eq_ok_iff.mp checked
  obtain ⟨text, same⟩ := strict empty (mapError_eq_ok_iff.mp judged)
  exact other text same

theorem fails_checked_literal {c : Char} {word : List Char} (inner : around ≠ .top)
    (other : ∀ text, v ≠ .string text) (nonempty : word ≠ [])
    (opens : s.step r c = .ok ⟨.checked, .literal around word v⟩) : s.Fails r (c :: word) := by
  refine (Reaches.single opens).fails fun t reaches => ?_
  rw [Reaches, foldlM_literal nonempty] at reaches
  exact not_complete_checked strict inner other t reaches

theorem balks_checked {d : Draft} (inner : around ≠ .top) (string : d.string? = none) :
    s.Balks ⟨.checked, .value around⟩ d.text := by
  cases d with
  | null => exact (fails_checked_literal strict inner (by simp) (List.cons_ne_nil _ _) rfl).balks
  | bool b =>
    cases b with
    | true => exact (fails_checked_literal strict inner (by simp) (List.cons_ne_nil _ _) rfl).balks
    | false => exact (fails_checked_literal strict inner (by simp) (List.cons_ne_nil _ _) rfl).balks
  | number figure =>
    -- A number is judged with the character after it, and its value is no string if it has one.
    intro c delimits
    obtain ⟨n, complete, reaches⟩ :=
      reaches_figure (s := s) .checked figure (.value around)
    refine reaches.fails fun t ended => ?_
    rw [Reaches, foldlM_single, step_of_ended complete delimits] at ended
    obtain ⟨v, known, ended⟩ := bind_eq_ok_iff.mp ended
    obtain ⟨u, completed, -⟩ := bind_eq_ok_iff.mp ended
    have number := isNumber_of_numeralValue (by decide) known
    refine not_complete_checked strict inner ?_ u completed
    rintro text rfl
    exact number
  | string letters =>
    exact (fails_quoted (fun scribe => ⟨.checked, .text around scribe⟩) step_text_of_more
      step_text_of_malformed rfl string).balks
  -- An array and an object are turned down where they open, whatever they hold.
  | array gap items =>
    have opens : s.Fails ⟨.checked, .value around⟩ ['['] := by
      intro t reaches
      rw [Reaches, foldlM_single] at reaches
      exact fails_checked_opening strict (by simp) t reaches
    cases items with
    | nil => exact (opens.append _).balks
    | cons item items => exact (opens.append _).balks
  | object gap members =>
    have opens : s.Fails ⟨.checked, .value around⟩ ['\x7b'] := by
      intro t reaches
      rw [Reaches, foldlM_single] at reaches
      exact fails_checked_opening strict (by simp) t reaches
    cases members with
    | nil => exact (opens.append _).balks
    | cons member members => exact (opens.append _).balks

end

end NestedRules.Json.Schema
