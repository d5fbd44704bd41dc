import NestedRules.Proofs.Json.Draft
import NestedRules.Proofs.Json.WrittenValue

namespace NestedRules.Json

def Delimits (c : Char) : Prop := isBlank c = true ∨ c = ',' ∨ c = ']' ∨ c = '\x7d'

def Delimited (cs : List Char) : Prop := ∀ c, cs.head? = some c → Delimits c

theorem Delimited.append {cs ds : List Char} (first : Delimited cs) (second : Delimited ds) :
    Delimited (cs ++ ds) := by
  cases cs with
  | nil => exact second
  | cons c cs => exact first

theorem delimited_cons {c : Char} (delimits : Delimits c) (cs : List Char) : Delimited (c :: cs) := by
  rintro _ ⟨⟩
  exact delimits

theorem Blanks.delimited (b : Blanks) : Delimited b.chars :=
  fun c head => .inl (b.blank c (List.mem_of_mem_head? head))

theorem delimited_itemsText (items : List (Item Draft)) : Delimited (itemsText items) := by
  cases items with
  | nil => exact nofun
  | cons item items =>
    rw [itemsText]
    exact delimited_cons (.inr (.inl rfl)) _

theorem delimited_membersText (members : List (Member Draft)) : Delimited (membersText members) := by
  cases members with
  | nil => exact nofun
  | cons member members =>
    rw [membersText]
    exact delimited_cons (.inr (.inl rfl)) _

theorem delimited_bracket : Delimited [']'] := delimited_cons (.inr (.inr (.inl rfl))) []

theorem delimited_brace : Delimited ['\x7d'] := delimited_cons (.inr (.inr (.inr rfl))) []

theorem Numeral.push_of_delimits {n : Numeral} (complete : n.isComplete = true) {c : Char}
    (delimits : Delimits c) : n.push c = .ended := by
  have table : digit? c = none ∧ c ≠ '.' ∧ isMark c = false := by
    simp only [Delimits, isBlank, Bool.or_eq_true, decide_eq_true_eq] at delimits
    rcases delimits with (((rfl | rfl) | rfl) | rfl) | rfl | rfl | rfl <;> decide
  obtain ⟨noDigit, noPoint, noMark⟩ := table
  rcases isComplete_iff.mp complete with at' | at' | at' | at' <;>
    simp [push, at', noDigit, noPoint, noMark]

theorem Blanks.reaches {ε α : Type} {s : Schema ε α} {r : Reader α} (b : Blanks)
    (between : r.phase.SkipsBlanks) : s.Reaches r b.chars r :=
  Schema.reaches_blanks between b.blank

namespace Schema

variable {ε α : Type} {s : Schema ε α} {r t u : Reader α} {p : Phase α} {c : Char}
  {cs ds : List Char} {slot : Slot} {around outer : Context} {v : Value}

/-- A text takes a reader from one state to another, once a character comes that would end a number
    if there is one at the end of the text. -/
def Leads (s : Schema ε α) (r : Reader α) (cs : List Char) (t : Reader α) : Prop :=
  ∀ c, Delimits c → (cs ++ [c]).foldlM s.step r = s.step t c

theorem foldlM_single (r : Reader α) (c : Char) : [c].foldlM s.step r = s.step r c := by
  rw [List.foldlM_cons]
  exact bind_pure _

theorem Leads.refl (r : Reader α) : s.Leads r [] r := fun c _ => foldlM_single r c

theorem Reaches.leads (reaches : s.Reaches r cs t) (rest : s.Leads t ds u) :
    s.Leads r (cs ++ ds) u := by
  intro c delimits
  rw [List.append_assoc, List.foldlM_append, reaches]
  exact rest c delimits

theorem Leads.of_reaches (reaches : s.Reaches r cs t) : s.Leads r cs t := by
  simpa using reaches.leads (.refl t)

theorem Leads.cons (first : s.step r c = .ok t) (rest : s.Leads t cs u) : s.Leads r (c :: cs) u :=
  (Reaches.single first).leads rest

theorem Leads.blanks (b : Blanks) (between : r.phase.SkipsBlanks) (rest : s.Leads r cs t) :
    s.Leads r (b.chars ++ cs) t :=
  (b.reaches between).leads rest

theorem Leads.reaches (leads : s.Leads r cs t) (delimits : Delimits c)
    (rest : s.Reaches t (c :: ds) u) : s.Reaches r (cs ++ c :: ds) u := by
  rw [List.append_cons, Reaches, List.foldlM_append, leads c delimits]
  exact rest

theorem Leads.append (first : s.Leads r cs t) (delimited : Delimited ds) (second : s.Leads t ds u) :
    s.Leads r (cs ++ ds) u := by
  -- The character that the first text waits for is that after both, or the second text begins with it.
  cases ds with
  | nil =>
    intro c delimits
    rw [List.append_nil, first c delimits, ← second c delimits]
    exact (foldlM_single t c).symm
  | cons d ds =>
    intro c delimits
    have turn : (cs ++ [d]).foldlM s.step r = s.step t d := first d (delimited d rfl)
    rw [List.append_assoc, List.cons_append, List.append_cons, List.foldlM_append, turn,
      ← second c delimits]
    rfl

theorem Leads.trail (value : s.Leads r cs t) (b : Blanks) (between : t.phase.SkipsBlanks)
    (delimited : Delimited ds) (rest : s.Leads t ds u) : s.Leads r (cs ++ (b.chars ++ ds)) u := by
  have behind : s.Leads t (b.chars ++ ds) u := .blanks b between rest
  exact value.append (b.delimited.append delimited) behind

theorem settled_of_complete (completed : s.complete slot around v = .ok t) (c : Char) :
    s.settled t c = s.step t c := by
  have past : t.phase.SkipsBlanks ∧ s.stepToken t c = s.settled t c := by
    cases around with
    | top =>
      obtain ⟨result, -, rfl⟩ := complete_top_iff.mp completed
      exact ⟨trivial, rfl⟩
    | item before outer =>
      obtain rfl := eq_of_complete_item completed
      exact ⟨trivial, rfl⟩
    | member before key outer =>
      obtain rfl := eq_of_complete_member completed
      exact ⟨trivial, rfl⟩
  obtain ⟨between, same⟩ := past
  cases blank : isBlank c with
  | true =>
    rw [step_of_blank between blank, settled, blank]
    rfl
  | false => rw [step_of_token between blank, same]

theorem reaches_figure (slot : Slot) (f : Figure) (begins : p.Begins around) :
    ∃ n, n.isComplete = true ∧ s.Reaches ⟨slot, p⟩ f.text ⟨slot, .numeral around n⟩ := by
  obtain ⟨c, cs, n, m, text, started, taken, complete⟩ := Numeral.takes_text f
  have digits : ∀ {cs : List Char} {n : Numeral}, n.Takes cs m →
      s.Reaches ⟨slot, .numeral around n⟩ cs ⟨slot, .numeral around m⟩ := by
    intro cs
    induction cs with
    | nil =>
      rintro n ⟨⟩
      exact .nil
    | cons c cs ih =>
      rintro n ⟨next, pushed, rest⟩
      exact .cons (by simp only [step, pushed]; rfl) (ih rest)
  have first : s.step ⟨slot, p⟩ c = .ok ⟨slot, .numeral around n⟩ := by
    -- What begins a number begins nothing else.
    have table : ∀ d ∈ ['"', '[', '\x7b', 'n', 't', 'f', ']', ' ', '\t', '\n', '\r'],
        Numeral.start? d = none := by
      simp [Numeral.start?, digit?, Char.isDigit]
    have other : ∀ d ∈ ['"', '[', '\x7b', 'n', 't', 'f', ']', ' ', '\t', '\n', '\r'], c ≠ d := by
      rintro d member rfl
      simpa [started] using table c member
    rw [step_of_begins begins]
    · simp [beginValue, started, other]
      rfl
    · simp [isBlank, other]
    · exact other ']' (by decide)
  rw [text]
  exact ⟨m, complete, .cons first (digits taken)⟩

theorem step_of_ended {n : Numeral} (complete : n.isComplete = true) (delimits : Delimits c) :
    s.step ⟨slot, .numeral around n⟩ c =
      (do s.settled (← s.complete slot around (← numeralValue slot n)) c) := by
  simp only [step, Numeral.push_of_delimits complete delimits]

theorem reaches_name_text {a b : Scribe} {n : Name} {key : String} {next : Slot}
    {before : List (String × Value)} (taken : a.Takes (n.letters.flatMap Letter.text) b)
    (closed : b.push '"' = .closed key) (between : r.phase.SkipsBlanks)
    (opens : s.step r '"' = .ok ⟨slot, .keyText before outer a⟩)
    (named : s.memberSlot slot before key outer = .ok next) :
    s.Reaches r n.text ⟨next, .value (.member before key outer)⟩ := by
  have quoted : s.Reaches r (quotedText n.letters) ⟨next, .colon (.member before key outer)⟩ :=
    reaches_keyText taken closed opens named
  have beforeColon : s.Reaches ⟨next, .colon (.member before key outer)⟩ n.beforeColon.chars _ :=
    n.beforeColon.reaches trivial
  have afterColon : s.Reaches ⟨next, .value (.member before key outer)⟩ n.afterColon.chars _ :=
    n.afterColon.reaches trivial
  have colon : s.Reaches ⟨next, .colon (.member before key outer)⟩
      (n.beforeColon.chars ++ ':' :: n.afterColon.chars) _ :=
    beforeColon.append (.cons rfl afterColon)
  exact (n.lead.reaches between).append (quoted.append colon)

theorem complete_skipped_item (inner : outer ≠ .top) (before : List Value) (v : Value) :
    s.complete .skipped (.item before outer) v =
      .ok ⟨.skipped, .afterItem (v :: before) outer⟩ := by
  cases outer with
  | top => exact absurd rfl inner
  | item | member => rfl

theorem complete_skipped_member (inner : outer ≠ .top) (before : List (String × Value))
    (key : String) (v : Value) :
    s.complete .skipped (.member before key outer) v =
      .ok ⟨.skipped, .afterMember ((key, v) :: before) outer⟩ := by
  cases outer with
  | top => exact absurd rfl inner
  | item | member => rfl

theorem itemSlot_inner {outer : Context} (inner : outer ≠ .top) (slot : Slot) (count : Nat) :
    s.itemSlot slot count outer = .ok slot := by
  cases outer with
  | top => exact absurd rfl inner
  | item | member => rfl

theorem memberSlot_inner {outer : Context} (inner : outer ≠ .top) (slot : Slot)
    (before : List (String × Value)) (key : String) :
    s.memberSlot slot before key outer = .ok slot := by
  cases outer with
  | top => exact absurd rfl inner
  | item | member => rfl

theorem leads_literal {word : List Char} (nonempty : word ≠ [])
    (opens : s.step r c = .ok ⟨slot, .literal around word v⟩)
    (completed : s.complete slot around v = .ok t) : s.Leads r (c :: word) t :=
  .of_reaches (.cons opens (reaches_literal nonempty completed))

theorem leads_skipped_string (letters : List Letter) (begins : p.Begins around) :
    ∃ v, ∀ t, s.complete .skipped around v = .ok t → s.Leads ⟨.skipped, p⟩ (quotedText letters) t := by
  obtain ⟨text, taken⟩ := Scribe.passes_letters "" letters
  have opens : s.step ⟨.skipped, p⟩ '"' = .ok ⟨.skipped, .text around (.start true)⟩ :=
    step_of_begins begins rfl (by decide)
  exact ⟨.string text, fun t completed => .of_reaches (reaches_text taken rfl opens completed)⟩

theorem leads_skipped_number (f : Figure) (begins : p.Begins around) (t : Reader α)
    (completed : s.complete .skipped around .null = .ok t) : s.Leads ⟨.skipped, p⟩ f.text t := by
  intro c delimits
  obtain ⟨n, complete, reaches⟩ := reaches_figure (s := s) .skipped f begins
  have ended : s.step ⟨.skipped, .numeral around n⟩ c = s.step t c := by
    rw [step_of_ended complete delimits, ← settled_of_complete completed]
    change (s.complete .skipped around .null >>= fun t => s.settled t c) = _
    rw [completed]
    rfl
  rw [List.foldlM_append, reaches, ← ended]
  exact foldlM_single _ c

theorem reaches_skipped_name (n : Name) (before : List (String × Value)) (inner : outer ≠ .top)
    (between : r.phase.SkipsBlanks)
    (opens : s.step r '"' = .ok ⟨.skipped, .keyText before outer (.start true)⟩) :
    ∃ key, s.Reaches r n.text ⟨.skipped, .value (.member before key outer)⟩ := by
  obtain ⟨key, taken⟩ := Scribe.passes_letters "" n.letters
  exact ⟨key, reaches_name_text taken rfl between opens (memberSlot_inner inner .skipped before key)⟩

/- The induction is over the draft and, within an array or an object, over the parts that are still to
come. Nothing in a skipped slot is judged, so any value may stand for what has been read. -/
mutual

theorem leads_skipped (unbounded : s.depth? = none) : (d : Draft) → {p : Phase α} →
    {around : Context} → p.Begins around → around ≠ .top →
    ∃ v, ∀ t, s.complete .skipped around v = .ok t → s.Leads ⟨.skipped, p⟩ d.text t
  | .null, p, around, begins, _ =>
    ⟨.null, fun _ => leads_literal (List.cons_ne_nil _ _) (step_of_begins begins rfl (by decide))⟩
  | .bool true, p, around, begins, _ =>
    ⟨.bool true, fun _ => leads_literal (List.cons_ne_nil _ _) (step_of_begins begins rfl (by decide))⟩
  | .bool false, p, around, begins, _ =>
    ⟨.bool false, fun _ => leads_literal (List.cons_ne_nil _ _) (step_of_begins begins rfl (by decide))⟩
  | .number figure, p, around, begins, _ => ⟨.null, leads_skipped_number figure begins⟩
  | .string letters, p, around, begins, _ => leads_skipped_string letters begins
  | .array gap [], p, around, begins, inner => by
    refine ⟨.array [], fun t completed => ?_⟩
    have opens : s.step ⟨.skipped, p⟩ '[' = .ok ⟨.skipped, .itemOrEnd around⟩ :=
      step_bracket unbounded (by decide) begins (itemSlot_inner inner .skipped 0)
    have close : s.Leads ⟨.skipped, .itemOrEnd around⟩ [']'] t := .of_reaches (.single completed)
    rw [Draft.text]
    exact .cons opens (.blanks gap trivial close)
  | .array gap (⟨lead, v, trail⟩ :: items), p, around, begins, inner => by
    obtain ⟨value, first⟩ := leads_skipped unbounded v (.item around) nofun
    obtain ⟨all, others⟩ := leads_skipped_items unbounded items inner [value]
    refine ⟨.array all.reverse, fun t completed => ?_⟩
    have opens : s.step ⟨.skipped, p⟩ '[' = .ok ⟨.skipped, .itemOrEnd around⟩ :=
      step_bracket unbounded (by decide) begins (itemSlot_inner inner .skipped 0)
    have close : s.Leads ⟨.skipped, .afterItem all around⟩ [']'] t := .of_reaches (.single completed)
    have rest := others.append delimited_bracket close
    have item := first _ (complete_skipped_item inner [] value)
    have delimited := (delimited_itemsText items).append delimited_bracket
    have members := item.trail trail trivial delimited rest
    rw [Draft.text]
    exact .cons opens (.blanks gap trivial (.blanks lead trivial members))
  | .object gap [], p, around, begins, inner => by
    refine ⟨.object [], fun t completed => ?_⟩
    have opens : s.step ⟨.skipped, p⟩ '\x7b' = .ok ⟨.skipped, .keyOrEnd around⟩ :=
      step_brace unbounded (by decide) begins
    have close : s.Leads ⟨.skipped, .keyOrEnd around⟩ ['\x7d'] t := .of_reaches (.single completed)
    rw [Draft.text]
    exact .cons opens (.blanks gap trivial close)
  | .object gap (⟨name, v, trail⟩ :: members), p, around, begins, inner => by
    obtain ⟨key, named⟩ := reaches_skipped_name (s := s) name [] inner
      (r := ⟨.skipped, .keyOrEnd around⟩) trivial rfl
    obtain ⟨value, first⟩ := leads_skipped unbounded v (.value (.member [] key around)) nofun
    obtain ⟨all, others⟩ := leads_skipped_members unbounded members inner [(key, value)]
    refine ⟨.object all.reverse, fun t completed => ?_⟩
    have opens : s.step ⟨.skipped, p⟩ '\x7b' = .ok ⟨.skipped, .keyOrEnd around⟩ :=
      step_brace unbounded (by decide) begins
    have close : s.Leads ⟨.skipped, .afterMember all around⟩ ['\x7d'] t :=
      .of_reaches (.single completed)
    have rest := others.append delimited_brace close
    have member := first _ (complete_skipped_member inner [] key value)
    have delimited := (delimited_membersText members).append delimited_brace
    have onward := member.trail trail trivial delimited rest
    rw [Draft.text]
    exact .cons opens (.blanks gap trivial (named.leads onward))

theorem leads_skipped_items (unbounded : s.depth? = none) : (items : List (Item Draft)) →
    {outer : Context} → outer ≠ .top → (before : List Value) →
    ∃ after, s.Leads ⟨.skipped, .afterItem before outer⟩ (itemsText items)
      ⟨.skipped, .afterItem after outer⟩
  | [], outer, _, before => ⟨before, .refl _⟩
  | ⟨lead, v, trail⟩ :: items, outer, inner, before => by
    obtain ⟨value, first⟩ := leads_skipped unbounded v (.value (.item before outer)) nofun
    obtain ⟨after, others⟩ := leads_skipped_items unbounded items inner (value :: before)
    have comma : s.step ⟨.skipped, .afterItem before outer⟩ ',' =
        .ok ⟨.skipped, .value (.item before outer)⟩ := by
      rw [step_of_token (r := ⟨.skipped, .afterItem before outer⟩) trivial rfl]
      simp only [stepToken, settled, itemSlot_inner inner]
      rfl
    have item := first _ (complete_skipped_item inner before value)
    have onward := item.trail trail trivial (delimited_itemsText items) others
    refine ⟨after, ?_⟩
    rw [itemsText]
    exact .cons comma (.blanks lead trivial onward)

theorem leads_skipped_members (unbounded : s.depth? = none) : (members : List (Member Draft)) →
    {outer : Context} → outer ≠ .top → (before : List (String × Value)) →
    ∃ after, s.Leads ⟨.skipped, .afterMember before outer⟩ (membersText members)
      ⟨.skipped, .afterMember after outer⟩
  | [], outer, _, before => ⟨before, .refl _⟩
  | ⟨name, v, trail⟩ :: members, outer, inner, before => by
    obtain ⟨key, named⟩ := reaches_skipped_name (s := s) name before inner
      (r := ⟨.skipped, .key before outer⟩) trivial rfl
    obtain ⟨value, first⟩ := leads_skipped unbounded v (.value (.member before key outer)) nofun
    obtain ⟨after, others⟩ := leads_skipped_members unbounded members inner ((key, value) :: before)
    have member := first _ (complete_skipped_member inner before key value)
    have onward := member.trail trail trivial (delimited_membersText members) others
    refine ⟨after, ?_⟩
    rw [membersText]
    exact .cons rfl (named.leads onward)

end

end Schema

end NestedRules.Json
