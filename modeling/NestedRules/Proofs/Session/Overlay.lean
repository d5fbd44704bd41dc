import NestedRules.Proofs.Json.Checking
import NestedRules.Session.SettingsText

namespace NestedRules.Settings

open Json

theorem Key.ofWord?_eq_some_iff {w : String} {key : Key} :
    Key.ofWord? w = some key ↔ w = key.word := by
  constructor
  · intro found
    rw [ofWord?] at found
    have word : key.word = w := by simpa using List.find?_some found
    exact word.symm
  · rintro rfl
    cases key <;> decide

theorem Key.ofWord?_eq_none {w : String} (unknown : ∀ key : Key, w ≠ key.word) :
    Key.ofWord? w = none :=
  Option.eq_none_iff_forall_ne_some.mpr fun key found => unknown key (ofWord?_eq_some_iff.mp found)

theorem Key.eq_of_word {key other : Key} (same : key.word = other.word) : key = other :=
  Option.some.inj ((ofWord?_eq_some_iff.mpr rfl).symm.trans (ofWord?_eq_some_iff.mpr same))

theorem get_set (s : Settings) (key other : Key) (text : String) :
    (s.set key text).get other = if other = key then text else s.get other := by
  cases key <;> cases other <;> rfl

theorem ext_get {s t : Settings} (same : ∀ key, s.get key = t.get key) : s = t := by
  cases s
  cases t
  rw [mk.injEq]
  exact ⟨same .rootGroupName, same .newGroupName, same .untitledGroupName,
    same .emptyExpressionMessage⟩

/-- What the members under a key give for it, one after the other; absent where it is no string. -/
def given (key : Key) (members : List (Member Draft)) : List (Option String) :=
  (members.filter fun m => spelled? m.name.letters = some key.word).map fun m => m.value.string?

section

variable {key : Key} {m : Member Draft} {members : List (Member Draft)}

theorem given_cons_self (name : spelled? m.name.letters = some key.word) :
    given key (m :: members) = m.value.string? :: given key members := by
  simp [given, name]

theorem given_cons_other (name : spelled? m.name.letters ≠ some key.word) :
    given key (m :: members) = given key members := by
  simp [given, name]

end

/-- After members with the names, one more with the name and the value may stand: unless the name is
    no key, it is a new one and the value is a string. -/
def Admits (seen : List String) (w : String) (value : Draft) : Prop :=
  ∀ key : Key, w = key.word → w ∉ seen ∧ ∃ text, value.string? = some text

def Fits (seen : List String) (members : List (Member Draft)) : Prop :=
  ∀ key, given key members = [] ∨ key.word ∉ seen ∧ ∃ text, given key members = [some text]

def Overlays (entries : List (String × Value)) (members : List (Member Draft)) : Prop :=
  ∀ s : Settings, ∃ t, s.ofMembers entries = .ok t ∧
    ∀ key, t.get key = (given key members).foldl (fun text next => next.getD text) (s.get key)

theorem overlays_nil : Overlays [] [] := fun s => ⟨s, rfl, fun _ => rfl⟩

section

variable {m : Member Draft} {members : List (Member Draft)} {entries : List (String × Value)}
  {w : String}

theorem Overlays.cons_unknown (overlays : Overlays entries members)
    (name : spelled? m.name.letters = some w) (unknown : ∀ key : Key, w ≠ key.word) (v : Value) :
    Overlays ((w, v) :: entries) (m :: members) := by
  intro s
  obtain ⟨t, read, texts⟩ := overlays s
  refine ⟨t, by rw [ofMembers, Key.ofWord?_eq_none unknown]; exact read, fun key => ?_⟩
  rw [given_cons_other, texts]
  rw [name]
  exact fun same => unknown key (Option.some.inj same)

theorem Overlays.cons_key (overlays : Overlays entries members) {key : Key} {text : String}
    (name : spelled? m.name.letters = some key.word) (string : m.value.string? = some text) :
    Overlays ((key.word, .string text) :: entries) (m :: members) := by
  intro s
  obtain ⟨t, read, texts⟩ := overlays (s.set key text)
  refine ⟨t, by rw [ofMembers, Key.ofWord?_eq_some_iff.mpr rfl]; exact read, fun other => ?_⟩
  -- The text is set before the others are overlaid, so that it is what they start from.
  by_cases same : other = key
  · subst same
    rw [texts, given_cons_self name, get_set, if_pos rfl, string]
    rfl
  · rw [texts, get_set, if_neg same, given_cons_other]
    rw [name]
    exact fun again => same (Key.eq_of_word (Option.some.inj again)).symm

end

theorem check_strict (v : Value) (passed : schema.check v = .ok ()) : ∃ text, v = .string text := by
  cases v with
  | string text => exact ⟨text, rfl⟩
  | _ => cases passed

theorem memberSlot_unknown {w : String} (unknown : ∀ key : Key, w ≠ key.word)
    (before : List (String × Value)) : schema.memberSlot .plain before w .top = .ok .skipped := by
  simp only [Schema.memberSlot, schema, Key.ofWord?_eq_none unknown]
  rfl

theorem memberSlot_key (key : Key) (before : List (String × Value)) :
    schema.memberSlot .plain before key.word .top =
      if key.word ∈ before.map Prod.fst then .error (.rejected (.duplicateField key.word))
      else .ok .checked := by
  simp only [Schema.memberSlot, schema, Key.ofWord?_eq_some_iff.mpr rfl, List.map_reverse,
    List.contains_iff_mem, List.mem_reverse]
  split <;> rfl

section

/- The reader is where a member of the outermost object may begin, after some others. -/
variable {r : Reader Settings} {before : List (String × Value)} {m : Member Draft} {w : String}
  (between : r.phase.SkipsBlanks)
  (opens : schema.step r '"' = .ok ⟨.plain, .keyText before .top (.page "")⟩)

include between opens

theorem leads_unknown (name : spelled? m.name.letters = some w)
    (unknown : ∀ key : Key, w ≠ key.word) :
    ∃ v, schema.Leads r m.text ⟨.plain, .afterMember ((w, v) :: before) .top⟩ := by
  obtain ⟨v, passes⟩ := Schema.leads_skipped (s := schema) rfl m.value
    (.value (.member before w .top)) nofun
  have named := Schema.reaches_name_text (s := schema) (Scribe.takes_spelled name) rfl between opens
    (memberSlot_unknown unknown before)
  have behind : schema.Leads ⟨.plain, .afterMember ((w, v) :: before) .top⟩ m.trail.chars _ :=
    .of_reaches (m.trail.reaches trivial)
  exact ⟨v, named.leads ((passes _ rfl).append m.trail.delimited behind)⟩

theorem reaches_key_name {key : Key} (name : spelled? m.name.letters = some key.word)
    (fresh : key.word ∉ before.map Prod.fst) :
    schema.Reaches r m.name.text ⟨.checked, .value (.member before key.word .top)⟩ := by
  have slot : schema.memberSlot .plain before key.word .top = .ok .checked := by
    rw [memberSlot_key, if_neg fresh]
  exact Schema.reaches_name_text (Scribe.takes_spelled name) rfl between opens slot

theorem leads_key {key : Key} {text : String} (name : spelled? m.name.letters = some key.word)
    (fresh : key.word ∉ before.map Prod.fst) (string : m.value.string? = some text) :
    schema.Leads r m.text ⟨.plain, .afterMember ((key.word, .string text) :: before) .top⟩ := by
  have read : schema.Leads ⟨.checked, .value (.member before key.word .top)⟩ m.value.text
      ⟨.plain, .afterMember ((key.word, .string text) :: before) .top⟩ :=
    Schema.leads_checked string rfl
  have behind : schema.Leads ⟨.plain, .afterMember ((key.word, .string text) :: before) .top⟩
      m.trail.chars _ :=
    .of_reaches (m.trail.reaches trivial)
  have named := reaches_key_name between opens name fresh
  exact named.leads (read.append m.trail.delimited behind)

theorem leads_member (name : spelled? m.name.letters = some w)
    (admits : Admits (before.map Prod.fst) w m.value) :
    ∃ v, schema.Leads r m.text ⟨.plain, .afterMember ((w, v) :: before) .top⟩ ∧
      ∀ entries members, Overlays entries members → Overlays ((w, v) :: entries) (m :: members) := by
  by_cases known : ∃ key : Key, w = key.word
  · obtain ⟨key, rfl⟩ := known
    obtain ⟨fresh, text, string⟩ := admits key rfl
    exact ⟨.string text, leads_key between opens name fresh string,
      fun _ _ overlays => overlays.cons_key name string⟩
  · have unknown (key : Key) : w ≠ key.word := fun same => known ⟨key, same⟩
    obtain ⟨v, leads⟩ := leads_unknown between opens name unknown
    exact ⟨v, leads, fun _ _ overlays => overlays.cons_unknown name unknown v⟩

theorem balks_member (bad : ∀ w, spelled? m.name.letters = some w →
      ¬ Admits (before.map Prod.fst) w m.value) : schema.Balks r m.text := by
  cases name : spelled? m.name.letters with
  | none => exact ((Schema.fails_name between opens name).append _).balks
  | some w =>
    obtain ⟨key, rfl, bad⟩ : ∃ key : Key, w = key.word ∧
        ¬ (w ∉ before.map Prod.fst ∧ ∃ text, m.value.string? = some text) := by
      simpa [Admits] using bad w name
    by_cases seen : key.word ∈ before.map Prod.fst
    · have refused := memberSlot_key key before
      rw [if_pos seen] at refused
      exact ((Schema.fails_refused_name between opens name refused).append _).balks
    · have other : m.value.string? = none :=
        Option.eq_none_iff_forall_ne_some.mpr fun text string => bad ⟨seen, text, string⟩
      have value : schema.Balks ⟨.checked, .value (.member before key.word .top)⟩ m.value.text :=
        Schema.balks_checked check_strict nofun other
      exact (reaches_key_name between opens name seen).balks (value.append m.trail.delimited)

end

theorem fits_cons_iff {seen : List String} {m : Member Draft} {members : List (Member Draft)}
    {w : String} (name : spelled? m.name.letters = some w) :
    Fits seen (m :: members) ↔ Admits seen w m.value ∧ Fits (w :: seen) members := by
  constructor
  · intro fits
    constructor
    · rintro key rfl
      have once := fits key
      rw [given_cons_self name] at once
      obtain ⟨fresh, text, only⟩ := once.resolve_left (List.cons_ne_nil _ _)
      exact ⟨fresh, text, (List.cons.inj only).1⟩
    · intro key
      have once := fits key
      by_cases same : w = key.word
      · subst same
        rw [given_cons_self name] at once
        obtain ⟨-, text, only⟩ := once.resolve_left (List.cons_ne_nil _ _)
        exact .inl (List.cons.inj only).2
      · rw [given_cons_other (by simpa [name] using same)] at once
        exact once.imp_right fun ⟨fresh, only⟩ => ⟨by simp [fresh, Ne.symm same], only⟩
  · rintro ⟨admits, fits⟩ key
    by_cases same : w = key.word
    · subst same
      obtain ⟨fresh, text, string⟩ := admits key rfl
      have rest : given key members = [] :=
        (fits key).resolve_right fun ⟨fresh, _⟩ => fresh List.mem_cons_self
      rw [given_cons_self name, string, rest]
      exact .inr ⟨fresh, text, rfl⟩
    · rw [given_cons_other (by simpa [name] using same)]
      exact (fits key).imp_right fun ⟨fresh, only⟩ =>
        ⟨fun seen => fresh (List.mem_cons_of_mem w seen), only⟩

theorem fits_nil (seen : List String) : Fits seen [] := fun _ => .inl rfl

theorem leads_members (m : Member Draft) (members : List (Member Draft)) {r : Reader Settings}
    (before : List (String × Value)) (between : r.phase.SkipsBlanks)
    (opens : schema.step r '"' = .ok ⟨.plain, .keyText before .top (.page "")⟩)
    (named : ∀ n ∈ m :: members, (spelled? n.name.letters).isSome)
    (fits : Fits (before.map Prod.fst) (m :: members)) :
    ∃ entries, Overlays entries (m :: members) ∧
      schema.Leads r (m.text ++ membersText members)
        ⟨.plain, .afterMember (entries.reverse ++ before) .top⟩ := by
  -- The induction is over the members that are still to come; `before` are those that have been read.
  induction members generalizing m r before with
  | nil =>
    obtain ⟨w, name⟩ := Option.isSome_iff_exists.mp (named m List.mem_cons_self)
    obtain ⟨admits, -⟩ := (fits_cons_iff name).mp fits
    obtain ⟨v, leads, overlays⟩ := leads_member between opens name admits
    refine ⟨[(w, v)], overlays [] [] overlays_nil, ?_⟩
    rw [membersText, List.append_nil]
    exact leads
  | cons next members ih =>
    obtain ⟨w, name⟩ := Option.isSome_iff_exists.mp (named m List.mem_cons_self)
    obtain ⟨admits, others⟩ := (fits_cons_iff name).mp fits
    obtain ⟨v, leads, overlays⟩ := leads_member between opens name admits
    obtain ⟨entries, rest, onward⟩ := ih next (r := ⟨.plain, .key ((w, v) :: before) .top⟩)
      ((w, v) :: before) trivial rfl (fun n member => named n (List.mem_cons_of_mem m member)) others
    refine ⟨(w, v) :: entries, overlays entries _ rest, ?_⟩
    rw [membersText_cons, List.reverse_cons, List.append_assoc]
    exact leads.append (delimited_cons (.inr (.inl rfl)) _) (.cons rfl onward)

theorem balks_members (m : Member Draft) (members : List (Member Draft)) {r : Reader Settings}
    (before : List (String × Value)) (between : r.phase.SkipsBlanks)
    (opens : schema.step r '"' = .ok ⟨.plain, .keyText before .top (.page "")⟩)
    (misfits : ¬ Fits (before.map Prod.fst) (m :: members)) :
    schema.Balks r (m.text ++ membersText members) := by
  induction members generalizing m r before with
  | nil =>
    rw [membersText, List.append_nil]
    exact balks_member between opens fun w name admits =>
      misfits ((fits_cons_iff name).mpr ⟨admits, fits_nil _⟩)
  | cons next members ih =>
    by_cases admitted : ∃ w, spelled? m.name.letters = some w ∧ Admits (before.map Prod.fst) w m.value
    · obtain ⟨w, name, admits⟩ := admitted
      obtain ⟨v, leads, -⟩ := leads_member between opens name admits
      have onward := ih next (r := ⟨.plain, .key ((w, v) :: before) .top⟩) ((w, v) :: before)
        trivial rfl fun fits => misfits ((fits_cons_iff name).mpr ⟨admits, fits⟩)
      have comma : schema.Reaches ⟨.plain, .afterMember ((w, v) :: before) .top⟩ [','] _ := .single rfl
      rw [membersText_cons]
      exact leads.balks (.inr (.inl rfl)) (comma.balks onward)
    · have balks := balks_member between opens fun w name admits => admitted ⟨w, name, admits⟩
      exact balks.append (delimited_membersText _)

theorem complete_object {entries : List (String × Value)} {members : List (Member Draft)}
    (overlays : Overlays entries members) :
    ∃ s, schema.complete .plain .top (.object entries) = .ok ⟨.plain, .done s⟩ ∧
      ∀ key, s.get key =
        (given key members).foldl (fun text next => next.getD text) (default.get key) := by
  obtain ⟨s, read, texts⟩ := overlays default
  exact ⟨s, Schema.complete_top_iff.mpr ⟨s, read, rfl⟩, texts⟩

theorem reaches_front (o : ObjectText) :
    schema.Reaches Schema.start (o.lead.chars ++ '\x7b' :: o.gap.chars) ⟨.plain, .keyOrEnd .top⟩ := by
  have lead : schema.Reaches Schema.start o.lead.chars _ := o.lead.reaches trivial
  have gap : schema.Reaches ⟨.plain, .keyOrEnd .top⟩ o.gap.chars _ := o.gap.reaches trivial
  exact lead.append (.cons (Schema.step_brace rfl (by decide) (.value .top)) gap)

theorem parse_of_fits {o : ObjectText} (named : ∀ m ∈ o.members, (spelled? m.name.letters).isSome)
    (fits : Fits [] o.members) :
    ∃ s, parse o.text = .ok s ∧ ∀ key, s.get key =
      (given key o.members).foldl (fun text next => next.getD text) (default.get key) := by
  obtain ⟨lead, gap, members, trail⟩ := o
  obtain ⟨entries, overlays, reaches⟩ : ∃ entries, Overlays entries members ∧
      ∀ t, schema.complete .plain .top (.object entries) = .ok t →
        schema.Reaches Schema.start (lead.chars ++ (Draft.object gap members).text) t := by
    have front := reaches_front ⟨lead, gap, members, trail⟩
    cases members with
    | nil =>
      refine ⟨[], overlays_nil, fun t completed => ?_⟩
      have closed : schema.Reaches ⟨.plain, .keyOrEnd .top⟩ ['\x7d'] t := .single completed
      simpa [Draft.text] using front.append closed
    | cons m members =>
      obtain ⟨entries, overlays, leads⟩ :=
        leads_members m members [] (r := ⟨.plain, .keyOrEnd .top⟩) trivial rfl named fits
      refine ⟨entries, overlays, fun t completed => ?_⟩
      rw [List.append_nil] at leads
      have closed : schema.Reaches ⟨.plain, .afterMember entries.reverse .top⟩ ['\x7d'] t :=
        .single (by simpa [Schema.step, Schema.stepToken, Schema.settled, isBlank] using completed)
      simpa [Draft.text_object_cons] using
        front.append (leads.reaches (.inr (.inr (.inr rfl))) closed)
  obtain ⟨s, completed, texts⟩ := complete_object overlays
  have read : schema.Reaches Schema.start (ObjectText.mk lead gap members trail).text.toList
      ⟨.plain, .done s⟩ := by
    rw [ObjectText.text, String.toList_ofList, ← List.append_assoc]
    exact (reaches _ completed).append (trail.reaches trivial)
  exact ⟨s, Schema.read_of_reaches read, texts⟩

theorem not_parse_of_misfits {o : ObjectText} (misfits : ¬ Fits [] o.members) (s : Settings) :
    parse o.text ≠ .ok s := by
  obtain ⟨lead, gap, members, trail⟩ := o
  intro read
  obtain ⟨r, reached, -⟩ := bind_eq_ok_iff.mp read
  -- The brace ends the last member, and with it the object, so that the reader is stopped there at last.
  cases members with
  | nil => exact misfits (fits_nil [])
  | cons m members =>
    have balks :=
      balks_members m members [] (r := ⟨.plain, .keyOrEnd .top⟩) trivial rfl misfits
    have fails := (reaches_front ⟨lead, gap, m :: members, trail⟩).fails
      (balks.fails (.inr (.inr (.inr rfl))) trail.chars)
    have text : (ObjectText.mk lead gap (m :: members) trail).text.toList =
        (lead.chars ++ '\x7b' :: gap.chars) ++
          ((m.text ++ membersText members) ++ '\x7d' :: trail.chars) := by
      simp [ObjectText.text, Draft.text_object_cons]
    rw [text] at reached
    exact fails r reached

theorem exists_objectText (s : Settings) {l : Layout} (proper : l.Proper) :
    ∃ o : ObjectText, o.text = s.toJson.write l 0 ∧
      (∀ m ∈ o.members, (spelled? m.name.letters).isSome) ∧
      ∀ key, given key o.members = [some (s.get key)] := by
  obtain ⟨letters, spelling⟩ := Classical.skolem.mp exists_letters
  obtain ⟨blanks, colon, blank⟩ := proper.colon
  let tight : Blanks := ⟨[], nofun⟩
  let member (key : Key) (trail : Blanks) : Member Draft :=
    ⟨⟨⟨(l.line 1).toList, proper.line 1⟩, letters key.word, tight, ⟨blanks, blank⟩⟩,
      .string (letters (s.get key)), trail⟩
  refine ⟨⟨tight, tight, [member .rootGroupName tight, member .newGroupName tight,
    member .untitledGroupName tight,
    member .emptyExpressionMessage ⟨(l.line 0).toList, proper.line 0⟩], tight⟩, ?_, ?_, ?_⟩
  · rw [← String.toList_inj, toJson, Key.all]
    simp [ObjectText.text, Draft.text, membersText, Name.text, member, tight, spelling, colon,
      Value.write, writeMembers]
  · simp [member, spelling]
  · intro key
    cases key <;> simp [given, member, spelling, Key.word, Draft.string?]

/-- Settings overlay their defaults. In whatever order the members of an object stand, each key that is
    given one string takes its text, and each that is not given keeps its default; members under other
    names, with whatever values, change nothing. A key that is given twice or no string is an error. So
    written settings are read as they were. -/
theorem parse_overlay (o : ObjectText) :
    ((∀ m ∈ o.members, (spelled? m.name.letters).isSome) →
      (∀ key, given key o.members = [] ∨ ∃ text, given key o.members = [some text]) →
      ∃ s, parse o.text = .ok s ∧
        ∀ key, (given key o.members = [] → s.get key = default.get key) ∧
          ∀ text, given key o.members = [some text] → s.get key = text) ∧
    ((∃ key, 2 ≤ (given key o.members).length ∨ none ∈ given key o.members) →
      ∃ why, parse o.text = .error why) ∧
    ∀ s : Settings, parse s.toJson.compact = .ok s ∧ parse s.toJson.pretty = .ok s := by
  refine ⟨fun named once => ?_, fun ⟨key, bad⟩ => ?_, fun s => ?_⟩
  · have fits : Fits [] o.members := fun key =>
      (once key).imp_right fun only => ⟨List.not_mem_nil, only⟩
    obtain ⟨s, read, texts⟩ := parse_of_fits named fits
    refine ⟨s, read, fun key => ⟨fun absent => ?_, fun text only => ?_⟩⟩
    · rw [texts, absent]
      rfl
    · rw [texts, only]
      rfl
  · have misfits : ¬ Fits [] o.members := by
      intro fits
      rcases fits key with absent | ⟨-, text, only⟩
      · simp [absent] at bad
      · simp [only] at bad
    cases read : parse o.text with
    | ok s => exact absurd read (not_parse_of_misfits misfits s)
    | error why => exact ⟨why, rfl⟩
  · have written {l : Layout} (proper : l.Proper) : parse (s.toJson.write l 0) = .ok s := by
      obtain ⟨o, text, named, texts⟩ := exists_objectText s proper
      have fits : Fits [] o.members := fun key =>
        .inr ⟨List.not_mem_nil, s.get key, texts key⟩
      obtain ⟨t, read, same⟩ := parse_of_fits named fits
      have equal : t = s := ext_get fun key => by
        rw [same, texts]
        rfl
      rw [← text, read, equal]
    exact ⟨written Layout.proper_compact, written Layout.proper_pretty⟩

/-- One key of the settings, with every letter escaped, between two members under one other name, whose
    values are a number beyond all doubles and half a surrogate pair; and more members after them. -/
def interleaved (more : List (Member Draft)) : ObjectText :=
  let tight : Blanks := ⟨[], nofun⟩
  let escaped (text : String) : List Letter := text.toList.map fun c => .code (.ofNat c.toNat)
  let member (name : String) (value : Draft) : Member Draft :=
    ⟨⟨tight, escaped name, tight, ⟨[' '], by simp [isBlank]⟩⟩, value, tight⟩
  let huge : Figure := ⟨false, ⟨1, []⟩, nofun, none, some ⟨false, none, ⟨4, [0, 0]⟩⟩⟩
  ⟨tight, tight,
    member "theme" (.array tight [⟨tight, .number huge, tight⟩]) ::
      member "newGroupName" (.string [.code (.ofNat 0xD83D), .code (.ofNat 0xDE00)]) ::
      member "theme" (.string [.code (.ofNat 0xD83D)]) :: more, tight⟩

theorem parse_overlay_interleaved :
    (∃ s, parse (interleaved []).text = .ok s ∧ s.newGroupName = "😀" ∧
      s.rootGroupName = "Root group") ∧
    ∃ why, parse (interleaved (interleaved []).members).text = .error why := by
  obtain ⟨fits, -, -⟩ := parse_overlay (interleaved [])
  obtain ⟨-, twice, -⟩ := parse_overlay (interleaved (interleaved []).members)
  have once (key : Key) : given key (interleaved []).members = [] ∨
      ∃ text, given key (interleaved []).members = [some text] := by
    cases key with
    | newGroupName => exact .inr ⟨"😀", by decide⟩
    | _ => exact .inl (by decide)
  obtain ⟨s, read, texts⟩ := fits (by decide) once
  exact ⟨⟨s, read, (texts .newGroupName).2 _ (by decide), (texts .rootGroupName).1 (by decide)⟩,
    twice ⟨.newGroupName, .inl (by decide)⟩⟩

end NestedRules.Settings
