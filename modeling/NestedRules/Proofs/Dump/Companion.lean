import NestedRules.Proofs.Dump.Fields
import NestedRules.Proofs.Json.Prospect

/-!
The reader of a dump beside one that takes any value. The reader of a dump looks at what tells the
kind of the root as soon as that is there. But what it turns down early could not have become a node
later on: the two readers keep abreast over every text (`abreast_run`), and a text is read as a
node exactly if its value is one (`parseNode_eq_ok_iff`).
-/

namespace NestedRules.Dump

open Json

theorem ofJson_eq_ok_iff {v : Value} {n : Node} :
    ofJson v = .ok n ↔ checkRootKind v = .ok () ∧ readNode v = .ok n := by
  refine bind_eq_ok_iff.trans ⟨?_, fun both => ⟨(), both⟩⟩
  rintro ⟨⟨⟩, both⟩
  exact both

inductive AtKind : Context → Prop
  | first : AtKind (.item [] .top)
  | member (before : List (String × Value)) : AtKind (.member before "type" .top)

theorem exists_namedKind {v kind : Value} {n : Node} (read : ofJson v = .ok n)
    (tells : kindValue? v = some kind) : ∃ k, namedKind kind = .ok k := by
  obtain ⟨named, -⟩ := ofJson_eq_ok_iff.mp read
  rw [checkRootKind_eq, tells] at named
  obtain ⟨k, named, -⟩ := map_eq_ok_iff.mp named
  exact ⟨k, named⟩

theorem valuesAt_of_ofJson {before after : List (String × Value)} {v : Value} {n : Node}
    (read : ofJson (.object (before ++ ("type", v) :: after)) = .ok n) :
    valuesAt "type" before = [] := by
  obtain ⟨-, read⟩ := ofJson_eq_ok_iff.mp read
  obtain ⟨told, -⟩ := readNode_object_iff.mp read
  obtain ⟨w, only, -⟩ := kindOfMembers_eq_ok_iff.mp told
  exact (valuesAt_append_cons_eq_singleton.mp only).1

theorem exists_namedKind_of_fits {around : Context} {v whole : Value} {n : Node}
    (place : AtKind around) (fits : around.Fits v whole) (read : ofJson whole = .ok n) :
    ∃ k, namedKind v = .ok k := by
  refine exists_namedKind read ?_
  cases place with
  | first =>
    obtain ⟨after, rfl⟩ := fits
    rfl
  | member before =>
    obtain ⟨after, rfl⟩ := fits
    rw [kindValue?, valuesAt_append, valuesAt_of_ofJson read, valuesAt_cons_self]
    rfl

section

variable {ε α : Type}

/-- The two phases differ at most in what has become of a value that is complete. -/
inductive Twin (s : Schema ε α) : Phase α → Phase Value → Prop
  | value (around : Context) : Twin s (.value around) (.value around)
  | itemOrEnd (outer : Context) : Twin s (.itemOrEnd outer) (.itemOrEnd outer)
  | keyOrEnd (outer : Context) : Twin s (.keyOrEnd outer) (.keyOrEnd outer)
  | key (members : List (String × Value)) (outer : Context) :
      Twin s (.key members outer) (.key members outer)
  | keyText (members : List (String × Value)) (outer : Context) (scribe : Scribe) :
      Twin s (.keyText members outer scribe) (.keyText members outer scribe)
  | colon (around : Context) : Twin s (.colon around) (.colon around)
  | text (around : Context) (scribe : Scribe) : Twin s (.text around scribe) (.text around scribe)
  | literal (around : Context) (rest : List Char) (v : Value) :
      Twin s (.literal around rest v) (.literal around rest v)
  | numeral (around : Context) (n : Numeral) : Twin s (.numeral around n) (.numeral around n)
  | afterItem (items : List Value) (outer : Context) :
      Twin s (.afterItem items outer) (.afterItem items outer)
  | afterMember (members : List (String × Value)) (outer : Context) :
      Twin s (.afterMember members outer) (.afterMember members outer)
  | done {v : Value} {result : α} (finished : s.finish v = .ok result) :
      Twin s (.done result) (.done v)

inductive Phase.Within (around : Context) : Phase Value → Prop
  | colon : Within around (.colon around)
  | value : Within around (.value around)
  | text (scribe : Scribe) : Within around (.text around scribe)
  | literal (rest : List Char) (v : Value) : Within around (.literal around rest v)
  | numeral (n : Numeral) : Within around (.numeral around n)

/-- A reader of `s` goes along with one that looks at nothing. It looks only at what tells the kind. -/
inductive Follows (s : Schema ε α) : Reader α → Reader Value → Prop
  | plain {p : Phase α} {q : Phase Value} (twin : Twin s p q) : Follows s ⟨.plain, p⟩ ⟨.plain, q⟩
  | first : Follows s ⟨.checked, .itemOrEnd .top⟩ ⟨.plain, .itemOrEnd .top⟩
  | kind {around : Context} {p : Phase α} {q : Phase Value} (place : AtKind around)
      (within : Phase.Within around q) (twin : Twin s p q) : Follows s ⟨.checked, p⟩ ⟨.plain, q⟩

inductive Watch : Slot → Context → Prop
  | plain {around : Context} : Watch .plain around
  | kind {around : Context} (place : AtKind around) : Watch .checked around

theorem Watch.follows {s : Schema ε α} {slot : Slot} {around : Context} {p : Phase α}
    {q : Phase Value} (watch : Watch slot around) (within : Phase.Within around q)
    (twin : Twin s p q) : Follows s ⟨slot, p⟩ ⟨.plain, q⟩ := by
  cases watch with
  | plain => exact .plain twin
  | kind place => exact .kind place within twin

/-- Where two readers come to by one step or more: both go on, or neither does, or only one that looks
    at nothing, towards no value that the other would accept. -/
inductive Abreast (s : Schema ε α) :
    Except (Fault ε) (Reader α) → Except (Fault Empty) (Reader Value) → Prop
  | on {r : Reader α} {r' : Reader Value} (follows : Follows s r r') : Abreast s (.ok r) (.ok r')
  | stuck {why : Fault ε} {why' : Fault Empty} : Abreast s (.error why) (.error why')
  | hopeless {why : Fault ε} {q : Phase Value}
      (never : ∀ whole result, s.finish whole = .ok result → ¬ q.MayBe whole) :
      Abreast s (.error why) (.ok ⟨.plain, q⟩)

variable {s : Schema ε α} {x : Except (Fault ε) (Reader α)} {x' : Except (Fault Empty) (Reader Value)}

theorem Abreast.bind {f : Reader α → Except (Fault ε) (Reader α)}
    {f' : Reader Value → Except (Fault Empty) (Reader Value)} (both : Abreast s x x')
    (on : ∀ r r', Follows s r r' → Abreast s (f r) (f' r'))
    (outlook : ∀ q r', f' ⟨.plain, q⟩ = .ok r' → ∀ whole, Schema.Outlook whole (q.MayBe whole) r') :
    Abreast s (x >>= f) (x' >>= f') := by
  cases both with
  | on follows => exact on _ _ follows
  | stuck => exact .stuck
  | @hopeless _ q never =>
    change Abreast s (.error _) (f' ⟨.plain, q⟩)
    cases stepped : f' ⟨.plain, q⟩ with
    | error why => exact .stuck
    | ok r' =>
      obtain ⟨slot, q'⟩ := r'
      obtain rfl := (outlook q _ stepped .null).1
      exact .hopeless fun whole result accepted leads =>
        never whole result accepted ((outlook q _ stepped whole).2 leads)

end

section

variable {ε α : Type} {reject : Mismatch → ε} {finish : Node → Except ε α} {around : Context}
  {slot : Slot} {c : Char}

theorem finish_eq_ok_iff {v : Value} {result : α} :
    (schema none reject finish).finish v = .ok result ↔
      ∃ n, ofJson v = .ok n ∧ finish n = .ok result := by
  simp only [schema, bind_eq_ok_iff, mapError_eq_ok_iff]

theorem not_fits_of_error {v whole : Value} {result : α} {why : Mismatch} (place : AtKind around)
    (wrong : namedKind v = .error why)
    (accepted : (schema none reject finish).finish whole = .ok result) : ¬ around.Fits v whole := by
  intro fits
  obtain ⟨n, read, -⟩ := finish_eq_ok_iff.mp accepted
  obtain ⟨k, told⟩ := exists_namedKind_of_fits place fits read
  rw [wrong] at told
  cases told

theorem abreast_complete_plain (v : Value) :
    Abreast (schema none reject finish) ((schema none reject finish).complete .plain around v)
      (anyValue.complete .plain around v) := by
  cases around with
  | top =>
    cases finished : (schema none reject finish).finish v with
    | error why =>
      simp only [Schema.complete, finished]
      refine .hopeless fun whole result accepted same => ?_
      obtain rfl : v = whole := same
      rw [finished] at accepted
      cases accepted
    | ok result =>
      simp only [Schema.complete, finished]
      exact .on (.plain (.done finished))
  | item before outer =>
    rw [Schema.complete_item, Schema.complete_item]
    exact .on (.plain (.afterItem _ _))
  | member before key outer =>
    rw [Schema.complete_member, Schema.complete_member]
    exact .on (.plain (.afterMember _ _))

theorem abreast_complete_kind (place : AtKind around) (v : Value) :
    Abreast (schema none reject finish) ((schema none reject finish).complete .checked around v)
      (anyValue.complete .plain around v) := by
  cases named : namedKind v with
  | ok kind =>
    cases place with
    | first =>
      rw [Schema.complete_item]
      simp only [Schema.complete, schema, named]
      exact .on (.plain (.afterItem _ _))
    | member before =>
      rw [Schema.complete_member]
      simp only [Schema.complete, schema, named]
      exact .on (.plain (.afterMember _ _))
  | error why =>
    cases place with
    | first =>
      rw [Schema.complete_item]
      simp only [Schema.complete, schema, named]
      refine .hopeless fun whole result accepted leads =>
        not_fits_of_error .first named accepted ?_
      simpa [Phase.MayBe, Context.Fits] using leads
    | member before =>
      rw [Schema.complete_member]
      simp only [Schema.complete, schema, named]
      refine .hopeless fun whole result accepted leads =>
        not_fits_of_error (.member before) named accepted ?_
      simpa [Phase.MayBe, Context.Fits] using leads

theorem abreast_complete (watch : Watch slot around) (v : Value) :
    Abreast (schema none reject finish) ((schema none reject finish).complete slot around v)
      (anyValue.complete .plain around v) := by
  cases watch with
  | plain => exact abreast_complete_plain v
  | kind place => exact abreast_complete_kind place v

theorem abreast_beginValue (watch : Watch slot around) :
    Abreast (schema none reject finish) ((schema none reject finish).beginValue slot around c)
      (anyValue.beginValue .plain around c) := by
  have notSkipped : slot ≠ .skipped := by cases watch <;> decide
  unfold Schema.beginValue
  split
  · simp only [notSkipped]
    exact .on (watch.follows (.text _) (.text _ _))
  split
  · cases watch with
    | plain =>
      cases around with
      | top => exact .on .first
      | _ => exact .on (.plain (.itemOrEnd _))
    | kind place =>
      rw [Schema.itemSlot_anyValue]
      refine .hopeless fun whole result accepted leads => ?_
      obtain ⟨items, fits⟩ := leads
      exact not_fits_of_error place rfl accepted fits
  split
  · cases watch with
    | plain => exact .on (.plain (.keyOrEnd _))
    | kind place =>
      refine .hopeless fun whole result accepted leads => ?_
      obtain ⟨members, fits⟩ := leads
      exact not_fits_of_error place rfl accepted fits
  iterate 3
    split
    · exact .on (watch.follows (.literal _ _) (.literal _ _ _))
  cases Numeral.start? c with
  | some n => exact .on (watch.follows (.numeral n) (.numeral _ n))
  | none => exact .stuck

theorem abreast_settled {r : Reader α} {r' : Reader Value}
    (follows : Follows (schema none reject finish) r r') :
    Abreast (schema none reject finish) ((schema none reject finish).settled r c)
      (anyValue.settled r' c) := by
  unfold Schema.settled
  split
  · exact .on follows
  cases follows with
  | plain twin =>
    cases twin with
    | afterItem items outer =>
      dsimp only
      split
      · cases outer with
        | top =>
          cases items with
          | nil => exact .on (.kind .first .value (.value _))
          | cons item items => exact .on (.plain (.value _))
        | _ => exact .on (.plain (.value _))
      · split
        · exact abreast_complete .plain _
        · exact .stuck
    | afterMember members outer =>
      dsimp only
      split
      · exact .on (.plain (.key _ _))
      · split
        · exact abreast_complete .plain _
        · exact .stuck
    | _ => exact .stuck
  | first => exact .stuck
  | kind place within twin =>
    cases twin <;> first | exact .stuck | cases within

theorem abreast_stepToken {r : Reader α} {r' : Reader Value}
    (follows : Follows (schema none reject finish) r r') :
    Abreast (schema none reject finish) ((schema none reject finish).stepToken r c)
      (anyValue.stepToken r' c) := by
  cases follows with
  | plain twin =>
    have follows := Follows.plain twin
    cases twin with
    | value around => exact abreast_beginValue .plain
    | itemOrEnd outer =>
      simp only [Schema.stepToken]
      split
      · exact abreast_complete .plain _
      · exact abreast_beginValue .plain
    | keyOrEnd outer =>
      simp only [Schema.stepToken]
      split
      · exact .on (.plain (.keyText _ _ _))
      · split
        · exact abreast_complete .plain _
        · exact .stuck
    | key members outer =>
      simp only [Schema.stepToken]
      split
      · exact .on (.plain (.keyText _ _ _))
      · exact .stuck
    | colon around =>
      simp only [Schema.stepToken]
      split
      · exact .on (.plain (.value _))
      · exact .stuck
    | _ => exact abreast_settled follows
  | first =>
    simp only [Schema.stepToken]
    split
    · -- An array without a kind is no node.
      have wrong (result : α) : (schema none reject finish).finish (.array []) ≠ .ok result :=
        fun accepted => by
          obtain ⟨n, read, -⟩ := finish_eq_ok_iff.mp accepted
          obtain ⟨-, read⟩ := ofJson_eq_ok_iff.mp read
          rw [readNode] at read
          cases read
      cases finished : (schema none reject finish).finish (.array []) with
      | ok result => exact absurd finished (wrong result)
      | error why =>
        simp only [Schema.complete, finished]
        refine .hopeless fun whole result accepted same => ?_
        obtain rfl : .array [] = whole := same
        exact wrong result accepted
    · exact abreast_beginValue (.kind .first)
  | kind place within twin =>
    have follows := Follows.kind place within twin
    cases within with
    | colon =>
      cases twin
      simp only [Schema.stepToken]
      split
      · exact .on (.kind place .value (.value _))
      · exact .stuck
    | value =>
      cases twin
      exact abreast_beginValue (.kind place)
    | _ =>
      cases twin
      exact abreast_settled follows

theorem abreast_colon (members : List (String × Value)) (key : String) (outer : Context) :
    Abreast (schema none reject finish)
      ((schema none reject finish).memberSlot .plain members key outer >>= fun slot =>
        pure ⟨slot, .colon (.member members key outer)⟩)
      (.ok ⟨.plain, .colon (.member members key outer)⟩) := by
  cases outer with
  | top =>
    simp only [Schema.memberSlot, schema]
    split
    · exact .on (.plain (.colon _))
    · rename_i type
      obtain rfl : key = "type" := not_not.mp type
      split
      · rename_i again
        refine .hopeless fun whole result accepted leads => ?_
        obtain ⟨v, after, same⟩ := leads
        obtain rfl : Value.object (members.reverse ++ ("type", v) :: after) = whole := same
        obtain ⟨n, read, -⟩ := finish_eq_ok_iff.mp accepted
        obtain ⟨m, member, named⟩ := List.mem_map.mp (List.contains_iff_mem.mp again)
        exact valuesAt_eq_nil_iff.mp (valuesAt_of_ofJson read) m member named
      · exact .on (.kind (.member members) .colon (.colon _))
  | _ => exact .on (.plain (.colon _))

theorem abreast_step_between {r : Reader α} {r' : Reader Value}
    (follows : Follows (schema none reject finish) r r') (between : r.phase.SkipsBlanks)
    (between' : r'.phase.SkipsBlanks) :
    Abreast (schema none reject finish) ((schema none reject finish).step r c)
      (anyValue.step r' c) := by
  by_cases blank : isBlank c = true
  · rw [Schema.step_of_blank between blank, Schema.step_of_blank between' blank]
    exact .on follows
  · have token : isBlank c = false := Bool.not_eq_true _ ▸ blank
    rw [Schema.step_of_token between token, Schema.step_of_token between' token]
    exact abreast_stepToken follows

theorem abreast_step_within {p : Phase α} {q : Phase Value} (watch : Watch slot around)
    (within : Phase.Within around q) (twin : Twin (schema none reject finish) p q) :
    Abreast (schema none reject finish) ((schema none reject finish).step ⟨slot, p⟩ c)
      (anyValue.step ⟨.plain, q⟩ c) := by
  have follows := watch.follows within twin
  cases within with
  | colon =>
    cases twin
    exact abreast_step_between follows trivial trivial
  | value =>
    cases twin
    exact abreast_step_between follows trivial trivial
  | text scribe =>
    cases twin
    simp only [Schema.step]
    cases scribe.push c with
    | more next => exact .on (watch.follows (.text _) (.text _ _))
    | malformed => exact .stuck
    | closed text => exact abreast_complete watch _
  | literal rest v =>
    cases twin
    simp only [Schema.step]
    cases rest with
    | nil =>
      dsimp only
      split
      · exact .on follows
      · exact abreast_stepToken follows
    | cons next rest =>
      dsimp only
      split
      · exact .stuck
      · split
        · exact abreast_complete watch v
        · exact .on (watch.follows (.literal _ _) (.literal _ _ _))
  | numeral n =>
    cases twin
    simp only [Schema.step]
    cases n.push c with
    | more next => exact .on (watch.follows (.numeral _) (.numeral _ _))
    | malformed => exact .stuck
    | ended =>
      have notSkipped : slot ≠ .skipped := by cases watch <;> decide
      simp only [Schema.numeralValue, if_neg notSkipped, reduceCtorEq, if_false]
      cases n.value? with
      | none => exact .stuck
      | some v =>
        exact (abreast_complete watch v).bind (fun _ _ => abreast_settled)
          fun q r' stepped whole => Schema.outlook_turn whole (Schema.turn_of_settled stepped) rfl

theorem abreast_step {r : Reader α} {r' : Reader Value}
    (follows : Follows (schema none reject finish) r r') :
    Abreast (schema none reject finish) ((schema none reject finish).step r c)
      (anyValue.step r' c) := by
  cases follows with
  | first => exact abreast_step_between .first trivial trivial
  | kind place within twin => exact abreast_step_within (.kind place) within twin
  | plain twin =>
    have follows := Follows.plain twin
    cases twin with
    | value around => exact abreast_step_within .plain .value (.value around)
    | colon around => exact abreast_step_within .plain .colon (.colon around)
    | text around scribe => exact abreast_step_within .plain (.text scribe) (.text around scribe)
    | literal around rest v =>
      exact abreast_step_within .plain (.literal rest v) (.literal around rest v)
    | numeral around n => exact abreast_step_within .plain (.numeral n) (.numeral around n)
    | keyText members outer scribe =>
      simp only [Schema.step]
      cases scribe.push c with
      | more next => exact .on (.plain (.keyText _ _ _))
      | malformed => exact .stuck
      | closed key =>
        dsimp only
        rw [Schema.memberSlot_anyValue]
        exact abreast_colon members key outer
    | _ => exact abreast_step_between follows trivial trivial

/-- Two readers that go along stay abreast over any text. -/
theorem abreast_run (reject : Mismatch → ε) (finish : Node → Except ε α) (cs : List Char)
    {r : Reader α} {r' : Reader Value} (follows : Follows (schema none reject finish) r r') :
    Abreast (schema none reject finish) (cs.foldlM (schema none reject finish).step r)
      (cs.foldlM anyValue.step r') := by
  induction cs generalizing r r' with
  | nil => exact .on follows
  | cons c cs ih =>
    rw [List.foldlM_cons, List.foldlM_cons]
    exact (abreast_step follows).bind (fun _ _ => ih)
      fun q r' reached whole => Schema.outlook_reaches whole reached

end

section

variable {ε α : Type} {s : Schema ε α}

theorem follows_start : Follows s Schema.start Schema.start := .plain (.value _)

theorem Abreast.exists_follows {r : Reader α} {x' : Except (Fault Empty) (Reader Value)}
    (both : Abreast s (.ok r) x') : ∃ r', x' = .ok r' ∧ Follows s r r' := by
  cases both with
  | on follows => exact ⟨_, rfl, follows⟩

theorem Follows.exists_done {slot : Slot} {result : α} {r' : Reader Value}
    (follows : Follows s ⟨slot, .done result⟩ r') :
    ∃ v, r' = ⟨.plain, .done v⟩ ∧ s.finish v = .ok result := by
  cases follows with
  | plain twin =>
    cases twin with
    | done finished => exact ⟨_, rfl, finished⟩
  | kind place within twin =>
    cases twin
    cases within

theorem Abreast.exists_leader {v : Value} {result : α} {x : Except (Fault ε) (Reader α)}
    (both : Abreast s x (.ok ⟨.plain, .done v⟩)) (accepted : s.finish v = .ok result) :
    x = .ok ⟨.plain, .done result⟩ := by
  cases both with
  | on follows =>
    cases follows with
    | plain twin =>
      cases twin with
      | done finished =>
        rw [accepted] at finished
        cases finished
        rfl
    | kind place within twin => cases within
  | hopeless never => exact absurd rfl (never v result accepted)

theorem finish_of_complete {slot slot' : Slot} {around : Context} {v : Value} {result : α}
    (completed : s.complete slot around v = .ok ⟨slot', .done result⟩) : s.finish v = .ok result := by
  cases around with
  | top =>
    obtain ⟨_, finished, same⟩ := Schema.complete_top_iff.mp completed
    cases same
    exact finished
  | item before outer => cases Schema.eq_of_complete_item completed
  | member before key outer => cases Schema.eq_of_complete_member completed

theorem done_of_close {slot : Slot} {p : Phase α} {result : α} (looked : slot ≠ .skipped)
    (closed : s.close ⟨slot, p⟩ = .ok result) :
    p = .done result ∨ ∃ v, v.IsNumber ∧ s.finish v = .ok result := by
  cases p with
  | numeral around n =>
    simp only [Schema.close] at closed
    split at closed
    · obtain ⟨v, known, closed⟩ := bind_eq_ok_iff.mp closed
      obtain ⟨⟨slot', ended⟩, completed, closed⟩ := bind_eq_ok_iff.mp closed
      refine .inr ⟨v, Schema.isNumber_of_numeralValue looked known, ?_⟩
      cases ended with
      | done other =>
        cases closed
        exact finish_of_complete completed
      | _ => cases closed
    · cases closed
  | done other =>
    cases closed
    exact .inl rfl
  | _ => cases closed

end

theorem not_isNumber_of_ofJson {v : Value} {n : Node} (read : ofJson v = .ok n) : ¬ v.IsNumber := by
  obtain ⟨-, read⟩ := ofJson_eq_ok_iff.mp read
  cases v with
  | integer _ | real _ => simp [readNode] at read
  | _ => exact id

section

variable {ε α : Type} {reject : Mismatch → ε} {finish : Node → Except ε α}

theorem Follows.exists_done_of_close {r : Reader α} {r' : Reader Value} {result : α}
    (follows : Follows (schema none reject finish) r r')
    (closed : (schema none reject finish).close r = .ok result) :
    ∃ v n, r' = ⟨.plain, .done v⟩ ∧ ofJson v = .ok n ∧ finish n = .ok result := by
  obtain ⟨slot, p⟩ := r
  have looked : slot ≠ .skipped := by cases follows <;> decide
  obtain rfl | ⟨v, number, accepted⟩ := done_of_close looked closed
  · obtain ⟨v, rfl, accepted⟩ := follows.exists_done
    obtain ⟨n, read, judged⟩ := finish_eq_ok_iff.mp accepted
    exact ⟨v, n, rfl, read, judged⟩
  · obtain ⟨n, read, -⟩ := finish_eq_ok_iff.mp accepted
    exact absurd number (not_isNumber_of_ofJson read)

theorem reaches_of_ofJson {text : String} {v : Value} {n : Node} {result : α}
    (parsed : Value.parse text = .ok v) (read : ofJson v = .ok n) (judged : finish n = .ok result) :
    anyValue.Reaches Schema.start text.toList ⟨.plain, .done v⟩ ∧
      (schema none reject finish).Reaches Schema.start text.toList ⟨.plain, .done result⟩ := by
  have both := abreast_run reject finish text.toList follows_start
  have reached := (Schema.reaches_of_parse parsed).resolve_right (not_isNumber_of_ofJson read)
  rw [reached] at both
  exact ⟨reached, both.exists_leader (finish_eq_ok_iff.mpr ⟨n, read, judged⟩)⟩

theorem read_eq_ok_iff {text : String} {result : α} :
    (schema none reject finish).read text = .ok result ↔
      ∃ v n, Value.parse text = .ok v ∧ ofJson v = .ok n ∧ finish n = .ok result := by
  constructor
  · intro parsed
    obtain ⟨r, reached, closed⟩ := bind_eq_ok_iff.mp parsed
    have both := abreast_run reject finish text.toList follows_start
    rw [reached] at both
    obtain ⟨r', reached', follows⟩ := both.exists_follows
    obtain ⟨v, n, rfl, read, judged⟩ := follows.exists_done_of_close closed
    exact ⟨v, n, Schema.read_of_reaches reached', read, judged⟩
  · rintro ⟨v, n, parsed, read, judged⟩
    exact Schema.read_of_reaches (reaches_of_ofJson parsed read judged).2

end

/-- A text is read as a node exactly if its value is one. -/
theorem parseNode_eq_ok_iff {text : String} {n : Node} :
    parseNode text = .ok n ↔ ∃ v, Value.parse text = .ok v ∧ ofJson v = .ok n := by
  rw [parseNode, read_eq_ok_iff]
  simp

/-- A text is read as a rule exactly if its value is a node that is one. -/
theorem parse_eq_ok_iff_exists {text : String} {r : Rule} :
    parse text = .ok r ↔
      ∃ v n, Value.parse text = .ok v ∧ ofJson v = .ok n ∧ Rule.ofNode n = .ok r := by
  simp only [parse, bind_eq_ok_iff, mapError_eq_ok_iff, parseNode_eq_ok_iff]
  constructor
  · rintro ⟨n, ⟨v, parsed, read⟩, judged⟩
    exact ⟨v, n, parsed, read, judged⟩
  · rintro ⟨v, n, parsed, read, judged⟩
    exact ⟨n, ⟨v, parsed, read⟩, judged⟩

end NestedRules.Dump
