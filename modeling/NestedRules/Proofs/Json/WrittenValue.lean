import NestedRules.Proofs.Json.Reading
import NestedRules.Proofs.Json.Turn

namespace NestedRules.Json

theorem Phase.Begins.skipsBlanks {α : Type} {p : Phase α} {around : Context}
    (begins : p.Begins around) : p.SkipsBlanks := by
  cases begins <;> trivial

/-- A layout that puts nothing but blanks, and the colon, between the parts of a value. -/
structure Layout.Proper (l : Layout) : Prop where
  line : ∀ depth, ∀ c ∈ (l.line depth).toList, isBlank c = true
  colon : ∃ blanks, l.colon.toList = ':' :: blanks ∧ ∀ c ∈ blanks, isBlank c = true

theorem Layout.proper_compact : compact.Proper where
  line := by simp [compact]
  colon := ⟨[], by simp [compact]⟩

theorem Layout.proper_pretty : pretty.Proper where
  line := by simp [pretty, isBlank]
  colon := ⟨[' '], by simp [pretty, isBlank]⟩

mutual

def Value.NumberFree : Value → Prop
  | .null | .bool _ | .string _ => True
  | .integer _ | .real _ => False
  | .array items => ItemsNumberFree items
  | .object members => MembersNumberFree members

def ItemsNumberFree : List Value → Prop
  | [] => True
  | v :: vs => v.NumberFree ∧ ItemsNumberFree vs

def MembersNumberFree : List (String × Value) → Prop
  | [] => True
  | (_, v) :: ms => v.NumberFree ∧ MembersNumberFree ms

end

section

variable (l : Layout) (depth : Nat)

theorem Value.toList_write_array (v : Value) (vs : List Value) :
    ((array (v :: vs)).write l depth).toList =
      '[' :: ((l.line (depth + 1)).toList ++ ((v.write l (depth + 1)).toList ++
        ((writeItems l (depth + 1) vs).toList ++ ((l.line depth).toList ++ [']'])))) := by
  simp [write]

theorem Value.toList_write_object (key : String) (v : Value) (ms : List (String × Value)) :
    ((object ((key, v) :: ms)).write l depth).toList =
      '\x7b' :: ((l.line (depth + 1)).toList ++ (((writtenString key).toList ++ l.colon.toList) ++
        ((v.write l (depth + 1)).toList ++
          ((writeMembers l (depth + 1) ms).toList ++ ((l.line depth).toList ++ ['\x7d']))))) := by
  simp [write]

theorem toList_writeItems_cons (v : Value) (vs : List Value) :
    (writeItems l depth (v :: vs)).toList =
      ',' :: ((l.line depth).toList ++ ((v.write l depth).toList ++
        (writeItems l depth vs).toList)) := by
  simp [writeItems]

theorem toList_writeMembers_cons (key : String) (v : Value) (ms : List (String × Value)) :
    (writeMembers l depth ((key, v) :: ms)).toList =
      ',' :: ((l.line depth).toList ++ (((writtenString key).toList ++ l.colon.toList) ++
        ((v.write l depth).toList ++ (writeMembers l depth ms).toList))) := by
  simp [writeMembers]

end

theorem Value.exists_head?_write {v : Value} (free : v.NumberFree) (l : Layout) (depth : Nat) :
    ∃ c, (v.write l depth).toList.head? = some c ∧ isBlank c = false ∧ c ≠ ']' := by
  match v, free with
  | .null, _ => exact ⟨'n', by simp [write], rfl, by decide⟩
  | .bool true, _ => exact ⟨'t', by simp [write], rfl, by decide⟩
  | .bool false, _ => exact ⟨'f', by simp [write], rfl, by decide⟩
  | .string text, _ => exact ⟨'"', by simp [write, writtenString], rfl, by decide⟩
  | .array [], _ => exact ⟨'[', by simp [write], rfl, by decide⟩
  | .array (_ :: _), _ => exact ⟨'[', by simp [write], rfl, by decide⟩
  | .object [], _ => exact ⟨'\x7b', by simp [write], rfl, by decide⟩
  | .object ((_, _) :: _), _ => exact ⟨'\x7b', by simp [write], rfl, by decide⟩

namespace Schema

variable {ε α : Type} {s : Schema ε α} {r t : Reader α} {slot next : Slot} {around outer : Context}
  {before : List (String × Value)} {c : Char}

theorem foldlM_literal {v : Value} {word : List Char} (nonempty : word ≠ []) :
    word.foldlM s.step ⟨slot, .literal around word v⟩ = s.complete slot around v := by
  induction word with
  | nil => exact absurd rfl nonempty
  | cons c cs ih =>
    cases cs with
    | nil => simp [step]
    | cons d ds =>
      have first : s.step ⟨slot, .literal around (c :: d :: ds) v⟩ c =
          .ok ⟨slot, .literal around (d :: ds) v⟩ := by
        simp [step]
        rfl
      rw [List.foldlM_cons, first]
      exact ih (List.cons_ne_nil d ds)

theorem reaches_literal {v : Value} {word : List Char} (nonempty : word ≠ [])
    (completed : s.complete slot around v = .ok t) :
    s.Reaches ⟨slot, .literal around word v⟩ word t :=
  (foldlM_literal nonempty).trans completed

theorem step_of_begins {p : Phase α} (begins : p.Begins around) (token : isBlank c = false)
    (item : c ≠ ']') : s.step ⟨slot, p⟩ c = s.beginValue slot around c := by
  rw [step_of_token (r := ⟨slot, p⟩) begins.skipsBlanks token]
  cases begins with
  | value => rfl
  | item outer => simp [stepToken, item]

section

/- Brackets that nobody judges may nest as deep as they will. -/
variable {p : Phase α} (unbounded : s.depth? = none) (unchecked : slot ≠ .checked)
  (begins : p.Begins around)

include unbounded unchecked begins

theorem step_bracket (first : s.itemSlot slot 0 around = .ok next) :
    s.step ⟨slot, p⟩ '[' = .ok ⟨next, .itemOrEnd around⟩ := by
  rw [step_of_begins begins rfl (by decide)]
  simp only [beginValue, checkOpening, unbounded, unchecked, first]
  rfl

theorem step_brace : s.step ⟨slot, p⟩ '\x7b' = .ok ⟨slot, .keyOrEnd around⟩ := by
  rw [step_of_begins begins rfl (by decide)]
  simp only [beginValue, checkOpening, unbounded, unchecked]
  rfl

end

theorem reaches_first_item {text : List Char} (begins : text.head? = some c)
    (token : isBlank c = false) (item : c ≠ ']')
    (reaches : s.Reaches ⟨slot, .value (.item [] outer)⟩ text t) :
    s.Reaches ⟨slot, .itemOrEnd outer⟩ text t := by
  obtain ⟨cs, rfl⟩ := List.head?_eq_some_iff.mp begins
  have same : s.step ⟨slot, .itemOrEnd outer⟩ c = s.step ⟨slot, .value (.item [] outer)⟩ c := by
    rw [step_of_begins (.item outer) token item, step_of_begins (.value _) token item]
  rw [Reaches, List.foldlM_cons] at reaches ⊢
  rw [same]
  exact reaches

section

variable {l : Layout} (proper : l.Proper)

include proper

theorem reaches_line (depth : Nat) (between : r.phase.SkipsBlanks) :
    s.Reaches r (l.line depth).toList r :=
  reaches_blanks between (proper.line depth)

theorem reaches_name (key : String)
    (opens : s.step r '"' = .ok ⟨slot, .keyText before outer (.page "")⟩)
    (named : s.memberSlot slot before key outer = .ok next) :
    s.Reaches r ((writtenString key).toList ++ l.colon.toList)
      ⟨next, .value (.member before key outer)⟩ := by
  obtain ⟨blanks, colon, blank⟩ := proper.colon
  have after : s.Reaches ⟨next, .value (.member before key outer)⟩ blanks _ :=
    reaches_blanks trivial blank
  rw [colon]
  exact (reaches_key key opens named).append (.cons rfl after)

end

/-- The parts of a value that stands here are read like any value. -/
structure Unwatched (s : Schema ε α) (around : Context) : Prop where
  item : ∀ count, s.itemSlot .plain count around = .ok .plain
  member : ∀ before key, s.memberSlot .plain before key around = .ok .plain

theorem unwatched_item (before : List Value) (outer : Context) :
    s.Unwatched (.item before outer) :=
  ⟨fun _ => rfl, fun _ _ => rfl⟩

theorem unwatched_member (before : List (String × Value)) (key : String) (outer : Context) :
    s.Unwatched (.member before key outer) :=
  ⟨fun _ => rfl, fun _ _ => rfl⟩

theorem complete_item (before : List Value) (v : Value) :
    s.complete .plain (.item before outer) v = .ok ⟨.plain, .afterItem (v :: before) outer⟩ := by
  cases outer <;> rfl

theorem complete_member (before : List (String × Value)) (key : String) (v : Value) :
    s.complete .plain (.member before key outer) v =
      .ok ⟨.plain, .afterMember ((key, v) :: before) outer⟩ := by
  cases outer <;> rfl

variable {l : Layout}

section

variable (proper : l.Proper) (unbounded : s.depth? = none)

include proper unbounded

theorem reaches_array {v : Value} {vs : List Value} {depth : Nat} (free : v.NumberFree)
    (unwatched : s.Unwatched around)
    (first : s.Reaches ⟨.plain, .value (.item [] around)⟩ (v.write l (depth + 1)).toList
      ⟨.plain, .afterItem [v] around⟩)
    (others : s.Reaches ⟨.plain, .afterItem [v] around⟩ (writeItems l (depth + 1) vs).toList
      ⟨.plain, .afterItem (vs.reverse ++ [v]) around⟩)
    (completed : s.complete .plain around (.array (v :: vs)) = .ok t) :
    s.Reaches ⟨.plain, .value around⟩ ((Value.array (v :: vs)).write l depth).toList t := by
  obtain ⟨c, begins, token, item⟩ := v.exists_head?_write free l (depth + 1)
  have closes : s.step ⟨.plain, .afterItem (vs.reverse ++ [v]) around⟩ ']' = .ok t := by
    simpa [step, stepToken, settled, isBlank] using completed
  rw [Value.toList_write_array]
  have opens := step_bracket unbounded (by decide) (.value around) (unwatched.item 0)
  have inner : s.Reaches ⟨.plain, .itemOrEnd around⟩ (l.line (depth + 1)).toList _ :=
    reaches_line proper (depth + 1) trivial
  have last : s.Reaches ⟨.plain, .afterItem (vs.reverse ++ [v]) around⟩ (l.line depth).toList _ :=
    reaches_line proper depth trivial
  have head := reaches_first_item begins token item first
  have tail := others.append (last.append (.single closes))
  exact .cons opens (inner.append (head.append tail))

theorem reaches_object {key : String} {v : Value} {ms : List (String × Value)} {depth : Nat}
    (named : s.memberSlot .plain [] key around = .ok next)
    (first : s.Reaches ⟨next, .value (.member [] key around)⟩ (v.write l (depth + 1)).toList
      ⟨.plain, .afterMember [(key, v)] around⟩)
    (others : s.Reaches ⟨.plain, .afterMember [(key, v)] around⟩
      (writeMembers l (depth + 1) ms).toList
      ⟨.plain, .afterMember (ms.reverse ++ [(key, v)]) around⟩)
    (completed : s.complete .plain around (.object ((key, v) :: ms)) = .ok t) :
    s.Reaches ⟨.plain, .value around⟩
      ((Value.object ((key, v) :: ms)).write l depth).toList t := by
  have opens : s.step ⟨.plain, .keyOrEnd around⟩ '"' = .ok ⟨.plain, .keyText [] around (.page "")⟩ :=
    rfl
  have closes : s.step ⟨.plain, .afterMember (ms.reverse ++ [(key, v)]) around⟩ '\x7d' = .ok t := by
    simpa [step, stepToken, settled, isBlank] using completed
  rw [Value.toList_write_object]
  have inner : s.Reaches ⟨.plain, .keyOrEnd around⟩ (l.line (depth + 1)).toList _ :=
    reaches_line proper (depth + 1) trivial
  have last : s.Reaches ⟨.plain, .afterMember (ms.reverse ++ [(key, v)]) around⟩
      (l.line depth).toList _ :=
    reaches_line proper depth trivial
  have brace : s.step ⟨.plain, .value around⟩ '\x7b' = .ok ⟨.plain, .keyOrEnd around⟩ :=
    step_brace unbounded (by decide) (.value around)
  have name := reaches_name proper key opens named
  have tail := others.append (last.append (.single closes))
  exact .cons brace (inner.append (name.append (first.append tail)))

end

/- The induction is over the value and, within an array or an object, over the parts that are still to
come; `before` holds those that have been read, newest first. -/
mutual

theorem reaches_write (proper : l.Proper) (unbounded : s.depth? = none) :
    (v : Value) → v.NumberFree → (depth : Nat) → {around : Context} → s.Unwatched around →
    {t : Reader α} → s.complete .plain around v = .ok t →
    s.Reaches ⟨.plain, .value around⟩ (v.write l depth).toList t
  | .null, _, _, _, _, _, completed | .bool true, _, _, _, _, _, completed
  | .bool false, _, _, _, _, _, completed => by
    simp only [Value.write]
    exact .cons rfl (reaches_literal (List.cons_ne_nil _ _) completed)
  | .string text, _, _, around, _, t, completed =>
    reaches_string text (by decide) completed
  | .array [], _, _, around, unwatched, t, completed => by
    simp only [Value.write]
    exact .cons (step_bracket unbounded (by decide) (.value around) (unwatched.item 0)) (.single completed)
  | .array (v :: vs), free, depth, around, unwatched, t, completed => by
    obtain ⟨freeFirst, freeOthers⟩ := free
    have first := reaches_write proper unbounded v freeFirst (depth + 1)
      (unwatched_item [] around) (complete_item [] v)
    have others := reaches_writeItems proper unbounded vs freeOthers (depth + 1) unwatched [v]
    exact reaches_array proper unbounded freeFirst unwatched first others completed
  | .object [], _, _, around, _, t, completed => by
    simp only [Value.write]
    exact .cons (step_brace unbounded (by decide) (.value around)) (.single completed)
  | .object ((key, v) :: ms), free, depth, around, unwatched, t, completed => by
    obtain ⟨freeFirst, freeOthers⟩ := free
    have first := reaches_write proper unbounded v freeFirst (depth + 1)
      (unwatched_member [] key around) (complete_member [] key v)
    have others := reaches_writeMembers proper unbounded ms freeOthers (depth + 1)
      (fun before m _ => unwatched.member before m.1) [(key, v)]
    exact reaches_object proper unbounded (unwatched.member [] key) first others completed

theorem reaches_writeItems (proper : l.Proper) (unbounded : s.depth? = none) :
    (vs : List Value) → ItemsNumberFree vs → (depth : Nat) → {outer : Context} →
    s.Unwatched outer → (before : List Value) →
    s.Reaches ⟨.plain, .afterItem before outer⟩ (writeItems l depth vs).toList
      ⟨.plain, .afterItem (vs.reverse ++ before) outer⟩
  | [], _, _, _, _, _ => .nil
  | v :: vs, free, depth, outer, unwatched, before => by
    obtain ⟨freeFirst, freeOthers⟩ := free
    have comma : s.step ⟨.plain, .afterItem before outer⟩ ',' =
        .ok ⟨.plain, .value (.item before outer)⟩ := by
      rw [step_of_token (r := ⟨.plain, .afterItem before outer⟩) trivial rfl]
      simp only [stepToken, settled, unwatched.item]
      rfl
    have first := reaches_write proper unbounded v freeFirst depth
      (unwatched_item before outer) (complete_item before v)
    have others := reaches_writeItems proper unbounded vs freeOthers depth unwatched (v :: before)
    rw [toList_writeItems_cons, List.reverse_cons, List.append_assoc vs.reverse]
    have gap : s.Reaches ⟨.plain, .value (.item before outer)⟩ (l.line depth).toList _ :=
      reaches_line proper depth trivial
    exact .cons comma (gap.append (first.append others))

theorem reaches_writeMembers (proper : l.Proper) (unbounded : s.depth? = none) :
    (ms : List (String × Value)) → MembersNumberFree ms → (depth : Nat) → {outer : Context} →
    (∀ before, ∀ m ∈ ms, s.memberSlot .plain before m.1 outer = .ok .plain) →
    (before : List (String × Value)) →
    s.Reaches ⟨.plain, .afterMember before outer⟩ (writeMembers l depth ms).toList
      ⟨.plain, .afterMember (ms.reverse ++ before) outer⟩
  | [], _, _, _, _, _ => .nil
  | (key, v) :: ms, free, depth, outer, named, before => by
    obtain ⟨freeFirst, freeOthers⟩ := free
    have comma : s.step ⟨.plain, .afterMember before outer⟩ ',' = .ok ⟨.plain, .key before outer⟩ :=
      rfl
    have opens : s.step ⟨.plain, .key before outer⟩ '"' =
        .ok ⟨.plain, .keyText before outer (.page "")⟩ := rfl
    have first := reaches_write proper unbounded v freeFirst depth
      (unwatched_member before key outer) (complete_member before key v)
    have others := reaches_writeMembers proper unbounded ms freeOthers depth
      (fun before m member => named before m (List.mem_cons_of_mem _ member)) ((key, v) :: before)
    rw [toList_writeMembers_cons, List.reverse_cons, List.append_assoc ms.reverse]
    have gap : s.Reaches ⟨.plain, .key before outer⟩ (l.line depth).toList _ :=
      reaches_line proper depth trivial
    have name := reaches_name proper key opens (named before _ List.mem_cons_self)
    have member := name.append (first.append others)
    exact .cons comma (gap.append member)

end

end Schema

/-- Values without numbers are what is read from their own text, in every proper layout. -/
theorem Value.parse_write {v : Value} (free : v.NumberFree) {l : Layout} (proper : l.Proper) :
    Value.parse (v.write l 0) = .ok v := by
  have unwatched : anyValue.Unwatched .top := ⟨fun _ => rfl, fun _ _ => rfl⟩
  exact Schema.read_of_reaches (Schema.reaches_write proper rfl v free 0 unwatched rfl)

end NestedRules.Json
