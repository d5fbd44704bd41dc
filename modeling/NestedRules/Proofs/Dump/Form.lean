import Mathlib.Logic.Function.Basic
import Mathlib.Tactic.Choose
import NestedRules.Dump.Decode
import NestedRules.Proofs.Outcome

namespace NestedRules.Dump

open Json

def valuesAt (key : String) (members : List (String × Value)) : List Value :=
  members.filterMap fun m => if m.1 = key then some m.2 else none

section

variable {key other : String} {v : Value} {members before after : List (String × Value)}

theorem valuesAt_nil : valuesAt key [] = [] := rfl

@[simp] theorem valuesAt_cons_self :
    valuesAt key ((key, v) :: members) = v :: valuesAt key members := by
  simp [valuesAt]

theorem valuesAt_cons_of_ne (different : other ≠ key) :
    valuesAt key ((other, v) :: members) = valuesAt key members := by
  simp [valuesAt, different]

@[simp] theorem valuesAt_append :
    valuesAt key (before ++ after) = valuesAt key before ++ valuesAt key after :=
  List.filterMap_append

theorem valuesAt_perm {members' : List (String × Value)} (same : members.Perm members') :
    (valuesAt key members).Perm (valuesAt key members') := same.filterMap _

theorem valuesAt_of_perm {members' : List (String × Value)} (same : members.Perm members')
    (only : valuesAt key members = [v]) : valuesAt key members' = [v] := by
  have values : (valuesAt key members).Perm (valuesAt key members') := valuesAt_perm same
  rw [only] at values
  exact (List.singleton_perm.mp values).symm

theorem valuesAt_eq_nil_iff : valuesAt key members = [] ↔ ∀ m ∈ members, m.1 ≠ key := by
  simp [valuesAt, List.filterMap_eq_nil_iff]

theorem valuesAt_append_cons_eq_singleton {w : Value} :
    valuesAt key (before ++ (key, v) :: after) = [w] ↔
      valuesAt key before = [] ∧ v = w ∧ valuesAt key after = [] := by
  rw [valuesAt_append, valuesAt_cons_self]
  simp [List.append_eq_singleton_iff]

theorem find?_eq_head?_valuesAt :
    (members.find? (·.1 = key)).map Prod.snd = (valuesAt key members).head? := by
  induction members with
  | nil => rfl
  | cons m members ih =>
    obtain ⟨name, w⟩ := m
    by_cases same : name = key
    · subst same
      simp
    · simp [same, valuesAt_cons_of_ne same, ih]

theorem valuesAt_zip_eq_nil {keys : List String} {items : List Value} {i : Nat}
    (short : items.length ≤ i) (later : key ∉ keys.take i) : valuesAt key (keys.zip items) = [] := by
  rw [valuesAt_eq_nil_iff]
  rintro ⟨name, v⟩ member rfl
  rw [List.zip_eq_zip_take_min] at member
  have shorter : min keys.length items.length ≤ i := Nat.le_trans (Nat.min_le_right ..) short
  exact later (List.take_subset_take_left keys shorter (List.of_mem_zip member).1)

end

/-- The fields of one kind of node: their keys, what each of them holds and how that is read, and what
    it is if it is not given, where it need not be. -/
structure Form where
  Part : Type
  decEq : DecidableEq Part
  key : Part → String
  ofKey? : String → Option Part
  ofKey?_eq_some_iff : ∀ {name : String} {p : Part}, ofKey? name = some p ↔ key p = name
  Content : Part → Type
  read : (p : Part) → Value → Except Mismatch (Content p)
  default? : (p : Part) → Option (Content p)

namespace Form

variable (F : Form)

instance : DecidableEq F.Part := F.decEq

abbrev Sheet : Type := (p : F.Part) → Option (F.Content p)

def fill (sheet : F.Sheet) : List (String × Value) → Except Mismatch F.Sheet
  | [] => .ok sheet
  | (name, v) :: members =>
    match F.ofKey? name with
    | none => fill sheet members
    | some p => do
      let content ← once (sheet p) (F.key p) (F.read p v)
      fill (Function.update sheet p content) members

def column (p : F.Part) (old : Option (F.Content p)) (values : List Value) :
    Except Mismatch (Option (F.Content p)) :=
  values.foldlM (fun old v => once old (F.key p) (F.read p v)) old

/-- What the members say about a field: nothing at all, so that it is as usual, or `a`, in one of
    them. -/
def Tells (members : List (String × Value)) (p : F.Part) (a : F.Content p) : Prop :=
  valuesAt (F.key p) members = [] ∧ F.default? p = some a ∨
    ∃ v, valuesAt (F.key p) members = [v] ∧ F.read p v = .ok a

variable {F} {members : List (String × Value)} {p q : F.Part}

theorem key_ne (different : p ≠ q) : F.key p ≠ F.key q := fun same =>
  different (Option.some.inj
    ((F.ofKey?_eq_some_iff.mpr same).symm.trans (F.ofKey?_eq_some_iff.mpr rfl)))

/-- Each place is filled from the values under its own key. -/
theorem fill_eq_ok_iff {sheet filled : F.Sheet} :
    F.fill sheet members = .ok filled ↔
      ∀ p, F.column p (sheet p) (valuesAt (F.key p) members) = .ok (filled p) := by
  induction members generalizing sheet with
  | nil => simp [fill, column, valuesAt_nil, pure, Except.pure, funext_iff]
  | cons m members ih =>
    obtain ⟨name, v⟩ := m
    cases named : F.ofKey? name with
    | none =>
      have foreign (p : F.Part) : name ≠ F.key p := fun same => by
        rw [F.ofKey?_eq_some_iff.mpr same.symm] at named
        cases named
      simp only [fill, named, ih, valuesAt_cons_of_ne (foreign _)]
    | some p =>
      obtain rfl := F.ofKey?_eq_some_iff.mp named
      have other {q : F.Part} (different : q ≠ p) (content : Option (F.Content p)) :
          F.column q (Function.update sheet p content q) (valuesAt (F.key q) members) =
            F.column q (sheet q) (valuesAt (F.key q) ((F.key p, v) :: members)) := by
        rw [Function.update_of_ne different, valuesAt_cons_of_ne (key_ne different.symm)]
      have own : F.column p (sheet p) (valuesAt (F.key p) ((F.key p, v) :: members)) =
          once (sheet p) (F.key p) (F.read p v) >>= fun content =>
            F.column p content (valuesAt (F.key p) members) := by
        rw [valuesAt_cons_self, column, List.foldlM_cons]
        rfl
      simp only [fill, named, bind_eq_ok_iff, ih]
      constructor
      · rintro ⟨content, put, rest⟩ q
        by_cases same : q = p
        · subst same
          have last := rest q
          rw [Function.update_self] at last
          rw [own]
          exact bind_eq_ok_iff.mpr ⟨content, put, last⟩
        · rw [← other same content]
          exact rest q
      · intro all
        obtain ⟨content, put, last⟩ := bind_eq_ok_iff.mp (own.symm.trans (all p))
        refine ⟨content, put, fun q => ?_⟩
        by_cases same : q = p
        · subst same
          rw [Function.update_self]
          exact last
        · rw [other same content]
          exact all q

theorem column_none_eq_ok_iff {values : List Value} {content : Option (F.Content p)} :
    F.column p none values = .ok content ↔
      values = [] ∧ content = none ∨ ∃ v a, values = [v] ∧ F.read p v = .ok a ∧ content = some a := by
  match values with
  | [] => simp [column, pure, Except.pure, eq_comm]
  | [v] => cases read : F.read p v <;> simp [column, once, read, Except.map, bind, Except.bind,
      pure, Except.pure, eq_comm]
  | v :: w :: values =>
    cases read : F.read p v <;> simp [column, once, read, Except.map, bind, Except.bind]

theorem exists_fill_iff {content : (p : F.Part) → F.Content p} :
    (∃ filled, F.fill (fun _ => none) members = .ok filled ∧
      ∀ p, (filled p).or (F.default? p) = some (content p)) ↔
      ∀ p, F.Tells members p (content p) := by
  simp only [fill_eq_ok_iff, column_none_eq_ok_iff]
  constructor
  · rintro ⟨filled, columns, settled⟩ p
    obtain ⟨nothing, empty⟩ | ⟨v, a, one, read, full⟩ := columns p
    · exact .inl ⟨nothing, by simpa [empty] using settled p⟩
    · have same : a = content p := by simpa [full] using settled p
      exact .inr ⟨v, one, same ▸ read⟩
  · intro told
    have filled (p : F.Part) : ∃ place : Option (F.Content p),
        (valuesAt (F.key p) members = [] ∧ place = none ∨
          ∃ v a, valuesAt (F.key p) members = [v] ∧ F.read p v = .ok a ∧ place = some a) ∧
        place.or (F.default? p) = some (content p) := by
      obtain ⟨nothing, usual⟩ | ⟨v, one, read⟩ := told p
      · exact ⟨none, .inl ⟨nothing, rfl⟩, usual⟩
      · exact ⟨some (content p), .inr ⟨v, content p, one, read, rfl⟩, rfl⟩
    choose sheet columns settled using filled
    exact ⟨sheet, columns, settled⟩

theorem exists_draft_iff {D : Type} {sheet : D → F.Sheet} {outcome : Except Mismatch D}
    (fills : outcome.map sheet = F.fill (fun _ => none) members)
    {content : (p : F.Part) → F.Content p} :
    (∃ d, outcome = .ok d ∧ ∀ p, (sheet d p).or (F.default? p) = some (content p)) ↔
      ∀ p, F.Tells members p (content p) := by
  rw [← exists_fill_iff, ← fills]
  simp only [map_eq_ok_iff]
  constructor
  · rintro ⟨d, read, settled⟩
    exact ⟨sheet d, ⟨d, read, rfl⟩, settled⟩
  · rintro ⟨_, ⟨d, read, rfl⟩, settled⟩
    exact ⟨d, read, settled⟩

theorem map_sheet_readAll {D : Type} {sheet : D → F.Sheet}
    {set : D → (p : F.Part) → Option (F.Content p) → D}
    {readAll : D → List (String × Value) → Except Mismatch D}
    (sheet_set : ∀ d p content, sheet (set d p content) = Function.update (sheet d) p content)
    (nil : ∀ d, readAll d [] = .ok d)
    (foreign : ∀ d name v members, F.ofKey? name = none →
      readAll d ((name, v) :: members) = readAll d members)
    (own : ∀ d p v members, readAll d ((F.key p, v) :: members) =
      (once (sheet d p) (F.key p) (F.read p v)).map (set d p) >>= fun d => readAll d members)
    (d : D) : (readAll d members).map sheet = F.fill (sheet d) members := by
  induction members generalizing d with
  | nil =>
    rw [nil]
    rfl
  | cons m members ih =>
    obtain ⟨name, v⟩ := m
    cases named : F.ofKey? name with
    | none =>
      rw [foreign d name v members named, ih]
      simp only [fill, named]
    | some p =>
      obtain rfl := F.ofKey?_eq_some_iff.mp named
      simp only [own, fill, named]
      cases once (sheet d p) (F.key p) (F.read p v) with
      | error why => rfl
      | ok content =>
        have rest := ih (set d p content)
        rw [sheet_set] at rest
        exact rest

end Form

namespace Form.Tells

variable {F : Form} {p : F.Part} {a : F.Content p} {key : String} {v v' : Value}
  {members members' before after : List (String × Value)}

theorem valuesAt_ne_nil (told : F.Tells members p a) (needed : F.default? p = none) :
    valuesAt (F.key p) members ≠ [] := by
  obtain ⟨-, usual⟩ | ⟨v, one, -⟩ := told
  · rw [needed] at usual
    cases usual
  · simp [one]

theorem congr (told : F.Tells members p a)
    (same : valuesAt (F.key p) members' = valuesAt (F.key p) members) : F.Tells members' p a := by
  rw [Tells, same]
  exact told

theorem permute (told : F.Tells members p a) (same : members.Perm members') :
    F.Tells members' p a := by
  obtain ⟨none, usual⟩ | ⟨v, one, read⟩ := told
  · have values : (valuesAt (F.key p) members).Perm (valuesAt (F.key p) members') :=
      valuesAt_perm same
    rw [none] at values
    exact .inl ⟨List.nil_perm.mp values, usual⟩
  · exact .inr ⟨v, valuesAt_of_perm same one, read⟩

theorem replace (told : F.Tells (before ++ (key, v) :: after) p a)
    (reads : F.key p = key → F.read p v = .ok a → F.read p v' = .ok a) :
    F.Tells (before ++ (key, v') :: after) p a := by
  by_cases own : F.key p = key
  · subst own
    obtain ⟨nothing, -⟩ | ⟨w, one, read⟩ := told
    · simp at nothing
    · obtain ⟨first, rfl, last⟩ := valuesAt_append_cons_eq_singleton.mp one
      exact .inr ⟨v', valuesAt_append_cons_eq_singleton.mpr ⟨first, rfl, last⟩, reads rfl read⟩
  · refine told.congr ?_
    simp only [valuesAt_append, valuesAt_cons_of_ne (Ne.symm own)]

theorem insert (told : F.Tells (before ++ after) p a) (foreign : F.key p ≠ key) :
    F.Tells (before ++ (key, v) :: after) p a := by
  refine told.congr ?_
  simp only [valuesAt_append, valuesAt_cons_of_ne foreign.symm]

theorem drop (told : F.Tells (before ++ (key, v) :: after) p a)
    (usual : F.key p = key → F.read p v = .ok a → F.default? p = some a) :
    F.Tells (before ++ after) p a := by
  by_cases own : F.key p = key
  · subst own
    obtain ⟨nothing, -⟩ | ⟨w, one, read⟩ := told
    · simp at nothing
    · obtain ⟨first, rfl, last⟩ := valuesAt_append_cons_eq_singleton.mp one
      exact .inl ⟨by rw [valuesAt_append, first, last]; rfl, usual rfl read⟩
  · refine told.congr ?_
    simp only [valuesAt_append, valuesAt_cons_of_ne (Ne.symm own)]

end Form.Tells

end NestedRules.Dump
