import NestedRules.Proofs.Dump.Form
import NestedRules.Proofs.Dump.RoundTrip

namespace NestedRules.Dump

open Json

def kindValue? : Value → Option Value
  | .object members => (valuesAt "type" members).head?
  | .array items => items.head?
  | _ => none

theorem checkRootKind_eq (v : Value) :
    checkRootKind v = (kindValue? v).elim (.ok ()) fun kind => (namedKind kind).map fun _ => () := by
  cases v with
  | object members =>
    rw [checkRootKind, kindValue?, ← find?_eq_head?_valuesAt]
    cases members.find? (·.1 = "type") <;> rfl
  | array items => cases items <;> rfl
  | _ => rfl

theorem any_type_iff {members : List (String × Value)} :
    members.any (·.1 = "type") = true ↔ valuesAt "type" members ≠ [] := by
  rw [Ne, valuesAt_eq_nil_iff]
  simp

theorem kindOfMembers_cons {k : Value} {members : List (String × Value)}
    (only : valuesAt "type" members = []) : kindOfMembers (("type", k) :: members) = kindOf k := by
  have once : ¬ members.any (·.1 = "type") = true := fun twice => any_type_iff.mp twice only
  rw [kindOfMembers, if_pos rfl]
  simp only [if_neg once]
  cases kindOf k <;> rfl

theorem kindOfMembers_eq_ok_iff {members : List (String × Value)} {kind : Kind} :
    kindOfMembers members = .ok kind ↔
      ∃ v, valuesAt "type" members = [v] ∧ kindOf v = .ok kind := by
  induction members with
  | nil => simp [kindOfMembers, valuesAt_nil]
  | cons m members ih =>
    obtain ⟨key, v⟩ := m
    by_cases type : key = "type"
    · subst type
      rw [valuesAt_cons_self]
      by_cases only : valuesAt "type" members = []
      · rw [kindOfMembers_cons only, only]
        simp
      · rw [kindOfMembers, if_pos rfl, bind_eq_ok_iff]
        simp only [if_pos (any_type_iff.mpr only), List.cons.injEq, only, and_false, false_and,
          exists_false, iff_false, not_exists, not_and]
        rintro k - same
        cases same
    · rw [kindOfMembers, if_neg type, ih, valuesAt_cons_of_ne type]

theorem GroupField.ofKey?_eq_some_iff {name : String} {p : GroupField} :
    ofKey? name = some p ↔ p.key = name := by
  constructor
  · intro named
    have found := List.find?_some named
    simpa using found
  · rintro rfl
    exact GroupField.ofKey?_key p

theorem FilterField.ofKey?_eq_some_iff {name : String} {p : FilterField} :
    ofKey? name = some p ↔ p.key = name := by
  constructor
  · intro named
    have found := List.find?_some named
    simpa using found
  · rintro rfl
    exact FilterField.ofKey?_key p

abbrev GroupField.Content : GroupField → Type
  | .id | .name => String
  | .logic => Logic
  | .isLocked | .isDisabled | .isCollapsed => Bool
  | .children => Forest

abbrev FilterField.Content : FilterField → Type
  | .id | .value => String
  | .field => Field
  | .operator => Operator
  | .isDisabled => Bool

def groupForm : Form where
  Part := GroupField
  decEq := inferInstance
  key := GroupField.key
  ofKey? := GroupField.ofKey?
  ofKey?_eq_some_iff := GroupField.ofKey?_eq_some_iff
  Content := GroupField.Content
  read
    | .id | .name => Value.asString
    | .logic => nodeWord Logic.ofWord?
    | .isLocked | .isDisabled | .isCollapsed => Value.asBool
    | .children => readChildren
  default?
    | .children => some []
    | _ => none

def filterForm : Form where
  Part := FilterField
  decEq := inferInstance
  key := FilterField.key
  ofKey? := FilterField.ofKey?
  ofKey?_eq_some_iff := FilterField.ofKey?_eq_some_iff
  Content := FilterField.Content
  read
    | .id | .value => Value.asString
    | .field => nodeWord Field.ofWord?
    | .operator => nodeWord Operator.ofWord?
    | .isDisabled => Value.asBool
  default? _ := none

def GroupDraft.sheet (d : GroupDraft) : groupForm.Sheet
  | .id => d.id?
  | .name => d.name?
  | .logic => d.logic?
  | .isLocked => d.isLocked?
  | .isDisabled => d.isDisabled?
  | .isCollapsed => d.isCollapsed?
  | .children => d.children?

def FilterDraft.sheet (d : FilterDraft) : filterForm.Sheet
  | .id => d.id?
  | .field => d.field?
  | .operator => d.operator?
  | .value => d.value?
  | .isDisabled => d.isDisabled?

def GroupDraft.set (d : GroupDraft) : (p : GroupField) → Option p.Content → GroupDraft
  | .id, content => { d with id? := content }
  | .name, content => { d with name? := content }
  | .logic, content => { d with logic? := content }
  | .isLocked, content => { d with isLocked? := content }
  | .isDisabled, content => { d with isDisabled? := content }
  | .isCollapsed, content => { d with isCollapsed? := content }
  | .children, content => { d with children? := content }

def FilterDraft.set (d : FilterDraft) : (p : FilterField) → Option p.Content → FilterDraft
  | .id, content => { d with id? := content }
  | .field, content => { d with field? := content }
  | .operator, content => { d with operator? := content }
  | .value, content => { d with value? := content }
  | .isDisabled, content => { d with isDisabled? := content }

theorem GroupDraft.sheet_set (d : GroupDraft) (p : GroupField) (content : Option p.Content) :
    (d.set p content).sheet = Function.update d.sheet p content := by
  funext q
  cases p <;> cases q <;> rfl

theorem FilterDraft.sheet_set (d : FilterDraft) (p : FilterField) (content : Option p.Content) :
    (d.set p content).sheet = Function.update d.sheet p content := by
  funext q
  cases p <;> cases q <;> rfl

theorem GroupDraft.put_eq (d : GroupDraft) (p : GroupField) (v : Value) :
    (d.put p v fun _ => readChildren v) =
      (once (d.sheet p) p.key (groupForm.read p v)).map (d.set p) := by
  cases p with
  | children =>
    simp only [put, sheet]
    cases d.children? with
    | some cs => rfl
    | none =>
      change (readChildren v >>= fun cs => .ok { d with children? := some cs }) =
        ((readChildren v).map some).map fun content => { d with children? := content }
      cases readChildren v <;> rfl
  | _ => rfl

theorem FilterDraft.put_eq (d : FilterDraft) (p : FilterField) (v : Value) :
    d.put p v = (once (d.sheet p) p.key (filterForm.read p v)).map (d.set p) := by
  cases p <;> rfl

theorem GroupDraft.map_sheet_readGroupMembers (d : GroupDraft) (members : List (String × Value)) :
    (readGroupMembers d members).map sheet = groupForm.fill d.sheet members := by
  refine Form.map_sheet_readAll sheet_set (fun d => by rw [readGroupMembers])
    (fun d name v members foreign => ?_) (fun d (p : GroupField) v members => ?_) d
  · rw [readGroupMembers]
    simp only [show GroupField.ofKey? name = none from foreign]
  · have taken := readGroupMembers_key d p v members
    rw [put_eq] at taken
    exact taken

theorem FilterDraft.map_sheet_ofMembers (d : FilterDraft) (members : List (String × Value)) :
    (d.ofMembers members).map sheet = filterForm.fill d.sheet members := by
  refine Form.map_sheet_readAll sheet_set (fun d => by rw [ofMembers])
    (fun d name v members foreign => ?_) (fun d (p : FilterField) v members => ?_) d
  · rw [ofMembers]
    simp only [show FilterField.ofKey? name = none from foreign]
  · have taken := ofMembers_key d p v members
    rw [put_eq] at taken
    exact taken

def groupContent (h : Header) (cs : Forest) : (p : groupForm.Part) → groupForm.Content p
  | .id => h.id
  | .name => h.name
  | .logic => h.logic
  | .isLocked => h.isLocked
  | .isDisabled => h.isDisabled
  | .isCollapsed => h.isCollapsed
  | .children => cs

def filterContent (f : Filter) : (p : filterForm.Part) → filterForm.Content p
  | .id => f.id
  | .field => f.field
  | .operator => f.operator
  | .value => f.value
  | .isDisabled => f.isDisabled

theorem required_eq_ok_iff {α : Type} {field : Option α} {key : String} {a : α} :
    required field key = .ok a ↔ field = some a := by
  cases field <;> simp [required]

theorem GroupDraft.finish_eq_ok_iff {d : GroupDraft} {n : Node} :
    d.finish = .ok n ↔ ∃ h cs, n = .group h cs ∧
      ∀ p, (d.sheet p).or (groupForm.default? p) = some (groupContent h cs p) := by
  simp only [finish, bind_eq_ok_iff, required_eq_ok_iff]
  constructor
  · rintro ⟨id, hasId, name, hasName, logic, hasLogic, isLocked, hasLocked, isDisabled, hasDisabled,
      isCollapsed, hasCollapsed, result⟩
    cases result
    refine ⟨_, _, rfl, fun p => ?_⟩
    cases p with
    | children => cases has : d.children? <;> simp [sheet, groupForm, groupContent, has]
    | _ => simp [sheet, groupForm, groupContent, *]
  · rintro ⟨h, cs, rfl, content⟩
    have id : d.id? = some h.id := Option.or_none.symm.trans (content .id)
    have name : d.name? = some h.name := Option.or_none.symm.trans (content .name)
    have logic : d.logic? = some h.logic := Option.or_none.symm.trans (content .logic)
    have isLocked : d.isLocked? = some h.isLocked := Option.or_none.symm.trans (content .isLocked)
    have isDisabled : d.isDisabled? = some h.isDisabled :=
      Option.or_none.symm.trans (content .isDisabled)
    have isCollapsed : d.isCollapsed? = some h.isCollapsed :=
      Option.or_none.symm.trans (content .isCollapsed)
    have children : d.children?.getD [] = cs :=
      Option.some.inj (Option.or_some.symm.trans (content .children))
    rw [children]
    exact ⟨_, id, _, name, _, logic, _, isLocked, _, isDisabled, _, isCollapsed, rfl⟩

theorem FilterDraft.finish_eq_ok_iff {d : FilterDraft} {n : Node} :
    d.finish = .ok n ↔ ∃ f, n = .filter f ∧
      ∀ p, (d.sheet p).or (filterForm.default? p) = some (filterContent f p) := by
  simp only [finish, bind_eq_ok_iff, required_eq_ok_iff]
  constructor
  · rintro ⟨id, hasId, field, hasField, operator, hasOperator, value, hasValue, isDisabled,
      hasDisabled, result⟩
    cases result
    refine ⟨_, rfl, fun p => ?_⟩
    cases p <;> simp [sheet, filterForm, filterContent, *]
  · rintro ⟨f, rfl, content⟩
    have id : d.id? = some f.id := Option.or_none.symm.trans (content .id)
    have field : d.field? = some f.field := Option.or_none.symm.trans (content .field)
    have operator : d.operator? = some f.operator := Option.or_none.symm.trans (content .operator)
    have value : d.value? = some f.value := Option.or_none.symm.trans (content .value)
    have isDisabled : d.isDisabled? = some f.isDisabled :=
      Option.or_none.symm.trans (content .isDisabled)
    exact ⟨_, id, _, field, _, operator, _, value, _, isDisabled, rfl⟩

def form : Kind → Form
  | .group => groupForm
  | .filter => filterForm

/-- What a node has at each of its fields. -/
def content : (n : Node) → (p : (form n.kind).Part) → (form n.kind).Content p
  | .group h cs => groupContent h cs
  | .filter f => filterContent f

theorem readGroupMembers_empty (members : List (String × Value)) :
    (readGroupMembers {} members).map GroupDraft.sheet = groupForm.fill (fun _ => none) members := by
  rw [GroupDraft.map_sheet_readGroupMembers]
  exact congrArg (groupForm.fill · members) (funext fun p => by cases p <;> rfl)

theorem ofMembers_empty (members : List (String × Value)) :
    (FilterDraft.ofMembers {} members).map FilterDraft.sheet =
      filterForm.fill (fun _ => none) members := by
  rw [FilterDraft.map_sheet_ofMembers]
  exact congrArg (filterForm.fill · members) (funext fun p => by cases p <;> rfl)

theorem finish_readGroupMembers_iff {members : List (String × Value)} {n : Node} :
    readGroupMembers {} members >>= GroupDraft.finish = .ok n ↔
      ∃ h cs, n = .group h cs ∧ ∀ p, groupForm.Tells members p (groupContent h cs p) := by
  simp only [bind_eq_ok_iff, GroupDraft.finish_eq_ok_iff,
    ← Form.exists_draft_iff (readGroupMembers_empty members)]
  constructor
  · rintro ⟨d, read, h, cs, rfl, settled⟩
    exact ⟨h, cs, rfl, d, read, settled⟩
  · rintro ⟨h, cs, rfl, d, read, settled⟩
    exact ⟨d, read, h, cs, rfl, settled⟩

theorem finish_ofMembers_iff {members : List (String × Value)} {n : Node} :
    FilterDraft.ofMembers {} members >>= FilterDraft.finish = .ok n ↔
      ∃ f, n = .filter f ∧ ∀ p, filterForm.Tells members p (filterContent f p) := by
  simp only [bind_eq_ok_iff, FilterDraft.finish_eq_ok_iff,
    ← Form.exists_draft_iff (ofMembers_empty members)]
  constructor
  · rintro ⟨d, read, f, rfl, settled⟩
    exact ⟨f, rfl, d, read, settled⟩
  · rintro ⟨f, rfl, d, read, settled⟩
    exact ⟨d, read, f, rfl, settled⟩

/-- An object is a node if it tells the node's kind and what the node has at each field. -/
theorem readNode_object_iff {members : List (String × Value)} {n : Node} :
    readNode (.object members) = .ok n ↔
      kindOfMembers members = .ok n.kind ∧ ∀ p, (form n.kind).Tells members p (content n p) := by
  rw [readNode, bind_eq_ok_iff]
  constructor
  · rintro ⟨kind, told, read⟩
    cases kind with
    | group =>
      obtain ⟨h, cs, rfl, fields⟩ := finish_readGroupMembers_iff.mp read
      exact ⟨told, fields⟩
    | filter =>
      obtain ⟨f, rfl, fields⟩ := finish_ofMembers_iff.mp read
      exact ⟨told, fields⟩
  · rintro ⟨told, fields⟩
    refine ⟨n.kind, told, ?_⟩
    cases n with
    | group h cs => exact finish_readGroupMembers_iff.mpr ⟨h, cs, rfl, fields⟩
    | filter f => exact finish_ofMembers_iff.mpr ⟨f, rfl, fields⟩

def fieldKeys : Kind → List String
  | .group => GroupField.all.map GroupField.key
  | .filter => FilterField.all.map FilterField.key

theorem mem_fieldKeys {kind : Kind} {key : String} :
    key ∈ fieldKeys kind ↔ ∃ p, (form kind).key p = key := by
  cases kind with
  | group =>
    have all (p : GroupField) : p ∈ GroupField.all := by cases p <;> decide
    simp only [fieldKeys, List.mem_map, all, true_and]
    rfl
  | filter =>
    have all (p : FilterField) : p ∈ FilterField.all := by cases p <;> decide
    simp only [fieldKeys, List.mem_map, all, true_and]
    rfl

theorem type_not_mem_fieldKeys (kind : Kind) : "type" ∉ fieldKeys kind := by
  cases kind <;> decide

theorem readGroupItems_eq (d : GroupDraft) (parts : List GroupField) (items : List Value) :
    readGroupItems d parts items = readGroupMembers d ((parts.map GroupField.key).zip items) := by
  induction parts generalizing d items with
  | nil => cases items <;> simp [readGroupItems, readGroupMembers]
  | cons p parts ih =>
    cases items with
    | nil => simp [readGroupItems, readGroupMembers]
    | cons v items =>
      rw [readGroupItems, List.map_cons, List.zip_cons_cons, readGroupMembers_key]
      exact congrArg _ (funext fun d => ih d items)

theorem ofItems_eq (d : FilterDraft) (parts : List FilterField) (items : List Value) :
    d.ofItems parts items = d.ofMembers ((parts.map FilterField.key).zip items) := by
  induction parts generalizing d items with
  | nil => cases items <;> simp [FilterDraft.ofItems, FilterDraft.ofMembers]
  | cons p parts ih =>
    cases items with
    | nil => simp [FilterDraft.ofItems, FilterDraft.ofMembers]
    | cons v items =>
      rw [FilterDraft.ofItems, List.map_cons, List.zip_cons_cons, FilterDraft.ofMembers_key]
      exact congrArg _ (funext fun d => ih d items)

theorem checkLength_eq_ok_iff {least most length : Nat} :
    checkLength least most length = .ok () ↔ least ≤ length ∧ length ≤ most := by
  unfold checkLength
  split <;> simp <;> omega

theorem bind_checkLength_eq_ok_iff {D : Type} {draft : Except Mismatch D}
    {finish : D → Except Mismatch Node} {least most length : Nat} {n : Node} :
    (draft >>= fun d => checkLength least most length >>= fun _ => finish d) = .ok n ↔
      (least ≤ length ∧ length ≤ most) ∧ draft >>= finish = .ok n := by
  simp only [bind_eq_ok_iff, ← checkLength_eq_ok_iff]
  constructor
  · rintro ⟨d, read, ⟨⟩, fits, finished⟩
    exact ⟨fits, d, read, finished⟩
  · rintro ⟨fits, d, read, finished⟩
    exact ⟨d, read, (), fits, finished⟩

/-- An array is read like the object that names its items, if there is a field for each. -/
theorem readNode_array_iff {k : Value} {items : List Value} {n : Node} :
    readNode (.array (k :: items)) = .ok n ↔
      items.length ≤ (fieldKeys n.kind).length ∧
        readNode (.object (("type", k) :: (fieldKeys n.kind).zip items)) = .ok n := by
  have titled (kind : Kind) : kindOfMembers (("type", k) :: (fieldKeys kind).zip items) = kindOf k :=
    kindOfMembers_cons <| valuesAt_eq_nil_iff.mpr fun m member same =>
      type_not_mem_fieldKeys kind (same ▸ (List.of_mem_zip member).1)
  have group : readGroupItems {} GroupField.all items =
      readGroupMembers {} (("type", k) :: (fieldKeys .group).zip items) := by
    rw [readGroupMembers, readGroupItems_eq]
    rfl
  have filter : FilterDraft.ofItems {} FilterField.all items =
      FilterDraft.ofMembers {} (("type", k) :: (fieldKeys .filter).zip items) := by
    rw [FilterDraft.ofMembers, ofItems_eq]
    rfl
  constructor
  · intro read
    rw [readNode, group, filter] at read
    obtain ⟨kind, told, read⟩ := bind_eq_ok_iff.mp read
    cases kind with
    | group =>
      obtain ⟨⟨-, fits⟩, read⟩ := bind_checkLength_eq_ok_iff.mp read
      obtain ⟨h, cs, rfl, fields⟩ := finish_readGroupMembers_iff.mp read
      exact ⟨fits, readNode_object_iff.mpr ⟨(titled .group).trans told, fields⟩⟩
    | filter =>
      obtain ⟨⟨-, fits⟩, read⟩ := bind_checkLength_eq_ok_iff.mp read
      obtain ⟨f, rfl, fields⟩ := finish_ofMembers_iff.mp read
      exact ⟨fits, readNode_object_iff.mpr ⟨(titled .filter).trans told, fields⟩⟩
  · rintro ⟨fits, read⟩
    obtain ⟨told, fields⟩ := readNode_object_iff.mp read
    rw [readNode, group, filter]
    refine bind_eq_ok_iff.mpr ⟨n.kind, (titled n.kind).symm.trans told, ?_⟩
    -- An array that leaves off a field without a default is too short for that field.
    cases n with
    | group h cs =>
      have enough : 6 ≤ items.length := by
        have last : valuesAt "isCollapsed" (("type", k) :: (fieldKeys .group).zip items) ≠ [] :=
          (fields .isCollapsed).valuesAt_ne_nil rfl
        rw [valuesAt_cons_of_ne (by decide)] at last
        by_contra few
        exact last (valuesAt_zip_eq_nil (i := 5) (by omega) (by decide))
      exact bind_checkLength_eq_ok_iff.mpr
        ⟨⟨enough, fits⟩, finish_readGroupMembers_iff.mpr ⟨h, cs, rfl, fields⟩⟩
    | filter f =>
      have enough : 5 ≤ items.length := by
        have last : valuesAt "isDisabled" (("type", k) :: (fieldKeys .filter).zip items) ≠ [] :=
          (fields .isDisabled).valuesAt_ne_nil rfl
        rw [valuesAt_cons_of_ne (by decide)] at last
        by_contra few
        exact last (valuesAt_zip_eq_nil (i := 4) (by omega) (by decide))
      exact bind_checkLength_eq_ok_iff.mpr
        ⟨⟨enough, fits⟩, finish_ofMembers_iff.mpr ⟨f, rfl, fields⟩⟩

end NestedRules.Dump
