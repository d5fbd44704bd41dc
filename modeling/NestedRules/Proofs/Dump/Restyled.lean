import Mathlib.Logic.Relation
import NestedRules.Proofs.Dump.Companion

namespace NestedRules.Dump

open Json

mutual

/-- The same node in another style: it is put differently at one place, its own or that of a node in
    it. -/
inductive Restyles : Value → Value → Prop
  | permute {members members' : List (String × Value)} (same : members.Perm members') :
      Restyles (.object members) (.object members')
  | insert {before after : List (String × Value)} {kind : Kind} {key : String} (v : Value)
      (told : kindOfMembers (before ++ after) = .ok kind) (foreign : key ∉ "type" :: fieldKeys kind) :
      Restyles (.object (before ++ after)) (.object (before ++ (key, v) :: after))
  | dropChildren {before after : List (String × Value)} :
      Restyles (.object (before ++ ("children", .array []) :: after)) (.object (before ++ after))
  | positional {members : List (String × Value)} {k : Value} {kind : Kind}
      (titled : valuesAt "type" members = [k]) (told : kindOf k = .ok kind) :
      Restyles (.object members)
        (.array (k :: (fieldKeys kind).flatMap fun key => valuesAt key members))
  | member {before after : List (String × Value)} {key : String} {v v' : Value}
      (part : RestylesPart key v v') :
      Restyles (.object (before ++ (key, v) :: after)) (.object (before ++ (key, v') :: after))
  | item {k : Value} {kind : Kind} {before after : List Value} {key : String} {v v' : Value}
      (told : kindOf k = .ok kind) (place : (fieldKeys kind)[before.length]? = some key)
      (part : RestylesPart key v v') :
      Restyles (.array (k :: (before ++ v :: after))) (.array (k :: (before ++ v' :: after)))

/-- The same content of the field with this key, put differently. -/
inductive RestylesPart : String → Value → Value → Prop
  | word {key w : String} (worded : key ∈ ["logic", "field", "operator"]) :
      RestylesPart key (.string w) (.object [(w, .null)])
  | child {before after : List Value} {c c' : Value} (restyled : Restyles c c') :
      RestylesPart "children" (.array (before ++ c :: after)) (.array (before ++ c' :: after))

end

theorem valuesAt_zip_flatMap {keys : List String} {values : String → List Value} (nodup : keys.Nodup)
    (full : ∀ key ∈ keys.dropLast, ∃ v, values key = [v])
    (single : ∀ key ∈ keys, values key = [] ∨ ∃ v, values key = [v]) {key : String}
    (member : key ∈ keys) : valuesAt key (keys.zip (keys.flatMap values)) = values key := by
  induction keys with
  | nil => cases member
  | cons first rest ih =>
    obtain ⟨fresh, nodup⟩ := List.nodup_cons.mp nodup
    have others (later : key ∈ rest) : valuesAt key (rest.zip (rest.flatMap values)) = values key := by
      cases rest with
      | nil => cases later
      | cons second rest =>
        exact ih nodup (fun key early => full key (List.mem_cons_of_mem first early))
          (fun key later => single key (List.mem_cons_of_mem first later)) later
    have none : valuesAt first (rest.zip (rest.flatMap values)) = [] :=
      valuesAt_eq_nil_iff.mpr fun m paired same => fresh (same ▸ (List.of_mem_zip paired).1)
    obtain nothing | ⟨v, one⟩ := single first List.mem_cons_self
    · cases rest with
      | nil =>
        obtain rfl := List.mem_singleton.mp member
        simp [nothing, valuesAt_nil]
      | cons second rest =>
        obtain ⟨v, one⟩ := full first List.mem_cons_self
        rw [nothing] at one
        cases one
    · rw [List.flatMap_cons, one, List.singleton_append, List.zip_cons_cons]
      obtain rfl | later := List.mem_cons.mp member
      · rw [valuesAt_cons_self, none, one]
      · have different : first ≠ key := fun same => fresh (same ▸ later)
        rw [valuesAt_cons_of_ne different, others later]

theorem length_flatMap_le {keys : List String} {values : String → List Value}
    (single : ∀ key ∈ keys, values key = [] ∨ ∃ v, values key = [v]) :
    (keys.flatMap values).length ≤ keys.length := by
  induction keys with
  | nil => simp
  | cons first rest ih =>
    have others := ih fun key member => single key (List.mem_cons_of_mem first member)
    rw [List.flatMap_cons, List.length_append, List.length_cons]
    obtain nothing | ⟨v, one⟩ := single first List.mem_cons_self
    · rw [nothing, List.length_nil]
      omega
    · rw [one, List.length_singleton]
      omega

theorem exists_needed {kind : Kind} {key : String} (early : key ∈ (fieldKeys kind).dropLast) :
    ∃ p, (form kind).key p = key ∧ (form kind).default? p = none := by
  obtain ⟨p, rfl⟩ := mem_fieldKeys.mp (List.dropLast_subset _ early)
  refine ⟨p, rfl, ?_⟩
  cases kind with
  | group =>
    cases p with
    | children => exact absurd early (by decide)
    | _ => rfl
  | filter => rfl

theorem nodup_fieldKeys (kind : Kind) : (fieldKeys kind).Nodup := by
  cases kind <;> decide

theorem ne_type_of_part {key : String} {v v' : Value} (part : RestylesPart key v v') :
    key ≠ "type" := by
  cases part with
  | word worded =>
    rintro rfl
    exact absurd worded (by decide)
  | child restyled => decide

theorem key_ne_type {kind : Kind} (p : (form kind).Part) : (form kind).key p ≠ "type" := fun same =>
  type_not_mem_fieldKeys kind (mem_fieldKeys.mpr ⟨p, same⟩)

theorem readNode_of_tells {members members' : List (String × Value)} {n : Node}
    (read : readNode (.object members) = .ok n)
    (titled : ∀ k, valuesAt "type" members = [k] → valuesAt "type" members' = [k])
    (tells : ∀ (p : (form n.kind).Part) a, (form n.kind).Tells members p a →
      (form n.kind).Tells members' p a) : readNode (.object members') = .ok n := by
  obtain ⟨told, fields⟩ := readNode_object_iff.mp read
  obtain ⟨k, only, told⟩ := kindOfMembers_eq_ok_iff.mp told
  exact readNode_object_iff.mpr
    ⟨kindOfMembers_eq_ok_iff.mpr ⟨k, titled k only, told⟩, fun p => tells p _ (fields p)⟩

theorem read_word {kind : Kind} {p : (form kind).Part} {a : (form kind).Content p} {w : String}
    (worded : (form kind).key p ∈ ["logic", "field", "operator"])
    (read : (form kind).read p (.string w) = .ok a) :
    (form kind).read p (.object [(w, .null)]) = .ok a := by
  have word {β : Type} {ofWord? : String → Option β} {b : β}
      (known : nodeWord ofWord? (.string w) = .ok b) :
      nodeWord ofWord? (.object [(w, .null)]) = .ok b := by
    cases found : ofWord? w <;> simp_all [nodeWord, Value.asWordOver, Value.isVoid]
  cases kind with
  | group =>
    cases p with
    | logic => exact word read
    | _ => exact absurd worded (by decide)
  | filter =>
    cases p with
    | field | operator => exact word read
    | _ => exact absurd worded (by decide)

theorem readForest_cons_eq_ok_iff {v : Value} {vs : List Value} {ns : Forest} :
    readForest (v :: vs) = .ok ns ↔
      ∃ n rest, readNode v = .ok n ∧ readForest vs = .ok rest ∧ n :: rest = ns := by
  rw [readForest]
  simp only [bind_eq_ok_iff, pure, Except.pure, Except.ok.injEq, exists_and_left]

theorem readForest_congr {before after : List Value} {c c' : Value} {ns : Forest}
    (child : ∀ n, readNode c = .ok n → readNode c' = .ok n)
    (read : readForest (before ++ c :: after) = .ok ns) :
    readForest (before ++ c' :: after) = .ok ns := by
  induction before generalizing ns with
  | nil =>
    obtain ⟨n, rest, first, others, rfl⟩ := readForest_cons_eq_ok_iff.mp read
    exact readForest_cons_eq_ok_iff.mpr ⟨n, rest, child n first, others, rfl⟩
  | cons v before ih =>
    obtain ⟨n, rest, first, others, rfl⟩ := readForest_cons_eq_ok_iff.mp read
    exact readForest_cons_eq_ok_iff.mpr ⟨n, rest, first, ih others, rfl⟩

theorem read_children {kind : Kind} {p : (form kind).Part} {a : (form kind).Content p}
    {vs vs' : List Value} (own : (form kind).key p = "children")
    (children : ∀ ns, readForest vs = .ok ns → readForest vs' = .ok ns)
    (read : (form kind).read p (.array vs) = .ok a) : (form kind).read p (.array vs') = .ok a := by
  cases kind with
  | group =>
    cases p with
    | children =>
      change readChildren (.array vs) = .ok a at read
      change readChildren (.array vs') = .ok a
      rw [readChildren] at read ⊢
      exact children a read
    | _ => exact absurd own (by decide)
  | filter => cases p <;> exact absurd own (by decide)

theorem default_of_read_nil {kind : Kind} {p : (form kind).Part} {a : (form kind).Content p}
    (own : (form kind).key p = "children") (read : (form kind).read p (.array []) = .ok a) :
    (form kind).default? p = some a := by
  cases kind with
  | group =>
    cases p with
    | children =>
      change readChildren (.array []) = .ok a at read
      rw [readChildren, readForest] at read
      cases read
      rfl
    | _ => exact absurd own (by decide)
  | filter => cases p <;> exact absurd own (by decide)

theorem readNode_positional {members : List (String × Value)} {k : Value} {n : Node}
    (titled : valuesAt "type" members = [k]) (read : readNode (.object members) = .ok n) :
    readNode (.array (k :: (fieldKeys n.kind).flatMap fun key => valuesAt key members)) = .ok n := by
  obtain ⟨told, fields⟩ := readNode_object_iff.mp read
  have single : ∀ key ∈ fieldKeys n.kind,
      valuesAt key members = [] ∨ ∃ v, valuesAt key members = [v] := by
    intro key member
    obtain ⟨p, rfl⟩ := mem_fieldKeys.mp member
    obtain ⟨nothing, -⟩ | ⟨v, one, -⟩ := fields p
    · exact .inl nothing
    · exact .inr ⟨v, one⟩
  have full : ∀ key ∈ (fieldKeys n.kind).dropLast, ∃ v, valuesAt key members = [v] := by
    intro key early
    obtain ⟨p, rfl, needed⟩ := exists_needed early
    exact (single _ (List.dropLast_subset _ early)).resolve_left ((fields p).valuesAt_ne_nil needed)
  refine readNode_array_iff.mpr ⟨length_flatMap_le single, readNode_of_tells read ?_ ?_⟩
  · intro k' only
    rw [titled] at only
    cases only
    have none : valuesAt "type" ((fieldKeys n.kind).zip
        ((fieldKeys n.kind).flatMap fun key => valuesAt key members)) = [] :=
      valuesAt_eq_nil_iff.mpr fun m paired same =>
        type_not_mem_fieldKeys n.kind (same ▸ (List.of_mem_zip paired).1)
    rw [valuesAt_cons_self, none]
  · intro p a tells
    refine tells.congr ?_
    rw [valuesAt_cons_of_ne (key_ne_type p).symm]
    exact valuesAt_zip_flatMap (nodup_fieldKeys n.kind) full single (mem_fieldKeys.mpr ⟨p, rfl⟩)

theorem kind_of_readNode {members : List (String × Value)} {k : Value} {n : Node}
    (titled : valuesAt "type" members = [k]) (read : readNode (.object members) = .ok n) :
    kindOf k = .ok n.kind := by
  obtain ⟨told, -⟩ := readNode_object_iff.mp read
  obtain ⟨k', only, told⟩ := kindOfMembers_eq_ok_iff.mp told
  rw [titled] at only
  cases only
  exact told

theorem zip_append_cons {keys : List String} {before after : List Value} {key : String}
    (place : keys[before.length]? = some key) (v : Value) :
    keys.zip (before ++ v :: after) = (keys.take before.length).zip before ++
      (key, v) :: (keys.drop (before.length + 1)).zip after := by
  induction before generalizing keys with
  | nil =>
    cases keys with
    | nil => cases place
    | cons first rest =>
      cases place
      rfl
  | cons w before ih =>
    cases keys with
    | nil => cases place
    | cons first rest => exact congrArg ((first, w) :: ·) (ih place)

def ReadsAs (key : String) (v v' : Value) : Prop :=
  ∀ {kind : Kind} {p : (form kind).Part} {a : (form kind).Content p}, (form kind).key p = key →
    (form kind).read p v = .ok a → (form kind).read p v' = .ok a

section

variable {members members' before after : List (String × Value)} {key : String} {v v' : Value}
  {n : Node}

theorem readNode_permute (same : members.Perm members') (read : readNode (.object members) = .ok n) :
    readNode (.object members') = .ok n :=
  readNode_of_tells read (fun _ => valuesAt_of_perm same) fun _ _ told => told.permute same

theorem readNode_insert (foreign : key ∉ "type" :: fieldKeys n.kind)
    (read : readNode (.object (before ++ after)) = .ok n) :
    readNode (.object (before ++ (key, v) :: after)) = .ok n := by
  obtain ⟨notType, foreign⟩ := not_or.mp (List.mem_cons.not.mp foreign)
  refine readNode_of_tells read (fun k only => ?_) fun p a told =>
    told.insert fun same => foreign (mem_fieldKeys.mpr ⟨p, same⟩)
  rw [valuesAt_append, valuesAt_cons_of_ne notType, ← valuesAt_append, only]

theorem readNode_dropChildren
    (read : readNode (.object (before ++ ("children", .array []) :: after)) = .ok n) :
    readNode (.object (before ++ after)) = .ok n := by
  refine readNode_of_tells read (fun k only => ?_) fun p a told => told.drop default_of_read_nil
  rw [valuesAt_append, valuesAt_cons_of_ne (by decide)] at only
  rw [valuesAt_append, only]

theorem readNode_member (notType : key ≠ "type") (part : ReadsAs key v v')
    (read : readNode (.object (before ++ (key, v) :: after)) = .ok n) :
    readNode (.object (before ++ (key, v') :: after)) = .ok n := by
  refine readNode_of_tells read (fun k only => ?_) fun p a told => told.replace part
  rw [valuesAt_append, valuesAt_cons_of_ne notType] at only ⊢
  exact only

end

theorem readNode_item {k : Value} {before after : List Value} {key : String} {v v' : Value} {n : Node}
    (place : (fieldKeys n.kind)[before.length]? = some key) (notType : key ≠ "type")
    (part : ReadsAs key v v') (read : readNode (.array (k :: (before ++ v :: after))) = .ok n) :
    readNode (.array (k :: (before ++ v' :: after))) = .ok n := by
  obtain ⟨fits, read⟩ := readNode_array_iff.mp read
  rw [zip_append_cons place, ← List.cons_append] at read
  refine readNode_array_iff.mpr ⟨by simpa using fits, ?_⟩
  rw [zip_append_cons place, ← List.cons_append]
  exact readNode_member notType part read

theorem kind_of_readNode_array {k : Value} {items : List Value} {n : Node}
    (read : readNode (.array (k :: items)) = .ok n) : kindOf k = .ok n.kind := by
  obtain ⟨-, read⟩ := readNode_array_iff.mp read
  obtain ⟨told, -⟩ := readNode_object_iff.mp read
  obtain ⟨k', only, told⟩ := kindOfMembers_eq_ok_iff.mp told
  rw [valuesAt_cons_self] at only
  obtain ⟨rfl, -⟩ := List.cons.inj only
  exact told

mutual

/-- A restyled node is read as the same node. -/
theorem Restyles.readNode_eq : {v v' : Value} → Restyles v v' → {n : Node} →
    readNode v = .ok n → readNode v' = .ok n
  | _, _, .permute same, _, read => readNode_permute same read
  | _, _, .insert _ told foreign, n, read => by
    obtain ⟨titled, -⟩ := readNode_object_iff.mp read
    obtain rfl := Except.ok.inj (told.symm.trans titled)
    exact readNode_insert foreign read
  | _, _, .dropChildren, _, read => readNode_dropChildren read
  | _, _, .positional titled told, _, read => by
    obtain rfl := Except.ok.inj (told.symm.trans (kind_of_readNode titled read))
    exact readNode_positional titled read
  | _, _, .member part, _, read => readNode_member (ne_type_of_part part) part.readsAs read
  | _, _, .item told place part, _, read => by
    obtain rfl := Except.ok.inj (told.symm.trans (kind_of_readNode_array read))
    exact readNode_item place (ne_type_of_part part) part.readsAs read

theorem RestylesPart.readsAs : {key : String} → {v v' : Value} → RestylesPart key v v' →
    ReadsAs key v v'
  | _, _, _, .word worded => fun own read => read_word (own ▸ worded) read
  | _, _, _, .child restyled => fun own read =>
    read_children own (fun _ => readForest_congr fun _ => restyled.readNode_eq) read

end

theorem Restyles.kindValue?_eq {v v' : Value} (restyled : Restyles v v') {n : Node}
    (read : readNode v = .ok n) : kindValue? v' = kindValue? v := by
  cases restyled with
  | permute same =>
    obtain ⟨told, -⟩ := readNode_object_iff.mp read
    obtain ⟨k, only, -⟩ := kindOfMembers_eq_ok_iff.mp told
    rw [kindValue?, kindValue?, only, valuesAt_of_perm same only]
  | @insert before after kind key v told foreign =>
    have notType : key ≠ "type" := fun same => foreign (same ▸ List.mem_cons_self)
    rw [kindValue?, kindValue?, valuesAt_append, valuesAt_append, valuesAt_cons_of_ne notType]
  | dropChildren =>
    rw [kindValue?, kindValue?, valuesAt_append, valuesAt_append, valuesAt_cons_of_ne (by decide)]
  | positional titled told =>
    rw [kindValue?, kindValue?, titled]
    rfl
  | member part =>
    have notType := ne_type_of_part part
    rw [kindValue?, kindValue?, valuesAt_append, valuesAt_append, valuesAt_cons_of_ne notType,
      valuesAt_cons_of_ne notType]
  | item told place part => rfl

theorem ofJson_restyled {v v' : Value} (restyled : Restyles v v') {n : Node}
    (read : readNode v = .ok n) : ofJson v' = ofJson v := by
  rw [ofJson, ofJson, checkRootKind_eq, checkRootKind_eq, restyled.kindValue?_eq read, read,
    restyled.readNode_eq read]

theorem parse_eq_ok_iff {text : String} {v : Value} {r : Rule} (parsed : Value.parse text = .ok v) :
    parse text = .ok r ↔ ∃ n, ofJson v = .ok n ∧ Rule.ofNode n = .ok r := by
  simp only [parse_eq_ok_iff_exists, parsed, Except.ok.injEq, exists_and_left, exists_eq_left']

/-- However often a node is restyled, it is read as the same node, and its text as the same rule if as
    any. -/
theorem read_restyled {v v' : Value} {n : Node} (restyled : Relation.ReflTransGen Restyles v v')
    (read : readNode v = .ok n) :
    readNode v' = .ok n ∧ ofJson v' = ofJson v ∧
      ∀ text text', Value.parse text = .ok v → Value.parse text' = .ok v' →
        ∀ r, parse text' = .ok r ↔ parse text = .ok r := by
  have same : readNode v' = .ok n ∧ ofJson v' = ofJson v := by
    induction restyled with
    | refl => exact ⟨read, rfl⟩
    | tail _ step ih =>
      obtain ⟨read, root⟩ := ih
      exact ⟨step.readNode_eq read, (ofJson_restyled step read).trans root⟩
  refine ⟨same.1, same.2, fun text text' parsed parsed' r => ?_⟩
  rw [parse_eq_ok_iff parsed, parse_eq_ok_iff parsed', same.2]

def pairNode : Node :=
  .group ⟨"g", "", .or, false, true, false⟩ [.filter ⟨"f", .newField, .isEmpty, "", false⟩]

/-- The same with its kind at the end, a note besides, its logic as an object and the filter as an
    array. -/
def pairRestyled : Value :=
  .object [("id", .string "g"), ("note", .null), ("name", .string ""),
    ("logic", .object [(Logic.or.word, .null)]), ("isLocked", .bool false),
    ("isDisabled", .bool true), ("isCollapsed", .bool false),
    ("children", .array [.array [.string "FILTER", .string "f", .string Field.newField.word,
      .string Operator.isEmpty.word, .string "", .bool false]]), ("type", .string "GROUP")]

theorem restyles_pairNode : Relation.ReflTransGen Restyles pairNode.toJson pairRestyled := by
  have word := @Restyles.member
    [("type", .string "GROUP"), ("id", .string "g"), ("name", .string "")]
    [("isLocked", .bool false), ("isDisabled", .bool true), ("isCollapsed", .bool false),
      ("children", .array [(Node.filter ⟨"f", .newField, .isEmpty, "", false⟩).toJson])] _ _ _
    (@RestylesPart.word "logic" Logic.or.word (by decide))
  simp only [pairNode, Node.toJson, Forest.toJson] at word ⊢
  refine .head word ?_
  refine .head (@Restyles.member [_, _, _, _, _, _, _] [] _ _ _
    (@RestylesPart.child [] [] _ _ (@Restyles.positional _ (.string "FILTER") .filter rfl rfl))) ?_
  refine .head (.permute (@List.perm_append_comm _ [_] _)) ?_
  exact .single (@Restyles.insert [_] _ .group "note" .null rfl (by decide))

theorem read_restyled_pairNode :
    readNode pairRestyled = .ok pairNode ∧ ofJson pairRestyled = ofJson pairNode.toJson ∧
      ∀ r, parse pairRestyled.compact = .ok r ↔ parse pairNode.toJson.compact = .ok r := by
  have free : pairRestyled.NumberFree := by
    simp [pairRestyled, Value.NumberFree, MembersNumberFree, ItemsNumberFree]
  obtain ⟨same, root, texts⟩ := read_restyled restyles_pairNode (readNode_toJson pairNode)
  exact ⟨same, root, texts _ _ (Value.parse_write pairNode.numberFree_toJson Layout.proper_compact)
    (Value.parse_write free Layout.proper_compact)⟩

end NestedRules.Dump
