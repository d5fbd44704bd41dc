import NestedRules.Dump.Encode
import NestedRules.Json.Mismatch

/-!
From a JSON value to a node. A node is an object, whose keys may stand in any order and which may hold
others besides, or an array with the kind first and the fields in the order of a dump. The kind is
found before anything else is looked at; the fields are then taken in the order of the value, and
what is missing is reported last.
-/

namespace NestedRules.Dump

open Json

inductive GroupField
  | id | name | logic | isLocked | isDisabled | isCollapsed | children
  deriving DecidableEq

namespace GroupField

def all : List GroupField := [id, name, logic, isLocked, isDisabled, isCollapsed, children]

def key : GroupField → String
  | id => "id"
  | name => "name"
  | logic => "logic"
  | isLocked => "isLocked"
  | isDisabled => "isDisabled"
  | isCollapsed => "isCollapsed"
  | children => "children"

def ofKey? (key : String) : Option GroupField := all.find? (·.key = key)

end GroupField

inductive FilterField
  | id | field | operator | value | isDisabled
  deriving DecidableEq

namespace FilterField

def all : List FilterField := [id, field, operator, value, isDisabled]

def key : FilterField → String
  | id => "id"
  | field => "field"
  | operator => "operator"
  | value => "value"
  | isDisabled => "isDisabled"

def ofKey? (key : String) : Option FilterField := all.find? (·.key = key)

end FilterField

structure GroupDraft where
  id? : Option String := none
  name? : Option String := none
  logic? : Option Logic := none
  isLocked? : Option Bool := none
  isDisabled? : Option Bool := none
  isCollapsed? : Option Bool := none
  children? : Option Forest := none

structure FilterDraft where
  id? : Option String := none
  field? : Option Field := none
  operator? : Option Operator := none
  value? : Option String := none
  isDisabled? : Option Bool := none

def once {α : Type} (old : Option α) (key : String) (new : Except Mismatch α) :
    Except Mismatch (Option α) :=
  match old with
  | some _ => .error (.duplicateField key)
  | none => new.map some

def required {α : Type} (field : Option α) (key : String) : Except Mismatch α :=
  field.elim (.error (.missingField key)) .ok

/-- A word in a node, where a member without content may be an empty object as well. -/
def nodeWord {α : Type} (ofWord? : String → Option α) (v : Value) : Except Mismatch α :=
  v.asWordOver Value.isVoid ofWord?

namespace GroupDraft

def put (d : GroupDraft) (part : GroupField) (v : Value)
    (children : Unit → Except Mismatch Forest) : Except Mismatch GroupDraft := do
  match part with
  | .id => return { d with id? := ← once d.id? part.key v.asString }
  | .name => return { d with name? := ← once d.name? part.key v.asString }
  | .logic => return { d with logic? := ← once d.logic? part.key (nodeWord Logic.ofWord? v) }
  | .isLocked => return { d with isLocked? := ← once d.isLocked? part.key v.asBool }
  | .isDisabled => return { d with isDisabled? := ← once d.isDisabled? part.key v.asBool }
  | .isCollapsed => return { d with isCollapsed? := ← once d.isCollapsed? part.key v.asBool }
  | .children =>
    match d.children? with
    | some _ => throw (.duplicateField part.key)
    | none => return { d with children? := some (← children ()) }

def finish (d : GroupDraft) : Except Mismatch Node := do
  let id ← required d.id? "id"
  let name ← required d.name? "name"
  let logic ← required d.logic? "logic"
  let isLocked ← required d.isLocked? "isLocked"
  let isDisabled ← required d.isDisabled? "isDisabled"
  let isCollapsed ← required d.isCollapsed? "isCollapsed"
  return .group ⟨id, name, logic, isLocked, isDisabled, isCollapsed⟩ (d.children?.getD [])

end GroupDraft

namespace FilterDraft

def put (d : FilterDraft) (part : FilterField) (v : Value) : Except Mismatch FilterDraft := do
  match part with
  | .id => return { d with id? := ← once d.id? part.key v.asString }
  | .field => return { d with field? := ← once d.field? part.key (nodeWord Field.ofWord? v) }
  | .operator =>
    return { d with operator? := ← once d.operator? part.key (nodeWord Operator.ofWord? v) }
  | .value => return { d with value? := ← once d.value? part.key v.asString }
  | .isDisabled => return { d with isDisabled? := ← once d.isDisabled? part.key v.asBool }

def finish (d : FilterDraft) : Except Mismatch Node := do
  let id ← required d.id? "id"
  let field ← required d.field? "field"
  let operator ← required d.operator? "operator"
  let value ← required d.value? "value"
  let isDisabled ← required d.isDisabled? "isDisabled"
  return .filter ⟨id, field, operator, value, isDisabled⟩

def ofMembers (d : FilterDraft) : List (String × Value) → Except Mismatch FilterDraft
  | [] => .ok d
  | (key, v) :: members =>
    match FilterField.ofKey? key with
    | none => d.ofMembers members
    | some part => do (← d.put part v).ofMembers members

def ofItems (d : FilterDraft) : List FilterField → List Value → Except Mismatch FilterDraft
  | part :: parts, v :: items => do (← d.put part v).ofItems parts items
  | _, _ => .ok d

end FilterDraft

def namedKind : Value → Except Mismatch Kind
  | .string tag => (Kind.ofTag? tag).elim (.error (.unknownVariant tag)) .ok
  | v => .error (.invalidType v.found)

def kindOf : Value → Except Mismatch Kind
  | .integer 0 => .ok .group
  | .integer 1 => .ok .filter
  | .integer n =>
    .error (if 0 ≤ n then .invalidValue (.integer n) else .invalidType (.integer n))
  | v => namedKind v

/-- The kind that an object tells under the key `type`, which may stand in it only once. -/
def kindOfMembers : List (String × Value) → Except Mismatch Kind
  | [] => .error (.missingField "type")
  | (key, v) :: members =>
    if key = "type" then do
      let kind ← kindOf v
      if members.any (·.1 = "type") then throw (.duplicateField "type")
      return kind
    else kindOfMembers members

/-- An array has as many items as there are fields, those with a default left off or not. -/
def checkLength (least most length : Nat) : Except Mismatch Unit :=
  if length < least ∨ most < length then .error (.invalidLength length) else .ok ()

mutual

def readNode : Value → Except Mismatch Node
  | .object members => do
    match ← kindOfMembers members with
    | .group => (← readGroupMembers {} members).finish
    | .filter => (← FilterDraft.ofMembers {} members).finish
  | .array [] => .error (.missingField "type")
  | .array (kind :: items) => do
    match ← kindOf kind with
    | .group =>
      let draft ← readGroupItems {} GroupField.all items
      checkLength 6 7 items.length
      draft.finish
    | .filter =>
      let draft ← FilterDraft.ofItems {} FilterField.all items
      checkLength 5 5 items.length
      draft.finish
  | v => .error (.invalidType v.found)

def readGroupMembers (d : GroupDraft) : List (String × Value) → Except Mismatch GroupDraft
  | [] => .ok d
  | (key, v) :: members =>
    match GroupField.ofKey? key with
    | none => readGroupMembers d members
    | some part => do
      readGroupMembers (← d.put part v fun _ => readChildren v) members

def readGroupItems (d : GroupDraft) : List GroupField → List Value → Except Mismatch GroupDraft
  | part :: parts, v :: items => do
    readGroupItems (← d.put part v fun _ => readChildren v) parts items
  | _, _ => .ok d

def readChildren : Value → Except Mismatch Forest
  | .array items => readForest items
  | v => .error (.invalidType v.found)

def readForest : List Value → Except Mismatch Forest
  | [] => .ok []
  | v :: vs => do
    let n ← readNode v
    let ns ← readForest vs
    return n :: ns

end

/-- Passes unless the outermost value tells its kind by anything but a name. -/
def checkRootKind : Value → Except Mismatch Unit
  | .object members =>
    match members.find? (·.1 = "type") with
    | some (_, kind) => (namedKind kind).map fun _ => ()
    | none => .ok ()
  | .array (kind :: _) => (namedKind kind).map fun _ => ()
  | _ => .ok ()

def ofJson (v : Value) : Except Mismatch Node := do
  checkRootKind v
  readNode v

end NestedRules.Dump
