import NestedRules.Json.Reader
import NestedRules.Session.Settings

namespace NestedRules.Settings

open Json

inductive Key
  | rootGroupName | newGroupName | untitledGroupName | emptyExpressionMessage
  deriving DecidableEq

namespace Key

def all : List Key := [rootGroupName, newGroupName, untitledGroupName, emptyExpressionMessage]

def word : Key → String
  | rootGroupName => "rootGroupName"
  | newGroupName => "newGroupName"
  | untitledGroupName => "untitledGroupName"
  | emptyExpressionMessage => "emptyExpressionMessage"

def ofWord? (w : String) : Option Key := all.find? (·.word = w)

end Key

def get (s : Settings) : Key → String
  | .rootGroupName => s.rootGroupName
  | .newGroupName => s.newGroupName
  | .untitledGroupName => s.untitledGroupName
  | .emptyExpressionMessage => s.emptyExpressionMessage

def set (s : Settings) (key : Key) (text : String) : Settings :=
  match key with
  | .rootGroupName => { s with rootGroupName := text }
  | .newGroupName => { s with newGroupName := text }
  | .untitledGroupName => { s with untitledGroupName := text }
  | .emptyExpressionMessage => { s with emptyExpressionMessage := text }

def toJson (s : Settings) : Value :=
  .object (Key.all.map fun key => (key.word, .string (s.get key)))

def ofMembers (s : Settings) : List (String × Value) → Except Mismatch Settings
  | [] => .ok s
  | (w, v) :: members =>
    match Key.ofWord? w with
    | none => s.ofMembers members
    | some key => do (s.set key (← v.asString)).ofMembers members

def ofItems (s : Settings) : List Key → List Value → Except Mismatch Settings
  | key :: keys, v :: items => do (s.set key (← v.asString)).ofItems keys items
  | _, _ => .ok s

def ofJson : Value → Except Mismatch Settings
  | .object members => Settings.default.ofMembers members
  | .array items => Settings.default.ofItems Key.all items
  | v => .error (.invalidType v.found)

/-- Known keys are judged as they are read, and nothing else is looked at. -/
def schema : Schema Mismatch Settings where
  depth? := none
  member seen w :=
    match Key.ofWord? w with
    | none => .ok .skipped
    | some _ => if seen.contains w then .error (.duplicateField w) else .ok .checked
  item? i := if i < Key.all.length then some .checked else none
  check v := v.asString.map fun _ => ()
  finish := ofJson

def parse (text : String) : Except (Fault Mismatch) Settings := schema.read text

end NestedRules.Settings
