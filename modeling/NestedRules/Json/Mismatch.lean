import NestedRules.Json.Value
import NestedRules.Text.Quoted

namespace NestedRules.Json

inductive Found
  | null
  | bool (b : Bool)
  | integer (n : Int)
  | real (x : Float)
  | string (s : String)
  | sequence
  | map

def Value.found : Value → Found
  | .null => .null
  | .bool b => .bool b
  | .integer n => .integer n
  | .real x => .real x
  | .string s => .string s
  | .array _ => .sequence
  | .object _ => .map

def Found.text : Found → String
  | null => "null"
  | bool b => "boolean `" ++ (if b then "true" else "false") ++ "`"
  | integer n => "integer `" ++ toString n ++ "`"
  | real x => "floating point `" ++ realText x ++ "`"
  | string s => "string " ++ Text.quoted s
  | sequence => "sequence"
  | map => "map"

inductive Mismatch
  | invalidType (found : Found)
  | invalidValue (found : Found)
  | unknownVariant (word : String)
  | missingField (name : String)
  | duplicateField (name : String)
  | invalidLength (length : Nat)

def Mismatch.message : Mismatch → String
  | invalidType found => "invalid type: " ++ found.text
  | invalidValue found => "invalid value: " ++ found.text
  | unknownVariant word => "unknown variant `" ++ word ++ "`"
  | missingField name => "missing field `" ++ name ++ "`"
  | duplicateField name => "duplicate field `" ++ name ++ "`"
  | invalidLength length => "invalid length " ++ toString length

namespace Value

def asString : Value → Except Mismatch String
  | string s => .ok s
  | v => .error (.invalidType v.found)

def asBool : Value → Except Mismatch Bool
  | bool b => .ok b
  | v => .error (.invalidType v.found)

/-- One word out of a list of words, on its own or as the key of an object's only member, whose
    value has to be `blank`. -/
def asWordOver {α : Type} (blank : Value → Bool) (ofWord? : String → Option α) :
    Value → Except Mismatch α
  | string w => (ofWord? w).elim (.error (.unknownVariant w)) .ok
  | object [(w, v)] =>
    match ofWord? w with
    | none => .error (.unknownVariant w)
    | some a => if blank v then .ok a else .error (.invalidType v.found)
  | object _ => .error (.invalidValue .map)
  | v => .error (.invalidType v.found)

def isNull : Value → Bool
  | null => true
  | _ => false

def isVoid : Value → Bool
  | null | object [] => true
  | _ => false

def asWord {α : Type} (ofWord? : String → Option α) (v : Value) : Except Mismatch α :=
  v.asWordOver isNull ofWord?

end Value

end NestedRules.Json
