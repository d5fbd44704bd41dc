import NestedRules.Dump.Decode
import NestedRules.Json.Reader

namespace NestedRules.Dump

open Json

def schema {ε α : Type} (depth? : Option Nat) (reject : Mismatch → ε)
    (finish : Node → Except ε α) : Schema ε α where
  depth?
  member seen key :=
    if key ≠ "type" then .ok .plain
    else if seen.contains "type" then .error (reject (.duplicateField "type"))
    else .ok .checked
  item? i := some (if i = 0 then .checked else .plain)
  check kind := ((namedKind kind).map fun _ => ()).mapError reject
  finish v := (ofJson v).mapError reject >>= finish

def parseNode (text : String) : Except (Fault Mismatch) Node :=
  (schema none id .ok).read text

inductive Unfit
  | shape (why : Mismatch)
  | rule (why : RuleError)

def Unfit.message : Unfit → String
  | shape why => why.message
  | rule why => why.message

/-- Reads a rule as one value among others. Brackets nest at most 127 deep, and the rule is judged
    before what follows it. -/
def parseEmbedded (text : String) : Except (Fault Unfit) Rule :=
  (schema (some 127) .shape fun n => (Rule.ofNode n).mapError .rule).read text

inductive DumpError
  | json (fault : Fault Mismatch)
  | invalid (why : RuleError)

/-- Reads a dump. Brackets nest to any depth, and the rule is judged once the whole text is read. -/
def parse (text : String) : Except DumpError Rule := do
  let n ← (parseNode text).mapError .json
  (Rule.ofNode n).mapError .invalid

def DumpError.message? : DumpError → Option String
  | json (.rejected why) => some ("malformed rule tree JSON: " ++ why.message)
  | json _ => none
  | invalid why => some ("invalid rule tree: " ++ why.message)

end NestedRules.Dump
