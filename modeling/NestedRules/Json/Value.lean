import NestedRules.Json.Real

namespace NestedRules.Json

/-- A JSON value. Members of an object keep their order and may repeat a key. -/
inductive Value
  | null
  | bool (b : Bool)
  | integer (n : Int)
  | real (x : Float)
  | string (s : String)
  | array (items : List Value)
  | object (members : List (String × Value))

structure Layout where
  line : Nat → String
  colon : String

namespace Layout

def compact : Layout := ⟨fun _ => "", ":"⟩

def pretty : Layout := ⟨fun depth => String.ofList ('\n' :: List.replicate (2 * depth) ' '), ": "⟩

end Layout

def writtenChar (c : Char) : List Char :=
  match c with
  | '"' => ['\\', '"']
  | '\\' => ['\\', '\\']
  | '\x08' => ['\\', 'b']
  | '\x0c' => ['\\', 'f']
  | '\n' => ['\\', 'n']
  | '\r' => ['\\', 'r']
  | '\t' => ['\\', 't']
  | c =>
    if c.toNat < 0x20 then
      ['\\', 'u', '0', '0', Nat.digitChar (c.toNat / 16), Nat.digitChar (c.toNat % 16)]
    else [c]

def writtenString (s : String) : String :=
  String.ofList ('"' :: s.toList.flatMap writtenChar ++ ['"'])

mutual

def Value.write (l : Layout) (depth : Nat) : Value → String
  | .null => "null"
  | .bool true => "true"
  | .bool false => "false"
  | .integer n => toString n
  | .real x => realText x
  | .string s => writtenString s
  | .array [] => "[]"
  | .array (v :: vs) =>
    "[" ++ l.line (depth + 1) ++ v.write l (depth + 1) ++ writeItems l (depth + 1) vs ++
      l.line depth ++ "]"
  | .object [] => "\x7b\x7d"
  | .object ((k, v) :: ms) =>
    "\x7b" ++ l.line (depth + 1) ++ writtenString k ++ l.colon ++ v.write l (depth + 1) ++
      writeMembers l (depth + 1) ms ++ l.line depth ++ "\x7d"

def writeItems (l : Layout) (depth : Nat) : List Value → String
  | [] => ""
  | v :: vs => "," ++ l.line depth ++ v.write l depth ++ writeItems l depth vs

def writeMembers (l : Layout) (depth : Nat) : List (String × Value) → String
  | [] => ""
  | (k, v) :: ms =>
    "," ++ l.line depth ++ writtenString k ++ l.colon ++ v.write l depth ++
      writeMembers l depth ms

end

def Value.compact (v : Value) : String := v.write .compact 0

def Value.pretty (v : Value) : String := v.write .pretty 0

end NestedRules.Json
