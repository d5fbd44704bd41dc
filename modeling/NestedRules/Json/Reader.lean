import NestedRules.Json.Mismatch
import NestedRules.Json.Numeral
import NestedRules.Json.Scribe

/-!
Reading JSON text, one character at a time. What is made of the text is told by a `Schema`, which
watches the outermost value while it is read: it may turn down a key or a value as soon as it is
there, long before the end of the text, and it judges the whole value before anything after it. A
text fails in three ways: it ends too early, it is not JSON, or the schema rejects it.
-/

namespace NestedRules.Json

inductive Fault (ε : Type)
  | truncated
  | malformed
  | rejected (why : ε)

/-- How a part of the outermost value is read: as any value, as one that the schema checks on its
    own, or as one that nobody will look at. -/
inductive Slot
  | plain
  | checked
  | skipped
  deriving DecidableEq

/-- What a text is read as.
    - `depth?`: how deep brackets may nest, if there is a limit;
    - `member`: how the member after some keys of the outermost object is read, by its own key;
    - `item?`: how the item at a position of the outermost array is read, absent where none may stand;
    - `check`: judges the values of checked slots, arrays and objects by their opening bracket;
    - `finish`: judges the outermost value. -/
structure Schema (ε α : Type) where
  depth? : Option Nat
  member : List String → String → Except ε Slot
  item? : Nat → Option Slot
  check : Value → Except ε Unit
  finish : Value → Except ε α

/-- What surrounds a value that is being read: the items or members before it, newest first, and what
    surrounds those. -/
inductive Context
  | top
  | item (before : List Value) (outer : Context)
  | member (before : List (String × Value)) (key : String) (outer : Context)

def Context.depth : Context → Nat
  | top => 0
  | item _ outer => outer.depth + 1
  | member _ _ outer => outer.depth + 1

def Context.slotAfter (slot : Slot) : Context → Slot
  | top => .plain
  | _ => slot

inductive Phase (α : Type)
  | value (around : Context)
  | itemOrEnd (outer : Context)
  | keyOrEnd (outer : Context)
  | key (members : List (String × Value)) (outer : Context)
  | keyText (members : List (String × Value)) (outer : Context) (scribe : Scribe)
  | colon (around : Context)
  | text (around : Context) (scribe : Scribe)
  | literal (around : Context) (rest : List Char) (value : Value)
  | numeral (around : Context) (numeral : Numeral)
  | afterItem (items : List Value) (outer : Context)
  | afterMember (members : List (String × Value)) (outer : Context)
  | done (result : α)

structure Reader (α : Type) where
  slot : Slot
  phase : Phase α

def isBlank (c : Char) : Bool := c = ' ' || c = '\t' || c = '\n' || c = '\r'

namespace Schema

variable {ε α : Type}

def judge {β : Type} (verdict : Except ε β) : Except (Fault ε) β := verdict.mapError .rejected

def start : Reader α := ⟨.plain, .value .top⟩

def complete (s : Schema ε α) (slot : Slot) (around : Context) (v : Value) :
    Except (Fault ε) (Reader α) := do
  match around with
  | .top => return ⟨slot, .done (← judge (s.finish v))⟩
  | .item before outer =>
    if slot = .checked then judge (s.check v)
    return ⟨outer.slotAfter slot, .afterItem (v :: before) outer⟩
  | .member before key outer =>
    if slot = .checked then judge (s.check v)
    return ⟨outer.slotAfter slot, .afterMember ((key, v) :: before) outer⟩

def checkOpening (s : Schema ε α) (slot : Slot) (around : Context) (empty : Value) :
    Except (Fault ε) Unit := do
  if slot = .checked then judge (s.check empty)
  if s.depth?.any (· ≤ around.depth) then throw .malformed

/-- The slot of an item: that of the outermost value it belongs to, or one of its own if it is a part
    of the outermost array. -/
def itemSlot (s : Schema ε α) (slot : Slot) (count : Nat) : Context → Except (Fault ε) Slot
  | .top => (s.item? count).elim (.error .malformed) .ok
  | _ => .ok slot

def memberSlot (s : Schema ε α) (slot : Slot) (members : List (String × Value)) (key : String) :
    Context → Except (Fault ε) Slot
  | .top => judge (s.member (members.reverse.map Prod.fst) key)
  | _ => .ok slot

def beginValue (s : Schema ε α) (slot : Slot) (around : Context) (c : Char) :
    Except (Fault ε) (Reader α) := do
  if c = '"' then return ⟨slot, .text around (.start (slot = .skipped))⟩
  else if c = '[' then
    s.checkOpening slot around (.array [])
    return ⟨← s.itemSlot slot 0 around, .itemOrEnd around⟩
  else if c = '\x7b' then
    s.checkOpening slot around (.object [])
    return ⟨slot, .keyOrEnd around⟩
  else if c = 'n' then return ⟨slot, .literal around ['u', 'l', 'l'] .null⟩
  else if c = 't' then return ⟨slot, .literal around ['r', 'u', 'e'] (.bool true)⟩
  else if c = 'f' then return ⟨slot, .literal around ['a', 'l', 's', 'e'] (.bool false)⟩
  else
    match Numeral.start? c with
    | some n => return ⟨slot, .numeral around n⟩
    | none => throw .malformed

def numeralValue (slot : Slot) (n : Numeral) : Except (Fault ε) Value :=
  if slot = .skipped then .ok .null else n.value?.elim (.error .malformed) .ok

def settled (s : Schema ε α) (r : Reader α) (c : Char) : Except (Fault ε) (Reader α) := do
  if isBlank c then return r
  match r.phase with
  | .afterItem items outer =>
    if c = ',' then
      return ⟨← s.itemSlot r.slot items.length outer, .value (.item items outer)⟩
    else if c = ']' then s.complete r.slot outer (.array items.reverse)
    else throw .malformed
  | .afterMember members outer =>
    if c = ',' then return ⟨r.slot, .key members outer⟩
    else if c = '\x7d' then s.complete r.slot outer (.object members.reverse)
    else throw .malformed
  | _ => throw .malformed

def stepToken (s : Schema ε α) (r : Reader α) (c : Char) : Except (Fault ε) (Reader α) := do
  match r.phase with
  | .value around => s.beginValue r.slot around c
  | .itemOrEnd outer =>
    if c = ']' then s.complete r.slot outer (.array [])
    else s.beginValue r.slot (.item [] outer) c
  | .keyOrEnd outer =>
    if c = '"' then return ⟨r.slot, .keyText [] outer (.start (r.slot = .skipped))⟩
    else if c = '\x7d' then s.complete r.slot outer (.object [])
    else throw .malformed
  | .key members outer =>
    if c = '"' then return ⟨r.slot, .keyText members outer (.start (r.slot = .skipped))⟩
    else throw .malformed
  | .colon around => if c = ':' then return ⟨r.slot, .value around⟩ else throw .malformed
  | _ => s.settled r c

def step (s : Schema ε α) (r : Reader α) (c : Char) : Except (Fault ε) (Reader α) := do
  match r.phase with
  | .keyText members outer scribe =>
    match scribe.push c with
    | .more scribe => return ⟨r.slot, .keyText members outer scribe⟩
    | .malformed => throw .malformed
    | .closed key =>
      return ⟨← s.memberSlot r.slot members key outer, .colon (.member members key outer)⟩
  | .text around scribe =>
    match scribe.push c with
    | .more scribe => return ⟨r.slot, .text around scribe⟩
    | .malformed => throw .malformed
    | .closed text => s.complete r.slot around (.string text)
  | .literal around (next :: rest) v =>
    if c ≠ next then throw .malformed
    else if rest.isEmpty then s.complete r.slot around v
    else return ⟨r.slot, .literal around rest v⟩
  | .numeral around n =>
    match n.push c with
    | .more n => return ⟨r.slot, .numeral around n⟩
    | .malformed => throw .malformed
    | .ended => s.settled (← s.complete r.slot around (← numeralValue r.slot n)) c
  | _ => if isBlank c then return r else s.stepToken r c

/-- The end of the text. A number ends with it; anything else that is still open is cut off. -/
def close (s : Schema ε α) (r : Reader α) : Except (Fault ε) α := do
  let ended ← match r.phase with
    | .numeral around n =>
      if n.isComplete then s.complete r.slot around (← numeralValue r.slot n)
      else throw (if r.slot = .skipped then .malformed else .truncated)
    | _ => pure r
  match ended.phase with
  | .done result => return result
  | _ => throw .truncated

def read (s : Schema ε α) (text : String) : Except (Fault ε) α := do
  s.close (← text.toList.foldlM s.step start)

end Schema

def anyValue : Schema Empty Value where
  depth? := none
  member _ _ := .ok .plain
  item? _ := some .plain
  check _ := .ok ()
  finish := .ok

def Value.parse (text : String) : Except (Fault Empty) Value := anyValue.read text

end NestedRules.Json
