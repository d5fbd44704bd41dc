import NestedRules.Drag.Basic
import NestedRules.Session.Protection
import NestedRules.Session.Settings

/-!
A user's session with one rule. Each intent checks the locks and switches around its node, makes one
edit and keeps the edited rule; a refused intent leaves the session as it was.

- Naming a group, setting its logic, adding to it and deleting it need the group and every group
  around it to be unlocked and enabled.
- Editing or deleting a filter needs every group around it to be unlocked and enabled.
- Collapsing needs the groups around to be unlocked.
- A lock comes off only where no group around is disabled; it may always be set.
- A node is disabled only where neither it nor a group around it is locked; it may always be enabled.
- A drag starts only where every group around its node is unlocked and enabled, and a drop needs the
  group that it lands in, and every group around that, to be so. The groups around the node are not
  looked at again at the drop.
-/

namespace NestedRules

/-- The rule as it is now, the filter that is open for editing, the drag that is under way, and the
    settings, which no intent changes. -/
structure Session where
  rule : Rule
  editing? : Option String
  drag : Drag
  settings : Settings

/-- What a user asks of a session. The ids of new nodes come with the request. -/
inductive Intent
  | rename (id name : String)
  | setLogic (id : String) (logic : Logic)
  | toggleCollapsed (id : String)
  | toggleLocked (id : String)
  | toggleDisabled (id : String)
  | addFilter (parent fresh : String)
  | addGroup (parent fresh : String)
  | delete (id : String)
  | startEdit (id : String)
  | cancelEdit
  | saveFilter (id : String) (field : Field) (operator : Operator) (value : String)
  | startDrag (id : String)
  | cancelDrag
  | drop (candidates : List Candidate)

inductive Reply
  | done
  | added (id : String)
  | refused (why : Refusal)
  | dragRefused (why : DragRefusal)
  | dropped (outcome : Outcome)

namespace Session

def ofRule (rule : Rule) (settings : Settings) : Session := ⟨rule, none, .idle, settings⟩

def fresh (rootId : String) (settings : Settings) : Session :=
  ofRule (.empty rootId settings.rootGroupName) settings

def path (s : Session) (id : String) : Except Refusal Path :=
  match s.rule.path? id with
  | some p => .ok p
  | none => .error (.unresolved id)

def protection (s : Session) (id : String) : Except Refusal Protection :=
  (s.path id).map .ofPath

def checkGroup (s : Session) (id : String) : Except Refusal Unit := do
  let p ← s.path id
  if !p.target.isGroup then throw (.wrongKind id .group)
  if (Protection.ofPath p).controlsBlocked then throw (.locked id)

def checkFilter (s : Session) (id : String) : Except Refusal Unit := do
  let p ← s.path id
  if p.target.isGroup then throw (.wrongKind id .filter)
  if (Protection.ofPath p).parentBlocked then throw (.locked id)

def keep (s : Session) (edited : Except Refusal Rule) : Except Refusal Session := do
  return { s with rule := ← edited }

/-- An empty name stands for the settings' name for untitled groups. -/
def rename (s : Session) (id name : String) : Except Refusal Session := do
  s.checkGroup id
  let name := if name.isEmpty then s.settings.untitledGroupName else name
  s.keep (s.rule.updateGroup id ({ · with name }))

def setLogic (s : Session) (id : String) (logic : Logic) : Except Refusal Session := do
  s.checkGroup id
  s.keep (s.rule.updateGroup id ({ · with logic }))

def toggleCollapsed (s : Session) (id : String) : Except Refusal Session := do
  let p ← s.path id
  if (Protection.ofPath p).ancestorLocked then throw (.locked id)
  s.keep (s.rule.updateGroup id fun g => { g with isCollapsed := !g.isCollapsed })

def toggleLocked (s : Session) (id : String) : Except Refusal Session := do
  let p ← s.path id
  let state := Protection.ofPath p
  if state.ancestorDisabled && state.locked then throw (.locked id)
  s.keep (s.rule.updateGroup id fun g => { g with isLocked := !g.isLocked })

def toggleDisabled (s : Session) (id : String) : Except Refusal Session := do
  let p ← s.path id
  let state := Protection.ofPath p
  if state.effectivelyLocked && !state.disabled then throw (.locked id)
  match p.target.kind with
  | .group => s.keep (s.rule.updateGroup id fun g => { g with isDisabled := !g.isDisabled })
  | .filter => s.keep (s.rule.updateFilter id fun f => { f with isDisabled := !f.isDisabled })

def addFilter (s : Session) (parent fresh : String) : Except Refusal Session := do
  s.checkGroup parent
  let s ← s.keep (s.rule.insert parent (Filter.blank fresh) none)
  return { s with editing? := some fresh }

def addGroup (s : Session) (parent fresh : String) : Except Refusal Session := do
  s.checkGroup parent
  s.keep (s.rule.insert parent (Group.empty fresh s.settings.newGroupName) none)

/-- Removes a node. An edited filter that goes with it is no longer open. -/
def delete (s : Session) (id : String) : Except Refusal Session := do
  let p ← s.path id
  let state := Protection.ofPath p
  if state.isRoot then throw .rootFixed
  if (if p.target.isGroup then state.controlsBlocked else state.parentBlocked) then
    throw (.locked id)
  let s ← s.keep (s.rule.remove id)
  return { s with editing? := s.editing?.filter s.rule.contains }

def startEdit (s : Session) (id : String) : Except Refusal Session := do
  s.checkFilter id
  return { s with editing? := some id }

def cancelEdit (s : Session) : Session := { s with editing? := none }

def saveFilter (s : Session) (id : String) (field : Field) (operator : Operator) (value : String) :
    Except Refusal Session := do
  s.checkFilter id
  let s ← s.keep (s.rule.updateFilter id ({ · with field, operator, value }))
  return s.cancelEdit

def startDrag (s : Session) (id : String) : Except DragRefusal Session :=
  match s.protection id with
  | .error _ => .error (.unknown id)
  | .ok state =>
    if state.parentBlocked then .error (.locked id)
    else (s.drag.start s.rule id).map ({ s with drag := · })

def cancelDrag (s : Session) : Session := { s with drag := .idle }

/-- What the session has against a landing: its group is gone, or its controls are off. -/
def veto (s : Session) (landing : Landing) : Option Refusal :=
  match s.protection landing.parent with
  | .error why => some why
  | .ok state => if state.controlsBlocked then some (.locked landing.parent) else none

def drop (s : Session) (candidates : List Candidate) : Session × Outcome :=
  let outcome := s.drag.drop s.rule candidates s.veto
  let s := s.cancelDrag
  match outcome with
  | .moved rule => ({ s with rule }, outcome)
  | _ => (s, outcome)

def expression (s : Session) : String := s.rule.expression

def displayExpression (s : Session) : String :=
  if s.expression.isEmpty then s.settings.emptyExpressionMessage else s.expression

def settle (s : Session) (answer : Reply) : Except Refusal Session → Session × Reply
  | .ok next => (next, answer)
  | .error why => (s, .refused why)

def perform (s : Session) : Intent → Session × Reply
  | .rename id name => s.settle .done (s.rename id name)
  | .setLogic id logic => s.settle .done (s.setLogic id logic)
  | .toggleCollapsed id => s.settle .done (s.toggleCollapsed id)
  | .toggleLocked id => s.settle .done (s.toggleLocked id)
  | .toggleDisabled id => s.settle .done (s.toggleDisabled id)
  | .addFilter parent fresh => s.settle (.added fresh) (s.addFilter parent fresh)
  | .addGroup parent fresh => s.settle (.added fresh) (s.addGroup parent fresh)
  | .delete id => s.settle .done (s.delete id)
  | .startEdit id => s.settle .done (s.startEdit id)
  | .cancelEdit => (s.cancelEdit, .done)
  | .saveFilter id field operator value =>
    s.settle .done (s.saveFilter id field operator value)
  | .startDrag id =>
    match s.startDrag id with
    | .ok next => (next, .done)
    | .error why => (s, .dragRefused why)
  | .cancelDrag => (s.cancelDrag, .done)
  | .drop candidates =>
    let (next, outcome) := s.drop candidates
    (next, .dropped outcome)

def run (s : Session) (intents : List Intent) : Session :=
  intents.foldl (fun s intent => (s.perform intent).1) s

end Session

end NestedRules
