import NestedRules.Node.Path

namespace NestedRules

/-- The lock and the switch of a node, and whether some group around it is locked or disabled. -/
structure Protection where
  isRoot : Bool
  locked : Bool
  disabled : Bool
  ancestorLocked : Bool
  ancestorDisabled : Bool
  deriving DecidableEq

namespace Protection

def ofPath (p : Path) : Protection where
  isRoot := p.isRoot
  locked := p.target.isLocked
  disabled := p.target.isDisabled
  ancestorLocked := p.above.any (·.isLocked)
  ancestorDisabled := p.above.any (·.isDisabled)

def effectivelyLocked (a : Protection) : Bool := a.locked || a.ancestorLocked

def effectivelyDisabled (a : Protection) : Bool := a.disabled || a.ancestorDisabled

/-- A group's own controls are off: its name, its logic and its members stay as they are. -/
def controlsBlocked (a : Protection) : Bool := a.effectivelyLocked || a.effectivelyDisabled

/-- The groups around a node keep it as it is. -/
def parentBlocked (a : Protection) : Bool := a.ancestorLocked || a.ancestorDisabled

end Protection

end NestedRules
