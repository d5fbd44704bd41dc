namespace NestedRules

structure Settings where
  rootGroupName : String := "Root group"
  newGroupName : String := "New group"
  untitledGroupName : String := "Untitled"
  emptyExpressionMessage : String := "No active rules to build an expression."
  deriving DecidableEq

def Settings.default : Settings := {}

end NestedRules
