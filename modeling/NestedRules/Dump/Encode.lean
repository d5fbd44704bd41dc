import NestedRules.Json.Value
import NestedRules.Rule.Basic

namespace NestedRules

open Json

def Kind.tag : Kind → String
  | .group => "GROUP"
  | .filter => "FILTER"

def Kind.ofTag? (tag : String) : Option Kind := [Kind.group, Kind.filter].find? (·.tag = tag)

@[simp] theorem Kind.ofTag?_tag (k : Kind) : Kind.ofTag? k.tag = some k := by
  cases k <;> decide

mutual

def Node.toJson : Node → Value
  | .group h cs =>
    .object [("type", .string Kind.group.tag), ("id", .string h.id), ("name", .string h.name),
      ("logic", .string h.logic.word), ("isLocked", .bool h.isLocked),
      ("isDisabled", .bool h.isDisabled), ("isCollapsed", .bool h.isCollapsed),
      ("children", .array (Forest.toJson cs))]
  | .filter f =>
    .object [("type", .string Kind.filter.tag), ("id", .string f.id),
      ("field", .string f.field.word), ("operator", .string f.operator.word),
      ("value", .string f.value), ("isDisabled", .bool f.isDisabled)]

def Forest.toJson : Forest → List Value
  | [] => []
  | c :: cs => c.toJson :: Forest.toJson cs

end

namespace Rule

def compact (r : Rule) : String := r.node.toJson.compact

def pretty (r : Rule) : String := r.node.toJson.pretty

end Rule

end NestedRules
