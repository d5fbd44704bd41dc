namespace NestedRules

inductive Field
  | gender | birthDate | channel | name | email | city | country | newField
  deriving DecidableEq

namespace Field

def all : List Field := [gender, birthDate, channel, name, email, city, country, newField]

def word : Field → String
  | gender => "gender"
  | birthDate => "birth_date"
  | channel => "channel"
  | name => "name"
  | email => "email"
  | city => "city"
  | country => "country"
  | newField => "new_field"

def ofWord? (w : String) : Option Field := all.find? (·.word = w)

@[simp] theorem ofWord?_word (f : Field) : ofWord? f.word = some f := by
  cases f <;> decide

end Field

inductive Operator
  | equals | notEquals | isAfter | isBefore | contains | startsWith | endsWith | isEmpty | isNotEmpty
  deriving DecidableEq

namespace Operator

def all : List Operator :=
  [equals, notEquals, isAfter, isBefore, contains, startsWith, endsWith, isEmpty, isNotEmpty]

def word : Operator → String
  | equals => "equals"
  | notEquals => "not equals"
  | isAfter => "is after"
  | isBefore => "is before"
  | contains => "contains"
  | startsWith => "starts with"
  | endsWith => "ends with"
  | isEmpty => "is empty"
  | isNotEmpty => "is not empty"

def ofWord? (w : String) : Option Operator := all.find? (·.word = w)

def takesValue : Operator → Bool
  | isEmpty | isNotEmpty => false
  | _ => true

@[simp] theorem ofWord?_word (o : Operator) : ofWord? o.word = some o := by
  cases o <;> decide

end Operator

inductive Logic
  | and | or
  deriving DecidableEq

namespace Logic

def all : List Logic := [and, or]

def word : Logic → String
  | and => "AND"
  | or => "OR"

def ofWord? (w : String) : Option Logic := all.find? (·.word = w)

def flipped : Logic → Logic
  | and => or
  | or => and

@[simp] theorem ofWord?_word (l : Logic) : ofWord? l.word = some l := by
  cases l <;> decide

end Logic

end NestedRules
