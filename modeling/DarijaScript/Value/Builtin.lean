/-!
# Built-in functions

The functions that every program finds in its outermost scope, and the methods of arrays and
strings, with the names that programs call them by.
-/

namespace DarijaScript

/-- The functions of the outermost scope. -/
inductive Builtin where
  | print
  | alert
  | prompt
  | confirm
  | raise
  | squareRoot
  | power
  | absolute
  | round
  | floor
  | ceiling
  | maximum
  | minimum
  | random
  | toNumber
  | toText
  | keys
  | values
  | now
  | date
  | year
  | month
  | day
  | hour
  | minute
  | second
  | weekday
  | schedule
  | repeatedly
  | cancel
  deriving Repr, DecidableEq

namespace Builtin

/-- The name that programs call the function by. -/
def name : Builtin → String
  | print => "tbe3"
  | alert => "nbh"
  | prompt => "sowel"
  | confirm => "t2kd"
  | raise => "rmmi"
  | squareRoot => "jdr"
  | power => "qowa"
  | absolute => "mtl9"
  | round => "t9rib"
  | floor => "ard"
  | ceiling => "sqf"
  | maximum => "kbar"
  | minimum => "sghar"
  | random => "tsadof"
  | toNumber => "r9m"
  | toText => "nass"
  | keys => "mfati7"
  | values => "9iyam"
  | now => "daba"
  | date => "Tarikh"
  | year => "l3am"
  | month => "chhar"
  | day => "nhar"
  | hour => "sa3a"
  | minute => "d9i9a"
  | second => "tanya"
  | weekday => "nhar_simana"
  | schedule => "m2a9it"
  | repeatedly => "tkrar"
  | cancel => "lghi"

/-- Every function of the outermost scope. -/
def all : List Builtin :=
  [print, alert, prompt, confirm, raise, squareRoot, power, absolute, round, floor, ceiling,
    maximum, minimum, random, toNumber, toText, keys, values, now, date, year, month, day, hour,
    minute, second, weekday, schedule, repeatedly, cancel]

theorem mem_all (builtin : Builtin) : builtin ∈ all := by
  cases builtin <;> decide

end Builtin

/-- The methods of arrays. -/
inductive ArrayMethod where
  | push
  | pop
  | pushFront
  | popFront
  | map
  | filter
  | forEach
  | find
  | indexOf
  | contains
  | fold
  | join
  | slice
  deriving Repr, DecidableEq

namespace ArrayMethod

/-- The name that programs call the method by. -/
def name : ArrayMethod → String
  | push => "zid"
  | pop => "7iyed"
  | pushFront => "zid_lwl"
  | popFront => "7iyed_lwl"
  | map => "7awl"
  | filter => "sffi"
  | forEach => "kol_wahed"
  | find => "l9a"
  | indexOf => "fin"
  | contains => "fih"
  | fold => "jme3"
  | join => "lsse9"
  | slice => "9te3"

/-- Every method of arrays. -/
def all : List ArrayMethod :=
  [push, pop, pushFront, popFront, map, filter, forEach, find, indexOf, contains, fold, join, slice]

/-- The method of this name. -/
def ofName? (name : String) : Option ArrayMethod := all.find? (·.name == name)

theorem ofName?_name (method : ArrayMethod) : ofName? method.name = some method := by
  cases method <;> decide

end ArrayMethod

/-- The methods of strings. -/
inductive StringMethod where
  | upper
  | lower
  | contains
  | indexOf
  | slice
  | split
  | trim
  deriving Repr, DecidableEq

namespace StringMethod

/-- The name that programs call the method by. -/
def name : StringMethod → String
  | upper => "kbir"
  | lower => "sghir"
  | contains => "fih"
  | indexOf => "fin"
  | slice => "9te3"
  | split => "9sem"
  | trim => "n9i"

/-- Every method of strings. -/
def all : List StringMethod := [upper, lower, contains, indexOf, slice, split, trim]

/-- The method of this name. -/
def ofName? (name : String) : Option StringMethod := all.find? (·.name == name)

theorem ofName?_name (method : StringMethod) : ofName? method.name = some method := by
  cases method <;> decide

end StringMethod

end DarijaScript
