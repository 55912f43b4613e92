import Mathlib.Data.Rat.Defs

/-!
# JSON values

What a parser makes of a document.  A number without a fraction or an exponent is an `int`; any
other is a `real`, which is the number that the document states.  An object keeps the order of its
members.
-/

namespace FundingVaults

inductive Json where
  | null
  | bool (b : Bool)
  | int (n : ℤ)
  | real (q : ℚ)
  | str (s : String)
  | arr (elements : List Json)
  | obj (members : List (String × Json))

namespace Json

/-- The member of an object. -/
def get? : Json → String → Option Json
  | obj members, key => members.lookup key
  | _, _ => none

/-- The member of an object, `null` if there is none. -/
def get (j : Json) (key : String) : Json := (j.get? key).getD null

def asStr? : Json → Option String
  | str s => some s
  | _ => none

def asInt? : Json → Option ℤ
  | int n => some n
  | _ => none

def asBool? : Json → Option Bool
  | bool b => some b
  | _ => none

def asArr? : Json → Option (List Json)
  | arr elements => some elements
  | _ => none

def asObj? : Json → Option (List (String × Json))
  | obj members => some members
  | _ => none

def isNull : Json → Bool
  | null => true
  | _ => false

end Json

end FundingVaults
