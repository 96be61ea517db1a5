/-
# Values of JSON documents

A number keeps whether it was written as a whole number: natural numbers below `2 ^ 64` and
negative ones down to `- 2 ^ 63` are exact, and every other number is a double.
-/
namespace CoverageEstimate.Json

/-- A number of a document. -/
inductive Number where
  /-- A whole number that is not negative, below `2 ^ 64`. -/
  | natural (n : Nat)
  /-- The whole number `-n`, with `0 < n ≤ 2 ^ 63`. -/
  | negative (n : Nat)
  /-- Any other number. -/
  | real (x : Float)
  deriving Inhabited

/-- A value of a document.  The members of an object stand in the order in which they are
written. -/
inductive Value where
  | null
  | flag (b : Bool)
  | number (n : Number)
  | text (s : String)
  | list (items : List Value)
  | object (members : List (String × Value))
  deriving Inhabited

namespace Value

/-- The last member of the name. -/
def member? (name : String) : List (String × Value) → Option Value
  | [] => none
  | (n, v) :: rest => (member? name rest).orElse fun _ => if n = name then some v else none

/-- The last member of the name of an object; other values have no members. -/
def get? (v : Value) (name : String) : Option Value :=
  match v with
  | object members => member? name members
  | _ => none

/-- A member set in a list that is sorted by names: it takes the place of one of its name. -/
def setMember (name : String) (v : Value) : List (String × Value) → List (String × Value)
  | [] => [(name, v)]
  | (n, w) :: rest =>
    if name < n then (name, v) :: (n, w) :: rest
    else if name = n then (name, v) :: rest
    else (n, w) :: setMember name v rest

mutual

/-- The value with its objects as dictionaries: members sorted by name, and the last one of a name
alone. -/
def asDictionaries : Value → Value
  | list items => list (itemsAsDictionaries items)
  | object members => object ((membersAsDictionaries members).foldl (fun m p => setMember p.1 p.2 m) [])
  | v => v

/-- The items of a list with their objects as dictionaries. -/
def itemsAsDictionaries : List Value → List Value
  | [] => []
  | v :: rest => asDictionaries v :: itemsAsDictionaries rest

/-- The members of an object with the objects in them as dictionaries. -/
def membersAsDictionaries : List (String × Value) → List (String × Value)
  | [] => []
  | (n, v) :: rest => (n, asDictionaries v) :: membersAsDictionaries rest

end

end Value

end CoverageEstimate.Json
