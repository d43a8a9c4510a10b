import LedgerAudit.Decimal.Shortest

/-!
# JSON values

Objects keep their members in a list. A value read from a text has them sorted by key, each key
once; a value that was built to be printed has them in the order of its builder.
-/

namespace LedgerAudit

/-- Whole numbers of 64 bits stay exact; every other number is a binary fraction. -/
inductive Json.Number
  | integer (n : Int)
  | float (x : Binary64)
deriving DecidableEq, Repr

inductive Json
  | null
  | bool (b : Bool)
  | number (n : Json.Number)
  | string (text : String)
  | array (items : List Json)
  | object (members : List (String × Json))
deriving Inhabited

namespace Json

abbrev integer (n : Int) : Json := .number (.integer n)

abbrev Members := List (String × Json)

namespace Members

/-- Puts a member in its place; a member of the same key is replaced. -/
def insert (key : String) (value : Json) : Members → Members
  | [] => [(key, value)]
  | (k, v) :: rest =>
    if key < k then (key, value) :: (k, v) :: rest
    else if k = key then (key, value) :: rest
    else (k, v) :: insert key value rest

/-- Sorts members by key; of two with one key the later stays. -/
def sort (members : Members) : Members :=
  members.foldl (fun sorted m => insert m.1 m.2 sorted) []

def find? (members : Members) (key : String) : Option Json :=
  (List.find? (fun m => m.1 == key) members).map Prod.snd

end Members

def member? (key : String) : Json → Option Json
  | .object members => Members.find? members key
  | _ => none

mutual

/-- The number of containers around the innermost value, and one for the value. -/
def height : Json → Nat
  | .array items => heightOfItems items + 1
  | .object members => heightOfMembers members + 1
  | _ => 1

def heightOfItems : List Json → Nat
  | [] => 0
  | v :: rest => max (height v) (heightOfItems rest)

def heightOfMembers : List (String × Json) → Nat
  | [] => 0
  | (_, v) :: rest => max (height v) (heightOfMembers rest)

end

mutual

def sorted : Json → Json
  | .array items => .array (sortedItems items)
  | .object members => .object (Members.sort (sortedMembers members))
  | v => v

def sortedItems : List Json → List Json
  | [] => []
  | v :: rest => sorted v :: sortedItems rest

def sortedMembers : List (String × Json) → List (String × Json)
  | [] => []
  | (key, v) :: rest => (key, sorted v) :: sortedMembers rest

end

end Json

end LedgerAudit
