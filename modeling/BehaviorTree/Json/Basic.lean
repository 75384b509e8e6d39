import BehaviorTree.Number.Binary64

/-!
# Structured messages

A message is a tree of arrays and objects over scalars. A number is an integer if it was written
as one and fits in 64 bits with or without a sign; every other number is a finite double. The
members of an object stand in the order of their keys, and no key stands twice: `Json.ofMembers`
builds such an object from members in any order, of which the last one with a key counts.
-/

namespace BehaviorTree

abbrev WideInteger :=
  { number : Int // -0x8000000000000000 ≤ number ∧ number < 0x10000000000000000 }

abbrev FiniteBinary64 := { number : Binary64 // number.isFinite = true }

inductive Json where
  | null
  | bool (value : Bool)
  | integer (number : WideInteger)
  | real (number : FiniteBinary64)
  | string (text : String)
  | array (items : List Json)
  | object (members : List (String × Json))
deriving Inhabited

namespace Json

/-- Puts a member at its place among members in the order of their keys. A member with the same
key is replaced. -/
def insertMember (key : String) (value : Json) : List (String × Json) → List (String × Json)
  | [] => [(key, value)]
  | first :: rest =>
    if key < first.1 then (key, value) :: first :: rest
    else if key = first.1 then (key, value) :: rest
    else first :: insertMember key value rest

/-- The object with the given members, the last one with a key taking precedence. -/
def ofMembers (members : List (String × Json)) : Json :=
  object (members.foldl (fun sorted member => insertMember member.1 member.2 sorted) [])

/-- The number as a message, or `null` if messages have no such number. -/
def ofBinary64 (number : Binary64) : Json :=
  if finite : number.isFinite = true then real ⟨number, finite⟩ else null

def ofInt64 (number : Int64) : Json :=
  integer ⟨number.toInt, Int64.le_toInt number,
    Int.lt_trans (Int64.toInt_lt number) (by decide)⟩

def member? (key : String) (members : List (String × Json)) : Option Json :=
  (members.find? fun member => member.1 = key).map Prod.snd

mutual

/-- Whether two messages are the same. Doubles are compared as numbers, so that both zeros are
the same, and an integer is never the same as a double. -/
def same : Json → Json → Bool
  | null, null => true
  | bool left, bool right => left == right
  | integer left, integer right => left.1 == right.1
  | real left, real right => left.1.equal right.1
  | string left, string right => left == right
  | array left, array right => sameItems left right
  | object left, object right => sameMembers left right
  | _, _ => false

def sameItems : List Json → List Json → Bool
  | [], [] => true
  | left :: lefts, right :: rights => same left right && sameItems lefts rights
  | _, _ => false

def sameMembers : List (String × Json) → List (String × Json) → Bool
  | [], [] => true
  | (leftKey, left) :: lefts, (rightKey, right) :: rights =>
    leftKey == rightKey && same left right && sameMembers lefts rights
  | _, _ => false

end

end Json

end BehaviorTree
