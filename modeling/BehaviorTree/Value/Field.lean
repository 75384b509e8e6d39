import BehaviorTree.Value.Basic

/-!
# Fields of values

A path of segments leads from a message to one of its parts: a segment is a key of an object or a
position in an array. Only a message has parts, but the empty path leads from any value to itself.
-/

namespace BehaviorTree

def Json.step? (content : Json) (segment : String) : Option Json :=
  match content with
  | .object members => member? segment members
  | .array items =>
    (naturalOfText? 0x10000000000000000 segment).bind fun position => items[position]?
  | _ => none

/-- The part of a message at the end of a path, or the position of the first segment that leads
nowhere. -/
def Json.follow (content : Json) : List String → Except Nat Json
  | [] => .ok content
  | segment :: path =>
    match content.step? segment with
    | some part => (part.follow path).mapError (· + 1)
    | none => .error 0

/-- The value at the end of a path, or the position of the first segment that leads nowhere. -/
def Value.field (value : Value) (path : List String) : Except Nat Value :=
  match path, value with
  | [], value => .ok value
  | path, .message content => (content.follow path).map ofJson
  | _, _ => .error 0

end BehaviorTree
