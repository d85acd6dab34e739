/-
  ConstraintNet.JsonValue
  ───────────────────────
  **JSON TEXTS OVER SEVERAL LINES.**

  A report is written as a JSON text in which every element and every member
  has a line of its own, two spaces further in than what encloses it.
-/

namespace ConstraintNet

/-- What a report consists of. -/
inductive JsonValue where
  | null
  | integer (i : Int)
  | array (items : List JsonValue)
  | object (members : List (String × JsonValue))

namespace JsonValue

/-- The start of a line at some depth. -/
def indent (depth : Nat) : String := String.ofList (List.replicate (2 * depth) ' ')

mutual

/-- A value whose first line stands at some depth. -/
def render (depth : Nat) : JsonValue → String
  | .null => "null"
  | .integer i => toString i
  | .array [] => "[]"
  | .array (item :: rest) =>
    "[\n" ++ renderItems (depth + 1) (item :: rest) ++ "\n" ++ indent depth ++ "]"
  | .object [] => "\x7b\x7d"
  | .object (member :: rest) =>
    "\x7b\n" ++ renderMembers (depth + 1) (member :: rest) ++ "\n" ++ indent depth ++ "\x7d"

/-- Elements, one per line. -/
def renderItems (depth : Nat) : List JsonValue → String
  | [] => ""
  | [item] => indent depth ++ render depth item
  | item :: rest => indent depth ++ render depth item ++ ",\n" ++ renderItems depth rest

/-- Members, one per line. Their keys need no escapes. -/
def renderMembers (depth : Nat) : List (String × JsonValue) → String
  | [] => ""
  | [(key, value)] => indent depth ++ "\"" ++ key ++ "\": " ++ render depth value
  | (key, value) :: rest =>
    indent depth ++ "\"" ++ key ++ "\": " ++ render depth value ++ ",\n" ++ renderMembers depth rest

end

end JsonValue

end ConstraintNet
