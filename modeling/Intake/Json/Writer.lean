import Intake.Json.Basic

/-!
# Writing JSON

The text of a JSON tree, without blanks.
-/

namespace Intake.Json

/-- A character inside a string. Only quotation marks, backslashes and control characters are
escaped. -/
def escapeChar (c : Char) : List Char :=
  match c with
  | '"' => ['\\', '"']
  | '\\' => ['\\', '\\']
  | '\x08' => ['\\', 'b']
  | '\x0c' => ['\\', 'f']
  | '\n' => ['\\', 'n']
  | '\r' => ['\\', 'r']
  | '\t' => ['\\', 't']
  | c =>
    if c.toNat < 0x20 then
      ['\\', 'u', '0', '0', Nat.digitChar (c.toNat / 16), Nat.digitChar (c.toNat % 16)]
    else [c]

def writeString (s : String) : List Char := '"' :: s.toList.flatMap escapeChar ++ ['"']

mutual

def write : Json → List Char
  | .null => "null".toList
  | .bool true => "true".toList
  | .bool false => "false".toList
  | .number text => text
  | .string s => writeString s
  | .array [] => ['[', ']']
  | .array (item :: rest) => '[' :: item.write ++ writeItems rest
  | .object [] => ['\x7b', '\x7d']
  | .object ((key, value) :: rest) =>
    '\x7b' :: writeString key ++ ':' :: value.write ++ writeMembers rest

/-- The items after the first, and the end of the array. -/
def writeItems : List Json → List Char
  | [] => [']']
  | item :: rest => ',' :: item.write ++ writeItems rest

/-- The members after the first, and the end of the object. -/
def writeMembers : List (String × Json) → List Char
  | [] => ['\x7d']
  | (key, value) :: rest => ',' :: writeString key ++ ':' :: value.write ++ writeMembers rest

end

def text (j : Json) : String := String.ofList j.write

end Intake.Json
