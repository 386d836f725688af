/-!
# Faults in JSON text

Why a text is no JSON value, and where. Columns count bytes of UTF-8.
-/

namespace Intake.Json

/-- What a value was found to be where the text of a number was wanted. -/
inductive Found where
  | null
  | bool (value : Bool)
  | integer (text : List Char)
  | number
  | array
  | object
  deriving DecidableEq, Repr

def Found.text : Found → String
  | .null => "null"
  | .bool value => s!"boolean `{value}`"
  | .integer text => "integer `" ++ String.ofList text ++ "`"
  | .number => "number"
  | .array => "sequence"
  | .object => "map"

inductive Reason where
  | endInValue
  | endInList
  | endInObject
  | endInString
  | expectedValue
  | expectedWord
  | expectedColon
  | expectedListEnd
  | expectedObjectEnd
  | expectedKey
  | expectedNumberText (found : Found)
  | invalidNumber
  | invalidEscape
  | controlCharacter
  | loneSurrogate
  | unpairedSurrogate
  | trailingComma
  | trailingCharacters
  | tooDeep
  deriving DecidableEq, Repr

def Reason.text : Reason → String
  | .endInValue => "EOF while parsing a value"
  | .endInList => "EOF while parsing a list"
  | .endInObject => "EOF while parsing an object"
  | .endInString => "EOF while parsing a string"
  | .expectedValue => "expected value"
  | .expectedWord => "expected ident"
  | .expectedColon => "expected `:`"
  | .expectedListEnd => "expected `,` or `]`"
  | .expectedObjectEnd => "expected `,` or `\x7d`"
  | .expectedKey => "key must be a string"
  | .expectedNumberText found =>
    "invalid type: " ++ found.text ++ ", expected string containing a number"
  | .invalidNumber => "invalid number"
  | .invalidEscape => "invalid escape"
  | .controlCharacter => "control character (\\u0000-\\u001F) found while parsing a string"
  | .loneSurrogate => "lone leading surrogate in hex escape"
  | .unpairedSurrogate => "unexpected end of hex escape"
  | .trailingComma => "trailing comma"
  | .trailingCharacters => "trailing characters"
  | .tooDeep => "recursion limit exceeded"

/-- A place in a text: lines from 1, and the bytes of the line up to the place. -/
structure Position where
  line : Nat
  column : Nat
  deriving DecidableEq, Repr

namespace Position

def start : Position := ⟨1, 0⟩

def into (p : Position) (c : Char) (bytes : Nat) : Position :=
  if bytes = 0 then p else if c = '\n' then ⟨p.line + 1, 0⟩ else ⟨p.line, p.column + bytes⟩

def after (p : Position) (c : Char) : Position := p.into c c.utf8Size

end Position

structure Fault where
  reason : Reason
  position : Position
  deriving DecidableEq, Repr

def Fault.message (f : Fault) : String :=
  s!"{f.reason.text} at line {f.position.line} column {f.position.column}"

end Intake.Json
