import Intake.Json.Fault
import Intake.Numeral.Integer

/-!
# Text of JSON numbers

A number is read one character at a time. The text that is kept has `e` for the
mark of the exponent and always a sign after it.
-/

namespace Intake.Json

/-- What has been read of a number. -/
inductive NumberPart where
  /-- Nothing or a minus; a digit must follow. -/
  | sign
  /-- A leading zero; no digit may follow. -/
  | zero
  | whole
  /-- A point; a digit must follow. -/
  | point
  | fraction
  /-- The mark of the exponent; a sign or digit must follow. -/
  | mark
  /-- The sign of the exponent; a digit must follow. -/
  | markSign
  | exponent
  deriving DecidableEq, Repr

inductive NumberStep where
  /-- It belongs to the number, and these characters are kept for it. -/
  | more (part : NumberPart) (kept : List Char)
  /-- The number ends before it. -/
  | done
  /-- No number goes on with it. -/
  | invalid
  deriving DecidableEq, Repr

namespace NumberPart

def markOrDone (c : Char) : NumberStep :=
  if c = 'e' ∨ c = 'E' then .more .mark ['e'] else .done

def step (part : NumberPart) (c : Char) : NumberStep :=
  match part with
  | .sign => if c = '0' then .more .zero [c] else if c.isDigit then .more .whole [c] else .invalid
  | .zero => if c.isDigit then .invalid else if c = '.' then .more .point [c] else markOrDone c
  | .whole => if c.isDigit then .more .whole [c] else if c = '.' then .more .point [c] else markOrDone c
  | .point => if c.isDigit then .more .fraction [c] else .invalid
  | .fraction => if c.isDigit then .more .fraction [c] else markOrDone c
  | .mark =>
    if c = '+' ∨ c = '-' then .more .markSign [c]
    else if c.isDigit then .more .exponent ['+', c]
    else .invalid
  | .markSign => if c.isDigit then .more .exponent [c] else .invalid
  | .exponent => if c.isDigit then .more .exponent [c] else .done

/-- Whether the number may end here. -/
def complete : NumberPart → Bool
  | .zero | .whole | .fraction | .exponent => true
  | .sign | .point | .mark | .markSign => false

/-- Whether a wrong character in this place has been taken before it is found to be wrong. -/
def takesWrong : NumberPart → Bool
  | .sign | .mark | .markSign => true
  | _ => false

end NumberPart

def foundNumber (text : List Char) : Found :=
  let fits : Bool := match text with
    | ['-', '0'] => false
    | '-' :: digits => (Numeral.readMagnitude (Numeral.maxSigned + 1) digits).isOk
    | digits => (Numeral.readMagnitude Numeral.maxUnsigned digits).isOk
  if fits then .integer text else .number

/-- The place up to which a wrong character inside a text of its own is counted. After a
character that was taken, the next byte is the one found to be wrong. -/
def wrongAt (p : Position) (part : NumberPart) (c : Char) (rest : List Char) : Position :=
  if part.takesWrong then
    if 1 < c.utf8Size then p.into c 2
    else match rest with
      | [] => p.after c
      | next :: _ => (p.after c).into next 1
  else p.into c 1

def readNumberText (cs : List Char) : Except Fault (List Char) :=
  match cs with
  | [] => .error ⟨.endInValue, .start⟩
  | '-' :: rest => go (Position.start.after '-') .sign ['-'] rest
  | c :: rest =>
    if c.isDigit then go .start .sign [] (c :: rest)
    else .error ⟨.invalidNumber, Position.start.into c 1⟩
where
  go (p : Position) (part : NumberPart) (kept : List Char) : List Char → Except Fault (List Char)
    | [] => if part.complete then .ok kept else .error ⟨.endInValue, p⟩
    | c :: rest =>
      match part.step c with
      | .more part' more => go (p.after c) part' (kept ++ more) rest
      | .done => .error ⟨.invalidNumber, p.into c 1⟩
      | .invalid => .error ⟨.invalidNumber, wrongAt p part c rest⟩

end Intake.Json
