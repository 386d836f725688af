import Intake.Json.Basic
import Intake.Json.Number
import Intake.Numeral.Hex
import Intake.SortedMap

/-!
# Reading JSON

A reader that takes one character at a time. What it is in the middle of is its
mode; the arrays and objects that are open around it are its frames. Each step
gives the next state or the reason why no JSON value starts this way.
-/

namespace Intake.Json.Reader

open Intake (SortedMap)
open Numeral (hexValue?)

/-- The key of an object that stands for the number in its only member. -/
def numberKey : String := "$serde_json::private::Number"

/-- No more arrays and objects than this may be open at once. -/
def maxDepth : Nat := 127

/-- An array or object that is open around the place where a value is read. -/
inductive Frame where
  /-- An array, with its items so far, last first. -/
  | list (items : List Json)
  /-- An object, with its members so far and the key whose value is read. -/
  | record (members : List (String × Json)) (key : String)
  /-- An object that stands for a number, at the value of its only member. -/
  | number

inductive Purpose where
  | value
  /-- The key of a member, after these members. -/
  | key (members : List (String × Json)) (first : Bool)

inductive StringPart where
  | plain
  | escape
  /-- An escape by code: a leading surrogate before it, and of its four bytes the number read
  and the value of their digits, if they all are digits. -/
  | code (lead : Option Nat) (bytes : Nat) (value : Option Nat)
  /-- A leading surrogate; the backslash of the next escape must follow. -/
  | lead (value : Nat)
  /-- A leading surrogate and a backslash; a `u` must follow. -/
  | leadEscape (value : Nat)

inductive Mode where
  | value
  | firstItem
  | nextItem
  | afterItem
  | firstKey
  | nextKey (members : List (String × Json))
  /-- A key has been read; after the colon the frame is open. -/
  | colon (frame : Frame)
  | afterMember (members : List (String × Json))
  | word (rest : List Char) (value : Json)
  | number (part : NumberPart) (text : List Char)
  | string (purpose : Purpose) (part : StringPart) (text : List Char)
  /-- The object that stands for a number must end. -/
  | numberEnd (text : List Char)
  | done (value : Json)

structure State where
  frames : List Frame
  mode : Mode

/-- Where a fault lies: some bytes into the character that is read, or in a text of its own. -/
inductive Place where
  | bytes (count : Nat)
  | fixed (position : Position)

structure StepFault where
  reason : Reason
  place : Place

def wrong {α : Type} (reason : Reason) : Except StepFault α := .error ⟨reason, .bytes 1⟩

def wrongBefore {α : Type} (reason : Reason) : Except StepFault α := .error ⟨reason, .bytes 0⟩

def isSpace (c : Char) : Bool := c == ' ' || c == '\t' || c == '\n' || c == '\r'

/-! ### Values in their frames -/

def foundValue : Json → Found
  | .null => .null
  | .bool b => .bool b
  | .number text => foundNumber text
  | .string _ => .number
  | .array _ => .array
  | .object _ => .object

/-- Puts a finished value into the innermost frame. A fault about a value lies `bytes` into the
character that is read. -/
def deliver (bytes : Nat) (frames : List Frame) (value : Json) : Except StepFault State :=
  match frames with
  | [] => .ok ⟨[], .done value⟩
  | .list items :: frames => .ok ⟨.list (value :: items) :: frames, .afterItem⟩
  | .record members key :: frames =>
    .ok ⟨frames, .afterMember (SortedMap.insertEntry key value members)⟩
  | .number :: frames =>
    match value with
    | .string text =>
      match readNumberText text.toList with
      | .ok kept => .ok ⟨frames, .numberEnd kept⟩
      | .error fault => .error ⟨fault.reason, .fixed fault.position⟩
    | other => .error ⟨.expectedNumberText (foundValue other), .bytes bytes⟩

/-- Opens an array or object, unless too many are open. -/
def enter (frames : List Frame) (state : State) : Except StepFault State :=
  if frames.length < maxDepth then .ok state else wrong .tooDeep

def startValue (frames : List Frame) (c : Char) : Except StepFault State :=
  if c = 'n' then .ok ⟨frames, .word "ull".toList .null⟩
  else if c = 't' then .ok ⟨frames, .word "rue".toList (.bool true)⟩
  else if c = 'f' then .ok ⟨frames, .word "alse".toList (.bool false)⟩
  else if c = '-' then .ok ⟨frames, .number .sign ['-']⟩
  else if c = '0' then .ok ⟨frames, .number .zero ['0']⟩
  else if c.isDigit then .ok ⟨frames, .number .whole [c]⟩
  else if c = '"' then .ok ⟨frames, .string .value .plain []⟩
  else if c = '[' then
    match frames with
    | .number :: _ => wrongBefore (.expectedNumberText .array)
    | _ => enter frames ⟨.list [] :: frames, .firstItem⟩
  else if c = '\x7b' then
    match frames with
    | .number :: _ => wrongBefore (.expectedNumberText .object)
    | _ => enter frames ⟨frames, .firstKey⟩
  else wrong .expectedValue

def closeList (frames : List Frame) : Except StepFault State :=
  match frames with
  | .list items :: frames => deliver 1 frames (.array items.reverse)
  | frames => deliver 1 frames (.array [])

/-! ### Strings -/

def escaped? (c : Char) : Option Char :=
  match c with
  | '"' => some '"'
  | '\\' => some '\\'
  | '/' => some '/'
  | 'b' => some '\x08'
  | 'f' => some '\x0c'
  | 'n' => some '\n'
  | 'r' => some '\r'
  | 't' => some '\t'
  | _ => none

/-- Takes the code unit of an escape: a character, half of one, or neither. -/
def takeCode (lead : Option Nat) (code : Nat) (text : List Char) :
    Except StepFault (StringPart × List Char) :=
  let trailing := 0xDC00 ≤ code && code ≤ 0xDFFF
  match lead with
  | none =>
    if trailing then wrong .loneSurrogate
    else if 0xD800 ≤ code && code ≤ 0xDBFF then .ok (.lead code, text)
    else .ok (.plain, Char.ofNat code :: text)
  | some high =>
    if trailing then
      .ok (.plain, Char.ofNat (0x10000 + (high - 0xD800) * 0x400 + (code - 0xDC00)) :: text)
    else wrong .loneSurrogate

/-- Takes a character of a string that is not its closing quotation mark. The text so far is
held last character first. -/
def stepString (part : StringPart) (text : List Char) (c : Char) :
    Except StepFault (StringPart × List Char) :=
  match part with
  | .plain =>
    if c = '\\' then .ok (.escape, text)
    else if c.toNat < 0x20 then wrong .controlCharacter
    else .ok (.plain, c :: text)
  | .escape =>
    if c = 'u' then .ok (.code none 0 (some 0), text)
    else match escaped? c with
      | some e => .ok (.plain, e :: text)
      | none => wrong .invalidEscape
  | .code lead bytes value =>
    let value' := value.bind fun v => (hexValue? c).map fun d => v * 16 + d
    if bytes + c.utf8Size < 4 then .ok (.code lead (bytes + c.utf8Size) value', text)
    else match value' with
      | some code => takeCode lead code text
      | none => .error ⟨.invalidEscape, .bytes (4 - bytes)⟩
  | .lead value => if c = '\\' then .ok (.leadEscape value, text) else wrong .unpairedSurrogate
  | .leadEscape value =>
    if c = 'u' then .ok (.code (some value) 0 (some 0), text) else wrong .unpairedSurrogate

def closeString (frames : List Frame) (purpose : Purpose) (text : List Char) :
    Except StepFault State :=
  let text := String.ofList text.reverse
  match purpose with
  | .value => deliver 1 frames (.string text)
  | .key members first =>
    if first && text == numberKey then .ok ⟨frames, .colon .number⟩
    else .ok ⟨frames, .colon (.record members text)⟩

/-! ### Steps -/

def stepBetween (frames : List Frame) (mode : Mode) (c : Char) : Except StepFault State :=
  if isSpace c then .ok ⟨frames, mode⟩
  else match mode with
    | .value => startValue frames c
    | .firstItem => if c = ']' then closeList frames else startValue frames c
    | .nextItem => if c = ']' then wrong .trailingComma else startValue frames c
    | .afterItem =>
      if c = ',' then .ok ⟨frames, .nextItem⟩
      else if c = ']' then closeList frames
      else wrong .expectedListEnd
    | .firstKey =>
      if c = '"' then .ok ⟨frames, .string (.key [] true) .plain []⟩
      else if c = '\x7d' then deliver 1 frames (.object [])
      else wrong .expectedKey
    | .nextKey members =>
      if c = '"' then .ok ⟨frames, .string (.key members false) .plain []⟩
      else if c = '\x7d' then wrong .trailingComma
      else wrong .expectedKey
    | .colon frame => if c = ':' then .ok ⟨frame :: frames, .value⟩ else wrong .expectedColon
    | .afterMember members =>
      if c = ',' then .ok ⟨frames, .nextKey members⟩
      else if c = '\x7d' then deliver 1 frames (.object members)
      else wrong .expectedObjectEnd
    | .numberEnd text =>
      if c = '\x7d' then deliver 1 frames (.number text)
      else if c = ',' then wrong .trailingComma
      else wrong .trailingCharacters
    | _ => wrong .trailingCharacters

def step (s : State) (c : Char) : Except StepFault State :=
  match s.mode with
  | .word (expected :: rest) value =>
    if c ≠ expected then wrong .expectedWord
    else if rest.isEmpty then deliver c.utf8Size s.frames value
    else .ok ⟨s.frames, .word rest value⟩
  | .number part text =>
    match part.step c with
    | .more part' kept => .ok ⟨s.frames, .number part' (text ++ kept)⟩
    | .done => do
      let s' ← deliver 0 s.frames (.number text)
      stepBetween s'.frames s'.mode c
    | .invalid => wrong .invalidNumber
  | .string purpose part text =>
    match part with
    | .plain =>
      if c = '"' then closeString s.frames purpose text
      else (stepString part text c).map fun (part', text') => ⟨s.frames, .string purpose part' text'⟩
    | part =>
      (stepString part text c).map fun (part', text') => ⟨s.frames, .string purpose part' text'⟩
  | mode => stepBetween s.frames mode c

/-- The value that is finished when the text ends, or what the end is in the middle of. -/
def finish (s : State) : Except StepFault Json :=
  match s.mode with
  | .done value => .ok value
  | .value | .nextItem | .nextKey _ | .word .. => wrongBefore .endInValue
  | .firstItem | .afterItem => wrongBefore .endInList
  | .firstKey | .colon _ | .afterMember _ | .numberEnd _ => wrongBefore .endInObject
  | .string .. => wrongBefore .endInString
  | .number part text =>
    if part.complete then do
      let s' ← deliver 0 s.frames (.number text)
      match s'.mode with
      | .done value => .ok value
      | .afterItem => wrongBefore .endInList
      | _ => wrongBefore .endInObject
    else wrongBefore .endInValue

def StepFault.locate (f : StepFault) (p : Position) (c : Char) : Fault :=
  match f.place with
  | .bytes count => ⟨f.reason, p.into c count⟩
  | .fixed position => ⟨f.reason, position⟩

def run (p : Position) (s : State) : List Char → Except Fault Json
  | [] => (finish s).mapError (·.locate p ' ')
  | c :: cs =>
    match step s c with
    | .ok s' => run (p.after c) s' cs
    | .error f => .error (f.locate p c)

end Reader

def read (text : String) : Except Fault Json :=
  Reader.run .start ⟨[], .value⟩ text.toList

end Intake.Json
