import Intake.Unicode.Bidi
import Intake.Unicode.Composition
import Intake.Unicode.HostMapping
import Intake.Unicode.Joining
import Intake.Unicode.Marks
import Intake.Url.Punycode

/-!
# Domain names

The labels of a domain name that may hold characters beyond ASCII. Its characters
are mapped first; then each label must be well formed, and so must the
directions of the labels if a letter is written from right to left.
-/

namespace Intake.Url.Domain

open Unicode (Direction direction)

def isForbidden (c : Char) : Bool :=
  c.toNat ≤ 0x20 || c == '\x7f' || "%#/:<>?@[\\]^|".toList.contains c

def mapChar (c : Char) : Option (List Char) :=
  if c.toNat < 0x80 then if isForbidden c then none else some [c.toLower]
  else if Unicode.refused.contains c then none
  else if Unicode.leftOut.contains c then some []
  else
    match Unicode.asciiForms.find? (·.range.contains c) with
    | some form => some (form.textOf c)
    | none => some [c]

def isAscii (label : List Char) : Bool := label.all fun c => c.toNat < 0x80

/-! ### Labels -/

def standsForItself (c : Char) : Bool :=
  if c.toNat < 0x80 then !isForbidden c && c != '.' && c == c.toLower
  else !Unicode.refused.contains c && !Unicode.leftOut.contains c && !Unicode.mapped.contains c

/-- A label in its form beyond ASCII. One that starts with `xn--` is in Punycode, and must be the
form in ASCII of a composed text of characters that stand for themselves. -/
def decodeLabel (label : List Char) : Option (List Char) :=
  if label.take 4 = "xn--".toList then do
    let decoded ← Punycode.decode (label.drop 4)
    if !isAscii decoded && decoded.all standsForItself && Unicode.isComposed decoded then some decoded
    else none
  else some label

/-- Whether the nearest of some characters that is not transparent is in a set. -/
def meets (s : Unicode.CodeSet) (neighbours : List Char) : Bool :=
  match neighbours.dropWhile Unicode.transparent.contains with
  | c :: _ => s.contains c
  | [] => false

/-- Whether the invisible joiners of a label stand after a virama, or, if they keep letters
apart, between letters that would join. `before` holds the characters before, last first. -/
def joinersFit (before : List Char) : List Char → Bool
  | [] => true
  | c :: after =>
    let afterVirama := match before with
      | p :: _ => Unicode.isVirama p
      | [] => false
    let fits :=
      if c = '\u200c' then
        afterVirama || (meets Unicode.joinsNext before && meets Unicode.joinsPrevious after)
      else if c = '\u200d' then afterVirama
      else true
    fits && joinersFit (c :: before) after

/-- Whether a label starts with no mark, and its joiners fit. -/
def isWellFormed (label : List Char) : Bool :=
  (match label with
    | c :: _ => !Unicode.marks.contains c
    | [] => true) && joinersFit [] label

/-! ### Directions -/

/-- Whether a label has one direction throughout: a first letter of it, nothing of the other,
and an end that is a letter or number. Numbers of both kinds do not mix from right to left. -/
def hasOneDirection (label : List Char) : Bool :=
  let ds := label.map direction
  let last? := (ds.reverse.dropWhile (· == .nonspacing)).head?
  match ds with
  | [] => true
  | .left :: _ =>
    ds.all (fun d => d != .right && d != .arabicNumber) &&
      (last? == some .left || last? == some .europeanNumber)
  | .right :: _ =>
    ds.all (· != .left) && last? != some .neutral &&
      !(ds.contains .europeanNumber && ds.contains .arabicNumber)
  | _ => false

/-- Whether labels in which a letter is written from right to left have one direction each. -/
def directionsFit (labels : List (List Char)) : Bool :=
  if labels.any (·.any fun c => direction c == .right || direction c == .arabicNumber) then
    labels.all hasOneDirection
  else true

def labels? (cs : List Char) : Option (List (List Char)) := do
  let labels := Text.allPieces '.' (← cs.mapM mapChar).flatten
  let decoded ← labels.mapM decodeLabel
  if decoded.all isWellFormed && directionsFit decoded then some labels else none

end Intake.Url.Domain
