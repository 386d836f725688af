import Intake.Text.Segments

/-!
# Email addresses

A local part of letters, digits and some marks, an at sign, and a domain of
labels joined by dots. All of it is ASCII.
-/

namespace Intake.Email

def isLocalChar (c : Char) : Bool :=
  c.isAlphanum || ".!#$%&'*+/=?^_\x60\x7b|\x7d~-".toList.contains c

def isLabelChar (c : Char) : Bool := c.isAlphanum || c == '-'

/-- A label has 1 to 63 letters, digits and hyphens, with no hyphen at either end. -/
def isLabel (cs : List Char) : Bool :=
  cs.all isLabelChar && decide (cs.length ≤ 63) &&
    match cs.head?, cs.getLast? with
    | some first, some last => first != '-' && last != '-'
    | _, _ => false

def isAddress (cs : List Char) : Bool :=
  let localPart := cs.takeWhile (· ≠ '@')
  match cs.dropWhile (· ≠ '@') with
  | [] => false
  | _ :: domain =>
    !localPart.isEmpty && localPart.all isLocalChar && (Text.allPieces '.' domain).all isLabel

end Intake.Email
