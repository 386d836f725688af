import Intake.Numeral.Hex
import Intake.Text.Segments

/-!
# Sets of characters

Sets of characters as ranges of code points, written as hexadecimal numbers.
-/

namespace Intake.Unicode

open Numeral (readHex)

/-- A range of code points that includes its ends. -/
structure CodeRange where
  first : Nat
  last : Nat

namespace CodeRange

def contains (r : CodeRange) (c : Char) : Bool := r.first ≤ c.toNat && c.toNat ≤ r.last

/-- Reads one code point, or two joined by a hyphen. -/
def read? (cs : List Char) : Option CodeRange :=
  match Text.pieces '-' cs with
  | (first, []) => (readHex first).map fun n => ⟨n, n⟩
  | (first, last :: _) => do return ⟨← readHex first, ← readHex last⟩

end CodeRange

def words (lines : List String) : List (List Char) :=
  lines.flatMap fun line => Text.allPieces ' ' line.toList

structure CodeSet where
  ranges : List CodeRange

namespace CodeSet

def contains (s : CodeSet) (c : Char) : Bool := s.ranges.any (·.contains c)

def ofLines (lines : List String) : CodeSet := ⟨(words lines).filterMap CodeRange.read?⟩

end CodeSet

/-- The text for which a character stands. In a range of characters the last character of the
text goes up from one to the next. -/
structure CodeForm where
  range : CodeRange
  text : List Char

namespace CodeForm

/-- Reads a range and a text, joined by a colon. -/
def read? (cs : List Char) : Option CodeForm :=
  match Text.pieces ':' cs with
  | (range, text :: _) => (CodeRange.read? range).map (⟨·, text⟩)
  | _ => none

def ofLines (lines : List String) : List CodeForm := (words lines).filterMap read?

def textOf (f : CodeForm) (c : Char) : List Char :=
  match f.text.reverse with
  | [] => []
  | last :: front => (Char.ofNat (last.toNat + (c.toNat - f.range.first)) :: front).reverse

end CodeForm

end Intake.Unicode
