import Intake.Numeral.Shortest

/-!
# Written numbers

How a shortest decimal is written: positionally or with an exponent, and with or
without a fraction on whole numbers.
-/

namespace Intake.Numeral

structure Layout where
  /-- Whether a number whose leading digit has this exponent is written positionally. -/
  positional : Int → Bool
  /-- Whether a whole number written positionally ends in `.0`. -/
  wholeFraction : Bool
  tie : Tie

namespace Layout

/-- Numbers in messages: never an exponent, no fraction on whole numbers. -/
def plain : Layout := ⟨fun _ => true, false, .up⟩

/-- Numbers in JSON text: an exponent outside a range that depends on the format. -/
def json (f : Format) : Layout :=
  let (low, high) : Int × Int := if f.precision ≤ 24 then (-6, 12) else (-5, 15)
  ⟨fun e => low ≤ e && e ≤ high, true, .even⟩

/-- Digits times a power of ten, without an exponent. -/
def writePositional (wholeFraction : Bool) (digits : Nat) (exponent : Int) : List Char :=
  let ds := Nat.toDigits 10 digits
  match exponent with
  | .ofNat e => ds ++ List.replicate e '0' ++ if wholeFraction then ['.', '0'] else []
  | .negSucc e =>
    let places := e + 1
    if places < ds.length then ds.take (ds.length - places) ++ '.' :: ds.drop (ds.length - places)
    else '0' :: '.' :: List.replicate (places - ds.length) '0' ++ ds

/-- One digit before the point, and the exponent with its sign. -/
def writeScientific (digits : Nat) (lead : Int) : List Char :=
  let mark := if lead < 0 then ['e', '-'] else ['e', '+']
  let power := mark ++ Nat.toDigits 10 lead.natAbs
  match Nat.toDigits 10 digits with
  | d :: r :: rest => d :: '.' :: r :: rest ++ power
  | ds => ds ++ power

def writeMagnitude (l : Layout) (f : Format) (rank : Nat) : List Char :=
  let (digits, exponent) := if rank = 0 then (0, 0) else f.shortest l.tie rank
  let lead := exponent + digitCount digits - 1
  if l.positional lead then writePositional l.wholeFraction digits exponent
  else writeScientific digits lead

def write (l : Layout) {f : Format} : Binary f → List Char
  | .nan => "NaN".toList
  | .number negative rank _ =>
    let sign := if negative then ['-'] else []
    sign ++ if rank = f.top then "inf".toList else l.writeMagnitude f rank

end Layout

def Binary.text {f : Format} (b : Binary f) : String := String.ofList (Layout.plain.write b)

end Intake.Numeral
