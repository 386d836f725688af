/-!
# Punycode

Reading texts beyond ASCII from their form in ASCII. The part before the last
hyphen is copied; the digits after it tell which characters to insert where, in
numbers of variable length.
-/

namespace Intake.Url.Punycode

/-- The value of a digit: letters from 0, then decimal digits from 26. -/
def digitValue? (c : Char) : Option Nat :=
  if 'a' ≤ c ∧ c ≤ 'z' then some (c.toNat - 'a'.toNat)
  else if c.isDigit then some (c.toNat - '0'.toNat + 26)
  else none

/-- A digit below this one ends a number. -/
def threshold (place bias : Nat) : Nat :=
  if place ≤ bias then 1 else min 26 (place - bias)

/-- Scales a difference down until it is small, and counts the steps; each divides by 35. -/
def scaleDown (delta : Nat) : Nat × Nat :=
  if 455 < delta then
    let (small, steps) := scaleDown (delta / 35)
    (small, steps + 1)
  else (delta, 0)
termination_by delta
decreasing_by omega

/-- The bias for the next number, from the number just read and the length of the text. -/
def adapt (delta length : Nat) (first : Bool) : Nat :=
  let delta := if first then delta / 700 else delta / 2
  let (small, steps) := scaleDown (delta + delta / length)
  steps * 36 + 36 * small / (small + 38)

/-- What has been read: the text, the character of the last insertion and the place after it,
and the number that is being read. -/
structure State where
  text : List Char
  code : Nat
  place : Nat
  bias : Nat
  /-- The number so far. -/
  delta : Nat
  weight : Nat
  /-- The place of the next digit, counted up by 36; at 36 no number has been started. -/
  digitPlace : Nat

def State.step (s : State) (digit : Nat) : Option State :=
  let delta := s.delta + digit * s.weight
  let t := threshold s.digitPlace s.bias
  if t ≤ digit then
    some { s with delta := delta, weight := s.weight * (36 - t), digitPlace := s.digitPlace + 36 }
  else
    let length := s.text.length + 1
    let code := s.code + (s.place + delta) / length
    let place := (s.place + delta) % length
    if code.isValidChar then
      some
        { text := s.text.take place ++ Char.ofNat code :: s.text.drop place
          code := code
          place := place + 1
          bias := adapt delta length (s.place == 0)
          delta := 0
          weight := 1
          digitPlace := 36 }
    else none

def decode (cs : List Char) : Option (List Char) := do
  let tail := (cs.reverse.takeWhile (· ≠ '-')).reverse
  let copied := cs.take (cs.length - tail.length - 1)
  let digits ← (if copied.isEmpty then cs else tail).mapM digitValue?
  let s ← digits.foldlM State.step ⟨copied, 128, 0, 72, 0, 1, 36⟩
  if s.digitPlace = 36 then some s.text else none

end Intake.Url.Punycode
