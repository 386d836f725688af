import Intake.Violation

/-!
# Character classes

Four fixed classes of ASCII characters, and constraints on which of them occur
in a text.
-/

namespace Intake

inductive CharClass where
  | lower
  | upper
  | digit
  | special
  deriving DecidableEq, Repr

namespace CharClass

def specialChars : List Char := "!@#$%^&*()_+-=[]\x7b\x7d|;':\",./<>?".toList

def contains : CharClass → Char → Bool
  | .lower, c => c.isLower
  | .upper, c => c.isUpper
  | .digit, c => c.isDigit
  | .special, c => specialChars.contains c

def text : CharClass → String
  | .lower => "lower case characters"
  | .upper => "upper case characters"
  | .digit => "numbers"
  | .special => "special characters"

end CharClass

inductive CharsetRule where
  /-- Every character is in a class. -/
  | onlyContains
  /-- Some character is in a class. -/
  | containsAny
  /-- Every class has a character. -/
  | containsAll
  /-- No character is in a class. -/
  | notContains
  deriving DecidableEq, Repr

namespace CharsetRule

def name : CharsetRule → String
  | .onlyContains => "only_contains"
  | .containsAny => "contains_any"
  | .containsAll => "contains_all"
  | .notContains => "not_contains"

def demand : CharsetRule → String
  | .onlyContains => "must only contain"
  | .containsAny => "must contain at least one of"
  | .containsAll => "must contain all of"
  | .notContains => "must not contain"

def allows (r : CharsetRule) (classes : List CharClass) (cs : List Char) : Bool :=
  let within (c : Char) : Bool := classes.any (·.contains c)
  match r with
  | .onlyContains => cs.all within
  | .containsAny => cs.any within
  | .containsAll => classes.all fun k => cs.any k.contains
  | .notContains => !cs.any within

def violation (r : CharsetRule) (classes : List CharClass) : Violation :=
  let described := ", ".intercalate (classes.map (·.text))
  (Violation.of r.name s!"Value {r.demand} {described}").withParam "charset" described

end CharsetRule

end Intake
