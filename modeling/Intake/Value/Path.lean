import Intake.Text.Segments
import Intake.Value.Misuse

/-!
# Values at paths

A path is a dotted name. In an object an entry whose key is the whole rest of
the path comes first; else the first segment leads to an entry, and the rest of
the path goes on from there. In an array a segment is an index.
-/

namespace Intake

open Text (segments joinDots)

/-- An index into an array: digits, with an optional plus. -/
def readIndex (segment : String) : Option Nat :=
  (Numeral.readUnsigned Numeral.maxUnsigned segment.toList).toOption

namespace Value

def child (v : Value) (segment : String) : Except PathFault (Option Value) :=
  match v with
  | .scalar _ _ => .ok none
  | .object o => .ok (o.find? segment)
  | .array items =>
    match readIndex segment with
    | none => .error (.notAnIndex segment)
    | some index =>
      match items[index]? with
      | none => .error (.outOfBounds index items.length)
      | some item => .ok (some item)

/-- The value of an entry whose key is a whole path. -/
def verbatim? (v : Value) (path : String) : Option Value :=
  match v with
  | .object o => o.find? path
  | _ => none

def walk (v : Value) (first : String) : List String → Except PathFault (Option Value)
  | [] => v.child first
  | next :: rest =>
    match v.verbatim? (joinDots first (next :: rest)) with
    | some found => .ok (some found)
    | none =>
      match v.child first with
      | .error fault => .error fault
      | .ok none => .ok none
      | .ok (some w) => w.walk next rest

end Value

namespace Object

def get (o : Object) (path : String) : Except Misuse (Option Value) :=
  let (first, rest) := segments path
  ((Value.object o).walk first rest).mapError (.badPath · path)

/-- The object with a value under a dotted name. Every segment but the last names an object,
which is created, or takes the place of a value that is no object. -/
def putNested (o : Object) (first : String) (rest : List String) (value : Value) : Object :=
  match rest with
  | [] => o.put first value
  | next :: rest =>
    let inner := match o.find? first with
      | some (.object inner) => inner
      | _ => empty
    o.put first (.object (inner.putNested next rest value))

def putAt (o : Object) (name : String) (value : Value) : Object :=
  let (first, rest) := segments name
  o.putNested first rest value

end Object

end Intake
