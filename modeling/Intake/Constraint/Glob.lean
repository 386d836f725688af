/-!
# Glob patterns

Patterns over whole texts: `?` for one character, `*` for any characters, `**`
as a whole component for any components, and classes in brackets. All other
characters stand for themselves.
-/

namespace Intake

namespace Glob

/-- A part of a pattern. Classes are lists of ranges that include their ends. -/
inductive Token where
  | char (c : Char)
  | anyChar
  | oneOf (ranges : List (Char × Char))
  | noneOf (ranges : List (Char × Char))
  | anySequence
  | anyComponents
  deriving DecidableEq, Repr

inductive Reason where
  | invalidRange
  | tooManyStars
  | partOfComponent
  deriving DecidableEq, Repr

def Reason.text : Reason → String
  | .invalidRange => "invalid range pattern"
  | .tooManyStars => "wildcards are either regular `*` or recursive `**`"
  | .partOfComponent => "recursive wildcards must form a single path component"

/-- What is wrong with a pattern, and where: characters from its start. -/
structure Fault where
  position : Nat
  reason : Reason
  deriving DecidableEq, Repr

def Fault.message (f : Fault) : String :=
  s!"Pattern syntax error near position {f.position}: {f.reason.text}"

/-- The ranges of a class. A hyphen between two characters makes a range of them. -/
def ranges : List Char → List (Char × Char)
  | a :: '-' :: b :: rest => (a, b) :: ranges rest
  | c :: rest => (c, c) :: ranges rest
  | [] => []

/-- Splits a text at the first closing bracket after its first character. -/
def splitClass : List Char → Option (List Char × List Char)
  | [] => none
  | first :: rest =>
    match rest.dropWhile (· ≠ ']') with
    | [] => none
    | _ :: after => some (first :: rest.takeWhile (· ≠ ']'), after)

theorem splitClass_length {cs body after : List Char} (h : splitClass cs = some (body, after)) :
    after.length < cs.length := by
  cases cs with
  | nil => simp [splitClass] at h
  | cons first rest =>
    have hd := (List.dropWhile_sublist (· ≠ ']') (l := rest)).length_le
    simp only [splitClass] at h
    split at h
    · simp at h
    · next c tail e =>
      simp only [Option.some.injEq, Prod.mk.injEq] at h
      rw [e, List.length_cons] at hd
      rw [List.length_cons, ← h.2]
      omega

/-- Reads one part of a pattern. `opens` tells whether a component starts here. -/
def readToken (position : Nat) (opens : Bool) (c : Char) (cs : List Char) :
    Except Fault (Token × { rest : List Char // rest.length < (c :: cs).length }) :=
  if c = '?' then .ok (.anyChar, ⟨cs, by simp⟩)
  else if c = '*' then
    match cs with
    | '*' :: '*' :: _ => .error ⟨position + 2, .tooManyStars⟩
    | '*' :: rest =>
      if !opens then .error ⟨position - 1, .partOfComponent⟩
      else match rest with
        | [] => .ok (.anyComponents, ⟨[], by simp⟩)
        | '/' :: after => .ok (.anyComponents, ⟨after, by simp; omega⟩)
        | _ => .error ⟨position + 2, .partOfComponent⟩
    | cs => .ok (.anySequence, ⟨cs, by simp⟩)
  else if c = '[' then
    match cs with
    | '!' :: members =>
      match h : splitClass members with
      | some (body, after) =>
        .ok (.noneOf (ranges body), ⟨after, by have := splitClass_length h; simp; omega⟩)
      | none => .error ⟨position, .invalidRange⟩
    | members =>
      match h : splitClass members with
      | some (body, after) =>
        .ok (.oneOf (ranges body), ⟨after, by have := splitClass_length h; simp; omega⟩)
      | none => .error ⟨position, .invalidRange⟩
  else .ok (.char c, ⟨cs, by simp⟩)

/-- Reads a pattern from a position on. A component starts after a slash. -/
def readTokens (position : Nat) (opens : Bool) : List Char → Except Fault (List Token)
  | [] => .ok []
  | c :: cs =>
    match readToken position opens c cs with
    | .error fault => .error fault
    | .ok (token, ⟨rest, _⟩) =>
      let read := (c :: cs).length - rest.length
      let opens' := ((c :: cs)[read - 1]?) == some '/'
      (readTokens (position + read) opens' rest).map (token :: ·)
termination_by cs => cs.length
decreasing_by assumption

/-! ### Matching -/

def inRanges (ranges : List (Char × Char)) (c : Char) : Bool :=
  ranges.any fun (low, high) => decide (low ≤ c) && decide (c ≤ high)

def Token.accepts : Token → Char → Bool
  | .char c, c' => c' == c
  | .anyChar, _ => true
  | .oneOf ranges, c => inRanges ranges c
  | .noneOf ranges, c => !inRanges ranges c
  | .anySequence, _ | .anyComponents, _ => false

/-- What follows a run of any characters matches a rest of a text if it matches this rest or a
later one. -/
def rowAfterSequence : List Bool → List Bool
  | [] => []
  | here :: row =>
    let later := rowAfterSequence row
    (here || later.headD false) :: later

/-- What follows components matches a rest of a text if it matches the text after a slash in it,
or its end. -/
def rowAfterComponents : List Char → List Bool → List Bool
  | c :: cs, _ :: row =>
    let later := rowAfterComponents cs row
    ((c == '/' && row.headD false) || later.headD false) :: later
  | _, row => row

/-- Puts a part before others. A row tells for each rest of a text, the whole of it first and its
end last, whether parts match it. -/
def Token.rowBefore (cs : List Char) (row : List Bool) : Token → List Bool
  | .anySequence => rowAfterSequence row
  | .anyComponents => List.zipWith or row (rowAfterComponents cs row)
  | token => List.zipWith (fun c next => token.accepts c && next) cs (row.drop 1) ++ [false]

/-- Whether parts match a whole text; no parts at all match only its end. -/
def matchesTokens (tokens : List Token) (cs : List Char) : Bool :=
  (tokens.foldr (fun token row => token.rowBefore cs row) (cs.map (fun _ => false) ++ [true])).headD
    false

end Glob

structure Glob where
  text : String
  tokens : List Glob.Token
  deriving DecidableEq, Repr

namespace Glob

def read (text : String) : Except Fault Glob :=
  (readTokens 0 true text.toList).map (Glob.mk text)

def accepts (g : Glob) (s : String) : Bool := matchesTokens g.tokens s.toList

end Glob

end Intake
