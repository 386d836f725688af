import Intake.Text.Segments

/-!
# Names

Leaf names and dotted qualified names, and the errors that a definition can
contain.
-/

namespace Intake

open Text (segments)

def isSeparator (c : Char) : Bool := c == '.' || c == '#' || c == '[' || c == ']'

/-- A name that is one part of a path. -/
def IsLeafName (name : String) : Prop := name ≠ "" ∧ ∀ c ∈ name.toList, isSeparator c = false

instance (name : String) : Decidable (IsLeafName name) :=
  @instDecidableAnd _ _ inferInstance (List.decidableBAll _ name.toList)

/-- A dotted name all of whose segments are leaf names. -/
def IsQualifiedName (name : String) : Prop :=
  ∀ segment ∈ (segments name).1 :: (segments name).2, IsLeafName segment

instance (name : String) : Decidable (IsQualifiedName name) := by
  unfold IsQualifiedName; infer_instance

inductive NameFault where
  | empty
  | separator
  | segment
  deriving DecidableEq, Repr

def NameFault.text : NameFault → String
  | .empty => "name must not be empty"
  | .separator => "name must not contain '.', '#', '[' or ']'"
  | .segment => "qualified name segments must be non-empty and free of '#', '[' and ']'"

inductive DefinitionError where
  | invalidName (name : String) (fault : NameFault)
  | duplicateField (name : String)
  | duplicateQualifiedName (name : String)
  | duplicateConstraint (field constraint : String)
  deriving DecidableEq, Repr

def DefinitionError.message : DefinitionError → String
  | .invalidName name fault => s!"invalid name '{name}': {fault.text}"
  | .duplicateField name => s!"duplicate field '{name}'"
  | .duplicateQualifiedName name => s!"duplicate qualified name '{name}'"
  | .duplicateConstraint field constraint =>
    s!"duplicate validator '{constraint}' for field '{field}'"

def checkLeafName (name : String) : Except DefinitionError (PLift (IsLeafName name)) :=
  if h : IsLeafName name then .ok ⟨h⟩
  else .error (.invalidName name (if name = "" then .empty else .separator))

def checkQualifiedName (name : String) : Except DefinitionError (PLift (IsQualifiedName name)) :=
  if h : IsQualifiedName name then .ok ⟨h⟩ else .error (.invalidName name .segment)

def firstRepeated : List String → Option String := go []
where
  go (seen : List String) : List String → Option String
    | [] => none
    | s :: rest => if s ∈ seen then some s else go (s :: seen) rest

/-- A list has no repeated text exactly if all its texts are distinct. -/
theorem firstRepeated_eq_none_iff (l : List String) : firstRepeated l = none ↔ l.Nodup := by
  suffices h : ∀ seen : List String,
      firstRepeated.go seen l = none ↔ l.Nodup ∧ ∀ s ∈ l, s ∉ seen by
    rw [firstRepeated, h]
    simp
  induction l with
  | nil => simp [firstRepeated.go]
  | cons s rest ih =>
    intro seen
    rw [firstRepeated.go]
    split
    · next h => simp [h]
    · next h =>
      rw [ih, List.nodup_cons]
      constructor
      · rintro ⟨hn, hs⟩
        refine ⟨⟨fun hm => hs s hm (by simp), hn⟩, ?_⟩
        intro t ht
        rcases List.mem_cons.mp ht with rfl | ht
        · exact h
        · exact fun hm => hs t ht (by simp [hm])
      · rintro ⟨⟨hs, hn⟩, ha⟩
        refine ⟨hn, fun t ht hm => ?_⟩
        rcases List.mem_cons.mp hm with rfl | hm
        · exact hs ht
        · exact ha t (by simp [ht]) hm

end Intake
