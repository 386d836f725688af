import Intake.SortedMap
import Intake.Value

/-!
# Flat views of objects

The values inside an object that are not objects themselves, by their dotted
paths.
-/

namespace Intake

/-- The path of an entry of the object at a path; the outermost object has the empty path. -/
def entryPath (path key : String) : String := if path = "" then key else path ++ "." ++ key

mutual

/-- The values at and below a path that are no objects. -/
def Value.leaves (path : String) : Value → List (String × Value)
  | .object o => o.leaves path
  | .scalar kind a => [(path, .scalar kind a)]
  | .array items => [(path, .array items)]

def Object.leaves (path : String) : Object → List (String × Value)
  | ⟨entries⟩ => leavesOfEntries path entries

def leavesOfEntries (path : String) : List (String × Value) → List (String × Value)
  | [] => []
  | (key, value) :: rest => value.leaves (entryPath path key) ++ leavesOfEntries path rest

end

/-- The values inside an object that are no objects, by path; of two at one path the later. -/
def Object.flatten (o : Object) : SortedMap Value := .ofList (o.leaves "")

end Intake
