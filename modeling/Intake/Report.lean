import Intake.Json.Writer
import Intake.SortedMap
import Intake.Violation

/-!
# Reports

The violations of a document by path, at most one for each, in the order of the
paths. Each names its path as its field.
-/

namespace Intake

structure Report where
  violations : SortedMap Violation

namespace Report

def empty : Report := ⟨.empty⟩

/-- The report with a violation under a path, in place of an earlier one. -/
def add (r : Report) (path : String) (v : Violation) : Report :=
  ⟨r.violations.insert path (v.withField path)⟩

def addAll (r : Report) (items : List (String × Violation)) : Report :=
  items.foldl (fun r item => r.add item.1 item.2) r

/-- The report of some violations; of two under one path the later counts. -/
def ofList (items : List (String × Violation)) : Report := empty.addAll items

def entries (r : Report) : List (String × Violation) := r.violations.entries

def get? (r : Report) (path : String) : Option Violation := r.violations.find? path

def contains (r : Report) (path : String) : Bool := r.violations.contains path

def paths (r : Report) : List String := r.violations.keys

def size (r : Report) : Nat := r.violations.size

def isEmpty (r : Report) : Bool := r.violations.isEmpty

/-- The path of a part within a whole. An empty path is the whole, or has no whole around it. -/
def joinPath (whole part : String) : String :=
  if whole = "" then part else if part = "" then whole else whole ++ "." ++ part

def entriesWithin (whole : String) (part : Report) : List (String × Violation) :=
  part.entries.map fun (path, v) => (joinPath whole path, v)

def mergeNested (r : Report) (whole : String) (part : Report) : Report :=
  r.addAll (part.entriesWithin whole)

def toResult {α : Type} (r : Report) (value : α) : Except Report α :=
  if r.isEmpty then .ok value else .error r

/-! ### Texts -/

def header : String := "validation failed with the following errors:"

def text (r : Report) : String :=
  header ++ String.join (r.entries.map fun (path, v) => s!"\n- {path}: {v.message}")

/-- The report as a JSON object, the messages by path. -/
def toJson (r : Report) : Json :=
  .object (r.entries.map fun (path, v) => (path, .string v.message))

/-! ### Look-ups -/

@[simp] theorem get?_empty (path : String) : empty.get? path = none := rfl

/-- A report finds the violation added last under a path. -/
theorem get?_add (r : Report) (path p : String) (v : Violation) :
    (r.add path v).get? p = if path = p then some (v.withField path) else r.get? p :=
  r.violations.find?_insert path p (v.withField path)

end Report

end Intake
