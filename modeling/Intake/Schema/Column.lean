import Intake.Constraint
import Intake.Schema.Name

/-!
# Columns

A column of a table under the name that a view gives it, with the constraints on
its values.
-/

namespace Intake

structure Column (kind : Kind) where
  table : String
  column : String
  view : String
  constraints : List (Constraint kind)
  table_ok : IsLeafName table
  column_ok : IsLeafName column
  view_ok : IsLeafName view

namespace Column

variable {kind : Kind}

def of (kind : Kind) (table column view : String) : Except DefinitionError (Column kind) := do
  let ⟨table_ok⟩ ← checkLeafName table
  let ⟨column_ok⟩ ← checkLeafName column
  let ⟨view_ok⟩ ← checkLeafName view
  return ⟨table, column, view, [], table_ok, column_ok, view_ok⟩

def withConstraint (c : Column kind) (constraint : Constraint kind) : Column kind :=
  { c with constraints := c.constraints ++ [constraint] }

def qualifiedName (c : Column kind) : String := Text.joinDots c.table [c.column, c.view]

end Column

end Intake
