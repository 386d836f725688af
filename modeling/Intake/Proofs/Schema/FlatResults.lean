import Intake.Proofs.Schema.Storage
import Intake.Proofs.Value.Leaves

/-!
# Flat views of results

The objects that a strict schema gives have distinct leaf names for keys, at any depth outside of
arrays. So their flat views and the walks along paths tell the same.
-/

namespace Intake

theorem Value.Keyed.hereditary : Value.Hereditary (Value.Keyed IsLeafName) where
  scalar _ _ := .leaf rfl
  array _ _ := .leaf rfl
  storing _ each := .storing each

namespace Schema

theorem Gives.of_validate {P : Value → Prop} {s : Schema} (gives : s.Gives P) {text : String}
    {overlays : List Overlay} {r : Object} (accepted : s.validate text overlays = .ok r) :
    P (.object r) := by
  obtain ⟨_, -, examined⟩ := (s.validate_eq_ok_iff_examine _ _ _).mp accepted
  exact gives _ _ _ _ examined

/-- No leaf of a result is lost in its flat view. -/
theorem flatLossless_of_strict {s : Schema} (strict : s.Everywhere IsStrict) {text : String}
    {overlays : List Overlay} {r : Object} (accepted : s.validate text overlays = .ok r) :
    r.FlatLossless :=
  Object.flatLossless_of_leafNames
    ((gives_of_strict Value.Keyed.hereditary strict).of_validate accepted)

/-- What a flat view of a result has at a path is what is found at the path, so far as that is no
object and not in an array. -/
theorem mem_flatten_iff_get {s : Schema} (strict : s.Everywhere IsStrict) {text : String}
    {overlays : List Overlay} {r : Object} (accepted : s.validate text overlays = .ok r)
    (path : String) (v : Value) :
    (path, v) ∈ r.flatten.entries ↔ v.isObject = false ∧ r.get path = .ok (some v) ∧
      ∀ above, IsAbove above path → ∀ items, r.get above ≠ .ok (some (.array items)) := by
  have named := (gives_of_strict Value.Keyed.hereditary strict).of_validate accepted
  have plain := (gives_of_strict Value.DotFree.hereditary strict).of_validate accepted
  exact Object.mem_flatten_iff named plain path v

theorem mem_flatten_sampleStored :
    let s := sampleStored "t.a" (by decide)
    s.Everywhere IsStrict ∧ ∃ r, s.validate sampleText [] = .ok r ∧
      ("t.a.m", .string "y") ∈ r.flatten.entries ∧ r.get "a.k" = .ok (some (.string "x")) := by
  obtain ⟨-, strict⟩ := sampleStored_everywhere "t.a" (by decide)
  have accepted := validate_sampleStored "t.a" (by decide)
  have found := mem_flatten_iff_get strict accepted "t.a.m" (.string "y")
  have read := mem_flatten_iff_get strict accepted "a.k" (.string "x")
  refine ⟨strict, _, accepted, found.mpr ⟨rfl, rfl, ?_⟩, (read.mp ?_).2.1⟩
  · intro above higher items
    have first : IsAbove above ("t.a" ++ "." ++ "m") := higher
    rcases first.eq_or_isAbove (by decide) with rfl | higher
    · exact fun array => Value.noConfusion (Option.some.inj (Except.ok.inj array))
    have second : IsAbove above ("t" ++ "." ++ "a") := higher
    rcases second.eq_or_isAbove (by decide) with rfl | higher
    · exact fun array => Value.noConfusion (Option.some.inj (Except.ok.inj array))
    · exact absurd higher (not_isAbove_of_dotFree (by decide))
  · exact List.mem_cons_self

end Schema

end Intake
