import Intake.Proofs.Report.Listing
import Intake.Schema.Examine

/-!
# Paths within an input

Every path that is reported for a field begins with the name of the field, and
every path for an item of an array with the path of the item. Names and indices
can be read off such paths, so different fields and items share none.
-/

namespace Intake

/-- A path that is another one, or goes on from it with a separator. -/
def PathWithin (whole path : String) : Prop :=
  ∃ rest : List Char, path.toList = whole.toList ++ rest ∧ ∀ c ∈ rest.head?, isSeparator c = true

namespace PathWithin

theorem refl (path : String) : PathWithin path path := ⟨[], by simp, by simp⟩

theorem trans {a b c : String} (hab : PathWithin a b) (hbc : PathWithin b c) : PathWithin a c := by
  obtain ⟨r, hr, hs⟩ := hab
  obtain ⟨r', hr', hs'⟩ := hbc
  refine ⟨r ++ r', by rw [hr', hr, List.append_assoc], ?_⟩
  cases r with
  | nil => simpa using hs'
  | cons d r => simpa using hs

theorem part (whole part : String) :
    PathWithin whole (if part = "" then whole else whole ++ "." ++ part) := by
  split
  · exact refl whole
  · exact ⟨'.' :: part.toList, by simp, by simp [isSeparator]⟩

theorem joinPath {whole : String} (h : whole ≠ "") (part : String) :
    PathWithin whole (Report.joinPath whole part) := by
  rw [Report.joinPath_of_ne_empty h]
  exact .part whole part

theorem takeWhile_eq {name path : String} (hn : IsLeafName name) (h : PathWithin name path) :
    path.toList.takeWhile (fun c => !isSeparator c) = name.toList := by
  obtain ⟨rest, hr, hs⟩ := h
  rw [hr, List.takeWhile_append_of_pos fun c hc => by simp [hn.2 c hc]]
  cases rest with
  | nil => simp
  | cons d rest => simp [hs d rfl]

theorem name_eq {n m path : String} (hn : IsLeafName n) (hm : IsLeafName m)
    (h : PathWithin n path) (h' : PathWithin m path) : n = m :=
  String.toList_inj.mp ((h.takeWhile_eq hn).symm.trans (h'.takeWhile_eq hm))

end PathWithin

/-! ### Items -/

theorem toList_itemPath (path : String) (index : Nat) :
    (itemPath path index).toList = path.toList ++ '[' :: (Nat.toDigits 10 index ++ [']']) := by
  simp [itemPath, ToString.toString, Nat.toList_repr]

theorem itemPath_ne_empty (path : String) (index : Nat) : itemPath path index ≠ "" := by
  intro h
  have := congrArg String.toList h
  simp [toList_itemPath] at this

theorem pathWithin_itemPath (path : String) (index : Nat) :
    PathWithin path (itemPath path index) :=
  ⟨_, toList_itemPath path index, by simp [isSeparator]⟩

/-- The digits of an index end where its bracket closes. -/
theorem takeWhile_isDigit_toDigits (n : Nat) (rest : List Char) :
    (Nat.toDigits 10 n ++ ']' :: rest).takeWhile Char.isDigit = Nat.toDigits 10 n := by
  rw [List.takeWhile_append_of_pos fun c hc =>
    Nat.isDigit_of_mem_toDigits (by decide) (by decide) hc]
  simp

/-- No path belongs to different items of an array. -/
theorem index_eq_of_pathWithin {path p : String} {i j : Nat} (hi : PathWithin (itemPath path i) p)
    (hj : PathWithin (itemPath path j) p) : i = j := by
  obtain ⟨r, hr, _⟩ := hi
  obtain ⟨r', hr', _⟩ := hj
  have texts := hr.symm.trans hr'
  simp only [toList_itemPath, List.append_assoc, List.cons_append, List.nil_append,
    List.append_cancel_left_eq, List.cons.injEq, true_and] at texts
  have digits := congrArg (List.takeWhile Char.isDigit) texts
  rw [takeWhile_isDigit_toDigits, takeWhile_isDigit_toDigits] at digits
  rw [← Nat.ofDigitChars_toDigits (n := i) (by decide : 1 < 10) (by decide), digits,
    Nat.ofDigitChars_toDigits (by decide) (by decide)]

end Intake
