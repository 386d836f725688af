import Mathlib.Data.String.Basic

/-!
# The order of texts

Texts are ordered by code points, character by character. This is the order of their bytes in
UTF-8, because a greater character never begins with the bytes of a lesser one, nor with less.
-/

namespace Intake.Text

def utf8 (text : String) : List UInt8 := text.toUTF8.data.toList

theorem utf8_eq (text : String) : utf8 text = text.toList.flatMap String.utf8EncodeChar := by
  rw [utf8, String.toUTF8_eq_toByteArray]
  conv_lhs => rw [← String.ofList_toList (s := text)]
  rw [String.toByteArray_ofList, List.utf8Encode, List.data_toByteArray]

theorem ofNat_cons_lt_iff {a b : Nat} (ha : a < 256) (hb : b < 256) (xs ys : List UInt8) :
    UInt8.ofNat a :: xs < UInt8.ofNat b :: ys ↔ a < b ∨ a = b ∧ xs < ys := by
  rw [List.cons_lt_cons_iff, UInt8.lt_iff_toNat_lt, ← UInt8.toNat_inj, UInt8.toNat_ofNat_of_lt' ha,
    UInt8.toNat_ofNat_of_lt' hb]

/-- A lesser character gives lesser bytes, whatever comes behind it. -/
theorem utf8EncodeChar_append_lt {c d : Char} (less : c < d) (xs ys : List UInt8) :
    String.utf8EncodeChar c ++ xs < String.utf8EncodeChar d ++ ys := by
  have less : c.val.toNat < d.val.toNat := UInt32.lt_iff_toNat_lt.mp less
  have bound : d.val.toNat < 1114112 := by
    rcases d.valid with low | high
    · exact Nat.lt_trans low (by decide)
    · exact high.2
  unfold String.utf8EncodeChar
  generalize c.val.toNat = m at less ⊢
  generalize d.val.toNat = n at less bound ⊢
  dsimp only
  by_cases four : 65535 < m
  · -- Each byte but the first holds six bits: the greater number is greater already without its
    -- last six, or else it is greater in them.
    have bySix : ∀ {m n : Nat}, m < n → m / 64 < n / 64 ∨ m / 64 = n / 64 ∧ m % 64 < n % 64 := by
      omega
    simp (disch := omega) only [if_neg, List.cons_append, List.nil_append, ofNat_cons_lt_iff]
    rcases bySix less with less | ⟨same, last⟩
    · rcases bySix less with less | ⟨same, third⟩
      · rcases bySix less with less | ⟨same, second⟩ <;> omega
      · omega
    · omega
  · repeat' split
    all_goals simp (disch := omega) only [List.cons_append, List.nil_append, ofNat_cons_lt_iff]
    all_goals omega

theorem flatMap_utf8EncodeChar_lt {cs ds : List Char} (less : cs < ds) :
    cs.flatMap String.utf8EncodeChar < ds.flatMap String.utf8EncodeChar := by
  induction ds generalizing cs with
  | nil => exact absurd less (List.not_lt_nil cs)
  | cons d ds ih =>
    cases cs with
    | nil =>
      obtain ⟨b, bs, bytes⟩ := List.exists_cons_of_ne_nil (String.utf8EncodeChar_ne_nil (c := d))
      rw [List.flatMap_cons, bytes]
      exact List.nil_lt_cons _ _
    | cons c cs =>
      rw [List.flatMap_cons, List.flatMap_cons]
      rcases List.cons_lt_cons_iff.mp less with here | ⟨rfl, later⟩
      · exact utf8EncodeChar_append_lt here _ _
      · exact List.append_left_lt (ih later)

/-- Texts are ordered by their bytes. -/
theorem lt_iff_utf8_lt (a b : String) : a < b ↔ utf8 a < utf8 b := by
  rw [String.lt_iff_toList_lt, utf8_eq, utf8_eq]
  refine ⟨flatMap_utf8EncodeChar_lt, fun less => ?_⟩
  rcases lt_trichotomy a.toList b.toList with before | same | behind
  · exact before
  · rw [same] at less
    exact absurd less (List.lt_irrefl _)
  · exact absurd (flatMap_utf8EncodeChar_lt behind) (List.lt_asymm less)

end Intake.Text
