/-!
# Pieces of texts and dotted names

A text is a first piece and the pieces after it, with a separator between two of
them. The pieces of a dotted name are its segments: `segments` and `joinDots`
are inverse to each other on dot-free segments.
-/

namespace Intake.Text

/-- The piece before the first separator, and the pieces after it. -/
def pieces (sep : Char) : List Char → List Char × List (List Char)
  | [] => ([], [])
  | c :: cs =>
    let (first, rest) := pieces sep cs
    if c = sep then ([], first :: rest) else (c :: first, rest)

/-- All pieces of a text; the empty text has one, which is empty. -/
def allPieces (sep : Char) (cs : List Char) : List (List Char) :=
  (pieces sep cs).1 :: (pieces sep cs).2

/-- The first segment of a dotted name, and the segments after it. -/
def segments (name : String) : String × List String :=
  let (first, rest) := pieces '.' name.toList
  (String.ofList first, rest.map String.ofList)

def joinDots : String → List String → String
  | first, [] => first
  | first, next :: rest => first ++ "." ++ joinDots next rest

/-- What passes ends where something else begins. -/
theorem span_append {p : Char → Bool} {cs : List Char} (passes : ∀ c ∈ cs, p c = true)
    (rest : List Char) (stop : ∀ d ∈ rest.head?, p d = false) :
    (cs ++ rest).takeWhile p = cs ∧ (cs ++ rest).dropWhile p = rest := by
  rw [List.takeWhile_append_of_pos passes, List.dropWhile_append_of_pos passes]
  cases rest with
  | nil => exact ⟨List.append_nil cs, rfl⟩
  | cons d rest =>
    have other : ¬ p d = true := by simp [stop d rfl]
    rw [List.takeWhile_cons_of_neg other, List.dropWhile_cons_of_neg other]
    exact ⟨List.append_nil cs, rfl⟩

theorem span_ne_append {sep : Char} {cs : List Char} (plain : sep ∉ cs) (rest : List Char)
    (stop : ∀ d ∈ rest.head?, d = sep) :
    (cs ++ rest).takeWhile (· ≠ sep) = cs ∧ (cs ++ rest).dropWhile (· ≠ sep) = rest := by
  apply span_append
  · intro c hc
    rw [decide_eq_true_iff]
    rintro rfl
    exact plain hc
  · intro d hd
    simp [stop d hd]

theorem intercalate_eq_join (sep first : String) (rest : List String) :
    sep.intercalate (first :: rest) = first ++ String.join (rest.map (sep ++ ·)) := by
  induction rest generalizing first with
  | nil => simp
  | cons next rest ih =>
    rw [String.intercalate_cons_cons, ih, List.map_cons, String.join_cons]
    simp only [String.append_assoc]

theorem intercalate_eq_flatMap {α : Type} (sep : α) (first : List α) (rest : List (List α)) :
    [sep].intercalate (first :: rest) = first ++ rest.flatMap (sep :: ·) := by
  induction rest generalizing first with
  | nil => simp
  | cons next rest ih =>
    rw [List.intercalate_cons_cons, ih, List.flatMap_cons]
    simp only [List.append_assoc, List.cons_append, List.nil_append]

theorem pieces_of_not_mem (sep : Char) (cs : List Char) (h : sep ∉ cs) :
    pieces sep cs = (cs, []) := by
  induction cs with
  | nil => rfl
  | cons c cs ih =>
    simp only [List.mem_cons, not_or] at h
    simp [pieces, ih h.2, Ne.symm h.1]

theorem pieces_append (sep : Char) (a b : List Char) (h : sep ∉ a) :
    pieces sep (a ++ sep :: b) = (a, allPieces sep b) := by
  induction a with
  | nil => simp [pieces, allPieces]
  | cons c a ih =>
    simp only [List.mem_cons, not_or] at h
    simp [pieces, ih h.2, Ne.symm h.1]

theorem allPieces_eq_splitOn (sep : Char) (cs : List Char) :
    allPieces sep cs = cs.splitOn sep := by
  induction cs with
  | nil => rfl
  | cons c cs ih =>
    rw [List.splitOn_cons_eq_if_modifyHead, ← ih, allPieces, allPieces, pieces]
    by_cases same : c = sep
    · simp [same]
    · simp [same]

theorem allPieces_append (sep : Char) (a b : List Char) :
    allPieces sep (a ++ sep :: b) = allPieces sep a ++ allPieces sep b := by
  rw [allPieces_eq_splitOn, List.splitOn_append_cons_self, ← allPieces_eq_splitOn,
    ← allPieces_eq_splitOn]

theorem not_mem_pieces (sep : Char) (cs : List Char) :
    ∀ piece ∈ allPieces sep cs, sep ∉ piece := by
  rw [allPieces]
  induction cs with
  | nil => simp [pieces]
  | cons c cs ih =>
    rw [pieces]
    simp only [List.forall_mem_cons] at ih
    obtain ⟨first, rest⟩ := ih
    by_cases same : c = sep
    · simpa [same] using ⟨first, rest⟩
    · simpa [same, Ne.symm same] using ⟨first, rest⟩

/-- Splitting undoes joining. -/
theorem segments_joinDots (first : String) (rest : List String) (hf : '.' ∉ first.toList)
    (hr : ∀ s ∈ rest, '.' ∉ s.toList) : segments (joinDots first rest) = (first, rest) := by
  induction rest generalizing first with
  | nil => simp [segments, joinDots, pieces_of_not_mem _ _ hf]
  | cons next rest ih =>
    have ih := ih next (hr next (by simp)) (fun s hs => hr s (by simp [hs]))
    simp only [segments, Prod.mk.injEq] at ih
    simp only [segments, joinDots, String.toList_append]
    rw [show first.toList ++ ".".toList ++ (joinDots next rest).toList =
      first.toList ++ '.' :: (joinDots next rest).toList by simp, pieces_append _ _ _ hf]
    simp [allPieces, ih.1, ih.2]

/-- Joining undoes splitting. -/
theorem joinDots_segments (name : String) :
    joinDots (segments name).1 (segments name).2 = name := by
  suffices h : ∀ cs : List Char, joinDots (String.ofList (pieces '.' cs).1)
      ((pieces '.' cs).2.map String.ofList) = String.ofList cs by
    rw [segments, h, String.ofList_toList]
  intro cs
  induction cs with
  | nil => rfl
  | cons c cs ih =>
    rw [← String.toList_inj, String.toList_ofList] at ih ⊢
    simp only [pieces]
    split
    · next hc => subst hc; simpa [joinDots] using ih
    · cases hs : (pieces '.' cs).2 with
      | nil => simpa [hs, joinDots] using ih
      | cons r rest => simpa [hs, joinDots] using ih

end Intake.Text
