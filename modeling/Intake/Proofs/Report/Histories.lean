import Intake.Proofs.Entries
import Intake.Proofs.Report.Listing
import Intake.Proofs.Text.ByteOrder
import Intake.Text.Segments
import Mathlib.Data.List.Dedup

/-!
# Histories of reports

A report is collected from violations, gets violations added and other reports merged into it, any
number of times. However it was made, it has for each path the violation that was written last,
and lists the paths in the order of their bytes. Merging writes one entry for each entry of the
part and no other.
-/

namespace Intake

/-! ### Texts of objects -/

theorem Json.write_object (members : List (String × Json)) :
    (Json.object members).write = '\x7b' ::
      [','].intercalate (members.map fun m => Json.writeString m.1 ++ ':' :: m.2.write) ++
        ['\x7d'] := by
  have later : ∀ rest : List (String × Json), Json.writeMembers rest =
      (rest.map fun m => Json.writeString m.1 ++ ':' :: m.2.write).flatMap (',' :: ·) ++
        ['\x7d'] := by
    intro rest
    induction rest with
    | nil => rfl
    | cons m rest ih =>
      rw [Json.writeMembers, ih]
      simp
  cases members with
  | nil => rfl
  | cons m rest =>
    show '\x7b' :: Json.writeString m.1 ++ ':' :: m.2.write ++ Json.writeMembers rest = _
    rw [later, List.map_cons, Text.intercalate_eq_flatMap]
    simp

namespace Report

open Entries (LastWrite lookup)

/-! ### Additions and merges -/

theorem injective_joinPath (whole : String) : (joinPath whole).Injective := by
  intro p q same
  by_cases outermost : whole = ""
  · simpa [joinPath, outermost] using same
  · exact joinPath_injective outermost same

theorem joinPath_empty (whole : String) : joinPath whole "" = whole := by
  unfold joinPath
  split
  · next outermost => exact outermost.symm
  · rfl

theorem lookup_entriesWithin (whole : String) (part : Report) (q : String) :
    lookup (joinPath whole q) (part.entriesWithin whole).reverse = part.get? q := by
  rw [entriesWithin, ← List.map_reverse]
  have renamed := Entries.lookup_map_of_injective (injective_joinPath whole) q part.entries.reverse
  exact renamed.trans (Entries.lookup_reverse part.violations.nodup_keys q)

/-- Merging writes the entries of a part under their paths within the whole. -/
theorem get?_mergeNested (r part : Report) (whole q : String) :
    (r.mergeNested whole part).get? (joinPath whole q) =
      ((part.get? q).map (·.withField (joinPath whole q))).or (r.get? (joinPath whole q)) := by
  rw [mergeNested, get?_addAll_eq, lookup_entriesWithin]

theorem get?_mergeNested_other {part : Report} {whole p : String}
    (other : ∀ q ∈ part.paths, joinPath whole q ≠ p) (r : Report) :
    (r.mergeNested whole part).get? p = r.get? p := by
  have none : lookup p (part.entriesWithin whole).reverse = none := by
    rw [entriesWithin, ← List.map_reverse]
    apply Entries.lookup_map_of_ne
    intro q hq
    rw [List.map_reverse, List.mem_reverse] at hq
    exact other q hq
  rw [mergeNested, get?_addAll_eq, none]
  rfl

theorem mem_paths_iff (r : Report) (p : String) : p ∈ r.paths ↔ ∃ v, r.get? p = some v := by
  have absent : r.get? p = none ↔ p ∉ r.paths := Entries.lookup_eq_none_iff p r.entries
  rw [← not_iff_not, ← absent, Option.eq_none_iff_forall_ne_some, not_exists]

/-! ### Histories -/

/-- How a report is made: from some violations at first, then by adding violations and by merging
reports that are made in the same way. -/
inductive History where
  | collected (items : List (String × Violation))
  | add (before : History) (path : String) (v : Violation)
  | merge (before : History) (whole : String) (part : History)

namespace History

def report : History → Report
  | collected items => ofList items
  | add before path v => before.report.add path v
  | merge before whole part => before.report.mergeNested whole part.report

/-- All that is written, in order and with the paths within the whole, whether or not it is
written over. -/
def writes : History → List (String × Violation)
  | collected items => items
  | add before path v => before.writes ++ [(path, v)]
  | merge before whole part =>
    before.writes ++ part.writes.map fun write => (joinPath whole write.1, write.2)

theorem get?_report (h : History) (p : String) :
    h.report.get? p = (lookup p h.writes.reverse).map (·.withField p) := by
  induction h generalizing p with
  | collected items =>
    rw [report, ofList, get?_addAll_eq, get?_empty, Option.or_none, writes]
  | add before path v ih =>
    rw [report, get?_add, ih, writes, List.reverse_concat, lookup]
    by_cases same : path = p
    · simp [same]
    · simp [same]
  | merge before whole part ihBefore ihPart =>
    rw [report, writes, List.reverse_append, Entries.lookup_append, Option.map_or,
      ← List.map_reverse]
    by_cases within : ∃ q, joinPath whole q = p
    · obtain ⟨q, rfl⟩ := within
      rw [get?_mergeNested, ihPart, ihBefore,
        Entries.lookup_map_of_injective (injective_joinPath whole), Option.map_map]
      rfl
    · have other : ∀ q, joinPath whole q ≠ p := fun q same => within ⟨q, same⟩
      rw [get?_mergeNested_other fun q _ => other q, ihBefore,
        Entries.lookup_map_of_ne fun q _ => other q]
      rfl

/-- What a report has under a path is what was written there last, with the path for its field. -/
theorem get?_report_eq_some_iff (h : History) (p : String) (w : Violation) :
    h.report.get? p = some w ↔
      ∃ v, LastWrite h.writes p v ∧ w = ⟨v.code, v.message, some p, v.params⟩ := by
  rw [get?_report, Option.map_eq_some_iff]
  constructor
  · rintro ⟨v, found, rfl⟩
    exact ⟨v, (Entries.lastWrite_iff _ _ _).mpr found, rfl⟩
  · rintro ⟨v, last, rfl⟩
    exact ⟨v, (Entries.lastWrite_iff _ _ _).mp last, rfl⟩

theorem mem_paths_report (h : History) (p : String) :
    p ∈ h.report.paths ↔ p ∈ h.writes.map Prod.fst := by
  have absent := Entries.lookup_reverse_eq_none_iff p h.writes
  rw [mem_paths_iff, ← not_iff_not, ← absent, not_exists, ← Option.eq_none_iff_forall_ne_some,
    get?_report, Option.map_eq_none_iff]

theorem size_report (h : History) :
    h.report.size = (h.writes.map Prod.fst).dedup.length := by
  have distinct : h.report.paths.Nodup := h.report.violations.nodup_keys
  have same : h.report.paths.Perm (h.writes.map Prod.fst).dedup := by
    rw [List.perm_ext_iff_of_nodup distinct (List.nodup_dedup _)]
    intro p
    rw [h.mem_paths_report, List.mem_dedup]
  rw [← same.length_eq]
  exact (List.length_map _).symm

end History

/-! ### Lists of paths -/

theorem entries_pairwise_utf8 (r : Report) :
    r.entries.Pairwise fun a b => Text.utf8 a.1 < Text.utf8 b.1 :=
  r.violations.sorted.imp (Text.lt_iff_utf8_lt _ _).mp

/-- The text has a line for each entry below the header. -/
theorem text_eq (r : Report) :
    r.text = "\n".intercalate
      (header :: r.entries.map fun e => "- " ++ e.1 ++ ": " ++ e.2.message) := by
  have line : ∀ e : String × Violation,
      s!"\n- {e.1}: {e.2.message}" = "\n" ++ ("- " ++ e.1 ++ ": " ++ e.2.message) := by
    intro e
    rw [show "\n- " = "\n" ++ "- " from rfl]
    simp only [toString, String.append_assoc]
  rw [Text.intercalate_eq_join, List.map_map]
  unfold text
  simp only [line]
  rfl

theorem write_toJson (r : Report) :
    r.toJson.write = '\x7b' ::
      [','].intercalate
        (r.entries.map fun e => Json.writeString e.1 ++ ':' :: Json.writeString e.2.message) ++
          ['\x7d'] := by
  rw [toJson, Json.write_object, List.map_map]
  rfl

/-- Whatever was added, merged or collected, a report has under each path what was written there
last, with the path for its field, and an entry for each path that was written and no other. The
entries, the paths, the lines of the text and the members of the JSON text stand in the order of
the bytes of the paths. Merging writes different entries for different entries of the part, and
leaves all others as they were. -/
theorem history_exact :
    (∀ h : History,
      (∀ p w, h.report.get? p = some w ↔
        ∃ v, LastWrite h.writes p v ∧ w = ⟨v.code, v.message, some p, v.params⟩) ∧
      h.report.size = (h.writes.map Prod.fst).dedup.length ∧
      (∀ p, p ∈ h.report.paths ↔ p ∈ h.writes.map Prod.fst) ∧
      (∀ p w, (p, w) ∈ h.report.entries ↔ h.report.get? p = some w) ∧
      (h.report.entries.Pairwise fun a b => Text.utf8 a.1 < Text.utf8 b.1) ∧
      h.report.paths = h.report.entries.map Prod.fst ∧
      h.report.text = "\n".intercalate
        (header :: h.report.entries.map fun e => "- " ++ e.1 ++ ": " ++ e.2.message) ∧
      h.report.toJson.write = '\x7b' :: [','].intercalate
        (h.report.entries.map fun e =>
          Json.writeString e.1 ++ ':' :: Json.writeString e.2.message) ++ ['\x7d']) ∧
    ∀ (r part : Report) (whole : String),
      let written := part.paths.map (joinPath whole)
      (joinPath whole).Injective ∧ joinPath whole "" = whole ∧
      written.Nodup ∧ written.length = part.size ∧
      (∀ q v, part.get? q = some v → (r.mergeNested whole part).get? (joinPath whole q) =
        some ⟨v.code, v.message, some (joinPath whole q), v.params⟩) ∧
      ∀ p, p ∉ written → (r.mergeNested whole part).get? p = r.get? p := by
  refine ⟨?history, ?merge⟩
  case history =>
    intro h
    exact ⟨h.get?_report_eq_some_iff, h.size_report, h.mem_paths_report, h.report.mem_entries_iff,
      h.report.entries_pairwise_utf8, rfl, h.report.text_eq, h.report.write_toJson⟩
  case merge =>
    intro r part whole written
    have injective := injective_joinPath whole
    have length : written.length = part.size := by
      simp [written, paths, size, SortedMap.keys, SortedMap.size]
    refine ⟨injective, joinPath_empty whole, part.violations.nodup_keys.map injective, length,
      ?_, ?_⟩
    · intro q v found
      rw [get?_mergeNested, found]
      rfl
    · intro p other
      exact get?_mergeNested_other (fun q hq same => other (List.mem_map.mpr ⟨q, hq, same⟩)) r

/-- A part with a violation of its own and one of a member, merged over a violation of the same
member. -/
def sampleHistory : History :=
  (History.collected [("user.mail", .custom "missing")]).merge "user"
    (.collected [("mail", .custom "too long"), ("", .custom "incomplete")])

theorem history_exact_sampleHistory :
    let part := ofList [("mail", .custom "too long"), ("", .custom "incomplete")]
    sampleHistory.report.get? "user.mail" = some ⟨"custom", "too long", some "user.mail", []⟩ ∧
      sampleHistory.report.size = 2 ∧
      part.get? "" = some ⟨"custom", "incomplete", some "", []⟩ ∧
      (empty.mergeNested "user" part).get? "user" =
        some ⟨"custom", "incomplete", some "user", []⟩ ∧
      (empty.mergeNested "user" part).get? "mail" = none := by
  intro part
  obtain ⟨histories, merges⟩ := history_exact
  obtain ⟨last, size, -⟩ := histories sampleHistory
  obtain ⟨-, root, -, -, merged, others⟩ := merges empty part "user"
  have whole : part.get? "" = some ⟨"custom", "incomplete", some "", []⟩ := by decide
  refine ⟨?_, ?_, whole, ?_, ?_⟩
  · refine (last _ _).mpr ⟨.custom "too long", ?_, rfl⟩
    exact ⟨[("user.mail", .custom "missing")], [("user", .custom "incomplete")], rfl, by decide⟩
  · rw [size]
    decide
  · have found := merged "" _ whole
    rwa [root] at found
  · exact others "mail" (by decide)

end Report

end Intake
