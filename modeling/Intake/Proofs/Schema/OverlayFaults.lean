import Intake.Proofs.Schema.KeyFaults

/-!
# Faults of overlays

What is wrong with the keys of overlays whatever the document is, and when all of it is
told. A document that can be read hides none of it. Where there is none, only the keys
that several overlays have are reported, next to the document itself.
-/

namespace Intake

namespace Schema

inductive OverlayFault (s : Schema) (overlays : List Overlay) (key : String) : Violation → Prop where
  | repeated (twice : 2 ≤ overlays.countP (·.contains key)) :
      s.OverlayFault overlays key ⟨"conflict", s!"duplicated parameter '{key}'", none, []⟩
  | notScalar (text : ∃ overlay ∈ overlays, key ∈ overlay.keys) {f : Field}
      (declared : f ∈ s.fields) (name : f.name = key) (shape : f.isScalar = false) :
      s.OverlayFault overlays key
        ⟨"invalid_parameter", s!"parameter '{key}' is mapped to an embedded object or array", none,
          []⟩
  | unknown (text : ∃ overlay ∈ overlays, key ∈ overlay.keys) (strict : s.permissive = false)
      (undeclared : ∀ f ∈ s.fields, f.name ≠ key) :
      s.OverlayFault overlays key ⟨"unknown_field", s!"unknown parameter '{key}'", none, []⟩

/-- What the entry for a key of overlays may tell: one of its faults, or that the document has the
key as well. -/
inductive KeyProblem (s : Schema) (text : String) (overlays : List Overlay) (key : String) :
    Violation → Prop where
  | overlay {e : Violation} (fault : s.OverlayFault overlays key e) :
      s.KeyProblem text overlays key e
  | shared {document : Document} (read : IsDocument text document)
      (member : key ∈ document.map Prod.fst) :
      s.KeyProblem text overlays key
        ⟨"conflict", s!"duplicate parameter in params and json '{key}'", none, []⟩

/-- Every key at fault in the overlays has an entry of its own that tells a problem of it. -/
def ReportsOverlays (s : Schema) (text : String) (overlays : List Overlay) : Prop :=
  ∀ key, (∃ e, s.OverlayFault overlays key e) → ∃ report e,
    s.validate text overlays = .error report ∧ s.KeyProblem text overlays key e ∧
      report.get? key = some ⟨e.code, e.message, some key, e.params⟩

variable {s : Schema} {text key : String} {document : Document} {overlays : List Overlay}

theorem OverlayFault.given {e : Violation} (fault : s.OverlayFault overlays key e) :
    ∃ overlay ∈ overlays, key ∈ overlay.keys := by
  cases fault with
  | repeated twice => exact given_of_twice twice
  | notScalar text => exact text
  | unknown text => exact text

/-! ### Documents that can be read -/

/-- A key at fault in the overlays is at fault in the input, and with a problem of its own. -/
theorem OverlayFault.keyFault {e : Violation} (fault : s.OverlayFault overlays key e)
    (read : IsDocument text document) :
    ∃ e', s.KeyFault document overlays key e' ∧ s.KeyProblem text overlays key e' := by
  have given := fault.given
  by_cases member : key ∈ document.map Prod.fst
  · exact ⟨_, .shared member given, .shared read member⟩
  by_cases nested : ∃ f ∈ s.fields, f.name = key ∧ f.isScalar = false
  · obtain ⟨f, declared, name, shape⟩ := nested
    exact ⟨_, .notScalar member given declared name shape,
      .overlay (.notScalar given declared name shape)⟩
  by_cases unknown : s.permissive = false ∧ ∀ f ∈ s.fields, f.name ≠ key
  · obtain ⟨strict, undeclared⟩ := unknown
    exact ⟨_, .unknownText member given strict undeclared,
      .overlay (.unknown given strict undeclared)⟩
  cases fault with
  | repeated twice =>
    have scalar : ∀ f ∈ s.fields, f.name = key → f.isScalar = true := by
      intro f declared name
      by_contra shape
      exact nested ⟨f, declared, name, Bool.eq_false_iff.mpr shape⟩
    have known : s.permissive = true ∨ ∃ f ∈ s.fields, f.name = key := by
      by_contra neither
      push Not at neither
      exact unknown ⟨Bool.eq_false_iff.mpr neither.1, neither.2⟩
    exact ⟨_, .repeated member scalar known twice, .overlay (.repeated twice)⟩
  | notScalar _ declared name shape => exact absurd ⟨_, declared, name, shape⟩ nested
  | unknown _ strict undeclared => exact absurd ⟨strict, undeclared⟩ unknown

theorem reportsOverlays_of_document (distinct : s.NamesDistinct) (read : IsDocument text document)
    (overlays : List Overlay) : s.ReportsOverlays text overlays := by
  intro key ⟨e, fault⟩
  obtain ⟨e', keyFault, problem⟩ := fault.keyFault read
  have reported := keyFault.get?_eq distinct
  have nonempty : ¬ (s.structureReport document overlays).isEmpty = true := by
    intro empty
    rw [(Report.isEmpty_iff _).mp empty key] at reported
    cases reported
  have rejected : s.validate text overlays = .error (s.structureReport document overlays) := by
    rw [s.validate_of_document read, if_neg nonempty]
  exact ⟨_, e', rejected, problem, reported⟩

/-! ### Texts without a document -/

theorem validate_of_no_document {v : Violation} (unread : readDocument text = .error v)
    (s : Schema) (overlays : List Overlay) :
    s.validate text overlays = .error ((mergeOverlays overlays).2.add rootPath v) := by
  rw [validate_eq, unread]

theorem get?_add_root (overlays : List Overlay) (v : Violation) :
    ((mergeOverlays overlays).2.add rootPath v).get? rootPath =
      some ⟨v.code, v.message, some rootPath, v.params⟩ := by
  rw [Report.get?_add, if_pos rfl]
  rfl

theorem get?_add_root_other (overlays : List Overlay) (v : Violation) (other : key ≠ rootPath)
    (w : Violation) :
    ((mergeOverlays overlays).2.add rootPath v).get? key = some w ↔
      2 ≤ overlays.countP (·.contains key) ∧
        w = ⟨"conflict", s!"duplicated parameter '{key}'", some key, []⟩ := by
  rw [Report.get?_add, if_neg (Ne.symm other), get?_mergeOverlays]
  split
  · next twice => simp [twice, eq_comm]
  · next once => simp [once]

/-- What is said of a text that is no document is said of no key. -/
theorem code_ne_of_no_document {v e : Violation} (unread : readDocument text = .error v)
    (problem : s.KeyProblem text overlays key e) : v.code ≠ e.code := by
  have ofText : v.code = "type_mismatch" ∨ v.code = "invalid_json" := by
    unfold readDocument at unread
    split at unread
    · cases unread
    · split at unread
      · cases unread
      · exact .inl (Except.error.inj unread ▸ rfl)
      · exact .inr (Except.error.inj unread ▸ rfl)
  have ofKey : e.code = "conflict" ∨ e.code = "invalid_parameter" ∨ e.code = "unknown_field" := by
    cases problem with
    | overlay fault =>
      cases fault with
      | repeated => exact .inl rfl
      | notScalar => exact .inr (.inl rfl)
      | unknown => exact .inr (.inr rfl)
    | shared => exact .inl rfl
  rcases ofText with h | h <;> rcases ofKey with h' | h' | h' <;> rw [h, h'] <;> decide

theorem reportsOverlays_iff_of_no_document {v : Violation} (unread : readDocument text = .error v) :
    s.ReportsOverlays text overlays ↔ ∀ key e, s.OverlayFault overlays key e →
      2 ≤ overlays.countP (·.contains key) ∧ key ≠ rootPath := by
  have rejected := validate_of_no_document unread s overlays
  constructor
  · intro reports key e fault
    obtain ⟨report, e', result, problem, entry⟩ := reports key ⟨e, fault⟩
    obtain rfl := Except.error.inj (rejected.symm.trans result)
    by_cases root : key = rootPath
    · -- The entry there is that of the text.
      subst root
      rw [get?_add_root] at entry
      injection entry with entry
      injection entry with code
      exact (code_ne_of_no_document unread problem code).elim
    · exact ⟨((get?_add_root_other overlays v root _).mp entry).1, root⟩
  · intro covered key ⟨e, fault⟩
    obtain ⟨twice, other⟩ := covered key e fault
    exact ⟨_, _, rejected, .overlay (.repeated twice),
      (get?_add_root_other overlays v other _).mpr ⟨twice, rfl⟩⟩

/-! ### All texts -/

/-- When every key at fault in the overlays is reported. It is where the document can be read, and
otherwise exactly if all of them are keys that several overlays have, the path of the document not
among them. A text that is no document has an entry in any case, which leaves the entries of such
keys as they are. -/
theorem reportsOverlays_iff {s : Schema} (built : s.Built) (text : String)
    (overlays : List Overlay) :
    (s.ReportsOverlays text overlays ↔ (∃ document, IsDocument text document) ∨
      ∀ key e, s.OverlayFault overlays key e →
        2 ≤ overlays.countP (·.contains key) ∧ key ≠ rootPath) ∧
    ∀ v, readDocument text = .error v → ∃ report, s.validate text overlays = .error report ∧
      report.get? rootPath = some ⟨v.code, v.message, some rootPath, v.params⟩ ∧
      ∀ key, key ≠ rootPath → ∀ w, report.get? key = some w ↔
        2 ≤ overlays.countP (·.contains key) ∧
          w = ⟨"conflict", s!"duplicated parameter '{key}'", some key, []⟩ := by
  constructor
  · cases outcome : readDocument text with
    | ok document =>
      have read := (readDocument_eq_ok_iff text document).mp outcome
      have reports := reportsOverlays_of_document built.distinct read overlays
      exact ⟨fun _ => .inl ⟨document, read⟩, fun _ => reports⟩
    | error v =>
      have unread : ¬ ∃ document, IsDocument text document := by
        intro ⟨document, read⟩
        rw [(readDocument_eq_ok_iff text document).mpr read] at outcome
        cases outcome
      rw [reportsOverlays_iff_of_no_document outcome, or_iff_right unread]
  · intro v unread
    exact ⟨_, validate_of_no_document unread s overlays, get?_add_root overlays v,
      fun key other w => get?_add_root_other overlays v other w⟩

theorem sampleSwitch_built : sampleSwitch.Built := by
  refine (built_iff _).mpr (.intro ⟨by decide, by decide⟩ fun f hf t ht => ?_)
  obtain rfl := List.mem_singleton.mp hf
  cases ht

/-- A list is no document, but the one key at fault stands in both overlays. -/
theorem reportsOverlays_sampleSwitch :
    sampleSwitch.Built ∧ readDocument "[]" = .error (.typeMismatch "object" "array") ∧
      sampleSwitch.ReportsOverlays "[]" [.single "on" "1", .single "on" "0"] := by
  refine ⟨sampleSwitch_built, rfl, (reportsOverlays_iff sampleSwitch_built "[]" _).1.mpr (.inr ?_)⟩
  intro key e fault
  obtain ⟨overlay, given, has⟩ := fault.given
  have on : key = "on" := by
    simp only [List.mem_cons, List.not_mem_nil, or_false] at given
    rcases given with rfl | rfl <;> simpa using has
  subst on
  decide

/-- Beside a text that is no document, an unknown key of an overlay is passed over. -/
theorem not_reportsOverlays_sampleSwitch :
    sampleSwitch.Built ∧ ¬ sampleSwitch.ReportsOverlays "[]" [.single "page" "1"] := by
  refine ⟨sampleSwitch_built, fun reports => ?_⟩
  have fault : sampleSwitch.OverlayFault [.single "page" "1"] "page"
      ⟨"unknown_field", "unknown parameter 'page'", none, []⟩ :=
    .unknown ⟨_, List.mem_cons_self, by decide⟩ rfl (by decide)
  obtain ⟨report, e, result, -, entry⟩ := reports "page" ⟨_, fault⟩
  have rejected : sampleSwitch.validate "[]" [.single "page" "1"] =
      .error (Report.empty.add rootPath (.typeMismatch "object" "array")) := rfl
  obtain rfl := Except.error.inj (rejected.symm.trans result)
  cases entry

end Schema

end Intake
