import Intake.Proofs.Schema.Columns

/-!
# Drafts of fields

A draft is started from a name or a column, goes through any calls in any order, and is finished.
It makes a field exactly if its names are right and no two of its constraints have one name. What
is wrong is told in this order: the name, the qualified name, the first constraint whose name
repeats an earlier one.
-/

namespace Intake

/-! ### Names by their characters -/

/-- At least one character, and none of those that separate the parts of a path. -/
def IsPlainPart (cs : List Char) : Prop := cs ≠ [] ∧ '.' ∉ cs ∧ '#' ∉ cs ∧ '[' ∉ cs ∧ ']' ∉ cs

theorem isLeafName_iff (name : String) : IsLeafName name ↔ IsPlainPart name.toList := by
  have filled : name ≠ "" ↔ name.toList ≠ [] := by simp
  have plain : (∀ c ∈ name.toList, isSeparator c = false) ↔
      '.' ∉ name.toList ∧ '#' ∉ name.toList ∧ '[' ∉ name.toList ∧ ']' ∉ name.toList := by
    constructor
    · intro each
      refine ⟨?_, ?_, ?_, ?_⟩
      all_goals
        intro found
        exact absurd (each _ found) (by decide)
    · intro ⟨dot, hash, opening, closing⟩ c found
      simp only [isSeparator, Bool.or_eq_false_iff, beq_eq_false_iff_ne]
      refine ⟨⟨⟨?_, ?_⟩, ?_⟩, ?_⟩
      all_goals
        rintro rfl
        contradiction
  rw [IsLeafName, IsPlainPart, filled, plain]

theorem splitOn_eq_pathOf (name : String) :
    name.toList.splitOn '.' = (pathOf name).map String.toList := by
  rw [pathOf_eq_map, Text.allPieces_eq_splitOn]
  simp [Function.comp_def]

theorem isQualifiedName_iff (name : String) :
    IsQualifiedName name ↔ ∀ part ∈ name.toList.splitOn '.', IsPlainPart part := by
  rw [splitOn_eq_pathOf, List.forall_mem_map]
  show (∀ part ∈ pathOf name, IsLeafName part) ↔ _
  simp only [isLeafName_iff]

/-- The scan goes on behind distinct texts until it meets one of those that it has passed. -/
theorem firstRepeated_go_eq_some_iff {before : List String} (distinct : before.Nodup)
    (l : List String) (s : String) :
    firstRepeated.go before.reverse l = some s ↔
      ∃ mid after, l = mid ++ s :: after ∧ (before ++ mid).Nodup ∧ s ∈ before ++ mid := by
  induction l generalizing before with
  | nil => simp [firstRepeated.go]
  | cons t rest ih =>
    rw [firstRepeated.go]
    by_cases again : t ∈ before
    · rw [if_pos (List.mem_reverse.mpr again), Option.some.injEq]
      constructor
      · rintro rfl
        exact ⟨[], rest, rfl, by simpa using distinct, by simpa using again⟩
      · rintro ⟨mid, after, split, apart, -⟩
        cases mid with
        | nil => exact (List.cons.inj split).1
        | cons m mid =>
          obtain ⟨rfl, -⟩ := List.cons.inj split
          exact absurd rfl ((List.nodup_append.mp apart).2.2 t again t List.mem_cons_self)
    · have longer : (before ++ [t]).Nodup := by
        rw [← List.concat_eq_append]
        exact distinct.concat again
      rw [if_neg (mt List.mem_reverse.mp again), ← List.reverse_concat, ih longer]
      constructor
      · rintro ⟨mid, after, rfl, apart, there⟩
        exact ⟨t :: mid, after, rfl, by simpa using apart, by simpa using there⟩
      · rintro ⟨mid, after, split, apart, there⟩
        cases mid with
        | nil =>
          obtain ⟨rfl, -⟩ := List.cons.inj split
          exact absurd (by simpa using there) again
        | cons m mid =>
          obtain ⟨rfl, rfl⟩ := List.cons.inj split
          exact ⟨mid, after, rfl, by simpa using apart, by simpa using there⟩

/-- The first text that repeats an earlier one comes after distinct texts. -/
theorem firstRepeated_eq_some_iff (l : List String) (s : String) :
    firstRepeated l = some s ↔
      ∃ before after, l = before ++ s :: after ∧ before.Nodup ∧ s ∈ before :=
  firstRepeated_go_eq_some_iff List.nodup_nil l s

/-! ### Calls on drafts -/

inductive DraftStart (kind : Kind) where
  | scalar (name : String)
  | array (name : String)
  | ofColumn (column : Column kind) (isArray : Bool)

namespace DraftStart

variable {kind : Kind}

def draft : DraftStart kind → FieldDraft (List (Constraint kind))
  | scalar name => .scalar kind name
  | array name => .array kind name
  | ofColumn column isArray => .ofColumn column isArray

def name : DraftStart kind → String
  | scalar name | array name => name
  | ofColumn column _ => column.view

def qualified? : DraftStart kind → Option String
  | scalar _ | array _ => none
  | ofColumn column _ => some column.qualifiedName

def constraints : DraftStart kind → List (Constraint kind)
  | scalar _ | array _ => []
  | ofColumn column _ => column.constraints

end DraftStart

inductive DraftCall (kind : Kind) where
  | withConstraint (constraint : Constraint kind)
  | qualified (name : String)
  | optional

namespace DraftCall

variable {kind : Kind}

def apply (d : FieldDraft (List (Constraint kind))) :
    DraftCall kind → FieldDraft (List (Constraint kind))
  | withConstraint constraint => d.withConstraint constraint
  | qualified name => d.qualified name
  | optional => d.optional

def constraint? : DraftCall kind → Option (Constraint kind)
  | withConstraint constraint => some constraint
  | qualified _ | optional => none

def qualified? : DraftCall kind → Option String
  | qualified name => some name
  | withConstraint _ | optional => none

def isOptional : DraftCall kind → Bool
  | optional => true
  | withConstraint _ | qualified _ => false

end DraftCall

namespace FieldDraft

variable {kind : Kind} {d : FieldDraft (List (Constraint kind))}

def after (d : FieldDraft (List (Constraint kind))) (calls : List (DraftCall kind)) :
    FieldDraft (List (Constraint kind)) :=
  calls.foldl DraftCall.apply d

theorem after_concat (d : FieldDraft (List (Constraint kind))) (calls : List (DraftCall kind))
    (call : DraftCall kind) : d.after (calls ++ [call]) = call.apply (d.after calls) :=
  List.foldl_concat _ _ _ _

/-- The calls leave the start where they say nothing: the last qualified name counts, and
constraints are added behind those that there are. -/
theorem after_eq (d : FieldDraft (List (Constraint kind))) (calls : List (DraftCall kind)) :
    d.after calls =
      { name := d.name
        qualified? := (calls.filterMap DraftCall.qualified?).getLast?.or d.qualified?
        required := d.required && !calls.any DraftCall.isOptional
        isArray := d.isArray
        content := d.content ++ calls.filterMap DraftCall.constraint? } := by
  induction calls using List.reverseRecOn with
  | nil => simp [after]
  | append_singleton calls call ih =>
    rw [after_concat, ih]
    cases call <;>
      simp [DraftCall.apply, withConstraint, qualified, optional, DraftCall.qualified?,
        DraftCall.constraint?, DraftCall.isOptional]

/-! ### Finishing -/

inductive Refused (d : FieldDraft (List (Constraint kind))) : DefinitionError → Prop where
  | name (bad : ¬ IsLeafName d.name) :
      Refused d (.invalidName d.name (if d.name = "" then .empty else .separator))
  | qualified {q : String} (good : IsLeafName d.name) (own : d.qualified? = some q)
      (bad : ¬ IsQualifiedName q) : Refused d (.invalidName q .segment)
  | constraint {before after : List String} {constraint : String} (good : IsLeafName d.name)
      (own : ∀ q ∈ d.qualified?, IsQualifiedName q)
      (names : d.content.map Constraint.name = before ++ constraint :: after)
      (distinct : before.Nodup) (again : constraint ∈ before) :
      Refused d (.duplicateConstraint d.name constraint)

theorem named_of_names {α : Type} {d : FieldDraft α} (good : IsLeafName d.name)
    (own : ∀ q ∈ d.qualified?, IsQualifiedName q) :
    d.named = .ok fun shape => ⟨d.name, d.qualified?, d.required, shape, good, own⟩ := by
  obtain ⟨name, qualified?, required, isArray, content⟩ := d
  have leaf : checkLeafName name = .ok ⟨good⟩ := dif_pos good
  unfold named
  rw [leaf]
  cases qualified? with
  | none => rfl
  | some q =>
    have whole : checkQualifiedName q = .ok ⟨own q rfl⟩ := dif_pos (own q rfl)
    dsimp only [bind, Except.bind]
    rw [whole]
    rfl

theorem build_of_named_eq_error {e : DefinitionError} (h : d.named = .error e) :
    d.build = .error e := by
  unfold build
  rw [h]
  rfl

/-- A draft without any fault makes its field. -/
theorem build_of_distinct (good : IsLeafName d.name) (own : ∀ q ∈ d.qualified?, IsQualifiedName q)
    (distinct : (d.content.map Constraint.name).Nodup) :
    d.build = .ok ⟨d.name, d.qualified?, d.required,
      if d.isArray then .array ⟨kind, d.content, distinct⟩
      else .scalar ⟨kind, d.content, distinct⟩, good, own⟩ := by
  unfold build
  rw [named_of_names good own]
  simp only [bind, Except.bind]
  split
  · next constraint repeated =>
    rw [(firstRepeated_eq_none_iff _).mpr distinct] at repeated
    cases repeated
  · rfl

theorem build_of_repeated (good : IsLeafName d.name) (own : ∀ q ∈ d.qualified?, IsQualifiedName q)
    {constraint : String} (repeated : firstRepeated (d.content.map Constraint.name) = some constraint) :
    d.build = .error (.duplicateConstraint d.name constraint) := by
  unfold build
  rw [named_of_names good own]
  simp only [bind, Except.bind]
  split
  · next other again =>
    rw [repeated] at again
    rw [Option.some.inj again]
    rfl
  · next none =>
    rw [repeated] at none
    cases none

/-- A draft is refused for what is wrong with it. -/
theorem Refused.build_eq {e : DefinitionError} (refused : d.Refused e) : d.build = .error e := by
  cases refused with
  | name bad =>
    have leaf : checkLeafName d.name = .error _ := dif_neg bad
    apply build_of_named_eq_error
    unfold named
    rw [leaf]
    rfl
  | @qualified q good own bad =>
    have leaf : checkLeafName d.name = .ok ⟨good⟩ := dif_pos good
    have whole : checkQualifiedName q = .error _ := dif_neg bad
    apply build_of_named_eq_error
    unfold named
    rw [leaf, own]
    dsimp only [bind, Except.bind]
    rw [whole]
  | constraint good own names distinct again =>
    exact build_of_repeated good own
      ((firstRepeated_eq_some_iff _ _).mpr ⟨_, _, names, distinct, again⟩)

/-- A draft without any fault is one with right names and constraints of different names. -/
theorem refused_or_sound (d : FieldDraft (List (Constraint kind))) :
    (∃ e, d.Refused e) ∨ IsLeafName d.name ∧ (∀ q ∈ d.qualified?, IsQualifiedName q) ∧
      (d.content.map Constraint.name).Nodup := by
  by_cases good : IsLeafName d.name
  · by_cases own : ∀ q ∈ d.qualified?, IsQualifiedName q
    · cases repeated : firstRepeated (d.content.map Constraint.name) with
      | none => exact .inr ⟨good, own, (firstRepeated_eq_none_iff _).mp repeated⟩
      | some constraint =>
        obtain ⟨before, after, names, distinct, again⟩ := (firstRepeated_eq_some_iff _ _).mp repeated
        exact .inl ⟨_, .constraint good own names distinct again⟩
    · simp only [not_forall] at own
      obtain ⟨q, own, bad⟩ := own
      exact .inl ⟨_, .qualified good own bad⟩
  · exact .inl ⟨_, .name good⟩

theorem build_eq_error_iff (d : FieldDraft (List (Constraint kind))) (e : DefinitionError) :
    d.build = .error e ↔ d.Refused e := by
  refine ⟨fun h => ?_, Refused.build_eq⟩
  rcases d.refused_or_sound with ⟨e', refused⟩ | ⟨good, own, distinct⟩
  · rw [refused.build_eq] at h
    exact Except.error.inj h ▸ refused
  · rw [build_of_distinct good own distinct] at h
    cases h

theorem build_eq_ok_iff (d : FieldDraft (List (Constraint kind))) :
    (∃ f, d.build = .ok f) ↔ IsLeafName d.name ∧ (∀ q ∈ d.qualified?, IsQualifiedName q) ∧
      (d.content.map Constraint.name).Nodup := by
  constructor
  · intro ⟨f, made⟩
    rcases d.refused_or_sound with ⟨e, refused⟩ | sound
    · rw [refused.build_eq] at made
      cases made
    · exact sound
  · intro ⟨good, own, distinct⟩
    exact ⟨_, build_of_distinct good own distinct⟩

theorem constraintNames_of_build {f : Field} (made : d.build = .ok f) :
    f.constraintNames = d.content.map Constraint.name := by
  obtain ⟨-, -, distinct, shape⟩ := build_eq_ok made
  rw [Field.constraintNames, shape]
  cases d.isArray <;> rfl

end FieldDraft

/-! ### Columns -/

namespace Column

variable {kind kind' : Kind} {table column view table' column' view' : String} {c : Column kind}
  {c' : Column kind'}

/-- The columns of three names, with any constraints. -/
inductive Accepted (table column view : String) : Column kind → Prop where
  | of {c : Column kind} (made : of kind table column view = .ok c) : Accepted table column view c
  | withConstraint {c : Column kind} (accepted : Accepted table column view c)
      (constraint : Constraint kind) : Accepted table column view (c.withConstraint constraint)

theorem names_of_eq_ok (made : of kind table column view = .ok c) :
    c.table = table ∧ c.column = column ∧ c.view = view := by
  unfold of at made
  obtain ⟨⟨_⟩, -, made⟩ := bind_eq_ok made
  obtain ⟨⟨_⟩, -, made⟩ := bind_eq_ok made
  obtain ⟨⟨_⟩, -, made⟩ := bind_eq_ok made
  obtain rfl := Except.ok.inj made
  exact ⟨rfl, rfl, rfl⟩

theorem of_eq_ok_iff (kind : Kind) (table column view : String) :
    (∃ c, of kind table column view = .ok c) ↔
      IsLeafName table ∧ IsLeafName column ∧ IsLeafName view := by
  constructor
  · intro ⟨c, made⟩
    obtain ⟨rfl, rfl, rfl⟩ := names_of_eq_ok made
    exact ⟨c.table_ok, c.column_ok, c.view_ok⟩
  · intro ⟨table_ok, column_ok, view_ok⟩
    refine ⟨⟨table, column, view, [], table_ok, column_ok, view_ok⟩, ?_⟩
    unfold of checkLeafName
    rw [dif_pos table_ok, dif_pos column_ok, dif_pos view_ok]
    rfl

theorem Accepted.names (accepted : c.Accepted table column view) :
    c.table = table ∧ c.column = column ∧ c.view = view := by
  induction accepted with
  | of made => exact names_of_eq_ok made
  | withConstraint _ _ ih => exact ih

theorem Accepted.splitOn_qualifiedName (accepted : c.Accepted table column view) :
    c.qualifiedName.toList.splitOn '.' = [table.toList, column.toList, view.toList] := by
  obtain ⟨rfl, rfl, rfl⟩ := accepted.names
  rw [splitOn_eq_pathOf, c.pathOf_qualifiedName]
  rfl

theorem Accepted.names_eq (accepted : c.Accepted table column view)
    (accepted' : c'.Accepted table' column' view') (same : c.qualifiedName = c'.qualifiedName) :
    table = table' ∧ column = column' ∧ view = view' := by
  have parts := accepted.splitOn_qualifiedName
  rw [same, accepted'.splitOn_qualifiedName] at parts
  simpa [String.toList_inj, eq_comm] using parts

theorem isQualifiedName (c : Column kind) : IsQualifiedName c.qualifiedName := by
  show ∀ part ∈ pathOf c.qualifiedName, IsLeafName part
  rw [c.pathOf_qualifiedName]
  simpa using ⟨c.table_ok, c.column_ok, c.view_ok⟩

/-- Nothing is wrong with the names of a field for a column. -/
theorem exists_constraint_of_build_eq_error {isArray : Bool} {e : DefinitionError}
    (refused : (FieldDraft.ofColumn c isArray).build = .error e) :
    ∃ constraint, e = .duplicateConstraint c.view constraint := by
  cases (FieldDraft.build_eq_error_iff _ _).mp refused with
  | name bad => exact absurd c.view_ok bad
  | qualified _ own bad => exact absurd c.isQualifiedName (Option.some.inj own ▸ bad)
  | constraint => exact ⟨_, rfl⟩

end Column

/-! ### What becomes of a draft -/

namespace FieldDraft

variable {kind : Kind}

theorem after_start (start : DraftStart kind) (calls : List (DraftCall kind)) :
    (start.draft.after calls).name = start.name ∧
      (start.draft.after calls).qualified? =
        (calls.filterMap DraftCall.qualified?).getLast?.or start.qualified? ∧
      (start.draft.after calls).content =
        start.constraints ++ calls.filterMap DraftCall.constraint? := by
  rw [after_eq]
  cases start <;> exact ⟨rfl, rfl, rfl⟩

/-- A draft makes a field exactly if its name, and each part of the qualified name it was given
last, is plain and no two of its constraints have one name; the field has the constraints of the
column first, then those that were added, in order. Otherwise, where the names are plain, the
first constraint is refused that repeats the name of an earlier one. The qualified name of a column
is made of its three names and of no others, and a field for a column, without further calls, can
be refused only for its constraints. -/
theorem build_exact (kind : Kind) :
    (∀ (start : DraftStart kind) (calls : List (DraftCall kind)),
      let draft := start.draft.after calls
      let qualified? := (calls.filterMap DraftCall.qualified?).getLast?.or start.qualified?
      let named := IsPlainPart start.name.toList ∧
        ∀ q ∈ qualified?, ∀ part ∈ q.toList.splitOn '.', IsPlainPart part
      let names := (start.constraints ++ calls.filterMap DraftCall.constraint?).map Constraint.name
      ((∃ f, draft.build = .ok f) ↔ named ∧ names.Nodup) ∧
      (∀ f, draft.build = .ok f →
        f.name = start.name ∧ f.qualified? = qualified? ∧ f.constraintNames = names) ∧
      ∀ field constraint, draft.build = .error (.duplicateConstraint field constraint) ↔
        named ∧ field = start.name ∧ ∃ before after, names = before ++ constraint :: after ∧
          before.Nodup ∧ constraint ∈ before) ∧
    (∀ table column view : String, (∃ c, Column.of kind table column view = .ok c) ↔
      IsPlainPart table.toList ∧ IsPlainPart column.toList ∧ IsPlainPart view.toList) ∧
    ∀ (table column view : String) (c : Column kind), c.Accepted table column view →
      c.qualifiedName.toList.splitOn '.' = [table.toList, column.toList, view.toList] ∧
      (∀ (table' column' view' : String) (kind' : Kind) (c' : Column kind'),
        c'.Accepted table' column' view' → c.qualifiedName = c'.qualifiedName →
          table = table' ∧ column = column' ∧ view = view') ∧
      ∀ isArray e, (ofColumn c isArray).build = .error e →
        ∃ constraint, e = .duplicateConstraint view constraint := by
  refine ⟨?draft, ?accepted, ?column⟩
  case draft =>
    intro start calls draft qualified? named names
    obtain ⟨name_eq, qualified_eq, content_eq⟩ := after_start start calls
    have right : named ↔ IsLeafName draft.name ∧ ∀ q ∈ draft.qualified?, IsQualifiedName q := by
      simp only [named, qualified?, ← name_eq, ← qualified_eq, isLeafName_iff, isQualifiedName_iff,
        draft]
    have constraints : draft.content.map Constraint.name = names := congrArg _ content_eq
    refine ⟨?_, ?_, ?_⟩
    · rw [build_eq_ok_iff, right, constraints, and_assoc]
    · intro f made
      obtain ⟨field_name, field_qualified, -⟩ := build_eq_ok made
      exact ⟨field_name.trans name_eq, field_qualified.trans qualified_eq,
        (constraintNames_of_build made).trans constraints⟩
    · intro field constraint
      rw [build_eq_error_iff, right]
      constructor
      · intro refused
        cases refused with
        | constraint good own names_eq distinct again =>
          exact ⟨⟨good, own⟩, name_eq, _, _, constraints.symm.trans names_eq, distinct, again⟩
      · rintro ⟨⟨good, own⟩, rfl, before, after, names_eq, distinct, again⟩
        rw [← name_eq]
        exact .constraint good own (constraints.trans names_eq) distinct again
  case accepted =>
    intro table column view
    rw [Column.of_eq_ok_iff, isLeafName_iff, isLeafName_iff, isLeafName_iff]
  case column =>
    intro table column view c accepted
    refine ⟨accepted.splitOn_qualifiedName, ?_, ?_⟩
    · intro table' column' view' kind' c' accepted' same
      exact accepted.names_eq accepted' same
    · intro isArray e refused
      rw [← accepted.names.2.2]
      exact c.exists_constraint_of_build_eq_error refused

def sampleMail : Column .string :=
  ⟨"people", "post", "inbox", [.email], by decide, by decide, by decide⟩

theorem build_exact_sampleMail :
    let start := DraftStart.ofColumn sampleMail false
    let calls : List (DraftCall .string) := [.withConstraint (.decimal ⟨5, 2⟩), .qualified "m.v"]
    sampleMail.Accepted "people" "post" "inbox" ∧
      sampleMail.qualifiedName.toList.splitOn '.' =
        ["people".toList, "post".toList, "inbox".toList] ∧
      (∃ f, (start.draft.after calls).build = .ok f ∧ f.qualified? = some "m.v" ∧
        f.constraintNames = ["email", "decimal(5,2)"]) ∧
      (start.draft.after (calls ++ [.withConstraint .email])).build =
        .error (.duplicateConstraint "inbox" "email") := by
  intro start calls
  obtain ⟨drafts, -, columns⟩ := build_exact .string
  have made : Column.of .string "people" "post" "inbox" =
      .ok ⟨"people", "post", "inbox", [], by decide, by decide, by decide⟩ := rfl
  have accepted : sampleMail.Accepted "people" "post" "inbox" :=
    (Column.Accepted.of made).withConstraint .email
  have plain : ∀ text ∈ ["inbox", "m", "v"], IsPlainPart text.toList := by
    simp [IsPlainPart]
  have named : ∀ part ∈ "m.v".toList.splitOn '.', IsPlainPart part := by
    rw [show "m.v".toList.splitOn '.' = ["m".toList, "v".toList] by decide]
    simpa using ⟨plain "m" (by simp), plain "v" (by simp)⟩
  have right : IsPlainPart "inbox".toList ∧
      ∀ q ∈ some "m.v", ∀ part ∈ q.toList.splitOn '.', IsPlainPart part :=
    ⟨plain "inbox" (by simp), by simpa using named⟩
  refine ⟨accepted, (columns _ _ _ _ accepted).1, ?_, ?_⟩
  · obtain ⟨builds, told, -⟩ := drafts start calls
    obtain ⟨f, built⟩ := builds.mpr ⟨right, by decide⟩
    obtain ⟨-, qualified, names⟩ := told f built
    exact ⟨f, built, qualified, names⟩
  · obtain ⟨-, -, refused⟩ := drafts start (calls ++ [.withConstraint .email])
    refine (refused "inbox" "email").mpr ⟨right, rfl, ["email", "decimal(5,2)"], [], ?_⟩
    exact ⟨rfl, by decide, by decide⟩

end FieldDraft

end Intake
