import Intake.Json.Writer
import Intake.Proofs.Entries
import Intake.Proofs.Json.Depth

/-!
# Written trees are read back

The text of a JSON tree is read as the tree with the members of each object in key order. The
tree must not be deeper than may be read, its numbers must stand as they are kept, and no object
may begin with the key that stands for a number.
-/

namespace Intake.Json

mutual

/-- The tree with the members of each object in key order; of two with one key the later counts. -/
def inOrder : Json → Json
  | .array items => .array (itemsInOrder items)
  | .object members => .object (membersInOrder members [])
  | j => j

def itemsInOrder : List Json → List Json
  | [] => []
  | item :: rest => item.inOrder :: itemsInOrder rest

def membersInOrder : List (String × Json) → List (String × Json) → List (String × Json)
  | [], before => before
  | (key, value) :: rest, before =>
    membersInOrder rest (SortedMap.insertEntry key value.inOrder before)

end

theorem itemsInOrder_eq_map (items : List Json) : itemsInOrder items = items.map inOrder := by
  induction items with
  | nil => rfl
  | cons item items ih => rw [itemsInOrder, ih, List.map_cons]

theorem lookup_membersInOrder (members before : List (String × Json)) (key : String) :
    Entries.lookup key (membersInOrder members before) =
      ((Entries.lookup key members.reverse).map inOrder).or (Entries.lookup key before) := by
  induction members generalizing before with
  | nil => rfl
  | cons member members ih =>
    obtain ⟨name, node⟩ := member
    rw [membersInOrder, ih, SortedMap.lookup_insertEntry, List.reverse_cons, Entries.lookup_append]
    cases Entries.lookup key members.reverse with
    | some found => rfl
    | none => by_cases same : name = key <;> simp [Entries.lookup, same]

theorem lookup_inOrder {members : List (String × Json)} (distinct : (members.map Prod.fst).Nodup)
    (key : String) : Entries.lookup key (membersInOrder members []) =
      (Entries.lookup key members).map inOrder := by
  rw [lookup_membersInOrder, Entries.lookup_reverse distinct, Entries.lookup, Option.or_none]

/-- The text of the tree is taken for the tree: its numbers are texts of numbers, and no object is
taken for a number. -/
inductive Legible : Json → Prop where
  | null : Legible .null
  | bool {value : Bool} : Legible (.bool value)
  | number {text : List Char} (kept : readNumberText text = .ok text) : Legible (.number text)
  | string {text : String} : Legible (.string text)
  | array {items : List Json} (each : ∀ item ∈ items, Legible item) : Legible (.array items)
  | object {members : List (String × Json)} (each : ∀ member ∈ members, Legible member.2)
      (first : ∀ member ∈ members.head?, member.1 ≠ Reader.numberKey) : Legible (.object members)

namespace Reader

open Numeral (hexValue?)

variable {frames : List Frame} {s s' : State} {c : Char} {value : Json}

theorem Reads.single (taken : step s c = .ok s') : Reads s [c] s' := .cons taken .nil

/-! ### Strings -/

section Strings

variable {purpose : Purpose} {acc : List Char}

theorem hexValue?_digitChar {d : Nat} (digit : d < 16) :
    hexValue? (Nat.digitChar d) = some d ∧ (Nat.digitChar d).utf8Size = 1 := by
  have all : ∀ d : Fin 16, hexValue? (Nat.digitChar d) = some d.val ∧
      (Nat.digitChar d).utf8Size = 1 := by decide
  exact all ⟨d, digit⟩

/-- The digits of an escape by code give its character. -/
theorem reads_code {high low : Nat} (highDigit : high < 16) (lowDigit : low < 16)
    (char : c.toNat = high * 16 + low) :
    Reads ⟨frames, .string purpose (.code none 2 (some 0)) acc⟩
      [Nat.digitChar high, Nat.digitChar low] ⟨frames, .string purpose .plain (c :: acc)⟩ := by
  obtain ⟨value, size⟩ := hexValue?_digitChar highDigit
  obtain ⟨value', size'⟩ := hexValue?_digitChar lowDigit
  have third : stepString (.code none 2 (some 0)) acc (Nat.digitChar high) =
      .ok (.code none 3 (some high), acc) := by
    simp [stepString, value, size]
  have fourth : stepString (.code none 3 (some high)) acc (Nat.digitChar low) =
      .ok (.plain, c :: acc) := by
    have code : Char.ofNat (high * 16 + low) = c := by rw [← char, Char.ofNat_toNat]
    have small : ¬ (0xDC00 ≤ high * 16 + low) ∧ ¬ (0xD800 ≤ high * 16 + low) := by omega
    simp [stepString, takeCode, value', size', code, small]
  have taken : step ⟨frames, .string purpose (.code none 2 (some 0)) acc⟩ (Nat.digitChar high) =
      .ok ⟨frames, .string purpose (.code none 3 (some high)) acc⟩ := by
    simp only [step, third]
    rfl
  refine .cons taken (.single ?_)
  simp only [step, fourth]
  rfl

theorem reads_escapeChar (c : Char) :
    Reads ⟨frames, .string purpose .plain acc⟩ (escapeChar c)
      ⟨frames, .string purpose .plain (c :: acc)⟩ := by
  unfold escapeChar
  split
  · exact .cons rfl (.single rfl)
  · exact .cons rfl (.single rfl)
  · exact .cons rfl (.single rfl)
  · exact .cons rfl (.single rfl)
  · exact .cons rfl (.single rfl)
  · exact .cons rfl (.single rfl)
  · exact .cons rfl (.single rfl)
  · next quote backslash _ _ _ _ _ =>
    split
    · next control =>
      refine .cons rfl (.cons rfl (.cons rfl (.cons rfl (reads_code ?_ ?_ ?_)))) <;> omega
    · next printed =>
      refine .single ?_
      have plain : stepString .plain acc c = .ok (.plain, c :: acc) := by
        rw [stepString, if_neg backslash, if_neg printed]
      simp only [step, if_neg quote, plain]
      rfl

theorem reads_escaped (cs : List Char) :
    Reads ⟨frames, .string purpose .plain acc⟩ (cs.flatMap escapeChar)
      ⟨frames, .string purpose .plain (cs.reverse ++ acc)⟩ := by
  induction cs generalizing acc with
  | nil => exact .nil
  | cons c cs ih =>
    rw [List.flatMap_cons, List.reverse_cons, List.append_assoc]
    exact (reads_escapeChar c).append ih

theorem reads_string {text : String}
    (closed : closeString frames purpose text.toList.reverse = .ok s) :
    Reads ⟨frames, .string purpose .plain []⟩ (text.toList.flatMap escapeChar ++ ['"']) s := by
  have inside : Reads ⟨frames, .string purpose .plain []⟩ _ _ := reads_escaped text.toList
  rw [List.append_nil] at inside
  exact inside.append (.single closed)

end Strings

/-! ### Words and numbers -/

theorem reads_word {rest : List Char} (more : rest ≠ [])
    (delivered : ∀ bytes, deliver bytes frames value = .ok s) :
    Reads ⟨frames, .word rest value⟩ rest s := by
  induction rest with
  | nil => exact absurd rfl more
  | cons c rest ih =>
    cases rest with
    | nil => exact .single (by simp [step, delivered])
    | cons d rest => exact .cons (by simp [step]) (ih (List.cons_ne_nil d rest))

/-- A number that may end is not taken further than its text. -/
theorem reads_number (frames : List Frame) {p : Position} {part : NumberPart}
    {kept text cs : List Char} (read : readNumberText.go p part kept cs = .ok text) :
    ∃ part', part'.complete = true ∧
      Reads ⟨frames, .number part kept⟩ cs ⟨frames, .number part' text⟩ := by
  induction cs generalizing p part kept with
  | nil =>
    rw [readNumberText.go] at read
    split at read
    · next complete =>
      obtain rfl := Except.ok.inj read
      exact ⟨part, complete, .nil⟩
    · cases read
  | cons c cs ih =>
    rw [readNumberText.go] at read
    split at read
    · next part' more taken =>
      obtain ⟨last, complete, reads⟩ := ih read
      refine ⟨last, complete, .cons ?_ reads⟩
      simp only [step, taken]
    · cases read
    · cases read

/-! ### Values in their frames -/

/-- The frames take whatever value is read inside of them. -/
inductive Open : List Frame → Prop where
  | root : Open []
  | list {items : List Json} {frames : List Frame} : Open (.list items :: frames)
  | record {members : List (String × Json)} {key : String} {frames : List Frame} :
      Open (.record members key :: frames)

theorem Open.deliver (takes : Open frames) (value : Json) :
    ∃ s, ∀ bytes, deliver bytes frames value = .ok s := by
  cases takes with
  | root => exact ⟨_, fun _ => rfl⟩
  | list => exact ⟨_, fun _ => rfl⟩
  | record => exact ⟨_, fun _ => rfl⟩

/-- A value stands in its frames, or it is a number that may end. -/
inductive Ready (frames : List Frame) (value : Json) : State → Prop where
  | delivered {s : State} (delivered : ∀ bytes, deliver bytes frames value = .ok s) :
      Ready frames value s
  | pending {part : NumberPart} {text : List Char} (complete : part.complete = true)
      (number : value = .number text) : Ready frames value ⟨frames, .number part text⟩

def EndsValue (c : Char) : Prop := c = ',' ∨ c = ']' ∨ c = '\x7d'

theorem NumberPart.step_done {part : NumberPart} (complete : part.complete = true)
    (ends : EndsValue c) : part.step c = .done := by
  rcases ends with rfl | rfl | rfl <;> cases part <;> first | rfl | cases complete

/-- The character after a value is taken where the value stands in its frames. -/
theorem Ready.step_eq (ready : Ready frames value s) (takes : Open frames) (ends : EndsValue c) :
    ∃ s', deliver 0 frames value = .ok s' ∧ step s c = stepBetween s'.frames s'.mode c := by
  cases ready with
  | delivered delivered =>
    refine ⟨s, delivered 0, ?_⟩
    cases takes <;> obtain rfl := Except.ok.inj (delivered 0) <;> rfl
  | pending complete number =>
    -- The number is delivered only now, before the character is taken.
    obtain ⟨s', delivered⟩ := takes.deliver value
    refine ⟨s', delivered 0, ?_⟩
    subst number
    simp only [step, NumberPart.step_done complete ends, delivered]
    rfl

def TakesValue (mode : Mode) : Prop := mode = .value ∨ mode = .firstItem ∨ mode = .nextItem

theorem step_startValue {mode : Mode} (takes : TakesValue mode) (printed : isSpace c = false)
    (other : c ≠ ']') : step ⟨frames, mode⟩ c = startValue frames c := by
  rcases takes with rfl | rfl | rfl <;> simp [step, stepBetween, printed, other]

theorem startValue_digit (frames : List Frame) (digit : c.isDigit = true) :
    ∃ part, NumberPart.step .sign c = .more part [c] ∧
      startValue frames c = .ok ⟨frames, .number part [c]⟩ := by
  by_cases zero : c = '0'
  · subst zero
    exact ⟨.zero, rfl, rfl⟩
  · have other : ∀ d : Char, d.isDigit = false → c ≠ d := by
      rintro d letter rfl
      rw [digit] at letter
      cases letter
    refine ⟨.whole, by rw [NumberPart.step, if_neg zero, if_pos digit], ?_⟩
    unfold startValue
    rw [if_neg (other 'n' rfl), if_neg (other 't' rfl), if_neg (other 'f' rfl),
      if_neg (other '-' rfl), if_neg zero, if_pos digit]

/-- From every state in which the tree may begin, its text leads to the tree in its frames. -/
def ReadsBack (j : Json) : Prop :=
  ∀ (room : Nat) (frames : List Frame) (mode : Mode), j.Within room →
    room + frames.length ≤ maxDepth → Open frames → TakesValue mode →
    ∃ s, Reads ⟨frames, mode⟩ j.write s ∧ Ready frames j.inOrder s

theorem readsBack_number {text : List Char} (kept : readNumberText text = .ok text) :
    ReadsBack (.number text) := by
  intro room frames mode _ _ _ takes
  unfold readNumberText at kept
  split at kept
  · cases kept
  · next rest =>
    obtain ⟨part, complete, reads⟩ := reads_number frames kept
    have minus : step ⟨frames, mode⟩ '-' = .ok ⟨frames, .number .sign ['-']⟩ :=
      step_startValue takes (by decide) (by decide)
    exact ⟨_, .cons minus reads, .pending complete rfl⟩
  · next c rest _ _ =>
    split at kept
    · next digit =>
      -- The reader starts with the digit in the part to which the first digit leads elsewhere.
      obtain ⟨part, first, started⟩ := startValue_digit frames digit
      rw [readNumberText.go, first] at kept
      obtain ⟨last, complete, reads⟩ := reads_number frames kept
      have printed : isSpace c = false ∧ c ≠ ']' := by
        refine ⟨?_, by rintro rfl; cases digit⟩
        simp only [isSpace, Bool.or_eq_false_iff, beq_eq_false_iff_ne]
        refine ⟨⟨⟨?_, ?_⟩, ?_⟩, ?_⟩ <;> rintro rfl <;> cases digit
      have taken := (step_startValue takes printed.1 printed.2).trans started
      exact ⟨_, .cons taken reads, .pending complete rfl⟩
    · cases kept

theorem readsBack_word {word : List Char} {j : Json} (written : j.write = word)
    (same : j.inOrder = j) (starts : ∀ frames, ∃ c rest, word = c :: rest ∧ rest ≠ [] ∧
      isSpace c = false ∧ c ≠ ']' ∧ startValue frames c = .ok ⟨frames, .word rest j⟩) :
    ReadsBack j := by
  intro room frames mode _ _ isOpen takes
  obtain ⟨c, rest, rfl, more, printed, other, started⟩ := starts frames
  obtain ⟨s, delivered⟩ := isOpen.deliver j
  rw [written, same]
  exact ⟨s, .cons ((step_startValue takes printed other).trans started) (reads_word more delivered),
    .delivered delivered⟩

theorem readsBack_string (text : String) : ReadsBack (.string text) := by
  intro room frames mode _ _ isOpen takes
  obtain ⟨s, delivered⟩ := isOpen.deliver (.string text)
  have quote : step ⟨frames, mode⟩ '"' = .ok ⟨frames, .string .value .plain []⟩ :=
    step_startValue takes (by decide) (by decide)
  have closed : closeString frames .value text.toList.reverse = .ok s := by
    simp only [closeString, List.reverse_reverse, String.ofList_toList, delivered]
  exact ⟨s, .cons quote (reads_string closed), .delivered delivered⟩

/-! ### Arrays and objects -/

theorem reads_items {items : List Json} (each : ∀ item ∈ items, ReadsBack item) {room : Nat}
    (within : ∀ item ∈ items, item.Within room) (fits : room + (frames.length + 1) ≤ maxDepth)
    (isOpen : Open frames) {before : List Json} (ready : Ready (.list before :: frames) value s) :
    ∃ s', Reads s (writeItems items) s' ∧
      Ready frames (.array ((value :: before).reverse ++ itemsInOrder items)) s' := by
  induction items generalizing before value s with
  | nil =>
    obtain ⟨s₁, stands, taken⟩ := ready.step_eq .list (.inr (.inl rfl))
    obtain rfl := Except.ok.inj stands
    obtain ⟨s₂, delivered⟩ := isOpen.deliver (.array (value :: before).reverse)
    refine ⟨s₂, .single (taken.trans (delivered 1)), ?_⟩
    rw [itemsInOrder, List.append_nil]
    exact .delivered delivered
  | cons item items ih =>
    obtain ⟨s₁, stands, taken⟩ := ready.step_eq .list (.inl rfl)
    obtain rfl := Except.ok.inj stands
    obtain ⟨back, each⟩ := List.forall_mem_cons.mp each
    obtain ⟨here, within⟩ := List.forall_mem_cons.mp within
    obtain ⟨s₂, reads, ready'⟩ := back room (.list (value :: before) :: frames) .nextItem here fits
      .list (.inr (.inr rfl))
    obtain ⟨s₃, others, ready''⟩ := ih each within ready'
    refine ⟨s₃, .cons taken (reads.append others), ?_⟩
    rw [itemsInOrder]
    simpa using ready''

theorem startValue_bracket (isOpen : Open frames) :
    startValue frames '[' = enter frames ⟨.list [] :: frames, .firstItem⟩ := by
  cases isOpen <;> rfl

theorem startValue_brace (isOpen : Open frames) :
    startValue frames '\x7b' = enter frames ⟨frames, .firstKey⟩ := by
  cases isOpen <;> rfl

theorem readsBack_array {items : List Json} (each : ∀ item ∈ items, ReadsBack item) :
    ReadsBack (.array items) := by
  intro room frames mode within fits isOpen takes
  cases within with
  | @array room _ within =>
    have started : step ⟨frames, mode⟩ '[' = .ok ⟨.list [] :: frames, .firstItem⟩ := by
      rw [step_startValue takes (by decide) (by decide), startValue_bracket isOpen]
      exact if_pos (by omega)
    cases items with
    | nil =>
      obtain ⟨s, delivered⟩ := isOpen.deliver (.array [])
      have closed : step ⟨.list [] :: frames, .firstItem⟩ ']' = .ok s := delivered 1
      exact ⟨s, .cons started (.single closed), .delivered delivered⟩
    | cons item items =>
      obtain ⟨back, each⟩ := List.forall_mem_cons.mp each
      obtain ⟨here, within⟩ := List.forall_mem_cons.mp within
      have inner : room + (frames.length + 1) ≤ maxDepth := by omega
      obtain ⟨s, reads, ready⟩ := back room (.list [] :: frames) .firstItem here inner .list
        (.inr (.inl rfl))
      obtain ⟨s', others, ready'⟩ := reads_items each within inner isOpen ready
      exact ⟨s', .cons started (reads.append others), ready'⟩

/-- A member is read into a frame of its own, after the members before it. -/
theorem reads_member {mode : Mode} {members : List (String × Json)} {first : Bool} {key : String}
    {node : Json} {room : Nat}
    (quote : step ⟨frames, mode⟩ '"' = .ok ⟨frames, .string (.key members first) .plain []⟩)
    (plain : first = true → key ≠ numberKey) (back : ReadsBack node) (within : node.Within room)
    (fits : room + (frames.length + 1) ≤ maxDepth) :
    ∃ s, Reads ⟨frames, mode⟩ (writeString key ++ ':' :: node.write) s ∧
      Ready (.record members key :: frames) node.inOrder s := by
  have other : ¬ (first && key == numberKey) = true := by simpa using plain
  have closed : closeString frames (.key members first) key.toList.reverse =
      .ok ⟨frames, .colon (.record members key)⟩ := by
    simp only [closeString, List.reverse_reverse, String.ofList_toList, if_neg other]
  have colon : step ⟨frames, .colon (.record members key)⟩ ':' =
      .ok ⟨.record members key :: frames, .value⟩ := rfl
  obtain ⟨s, reads, ready⟩ := back room (.record members key :: frames) .value within fits .record
    (.inl rfl)
  exact ⟨s, .cons quote ((reads_string closed).append (.cons colon reads)), ready⟩

theorem reads_members {members : List (String × Json)}
    (each : ∀ member ∈ members, ReadsBack member.2) {room : Nat}
    (within : ∀ member ∈ members, member.2.Within room)
    (fits : room + (frames.length + 1) ≤ maxDepth) (isOpen : Open frames)
    {before : List (String × Json)} {key : String}
    (ready : Ready (.record before key :: frames) value s) :
    ∃ s', Reads s (writeMembers members) s' ∧ Ready frames
      (.object (membersInOrder members (SortedMap.insertEntry key value before))) s' := by
  induction members generalizing before key value s with
  | nil =>
    obtain ⟨s₁, stands, taken⟩ := ready.step_eq .record (.inr (.inr rfl))
    obtain rfl := Except.ok.inj stands
    obtain ⟨s₂, delivered⟩ := isOpen.deliver (.object (SortedMap.insertEntry key value before))
    exact ⟨s₂, .single (taken.trans (delivered 1)), .delivered delivered⟩
  | cons member members ih =>
    obtain ⟨name, node⟩ := member
    obtain ⟨s₁, stands, taken⟩ := ready.step_eq .record (.inl rfl)
    obtain rfl := Except.ok.inj stands
    obtain ⟨back, each⟩ := List.forall_mem_cons.mp each
    obtain ⟨here, within⟩ := List.forall_mem_cons.mp within
    have quote : step ⟨frames, .nextKey (SortedMap.insertEntry key value before)⟩ '"' =
        .ok ⟨frames, .string (.key (SortedMap.insertEntry key value before) false) .plain []⟩ := rfl
    have later : false = true → name ≠ numberKey := fun first => absurd first Bool.false_ne_true
    obtain ⟨s₂, reads, ready'⟩ := reads_member quote later back here fits
    obtain ⟨s₃, others, ready''⟩ := ih each within ready'
    exact ⟨s₃, .cons taken (reads.append others), ready''⟩

theorem readsBack_object {members : List (String × Json)}
    (each : ∀ member ∈ members, ReadsBack member.2)
    (first : ∀ member ∈ members.head?, member.1 ≠ numberKey) : ReadsBack (.object members) := by
  intro room frames mode within fits isOpen takes
  cases within with
  | @object room _ within =>
    have started : step ⟨frames, mode⟩ '\x7b' = .ok ⟨frames, .firstKey⟩ := by
      rw [step_startValue takes (by decide) (by decide), startValue_brace isOpen]
      exact if_pos (by omega)
    cases members with
    | nil =>
      obtain ⟨s, delivered⟩ := isOpen.deliver (.object [])
      have closed : step ⟨frames, .firstKey⟩ '\x7d' = .ok s := delivered 1
      exact ⟨s, .cons started (.single closed), .delivered delivered⟩
    | cons member members =>
      obtain ⟨key, node⟩ := member
      obtain ⟨back, each⟩ := List.forall_mem_cons.mp each
      obtain ⟨here, within⟩ := List.forall_mem_cons.mp within
      have quote : step ⟨frames, .firstKey⟩ '"' =
          .ok ⟨frames, .string (.key [] true) .plain []⟩ := rfl
      have plain : true = true → key ≠ numberKey := fun _ => first (key, node) rfl
      obtain ⟨s, reads, ready⟩ := reads_member quote plain back here (by omega)
      obtain ⟨s', others, ready'⟩ := reads_members each within (by omega) isOpen ready
      exact ⟨s', .cons started (reads.append others), ready'⟩

theorem readsBack_of_legible {j : Json} (legible : j.Legible) : ReadsBack j := by
  induction legible with
  | null => exact readsBack_word rfl rfl fun _ => ⟨_, _, rfl, by decide, rfl, by decide, rfl⟩
  | @bool value =>
    cases value
    · exact readsBack_word rfl rfl fun _ => ⟨_, _, rfl, by decide, rfl, by decide, rfl⟩
    · exact readsBack_word rfl rfl fun _ => ⟨_, _, rfl, by decide, rfl, by decide, rfl⟩
  | number kept => exact readsBack_number kept
  | string => exact readsBack_string _
  | array _ ih => exact readsBack_array ih
  | object _ first ih => exact readsBack_object ih first

theorem Ready.finish_eq (ready : Ready [] value s) : finish s = .ok value := by
  cases ready with
  | delivered delivered =>
    obtain rfl := Except.ok.inj (delivered 0)
    rfl
  | pending complete number =>
    subst number
    simp only [finish, complete, if_true]
    rfl

end Reader

/-- The text of a tree is read as the tree, with the members of objects in key order. -/
theorem read_text {j : Json} (legible : j.Legible) (within : j.Within Reader.maxDepth) :
    read j.text = .ok j.inOrder := by
  obtain ⟨s, reads, ready⟩ := Reader.readsBack_of_legible legible _ [] .value within
    (Nat.le_refl _) .root (.inl rfl)
  refine (Reader.read_eq_ok_iff _ _).mpr ⟨s, ?_, ready.finish_eq⟩
  rw [text, String.toList_ofList]
  exact reads

end Intake.Json
