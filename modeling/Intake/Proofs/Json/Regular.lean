import Intake.Proofs.Json.Depth
import Intake.Proofs.Json.Numbers

/-!
# Trees that are read

Whatever text a tree is read from, its numbers are texts of numbers, and the members of its objects
stand in key order, one for each key. This holds at every depth, because each step of the reader
keeps it for all that has been read so far.
-/

namespace Intake.Json

def InKeyOrder (members : List (String × Json)) : Prop :=
  members.Pairwise fun m n => m.1 < n.1

/-- Numbers are texts of numbers, and members stand in key order. -/
inductive Regular : Json → Prop where
  | null : Regular .null
  | bool {value : Bool} : Regular (.bool value)
  | number {text : List Char} (number : NumberText text) : Regular (.number text)
  | string {text : String} : Regular (.string text)
  | array {items : List Json} (each : ∀ item ∈ items, Regular item) : Regular (.array items)
  | object {members : List (String × Json)} (ordered : InKeyOrder members)
      (each : ∀ member ∈ members, Regular member.2) : Regular (.object members)

inductive PartOf (part : Json) : Json → Prop where
  | whole : PartOf part part
  | item {items : List Json} {item : Json} (among : item ∈ items) (within : PartOf part item) :
      PartOf part (.array items)
  | member {members : List (String × Json)} {member : String × Json} (among : member ∈ members)
      (within : PartOf part member.2) : PartOf part (.object members)

theorem PartOf.trans {inner part j : Json} (inside : inner.PartOf part) (within : part.PartOf j) :
    inner.PartOf j := by
  induction within with
  | whole => exact inside
  | item among _ ih => exact .item among ih
  | member among _ ih => exact .member among ih

theorem Regular.part {part j : Json} (regular : j.Regular) (within : part.PartOf j) :
    part.Regular := by
  induction within with
  | whole => exact regular
  | item among _ ih =>
    cases regular with
    | array each => exact ih (each _ among)
  | member among _ ih =>
    cases regular with
    | object _ each => exact ih (each _ among)

theorem Regular.inKeyOrder {members : List (String × Json)} (regular : (Json.object members).Regular) :
    InKeyOrder members := by
  cases regular with
  | object ordered _ => exact ordered

namespace Reader

/-! ### What has been read so far -/

def RegularMembers (members : List (String × Json)) : Prop :=
  InKeyOrder members ∧ ∀ member ∈ members, member.2.Regular

theorem RegularMembers.nil : RegularMembers [] := ⟨List.Pairwise.nil, List.forall_mem_nil _⟩

theorem RegularMembers.insertEntry {members : List (String × Json)} {value : Json}
    (regular : RegularMembers members) (here : value.Regular) (key : String) :
    RegularMembers (SortedMap.insertEntry key value members) := by
  refine ⟨SortedMap.sorted_insertEntry key value members regular.1, fun member among => ?_⟩
  rcases SortedMap.mem_insertEntry among with rfl | old
  · exact here
  · exact regular.2 member old

def Frame.Regular : Frame → Prop
  | .list items => ∀ item ∈ items, item.Regular
  | .record members _ => RegularMembers members
  | .number => True

def Mode.Regular : Mode → Prop
  | .nextKey members | .afterMember members | .string (.key members _) _ _ => RegularMembers members
  | .colon frame => frame.Regular
  | .word _ found | .done found => found.Regular
  | .number part text => part.Keeps text
  | .numberEnd text => NumberText text
  | _ => True

structure State.Regular (s : State) : Prop where
  frames : ∀ frame ∈ s.frames, frame.Regular
  mode : s.mode.Regular

section Steps

variable {bytes : Nat} {frames : List Frame} {mode : Mode} {c : Char} {s s' : State} {value : Json}

theorem deliver_regular (around : ∀ frame ∈ frames, frame.Regular) (here : value.Regular)
    (delivered : deliver bytes frames value = .ok s) : s.Regular := by
  cases frames with
  | nil =>
    obtain rfl := Except.ok.inj delivered
    exact ⟨around, here⟩
  | cons frame frames =>
    obtain ⟨inner, outer⟩ := List.forall_mem_cons.mp around
    cases frame with
    | list items =>
      obtain rfl := Except.ok.inj delivered
      exact ⟨List.forall_mem_cons.mpr ⟨List.forall_mem_cons.mpr ⟨here, inner⟩, outer⟩, trivial⟩
    | record members key =>
      obtain rfl := Except.ok.inj delivered
      exact ⟨outer, inner.insertEntry here key⟩
    | number =>
      cases value with
      | string text =>
        simp only [deliver] at delivered
        split at delivered
        · next read =>
          obtain rfl := Except.ok.inj delivered
          exact ⟨outer, numberText_of_read read⟩
        · cases delivered
      | _ => cases delivered

theorem State.Regular.of_ok (around : ∀ frame ∈ frames, frame.Regular)
    (taken : .ok ⟨frames, mode⟩ = (.ok s : Except StepFault State)) (here : mode.Regular) :
    s.Regular := by
  obtain rfl := Except.ok.inj taken
  exact ⟨around, here⟩

theorem startValue_regular (around : ∀ frame ∈ frames, frame.Regular)
    (started : startValue frames c = .ok s) : s.Regular := by
  unfold startValue at started
  split at started
  · exact .of_ok around started .null
  split at started
  · exact .of_ok around started .bool
  split at started
  · exact .of_ok around started .bool
  split at started
  · exact .of_ok around started (fun _ follows => .minus follows)
  split at started
  · exact .of_ok around started (fun _ follows => .plain (.zero follows))
  · next nonzero =>
    split at started
    · next digit =>
      refine .of_ok around started (fun _ follows => ?_)
      obtain ⟨ds, rest, digits, fraction, rfl⟩ := follows
      have whole : WholeText (c :: ds ++ rest) := .positive nonzero (.cons digit digits) fraction
      exact .plain whole
    · repeat' split at started
      · exact .of_ok around started trivial
      · cases started
      · obtain ⟨-, rfl⟩ := (enter_eq_ok_iff _ _ _).mp started
        exact ⟨List.forall_mem_cons.mpr ⟨List.forall_mem_nil _, around⟩, trivial⟩
      · cases started
      · obtain ⟨-, rfl⟩ := (enter_eq_ok_iff _ _ _).mp started
        exact ⟨around, trivial⟩
      · cases started

theorem closeList_regular (around : ∀ frame ∈ frames, frame.Regular)
    (closed : closeList frames = .ok s) : s.Regular := by
  unfold closeList at closed
  split at closed
  · obtain ⟨inner, around⟩ := List.forall_mem_cons.mp around
    exact deliver_regular around (.array fun item among => inner item (List.mem_reverse.mp among))
      closed
  · exact deliver_regular around (.array (List.forall_mem_nil _)) closed

theorem closeString_regular {purpose : Purpose} {part : StringPart} {text : List Char}
    (around : ∀ frame ∈ frames, frame.Regular) (here : Mode.Regular (.string purpose part text))
    (closed : closeString frames purpose text = .ok s) : s.Regular := by
  cases purpose with
  | value =>
    have delivered : deliver 1 frames _ = .ok s := closed
    exact deliver_regular around .string delivered
  | key members first =>
    simp only [closeString] at closed
    split at closed
    · exact .of_ok around closed trivial
    · exact .of_ok around closed here

theorem stepBetween_regular (around : ∀ frame ∈ frames, frame.Regular) (here : mode.Regular)
    (taken : stepBetween frames mode c = .ok s) : s.Regular := by
  unfold stepBetween at taken
  split at taken
  · exact .of_ok around taken here
  cases mode <;> dsimp only at taken
  case value => exact startValue_regular around taken
  case firstItem =>
    split at taken
    · exact closeList_regular around taken
    · exact startValue_regular around taken
  case nextItem =>
    split at taken
    · cases taken
    · exact startValue_regular around taken
  case afterItem =>
    split at taken
    · exact .of_ok around taken trivial
    · split at taken
      · exact closeList_regular around taken
      · cases taken
  case firstKey =>
    split at taken
    · exact .of_ok around taken RegularMembers.nil
    · split at taken
      · exact deliver_regular around (.object .nil (List.forall_mem_nil _)) taken
      · cases taken
  case nextKey members =>
    split at taken
    · exact .of_ok around taken here
    · split at taken <;> cases taken
  case colon frame =>
    split at taken
    · exact .of_ok (List.forall_mem_cons.mpr ⟨here, around⟩) taken trivial
    · cases taken
  case afterMember members =>
    split at taken
    · exact .of_ok around taken here
    · split at taken
      · exact deliver_regular around (.object here.1 here.2) taken
      · cases taken
  case numberEnd text =>
    split at taken
    · exact deliver_regular around (.number here) taken
    · split at taken <;> cases taken
  all_goals cases taken

/-- One character keeps everything regular. -/
theorem step_regular (regular : s.Regular) (taken : step s c = .ok s') : s'.Regular := by
  obtain ⟨frames, mode⟩ := s
  obtain ⟨around, here⟩ := regular
  cases mode with
  | word rest value =>
    cases rest with
    | nil => exact stepBetween_regular around here taken
    | cons expected rest =>
      simp only [step] at taken
      split at taken
      · cases taken
      · split at taken
        · exact deliver_regular around here taken
        · exact .of_ok around taken here
  | number part text =>
    simp only [step] at taken
    split at taken
    · next more => exact .of_ok around taken (NumberPart.Keeps.step here more)
    · next done =>
      -- The number is delivered, and then the character is taken between values.
      have number := NumberPart.Keeps.numberText here (NumberPart.complete_of_done done)
      cases delivered : deliver 0 frames (.number text) with
      | error fault => simp [delivered, bind, Except.bind] at taken
      | ok next =>
        obtain ⟨around, here⟩ := deliver_regular around (.number number) delivered
        rw [delivered] at taken
        exact stepBetween_regular around here taken
    · cases taken
  | string purpose part text =>
    have inside : ∀ part text, Mode.Regular (.string purpose part text) := by
      cases purpose
      · exact fun _ _ => trivial
      · exact fun _ _ => here
    have stays : ∀ {found : Except StepFault (StringPart × List Char)},
        found.map (fun next => State.mk frames (.string purpose next.1 next.2)) = .ok s' →
          s'.Regular := by
      intro found mapped
      obtain ⟨next, -, rfl⟩ := Numeral.exists_of_map_eq_ok mapped
      exact ⟨around, inside next.1 next.2⟩
    cases part with
    | plain =>
      simp only [step] at taken
      split at taken
      · exact closeString_regular around here taken
      · exact stays taken
    | _ => exact stays taken
  | _ => exact stepBetween_regular around here taken

theorem Reads.regular {cs : List Char} (reads : Reads s cs s') (regular : s.Regular) :
    s'.Regular := by
  induction reads with
  | nil => exact regular
  | cons first _ ih => exact ih (step_regular regular first)

theorem finish_regular {j : Json} (regular : s.Regular) (finished : finish s = .ok j) :
    j.Regular := by
  obtain ⟨frames, mode⟩ := s
  obtain ⟨around, here⟩ := regular
  cases mode with
  | done found =>
    obtain rfl := Except.ok.inj finished
    exact here
  | number part text =>
    simp only [finish] at finished
    split at finished
    · next complete =>
      have number := NumberPart.Keeps.numberText here complete
      cases delivered : deliver 0 frames (.number text) with
      | error fault => simp [delivered, bind, Except.bind] at finished
      | ok next =>
        obtain ⟨-, here⟩ := deliver_regular around (.number number) delivered
        obtain ⟨frames', mode'⟩ := next
        rw [delivered] at finished
        cases mode' with
        | done found =>
          obtain rfl := Except.ok.inj finished
          exact here
        | _ => cases finished
    · cases finished
  | _ => cases finished

end Steps

end Reader

/-- Every tree that is read is regular. -/
theorem regular_of_read {text : String} {j : Json} (h : read text = .ok j) : j.Regular := by
  obtain ⟨s, reads, finished⟩ := (Reader.read_eq_ok_iff text j).mp h
  exact Reader.finish_regular (reads.regular ⟨List.forall_mem_nil _, trivial⟩) finished

end Intake.Json
