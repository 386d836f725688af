import Intake.Json.Reader

/-!
# Depth of what is read

A text that is read is read one character after the other. However long it is, no more arrays
and objects are open at once than may be, so none of what is read is deeper.
-/

namespace Intake.Json

/-- At most `room` arrays and objects stand in one another. -/
inductive Within : Nat → Json → Prop where
  | null {room : Nat} : Within room .null
  | bool {room : Nat} {value : Bool} : Within room (.bool value)
  | number {room : Nat} {text : List Char} : Within room (.number text)
  | string {room : Nat} {text : String} : Within room (.string text)
  | array {room : Nat} {items : List Json} (each : ∀ item ∈ items, Within room item) :
      Within (room + 1) (.array items)
  | object {room : Nat} {members : List (String × Json)}
      (each : ∀ member ∈ members, Within room member.2) : Within (room + 1) (.object members)

namespace Reader

/-! ### Runs -/

inductive Reads : State → List Char → State → Prop where
  | nil {s : State} : Reads s [] s
  | cons {s s' s'' : State} {c : Char} {cs : List Char} (first : step s c = .ok s')
      (others : Reads s' cs s'') : Reads s (c :: cs) s''

theorem Reads.append {s s' s'' : State} {cs ds : List Char} (before : Reads s cs s')
    (after : Reads s' ds s'') : Reads s (cs ++ ds) s'' := by
  induction before with
  | nil => exact after
  | cons first _ ih => exact .cons first (ih after)

theorem run_eq_ok_iff (p : Position) (s : State) (cs : List Char) (j : Json) :
    run p s cs = .ok j ↔ ∃ s', Reads s cs s' ∧ finish s' = .ok j := by
  induction cs generalizing p s with
  | nil =>
    have finishes : run p s [] = .ok j ↔ finish s = .ok j := by
      rw [run]
      cases finish s <;> constructor <;> intro h <;> cases h <;> rfl
    rw [finishes]
    constructor
    · intro finished
      exact ⟨s, .nil, finished⟩
    · rintro ⟨s', reads, finished⟩
      cases reads
      exact finished
  | cons c cs ih =>
    rw [run]
    cases taken : step s c with
    | error fault =>
      constructor
      · intro h
        cases h
      · rintro ⟨s', reads, -⟩
        cases reads with
        | cons first _ => simp [taken] at first
    | ok next =>
      show run (p.after c) next cs = .ok j ↔ _
      rw [ih]
      constructor
      · rintro ⟨s', reads, finished⟩
        exact ⟨s', .cons taken reads, finished⟩
      · rintro ⟨s', reads, finished⟩
        cases reads with
        | cons first others =>
          rw [taken] at first
          obtain rfl := Except.ok.inj first
          exact ⟨s', others, finished⟩

theorem read_eq_ok_iff (text : String) (j : Json) :
    read text = .ok j ↔ ∃ s, Reads ⟨[], .value⟩ text.toList s ∧ finish s = .ok j :=
  run_eq_ok_iff _ _ _ _

/-! ### Room -/

def Frame.Fits (room : Nat) : Frame → Prop
  | .list items => ∀ item ∈ items, Within room item
  | .record members _ => ∀ member ∈ members, Within room member.2
  | .number => True

/-- Inside of the frames there is room for more in one another. -/
inductive FramesFit : Nat → List Frame → Prop where
  | nil : FramesFit maxDepth []
  | cons {room : Nat} {frame : Frame} {frames : List Frame} (fits : frame.Fits room)
      (around : FramesFit (room + 1) frames) : FramesFit room (frame :: frames)

theorem FramesFit.room_eq {room : Nat} {frames : List Frame} (fit : FramesFit room frames) :
    room + frames.length = maxDepth := by
  induction fit with
  | nil => rfl
  | cons _ _ ih =>
    rw [List.length_cons]
    omega

/-- A frame has taken its part of the room, or is about to. -/
def Opened (room : Nat) (frame : Frame) : Prop := ∃ inside, room = inside + 1 ∧ frame.Fits inside

def Mode.Fits (room : Nat) (frames : List Frame) : Mode → Prop
  | .firstItem | .afterItem => ∃ items around, frames = .list items :: around
  | .firstKey => Opened room .number
  | .colon frame => Opened room frame
  | .nextKey members | .afterMember members | .string (.key members _) _ _ =>
    ∀ key, Opened room (.record members key)
  | .word _ found => Within room found
  | .done found => Within maxDepth found
  | _ => True

def State.Fits (s : State) : Prop := ∃ room, FramesFit room s.frames ∧ s.mode.Fits room s.frames

section Steps

variable {room bytes : Nat} {frames : List Frame} {mode : Mode} {c : Char} {s s' : State}

theorem enter_eq_ok_iff (frames : List Frame) (s s' : State) :
    enter frames s = .ok s' ↔ frames.length < maxDepth ∧ s = s' := by
  unfold enter
  split
  · next roomLeft => simp [roomLeft]
  · next full => simp [full, wrong]

theorem FramesFit.opened (fit : FramesFit room frames) (roomLeft : frames.length < maxDepth) :
    ∃ inside, room = inside + 1 := by
  have whole := fit.room_eq
  exact ⟨room - 1, by omega⟩

theorem FramesFit.stays (fit : FramesFit room frames)
    (taken : .ok ⟨frames, mode⟩ = (.ok s : Except StepFault State))
    (fits : mode.Fits room frames) : s.Fits := by
  obtain rfl := Except.ok.inj taken
  exact ⟨room, fit, fits⟩

theorem deliver_fits {found : Json} (fit : FramesFit room frames) (within : Within room found)
    (delivered : deliver bytes frames found = .ok s) : s.Fits := by
  cases fit with
  | nil =>
    obtain rfl := Except.ok.inj delivered
    exact ⟨_, .nil, within⟩
  | @cons _ frame frames fits around =>
    cases frame with
    | list items =>
      obtain rfl := Except.ok.inj delivered
      exact ⟨room, .cons (List.forall_mem_cons.mpr ⟨within, fits⟩) around, _, _, rfl⟩
    | record members key =>
      obtain rfl := Except.ok.inj delivered
      refine ⟨room + 1, around, fun _ => ⟨room, rfl, fun member mem => ?_⟩⟩
      rcases SortedMap.mem_insertEntry mem with rfl | old
      · exact within
      · exact fits member old
    | number =>
      cases found with
      | string text =>
        simp only [deliver] at delivered
        split at delivered
        · obtain rfl := Except.ok.inj delivered
          exact ⟨room + 1, around, trivial⟩
        · cases delivered
      | _ => cases delivered

theorem startValue_fits (fit : FramesFit room frames) (started : startValue frames c = .ok s) :
    s.Fits := by
  unfold startValue at started
  repeat' split at started
  · exact fit.stays started .null
  · exact fit.stays started .bool
  · exact fit.stays started .bool
  · exact fit.stays started trivial
  · exact fit.stays started trivial
  · exact fit.stays started trivial
  · exact fit.stays started trivial
  · cases started
  · obtain ⟨free, rfl⟩ := (enter_eq_ok_iff _ _ _).mp started
    obtain ⟨inside, rfl⟩ := fit.opened free
    exact ⟨inside, .cons (List.forall_mem_nil _) fit, _, _, rfl⟩
  · cases started
  · obtain ⟨free, rfl⟩ := (enter_eq_ok_iff _ _ _).mp started
    obtain ⟨inside, rfl⟩ := fit.opened free
    exact ⟨inside + 1, fit, inside, rfl, trivial⟩
  · cases started

theorem closeList_fits {items : List Json} (fit : FramesFit room (.list items :: frames))
    (closed : closeList (.list items :: frames) = .ok s) : s.Fits := by
  cases fit with
  | cons fits around =>
    exact deliver_fits around (.array fun item mem => fits item (List.mem_reverse.mp mem)) closed

theorem closeString_fits {purpose : Purpose} {part : StringPart} {text : List Char}
    (fit : FramesFit room frames) (fits : Mode.Fits room frames (.string purpose part text))
    (closed : closeString frames purpose text = .ok s) : s.Fits := by
  cases purpose with
  | value =>
    have delivered : deliver 1 frames _ = .ok s := closed
    exact deliver_fits fit .string delivered
  | key members first =>
    simp only [closeString] at closed
    split at closed
    · obtain ⟨inside, rfl, -⟩ := fits ""
      exact fit.stays closed ⟨inside, rfl, trivial⟩
    · exact fit.stays closed (fits _)

theorem stepBetween_fits (fit : FramesFit room frames) (fits : mode.Fits room frames)
    (taken : stepBetween frames mode c = .ok s) : s.Fits := by
  unfold stepBetween at taken
  split at taken
  · exact fit.stays taken fits
  cases mode <;> dsimp only at taken
  case value => exact startValue_fits fit taken
  case firstItem =>
    obtain ⟨items, around, rfl⟩ := fits
    split at taken
    · exact closeList_fits fit taken
    · exact startValue_fits fit taken
  case nextItem =>
    split at taken
    · cases taken
    · exact startValue_fits fit taken
  case afterItem =>
    obtain ⟨items, around, rfl⟩ := fits
    split at taken
    · exact fit.stays taken trivial
    · split at taken
      · exact closeList_fits fit taken
      · cases taken
  case firstKey =>
    obtain ⟨inside, rfl, -⟩ := fits
    split at taken
    · exact fit.stays taken fun key => ⟨inside, rfl, List.forall_mem_nil _⟩
    · split at taken
      · exact deliver_fits fit (.object (List.forall_mem_nil _)) taken
      · cases taken
  case nextKey members =>
    split at taken
    · exact fit.stays taken fits
    · split at taken <;> cases taken
  case colon frame =>
    obtain ⟨inside, rfl, opened⟩ := fits
    split at taken
    · obtain rfl := Except.ok.inj taken
      exact ⟨inside, .cons opened fit, trivial⟩
    · cases taken
  case afterMember members =>
    split at taken
    · exact fit.stays taken fits
    · split at taken
      · obtain ⟨inside, rfl, opened⟩ := fits ""
        exact deliver_fits fit (.object opened) taken
      · cases taken
  case numberEnd text =>
    split at taken
    · exact deliver_fits fit .number taken
    · split at taken <;> cases taken
  all_goals cases taken

theorem fits_of_map {α : Type} {found : Except StepFault α} {next : α → State}
    (taken : found.map next = .ok s) (fits : ∀ a, (next a).Fits) : s.Fits := by
  cases found with
  | error fault => cases taken
  | ok a =>
    obtain rfl := Except.ok.inj taken
    exact fits a

/-- One character leaves everything in its room. -/
theorem step_fits (fits : s.Fits) (taken : step s c = .ok s') : s'.Fits := by
  obtain ⟨room, fit, fits⟩ := fits
  obtain ⟨frames, mode⟩ := s
  cases mode with
  | word rest found =>
    cases rest with
    | nil => exact stepBetween_fits fit fits taken
    | cons expected rest =>
      simp only [step] at taken
      split at taken
      · cases taken
      · split at taken
        · exact deliver_fits fit fits taken
        · exact fit.stays taken fits
  | number part text =>
    simp only [step] at taken
    split at taken
    · exact fit.stays taken trivial
    · -- The number is delivered, and then the character is taken between values.
      cases delivered : deliver 0 frames (.number text) with
      | error fault => simp [delivered, bind, Except.bind] at taken
      | ok next =>
        obtain ⟨room', fit', fits'⟩ := deliver_fits fit .number delivered
        rw [delivered] at taken
        exact stepBetween_fits fit' fits' taken
    · cases taken
  | string purpose part text =>
    have inside : ∀ part text, Mode.Fits room frames (.string purpose part text) := by
      cases purpose
      · exact fun _ _ => trivial
      · exact fun _ _ => fits
    cases part with
    | plain =>
      simp only [step] at taken
      split at taken
      · exact closeString_fits fit fits taken
      · exact fits_of_map taken fun _ => ⟨room, fit, inside _ _⟩
    | _ => exact fits_of_map taken fun _ => ⟨room, fit, inside _ _⟩
  | _ => exact stepBetween_fits fit fits taken

theorem Reads.fits {cs : List Char} (reads : Reads s cs s') (fits : s.Fits) : s'.Fits := by
  induction reads with
  | nil => exact fits
  | cons first _ ih => exact ih (step_fits fits first)

theorem finish_within {j : Json} (fits : s.Fits) (finished : finish s = .ok j) :
    j.Within maxDepth := by
  obtain ⟨room, fit, fits⟩ := fits
  obtain ⟨frames, mode⟩ := s
  cases mode with
  | done found =>
    obtain rfl := Except.ok.inj finished
    exact fits
  | number part text =>
    simp only [finish] at finished
    split at finished
    · cases delivered : deliver 0 frames (.number text) with
      | error fault => simp [delivered, bind, Except.bind] at finished
      | ok next =>
        obtain ⟨room', fit', fits'⟩ := deliver_fits fit .number delivered
        obtain ⟨frames', mode'⟩ := next
        rw [delivered] at finished
        cases mode' with
        | done found =>
          obtain rfl := Except.ok.inj finished
          exact fits'
        | _ => cases finished
    · cases finished
  | _ => cases finished

end Steps

end Reader

/-- What is read is not deeper than may be open at once. -/
theorem within_of_read {text : String} {j : Json} (h : read text = .ok j) :
    j.Within Reader.maxDepth := by
  obtain ⟨s, reads, finished⟩ := (Reader.read_eq_ok_iff text j).mp h
  exact Reader.finish_within (reads.fits ⟨_, .nil, trivial⟩) finished

end Intake.Json
