import Intake.Proofs.Value.Walks

/-!
# Paths that go on behind a path

Where no key has a dot, the value at a path is what its segments lead to, one after the other.
So a path that goes on behind another one leads to what its rest leads to in the value at the
other.
-/

namespace Intake

def Misuse.atPath (path : String) : Misuse → Misuse
  | .badPath fault _ => .badPath fault path
  | misuse => misuse

namespace Value

variable {v w : Value}

/-- The value to which some segments lead: the value itself, if there is none. -/
def walkOn (v : Value) : List String → Except PathFault (Option Value)
  | [] => .ok (some v)
  | first :: rest => v.walk first rest

theorem DotFree.walkOn_cons (h : v.DotFree) (first : String) (rest : List String) :
    v.walkOn (first :: rest) =
      match v.child first with
      | .error fault => .error fault
      | .ok none => .ok none
      | .ok (some w) => w.walkOn rest := by
  cases rest with
  | nil =>
    rw [walkOn, walk]
    cases v.child first with
    | error fault => rfl
    | ok found => cases found <;> rfl
  | cons next rest =>
    have dotted : '.' ∈ (Text.joinDots first (next :: rest)).toList := by simp [Text.joinDots]
    rw [walkOn, walk, h.verbatim dotted]
    rfl

theorem DotFree.walkOn {path : List String} (h : v.DotFree)
    (found : v.walkOn path = .ok (some w)) : w.DotFree := by
  induction path generalizing v with
  | nil =>
    obtain rfl := Option.some.inj (Except.ok.inj found)
    exact h
  | cons first path ih =>
    rw [h.walkOn_cons] at found
    split at found
    · cases found
    · cases found
    · next child => exact ih (h.child child) found

theorem DotFree.walkOn_append (h : v.DotFree) (path more : List String) :
    v.walkOn (path ++ more) =
      match v.walkOn path with
      | .error fault => .error fault
      | .ok none => .ok none
      | .ok (some w) => w.walkOn more := by
  induction path generalizing v with
  | nil => rfl
  | cons first path ih =>
    rw [List.cons_append, h.walkOn_cons, h.walkOn_cons]
    cases child : v.child first with
    | error fault => rfl
    | ok found =>
      cases found with
      | none => rfl
      | some w => exact ih (h.child child)

end Value

namespace Object

theorem get_eq_walkOn (o : Object) (path : String) :
    o.get path = ((Value.object o).walkOn (pathOf path)).mapError (.badPath · path) :=
  get_eq_walk o path

/-- The value at a path that goes on behind another one. A fault on the way to the first path stays
the fault, and where nothing is there is nothing behind it. Else the rest of the path leads on from
the value at the first: nowhere in a scalar, to what an object has at the rest, and in an array to
the item of the first segment and on from it. -/
theorem get_append_path {o : Object} (plain : (Value.object o).DotFree) (path more : String) :
    o.get (path ++ "." ++ more) =
      match o.get path with
      | .error misuse => .error (misuse.atPath (path ++ "." ++ more))
      | .ok none => .ok none
      | .ok (some (.scalar _ _)) => .ok none
      | .ok (some (.object inner)) =>
        (inner.get more).mapError (Misuse.atPath (path ++ "." ++ more))
      | .ok (some (.array items)) =>
        match readIndex (Text.segments more).1 with
        | none =>
          .error (.badPath (.notAnIndex (Text.segments more).1) (path ++ "." ++ more))
        | some index =>
          match items[index]? with
          | none => .error (.badPath (.outOfBounds index items.length) (path ++ "." ++ more))
          | some item =>
            (item.walkOn (Text.segments more).2).mapError (.badPath · (path ++ "." ++ more)) := by
  rw [get_eq_walkOn, get_eq_walkOn o path, pathOf_append, plain.walkOn_append]
  cases descent : (Value.object o).walkOn (pathOf path) with
  | error fault => rfl
  | ok found =>
    cases found with
    | none => rfl
    | some v =>
      have inside := plain.walkOn descent
      cases v with
      | scalar =>
        dsimp only [Except.mapError]
        rw [pathOf, inside.walkOn_cons]
        rfl
      | object inner =>
        dsimp only [Except.mapError]
        rw [get_eq_walkOn]
        cases (Value.object inner).walkOn (pathOf more) <;> rfl
      | array items =>
        dsimp only [Except.mapError]
        rw [pathOf, inside.walkOn_cons, Value.child]
        cases readIndex (Text.segments more).1 with
        | none => rfl
        | some index =>
          dsimp only
          cases items[index]? <;> rfl

def samplePerson : Object :=
  ⟨[("name", .string "Alice"),
    ("addresses", .array [.object ⟨[("city", .string "Lisbon")]⟩])]⟩

theorem dotFree_samplePerson : (Value.object samplePerson).DotFree := by
  have address : (Value.object ⟨[("city", .string "Lisbon")]⟩).DotFree := by
    refine .object (by decide) fun e he => ?_
    obtain rfl := List.mem_singleton.mp he
    exact .scalar
  refine .object (by decide) fun e he => ?_
  simp only [samplePerson, List.mem_cons, List.not_mem_nil, or_false] at he
  rcases he with rfl | rfl
  · exact .scalar
  · refine .array fun v hv => ?_
    obtain rfl := List.mem_singleton.mp hv
    exact address

theorem get_append_path_samplePerson :
    (Value.object samplePerson).DotFree ∧
      samplePerson.get "addresses.0.city" = .ok (some (.string "Lisbon")) ∧
      samplePerson.get "name.first" = .ok none ∧
      samplePerson.get "addresses.1.city" =
        .error (.badPath (.outOfBounds 1 1) "addresses.1.city") := by
  have plain := dotFree_samplePerson
  refine ⟨plain, ?_, ?_, ?_⟩
  · exact get_append_path plain "addresses" "0.city"
  · exact get_append_path plain "name" "first"
  · exact get_append_path plain "addresses.1" "city"

end Object

end Intake
