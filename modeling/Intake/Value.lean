import Intake.Entries
import Intake.Kind

/-!
# Values

A value is a scalar of some kind, an array of values, or an object, whose entries
keep the order in which their keys were first stored.
-/

namespace Intake

mutual

inductive Value where
  | scalar (kind : Kind) (value : kind.Carrier)
  | array (items : List Value)
  | object (members : Object)

/-- Values by key, in the order in which the keys were first stored. -/
structure Object where
  entries : List (String × Value)

end

namespace Value

def typeName : Value → String
  | .scalar kind _ => kind.name
  | .array _ => "array"
  | .object _ => "object"

def string (s : String) : Value := .scalar .string s

def bool (b : Bool) : Value := .scalar .bool b

def isObject : Value → Bool
  | .object _ => true
  | _ => false

end Value

namespace Object

def empty : Object := ⟨[]⟩

/-- The value of an entry; its key is taken as it is, dots included. -/
def find? (o : Object) (key : String) : Option Value := Entries.lookup key o.entries

def contains (o : Object) (key : String) : Bool := (o.find? key).isSome

/-- The object with a value under a key: in its place if there is an entry, else as the last. -/
def put (o : Object) (key : String) (value : Value) : Object := ⟨Entries.put key value o.entries⟩

def keys (o : Object) : List String := o.entries.map Prod.fst

def size (o : Object) : Nat := o.entries.length

def isEmpty (o : Object) : Bool := o.entries.isEmpty

/-- The keys in increasing order. -/
def fields (o : Object) : List String := o.keys.mergeSort (fun a b => decide (a ≤ b))

@[simp] theorem find?_empty (key : String) : empty.find? key = none := rfl

theorem find?_put (o : Object) (key k : String) (value : Value) :
    (o.put key value).find? k = if key = k then some value else o.find? k :=
  Entries.lookup_put key k value o.entries

theorem keys_put (o : Object) (key : String) (value : Value) :
    (o.put key value).keys = if key ∈ o.keys then o.keys else o.keys ++ [key] :=
  Entries.keys_put key value o.entries

end Object

/-! ### Equality -/

mutual

/-- Equality of values: scalars of one kind by its equality, arrays item by item, objects by the
entries of each key, whatever their order. -/
def Value.same (v w : Value) : Bool :=
  match v, w with
  | .scalar kind a, .scalar kind' b => if h : kind = kind' then kind.same a (h ▸ b) else false
  | .array items, .array items' => sameItems items items'
  | .object o, .object o' => o.same o'
  | _, _ => false
termination_by structural v

def sameItems (as bs : List Value) : Bool :=
  match as, bs with
  | [], [] => true
  | a :: as, b :: bs => a.same b && sameItems as bs
  | _, _ => false
termination_by structural as

/-- Equality of objects: as many entries, and equal values under the same keys. -/
def Object.same (o o' : Object) : Bool :=
  match o with
  | ⟨entries⟩ => entries.length == o'.size && sameEntries entries o'
termination_by structural o

def sameEntries (entries : List (String × Value)) (o : Object) : Bool :=
  match entries with
  | [] => true
  | (key, value) :: rest =>
    (match o.find? key with
      | some value' => value.same value'
      | none => false) && sameEntries rest o
termination_by structural entries

end

end Intake
