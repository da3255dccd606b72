import Mathlib.Data.List.Basic

/-!
# JSON values

Values as a parser returns them, and a codec of which only this is known: what is written of an
object that was read, with one member removed, is read back the same but for its numbers. A
decimal that is written and read again may differ in its last digit.
-/

namespace Json

universe u

/-- The numbers are a parameter. -/
inductive Value (ν : Type u) where
  | null
  | bool (b : Bool)
  | number (n : ν)
  | string (s : String)
  | array (items : List (Value ν))
  | object (members : List (String × Value ν))

namespace Value

variable {ν : Type u}

/-- The member under a key; only objects have any. -/
def get (key : String) : Value ν → Option (Value ν)
  | .object members => members.lookup key
  | _ => none

/-- The Boolean, of a value that is one. -/
def asBool : Value ν → Option Bool
  | .bool b => some b
  | _ => none

mutual

/-- A value without its numbers. -/
def shape : Value ν → Value Unit
  | .null => .null
  | .bool b => .bool b
  | .number _ => .number ()
  | .string s => .string s
  | .array items => .array (shapes items)
  | .object members => .object (memberShapes members)

/-- The values of an array without their numbers. -/
def shapes : List (Value ν) → List (Value Unit)
  | [] => []
  | item :: items => item.shape :: shapes items

/-- The members of an object without their numbers. -/
def memberShapes : List (String × Value ν) → List (String × Value Unit)
  | [] => []
  | (key, value) :: members => (key, value.shape) :: memberShapes members

end

/-- The members of an object other than those under the key. -/
def remove (key : String) (members : List (String × Value ν)) : List (String × Value ν) :=
  members.filter (·.1 ≠ key)

private theorem lookup_memberShapes (key : String) (members : List (String × Value ν)) :
    (memberShapes members).lookup key = (members.lookup key).map shape := by
  induction members with
  | nil => rfl
  | cons member members ih =>
    obtain ⟨other, value⟩ := member
    rw [memberShapes, List.lookup_cons, List.lookup_cons, ih]
    split
    · rfl
    · rfl

/-- The shape of a member is the member of the shape. -/
theorem get_shape (key : String) (value : Value ν) :
    value.shape.get key = (value.get key).map shape := by
  cases value with
  | object members => exact lookup_memberShapes key members
  | _ => rfl

/-- A removed member is gone. -/
theorem lookup_remove_self (key : String) (members : List (String × Value ν)) :
    (remove key members).lookup key = none := by
  rw [List.lookup_eq_none_iff]
  intro member hmember
  have hkey : member.1 ≠ key := of_decide_eq_true (List.mem_filter.mp hmember).2
  rw [bne_iff_ne]
  exact hkey.symm

/-- The other members stay. -/
theorem lookup_remove_of_ne {key other : String} (hne : other ≠ key)
    (members : List (String × Value ν)) :
    (remove key members).lookup other = members.lookup other := by
  induction members with
  | nil => rfl
  | cons member members ih =>
    obtain ⟨name, value⟩ := member
    by_cases hname : name = key
    · have hother : (other == name) = false := by
        rw [hname, beq_eq_false_iff_ne]
        exact hne
      rw [remove, List.filter_cons_of_neg (by simpa using hname), List.lookup_cons, hother]
      exact ih
    · rw [remove, List.filter_cons_of_pos (by simpa using hname), List.lookup_cons,
        List.lookup_cons]
      split
      · rfl
      · exact ih

end Value

/-- A reader and a writer of JSON text. -/
structure Codec (ν : Type u) where
  fromSlice : List UInt8 → Option (Value ν)
  toVec : Value ν → Option (List UInt8)
  fromSlice_toVec : ∀ {octets out : List UInt8} {members : List (String × Value ν)} {key : String},
    fromSlice octets = some (.object members) →
    toVec (.object (Value.remove key members)) = some out →
    ∃ value, fromSlice out = some value ∧
      value.shape = (Value.object (Value.remove key members)).shape

end Json
