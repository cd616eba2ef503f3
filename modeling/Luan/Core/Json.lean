import Luan.Core.SwiftText
import Mathlib.Data.Rat.Floor
import Mathlib.Logic.Function.Basic

/-!
# JSON documents

JSON as two libraries see it: `JSONSerialization`, which makes dictionaries of untyped values, and
`JSONDecoder`, which reads each key at a type.  A document is the object at its top; what its keys
mean is independent of their order.

* `Json.int?`, `Json.bool?`, `Json.string?` — a value read at a type.
* `JsonObject.decode`, `JsonObject.decodeIfPresent` — a key that is required, and one that is not.
  A missing key is not an error for the second, nor is `null`.
* `Json.nsNumber?`, `integerValue` — a value as an `NSNumber`, which truth values are, too.
* `JsonObject.set`, `JsonObject.setIfPresent`, `JsonObject.ofFields` — the encoder's side.
-/

namespace Luan

/-- A JSON value.  A number is the one that the library makes of its digits. -/
inductive Json
  | null
  | bool (value : Bool)
  | number (value : ℚ)
  | string (value : String)
  | array (items : List Json)
  | object (members : List (String × Json))

/-- The object at the top of a document. -/
abbrev JsonObject := String → Option Json

namespace Json

def ofInt (n : SwiftInt) : Json := .number (n.1 : ℚ)

/-! ## Values at a type -/

def string? : Json → Option String
  | .string value => some value
  | _ => none

def bool? : Json → Option Bool
  | .bool value => some value
  | _ => none

/-- An integer, if it is in the range of the type. -/
def int? : Json → Option SwiftInt
  | .number value =>
      if h : value.den = 1 ∧ intMin ≤ value.num ∧ value.num ≤ intMax then
        some ⟨value.num, h.2⟩
      else none
  | _ => none

/-- `as? NSNumber` -/
def nsNumber? : Json → Option ℚ
  | .number value => some value
  | .bool value => some (if value then 1 else 0)
  | _ => none

@[simp]
lemma string?_string (value : String) : (Json.string value).string? = some value := rfl

@[simp]
lemma bool?_bool (value : Bool) : (Json.bool value).bool? = some value := rfl

@[simp]
lemma int?_ofInt (n : SwiftInt) : (ofInt n).int? = some n := by
  simp [ofInt, int?, n.2]

@[simp]
lemma nsNumber?_ofInt (n : SwiftInt) : (ofInt n).nsNumber? = some (n.1 : ℚ) := rfl

end Json

/-- `intValue` of an `NSNumber`: fractions are cut off.  What becomes of a number that is too large
is a parameter. -/
def integerValue (tooLarge : ℚ → SwiftInt) (value : ℚ) : SwiftInt :=
  let n := if 0 ≤ value then ⌊value⌋ else ⌈value⌉
  if h : intMin ≤ n ∧ n ≤ intMax then ⟨n, h⟩ else tooLarge value

@[simp]
lemma integerValue_intCast (tooLarge : ℚ → SwiftInt) (n : SwiftInt) :
    integerValue tooLarge (n.1 : ℚ) = n := by
  simp [integerValue, n.2]

namespace JsonObject

/-! ## Decoding -/

/-- `decode(_:forKey:)` -/
def decode {α : Type} (read : Json → Option α) (o : JsonObject) (key : String) : Option α :=
  match o key with
  | some value => read value
  | none => none

/-- `decodeIfPresent(_:forKey:)`; the outer `none` is an error. -/
def decodeIfPresent {α : Type} (read : Json → Option α) (o : JsonObject) (key : String) :
    Option (Option α) :=
  match o key with
  | none | some .null => some none
  | some value => (read value).map some

/-! ## Encoding -/

def empty : JsonObject := fun _ => none

/-- `o[key] = value`, or `encode(_:forKey:)` -/
def set (o : JsonObject) (key : String) (value : Json) : JsonObject :=
  Function.update o key (some value)

/-- `encodeIfPresent(_:forKey:)` -/
def setIfPresent (o : JsonObject) (key : String) (value : Option Json) : JsonObject :=
  match value with
  | some value => o.set key value
  | none => o

/-- An object with the given fields. -/
def ofFields : List (String × Option Json) → JsonObject
  | [] => empty
  | (key, value) :: fields => (ofFields fields).setIfPresent key value

@[simp]
lemma empty_apply (key : String) : empty key = none := rfl

@[simp]
lemma set_self (o : JsonObject) (key : String) (value : Json) :
    o.set key value key = some value := by
  simp [set]

lemma set_of_ne (o : JsonObject) {key other : String} (value : Json) (h : other ≠ key) :
    o.set key value other = o other := by
  simp [set, h]

lemma set_apply (o : JsonObject) (key other : String) (value : Json) :
    o.set key value other = if other = key then some value else o other := by
  simp [set, Function.update_apply]

@[simp]
lemma setIfPresent_some (o : JsonObject) (key : String) (value : Json) :
    o.setIfPresent key (some value) = o.set key value := rfl

@[simp]
lemma setIfPresent_none (o : JsonObject) (key : String) : o.setIfPresent key none = o := rfl

lemma setIfPresent_apply (o : JsonObject) (key other : String) (value : Option Json) :
    o.setIfPresent key value other = if other = key then value.or (o other) else o other := by
  cases value with
  | none => simp
  | some value => simp [set_apply]

lemma ofFields_of_notMem {fields : List (String × Option Json)} {key : String}
    (h : key ∉ fields.map Prod.fst) : ofFields fields key = none := by
  induction fields with
  | nil => rfl
  | cons field fields ih =>
      simp only [List.map_cons, List.mem_cons, not_or] at h
      rw [ofFields, setIfPresent_apply, if_neg h.1]
      exact ih h.2

/-- **Fields with different keys are found.** -/
lemma ofFields_of_mem {fields : List (String × Option Json)} {key : String} {value : Option Json}
    (hnodup : (fields.map Prod.fst).Nodup) (h : (key, value) ∈ fields) :
    ofFields fields key = value := by
  induction fields with
  | nil => simp at h
  | cons field fields ih =>
      simp only [List.map_cons, List.nodup_cons] at hnodup
      rw [ofFields, setIfPresent_apply]
      rcases List.mem_cons.mp h with rfl | h
      · rw [if_pos rfl, ofFields_of_notMem hnodup.1, Option.or_none]
      · have hmem : key ∈ fields.map Prod.fst := List.mem_map.mpr ⟨_, h, rfl⟩
        have hne : key ≠ field.1 := fun heq => hnodup.1 (heq ▸ hmem)
        rw [if_neg hne]
        exact ih hnodup.2 h

/-- Reading a key only depends on its value. -/
lemma decode_congr {α : Type} {read : Json → Option α} {o o' : JsonObject} {key : String}
    (h : o key = o' key) : o.decode read key = o'.decode read key := by
  rw [decode, decode, h]

lemma decodeIfPresent_congr {α : Type} {read : Json → Option α} {o o' : JsonObject} {key : String}
    (h : o key = o' key) : o.decodeIfPresent read key = o'.decodeIfPresent read key := by
  rw [decodeIfPresent, decodeIfPresent, h]

lemma decode_string {o : JsonObject} {key value : String} (h : o key = some (.string value)) :
    o.decode Json.string? key = some value := by
  simp [decode, h]

lemma decode_bool {o : JsonObject} {key : String} {value : Bool} (h : o key = some (.bool value)) :
    o.decode Json.bool? key = some value := by
  simp [decode, h]

lemma decode_ofInt {o : JsonObject} {key : String} {n : SwiftInt} (h : o key = some (.ofInt n)) :
    o.decode Json.int? key = some n := by
  simp [decode, h]

/-- **A key that may be missing is read as it was written.** -/
lemma decodeIfPresent_eq {α : Type} {o : JsonObject} {read : Json → Option α} {key : String}
    {write : α → Json} {value : Option α} (h : o key = value.map write)
    (hread : ∀ a, read (write a) = some a) (hnull : ∀ a, write a ≠ .null) :
    o.decodeIfPresent read key = some value := by
  cases value with
  | none => simp [decodeIfPresent, h]
  | some a =>
      rw [decodeIfPresent, h, Option.map_some]
      split
      case h_1 hsome => cases hsome
      case h_2 hsome => exact absurd (Option.some.inj hsome) (hnull a)
      case h_3 value _ hsome =>
          rw [← Option.some.inj hsome, hread]
          rfl

lemma decodeIfPresent_string {o : JsonObject} {key : String} {value : Option String}
    (h : o key = value.map .string) : o.decodeIfPresent Json.string? key = some value :=
  decodeIfPresent_eq h (fun _ => rfl) nofun

lemma decodeIfPresent_bool {o : JsonObject} {key : String} {value : Option Bool}
    (h : o key = value.map .bool) : o.decodeIfPresent Json.bool? key = some value :=
  decodeIfPresent_eq h (fun _ => rfl) nofun

lemma decodeIfPresent_ofInt {o : JsonObject} {key : String} {value : Option SwiftInt}
    (h : o key = value.map .ofInt) : o.decodeIfPresent Json.int? key = some value :=
  decodeIfPresent_eq h Json.int?_ofInt fun n => by simp [Json.ofInt]

end JsonObject

end Luan
