import Telegravim.Foundation.OrdMap
import Telegravim.Foundation.Text
import Mathlib.Data.Rat.Floor

set_option autoImplicit false

/-!
# JSON values

JSON values with exact numbers, and objects as maps ordered by their keys. A value read from
an object may be missing; the reading functions then give the default of their kind, as the
accessors of a JSON library do.

A nested object is kept as its list of entries, since a nested inductive type cannot hold the
proof that they are sorted; `Json.toObject` reads such a list as a map, and on the entries of a
map it gives the map back (`Json.toObject_ofObject`).

## Main definitions

* `Json`, `JObject` — values and objects.
* `Json.toObject`, `Json.ofObject` — objects in and out of values.
* `Json.asText`, `Json.asArray`, `Json.asObject`, `Json.asBool`, `Json.asDouble`,
  `Json.asInt` — reading a possibly missing value.
-/

/-- A JSON value. -/
inductive Json where
  | null
  | bool (value : Bool)
  | num (value : ℚ)
  | str (value : Text)
  | arr (values : List Json)
  | obj (entries : List (Text × Json))

/-- A JSON object, as a map ordered by its keys. -/
abbrev JObject := OrdMap Text Json

namespace Json

/-! ### Decidable equality -/

mutual

/-- Whether two values are equal. -/
def beq : Json → Json → Bool
  | null, null => true
  | bool a, bool b => a == b
  | num a, num b => a == b
  | str a, str b => a == b
  | arr a, arr b => beqList a b
  | obj a, obj b => beqEntries a b
  | _, _ => false

/-- Whether two arrays are equal. -/
def beqList : List Json → List Json → Bool
  | [], [] => true
  | a :: as, b :: bs => beq a b && beqList as bs
  | _, _ => false

/-- Whether two entry lists are equal. -/
def beqEntries : List (Text × Json) → List (Text × Json) → Bool
  | [], [] => true
  | (j, a) :: as, (k, b) :: bs => j == k && beq a b && beqEntries as bs
  | _, _ => false

end

mutual

lemma beq_iff : ∀ a b : Json, beq a b = true ↔ a = b
  | null, b => by cases b <;> simp [beq]
  | bool a, b => by cases b <;> simp [beq]
  | num a, b => by cases b <;> simp [beq]
  | str a, b => by cases b <;> simp [beq]
  | arr a, b => by cases b <;> simp [beq, beqList_iff a]
  | obj a, b => by cases b <;> simp [beq, beqEntries_iff a]

lemma beqList_iff : ∀ a b : List Json, beqList a b = true ↔ a = b
  | [], b => by cases b <;> simp [beqList]
  | a :: as, b => by cases b <;> simp [beqList, beq_iff a, beqList_iff as]

lemma beqEntries_iff : ∀ a b : List (Text × Json), beqEntries a b = true ↔ a = b
  | [], b => by cases b <;> simp [beqEntries]
  | (j, a) :: as, b => by
    rcases b with _ | ⟨⟨k, b⟩, bs⟩
    · simp [beqEntries]
    · simp [beqEntries, beq_iff a, beqEntries_iff as]

end

instance : DecidableEq Json := fun a b => decidable_of_iff (beq a b = true) (beq_iff a b)

instance : Inhabited Json := ⟨null⟩

/-! ### Objects and accessors -/

/-- The object as a value. -/
def ofObject (o : JObject) : Json := obj o.entries

/-- A value as an object; the empty one for a value of another kind. -/
def toObject : Json → JObject
  | obj entries => OrdMap.ofList entries
  | _ => ∅

@[simp] lemma toObject_ofObject (o : JObject) : toObject (ofObject o) = o :=
  OrdMap.ofList_entries o

/-- Whether a value is an object. -/
def isObject : Json → Bool
  | obj _ => true
  | _ => false

/-- Whether a value is an array. -/
def isArray : Json → Bool
  | arr _ => true
  | _ => false

/-- The text of a value; empty when it is missing or of another kind. -/
def asText : Option Json → Text
  | some (str s) => s
  | _ => []

/-- The elements of a value; none when it is missing or of another kind. -/
def asArray : Option Json → List Json
  | some (arr l) => l
  | _ => []

/-- The object of a value; empty when it is missing or of another kind. -/
def asObject : Option Json → JObject
  | some j => j.toObject
  | none => ∅

/-- The truth of a value; false when it is missing or of another kind. -/
def asBool : Option Json → Bool
  | some (bool b) => b
  | _ => false

/-- The number of a value, or a default when it is missing or of another kind. -/
def asDouble (default : ℚ) : Option Json → ℚ
  | some (num q) => q
  | _ => default

/-- The integer of a value; zero when it is missing, of another kind, fractional or outside
the 32-bit range. -/
def asInt : Option Json → ℤ
  | some (num q) => if q.den = 1 ∧ -2147483648 ≤ q.num ∧ q.num ≤ 2147483647 then q.num else 0
  | _ => 0

/-- Whether a value is present and is an object. -/
def isObjectValue (j : Option Json) : Bool := j.any isObject

/-- Whether a value is present and is an array. -/
def isArrayValue (j : Option Json) : Bool := j.any isArray

/-- Whether a value is present and is a text. -/
def isTextValue : Option Json → Bool
  | some (str _) => true
  | _ => false

/-- Whether a value is present and is a truth value. -/
def isBoolValue : Option Json → Bool
  | some (bool _) => true
  | _ => false

@[simp] lemma asText_str (s : Text) : asText (some (str s)) = s := rfl

@[simp] lemma asArray_arr (l : List Json) : asArray (some (arr l)) = l := rfl

@[simp] lemma asBool_bool (b : Bool) : asBool (some (bool b)) = b := rfl

@[simp] lemma asObject_ofObject (o : JObject) : asObject (some (ofObject o)) = o :=
  toObject_ofObject o

@[simp] lemma isObjectValue_ofObject (o : JObject) : isObjectValue (some (ofObject o)) = true :=
  rfl

@[simp] lemma isTextValue_str (s : Text) : isTextValue (some (str s)) = true := rfl

@[simp] lemma isBoolValue_bool (b : Bool) : isBoolValue (some (bool b)) = true := rfl

end Json
