import Telegravim.Foundation.Json

set_option autoImplicit false

/-!
# JSON text

The compact text of JSON values, over how numbers and strings are written, and how deep values are
nested.

## Main definitions

* `Json.Writer`, `Json.compact`, `Json.size` — the compact text and its size.
* `Json.bounded` — whether a value is nested no deeper than a bound.
-/

namespace Json

/-- How numbers and strings are written. -/
structure Writer where
  number : ℚ → Bytes
  text : Text → Bytes

/-- The bytes of an ASCII string. -/
def ascii (s : String) : Bytes := s.toList.map fun c => UInt8.ofNat c.toNat

mutual

/-- The compact text of a value. -/
def compact (w : Writer) : Json → Bytes
  | null => ascii "null"
  | bool true => ascii "true"
  | bool false => ascii "false"
  | num q => w.number q
  | str s => w.text s
  | arr values => 91 :: compactValues w values ++ [93]
  | obj entries => 123 :: compactEntries w entries ++ [125]

def compactValues (w : Writer) : List Json → Bytes
  | [] => []
  | [value] => compact w value
  | value :: values => compact w value ++ 44 :: compactValues w values

def compactEntries (w : Writer) : List (Text × Json) → Bytes
  | [] => []
  | [(key, value)] => w.text key ++ 58 :: compact w value
  | (key, value) :: entries =>
    w.text key ++ 58 :: compact w value ++ 44 :: compactEntries w entries

end

/-- The size of the compact text of an object. -/
def size (w : Writer) (o : JObject) : ℤ := (compact w (ofObject o)).length

mutual

/-- Whether a value is nested no deeper than a bound. -/
def bounded : Json → ℕ → Bool
  | arr values, remaining => boundedValues values remaining
  | obj entries, remaining => boundedEntries entries remaining
  | _, _ => true

/-- The elements of an array, one level deeper. -/
def boundedValues : List Json → ℕ → Bool
  | [], _ => true
  | _ :: _, 0 => false
  | value :: values, remaining + 1 => bounded value remaining && boundedValues values (remaining + 1)

/-- The entries of an object, one level deeper. -/
def boundedEntries : List (Text × Json) → ℕ → Bool
  | [], _ => true
  | _ :: _, 0 => false
  | (_, value) :: entries, remaining + 1 =>
    bounded value remaining && boundedEntries entries (remaining + 1)

end

end Json
