import Telegravim.Foundation.Exact

set_option autoImplicit false

/-!
# Reading by an offset

Code that reads bytes by a pointer and an offset checks itself that enough of them are left. A cursor is such code,
with an outcome of its own for a byte that is read past the end. A cursor that follows a reader reads what the reader
does, and nothing past the end.

## Main definitions

* `Cursor` — code that reads by an offset.
* `Cursor.bytes` — the next bytes, after a check that they are there.
* `Cursor.before`, `Cursor.atEnd` — what was read, and whether all was.
* `Cursor.Follows` — a cursor reads what a reader does.

## Main results

* `Cursor.Follows.bind`, `Cursor.Follows.bytes`, `Cursor.Follows.times` — cursors put together.
* `Cursor.Follows.outcome` — a cursor that follows a reader has its outcome.
-/

/-- Code that reads by an offset: from the data and an offset to a value and the offset behind it, or to a text. There
is no outcome where a byte past the end is read. -/
def Cursor (α : Type) := Bytes → ℕ → Option (Except String (α × ℕ))

namespace Cursor

variable {α β : Type}

/-- The value without reading. -/
def pure (x : α) : Cursor α := fun _ offset => some (.ok (x, offset))

/-- One cursor after the other. -/
def bind (c : Cursor α) (next : α → Cursor β) : Cursor β := fun data offset =>
  match c data offset with
  | none => none
  | some (.error fault) => some (.error fault)
  | some (.ok (x, offset)) => next x data offset

instance instMonadCursor : Monad Cursor where
  pure := pure
  bind := bind

def fail (fault : String) : Cursor α := fun _ _ => some (.error fault)

def require (condition : Prop) [Decidable condition] (fault : String) : Cursor Unit := fun _ offset =>
  if condition then some (.ok ((), offset)) else some (.error fault)

def ofOption (fault : String) : Option α → Cursor α
  | none => fail fault
  | some x => pure x

/-- The difference of two sizes, as unsigned numbers of 64 bits have it. It is large where the offset is past the end. -/
def difference (size offset : ℕ) : ℕ :=
  if offset ≤ size then size - offset else size + 18446744073709551616 - offset

/-- Bytes copied from memory. -/
def copy (data : Bytes) (offset count : ℕ) : Option Bytes :=
  if offset + count ≤ data.length then some ((data.drop offset).take count) else none

/-- The next bytes, where the difference of size and offset says that they are there. -/
def bytes (fault : String) (count : ℕ) : Cursor Bytes := fun data offset =>
  if difference data.length offset < count then some (.error fault)
  else (copy data offset count).map fun read => .ok (read, offset + count)

/-- The bytes before the offset. -/
def before : Cursor Bytes := fun data offset => some (.ok (data.take offset, offset))

/-- Fails where the offset is not at the end. -/
def atEnd (fault : String) : Cursor Unit := fun data offset =>
  if offset = data.length then some (.ok ((), offset)) else some (.error fault)

def times (c : Cursor α) : ℕ → Cursor (List α)
  | 0 => pure []
  | count + 1 => bind c fun x => bind (times c count) fun rest => pure (x :: rest)

/-- The next byte. -/
def u8 (fault : String) : Cursor ℕ := bind (bytes fault 1) fun read => pure (Reader.number read)

/-- The next number of 32 bits. -/
def u32 (fault : String) : Cursor ℕ := bind (bytes fault 4) fun read => pure (Reader.number read)

/-- The next number of 64 bits, in two halves. -/
def u64 (fault : String) : Cursor ℕ :=
  bind (u32 fault) fun low => bind (u32 fault) fun high => pure (low + 256 ^ 4 * high)

/-- The next bytes with their length before them, not empty and not too long. -/
def block (sizeFault fault : String) (limit : ℕ) : Cursor Bytes :=
  bind (u32 sizeFault) fun length =>
    bind (require (length ≠ 0 ∧ length ≤ limit) sizeFault) fun _ => bytes fault length

/-- **A cursor follows a reader**: from every offset that is not past the end it has the reader's outcome for the bytes
from there on. -/
structure Follows (c : Cursor α) (r : Reader α) : Prop where
  looks : Reader.Local r
  run : ∀ (data : Bytes) (offset : ℕ), offset ≤ data.length →
    c data offset = some ((r (data.drop offset)).map fun read => (read.1, data.length - read.2.length))

lemma difference_eq {size offset : ℕ} (hoffset : offset ≤ size) : difference size offset = size - offset := by
  rw [difference, if_pos hoffset]

lemma bind_ok {c : Cursor α} {data : Bytes} {offset middle : ℕ} {x : α} (h : c data offset = some (.ok (x, middle)))
    (next : α → Cursor β) : bind c next data offset = next x data middle := by
  rw [bind, h]

lemma bind_error {c : Cursor α} {data : Bytes} {offset : ℕ} {fault : String} (h : c data offset = some (.error fault))
    (next : α → Cursor β) : bind c next data offset = some (.error fault) := by
  rw [bind, h]

namespace Follows

protected lemma pure (x : α) : Follows (pure x) (Reader.pure x) where
  looks := Reader.Local.pure x
  run data offset hoffset := by
    have hback : data.length - (data.length - offset) = offset := by omega
    rw [Cursor.pure, Reader.pure, Except.map, List.length_drop, hback]

protected lemma fail (fault : String) : Follows (fail fault : Cursor α) (Reader.fail fault) where
  looks := Reader.Local.fail fault
  run _ _ _ := rfl

protected lemma ofOption (fault : String) (value : Option α) :
    Follows (ofOption fault value) (Reader.ofOption fault value) := by
  cases value with
  | none => exact Follows.fail fault
  | some x => exact Follows.pure x

protected lemma require (condition : Prop) [Decidable condition] (fault : String) :
    Follows (require condition fault) (Reader.require condition fault) where
  looks := Reader.Local.require condition fault
  run data offset hoffset := by
    rw [Cursor.require, Reader.require]
    by_cases h : condition
    · have hback : data.length - (data.length - offset) = offset := by omega
      rw [if_pos h, if_pos h, Except.map, List.length_drop, hback]
    · rw [if_neg h, if_neg h]
      rfl

/-- **The next bytes are read where they are there**, and none is read past the end. -/
protected theorem bytes (fault : String) (count : ℕ) : Follows (bytes fault count) (Reader.bytes fault count) where
  looks := Reader.Local.bytes fault count
  run data offset hoffset := by
    rw [Cursor.bytes, Reader.bytes, difference_eq hoffset, List.length_drop]
    by_cases h : count ≤ data.length - offset
    · have hback : data.length - (data.length - offset - count) = offset + count := by omega
      rw [if_neg (by omega), if_pos h, copy, if_pos (by omega), Option.map_some, Except.map, List.length_drop,
        List.length_drop, hback]
    · rw [if_pos (by omega), if_neg h]
      rfl

/-- **Cursors one after the other follow readers one after the other.** -/
protected theorem bind {c : Cursor α} {r : Reader α} {next : α → Cursor β} {next' : α → Reader β} (hc : Follows c r)
    (hnext : ∀ x, Follows (next x) (next' x)) : Follows (bind c next) (Reader.bind r next') where
  looks := hc.looks.bind fun x => (hnext x).looks
  run data offset hoffset := by
    rw [Cursor.bind, hc.run data offset hoffset, Reader.bind]
    rcases hread : r (data.drop offset) with fault | ⟨x, rest⟩
    · rfl
    · obtain ⟨taken, hsplit, -⟩ := hc.looks _ _ _ hread
      have hlength : rest.length ≤ data.length := by
        have := congrArg List.length hsplit
        rw [List.length_drop, List.length_append] at this
        omega
      have hrest : data.drop (data.length - rest.length) = rest := by
        have hwhole : data = data.take offset ++ taken ++ rest := by
          rw [List.append_assoc, ← hsplit, List.take_append_drop]
        have hbefore : data.length - rest.length = (data.take offset ++ taken).length := by
          have := congrArg List.length hwhole
          rw [List.length_append] at this
          omega
        rw [hbefore]
        exact (congrArg (List.drop _) hwhole).trans List.drop_left
      rw [Except.map]
      dsimp only
      rw [(hnext x).run data _ (Nat.sub_le _ _), hrest]

protected lemma u8 (fault : String) : Follows (u8 fault) (Reader.u8 fault) :=
  (Follows.bytes fault 1).bind fun _ => Follows.pure _

protected lemma u32 (fault : String) : Follows (u32 fault) (Reader.u32 fault) :=
  (Follows.bytes fault 4).bind fun _ => Follows.pure _

protected lemma u64 (fault : String) : Follows (u64 fault) (Reader.u64 fault) := by
  rw [Reader.u64_eq]
  exact (Follows.u32 fault).bind fun _ => (Follows.u32 fault).bind fun _ => Follows.pure _

protected lemma block (sizeFault fault : String) (limit : ℕ) :
    Follows (block sizeFault fault limit) (Reader.block sizeFault fault limit) :=
  (Follows.u32 sizeFault).bind fun _ => (Follows.require _ _).bind fun _ => Follows.bytes _ _

protected lemma times {c : Cursor α} {r : Reader α} (hc : Follows c r) (count : ℕ) :
    Follows (times c count) (Reader.times r count) := by
  induction count with
  | zero => exact Follows.pure _
  | succ count ih => exact hc.bind fun _ => ih.bind fun _ => Follows.pure _

/-- **A cursor that follows a reader has its outcome** for the whole data, with the offset behind what was read. -/
theorem outcome {c : Cursor α} {r : Reader α} (hc : Follows c r) (data : Bytes) :
    c data 0 = some ((r data).map fun read => (read.1, data.length - read.2.length)) := by
  have hrun := hc.run data 0 (Nat.zero_le _)
  rwa [List.drop_zero] at hrun

end Follows

end Cursor
