import Telegravim.Foundation.Text

set_option autoImplicit false

/-!
# Readers of bytes

A reader takes what it needs from the front of some bytes, or fails with a text. A reader is local when
it has looked at no more than what it took: the same bytes in front of anything else give the same value.

## Main definitions

* `Reader` — a reader, with the bytes that are left as its state.
* `Reader.bytes`, `Reader.u8`, `Reader.u32`, `Reader.u64` — bytes, and numbers with the low byte first.
* `Reader.block` — bytes with their length before them.
* `Reader.Local` — a reader that looks at no more than what it takes.

## Main results

* `Reader.Local.bind`, `Reader.Local.bytes`, `Reader.Local.times` — local readers put together.
* `Reader.Local.unique` — what is read is told from the bytes that were taken.
-/

/-! ### Faults -/

/-- A value that may be missing, with the text for when it is. -/
def orFault {α : Type} (fault : String) : Option α → Except String α
  | none => .error fault
  | some x => .ok x

/-- Nothing, or the text for when the condition does not hold. -/
def checked (condition : Prop) [Decidable condition] (fault : String) : Except String Unit :=
  if condition then .ok () else .error fault

@[simp] lemma orFault_eq_ok {α : Type} {fault : String} {value : Option α} {x : α} :
    orFault fault value = .ok x ↔ value = some x := by
  cases value <;> simp [orFault]

@[simp] lemma checked_eq_ok {condition : Prop} [Decidable condition] {fault : String} {x : Unit} :
    checked condition fault = .ok x ↔ condition := by
  unfold checked
  split_ifs with h <;> simp [h]

@[simp] lemma toOption_eq_ok {α : Type} {value : Except String α} {x : α} :
    value.toOption = some x ↔ value = .ok x := by
  cases value <;> simp [Except.toOption]

/-- What can fail succeeds in two parts when both do. -/
lemma bind_eq_ok {α β : Type} {first : Except String α} {next : α → Except String β} {y : β} :
    (first >>= next) = .ok y ↔ ∃ x, first = .ok x ∧ next x = .ok y := by
  cases first with
  | ok x =>
    constructor
    · intro h
      exact ⟨x, rfl, h⟩
    · rintro ⟨_, hfirst, hnext⟩
      cases hfirst
      exact hnext
  | error fault =>
    constructor
    · intro h
      cases h
    · rintro ⟨_, hfirst, -⟩
      cases hfirst

/-! ### Readers -/

/-- A reader: from bytes to a value and the bytes that are left. -/
def Reader (α : Type) := Bytes → Except String (α × Bytes)

namespace Reader

variable {α β : Type}

/-- The value without reading. -/
def pure (x : α) : Reader α := fun data => .ok (x, data)

/-- One reader after the other. -/
def bind (r : Reader α) (next : α → Reader β) : Reader β := fun data =>
  match r data with
  | .error fault => .error fault
  | .ok (x, rest) => next x rest

instance : Monad Reader where
  pure := pure
  bind := bind

/-- Fails. -/
def fail (fault : String) : Reader α := fun _ => .error fault

/-- Fails when the condition does not hold. -/
def require (condition : Prop) [Decidable condition] (fault : String) : Reader Unit := fun data =>
  if condition then .ok ((), data) else .error fault

/-- A value that may be missing. -/
def ofOption (fault : String) : Option α → Reader α
  | none => fail fault
  | some x => pure x

/-- The next bytes. -/
def bytes (fault : String) (count : ℕ) : Reader Bytes := fun data =>
  if count ≤ data.length then .ok (data.take count, data.drop count) else .error fault

/-- The number that bytes give, the low one first. -/
def number : Bytes → ℕ
  | [] => 0
  | b :: rest => b.toNat + 256 * number rest

/-- The next byte. -/
def u8 (fault : String) : Reader ℕ := bind (bytes fault 1) fun read => pure (number read)

/-- The next number of 32 bits. -/
def u32 (fault : String) : Reader ℕ := bind (bytes fault 4) fun read => pure (number read)

/-- The next number of 64 bits. -/
def u64 (fault : String) : Reader ℕ := bind (bytes fault 8) fun read => pure (number read)

/-- The next bytes with their length before them, not empty and not too long. -/
def block (sizeFault fault : String) (limit : ℕ) : Reader Bytes :=
  bind (u32 sizeFault) fun length =>
    bind (require (length ≠ 0 ∧ length ≤ limit) sizeFault) fun _ => bytes fault length

/-- A number of values, one after the other. -/
def times (r : Reader α) : ℕ → Reader (List α)
  | 0 => pure []
  | count + 1 => bind r fun x => bind (times r count) fun rest => pure (x :: rest)

/-- A reader that looks at no more than what it takes. -/
def Local (r : Reader α) : Prop :=
  ∀ data x rest, r data = .ok (x, rest) →
    ∃ taken, data = taken ++ rest ∧ ∀ other, r (taken ++ other) = .ok (x, other)

lemma bind_ok {r : Reader α} {next : α → Reader β} {data rest : Bytes} {y : β} :
    bind r next data = .ok (y, rest) ↔
      ∃ x middle, r data = .ok (x, middle) ∧ next x middle = .ok (y, rest) := by
  unfold bind
  constructor
  · intro h
    split at h
    · cases h
    · rename_i x middle hread
      exact ⟨x, middle, hread, h⟩
  · rintro ⟨x, middle, hread, hnext⟩
    rw [hread]
    exact hnext

lemma u8_cons (fault : String) (byte : UInt8) (rest : Bytes) : u8 fault (byte :: rest) = .ok (byte.toNat, rest) := by
  rw [u8, bind, bytes, if_pos (by rw [List.length_cons]; omega)]
  rfl

/-- Values are read one after another, where each is read from its print whatever comes after it. -/
lemma times_flatMap {r : Reader α} {print : α → Bytes} {l : List α}
    (h : ∀ x ∈ l, ∀ rest, r (print x ++ rest) = .ok (x, rest)) (rest : Bytes) :
    times r l.length (l.flatMap print ++ rest) = .ok (l, rest) := by
  induction l with
  | nil => rfl
  | cons x l ih =>
    obtain ⟨hx, hl⟩ := List.forall_mem_cons.mp h
    rw [List.length_cons, times, List.flatMap_cons, List.append_assoc]
    exact bind_ok.mpr ⟨x, _, hx _, bind_ok.mpr ⟨l, rest, ih hl, rfl⟩⟩

/-- A reader takes at least as many bytes as the print of the value has. -/
def Covers (r : Reader α) (print : α → Bytes) : Prop :=
  ∀ data x rest, r data = .ok (x, rest) → ∃ taken, data = taken ++ rest ∧ (print x).length ≤ taken.length

/-- Values that are read one after another are as many as are asked for, and no shorter than their prints. -/
protected lemma Covers.times {r : Reader α} {print : α → Bytes} (hr : Covers r print) (count : ℕ) :
    Covers (times r count) (fun l => l.flatMap print) ∧
      ∀ data l rest, times r count data = .ok (l, rest) → l.length = count := by
  induction count with
  | zero =>
    refine ⟨fun data l rest h => ?_, fun data l rest h => ?_⟩
    · cases h
      exact ⟨[], rfl, le_rfl⟩
    · cases h
      rfl
  | succ count ih =>
    obtain ⟨ihcovers, ihlength⟩ := ih
    refine ⟨fun data l rest h => ?_, fun data l rest h => ?_⟩
    · obtain ⟨x, middle, hread, hthen⟩ := bind_ok.mp h
      obtain ⟨more, left, hmore, hpure⟩ := bind_ok.mp hthen
      cases hpure
      obtain ⟨taken, hdata, hsize⟩ := hr _ _ _ hread
      obtain ⟨taken', hmiddle, hsize'⟩ := ihcovers _ _ _ hmore
      refine ⟨taken ++ taken', by rw [hdata, hmiddle, List.append_assoc], ?_⟩
      dsimp only
      rw [List.flatMap_cons, List.length_append, List.length_append]
      exact Nat.add_le_add hsize hsize'
    · obtain ⟨x, middle, -, hthen⟩ := bind_ok.mp h
      obtain ⟨more, left, hmore, hpure⟩ := bind_ok.mp hthen
      cases hpure
      rw [List.length_cons, ihlength _ _ _ hmore]

namespace Local

protected lemma pure (x : α) : Local (pure x) := by
  intro data y rest h
  cases h
  exact ⟨[], rfl, fun _ => rfl⟩

protected lemma fail (fault : String) : Local (fail fault : Reader α) := by
  intro data y rest h
  cases h

/-- **Local readers one after the other are local.** -/
protected theorem bind {r : Reader α} {next : α → Reader β} (hr : Local r)
    (hnext : ∀ x, Local (next x)) : Local (bind r next) := by
  intro data y rest h
  obtain ⟨x, middle, hread, hthen⟩ := bind_ok.mp h
  obtain ⟨first, rfl, hfirst⟩ := hr data x middle hread
  obtain ⟨second, rfl, hsecond⟩ := hnext x middle y rest hthen
  refine ⟨first ++ second, (List.append_assoc _ _ _).symm, fun other => bind_ok.mpr ?_⟩
  refine ⟨x, second ++ other, ?_, hsecond other⟩
  rw [List.append_assoc]
  exact hfirst _

protected lemma require (condition : Prop) [Decidable condition] (fault : String) :
    Local (require condition fault) := by
  intro data y rest h
  unfold require at h ⊢
  split_ifs at h with hcondition
  cases h
  exact ⟨[], rfl, fun _ => by rw [if_pos hcondition]; rfl⟩

protected lemma bytes (fault : String) (count : ℕ) : Local (bytes fault count) := by
  intro data y rest h
  unfold bytes at h ⊢
  split_ifs at h with hcount
  cases h
  refine ⟨data.take count, (List.take_append_drop _ _).symm, fun other => ?_⟩
  have hlength : (data.take count).length = count := List.length_take_of_le hcount
  rw [if_pos (by rw [List.length_append]; omega), List.take_left' hlength, List.drop_left' hlength]

protected lemma u8 (fault : String) : Local (u8 fault) :=
  (Local.bytes fault 1).bind fun _ => Local.pure _

protected lemma u32 (fault : String) : Local (u32 fault) :=
  (Local.bytes fault 4).bind fun _ => Local.pure _

protected lemma u64 (fault : String) : Local (u64 fault) :=
  (Local.bytes fault 8).bind fun _ => Local.pure _

protected lemma ofOption (fault : String) (value : Option α) : Local (ofOption fault value) := by
  cases value with
  | none => exact Local.fail fault
  | some x => exact Local.pure x

protected lemma block (sizeFault fault : String) (limit : ℕ) : Local (block sizeFault fault limit) :=
  (Local.u32 sizeFault).bind fun _ => (Local.require _ _).bind fun _ => Local.bytes _ _

protected lemma times {r : Reader α} (hr : Local r) (count : ℕ) : Local (times r count) := by
  induction count with
  | zero => exact Local.pure _
  | succ count ih => exact hr.bind fun _ => ih.bind fun _ => Local.pure _

/-- What is read is told from the bytes that were taken. -/
theorem unique {r : Reader α} (hr : Local r) {taken rest other : Bytes} {x y : α}
    (h : r (taken ++ rest) = .ok (x, rest)) (h' : r (taken ++ other) = .ok (y, other)) : x = y := by
  obtain ⟨read, hread, hsame⟩ := hr _ _ _ h
  obtain rfl := List.append_cancel_right hread
  rw [hsame other] at h'
  cases h'
  rfl

end Local

end Reader
