import Telegravim.Foundation.Positional
import Telegravim.Foundation.Reader

set_option autoImplicit false

/-!
# Readers that undo a printer

A reader is exact for a printer when it takes from some bytes the values that the bytes start with the print of, and
nothing else. Exact readers put together are exact for the prints put together.

## Main definitions

* `Reader.Exact` — a reader that undoes a printer.

## Main results

* `Reader.Exact.bind` — exact readers one after the other.
* `Reader.Exact.bytes`, `Reader.Exact.u32`, `Reader.Exact.block`, `Reader.Exact.times` — the readers of bytes, numbers,
  blocks and lists.
-/

namespace Reader

open Positional

variable {α β : Type}

/-- **A reader undoes a printer** of the valid values: it takes a value from the front of some bytes exactly if they
start with the print of this value. -/
def Exact (r : Reader α) (print : α → Bytes) (valid : α → Prop) : Prop :=
  ∀ data x rest, r data = .ok (x, rest) ↔ valid x ∧ data = print x ++ rest

lemma number_eq (data : Bytes) : number data = ofLittleEndian data := by
  induction data with
  | nil => rfl
  | cons byte data ih => rw [number, ofLittleEndian_cons, ih]

/-- A number of 64 bits is read in two halves. -/
lemma u64_eq (fault : String) :
    u64 fault = bind (u32 fault) fun low => bind (u32 fault) fun high => pure (low + 256 ^ 4 * high) := by
  funext data
  by_cases hfour : 4 ≤ data.length
  · by_cases height : 8 ≤ data.length
    · have hrest : 4 ≤ (data.drop 4).length := by
        rw [List.length_drop]
        omega
      have hsplit : data.take 8 = data.take 4 ++ (data.drop 4).take 4 := List.take_add (i := 4) (j := 4)
      have hnumber : number (data.take 8) = number (data.take 4) + 256 ^ 4 * number ((data.drop 4).take 4) := by
        rw [number_eq, number_eq, number_eq, hsplit, ofLittleEndian_append, List.length_take_of_le hfour]
      simp only [u64, u32, bind, bytes, pure, if_pos hfour, if_pos height, if_pos hrest, hnumber, List.drop_drop]
    · have hrest : ¬ 4 ≤ (data.drop 4).length := by
        rw [List.length_drop]
        omega
      simp only [u64, u32, bind, bytes, pure, if_pos hfour, if_neg height, if_neg hrest]
  · simp only [u64, u32, bind, bytes, if_neg hfour, if_neg (show ¬ 8 ≤ data.length by omega)]

namespace Exact

variable {r : Reader α} {print : α → Bytes} {valid : α → Prop}

/-- Another printer and another condition that mean the same. -/
lemma congr (h : Exact r print valid) {print' : α → Bytes} {valid' : α → Prop} (hvalid : ∀ x, valid x ↔ valid' x)
    (hprint : ∀ x, valid x → print x = print' x) : Exact r print' valid' := by
  intro data x rest
  rw [h data x rest, hvalid x]
  refine and_congr_right fun hx => ?_
  rw [hprint x ((hvalid x).mpr hx)]

protected lemma pure (x : α) : Exact (pure x) (fun _ => []) (fun y => y = x) := by
  intro data y rest
  rw [Reader.pure]
  constructor
  · intro h
    cases h
    exact ⟨rfl, rfl⟩
  · rintro ⟨rfl, rfl⟩
    rfl

protected lemma ofOption (fault : String) (value : Option α) :
    Exact (ofOption fault value) (fun _ => []) (fun y => value = some y) := by
  intro data y rest
  cases value with
  | none => exact ⟨fun h => (by cases h), fun h => (by cases h.1)⟩
  | some x =>
    exact (Exact.pure x data y rest).trans
      (and_congr_left' ⟨fun h => h ▸ rfl, fun h => (Option.some.inj h).symm⟩)

protected lemma require (condition : Prop) [Decidable condition] (fault : String) :
    Exact (require condition fault) (fun _ => []) (fun _ => condition) := by
  intro data x rest
  rw [Reader.require]
  by_cases h : condition
  · rw [if_pos h]
    exact ⟨fun hread => by cases hread; exact ⟨h, rfl⟩, fun hdata => by rw [hdata.2]; rfl⟩
  · rw [if_neg h]
    exact ⟨fun hread => by (cases hread), fun hdata => absurd hdata.1 h⟩

/-- **Exact readers one after the other are exact**, where what the first one read can be told from what the second
one did. -/
protected theorem bind (hr : Exact r print valid) {next : α → Reader β} (get : β → α) {print' : β → Bytes}
    {valid' : β → Prop} (hnext : ∀ x, valid x → Exact (next x) print' fun y => get y = x ∧ valid' y) :
    Exact (bind r next) (fun y => print (get y) ++ print' y) (fun y => valid (get y) ∧ valid' y) := by
  intro data y rest
  rw [bind_ok]
  constructor
  · rintro ⟨x, middle, hread, hthen⟩
    obtain ⟨hx, rfl⟩ := (hr _ _ _).mp hread
    obtain ⟨⟨rfl, hy⟩, rfl⟩ := (hnext x hx _ _ _).mp hthen
    exact ⟨⟨hx, hy⟩, (List.append_assoc _ _ _).symm⟩
  · rintro ⟨⟨hx, hy⟩, rfl⟩
    refine ⟨get y, print' y ++ rest, (hr _ _ _).mpr ⟨hx, List.append_assoc _ _ _⟩, ?_⟩
    exact (hnext _ hx _ _ _).mpr ⟨⟨rfl, hy⟩, rfl⟩

/-- The same, where the condition of the second one depends on what the first one read. -/
lemma bind_of (hr : Exact r print valid) {next : α → Reader β} (get : β → α) {print' : β → Bytes}
    {valid' : α → β → Prop} (hnext : ∀ x, valid x → Exact (next x) print' (valid' x))
    (hget : ∀ x y, valid x → valid' x y → get y = x) :
    Exact (bind r next) (fun y => print (get y) ++ print' y) (fun y => valid (get y) ∧ valid' (get y) y) := by
  refine hr.bind get fun x hx => (hnext x hx).congr (fun y => ⟨fun hy => ?_, fun hy => ?_⟩) fun _ _ => rfl
  · have heq := hget x y hx hy
    exact ⟨heq, heq.symm ▸ hy⟩
  · exact hy.1 ▸ hy.2

/-- A value that is read is made into another one. -/
lemma map (hr : Exact r print valid) {make : α → β} (get : β → α) (hmake : ∀ x, valid x → get (make x) = x)
    {valid' : β → Prop} (hvalid : ∀ y, (valid (get y) ∧ y = make (get y)) ↔ valid' y) :
    Exact (Reader.bind r fun x => Reader.pure (make x)) (fun y => print (get y)) valid' := by
  have hmade : ∀ x, valid x → Exact (Reader.pure (make x)) (fun _ => []) fun y => get y = x ∧ y = make (get y) :=
    fun x hx => (Exact.pure (make x)).congr
      (fun y => ⟨fun h => by subst h; exact ⟨hmake x hx, by rw [hmake x hx]⟩, fun h => by rw [h.2, h.1]⟩) fun _ _ => rfl
  exact (hr.bind get hmade).congr hvalid fun y _ => List.append_nil _

protected lemma bytes (fault : String) (count : ℕ) :
    Exact (bytes fault count) (fun x => x) (fun x => x.length = count) := by
  intro data x rest
  rw [Reader.bytes]
  constructor
  · intro h
    split_ifs at h with hcount
    cases h
    exact ⟨List.length_take_of_le hcount, (List.take_append_drop _ _).symm⟩
  · rintro ⟨rfl, hdata⟩
    dsimp only at hdata
    rw [hdata, if_pos (by rw [List.length_append]; omega), List.take_left, List.drop_left]

/-- A number is read from its bytes, the lowest first. -/
lemma number (fault : String) (count : ℕ) :
    Exact (Reader.bind (Reader.bytes fault count) fun read => Reader.pure (Reader.number read)) (littleEndian count)
      (fun value => value < 256 ^ count) := by
  refine ((Exact.bytes fault count).map (littleEndian count) (fun read hread => ?_) fun value => ?_).congr
    (fun _ => Iff.rfl) fun _ _ => rfl
  · rw [number_eq, ← hread, littleEndian_ofLittleEndian]
  · rw [number_eq, ofLittleEndian_littleEndian, length_littleEndian]
    constructor
    · rintro ⟨-, hvalue⟩
      rw [hvalue]
      exact Nat.mod_lt _ (by positivity)
    · exact fun hvalue => ⟨rfl, (Nat.mod_eq_of_lt hvalue).symm⟩

protected lemma u8 (fault : String) : Exact (u8 fault) (littleEndian 1) (fun value => value < 256 ^ 1) :=
  Exact.number fault 1

protected lemma u32 (fault : String) : Exact (u32 fault) (littleEndian 4) (fun value => value < 256 ^ 4) :=
  Exact.number fault 4

protected lemma u64 (fault : String) : Exact (u64 fault) (littleEndian 8) (fun value => value < 256 ^ 8) :=
  Exact.number fault 8

/-- **A block is read from its length and its bytes.** -/
protected theorem block (sizeFault fault : String) {limit : ℕ} (hlimit : limit < 256 ^ 4) :
    Exact (block sizeFault fault limit) (fun x => littleEndian 4 x.length ++ x)
      (fun x => x.length ≠ 0 ∧ x.length ≤ limit) := by
  have hbytes : ∀ length, Exact (Reader.bind (Reader.require (length ≠ 0 ∧ length ≤ limit) sizeFault)
      fun _ => Reader.bytes fault length) (fun x => x)
      fun x => x.length = length ∧ (x.length ≠ 0 ∧ x.length ≤ limit) := fun length => by
    have hthen : Exact (Reader.bytes fault length) (fun x => x) fun x => () = () ∧ x.length = length :=
      (Exact.bytes fault length).congr (fun x => ⟨fun h => ⟨rfl, h⟩, fun h => h.2⟩) fun _ _ => rfl
    refine ((Exact.require _ sizeFault).bind (fun _ => ()) fun _ _ => hthen).congr (fun x => ?_)
      fun _ _ => List.nil_append _
    constructor
    · rintro ⟨h, rfl⟩
      exact ⟨rfl, h⟩
    · rintro ⟨rfl, h⟩
      exact ⟨h, rfl⟩
  refine ((Exact.u32 sizeFault).bind List.length fun length _ => hbytes length).congr (fun x => ?_) fun _ _ => rfl
  exact ⟨fun h => h.2, fun h => ⟨h.2.trans_lt hlimit, h⟩⟩

/-- A number that must be the given one. -/
lemma constant (hr : Exact r print valid) (c : α) (hc : valid c) (fault : String) [DecidableEq α] {next : Reader β}
    {print' : β → Bytes} {valid' : β → Prop} (hnext : Exact next print' valid') :
    Exact (Reader.bind r fun x => Reader.bind (Reader.require (x = c) fault) fun _ => next)
      (fun y => print c ++ print' y) valid' := by
  have hthen : ∀ x, Exact (Reader.bind (Reader.require (x = c) fault) fun _ => next) print'
      fun y => c = x ∧ valid' y := fun x => by
    have hunit : Exact next print' fun y => () = () ∧ valid' y :=
      hnext.congr (fun y => ⟨fun h => ⟨rfl, h⟩, fun h => h.2⟩) fun _ _ => rfl
    refine ((Exact.require (x = c) fault).bind (fun _ => ()) fun _ _ => hunit).congr (fun y => ?_)
      fun _ _ => List.nil_append _
    exact and_congr_left' eq_comm
  exact (hr.bind (fun _ => c) fun x _ => hthen x).congr (fun y => ⟨fun h => h.2, fun h => ⟨hc, h⟩⟩) fun _ _ => rfl

/-- A number that stands for a value. -/
lemma coded (hr : Exact r print valid) {γ : Type} (decode : α → Option γ) (encode : γ → α) (fault : String)
    (hdecode : ∀ x c, decode x = some c ↔ encode c = x) (hvalid : ∀ c, valid (encode c)) {next : γ → Reader β}
    (get : β → γ) {print' : β → Bytes} {valid' : γ → β → Prop} (hnext : ∀ c, Exact (next c) print' (valid' c))
    (hget : ∀ c y, valid' c y → get y = c) :
    Exact (Reader.bind r fun x => Reader.bind (Reader.ofOption fault (decode x)) next)
      (fun y => print (encode (get y)) ++ print' y) (fun y => valid' (get y) y) := by
  have hthen : ∀ x, Exact (Reader.bind (Reader.ofOption fault (decode x)) next) print'
      fun y => encode (get y) = x ∧ valid' (get y) y := fun x => by
    refine ((Exact.ofOption fault (decode x)).bind_of get (fun c _ => hnext c) fun c y _ => hget c y).congr (fun y => ?_)
      fun _ _ => List.nil_append _
    exact and_congr_left' (hdecode x (get y))
  exact (hr.bind (fun y => encode (get y)) fun x _ => hthen x).congr (fun y => ⟨fun h => h.2, fun h => ⟨hvalid _, h⟩⟩)
    fun _ _ => rfl

/-- **Values are read one after another.** -/
protected theorem times (hr : Exact r print valid) (count : ℕ) :
    Exact (times r count) (fun l => l.flatMap print) (fun l => l.length = count ∧ ∀ x ∈ l, valid x) := by
  induction count with
  | zero =>
    refine (Exact.pure []).congr (fun l => ⟨fun h => ?_, fun h => List.length_eq_zero_iff.mp h.1⟩) fun l h => ?_
    · rw [h]
      exact ⟨rfl, fun x hx => absurd hx List.not_mem_nil⟩
    · rw [h]
      rfl
  | succ count ih =>
    intro data l rest
    rw [times, bind_ok]
    constructor
    · rintro ⟨x, middle, hread, hthen⟩
      obtain ⟨more, left, hmore, hpure⟩ := bind_ok.mp hthen
      cases hpure
      obtain ⟨hx, rfl⟩ := (hr _ _ _).mp hread
      obtain ⟨⟨hlength, hvalid⟩, rfl⟩ := (ih _ _ _).mp hmore
      dsimp only
      refine ⟨⟨by rw [List.length_cons, hlength], fun y hy => ?_⟩, by rw [List.flatMap_cons, List.append_assoc]⟩
      rcases List.mem_cons.mp hy with rfl | hy
      · exact hx
      · exact hvalid y hy
    · rintro ⟨⟨hlength, hvalid⟩, hdata⟩
      rcases l with _ | ⟨x, l⟩
      · exact absurd hlength (by simp)
      · dsimp only at hdata
        rw [List.flatMap_cons, List.append_assoc] at hdata
        refine ⟨x, l.flatMap print ++ rest, (hr _ _ _).mpr ⟨hvalid x List.mem_cons_self, hdata⟩, bind_ok.mpr ?_⟩
        refine ⟨l, rest, (ih _ _ _).mpr ⟨⟨?_, fun y hy => hvalid y (List.mem_cons_of_mem _ hy)⟩, rfl⟩, rfl⟩
        exact Nat.succ.inj hlength

end Exact

end Reader
