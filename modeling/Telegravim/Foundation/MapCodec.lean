import Telegravim.Foundation.Json

set_option autoImplicit false

/-!
# Maps as objects

An ordered map written as a JSON object, its keys printed and its values encoded, and the
reader of such an object: it reads the entries in the order of the object, keeps the first
value of a key, and gives up at the first entry it cannot read.

## Main definitions

* `MapCodec.write` — the object of a map.
* `MapCodec.read` — the map of an object, if every entry can be read.

## Main results

* `MapCodec.read_write` — what was written is read back, when the keys are printed differently
  and every entry is read back.
* `MapCodec.exists_entry_of_read` — every value read comes from an entry of the object.
-/

universe u v

namespace MapCodec

variable {κ : Type u} {ν : Type v} [LinearOrder κ]

/-- The object of a map. -/
def write (key : κ → Text) (value : κ → ν → Json) (m : OrdMap κ ν) : JObject :=
  m.image key value

/-- Read one more entry into a map. -/
def readEntry (entry : Text → Json → Option (κ × ν)) (m : OrdMap κ ν) (e : Text × Json) :
    Option (OrdMap κ ν) :=
  (entry e.1 e.2).map fun p => m.emplace p.1 p.2

/-- The map of an object, if every entry can be read. -/
def read (entry : Text → Json → Option (κ × ν)) (object : JObject) : Option (OrdMap κ ν) :=
  object.entries.foldlM (readEntry entry) ∅

/-- Entries of a map `target` are read into a part of it that has all their keys.

**Proof sketch.** Induction on the entries; what is read so far stays a part of `target`,
since the value of a key in `target` is determined. -/
lemma foldlM_readEntry {entry : Text → Json → Option (κ × ν)} {target : OrdMap κ ν}
    (l : List (Text × Json)) {m : OrdMap κ ν}
    (hl : ∀ e ∈ l, ∃ k x, entry e.1 e.2 = some (k, x) ∧ target.find k = some x)
    (hm : ∀ k x, m.find k = some x → target.find k = some x) :
    ∃ r, l.foldlM (readEntry entry) m = some r ∧
      (∀ k x, r.find k = some x → target.find k = some x) ∧
      (∀ k, (∃ x, m.find k = some x) → ∃ x, r.find k = some x) ∧
      ∀ e ∈ l, ∀ k x, entry e.1 e.2 = some (k, x) → ∃ y, r.find k = some y := by
  induction l generalizing m with
  | nil => exact ⟨m, rfl, hm, fun _ h => h, by simp⟩
  | cons e l ih =>
    obtain ⟨k, x, hread, hx⟩ := hl e List.mem_cons_self
    have hfind : ∀ j, (m.emplace k x).find j =
        if j = k then some ((m.find k).getD x) else m.find j := fun j => m.find_emplace k j x
    have hm' : ∀ j y, (m.emplace k x).find j = some y → target.find j = some y := by
      intro j y hj
      rw [hfind] at hj
      split_ifs at hj with hjk
      · subst hjk
        cases hmj : m.find j with
        | none =>
          rw [hmj] at hj
          obtain rfl : x = y := Option.some.inj hj
          exact hx
        | some z => rw [hmj] at hj; exact hj ▸ hm j z hmj
      · exact hm j y hj
    obtain ⟨r, hr, hsub, hkeep, hall⟩ :=
      ih (fun e' he' => hl e' (List.mem_cons_of_mem _ he')) hm'
    refine ⟨r, by simp [List.foldlM_cons, readEntry, hread, hr], hsub, ?_, ?_⟩
    · rintro j ⟨y, hy⟩
      apply hkeep
      rw [hfind]
      split_ifs with hjk
      · exact ⟨_, rfl⟩
      · exact ⟨y, hy⟩
    · intro e' he' j y hread'
      rcases List.mem_cons.mp he' with rfl | he'
      · rw [hread] at hread'
        cases hread'
        exact hkeep k ⟨_, by rw [hfind, if_pos rfl]⟩
      · exact hall e' he' j y hread'

/-- **What was written is read back.** -/
theorem read_write {key : κ → Text} {value : κ → ν → Json}
    {entry : Text → Json → Option (κ × ν)} {m : OrdMap κ ν}
    (hkey : ∀ j k, key j = key k → j = k)
    (hentry : ∀ k x, m.find k = some x → entry (key k) (value k x) = some (k, x)) :
    read entry (write key value m) = some m := by
  have hkey' : Function.Injective key := fun j k h => hkey j k h
  -- the entries of the object are the written entries of the map
  have hwritten : ∀ k x, m.find k = some x →
      (key k, value k x) ∈ (write key value m).entries := fun k x hx =>
    OrdMap.find_eq_some_iff.mp ((OrdMap.find_image_eq_some_iff hkey').mpr ⟨k, x, rfl, hx, rfl⟩)
  have hback : ∀ e ∈ (write key value m).entries,
      ∃ k x, m.find k = some x ∧ e = (key k, value k x) := by
    intro e he
    obtain ⟨k, x, hk, hx, hvalue⟩ :=
      (OrdMap.find_image_eq_some_iff hkey').mp (OrdMap.find_eq_some_iff.mpr he)
    exact ⟨k, x, hx, Prod.ext hk hvalue⟩
  have htarget : ∀ e ∈ (write key value m).entries,
      ∃ k x, entry e.1 e.2 = some (k, x) ∧ m.find k = some x := by
    intro e he
    obtain ⟨k, x, hx, rfl⟩ := hback e he
    exact ⟨k, x, hentry k x hx, hx⟩
  obtain ⟨r, hr, hsub, -, hall⟩ := foldlM_readEntry (write key value m).entries (m := ∅) htarget
    (by simp)
  rw [read, hr]
  congr 1
  apply OrdMap.ext_find
  intro k
  cases hk : m.find k with
  | none =>
    cases hrk : r.find k with
    | none => rfl
    | some x => rw [hsub k x hrk] at hk; exact absurd hk (by simp)
  | some x =>
    obtain ⟨y, hy⟩ := hall _ (hwritten k x hk) k x (hentry k x hk)
    rw [hy, ← hsub k y hy, hk]

/-- Every value read comes from an entry of the object. -/
lemma exists_entry_of_read {entry : Text → Json → Option (κ × ν)} {object : JObject}
    {m : OrdMap κ ν} (h : read entry object = some m) {k : κ} {x : ν} (hx : m.find k = some x) :
    ∃ e ∈ object.entries, entry e.1 e.2 = some (k, x) := by
  have key : ∀ (l : List (Text × Json)) (acc : OrdMap κ ν),
      l.foldlM (readEntry entry) acc = some m →
      acc.find k = some x ∨ ∃ e ∈ l, entry e.1 e.2 = some (k, x) := by
    intro l
    induction l with
    | nil =>
      intro acc hacc
      cases hacc
      exact Or.inl hx
    | cons e l ih =>
      intro acc hacc
      rw [List.foldlM_cons] at hacc
      cases hread : entry e.1 e.2 with
      | none => simp [readEntry, hread] at hacc
      | some p =>
        simp only [readEntry, hread, Option.map_some, Option.bind_eq_bind,
          Option.bind_some] at hacc
        rcases ih _ hacc with hfound | ⟨e', he', hread'⟩
        · rw [OrdMap.find_emplace] at hfound
          split_ifs at hfound with hk
          · cases hacck : acc.find p.1 with
            | none =>
              rw [hacck] at hfound
              have hp : p.2 = x := Option.some.inj hfound
              exact Or.inr ⟨e, List.mem_cons_self, by rw [hread, hk, ← hp]⟩
            | some y =>
              rw [hacck] at hfound
              exact Or.inl (by rw [hk, hacck]; exact hfound)
          · exact Or.inl hfound
        · exact Or.inr ⟨e', List.mem_cons_of_mem _ he', hread'⟩
  rcases key _ _ h with hempty | hfound
  · simp at hempty
  · exact hfound

end MapCodec
