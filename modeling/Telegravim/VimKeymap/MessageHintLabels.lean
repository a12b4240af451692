import Mathlib.Data.List.Infix
import Mathlib.Data.List.Nodup
import Mathlib.Tactic.Linarith

set_option autoImplicit false

/-!
# Message hint labels

The labels of messages do not depend on how many messages there are: a label ends with one of the quick letters,
and further messages get reserved letters before it, which count in a bijective numeration. The photos of a
message have labels of their own, between a marker and a second quick letter.

## Main definitions

* `VimKeymap.messageHintLabel` — the label of a message, or of a photo of it.
* `VimKeymap.LabelLetters` — an alphabet cut into quick letters, reserved letters and the marker.

## Main results

* `VimKeymap.reservedLoop_injective` — the reserved letters determine the number.
* `VimKeymap.messageHintLabel_begins` — a label that begins another is the same.
-/

namespace VimKeymap

/-! ### The labels -/

/-- `EnglishHintAlphabet`. -/
def englishHintAlphabet : List Char := "sdfghjklqwertyuiopzxcvbnma".toList

/-- `RussianHintAlphabet`. -/
def russianHintAlphabet : List Char := "ывапролдйцукенгшщзячсмитьф".toList

/-- `CurrentHintAlphabet`, for the option that asks for English letters. -/
def currentHintAlphabet (useEnglishHintAlphabet : Bool) : List Char :=
  if useEnglishHintAlphabet then englishHintAlphabet else russianHintAlphabet

/-- The alphabet of message labels: without the keys that scroll. -/
def messageHintAlphabet (useEnglishHintAlphabet : Bool) : List Char :=
  "jkол".toList.foldl (fun alphabet ch => alphabet.filter fun c => decide (c ≠ ch))
    (currentHintAlphabet useEnglishHintAlphabet)

/-- The number of quick letters of an alphabet. -/
def kQuickCount (alphabet : List Char) : ℕ := max 1 (alphabet.length - 3)

/-- The number of reserved letters of an alphabet. -/
def prefixCount (alphabet : List Char) : ℕ := alphabet.length - kQuickCount alphabet - 1

/-- The loop of `MessageHintLabel`: reserved letters are put before the result. -/
def reservedLoop (alphabet : List Char) (number : ℕ) (result : List Char) : List Char :=
  if number = 0 then result
  else reservedLoop alphabet ((number - 1) / prefixCount alphabet)
    ((alphabet[kQuickCount alphabet + (number - 1) % prefixCount alphabet]?).toList ++ result)
termination_by number
decreasing_by exact (Nat.div_le_self _ _).trans_lt (by omega)

/-- `MessageHintLabel`. -/
def messageHintLabel (useEnglishHintAlphabet : Bool) (index photoIndex : ℤ) : List Char :=
  if index < 0 then []
  else
    let alphabet := messageHintAlphabet useEnglishHintAlphabet
    let result := reservedLoop alphabet (index.toNat / kQuickCount alphabet)
      ((alphabet.drop (index.toNat % kQuickCount alphabet)).take 1)
    if 0 ≤ photoIndex ∧ photoIndex < kQuickCount alphabet then
      alphabet.getLast?.toList ++ result ++ (alphabet[photoIndex.toNat]?).toList
    else result

/-! ### The letters -/

/-- **An alphabet cut into quick letters, reserved letters and the marker.** -/
structure LabelLetters (alphabet quick reserved : List Char) (marker : Char) : Prop where
  /-- The alphabet. -/
  eq : alphabet = quick ++ reserved ++ [marker]
  /-- The letters are distinct. -/
  nodup : alphabet.Nodup
  /-- There are two reserved letters. -/
  reserved : reserved.length = 2
  /-- There are quick letters. -/
  quick : quick ≠ []

/-- The letters of both alphabets. -/
lemma exists_labelLetters (useEnglishHintAlphabet : Bool) : ∃ quick reserved marker,
    LabelLetters (messageHintAlphabet useEnglishHintAlphabet) quick reserved marker := by
  cases useEnglishHintAlphabet with
  | true => exact ⟨"sdfghlqwertyuiopzxcvb".toList, ['n', 'm'], 'a', by decide, by decide, by decide, by decide⟩
  | false => exact ⟨"ывапрдйцукенгшщзячсми".toList, ['т', 'ь'], 'ф', by decide, by decide, by decide, by decide⟩

namespace LabelLetters

variable {alphabet quick reserved : List Char} {marker : Char}

lemma kQuickCount_eq (h : LabelLetters alphabet quick reserved marker) : kQuickCount alphabet = quick.length := by
  have hquick := List.length_pos_of_ne_nil h.quick
  unfold kQuickCount
  rw [h.eq, List.length_append, List.length_append, h.reserved, List.length_singleton]
  omega

lemma prefixCount_eq (h : LabelLetters alphabet quick reserved marker) : prefixCount alphabet = 2 := by
  unfold prefixCount
  rw [h.kQuickCount_eq, h.eq, List.length_append, List.length_append, h.reserved, List.length_singleton]
  omega

/-- A quick letter is not reserved. -/
lemma not_mem_reserved (h : LabelLetters alphabet quick reserved marker) {c : Char} (hc : c ∈ quick) :
    c ∉ reserved := by
  have hnodup := h.nodup
  rw [h.eq] at hnodup
  exact List.disjoint_of_nodup_append (List.nodup_append.mp hnodup).1 hc

/-- The marker is neither quick nor reserved. -/
lemma marker_not_mem (h : LabelLetters alphabet quick reserved marker) : marker ∉ quick ∧ marker ∉ reserved := by
  have hnodup := h.nodup
  rw [h.eq] at hnodup
  have hdisjoint := (List.nodup_append.mp hnodup).2.2
  exact ⟨fun hm => hdisjoint marker (List.mem_append_left _ hm) marker (List.mem_singleton_self _) rfl,
    fun hm => hdisjoint marker (List.mem_append_right _ hm) marker (List.mem_singleton_self _) rfl⟩

/-- A quick letter by its number. -/
lemma getElem?_quick (h : LabelLetters alphabet quick reserved marker) {i : ℕ} (hi : i < quick.length) :
    alphabet[i]? = some quick[i] := by
  rw [h.eq, List.append_assoc, List.getElem?_append_left hi, List.getElem?_eq_getElem hi]

/-- A reserved letter by its number. -/
lemma getElem?_reserved (h : LabelLetters alphabet quick reserved marker) {i : ℕ} (hi : i < reserved.length) :
    alphabet[quick.length + i]? = some reserved[i] := by
  rw [h.eq, List.append_assoc, List.getElem?_append_right (Nat.le_add_right _ _), Nat.add_sub_cancel_left,
    List.getElem?_append_left hi, List.getElem?_eq_getElem hi]

lemma nodup_quick (h : LabelLetters alphabet quick reserved marker) : quick.Nodup := by
  have hnodup := h.nodup
  rw [h.eq] at hnodup
  exact (List.nodup_append.mp (List.nodup_append.mp hnodup).1).1

lemma nodup_reserved (h : LabelLetters alphabet quick reserved marker) : reserved.Nodup := by
  have hnodup := h.nodup
  rw [h.eq] at hnodup
  exact (List.nodup_append.mp (List.nodup_append.mp hnodup).1).2.1

/-! ### The reserved letters of a label -/

/-- What the loop puts before the result does not depend on that. -/
lemma reservedLoop_append (alphabet : List Char) (number : ℕ) (result : List Char) :
    reservedLoop alphabet number result = reservedLoop alphabet number [] ++ result := by
  induction number using Nat.strong_induction_on generalizing result with
  | _ number ih =>
    rw [reservedLoop.eq_def alphabet number result, reservedLoop.eq_def alphabet number []]
    by_cases hzero : number = 0
    · rw [if_pos hzero, if_pos hzero, List.nil_append]
    · have hlt : (number - 1) / prefixCount alphabet < number := (Nat.div_le_self _ _).trans_lt (by omega)
      rw [if_neg hzero, if_neg hzero, ih _ hlt, ih _ hlt (_ ++ []), List.append_nil, List.append_assoc]

/-- The loop for a number that is not 0: its last letter. -/
lemma reservedLoop_succ (h : LabelLetters alphabet quick reserved marker) (number : ℕ) :
    ∃ hlt : number % 2 < reserved.length,
      reservedLoop alphabet (number + 1) [] = reservedLoop alphabet (number / 2) [] ++ [reserved[number % 2]] := by
  have hlt : number % 2 < reserved.length := by
    rw [h.reserved]
    exact Nat.mod_lt _ (by omega)
  refine ⟨hlt, ?_⟩
  rw [reservedLoop, if_neg (by omega), h.prefixCount_eq, h.kQuickCount_eq, Nat.add_sub_cancel,
    h.getElem?_reserved hlt, reservedLoop_append]
  rfl

lemma mem_reservedLoop (h : LabelLetters alphabet quick reserved marker) {number : ℕ} {c : Char}
    (hc : c ∈ reservedLoop alphabet number []) : c ∈ reserved := by
  induction number using Nat.strong_induction_on with
  | _ number ih =>
    cases number with
    | zero =>
      rw [reservedLoop, if_pos rfl] at hc
      cases hc
    | succ number =>
      obtain ⟨hlt, hloop⟩ := h.reservedLoop_succ number
      rw [hloop] at hc
      rcases List.mem_append.mp hc with hc | hc
      · exact ih _ (by omega) hc
      · rw [List.mem_singleton.mp hc]
        exact List.getElem_mem hlt

/-- **The reserved letters determine the number.**

**Proof sketch.** The numeration is bijective: the last letter gives the remainder, those before it the quotient. -/
lemma reservedLoop_injective (h : LabelLetters alphabet quick reserved marker) {m n : ℕ}
    (heq : reservedLoop alphabet m [] = reservedLoop alphabet n []) : m = n := by
  have hzero : reservedLoop alphabet 0 [] = [] := by rw [reservedLoop, if_pos rfl]
  induction m using Nat.strong_induction_on generalizing n with
  | _ m ih =>
    cases m with
    | zero =>
      cases n with
      | zero => rfl
      | succ n =>
        obtain ⟨_, hloop⟩ := h.reservedLoop_succ n
        rw [hzero, hloop] at heq
        exact absurd heq.symm (List.append_ne_nil_of_right_ne_nil _ (List.cons_ne_nil _ _))
    | succ m =>
      obtain ⟨hltm, hloopm⟩ := h.reservedLoop_succ m
      cases n with
      | zero =>
        rw [hzero, hloopm] at heq
        exact absurd heq (List.append_ne_nil_of_right_ne_nil _ (List.cons_ne_nil _ _))
      | succ n =>
        obtain ⟨hltn, hloopn⟩ := h.reservedLoop_succ n
        rw [hloopm, hloopn] at heq
        obtain ⟨hinit, hlast⟩ := List.append_inj' heq rfl
        have hdiv : m / 2 = n / 2 := ih _ (by omega) hinit
        have hmod : m % 2 = n % 2 := (List.Nodup.getElem_inj_iff h.nodup_reserved).mp (List.cons.inj hlast).1
        omega

/-! ### No label begins another -/

/-- The label of a message: reserved letters and a quick letter. -/
lemma exists_label (h : LabelLetters alphabet quick reserved marker) (index : ℕ) :
    ∃ hlt : index % quick.length < quick.length,
      reservedLoop alphabet (index / kQuickCount alphabet) ((alphabet.drop (index % kQuickCount alphabet)).take 1) =
        reservedLoop alphabet (index / quick.length) [] ++ [quick[index % quick.length]] := by
  have hlt : index % quick.length < quick.length := Nat.mod_lt _ (List.length_pos_of_ne_nil h.quick)
  refine ⟨hlt, ?_⟩
  rw [h.kQuickCount_eq, reservedLoop_append, List.take_one, List.head?_drop, h.getElem?_quick hlt]
  rfl

/-- Words of reserved letters that are followed by a quick letter, one beginning the other. -/
lemma append_cons_prefix (h : LabelLetters alphabet quick reserved marker) {a b u v : List Char} {x y : Char}
    (ha : ∀ c ∈ a, c ∈ reserved) (hb : ∀ c ∈ b, c ∈ reserved) (hx : x ∈ quick) (hy : y ∈ quick)
    (hbegins : a ++ x :: u <+: b ++ y :: v) : a = b ∧ x = y ∧ u <+: v := by
  induction a generalizing b with
  | nil =>
    cases b with
    | nil =>
      obtain ⟨hxy, huv⟩ := List.cons_prefix_cons.mp hbegins
      exact ⟨rfl, hxy, huv⟩
    | cons c b =>
      obtain ⟨hxc, -⟩ := List.cons_prefix_cons.mp hbegins
      exact absurd (hb c List.mem_cons_self) (hxc ▸ h.not_mem_reserved hx)
  | cons c a ih =>
    cases b with
    | nil =>
      obtain ⟨hcy, -⟩ := List.cons_prefix_cons.mp hbegins
      exact absurd (ha c List.mem_cons_self) (hcy ▸ h.not_mem_reserved hy)
    | cons d b =>
      obtain ⟨hcd, hrest⟩ := List.cons_prefix_cons.mp hbegins
      obtain ⟨hab, hxy, huv⟩ := ih (fun e he => ha e (List.mem_cons_of_mem _ he))
        (fun e he => hb e (List.mem_cons_of_mem _ he)) hrest
      exact ⟨by rw [hcd, hab], hxy, huv⟩

/-- A number by its quick letter and its reserved letters. -/
lemma index_eq (h : LabelLetters alphabet quick reserved marker) {i j : ℕ} {hi : i % quick.length < quick.length}
    {hj : j % quick.length < quick.length}
    (hreserved : reservedLoop alphabet (i / quick.length) [] = reservedLoop alphabet (j / quick.length) [])
    (hquick : quick[i % quick.length] = quick[j % quick.length]) : i = j := by
  rw [← Nat.div_add_mod i quick.length, ← Nat.div_add_mod j quick.length, h.reservedLoop_injective hreserved,
    (List.Nodup.getElem_inj_iff h.nodup_quick).mp hquick]

/-- A word that begins with a letter that is not the marker is not followed by one that begins with it. -/
lemma marker_not_prefix (h : LabelLetters alphabet quick reserved marker) {a u v : List Char} {x : Char}
    (ha : ∀ c ∈ a, c ∈ reserved) (hx : x ∈ quick) :
    ¬ a ++ x :: u <+: marker :: v ∧ ¬ marker :: v <+: a ++ x :: u := by
  cases a with
  | nil =>
    exact ⟨fun hp => h.marker_not_mem.1 ((List.cons_prefix_cons.mp hp).1 ▸ hx),
      fun hp => h.marker_not_mem.1 ((List.cons_prefix_cons.mp hp).1 ▸ hx)⟩
  | cons c a =>
    have hc := ha c List.mem_cons_self
    exact ⟨fun hp => h.marker_not_mem.2 ((List.cons_prefix_cons.mp hp).1 ▸ hc),
      fun hp => h.marker_not_mem.2 ((List.cons_prefix_cons.mp hp).1 ▸ hc)⟩

end LabelLetters

/-- The photos of a message that have labels: none, or one below the number of quick letters. -/
def ValidPhoto (useEnglishHintAlphabet : Bool) (photoIndex : ℤ) : Prop :=
  photoIndex = -1 ∨ (0 ≤ photoIndex ∧ photoIndex < kQuickCount (messageHintAlphabet useEnglishHintAlphabet))

/-- **A label that begins another is the same**, for both alphabets, all messages and all their photos.

**Proof sketch.** A label of a message ends with its only quick letter, which is found by reading on while the
letters are reserved. A label of a photo begins with the marker and has one letter more. -/
theorem messageHintLabel_begins (useEnglishHintAlphabet : Bool) (i p j q : ℤ) (hi : 0 ≤ i) (hj : 0 ≤ j)
    (hp : ValidPhoto useEnglishHintAlphabet p) (hq : ValidPhoto useEnglishHintAlphabet q)
    (hbegins : messageHintLabel useEnglishHintAlphabet i p <+: messageHintLabel useEnglishHintAlphabet j q) :
    i = j ∧ p = q := by
  obtain ⟨quick, reserved, marker, h⟩ := exists_labelLetters useEnglishHintAlphabet
  obtain ⟨hlti, hlabeli⟩ := h.exists_label i.toNat
  obtain ⟨hltj, hlabelj⟩ := h.exists_label j.toNat
  have hreserved : ∀ number, ∀ c ∈ reservedLoop (messageHintAlphabet useEnglishHintAlphabet) number [], c ∈ reserved :=
    fun number c hc => h.mem_reservedLoop hc
  have hmarker : (messageHintAlphabet useEnglishHintAlphabet).getLast? = some marker := by
    rw [h.eq, List.getLast?_append]
    rfl
  unfold ValidPhoto at hp hq
  rw [h.kQuickCount_eq] at hp hq
  unfold messageHintLabel at hbegins
  dsimp only at hbegins
  rw [if_neg (show ¬ i < 0 by omega), if_neg (show ¬ j < 0 by omega), hlabeli, hlabelj, hmarker,
    h.kQuickCount_eq] at hbegins
  rcases hp with rfl | hp
  · rw [if_neg (by omega)] at hbegins
    rcases hq with rfl | hq
    · rw [if_neg (by omega)] at hbegins
      obtain ⟨hsame, hletter, -⟩ := h.append_cons_prefix (hreserved _) (hreserved _) (List.getElem_mem hlti)
        (List.getElem_mem hltj) hbegins
      have := h.index_eq hsame hletter
      omega
    · rw [if_pos hq] at hbegins
      exact absurd hbegins (h.marker_not_prefix (hreserved _) (List.getElem_mem hlti)).1
  · rw [if_pos hp] at hbegins
    rcases hq with rfl | hq
    · rw [if_neg (by omega)] at hbegins
      exact absurd hbegins (h.marker_not_prefix (hreserved _) (List.getElem_mem hltj)).2
    · rw [if_pos hq] at hbegins
      have hpn : p.toNat < quick.length := by omega
      have hqn : q.toNat < quick.length := by omega
      rw [h.getElem?_quick hpn, h.getElem?_quick hqn] at hbegins
      simp only [Option.toList_some, List.cons_append, List.nil_append, List.append_assoc] at hbegins
      have hrest := (List.cons_prefix_cons.mp hbegins).2
      obtain ⟨hsame, hletter, hphoto⟩ := h.append_cons_prefix (hreserved _) (hreserved _) (List.getElem_mem hlti)
        (List.getElem_mem hltj) hrest
      have hij := h.index_eq hsame hletter
      have hpq := (List.Nodup.getElem_inj_iff h.nodup_quick).mp (List.cons_prefix_cons.mp hphoto).1
      omega

/-- The label of a message does not begin that of a photo of another one. -/
theorem messageHintLabel_begins_twenty :
    ¬ messageHintLabel true 3 (-1) <+: messageHintLabel true 20 2 := fun hbegins =>
  absurd (messageHintLabel_begins true 3 (-1) 20 2 (by decide) (by decide) (Or.inl rfl)
    (Or.inr ⟨by decide, by decide⟩) hbegins).1 (by decide)

end VimKeymap
