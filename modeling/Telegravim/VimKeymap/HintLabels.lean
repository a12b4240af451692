import Telegravim.Foundation.PrefixCode

set_option autoImplicit false

/-!
# Hint labels

What is typed to choose one of several targets on the screen. `ShortestHintLabel` knows how many targets there
are: its labels have two lengths that differ by one. All words of the shorter length are counted as numbers over
the alphabet; the last of them are given up, each for the words that it begins.

## Main definitions

* `VimKeymap.shortestHintLabel` — the label of a target.
* `VimKeymap.twoLengths` — a word of one of two lengths, by its number.

## Main results

* `VimKeymap.capacityLoop_spec` — the number of words of the shorter length.
* `VimKeymap.prefixFree_twoLengths` — no label begins another.
* `VimKeymap.shortestHintLabel_optimal` — the labels are an optimal prefix code.
-/

namespace VimKeymap

open PrefixCode

variable {α : Type}

/-! ### The labels -/

/-- The loop of `ShortestHintLabel` that looks for the shorter length: the number of words of that length, and
the length. The base is at least 2 and the capacity positive when it is called. -/
def capacityLoop (base total capacity length : ℕ) : ℕ × ℕ :=
  if 2 ≤ base ∧ 0 < capacity ∧ capacity ≤ total / base then
    capacityLoop base total (capacity * base) (length + 1)
  else (capacity, length)
termination_by total - capacity
decreasing_by
  have hle : capacity * base ≤ total := (Nat.le_div_iff_mul_le (by omega)).mp (by omega)
  have hlt : capacity * 2 ≤ capacity * base := Nat.mul_le_mul_left _ (by omega)
  omega

/-- The loop that writes the digits of a value: a word of a given length over an alphabet. -/
def digits (alphabet : List α) : ℕ → ℕ → List α
  | 0, _ => []
  | length + 1, value =>
    digits alphabet length (value / alphabet.length) ++ (alphabet[value % alphabet.length]?).toList

/-- `ShortestHintLabel`: the label of a target, for the number of all targets. -/
def shortestHintLabel (index total : ℤ) (alphabet : List α) : List α :=
  let base : ℤ := alphabet.length
  if base < 2 ∨ index < 0 ∨ total ≤ index then []
  else if total ≤ base then (alphabet.drop index.toNat).take 1
  else
    let found := capacityLoop alphabet.length total.toNat alphabet.length 1
    let capacity : ℤ := found.1
    let expanded := (total - capacity + base - 2) / (base - 1)
    let shortCount := capacity - expanded
    if shortCount ≤ index then digits alphabet (found.2 + 1) (index + shortCount * (base - 1)).toNat
    else digits alphabet found.2 index.toNat

/-! ### Words by their numbers -/

section Digits

variable {alphabet : List α}

@[simp] lemma length_digits (halphabet : alphabet ≠ []) (length value : ℕ) :
    (digits alphabet length value).length = length := by
  induction length generalizing value with
  | zero => rfl
  | succ length ih =>
    have hlt : value % alphabet.length < alphabet.length := Nat.mod_lt _ (List.length_pos_of_ne_nil halphabet)
    rw [digits, List.length_append, ih, List.getElem?_eq_getElem hlt]
    rfl

lemma mem_of_mem_digits {length value : ℕ} {c : α} (h : c ∈ digits alphabet length value) : c ∈ alphabet := by
  induction length generalizing value with
  | zero => cases h
  | succ length ih =>
    rcases List.mem_append.mp h with hc | hc
    · exact ih hc
    · exact List.mem_of_getElem? (Option.mem_toList.mp hc)

/-- The number of a word without its last letter. -/
lemma digits_div_isPrefix_digits (alphabet : List α) (length value : ℕ) :
    digits alphabet length (value / alphabet.length) <+: digits alphabet (length + 1) value :=
  List.prefix_append _ _

/-- Words of one length are different for different numbers. -/
lemma digits_injective (hnodup : alphabet.Nodup) (halphabet : alphabet ≠ []) {length v w : ℕ}
    (hv : v < alphabet.length ^ length) (hw : w < alphabet.length ^ length)
    (h : digits alphabet length v = digits alphabet length w) : v = w := by
  have hpos : 0 < alphabet.length := List.length_pos_of_ne_nil halphabet
  induction length generalizing v w with
  | zero =>
    rw [pow_zero] at hv hw
    omega
  | succ length ih =>
    have hvlt : v % alphabet.length < alphabet.length := Nat.mod_lt _ hpos
    have hwlt : w % alphabet.length < alphabet.length := Nat.mod_lt _ hpos
    rw [digits, digits] at h
    obtain ⟨hinit, hlast⟩ := List.append_inj h (by rw [length_digits halphabet, length_digits halphabet])
    rw [pow_succ] at hv hw
    have hdiv : v / alphabet.length = w / alphabet.length :=
      ih (Nat.div_lt_of_lt_mul (by rwa [mul_comm] at hv)) (Nat.div_lt_of_lt_mul (by rwa [mul_comm] at hw)) hinit
    have hmod : v % alphabet.length = w % alphabet.length := by
      rw [List.getElem?_eq_getElem hvlt, List.getElem?_eq_getElem hwlt] at hlast
      exact hnodup.getElem_inj_iff.mp (List.cons.inj hlast).1
    rw [← Nat.div_add_mod v alphabet.length, ← Nat.div_add_mod w alphabet.length, hdiv, hmod]

end Digits

/-! ### Words of two lengths -/

/-- A word of one of two lengths, by its number: the first `short` words have the shorter length. -/
def twoLengths (alphabet : List α) (length short index : ℕ) : List α :=
  if short ≤ index then digits alphabet (length + 1) (index + short * (alphabet.length - 1))
  else digits alphabet length index

section TwoLengths

variable {alphabet : List α} {length short : ℕ}

lemma length_twoLengths (halphabet : alphabet ≠ []) (length short index : ℕ) :
    (twoLengths alphabet length short index).length = if short ≤ index then length + 1 else length := by
  unfold twoLengths
  split_ifs
  · exact length_digits halphabet _ _
  · exact length_digits halphabet _ _

/-- The beginning of a longer word is none of the shorter words. -/
lemma short_le_div (hb : 2 ≤ alphabet.length) {index : ℕ} (hindex : short ≤ index) :
    short ≤ (index + short * (alphabet.length - 1)) / alphabet.length := by
  refine (Nat.le_div_iff_mul_le (by omega)).mpr ?_
  obtain ⟨b, hb'⟩ := Nat.exists_eq_add_of_le hb
  rw [hb', show 2 + b - 1 = 1 + b by omega]
  nlinarith

/-- The longer words have numbers that fit their length. -/
lemma lt_pow_succ (hb : 2 ≤ alphabet.length) (hshort : short ≤ alphabet.length ^ length) {total index : ℕ}
    (hfit : total - short ≤ (alphabet.length ^ length - short) * alphabet.length) (hindex : index < total)
    (hlong : short ≤ index) : index + short * (alphabet.length - 1) < alphabet.length ^ (length + 1) := by
  obtain ⟨rest, hrest⟩ := Nat.exists_eq_add_of_le hshort
  obtain ⟨b, hb'⟩ := Nat.exists_eq_add_of_le hb
  rw [pow_succ, hrest]
  rw [hrest, Nat.add_sub_cancel_left] at hfit
  rw [hb'] at hfit ⊢
  rw [show 2 + b - 1 = 1 + b by omega]
  have hle : index + 1 ≤ short + rest * (2 + b) := by omega
  nlinarith

/-- **No word begins another.**

**Proof sketch.** Words of one length are different. What a longer word begins with has a number that is not less
than `short`, so it is none of the shorter words. -/
lemma twoLengths_prefix (hnodup : alphabet.Nodup) (hb : 2 ≤ alphabet.length) (hshort : short ≤ alphabet.length ^ length)
    {total i j : ℕ} (hfit : total - short ≤ (alphabet.length ^ length - short) * alphabet.length) (hi : i < total)
    (hj : j < total) (h : twoLengths alphabet length short i <+: twoLengths alphabet length short j) : i = j := by
  have halphabet : alphabet ≠ [] := by
    rintro rfl
    cases hb
  have hlength := h.length_le
  rw [length_twoLengths halphabet, length_twoLengths halphabet] at hlength
  have hsmall : ∀ k, k < short → k < alphabet.length ^ length := fun k hk => hk.trans_le hshort
  unfold twoLengths at h
  by_cases hlongi : short ≤ i
  · have hlongj : short ≤ j := by
      by_contra hnot
      rw [if_pos hlongi, if_neg hnot] at hlength
      omega
    rw [if_pos hlongi, if_pos hlongj] at h
    have heq := digits_injective hnodup halphabet (lt_pow_succ hb hshort hfit hi hlongi)
      (lt_pow_succ hb hshort hfit hj hlongj) (h.eq_of_length (by
        rw [length_digits halphabet, length_digits halphabet]))
    omega
  · rw [if_neg hlongi] at h
    by_cases hlongj : short ≤ j
    · rw [if_pos hlongj] at h
      have hfirst := List.prefix_of_prefix_length_le h (digits_div_isPrefix_digits alphabet length _) (by
        rw [length_digits halphabet, length_digits halphabet])
      have hdiv := short_le_div hb hlongj
      have heq := digits_injective hnodup halphabet (hsmall i (by omega))
        (Nat.div_lt_of_lt_mul (by
          rw [← pow_succ']
          exact lt_pow_succ hb hshort hfit hj hlongj))
        (hfirst.eq_of_length (by rw [length_digits halphabet, length_digits halphabet]))
      omega
    · rw [if_neg hlongj] at h
      exact digits_injective hnodup halphabet (hsmall i (by omega)) (hsmall j (by omega)) (h.eq_of_length (by
        rw [length_digits halphabet, length_digits halphabet]))

end TwoLengths

/-! ### The labels of all targets -/

/-- **The loop finds the largest power of the base that is not larger than the total.** -/
lemma capacityLoop_spec {base total : ℕ} (hb : 2 ≤ base) (length : ℕ) (hle : base ^ length ≤ total) :
    ∃ L, length ≤ L ∧ capacityLoop base total (base ^ length) length = (base ^ L, L) ∧ base ^ L ≤ total ∧
      total < base ^ (L + 1) := by
  obtain ⟨k, hk⟩ : ∃ k, total - base ^ length = k := ⟨_, rfl⟩
  induction k using Nat.strong_induction_on generalizing length with
  | _ k ih =>
    have hpos : 0 < base ^ length := Nat.pow_pos (by omega)
    rw [capacityLoop]
    by_cases hmore : base ^ length ≤ total / base
    · rw [if_pos ⟨hb, hpos, hmore⟩, ← pow_succ]
      have hnext : base ^ (length + 1) ≤ total := by
        rw [pow_succ]
        exact (Nat.le_div_iff_mul_le (by omega)).mp hmore
      have hgrow : base ^ length < base ^ (length + 1) := Nat.pow_lt_pow_right (by omega) (by omega)
      obtain ⟨L, hL, hloop, hlow, hhigh⟩ := ih _ (by omega) (length + 1) hnext rfl
      exact ⟨L, by omega, hloop, hlow, hhigh⟩
    · rw [if_neg fun h => hmore h.2.2]
      refine ⟨length, le_rfl, rfl, hle, ?_⟩
      rw [pow_succ]
      by_contra hnot
      exact hmore ((Nat.le_div_iff_mul_le (by omega)).mpr (by omega))

/-- What `ShortestHintLabel` chooses for a total: the shorter length and the number of labels that have it. -/
structure Choice (base total length short : ℕ) : Prop where
  /-- The shorter labels are words of their length. -/
  short_le : short ≤ base ^ length
  /-- There is room for the longer ones. -/
  fits : total - short ≤ (base ^ length - short) * base
  /-- Labels are not empty. -/
  length_pos : 1 ≤ length
  /-- There are not more short labels than targets. -/
  short_le_total : short ≤ total
  /-- No more labels can have the shorter length. -/
  optimal : (total ≤ base ∧ length = 1 ∧ short = total) ∨
    ((base : ℤ) - 1) * ((total : ℤ) - short - 1) < base * ((total : ℤ) - (base : ℤ) ^ length)

/-- **The labels are words of two lengths.** -/
lemma exists_choice (alphabet : List α) (hb : 2 ≤ alphabet.length) (total : ℕ) :
    ∃ length short, Choice alphabet.length total length short ∧
      ∀ index < total, shortestHintLabel index total alphabet = twoLengths alphabet length short index := by
  set base := alphabet.length with hbase
  by_cases hfew : total ≤ base
  · refine ⟨1, total, ⟨by rwa [pow_one], by omega, le_rfl, le_rfl, Or.inl ⟨hfew, rfl, rfl⟩⟩, fun index hindex => ?_⟩
    unfold shortestHintLabel
    dsimp only
    rw [if_neg (by omega), if_pos (by omega), twoLengths, if_neg (by omega), digits, digits, List.nil_append,
      Nat.mod_eq_of_lt (by omega), Int.toNat_natCast, List.take_one, List.head?_drop]
  · have hfits : base ^ 1 ≤ total := by rw [pow_one]; omega
    obtain ⟨L, hL, hloop, hlow, hhigh⟩ := capacityLoop_spec hb 1 hfits
    rw [pow_one] at hloop
    obtain ⟨b, hb'⟩ := Nat.exists_eq_add_of_le hb
    -- The number of words of the shorter length that are given up, rounded up.
    set expanded := (total - base ^ L + base - 2) / (base - 1) with hexpanded
    have hmul : expanded * (base - 1) ≤ total - base ^ L + base - 2 := Nat.div_mul_le_self _ _
    have hup : total - base ^ L ≤ expanded * (base - 1) := by
      have := Nat.lt_div_mul_add (a := total - base ^ L + base - 2) (b := base - 1) (by omega)
      rw [← hexpanded] at this
      omega
    have hexpandedLe : expanded ≤ base ^ L := by
      rw [pow_succ, hb'] at hhigh
      rw [hb', show 2 + b - 1 = b + 1 by omega] at hmul
      rw [hb'] at hlow
      by_contra hnot
      have hge : base ^ L + 1 ≤ expanded := by omega
      rw [hb'] at hge
      have hprod : ((2 + b) ^ L + 1) * (b + 1) ≤ expanded * (b + 1) := Nat.mul_le_mul_right _ hge
      have hle : expanded * (b + 1) + (2 + b) ^ L ≤ total + b := by omega
      nlinarith
    refine ⟨L, base ^ L - expanded, ⟨Nat.sub_le _ _, ?_, hL, (Nat.sub_le _ _).trans hlow, Or.inr ?_⟩,
      fun index hindex => ?_⟩
    · rw [Nat.sub_sub_self hexpandedLe]
      have hsplit : expanded * base = expanded * (base - 1) + expanded := by
        obtain ⟨c, hc⟩ := Nat.exists_eq_add_of_le (show 1 ≤ base by omega)
        rw [hc, Nat.add_sub_cancel_left]
        ring
      omega
    · rw [Nat.cast_sub hexpandedLe, Nat.cast_pow]
      have hmul' : (expanded : ℤ) * (base - 1) ≤ total - (base : ℤ) ^ L + base - 2 := by
        have h1 : ((base - 1 : ℕ) : ℤ) = (base : ℤ) - 1 := by omega
        have h2 : ((total - base ^ L + base - 2 : ℕ) : ℤ) = total - (base : ℤ) ^ L + base - 2 := by
          rw [← Nat.cast_pow]
          omega
        rw [← h1, ← h2]
        exact_mod_cast hmul
      nlinarith
    · have hpow : ((base ^ L : ℕ) : ℤ) = (base : ℤ) ^ L := Nat.cast_pow _ _
      have hcast : ((total : ℤ) - (base ^ L : ℕ) + base - 2) / ((base : ℤ) - 1) = expanded := by
        have h1 : ((base - 1 : ℕ) : ℤ) = (base : ℤ) - 1 := by omega
        have h2 : ((total - base ^ L + base - 2 : ℕ) : ℤ) = total - (base ^ L : ℕ) + base - 2 := by omega
        rw [← h1, ← h2]
        rfl
      unfold shortestHintLabel
      dsimp only
      rw [if_neg (by omega), if_neg (by omega), Int.toNat_natCast, hloop]
      dsimp only
      rw [hcast, twoLengths]
      by_cases hlong : base ^ L - expanded ≤ index
      · rw [if_pos (by omega), if_pos hlong]
        congr 1
        have h1 : ((base - 1 : ℕ) : ℤ) = (base : ℤ) - 1 := by omega
        have h2 : ((base ^ L - expanded : ℕ) : ℤ) = (base ^ L : ℕ) - expanded := by omega
        rw [← h1, ← h2]
        exact Int.toNat_natCast _
      · rw [if_neg (by omega), if_neg hlong, Int.toNat_natCast]

/-- All labels, for a number of targets. -/
def shortestHintLabels (total : ℕ) (alphabet : List α) : List (List α) :=
  (List.range total).map fun index : ℕ => shortestHintLabel index total alphabet

/-- The total length of words of two lengths. -/
lemma sum_length_twoLengths {alphabet : List α} (halphabet : alphabet ≠ []) (length short total : ℕ)
    (h : short ≤ total) :
    ((List.range total).map fun index => (twoLengths alphabet length short index).length).sum =
      total * length + (total - short) := by
  induction total with
  | zero => simp
  | succ total ih =>
    rw [List.range_succ, List.map_append, List.sum_append, List.map_singleton, List.sum_singleton,
      length_twoLengths halphabet]
    by_cases hlast : short ≤ total
    · rw [ih hlast, if_pos hlast]
      have : (total + 1) * length = total * length + length := by ring
      omega
    · have hall : ((List.range total).map fun index => (twoLengths alphabet length short index).length) =
          (List.range total).map fun _ => length := by
        refine List.map_congr_left fun index hindex => ?_
        rw [length_twoLengths halphabet, if_neg (by rw [List.mem_range] at hindex; omega)]
      rw [hall, if_neg hlast, List.map_const', List.sum_replicate, List.length_range, smul_eq_mul]
      have : (total + 1) * length = total * length + length := by ring
      omega

/-- Words that are not empty have a letter each. -/
lemma length_le_sum_length {code : List (List α)} (h : [] ∉ code) : code.length ≤ (code.map List.length).sum := by
  induction code with
  | nil => exact le_rfl
  | cons w rest ih =>
    rw [List.map_cons, List.sum_cons, List.length_cons]
    have hw : 0 < w.length := List.length_pos_of_ne_nil fun hw => h (hw ▸ List.mem_cons_self)
    have := ih fun hmem => h (List.mem_cons_of_mem _ hmem)
    omega

/-- **The labels are an optimal prefix code**, for every alphabet of at least two letters and every number of
targets. With one target its label has one letter, although it could be empty.

**Proof sketch.** The labels are words of two lengths by `exists_choice`. That their total length is the least is
the inequality of Kraft and McMillan: as many words as possible have the shorter length. -/
theorem shortestHintLabel_optimal (alphabet : List α) (hnodup : alphabet.Nodup) (hb : 2 ≤ alphabet.length) (total : ℕ)
    (htotal : 1 ≤ total) :
    PrefixFree (shortestHintLabels total alphabet) ∧
      (∀ w ∈ shortestHintLabels total alphabet, w ≠ [] ∧ ∀ c ∈ w, c ∈ alphabet) ∧
      (∀ i j : ℕ, i ≤ j → j < total →
        (shortestHintLabel i total alphabet).length ≤ (shortestHintLabel j total alphabet).length ∧
          (shortestHintLabel j total alphabet).length ≤ (shortestHintLabel i total alphabet).length + 1) ∧
      ∀ code : List (List α), PrefixFree code → (∀ w ∈ code, ∀ c ∈ w, c ∈ alphabet) → code.length = total →
        (total = 1 → [] ∉ code) →
        ((shortestHintLabels total alphabet).map List.length).sum ≤ (code.map List.length).sum := by
  have halphabet : alphabet ≠ [] := by
    rintro rfl
    cases hb
  obtain ⟨length, short, hchoice, hlabel⟩ := exists_choice alphabet hb total
  have hlabels : shortestHintLabels total alphabet =
      (List.range total).map fun index => twoLengths alphabet length short index := by
    unfold shortestHintLabels
    exact List.map_congr_left fun index hindex => hlabel index (List.mem_range.mp hindex)
  refine ⟨?_, ?_, ?_, ?_⟩
  · rw [hlabels]
    refine List.pairwise_map.mpr (List.Pairwise.imp_of_mem ?_ (List.nodup_range (n := total)))
    intro i j hi hj hne
    have hfree := fun {i j : ℕ} => twoLengths_prefix (i := i) (j := j) hnodup hb hchoice.short_le hchoice.fits
    exact ⟨fun h => hne (hfree (List.mem_range.mp hi) (List.mem_range.mp hj) h),
      fun h => hne (hfree (List.mem_range.mp hj) (List.mem_range.mp hi) h).symm⟩
  · rw [hlabels]
    intro w hw
    obtain ⟨index, -, rfl⟩ := List.mem_map.mp hw
    have hpos := hchoice.length_pos
    refine ⟨fun hnil => ?_, fun c hc => ?_⟩
    · have hlength := length_twoLengths halphabet length short index
      rw [hnil, List.length_nil] at hlength
      split_ifs at hlength
      omega
    · unfold twoLengths at hc
      split_ifs at hc
      · exact mem_of_mem_digits hc
      · exact mem_of_mem_digits hc
  · intro i j hij hj
    rw [hlabel i (by omega), hlabel j hj, length_twoLengths halphabet, length_twoLengths halphabet]
    split_ifs
    all_goals omega
  · intro code hfree hletters hcount hone
    have hne : [] ∉ code := by
      by_cases hsingle : total = 1
      · exact hone hsingle
      · -- The empty word begins every other word.
        intro hnil
        obtain ⟨u, hu, hune⟩ : ∃ u ∈ code, u ≠ [] := by
          by_contra hall
          push Not at hall
          have hrep := List.eq_replicate_of_mem hall
          have hnodup' := hfree.nodup
          rw [hrep, List.nodup_replicate] at hnodup'
          omega
        exact hune (hfree.eq_of_prefix hnil hu (List.nil_prefix)).symm
    rw [hlabels, List.map_map]
    change ((List.range total).map fun index => (twoLengths alphabet length short index).length).sum ≤ _
    rw [sum_length_twoLengths halphabet _ _ _ hchoice.short_le_total]
    rcases hchoice.optimal with ⟨-, rfl, rfl⟩ | hoptimal
    · have := length_le_sum_length hne
      omega
    · have hkraft := hfree.le_sum_length hnodup hb hne hletters length
      rw [hcount] at hkraft
      have hshort := hchoice.short_le_total
      have hlt : (total : ℤ) - short - 1 < ((code.map List.length).sum : ℤ) - total * length := by
        refine lt_of_mul_lt_mul_left (hoptimal.trans_le hkraft) (by omega)
      have hcast : ((total * length + (total - short) : ℕ) : ℤ) = total * length + (total - short) := by
        rw [Nat.cast_add, Nat.cast_mul, Nat.cast_sub hshort]
      refine Int.ofNat_le.mp ?_
      rw [hcast]
      linarith

/-- The labels of eight targets over three letters. -/
theorem shortestHintLabel_optimal_eight :
    (['s', 'd', 'f'] : List Char).Nodup ∧ 2 ≤ (['s', 'd', 'f'] : List Char).length ∧ (1 ≤ 8) ∧
      PrefixFree (shortestHintLabels 8 ['s', 'd', 'f']) :=
  ⟨by decide, by decide, by decide,
    (shortestHintLabel_optimal ['s', 'd', 'f'] (by decide) (by decide) 8 (by decide)).1⟩

/-- With one target there is a shorter prefix code: the empty word alone. -/
theorem shortestHintLabel_one_not_minimal :
    ¬ ∀ (alphabet : List Char) (total : ℕ), alphabet.Nodup → 2 ≤ alphabet.length → 1 ≤ total →
      ∀ code : List (List Char), PrefixFree code → (∀ w ∈ code, ∀ c ∈ w, c ∈ alphabet) → code.length = total →
        ((shortestHintLabels total alphabet).map List.length).sum ≤ (code.map List.length).sum := by
  intro h
  have hone := h ['s', 'd'] 1 (by decide) (by decide) (by decide) [[]] (List.pairwise_singleton _ _)
    (fun w hw c hc => by
      rw [List.mem_singleton.mp hw] at hc
      cases hc) rfl
  revert hone
  decide

end VimKeymap
