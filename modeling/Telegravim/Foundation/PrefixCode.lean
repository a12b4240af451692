import Mathlib.Algebra.Order.Ring.Pow
import Mathlib.InformationTheory.Coding.KraftMcMillan
import Mathlib.Tactic.FieldSimp
import Mathlib.Tactic.Linarith
import Mathlib.Tactic.Ring

set_option autoImplicit false

/-!
# Prefix codes

A list of words no two of which begin alike: a reader who gets the letters one by one knows when a word is
complete. Such words cannot all be short. By the inequality of Kraft and McMillan, the lengths are bounded from
below by those of a code whose words have two lengths that differ by one.

## Main definitions

* `PrefixCode.PrefixFree` — no word of a list is a beginning of another.

## Main results

* `PrefixCode.PrefixFree.uniquelyDecodable` — words that are not empty can be told apart when they are joined.
* `PrefixCode.PrefixFree.kraft` — the inequality of Kraft and McMillan over an alphabet that is a list.
* `PrefixCode.PrefixFree.le_sum_length` — the total length of the words is bounded from below.
-/

namespace PrefixCode

variable {α : Type*}

/-- No word is a beginning of another, and no word is there twice. -/
def PrefixFree (code : List (List α)) : Prop :=
  code.Pairwise fun u v => ¬ u <+: v ∧ ¬ v <+: u

namespace PrefixFree

variable {code : List (List α)}

lemma nodup (h : PrefixFree code) : code.Nodup := by
  refine List.Pairwise.imp ?_ h
  rintro u v huv rfl
  exact huv.1 List.prefix_rfl

/-- Words of which one is a beginning of the other are the same. -/
lemma eq_of_prefix (h : PrefixFree code) {u v : List α} (hu : u ∈ code) (hv : v ∈ code) (huv : u <+: v) : u = v := by
  by_contra hne
  have : Std.Symm fun u v : List α => ¬ u <+: v ∧ ¬ v <+: u := ⟨fun _ _ h => ⟨h.2, h.1⟩⟩
  exact (List.Pairwise.forall h hu hv hne).1 huv

/-- **Words that are not empty can be told apart when they are joined.**

**Proof sketch.** The first words of two ways to cut a text are both beginnings of it, so one is a beginning of
the other. -/
lemma uniquelyDecodable (h : PrefixFree code) (hne : [] ∉ code) :
    InformationTheory.UniquelyDecodable {w | w ∈ code} := by
  intro l
  induction l with
  | nil =>
    rintro (_ | ⟨w, rest⟩) - hm heq
    · rfl
    · have hnil : w = [] := by simpa using (List.append_eq_nil_iff.mp heq.symm).1
      exact absurd (hnil ▸ hm w List.mem_cons_self) hne
  | cons u l ih =>
    rintro (_ | ⟨w, rest⟩) hl hm heq
    · have hnil : u = [] := (List.append_eq_nil_iff.mp heq).1
      exact absurd (hnil ▸ hl u List.mem_cons_self) hne
    · rw [List.flatten_cons, List.flatten_cons] at heq
      have hu : u ∈ code := hl u List.mem_cons_self
      have hw : w ∈ code := hm w List.mem_cons_self
      have hsame : u = w := by
        rcases List.prefix_or_prefix_of_prefix (List.prefix_append u l.flatten)
          (heq ▸ List.prefix_append w rest.flatten) with huw | hwu
        · exact h.eq_of_prefix hu hw huw
        · exact (h.eq_of_prefix hw hu hwu).symm
      subst hsame
      rw [List.append_cancel_left_eq] at heq
      rw [ih rest (fun x hx => hl x (List.mem_cons_of_mem _ hx)) (fun x hx => hm x (List.mem_cons_of_mem _ hx)) heq]

/-- **The inequality of Kraft and McMillan**, for words over an alphabet that is a list of distinct letters. -/
lemma kraft {alphabet : List α} (hnodup : alphabet.Nodup) (halphabet : alphabet ≠ []) (h : PrefixFree code)
    (hne : [] ∉ code) (hletters : ∀ w ∈ code, ∀ c ∈ w, c ∈ alphabet) :
    (code.map fun w => (1 / (alphabet.length : ℝ)) ^ w.length).sum ≤ 1 := by
  classical
  -- The words over the finite type of the letters of the alphabet.
  obtain ⟨words, rfl⟩ : ∃ words : List (List {c // c ∈ alphabet}), words.map (List.map Subtype.val) = code := by
    clear h hne
    induction code with
    | nil => exact ⟨[], rfl⟩
    | cons w rest ih =>
      obtain ⟨words, rfl⟩ := ih fun u hu => hletters u (List.mem_cons_of_mem _ hu)
      exact ⟨w.attachWith _ (hletters w List.mem_cons_self) :: words, by simp⟩
  have hwords : PrefixFree words := by
    refine (List.pairwise_map.mp h).imp fun {u v} huv => ⟨fun hp => huv.1 ?_, fun hp => huv.2 ?_⟩
    · exact hp.map _
    · exact hp.map _
  have hnil : [] ∉ words := fun hmem => hne (List.mem_map_of_mem (f := List.map Subtype.val) hmem)
  have : Nonempty {c // c ∈ alphabet} := by
    obtain ⟨c, hc⟩ := List.exists_mem_of_ne_nil alphabet halphabet
    exact ⟨⟨c, hc⟩⟩
  have hset : ((words.toFinset : Finset _) : Set (List {c // c ∈ alphabet})) = {w | w ∈ words} := by
    ext w
    simp
  have hmcmillan := InformationTheory.kraft_mcmillan_inequality (S := words.toFinset)
    (hset ▸ hwords.uniquelyDecodable hnil)
  have hcard : Fintype.card {c // c ∈ alphabet} = alphabet.length := by
    rw [Fintype.card_of_subtype alphabet.toFinset fun c => List.mem_toFinset, List.toFinset_card_of_nodup hnodup]
  rw [hcard, List.sum_toFinset _ hwords.nodup] at hmcmillan
  rw [List.map_map]
  refine le_of_eq_of_le (congrArg List.sum (List.map_congr_left fun w _ => ?_)) hmcmillan
  rw [Function.comp_apply, List.length_map]

end PrefixFree

/-- A power lies above the line through its values at two neighbours. -/
lemma chord_le_pow {b : ℕ} (hb : 2 ≤ b) (l L : ℕ) :
    (b : ℝ) - ((l : ℝ) - L) * ((b : ℝ) - 1) ≤ (b : ℝ) ^ (L + 1) * (1 / (b : ℝ)) ^ l := by
  have hb' : (2 : ℝ) ≤ b := by exact_mod_cast hb
  have hpos : (0 : ℝ) < b := by linarith
  by_cases hle : l ≤ L
  · obtain ⟨k, rfl⟩ := Nat.exists_eq_add_of_le hle
    have hpow : (b : ℝ) ^ (l + k + 1) * (1 / (b : ℝ)) ^ l = b * (b : ℝ) ^ k := by
      rw [one_div, inv_pow, show l + k + 1 = l + (k + 1) by ring, pow_add, pow_succ]
      field_simp
    have hbernoulli : 1 + (k : ℝ) * ((b : ℝ) - 1) ≤ (b : ℝ) ^ k := by
      have := one_add_mul_le_pow (a := (b : ℝ) - 1) (by linarith) k
      rwa [add_sub_cancel] at this
    have hk : (0 : ℝ) ≤ k := Nat.cast_nonneg k
    rw [hpow]
    push_cast
    nlinarith [mul_le_mul_of_nonneg_left hbernoulli hpos.le, mul_nonneg hk (by linarith : (0 : ℝ) ≤ (b : ℝ) - 1)]
  · obtain ⟨k, rfl⟩ := Nat.exists_eq_add_of_lt (Nat.lt_of_not_le hle)
    have hpow : (b : ℝ) ^ (L + 1) * (1 / (b : ℝ)) ^ (L + k + 1) = (1 / (b : ℝ)) ^ k := by
      rw [one_div, inv_pow, inv_pow, show L + k + 1 = L + 1 + k by ring, pow_add (b : ℝ) (L + 1) k]
      field_simp
    rw [hpow]
    push_cast
    cases k with
    | zero =>
      simp only [Nat.cast_zero, pow_zero]
      linarith
    | succ k =>
      have hnonneg : (0 : ℝ) ≤ (1 / (b : ℝ)) ^ (k + 1) := by positivity
      have hk : (0 : ℝ) ≤ k := Nat.cast_nonneg k
      push_cast
      nlinarith [mul_nonneg hk (by linarith : (0 : ℝ) ≤ (b : ℝ) - 1)]

namespace PrefixFree

variable {code : List (List α)}

/-- **The total length of a prefix code is bounded from below**, for every length `L`. -/
theorem le_sum_length {alphabet : List α} (hnodup : alphabet.Nodup) (hb : 2 ≤ alphabet.length) (h : PrefixFree code)
    (hne : [] ∉ code) (hletters : ∀ w ∈ code, ∀ c ∈ w, c ∈ alphabet) (L : ℕ) :
    (alphabet.length : ℤ) * (code.length - (alphabet.length : ℤ) ^ L) ≤
      ((alphabet.length : ℤ) - 1) * ((code.map List.length).sum - code.length * L) := by
  have halphabet : alphabet ≠ [] := by
    rintro rfl
    cases hb
  have hkraft := h.kraft hnodup halphabet hne hletters
  set b := alphabet.length with hbdef
  have hsum : ∀ words : List (List α),
      (words.length : ℝ) * b - ((b : ℝ) - 1) * (((words.map List.length).sum : ℕ) - words.length * L) ≤
        (b : ℝ) ^ (L + 1) * (words.map fun w => (1 / (b : ℝ)) ^ w.length).sum := by
    intro words
    induction words with
    | nil => simp
    | cons w rest ih =>
      have hw := chord_le_pow hb w.length L
      rw [List.map_cons, List.map_cons, List.sum_cons, List.sum_cons, List.length_cons, mul_add, Nat.cast_add,
        Nat.cast_add, Nat.cast_one]
      linarith
  have hpow : (0 : ℝ) ≤ (b : ℝ) ^ (L + 1) := by positivity
  have hreal := (hsum code).trans (mul_le_mul_of_nonneg_left hkraft hpow)
  rw [mul_one, pow_succ] at hreal
  have hint : (code.length : ℤ) * b - ((b : ℤ) - 1) * (((code.map List.length).sum : ℕ) - code.length * L) ≤
      (b : ℤ) ^ L * b := by exact_mod_cast hreal
  linarith

end PrefixFree

end PrefixCode
