import Mathlib.Algebra.GroupWithZero.Nat
import Mathlib.Data.List.Induction
import Mathlib.Algebra.BigOperators.Group.List.Basic

set_option autoImplicit false

/-!
# Traces of a labelled transition relation

A trace is a path of a labelled transition relation with the list of its labels, the newest
last. A property of whole traces is proved from what one step does: an invariant of the states
and the labels so far, or a preorder that every step respects.

## Main definitions

* `Trace` — paths with their labels.

## Main results

* `Trace.append`, `Trace.split` — traces are joined and cut at any place.
* `Trace.invariant` — a property of past labels and state that every step keeps.
* `Trace.rel` — a preorder that every step respects relates the ends of a trace.
* `Trace.pairwise` — two labels of a trace, with the states before and after each.
* `Trace.cost_le` — what the steps cost in all is paid by a potential.
-/

universe u v

/-- A path of a labelled transition relation, with its labels in order. -/
inductive Trace {σ : Type u} {ε : Type v} (step : σ → ε → σ → Prop) (s : σ) :
    List ε → σ → Prop where
  | nil : Trace step s [] s
  | snoc {t r : σ} {labels : List ε} {label : ε} :
      Trace step s labels t → step t label r → Trace step s (labels ++ [label]) r

namespace Trace

variable {σ : Type u} {ε : Type v} {step : σ → ε → σ → Prop}

lemma single {s t : σ} {label : ε} (h : step s label t) : Trace step s [label] t :=
  snoc nil h

/-- Traces that meet are joined. -/
lemma append {s t r : σ} {as bs : List ε} (h : Trace step s as t) (h' : Trace step t bs r) :
    Trace step s (as ++ bs) r := by
  induction h' with
  | nil => simpa using h
  | snoc _ hstep ih => exact List.append_assoc _ _ _ ▸ snoc ih hstep

/-- A trace without labels stays where it is. -/
lemma nil_inv {s t : σ} (h : Trace step s [] t) : s = t := by
  generalize hl : ([] : List ε) = labels at h
  cases h with
  | nil => rfl
  | snoc _ _ => simp at hl

/-- The last step of a trace. -/
lemma snoc_inv {s r : σ} {a : List ε} {label : ε} (h : Trace step s (a ++ [label]) r) :
    ∃ t, Trace step s a t ∧ step t label r := by
  generalize hl : a ++ [label] = labels at h
  cases h with
  | nil => simp at hl
  | snoc htrace hstep =>
    obtain ⟨rfl, hlabel⟩ := List.append_inj' hl rfl
    cases hlabel
    exact ⟨_, htrace, hstep⟩

/-- A trace is cut at any place. -/
lemma split {s r : σ} {a b : List ε} (h : Trace step s (a ++ b) r) :
    ∃ t, Trace step s a t ∧ Trace step t b r := by
  induction b using List.reverseRecOn generalizing r with
  | nil => exact ⟨r, by simpa using h, nil⟩
  | append_singleton b label ih =>
    obtain ⟨t, htrace, hstep⟩ := snoc_inv (List.append_assoc a b [label] ▸ h)
    obtain ⟨m, hm, hmt⟩ := ih htrace
    exact ⟨m, hm, snoc hmt hstep⟩

/-- A trace is cut at one of its labels. -/
lemma split_cons {s r : σ} {as bs : List ε} {label : ε} (h : Trace step s (as ++ label :: bs) r) :
    ∃ a b, Trace step s as a ∧ step a label b ∧ Trace step b bs r := by
  obtain ⟨a, ha, hrest⟩ := split h
  obtain ⟨b, hb, hbs⟩ := split (a := [label]) (b := bs) hrest
  obtain ⟨a', ha', hstep⟩ := snoc_inv (a := []) hb
  cases nil_inv ha'
  exact ⟨a, b, ha, hstep, hbs⟩

/-- **The invariant rule**, for a property of the labels so far and the state. -/
lemma invariant {P : List ε → σ → Prop} {s t : σ} {labels : List ε}
    (h : Trace step s labels t) (hinit : P [] s)
    (hstep : ∀ past a label b, P past a → step a label b → P (past ++ [label]) b) :
    P labels t := by
  induction h with
  | nil => exact hinit
  | snoc _ hs ih => exact hstep _ _ _ _ ih hs

/-- A preorder that every step respects relates the ends of a trace. -/
lemma rel {R : σ → σ → Prop} (hrefl : ∀ s, R s s) (htrans : ∀ a b c, R a b → R b c → R a c)
    (hstep : ∀ a label b, step a label b → R a b) {s t : σ} {labels : List ε}
    (h : Trace step s labels t) : R s t := by
  induction h with
  | nil => exact hrefl _
  | snoc _ hs ih => exact htrans _ _ _ ih (hstep _ _ _ hs)

/-- **The potential rule**: when every step pays its cost by a drop of the potential, a trace
costs no more than the potential it starts with. -/
lemma cost_le {P : σ → Prop} (cost : ε → ℕ) (potential : σ → ℕ)
    (hstep : ∀ a label b, P a → step a label b → P b ∧ cost label + potential b ≤ potential a)
    {s t : σ} {labels : List ε} (h : Trace step s labels t) (hs : P s) :
    P t ∧ (labels.map cost).sum + potential t ≤ potential s := by
  induction h with
  | nil => exact ⟨hs, by simp⟩
  | @snoc b c labels label _ hbc ih =>
    obtain ⟨hb, hpaid⟩ := ih
    obtain ⟨hc, hstepPaid⟩ := hstep _ _ _ hb hbc
    refine ⟨hc, ?_⟩
    rw [List.map_append, List.sum_append, List.map_singleton, List.sum_singleton]
    omega

/-- A label of a trace, with the states around it. -/
lemma mem {s r : σ} {labels : List ε} (h : Trace step s labels r) {label : ε}
    (hmem : label ∈ labels) :
    ∃ as bs a b, labels = as ++ [label] ++ bs ∧ Trace step s as a ∧ step a label b ∧
      Trace step b bs r := by
  obtain ⟨as, bs, rfl⟩ := List.append_of_mem hmem
  obtain ⟨a, b, ha, hstep, hbs⟩ := split_cons h
  exact ⟨as, bs, a, b, by simp, ha, hstep, hbs⟩

/-- **Two labels of a trace**: what one step establishes about its label and its state holds
between any two places, when the later steps keep it. `P label b` is established by the step
that does `label`, kept by every step, and `R` follows for a later label from the state before
it. -/
lemma pairwise {P : ε → σ → Prop} {R : ε → ε → Prop}
    (hdone : ∀ a label b, step a label b → P label b)
    (hkeep : ∀ past a label b, P past a → step a label b → P past b)
    (hrel : ∀ past a label b, P past a → step a label b → R past label)
    {s r : σ} {labels : List ε} (h : Trace step s labels r) : labels.Pairwise R := by
  have key : labels.Pairwise R ∧ ∀ past ∈ labels, P past r := by
    induction h with
    | nil => exact ⟨List.Pairwise.nil, by simp⟩
    | @snoc b c labels label _ hs ih =>
      refine ⟨List.pairwise_append.mpr ⟨ih.1, List.pairwise_singleton _ _, ?_⟩, ?_⟩
      · intro past hpast later hlater
        rw [List.mem_singleton.mp hlater]
        exact hrel past _ label _ (ih.2 past hpast) hs
      · intro past hpast
        rcases List.mem_append.mp hpast with hpast | hpast
        · exact hkeep past _ label _ (ih.2 past hpast) hs
        · rw [List.mem_singleton.mp hpast]
          exact hdone _ label _ hs
  exact key.1

/-- Of two different labels one stands before the other. -/
lemma rel_or_rel_of_mem {R : ε → ε → Prop} {labels : List ε} (h : labels.Pairwise R) {a b : ε}
    (ha : a ∈ labels) (hb : b ∈ labels) (hne : a ≠ b) : R a b ∨ R b a := by
  induction labels with
  | nil => simp at ha
  | cons c labels ih =>
    obtain ⟨hc, hlabels⟩ := List.pairwise_cons.mp h
    rcases List.mem_cons.mp ha with hac | hal <;> rcases List.mem_cons.mp hb with hbc | hbl
    · exact absurd (hac.trans hbc.symm) hne
    · exact Or.inl (hac ▸ hc b hbl)
    · exact Or.inr (hbc ▸ hc a hal)
    · exact ih hlabels hal hbl

end Trace
