import Mathlib.Data.List.Basic

set_option autoImplicit false

/-!
# Computations that read their input in pieces

A computation `consume : σ → List α → Except ε σ` changes its state with each piece of the input, and may
fail. Only a view `ε → ο` of a failure is compared: a state that is left behind by a failure may depend on
the pieces. If a piece may be cut in two, then the pieces do not matter at all: every way of cutting the same
input leads to the same state, or to the same view of a failure.

## Main definitions

* `Chunks.feed` — pieces one after another, up to the first failure.
* `Chunks.observe` — the state, or what is seen of a failure.
* `Chunks.Cuttable` — a piece may be cut in two, and an empty piece changes nothing.

## Main results

* `Chunks.Cuttable.observe_feed_eq` — all ways of cutting the same input agree.
* `Chunks.feed_invariant` — an invariant of the input so far and of the state.
-/

universe u v w

namespace Except

variable {ε : Type u} {α β : Type v}

@[simp] lemma ok_bind (a : α) (next : α → Except ε β) : (Except.ok a >>= next) = next a := rfl

/-- A computation in two parts succeeds when both do. -/
lemma bind_eq_ok_iff {first : Except ε α} {next : α → Except ε β} {value : β} :
    (first >>= next) = .ok value ↔ ∃ middle, first = .ok middle ∧ next middle = .ok value := by
  cases first with
  | ok middle =>
    constructor
    · intro h
      exact ⟨middle, rfl, h⟩
    · rintro ⟨_, hfirst, hnext⟩
      cases hfirst
      exact hnext
  | error fault =>
    constructor
    · intro h
      cases h
    · rintro ⟨_, hfirst, -⟩
      cases hfirst

/-- What each step of a loop over a list keeps, the loop keeps. -/
lemma foldlM_invariant {γ : Type w} {f : β → γ → Except ε β} {P : β → Prop}
    (hstep : ∀ b x b', P b → f b x = .ok b' → P b') {l : List γ} {b b' : β} (hb : P b)
    (h : l.foldlM f b = .ok b') : P b' := by
  induction l generalizing b with
  | nil =>
    obtain rfl := Except.ok.inj h
    exact hb
  | cons x rest ih =>
    rw [List.foldlM_cons] at h
    obtain ⟨c, hc, hrest⟩ := bind_eq_ok_iff.mp h
    exact ih (hstep b x c hb hc) hrest

end Except

namespace Chunks

variable {σ : Type v} {α : Type w} {ε ο : Type u} {consume : σ → List α → Except ε σ} {view : ε → ο}

/-- Pieces one after another, up to the first failure. -/
def feed (consume : σ → List α → Except ε σ) (s : σ) (chunks : List (List α)) : Except ε σ :=
  chunks.foldlM consume s

/-- The state, or what is seen of a failure. -/
def observe (view : ε → ο) (r : Except ε σ) : Except ο σ := r.mapError view

lemma feed_nil (s : σ) : feed consume s [] = .ok s := rfl

lemma feed_cons (s : σ) (chunk : List α) (chunks : List (List α)) :
    feed consume s (chunk :: chunks) = consume s chunk >>= fun t => feed consume t chunks :=
  List.foldlM_cons

lemma feed_append (s : σ) (chunks rest : List (List α)) :
    feed consume s (chunks ++ rest) = feed consume s chunks >>= fun t => feed consume t rest :=
  List.foldlM_append

/-- What follows agrees where it is reached. -/
lemma observe_bind_congr {first first' : Except ε σ} {next next' : σ → Except ε σ}
    (hfirst : observe view first = observe view first')
    (hnext : ∀ s, first = .ok s → observe view (next s) = observe view (next' s)) :
    observe view (first >>= next) = observe view (first' >>= next') := by
  cases first with
  | ok s =>
    cases first' with
    | ok s' =>
      obtain rfl : s = s' := Except.ok.inj hfirst
      exact hnext s rfl
    | error e' => cases hfirst
  | error e =>
    cases first' with
    | ok s' => cases hfirst
    | error e' => exact hfirst

/-- A piece may be cut in two, and an empty piece changes nothing, in the states that are `ready`; a piece
that is `small` leads to such a state again. -/
structure Cuttable (consume : σ → List α → Except ε σ) (view : ε → ο) (small : List α → Prop)
    (ready : σ → Prop) : Prop where
  nil : ∀ s, ready s → consume s [] = .ok s
  next : ∀ s chunk s', ready s → consume s chunk = .ok s' → ready s'
  append : ∀ s chunk rest, ready s → small (chunk ++ rest) →
    observe view (consume s (chunk ++ rest)) =
      observe view (consume s chunk >>= fun t => consume t rest)
  small_tail : ∀ chunk rest, small (chunk ++ rest) → small rest

namespace Cuttable

variable {small : List α → Prop} {ready : σ → Prop}

/-- A piece agrees with its elements, one after another. -/
lemma observe_consume_eq (h : Cuttable consume view small ready) {s : σ} (hs : ready s)
    {chunk : List α} (hsmall : small chunk) :
    observe view (consume s chunk) = observe view (feed consume s (chunk.map fun x => [x])) := by
  induction chunk generalizing s with
  | nil => rw [h.nil s hs, List.map_nil, feed_nil]
  | cons x rest ih =>
    rw [List.map_cons, feed_cons, ← List.singleton_append, h.append s [x] rest hs hsmall]
    refine observe_bind_congr rfl fun t ht => ?_
    exact ih (h.next s [x] t hs ht) (h.small_tail [x] rest hsmall)

/-- Small pieces agree with all their elements, one after another. -/
lemma observe_feed_eq_single (h : Cuttable consume view small ready) {s : σ} (hs : ready s)
    {chunks : List (List α)} (hsmall : ∀ chunk ∈ chunks, small chunk) :
    observe view (feed consume s chunks) =
      observe view (feed consume s (chunks.flatten.map fun x => [x])) := by
  induction chunks generalizing s with
  | nil => rfl
  | cons chunk rest ih =>
    rw [feed_cons, List.flatten_cons, List.map_append, feed_append]
    refine observe_bind_congr (h.observe_consume_eq hs (hsmall chunk List.mem_cons_self))
      fun t ht => ?_
    exact ih (h.next s chunk t hs ht) fun c hc => hsmall c (List.mem_cons_of_mem _ hc)

/-- **All ways of cutting the same input agree.**

**Proof sketch.** Each of them agrees with the elements of the input, one after another. -/
theorem observe_feed_eq (h : Cuttable consume view small ready) {s : σ} (hs : ready s)
    {chunks chunks' : List (List α)} (hsmall : ∀ chunk ∈ chunks, small chunk)
    (hsmall' : ∀ chunk ∈ chunks', small chunk) (hflatten : chunks.flatten = chunks'.flatten) :
    observe view (feed consume s chunks) = observe view (feed consume s chunks') := by
  rw [h.observe_feed_eq_single hs hsmall, h.observe_feed_eq_single hs hsmall', hflatten]

end Cuttable

/-- **An invariant of the input so far and of the state** holds after every run. -/
theorem feed_invariant {I : List α → σ → Prop}
    (hstep : ∀ done s chunk s', I done s → consume s chunk = .ok s' → I (done ++ chunk) s')
    (done : List α) {s s' : σ} {chunks : List (List α)} (hI : I done s)
    (h : feed consume s chunks = .ok s') : I (done ++ chunks.flatten) s' := by
  induction chunks generalizing done s with
  | nil =>
    obtain rfl := Except.ok.inj h
    simpa using hI
  | cons chunk rest ih =>
    rw [feed_cons] at h
    obtain ⟨t, ht, hrest⟩ := Except.bind_eq_ok_iff.mp h
    rw [List.flatten_cons, ← List.append_assoc]
    exact ih (done ++ chunk) (hstep done s chunk t hI ht) hrest

end Chunks
