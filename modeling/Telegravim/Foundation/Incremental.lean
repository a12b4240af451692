import Mathlib.Data.List.Basic
import Mathlib.Data.List.Induction

set_option autoImplicit false

/-!
# Reading a stream as it comes

A reader that gets its bytes in pieces looks at the start of what it has. It waits for more, or it
takes some bytes, gives something out and goes on, or it stops for good. What it does once it does
not wait is not changed by more bytes. Such a reader gives out the same however the stream is cut.

## Main definitions

* `Incremental` — a reader by its steps.
* `Incremental.run` — all steps that some bytes allow: what is given out, and the state and the bytes that are left.
* `Incremental.feed` — one more piece.

## Main results

* `Incremental.run_append` — more bytes go on where the others have stopped.
* `Incremental.foldl_feed` — pieces give the same as the whole stream.
-/

/-- What a reader does at the start of some bytes: it waits for more of them, takes some, or stops. -/
inductive Incremental.Outcome (σ ω : Type) where
  | wait
  | take (count : ℕ) (state : σ) (out : List ω)
  | stop (out : List ω)

/-- A reader by its steps. -/
structure Incremental (α σ ω : Type) where
  step : σ → List α → Incremental.Outcome σ ω
  stable : ∀ state bytes more, step state bytes ≠ .wait → step state (bytes ++ more) = step state bytes
  progress : ∀ state bytes count next out, step state bytes = .take count next out →
    0 < count ∧ count ≤ bytes.length

namespace Incremental

variable {α σ ω : Type} (reader : Incremental α σ ω)

/-- **All steps that some bytes allow**: what is given out, and the state and the bytes that are left unless the reader
has stopped. -/
def run (state : σ) (bytes : List α) : List ω × Option (σ × List α) :=
  match _hstep : reader.step state bytes with
  | .wait => ([], some (state, bytes))
  | .take count next out =>
    let rest := run next (bytes.drop count)
    (out ++ rest.1, rest.2)
  | .stop out => (out, none)
termination_by bytes.length
decreasing_by
  have hcount := reader.progress state bytes count next out _hstep
  rw [List.length_drop]
  omega

/-- One more piece for what a reader has left. -/
def feed (given : List ω × Option (σ × List α)) (piece : List α) : List ω × Option (σ × List α) :=
  match given.2 with
  | none => given
  | some (state, rest) =>
    let result := reader.run state (rest ++ piece)
    (given.1 ++ result.1, result.2)

variable {reader} {state : σ} {bytes : List α}

lemma run_wait (h : reader.step state bytes = .wait) : reader.run state bytes = ([], some (state, bytes)) := by
  rw [run]
  split <;> rename_i heq <;> rw [h] at heq <;> cases heq

lemma run_take {count : ℕ} {next : σ} {out : List ω} (h : reader.step state bytes = .take count next out) :
    reader.run state bytes =
      (out ++ (reader.run next (bytes.drop count)).1, (reader.run next (bytes.drop count)).2) := by
  rw [run]
  split <;> rename_i heq <;> rw [h] at heq <;> cases heq
  rfl

lemma run_stop {out : List ω} (h : reader.step state bytes = .stop out) : reader.run state bytes = (out, none) := by
  rw [run]
  split <;> rename_i heq <;> rw [h] at heq <;> cases heq
  rfl

/-- Induction along the steps that some bytes allow. -/
theorem run_induction {motive : σ → List α → Prop}
    (wait : ∀ state bytes, reader.step state bytes = .wait → motive state bytes)
    (take : ∀ state bytes count next out, reader.step state bytes = .take count next out →
      motive next (bytes.drop count) → motive state bytes)
    (stop : ∀ state bytes out, reader.step state bytes = .stop out → motive state bytes)
    (state : σ) (bytes : List α) : motive state bytes := by
  induction hn : bytes.length using Nat.strongRecOn generalizing state bytes with
  | _ n ih =>
    rcases hstep : reader.step state bytes with - | ⟨count, next, out⟩ | out
    · exact wait state bytes hstep
    · have hcount := reader.progress state bytes count next out hstep
      refine take state bytes count next out hstep (ih _ ?_ next (bytes.drop count) rfl)
      rw [List.length_drop]
      omega
    · exact stop state bytes out hstep

/-- **More bytes** go on where the others have stopped. -/
theorem run_append (reader : Incremental α σ ω) (state : σ) (bytes more : List α) :
    reader.run state (bytes ++ more) = reader.feed (reader.run state bytes) more := by
  induction state, bytes using reader.run_induction with
  | wait state bytes hstep =>
    rw [run_wait hstep, feed]
    rfl
  | take state bytes count next out hstep ih =>
    have hcount := reader.progress state bytes count next out hstep
    have hstep' : reader.step state (bytes ++ more) = .take count next out := by
      rw [reader.stable state bytes more (by rw [hstep]; exact nofun), hstep]
    rw [run_take hstep', run_take hstep, List.drop_append_of_le_length hcount.2, ih]
    rcases reader.run next (bytes.drop count) with ⟨given, - | ⟨left, rest⟩⟩
    · rfl
    · simp only [feed, List.append_assoc]
  | stop state bytes out hstep =>
    have hstep' : reader.step state (bytes ++ more) = .stop out := by
      rw [reader.stable state bytes more (by rw [hstep]; exact nofun), hstep]
    rw [run_stop hstep', run_stop hstep, feed]

/-- What was given out before stays in front. -/
lemma feed_append (given : List ω) (result : List ω × Option (σ × List α)) (piece : List α) :
    reader.feed (given ++ result.1, result.2) piece =
      (given ++ (reader.feed result piece).1, (reader.feed result piece).2) := by
  rcases result with ⟨out, - | ⟨left, rest⟩⟩
  · rfl
  · simp only [feed, List.append_assoc]

/-- **Pieces** give the same as all of them at once. -/
theorem foldl_feed (state : σ) (bytes : List α) (pieces : List (List α)) :
    pieces.foldl reader.feed (reader.run state bytes) = reader.run state (bytes ++ pieces.flatten) := by
  induction pieces using List.reverseRecOn with
  | nil => rw [List.flatten_nil, List.append_nil, List.foldl_nil]
  | append_singleton pieces piece ih =>
    have hsplit := reader.run_append state (bytes ++ pieces.flatten) piece
    rw [List.foldl_append, ih, List.flatten_append, List.flatten_singleton, ← List.append_assoc, hsplit,
      List.foldl_cons, List.foldl_nil]

/-- Pieces after something was given out. -/
lemma foldl_feed_append (given : List ω) (result : List ω × Option (σ × List α)) (pieces : List (List α)) :
    pieces.foldl reader.feed (given ++ result.1, result.2) =
      (given ++ (pieces.foldl reader.feed result).1, (pieces.foldl reader.feed result).2) := by
  induction pieces generalizing result with
  | nil => rfl
  | cons piece pieces ih => rw [List.foldl_cons, feed_append, ih, List.foldl_cons]

end Incremental
