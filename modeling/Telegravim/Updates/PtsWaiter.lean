import Telegravim.Foundation.OrdMap
import Telegravim.Foundation.RunningSum

set_option autoImplicit false

/-!
# The waiter for server updates

The server counts its updates: each has a `pts`, which is the sum of the counts up to and including it.
They may come in any order. `PtsWaiter` compares the largest `pts` with the sum of the counts that it
has got: while these differ, something is missing, and what comes is put in a queue.

What the waiter tells its owner is recorded in `owner`, oldest first. The source keeps a skipped update in
one of two maps, and in a third one which of the two; `Held` says that the three are one map.

## Main definitions

* `Updates.PtsWaiter` — the waiter, with one function for each of the source.
* `Updates.PtsWaiter.take` — the three overloads of `updateAndApply`.
* `Updates.Ready` — a waiter between two calls.

## Main results

* `Updates.take_spec` — what a call does to the sum, to what waits and to what is applied.
-/

namespace Updates

/-- Which of the maps has a skipped update. -/
inductive PtsSkippedQueue where
  | skippedUpdate
  | skippedUpdates
  deriving DecidableEq

/-- What the waiter tells its owner. -/
inductive OwnerCall (Update Updates : Type) where
  | ptsWaiterStartTimerFor (ms : ℤ)
  | applyUpdateNoPtsCheck (update : Update)
  | applyUpdatesNoPtsCheck (updates : Updates)
  deriving DecidableEq

/-- The waiter for the updates of the account, or of one channel. -/
structure PtsWaiter (Update Updates : Type) where
  /-- What the owner has been told. -/
  owner : List (OwnerCall Update Updates) := []
  queue : OrdMap ℕ PtsSkippedQueue := ∅
  updateQueue : OrdMap ℕ Update := ∅
  updatesQueue : OrdMap ℕ Updates := ∅
  good : ℤ := 0
  last : ℤ := 0
  count : ℤ := 0
  applySkippedLevel : ℤ := 0
  requesting : Bool := false
  waitingForSkipped : Bool := false
  waitingForShortPoll : Bool := false
  /-- An unsigned number of 32 bits. -/
  skippedKey : ℕ := 0

/-- The time to wait for what is missing, in milliseconds. -/
def kWaitForSkippedTimeout : ℤ := 1000

/-- An update, or a container of them. -/
inductive Skipped (Update Updates : Type) where
  | update (update : Update)
  | updates (updates : Updates)
  deriving DecidableEq

namespace Skipped

variable {Update Updates : Type}

/-- The map it waits in. -/
def queue : Skipped Update Updates → PtsSkippedQueue
  | update _ => .skippedUpdate
  | updates _ => .skippedUpdates

/-- The call that applies it. -/
def call : Skipped Update Updates → OwnerCall Update Updates
  | update u => .applyUpdateNoPtsCheck u
  | updates us => .applyUpdatesNoPtsCheck us

end Skipped

namespace PtsWaiter

variable {Update Updates : Type}

/-! ### The functions of the source -/

/-- Tells the owner. -/
def tell (w : PtsWaiter Update Updates) (call : OwnerCall Update Updates) : PtsWaiter Update Updates :=
  { w with owner := w.owner ++ [call] }

/-- `PtsWaiter::clearSkippedUpdates`. -/
def clearSkippedUpdates (w : PtsWaiter Update Updates) : PtsWaiter Update Updates :=
  { w with
    queue := ∅
    updateQueue := ∅
    updatesQueue := ∅
    applySkippedLevel := 0 }

/-- `PtsWaiter::init`. -/
def init (w : PtsWaiter Update Updates) (pts : ℤ) : PtsWaiter Update Updates :=
  clearSkippedUpdates { w with
    good := pts
    last := pts
    count := pts }

/-- `PtsWaiter::inited`. -/
def inited (w : PtsWaiter Update Updates) : Bool := w.good > 0

/-- `PtsWaiter::current`. -/
def current (w : PtsWaiter Update Updates) : ℤ := w.good

/-- `PtsWaiter::ptsKey`, the key: the pts in the high 32 bits, a number of its own in the low ones. -/
def nextKey (w : PtsWaiter Update Updates) (pts : ℤ) : ℕ :=
  (pts % 2 ^ 32).toNat * 2 ^ 32 + (w.skippedKey + 1) % 2 ^ 32

/-- `PtsWaiter::ptsKey`, the queue. -/
def ptsKey (w : PtsWaiter Update Updates) (queue : PtsSkippedQueue) (pts : ℤ) :
    PtsWaiter Update Updates :=
  { w with
    queue := w.queue.emplace (w.nextKey pts) queue
    skippedKey := (w.skippedKey + 1) % 2 ^ 32 }

/-- Puts an update in its queue, as the source does in four places. -/
def save (w : PtsWaiter Update Updates) (pts : ℤ) : Skipped Update Updates → PtsWaiter Update Updates
  | .update u =>
    { w.ptsKey .skippedUpdate pts with
      updateQueue := w.updateQueue.emplace (w.nextKey pts) u }
  | .updates us =>
    { w.ptsKey .skippedUpdates pts with
      updatesQueue := w.updatesQueue.emplace (w.nextKey pts) us }

/-- `PtsWaiter::checkForWaiting`. -/
def checkForWaiting (w : PtsWaiter Update Updates) : PtsWaiter Update Updates :=
  if !w.waitingForSkipped && !w.waitingForShortPoll then w.tell (.ptsWaiterStartTimerFor (-1)) else w

/-- `PtsWaiter::setWaitingForSkipped`. -/
def setWaitingForSkipped (w : PtsWaiter Update Updates) (ms : ℤ) : PtsWaiter Update Updates :=
  if ms ≥ 0 then { w.tell (.ptsWaiterStartTimerFor ms) with waitingForSkipped := true }
  else checkForWaiting { w with waitingForSkipped := false }

/-- The calls that apply what waits, in the order of the keys. -/
def skippedCalls [Inhabited Update] [Inhabited Updates] (w : PtsWaiter Update Updates) :
    List (OwnerCall Update Updates) :=
  w.queue.entries.map fun entry =>
    match entry.2 with
    | .skippedUpdate => .applyUpdateNoPtsCheck ((w.updateQueue.find entry.1).getD default)
    | .skippedUpdates => .applyUpdatesNoPtsCheck ((w.updatesQueue.find entry.1).getD default)

/-- `PtsWaiter::applySkippedUpdates`. The level is raised around the calls, and cleared after them. -/
def applySkippedUpdates [Inhabited Update] [Inhabited Updates] (w : PtsWaiter Update Updates) :
    PtsWaiter Update Updates :=
  if !w.waitingForSkipped then w
  else
    let w := w.setWaitingForSkipped (-1)
    if w.queue.entries.isEmpty then w
    else clearSkippedUpdates { w with owner := w.owner ++ w.skippedCalls }

/-- `PtsWaiter::check`: false when the update has to be saved and applied later. -/
def check (w : PtsWaiter Update Updates) (pts count : ℤ) : Bool × PtsWaiter Update Updates :=
  if !w.inited then (true, w.init pts)
  else
    let w := { w with
      last := max w.last pts
      count := w.count + count }
    if w.last = w.count then (true, { w with good := w.last })
    else if w.last < w.count then (decide (count = 0), w.setWaitingForSkipped 1)
    else (decide (count = 0), w.setWaitingForSkipped kWaitForSkippedTimeout)

/-- `PtsWaiter::updated`: what is not ready is saved, as the overload does it. -/
def updatedOr (w : PtsWaiter Update Updates) (pts count : ℤ)
    (saved : PtsWaiter Update Updates → PtsWaiter Update Updates) : Bool × PtsWaiter Update Updates :=
  if w.requesting || w.applySkippedLevel ≠ 0 then (true, w)
  else if pts ≤ w.good ∧ count > 0 then (false, w)
  else
    let (ready, w) := w.check pts count
    if ready then (true, w) else (false, saved w)

/-- `PtsWaiter::updated` for a container. -/
def updatedUpdates (w : PtsWaiter Update Updates) (pts count : ℤ) (updates : Updates) :
    Bool × PtsWaiter Update Updates :=
  w.updatedOr pts count fun w => w.save pts (.updates updates)

/-- `PtsWaiter::updated` for an update. -/
def updatedUpdate (w : PtsWaiter Update Updates) (pts count : ℤ) (update : Update) :
    Bool × PtsWaiter Update Updates :=
  w.updatedOr pts count fun w => w.save pts (.update update)

/-- `PtsWaiter::updated` for a pts that comes alone. -/
def updated (w : PtsWaiter Update Updates) (pts count : ℤ) : Bool × PtsWaiter Update Updates :=
  w.updatedOr pts count fun w => w

/-- What `PtsWaiter::updateAndApply` does after `updated`. -/
def applyReady [Inhabited Update] [Inhabited Updates] (w : Bool × PtsWaiter Update Updates) (pts : ℤ)
    (skipped : Skipped Update Updates) : Bool × PtsWaiter Update Updates :=
  if !w.1 then (false, w.2)
  else if !w.2.waitingForSkipped || w.2.queue.entries.isEmpty then (true, w.2.tell skipped.call)
  else (true, (w.2.save pts skipped).applySkippedUpdates)

/-- `PtsWaiter::updateAndApply` for a container. -/
def updateAndApplyUpdates [Inhabited Update] [Inhabited Updates] (w : PtsWaiter Update Updates)
    (pts count : ℤ) (updates : Updates) : Bool × PtsWaiter Update Updates :=
  applyReady (w.updatedUpdates pts count updates) pts (.updates updates)

/-- `PtsWaiter::updateAndApply` for an update. -/
def updateAndApplyUpdate [Inhabited Update] [Inhabited Updates] (w : PtsWaiter Update Updates)
    (pts count : ℤ) (update : Update) : Bool × PtsWaiter Update Updates :=
  applyReady (w.updatedUpdate pts count update) pts (.update update)

/-- `PtsWaiter::updateAndApply` for a pts that comes alone. -/
def updateAndApply [Inhabited Update] [Inhabited Updates] (w : PtsWaiter Update Updates)
    (pts count : ℤ) : Bool × PtsWaiter Update Updates :=
  let (ready, w) := w.updated pts count
  if !ready then (false, w) else (true, w.applySkippedUpdates)

/-- The overload of `updateAndApply` for what comes with the pts. -/
def take [Inhabited Update] [Inhabited Updates] (w : PtsWaiter Update Updates) (pts count : ℤ) :
    Option (Skipped Update Updates) → Bool × PtsWaiter Update Updates
  | some (.update update) => w.updateAndApplyUpdate pts count update
  | some (.updates updates) => w.updateAndApplyUpdates pts count updates
  | none => w.updateAndApply pts count

end PtsWaiter

/-! ### What is applied -/

section Spec

variable {Update Updates : Type}

/-- What a call applies. -/
def OwnerCall.applies : OwnerCall Update Updates → Option (Skipped Update Updates)
  | .ptsWaiterStartTimerFor _ => none
  | .applyUpdateNoPtsCheck u => some (.update u)
  | .applyUpdatesNoPtsCheck us => some (.updates us)

/-- What has been applied, in order. -/
def applied (calls : List (OwnerCall Update Updates)) : List (Skipped Update Updates) :=
  calls.filterMap OwnerCall.applies

@[simp] lemma applied_append (calls others : List (OwnerCall Update Updates)) :
    applied (calls ++ others) = applied calls ++ applied others :=
  List.filterMap_append

@[simp] lemma applied_call (s : Skipped Update Updates) : applied [s.call] = [s] := by
  cases s <;> rfl

lemma applied_map_call (waiting : List (Skipped Update Updates)) :
    applied (waiting.map Skipped.call) = waiting := by
  induction waiting with
  | nil => rfl
  | cons s rest ih =>
    rw [List.map_cons, ← List.singleton_append, applied_append, applied_call, ih,
      List.singleton_append]

/-- A map has the contents of one kind of all that waits. -/
structure Part {ν : Type} (kind : ν → Skipped Update Updates) (contents : OrdMap ℕ ν)
    (m : OrdMap ℕ (Skipped Update Updates)) : Prop where
  some : ∀ key x, m.find key = some (kind x) → contents.find key = some x
  none : ∀ key, m.find key = none → contents.find key = none

namespace Part

variable {ν : Type} {kind : ν → Skipped Update Updates} {contents : OrdMap ℕ ν}
  {m : OrdMap ℕ (Skipped Update Updates)}

lemma emplace (h : Part kind contents m) (hkind : Function.Injective kind) (key : ℕ) (x : ν) :
    Part kind (contents.emplace key x) (m.emplace key (kind x)) where
  some key' y hfind := by
    rw [OrdMap.find_emplace] at hfind ⊢
    split_ifs at hfind ⊢
    · cases htaken : m.find key with
      | none =>
        rw [htaken, Option.getD_none, Option.some.injEq] at hfind
        rw [h.none _ htaken, Option.getD_none, hkind hfind]
      | some taken =>
        rw [htaken, Option.getD_some, Option.some.injEq] at hfind
        rw [h.some key y (htaken.trans (congrArg _ hfind)), Option.getD_some]
    · exact h.some key' y hfind
  none key' hfind := by
    rw [OrdMap.find_emplace] at hfind ⊢
    split_ifs at hfind ⊢
    exact h.none key' hfind

lemma emplace_other (h : Part kind contents m) {s : Skipped Update Updates} (hother : ∀ x, s ≠ kind x)
    (key : ℕ) : Part kind contents (m.emplace key s) where
  some key' y hfind := by
    rw [OrdMap.find_emplace] at hfind
    split_ifs at hfind with hkey
    · subst hkey
      cases htaken : m.find key' with
      | none =>
        rw [htaken, Option.getD_none, Option.some.injEq] at hfind
        exact absurd hfind (hother y)
      | some taken =>
        rw [htaken, Option.getD_some] at hfind
        exact h.some key' y (htaken.trans hfind)
    · exact h.some key' y hfind
  none key' hfind := by
    rw [OrdMap.find_emplace] at hfind
    split_ifs at hfind
    exact h.none key' hfind

end Part

/-- The three maps of a waiter are one map of what waits. -/
structure Held (w : PtsWaiter Update Updates) (m : OrdMap ℕ (Skipped Update Updates)) : Prop where
  queue : w.queue = m.mapValues fun _ s => s.queue
  update : Part .update w.updateQueue m
  updates : Part .updates w.updatesQueue m

lemma Held.congr {w w' : PtsWaiter Update Updates} {m : OrdMap ℕ (Skipped Update Updates)}
    (h : Held w m) (hqueue : w'.queue = w.queue) (hupdate : w'.updateQueue = w.updateQueue)
    (hupdates : w'.updatesQueue = w.updatesQueue) : Held w' m where
  queue := hqueue.trans h.queue
  update := hupdate ▸ h.update
  updates := hupdates ▸ h.updates

/-- A waiter between two calls: it has been initialised, asks for nothing and applies nothing, and waits
when something is in its queue. -/
structure Ready (w : PtsWaiter Update Updates) (m : OrdMap ℕ (Skipped Update Updates)) : Prop where
  requesting : w.requesting = false
  level : w.applySkippedLevel = 0
  inited : 0 < w.good
  good_le : w.good ≤ w.last
  held : Held w m
  waiting : m ≠ ∅ → w.waitingForSkipped = true

namespace PtsWaiter

variable {w : PtsWaiter Update Updates} {m : OrdMap ℕ (Skipped Update Updates)}

lemma held_clear (w : PtsWaiter Update Updates) : Held w.clearSkippedUpdates ∅ :=
  ⟨rfl, ⟨fun _ _ h => (nomatch h), fun _ _ => rfl⟩, ⟨fun _ _ h => (nomatch h), fun _ _ => rfl⟩⟩

/-- The queue is empty when nothing waits. -/
lemma isEmpty_queue (h : Held w m) : w.queue.entries.isEmpty = true ↔ m = ∅ := by
  rw [h.queue, List.isEmpty_iff]
  constructor
  · intro hempty
    apply OrdMap.ext_find
    intro key
    unfold OrdMap.find
    rw [List.map_eq_nil_iff.mp hempty]
    rfl
  · rintro rfl
    rfl

/-- What waits is called for in the order of the keys. -/
lemma skippedCalls_eq [Inhabited Update] [Inhabited Updates] (h : Held w m) :
    w.skippedCalls = m.values.map Skipped.call := by
  unfold skippedCalls OrdMap.values
  rw [h.queue, OrdMap.mapValues, List.map_map, List.map_map]
  apply List.map_congr_left
  rintro ⟨key, s⟩ hmem
  have hfind := OrdMap.find_eq_some_iff.mpr hmem
  cases s with
  | update u => simp only [Function.comp_apply, Skipped.queue, Skipped.call, h.update.some key u hfind,
      Option.getD_some]
  | updates us => simp only [Function.comp_apply, Skipped.queue, Skipped.call,
      h.updates.some key us hfind, Option.getD_some]

/-- What is saved waits under its key, unless the key is taken. -/
lemma held_save (h : Held w m) (pts : ℤ) (s : Skipped Update Updates) :
    Held (w.save pts s) (m.emplace (w.nextKey pts) s) := by
  have hqueue : w.queue.emplace (w.nextKey pts) s.queue =
      (m.emplace (w.nextKey pts) s).mapValues fun _ s => s.queue := by
    apply OrdMap.ext_find
    intro key
    rw [OrdMap.find_mapValues, OrdMap.find_emplace, OrdMap.find_emplace, h.queue,
      OrdMap.find_mapValues, OrdMap.find_mapValues]
    split_ifs with hkey
    · cases m.find (w.nextKey pts) <;> rfl
    · rfl
  cases s with
  | update u =>
    exact ⟨hqueue, h.update.emplace (fun _ _ => Skipped.update.inj) _ u,
      h.updates.emplace_other (fun _ heq => by cases heq) _⟩
  | updates us =>
    exact ⟨hqueue, h.update.emplace_other (fun _ heq => by cases heq) _,
      h.updates.emplace (fun _ _ => Skipped.updates.inj) _ us⟩

/-- The calls of a timer apply nothing. -/
lemma setWaitingForSkipped_eq (w : PtsWaiter Update Updates) (ms : ℤ) : ∃ calls, applied calls = [] ∧
    w.setWaitingForSkipped ms = { w with
      owner := w.owner ++ calls
      waitingForSkipped := decide (0 ≤ ms) } := by
  unfold setWaitingForSkipped checkForWaiting
  by_cases hms : 0 ≤ ms
  · rw [if_pos hms, decide_eq_true hms]
    exact ⟨[.ptsWaiterStartTimerFor ms], rfl, rfl⟩
  · rw [if_neg hms, decide_eq_false hms]
    split_ifs
    · exact ⟨[.ptsWaiterStartTimerFor (-1)], rfl, rfl⟩
    · exact ⟨[], rfl, by rw [List.append_nil]⟩

/-- **The check of the sum.** What the waiter has got comes to the largest pts, or it waits. -/
lemma check_eq (hinited : 0 < w.good) (pts count : ℤ) : ∃ calls, applied calls = [] ∧
    w.check pts count = (decide (max w.last pts = w.count + count ∨ count = 0), { w with
      owner := w.owner ++ calls
      last := max w.last pts
      count := w.count + count
      good := if max w.last pts = w.count + count then max w.last pts else w.good
      waitingForSkipped := if max w.last pts = w.count + count then w.waitingForSkipped else true }) := by
  have hnot : (!w.inited) = false := by
    simpa [inited] using hinited
  unfold check
  rw [hnot, if_neg Bool.false_ne_true]
  dsimp only
  by_cases hclosed : max w.last pts = w.count + count
  · refine ⟨[], rfl, ?_⟩
    rw [if_pos hclosed, if_pos hclosed, if_pos hclosed, decide_eq_true (Or.inl hclosed),
      List.append_nil]
  · rw [if_neg hclosed, if_neg hclosed, if_neg hclosed]
    have hready : decide (max w.last pts = w.count + count ∨ count = 0) = decide (count = 0) := by
      simp [hclosed]
    rw [hready]
    split_ifs
    · obtain ⟨calls, hcalls, heq⟩ := setWaitingForSkipped_eq { w with
        last := max w.last pts
        count := w.count + count } 1
      exact ⟨calls, hcalls, by rw [heq]; rfl⟩
    · obtain ⟨calls, hcalls, heq⟩ := setWaitingForSkipped_eq { w with
        last := max w.last pts
        count := w.count + count } kWaitForSkippedTimeout
      exact ⟨calls, hcalls, by rw [heq]; rfl⟩

/-- **All that waits is applied**, and nothing waits then. -/
lemma applySkippedUpdates_spec [Inhabited Update] [Inhabited Updates] (h : Ready w m) :
    Ready w.applySkippedUpdates ∅ ∧
      applied w.applySkippedUpdates.owner = applied w.owner ++ m.values ∧
      w.applySkippedUpdates.good = w.good ∧ w.applySkippedUpdates.last = w.last ∧
      w.applySkippedUpdates.count = w.count := by
  have hnone : m = ∅ → Ready w ∅ ∧ applied w.owner = applied w.owner ++ m.values := by
    rintro rfl
    exact ⟨h, (List.append_nil _).symm⟩
  unfold applySkippedUpdates
  by_cases hwaiting : w.waitingForSkipped = true
  · rw [hwaiting, Bool.not_true, if_neg Bool.false_ne_true]
    obtain ⟨calls, hcalls, heq⟩ := setWaitingForSkipped_eq w (-1)
    rw [heq]
    dsimp only
    split_ifs with hempty
    · have hm := (isEmpty_queue h.held).mp hempty
      obtain ⟨hready, happlied⟩ := hnone hm
      refine ⟨⟨h.requesting, h.level, h.inited, h.good_le, hready.held.congr rfl rfl rfl,
        fun hne => absurd rfl hne⟩, ?_, rfl, rfl, rfl⟩
      rw [applied_append, hcalls, List.append_nil]
      exact happlied
    · refine ⟨⟨h.requesting, rfl, h.inited, h.good_le, held_clear _, fun hne => absurd rfl hne⟩,
        ?_, rfl, rfl, rfl⟩
      change applied (w.owner ++ calls ++ skippedCalls _) = _
      have hskipped := skippedCalls_eq h.held
      unfold skippedCalls at hskipped ⊢
      rw [applied_append, applied_append, hcalls, List.append_nil, hskipped, applied_map_call]
  · have hm : m = ∅ := by
      by_contra hne
      exact hwaiting (h.waiting hne)
    obtain ⟨hready, happlied⟩ := hnone hm
    rw [Bool.not_eq_true] at hwaiting
    rw [hwaiting, Bool.not_false, if_pos rfl]
    exact ⟨hready, happlied, rfl, rfl, rfl⟩

lemma save_eq (w : PtsWaiter Update Updates) (pts : ℤ) (s : Skipped Update Updates) :
    (w.save pts s).owner = w.owner ∧ (w.save pts s).good = w.good ∧ (w.save pts s).last = w.last ∧
      (w.save pts s).count = w.count ∧ (w.save pts s).requesting = w.requesting ∧
      (w.save pts s).applySkippedLevel = w.applySkippedLevel ∧
      (w.save pts s).waitingForSkipped = w.waitingForSkipped := by
  cases s <;> exact ⟨rfl, rfl, rfl, rfl, rfl, rfl, rfl⟩

lemma ready_save (h : Ready w m) (hwaiting : w.waitingForSkipped = true) (pts : ℤ)
    (s : Skipped Update Updates) : Ready (w.save pts s) (m.emplace (w.nextKey pts) s) := by
  obtain ⟨-, hgood, hlast, -, hrequesting, hlevel, hwait⟩ := save_eq w pts s
  exact ⟨hrequesting.trans h.requesting, hlevel.trans h.level, hgood ▸ h.inited,
    hgood ▸ hlast ▸ h.good_le, held_save h.held pts s, fun _ => hwait.trans hwaiting⟩

/-- What waits after a call, unless the call applies it. -/
def kept (w : PtsWaiter Update Updates) (m : OrdMap ℕ (Skipped Update Updates)) (pts : ℤ) :
    Option (Skipped Update Updates) → OrdMap ℕ (Skipped Update Updates)
  | none => m
  | some s => m.emplace (w.nextKey pts) s

@[simp] lemma kept_some (w : PtsWaiter Update Updates) (m : OrdMap ℕ (Skipped Update Updates)) (pts : ℤ)
    (s : Skipped Update Updates) : w.kept m pts (some s) = m.emplace (w.nextKey pts) s := rfl

/-- What a call has done to the sum, to what waits and to what is applied. -/
structure Taken (w : PtsWaiter Update Updates) (m : OrdMap ℕ (Skipped Update Updates)) (pts count : ℤ)
    (body : Option (Skipped Update Updates)) (w' : PtsWaiter Update Updates)
    (m' : OrdMap ℕ (Skipped Update Updates)) : Prop where
  ready : Ready w' m'
  last : w'.last = max w.last pts
  sum : w'.count = w.count + count
  good : w'.good = if max w.last pts = w.count + count then max w.last pts else w.good
  passes : (max w.last pts = w.count + count ∨ count = 0) →
    m' = ∅ ∧ applied w'.owner = applied w.owner ++ (w.kept m pts body).values
  waits : ¬(max w.last pts = w.count + count ∨ count = 0) →
    m' = w.kept m pts body ∧ applied w'.owner = applied w.owner

/-- The check leaves the waiter as it is but for the sum. -/
lemma ready_check (h : Ready w m) (pts count : ℤ) : Ready (w.check pts count).2 m ∧
    (w.check pts count).2.last = max w.last pts ∧ (w.check pts count).2.count = w.count + count ∧
    ((w.check pts count).2.good = if max w.last pts = w.count + count then max w.last pts else w.good) ∧
    applied (w.check pts count).2.owner = applied w.owner ∧
    (w.check pts count).2.skippedKey = w.skippedKey ∧
    (max w.last pts ≠ w.count + count → (w.check pts count).2.waitingForSkipped = true) := by
  obtain ⟨calls, hcalls, heq⟩ := check_eq h.inited pts count
  have hgood := h.good_le
  have hinited := h.inited
  rw [heq]
  refine ⟨⟨h.requesting, h.level, ?_, ?_, h.held.congr rfl rfl rfl, ?_⟩, rfl, rfl, rfl, ?_, rfl, ?_⟩
  · dsimp only
    split_ifs <;> omega
  · dsimp only
    split_ifs <;> omega
  · intro hne
    dsimp only
    split_ifs
    · exact h.waiting hne
    · rfl
  · rw [applied_append, hcalls, List.append_nil]
  · intro hopen
    dsimp only
    rw [if_neg hopen]

/-- What is not known to be applied is checked. -/
lemma updatedOr_eq (h : Ready w m) {pts count : ℤ} (hnew : ¬(pts ≤ w.good ∧ 0 < count))
    (saved : PtsWaiter Update Updates → PtsWaiter Update Updates) :
    w.updatedOr pts count saved =
      if max w.last pts = w.count + count ∨ count = 0 then (true, (w.check pts count).2)
      else (false, saved (w.check pts count).2) := by
  obtain ⟨calls, -, heq⟩ := check_eq h.inited pts count
  unfold updatedOr
  rw [h.requesting, h.level, if_neg (by decide), if_neg hnew, heq]
  simp only [decide_eq_true_eq]

/-- **A call of `updateAndApply`** for what is not known to be applied: it is applied with all that waits
when the sum comes to the largest pts or when the call has no count, and waits otherwise. -/
theorem take_spec [Inhabited Update] [Inhabited Updates] (h : Ready w m) {pts count : ℤ}
    (hnew : ¬(pts ≤ w.good ∧ 0 < count)) (body : Option (Skipped Update Updates)) :
    ∃ m', Taken w m pts count body (w.take pts count body).2 m' := by
  obtain ⟨hready, hlast, hsum, hgood, happlied, hkey, hopen⟩ := ready_check h pts count
  have hupdated := updatedOr_eq h hnew
  by_cases hpasses : max w.last pts = w.count + count ∨ count = 0
  · simp only [if_pos hpasses] at hupdated
    cases body with
    | none =>
      have htake : (w.take pts count none).2 = (w.check pts count).2.applySkippedUpdates := by
        simp only [take, updateAndApply, updated, hupdated, Bool.not_true, Bool.false_eq_true,
          if_false]
      obtain ⟨hnext, happly, hgood', hlast', hsum'⟩ := applySkippedUpdates_spec hready
      rw [htake]
      exact ⟨∅, hnext, hlast'.trans hlast, hsum'.trans hsum, hgood'.trans hgood,
        fun _ => ⟨rfl, by rw [happly, happlied]; rfl⟩, fun hnot => absurd hpasses hnot⟩
    | some s =>
      have htake : (w.take pts count (some s)).2 =
          (applyReady (true, (w.check pts count).2) pts s).2 := by
        cases s <;> simp only [take, updateAndApplyUpdate, updateAndApplyUpdates, updatedUpdate,
          updatedUpdates, hupdated]
      rw [htake]
      unfold applyReady
      rw [Bool.not_true, if_neg Bool.false_ne_true]
      dsimp only
      split_ifs with hdirect
      · -- nothing waits, so the update is applied at once
        have hm : m = ∅ := by
          rw [Bool.or_eq_true, Bool.not_eq_true', isEmpty_queue hready.held] at hdirect
          by_contra hne
          rcases hdirect with hdirect | hdirect
          · rw [hready.waiting hne] at hdirect
            cases hdirect
          · exact hne hdirect
        subst hm
        exact ⟨∅, ⟨hready.requesting, hready.level, hready.inited, hready.good_le,
          hready.held.congr rfl rfl rfl, hready.waiting⟩, hlast, hsum, hgood,
          fun _ => ⟨rfl, by
            change applied ((w.check pts count).2.owner ++ [s.call]) = _
            rw [applied_append, applied_call, happlied]
            rfl⟩, fun hnot => absurd hpasses hnot⟩
      · have hwaiting : (w.check pts count).2.waitingForSkipped = true := by
          rw [Bool.or_eq_true, not_or, Bool.not_eq_true', Bool.not_eq_false] at hdirect
          exact hdirect.1
        obtain ⟨howner, hgood', hlast', hsum', -⟩ := save_eq (w.check pts count).2 pts s
        obtain ⟨hnext, happly, hgood'', hlast'', hsum''⟩ :=
          applySkippedUpdates_spec (ready_save hready hwaiting pts s)
        refine ⟨∅, hnext, (hlast''.trans hlast').trans hlast, (hsum''.trans hsum').trans hsum,
          (hgood''.trans hgood').trans hgood, fun _ => ⟨rfl, ?_⟩, fun hnot => absurd hpasses hnot⟩
        rw [happly, howner, happlied]
        unfold kept nextKey
        rw [hkey]
  · simp only [if_neg hpasses] at hupdated
    have hwaiting := hopen fun hclosed => hpasses (Or.inl hclosed)
    cases body with
    | none =>
      have htake : (w.take pts count none).2 = (w.check pts count).2 := by
        simp only [take, updateAndApply, updated, hupdated, Bool.not_false, if_true]
      rw [htake]
      exact ⟨m, hready, hlast, hsum, hgood, fun hnot => absurd hnot hpasses,
        fun _ => ⟨rfl, happlied⟩⟩
    | some s =>
      have htake : (w.take pts count (some s)).2 = (w.check pts count).2.save pts s := by
        cases s <;> simp only [take, updateAndApplyUpdate, updateAndApplyUpdates, updatedUpdate,
          updatedUpdates, hupdated, applyReady, Bool.not_false, if_true]
      obtain ⟨howner, hgood', hlast', hsum', -⟩ := save_eq (w.check pts count).2 pts s
      rw [htake]
      refine ⟨_, ready_save hready hwaiting pts s, hlast'.trans hlast, hsum'.trans hsum,
        hgood'.trans hgood, fun hnot => absurd hnot hpasses, fun _ => ⟨?_, ?_⟩⟩
      · unfold kept nextKey
        rw [hkey]
      · rw [howner, happlied]

end PtsWaiter

end Spec

end Updates
