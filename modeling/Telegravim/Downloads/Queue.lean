import Mathlib.Data.Int.Order.Basic
import Mathlib.Data.List.Nodup
import Mathlib.Order.Basic

set_option autoImplicit false

/-!
# The queue of downloads

The tasks of a datacenter wait in the order of their priorities, the highest first. A task that is asked for again is
moved within the queue by a rotation, and after some time the tasks of the usual priority get the lowest one.

## Main definitions

* `Downloads.rotate` — a part of a list is moved before another one.
* `Downloads.Queue.enqueue`, `Downloads.Queue.remove`, `Downloads.Queue.resetGeneration`, `Downloads.Queue.nextTask` — the
  operations of the queue, as the code moves its entries.
* `Downloads.Queue.Ordered` — what holds of every queue.
* `Downloads.Queue.Cut` — a queue in order, cut at a priority.

## Main results

* `Downloads.Queue.enqueue_eq` — where a task is put.
* `Downloads.Queue.keeps_priority_order` — the order through every run.
-/

namespace Downloads

/-- `Queue::Enqueued`. -/
structure Enqueued where
  /-- The task. -/
  task : ℕ
  /-- Its priority. -/
  priority : ℤ
  deriving DecidableEq, Repr

/-- `std::rotate`: what is between the middle and the last is moved before what is between the first and the middle. -/
def rotate {α : Type} (l : List α) (first middle last : ℕ) : List α :=
  l.take first ++ (l.drop middle).take (last - middle) ++ (l.drop first).take (middle - first) ++ l.drop last

lemma rotate_append {α : Type} (a b c d : List α) :
    rotate (a ++ b ++ c ++ d) a.length (a.length + b.length) (a.length + b.length + c.length) = a ++ c ++ b ++ d := by
  have hab : a.length + b.length = (a ++ b).length := List.length_append.symm
  have habc : (a ++ b).length + c.length = (a ++ b ++ c).length := List.length_append.symm
  have hfirst : (a ++ b ++ c ++ d).take a.length = a := by
    rw [List.append_assoc, List.append_assoc, List.take_left]
  have hsecond : ((a ++ b ++ c ++ d).drop (a ++ b).length).take c.length = c := by
    rw [List.append_assoc, List.drop_left, List.take_left]
  have hthird : ((a ++ b ++ c ++ d).drop a.length).take b.length = b := by
    rw [List.append_assoc, List.append_assoc, List.drop_left, List.take_left]
  rw [rotate, Nat.add_sub_cancel_left, Nat.add_sub_cancel_left, hab, habc, List.drop_left, hfirst, hsecond, hthird]

namespace Queue

/-! ### The operations -/

/-- An entry at a position is moved to where another position is. -/
def place (tasks : List Enqueued) (j i : ℕ) : List Enqueued :=
  if j < i then rotate tasks j i (i + 1)
  else if j > i + 1 then rotate tasks i (i + 1) j
  else tasks

def enqueue (tasks : List Enqueued) (task : ℕ) (priority : ℤ) : List Enqueued :=
  let position := tasks.findIdx fun e => decide (e.priority ≤ priority)
  let now := tasks.findIdx fun e => decide (e.task = task)
  if now ≠ tasks.length then place (tasks.modify now fun e => { e with priority }) position now
  else place (tasks ++ [⟨task, priority⟩]) position tasks.length

def remove (tasks : List Enqueued) (task : ℕ) : List Enqueued := tasks.filter fun e => decide (e.task ≠ task)

/-- The loop of `resetGeneration`. There is no outcome where the assertion fails. -/
def resetFrom : List Enqueued → Option (List Enqueued)
  | [] => some []
  | e :: rest =>
    if e.priority ≠ 0 then (if e.priority = -1 then some (e :: rest) else none)
    else (resetFrom rest).map ({ e with priority := -1 } :: ·)

def resetGeneration (tasks : List Enqueued) : Option (List Enqueued) :=
  let start := tasks.findIdx fun e => decide (e.priority = 0)
  (resetFrom (tasks.drop start)).map (tasks.take start ++ ·)

/-- The first task that is ready, of all or of those with the highest priority. -/
def nextTask (readyToRequest : ℕ → Bool) (tasks : List Enqueued) (onlyHighestPriority : Bool) : Option ℕ :=
  match tasks with
  | [] => none
  | front :: _ =>
    let till :=
      if onlyHighestPriority && decide (0 < front.priority) then
        tasks.findIdx fun e => decide (e.priority ≠ front.priority)
      else tasks.length
    ((tasks.take till).find? fun e => readyToRequest e.task).map Enqueued.task

/-! ### The order -/

/-- **A queue in order**: each task is in it once, and no priority is below a later one. -/
structure Ordered (tasks : List Enqueued) : Prop where
  once : (tasks.map Enqueued.task).Nodup
  sorted : tasks.Pairwise fun e e' => e'.priority ≤ e.priority
  least : ∀ e ∈ tasks, -1 ≤ e.priority

lemma place_forward (a b d : List Enqueued) (x : Enqueued) :
    place (a ++ x :: b ++ d) (a.length + 1 + b.length) a.length = a ++ b ++ x :: d := by
  unfold place
  rw [if_neg (by omega)]
  cases b with
  | nil => rw [if_neg (by simp), List.append_nil, List.append_assoc, List.singleton_append]
  | cons y b =>
    have hrotate := rotate_append a [x] (y :: b) d
    rw [List.length_singleton] at hrotate
    rw [if_pos (by simp)]
    simp only [List.append_assoc, List.cons_append, List.nil_append] at hrotate ⊢
    exact hrotate

lemma place_back (a b d : List Enqueued) (x : Enqueued) :
    place (a ++ b ++ x :: d) a.length (a.length + b.length) = a ++ x :: b ++ d := by
  unfold place
  cases b with
  | nil => rw [if_neg (by simp), if_neg (by simp), List.append_nil, List.append_assoc, List.singleton_append]
  | cons y b =>
    have hrotate := rotate_append a (y :: b) [x] d
    rw [List.length_singleton] at hrotate
    rw [if_pos (by simp)]
    simp only [List.append_assoc, List.cons_append, List.nil_append] at hrotate ⊢
    exact hrotate

lemma findIdx_append_cons {a b : List Enqueued} {x : Enqueued} {p : Enqueued → Bool} (ha : ∀ e ∈ a, p e = false)
    (hx : p x = true) : (a ++ x :: b).findIdx p = a.length := by
  induction a with
  | nil => rw [List.nil_append, List.findIdx_cons, hx]; rfl
  | cons e a ih =>
    obtain ⟨he, ha⟩ := List.forall_mem_cons.mp ha
    rw [List.cons_append, List.findIdx_cons, he, ih ha]
    rfl

lemma modify_append_cons (a b : List Enqueued) (x : Enqueued) (f : Enqueued → Enqueued) :
    (a ++ x :: b).modify a.length f = a ++ f x :: b := by
  induction a with
  | nil => rfl
  | cons e a ih => rw [List.cons_append, List.length_cons, List.modify_succ_cons, ih, List.cons_append]

/-- A queue in order is cut at a priority. -/
lemma split_of_sorted {tasks : List Enqueued} (h : tasks.Pairwise fun e e' => e'.priority ≤ e.priority) (priority : ℤ) :
    ∃ high low, tasks = high ++ low ∧ (∀ e ∈ high, priority < e.priority) ∧ (∀ e ∈ low, e.priority ≤ priority) ∧
      (tasks.findIdx fun e => decide (e.priority ≤ priority)) = high.length := by
  induction tasks with
  | nil => exact ⟨[], [], rfl, by simp, by simp, rfl⟩
  | cons e tasks ih =>
    obtain ⟨hfirst, hrest⟩ := List.pairwise_cons.mp h
    by_cases he : e.priority ≤ priority
    · refine ⟨[], e :: tasks, rfl, by simp, List.forall_mem_cons.mpr ⟨he, fun e' he' => (hfirst e' he').trans he⟩, ?_⟩
      rw [List.findIdx_cons, decide_eq_true he]
      rfl
    · obtain ⟨high, low, rfl, hhigh, hlow, hposition⟩ := ih hrest
      refine ⟨e :: high, low, rfl, List.forall_mem_cons.mpr ⟨not_le.mp he, hhigh⟩, hlow, ?_⟩
      rw [List.findIdx_cons, decide_eq_false he, hposition]
      rfl

lemma remove_eq_self {tasks : List Enqueued} {task : ℕ} (h : task ∉ tasks.map Enqueued.task) :
    remove tasks task = tasks := by
  refine List.filter_eq_self.mpr fun e he => decide_eq_true fun htask => h ?_
  exact htask ▸ List.mem_map_of_mem he

/-- The entry of a task is removed, and nothing else. -/
lemma remove_append_cons {a b : List Enqueued} {x : Enqueued} (h : ((a ++ x :: b).map Enqueued.task).Nodup) :
    remove (a ++ x :: b) x.task = a ++ b := by
  rw [List.map_append, List.map_cons] at h
  obtain ⟨hnot, hothers⟩ := List.nodup_middle.mp h |> List.nodup_cons.mp
  rw [List.mem_append, not_or] at hnot
  have ha := remove_eq_self hnot.1
  have hb := remove_eq_self hnot.2
  unfold remove at ha hb ⊢
  rw [List.filter_append, List.filter_cons_of_neg (by simp), ha, hb]

lemma findIdx_task {a b : List Enqueued} {x : Enqueued} (h : ((a ++ x :: b).map Enqueued.task).Nodup) :
    ((a ++ x :: b).findIdx fun e => decide (e.task = x.task)) = a.length := by
  rw [List.map_append, List.map_cons] at h
  obtain ⟨hnot, -⟩ := List.nodup_cons.mp (List.nodup_middle.mp h)
  rw [List.mem_append, not_or] at hnot
  refine findIdx_append_cons (fun e he => decide_eq_false fun htask => hnot.1 ?_) (decide_eq_true rfl)
  exact htask ▸ List.mem_map_of_mem he

lemma enqueue_absent {tasks : List Enqueued} {task : ℕ} (h : task ∉ tasks.map Enqueued.task) (priority : ℤ) :
    enqueue tasks task priority = place (tasks ++ [⟨task, priority⟩])
      (tasks.findIdx fun e => decide (e.priority ≤ priority)) tasks.length := by
  have hnow : (tasks.findIdx fun e => decide (e.task = task)) = tasks.length := by
    refine List.findIdx_eq_length.mpr fun e he => decide_eq_false fun htask => h ?_
    exact htask ▸ List.mem_map_of_mem he
  unfold enqueue
  rw [hnow, if_neg (not_not.mpr rfl)]

lemma enqueue_present {a b : List Enqueued} {x : Enqueued} (h : ((a ++ x :: b).map Enqueued.task).Nodup)
    (priority : ℤ) :
    enqueue (a ++ x :: b) x.task priority = place (a ++ ⟨x.task, priority⟩ :: b)
      ((a ++ x :: b).findIdx fun e => decide (e.priority ≤ priority)) a.length := by
  unfold enqueue
  dsimp only
  rw [findIdx_task h, modify_append_cons, if_pos (by rw [List.length_append, List.length_cons]; omega)]

/-- A queue cut at a priority, with the place of a task: it is not there, or has a higher priority, or has not. -/
inductive Cut (task : ℕ) (priority : ℤ) : List Enqueued → Prop
  | absent (high low : List Enqueued) (hhigh : ∀ e ∈ high, priority < e.priority)
    (hlow : ∀ e ∈ low, e.priority ≤ priority)
      (hposition : ((high ++ low).findIdx fun e => decide (e.priority ≤ priority)) = high.length)
      (habsent : task ∉ (high ++ low).map Enqueued.task) : Cut task priority (high ++ low)
  | above (a b low : List Enqueued) (x : Enqueued) (hx : x.task = task) (hhigh : ∀ e ∈ a ++ b, priority < e.priority)
      (hlow : ∀ e ∈ low, e.priority ≤ priority)
      (hposition : ((a ++ x :: (b ++ low)).findIdx fun e => decide (e.priority ≤ priority)) = a.length + 1 + b.length) :
      Cut task priority (a ++ x :: (b ++ low))
  | below (high a b : List Enqueued) (x : Enqueued) (hx : x.task = task) (hhigh : ∀ e ∈ high, priority < e.priority)
      (hlow : ∀ e ∈ a ++ b, e.priority ≤ priority)
      (hposition : ((high ++ a ++ x :: b).findIdx fun e => decide (e.priority ≤ priority)) = high.length) :
      Cut task priority (high ++ a ++ x :: b)

lemma Ordered.cut {tasks : List Enqueued} (h : Ordered tasks) (task : ℕ) (priority : ℤ) : Cut task priority tasks := by
  have hless : ∀ {a b : List Enqueued} {x e : Enqueued}, e ∈ a ++ b → e ∈ a ++ x :: b := fun he => by
    rw [List.mem_append] at he
    rw [List.mem_append, List.mem_cons]
    tauto
  obtain ⟨high, low, rfl, hhigh, hlow, hposition⟩ := split_of_sorted h.sorted priority
  by_cases hmem : task ∈ (high ++ low).map Enqueued.task
  · obtain ⟨x, hx, htask⟩ := List.mem_map.mp hmem
    rcases List.mem_append.mp hx with hx | hx
    · obtain ⟨a, b, rfl⟩ := List.append_of_mem hx
      rw [List.append_assoc, List.cons_append, List.length_append, List.length_cons] at hposition
      rw [List.append_assoc, List.cons_append]
      exact .above a b low x htask (fun e he => hhigh e (hless he)) hlow (by omega)
    · obtain ⟨a, b, rfl⟩ := List.append_of_mem hx
      rw [← List.append_assoc] at hposition ⊢
      exact .below high a b x htask hhigh (fun e he => hlow e (hless he)) hposition
  · exact .absent high low hhigh hlow hposition hmem

/-- **Where a task is put**: behind the tasks of higher priority and before all others, which stay as they are. -/
theorem enqueue_eq {tasks : List Enqueued} (h : Ordered tasks) (task : ℕ) (priority : ℤ) :
    ∃ before after, enqueue tasks task priority = before ++ ⟨task, priority⟩ :: after ∧
      before ++ after = remove tasks task ∧ (∀ e ∈ before, priority < e.priority) ∧
      ∀ e ∈ after, e.priority ≤ priority := by
  have honce := h.once
  cases h.cut task priority with
  | absent high low hhigh hlow hposition habsent =>
    refine ⟨high, low, ?_, (remove_eq_self habsent).symm, hhigh, hlow⟩
    have hplace := place_back high low [] ⟨task, priority⟩
    rw [List.append_nil] at hplace
    rw [enqueue_absent habsent, hposition, List.length_append, hplace]
  | above a b low x hx hhigh hlow hposition =>
    -- The task is moved back, since its priority was higher.
    subst hx
    refine ⟨a ++ b, low, ?_, ?_, hhigh, hlow⟩
    · rw [enqueue_present honce, hposition, ← List.cons_append, ← List.append_assoc, place_forward]
    · rw [List.append_assoc, remove_append_cons honce]
  | below high a b x hx hhigh hlow hposition =>
    -- The task is moved to the front of those of no higher priority.
    subst hx
    refine ⟨high, a ++ b, ?_, ?_, hhigh, hlow⟩
    · rw [enqueue_present honce, hposition, List.length_append, place_back, List.append_assoc, List.cons_append]
    · rw [← List.append_assoc, remove_append_cons honce]

/-! ### What each operation keeps -/

lemma Ordered.remove {tasks : List Enqueued} (h : Ordered tasks) (task : ℕ) : Ordered (remove tasks task) where
  once := h.once.sublist (List.filter_sublist.map _)
  sorted := h.sorted.sublist List.filter_sublist
  least e he := h.least e (List.mem_of_mem_filter he)

lemma notMem_remove (tasks : List Enqueued) (task : ℕ) : task ∉ (Queue.remove tasks task).map Enqueued.task := by
  intro hmem
  obtain ⟨e, he, htask⟩ := List.mem_map.mp hmem
  unfold Queue.remove at he
  exact of_decide_eq_true (List.mem_filter.mp he).2 htask

theorem Ordered.enqueue {tasks : List Enqueued} (h : Ordered tasks) (task : ℕ) {priority : ℤ}
    (hpriority : 0 ≤ priority) :
    Ordered (enqueue tasks task priority) := by
  obtain ⟨before, after, heq, hothers, hbefore, hafter⟩ := enqueue_eq h task priority
  have hrest := h.remove task
  have hnot := notMem_remove tasks task
  rw [← hothers] at hrest hnot
  rw [heq]
  obtain ⟨hsortedBefore, hsortedAfter, hacross⟩ := List.pairwise_append.mp hrest.sorted
  refine ⟨?_, ?_, fun e he => ?_⟩
  · rw [List.map_append, List.map_cons]
    refine List.nodup_middle.mpr (List.nodup_cons.mpr ⟨?_, ?_⟩)
    · rwa [← List.map_append]
    · rw [← List.map_append]
      exact hrest.once
  · refine List.pairwise_append.mpr ⟨hsortedBefore, List.pairwise_cons.mpr ⟨hafter, hsortedAfter⟩, fun e he e' he' => ?_⟩
    rcases List.mem_cons.mp he' with rfl | he'
    · exact (hbefore e he).le
    · exact hacross e he e' he'
  · rcases List.mem_append.mp he with he | he
    · exact hrest.least e (List.mem_append_left _ he)
    · rcases List.mem_cons.mp he with rfl | he
      · exact le_trans (by omega) hpriority
      · exact hrest.least e (List.mem_append_right _ he)

/-- An entry of the usual priority gets the lowest. -/
def lower (e : Enqueued) : Enqueued := if e.priority = 0 then { e with priority := -1 } else e

lemma lower_of_ne {e : Enqueued} (h : e.priority ≠ 0) : lower e = e := if_neg h

lemma lower_of_eq {e : Enqueued} (h : e.priority = 0) : lower e = { e with priority := -1 } := if_pos h

@[simp] lemma task_lower (e : Enqueued) : (lower e).task = e.task := by
  unfold lower
  split_ifs <;> rfl

lemma priority_lower_le {e e' : Enqueued} (h : e'.priority ≤ e.priority) :
    (lower e').priority ≤ (lower e).priority := by
  unfold lower
  split_ifs with h0 h1 h1
  · exact le_rfl
  · show -1 ≤ e.priority
    omega
  · show e'.priority ≤ -1
    omega
  · exact h

/-- The loop lowers all of its entries, where none is above the usual priority. -/
lemma resetFrom_eq {tasks : List Enqueued} (hsorted : tasks.Pairwise fun e e' => e'.priority ≤ e.priority)
    (hleast : ∀ e ∈ tasks, -1 ≤ e.priority) (husual : ∀ e ∈ tasks, e.priority ≤ 0) :
    resetFrom tasks = some (tasks.map lower) := by
  induction tasks with
  | nil => rfl
  | cons e tasks ih =>
    obtain ⟨hfirst, hrest⟩ := List.pairwise_cons.mp hsorted
    obtain ⟨hleastFirst, hleastRest⟩ := List.forall_mem_cons.mp hleast
    obtain ⟨husualFirst, husualRest⟩ := List.forall_mem_cons.mp husual
    by_cases he : e.priority = 0
    · rw [resetFrom, if_neg (not_not.mpr he), ih hrest hleastRest husualRest, List.map_cons, lower_of_eq he,
        Option.map_some]
    · have hlowest : e.priority = -1 := by omega
      have hsame : (e :: tasks).map lower = e :: tasks := by
        refine (List.map_congr_left fun e' he' => lower_of_ne ?_).trans (List.map_id _)
        rcases List.mem_cons.mp he' with rfl | he'
        · exact he
        · have := hfirst e' he'
          omega
      rw [resetFrom, if_pos he, if_pos hlowest, hsame]

/-- **The assertion never fails**: the tasks of the usual priority are followed by those of the lowest alone. -/
theorem resetGeneration_eq {tasks : List Enqueued} (hsorted : tasks.Pairwise fun e e' => e'.priority ≤ e.priority)
    (hleast : ∀ e ∈ tasks, -1 ≤ e.priority) : resetGeneration tasks = some (tasks.map lower) := by
  induction tasks with
  | nil => rfl
  | cons e tasks ih =>
    obtain ⟨hfirst, hrest⟩ := List.pairwise_cons.mp hsorted
    obtain ⟨-, hleastRest⟩ := List.forall_mem_cons.mp hleast
    by_cases he : e.priority = 0
    · have hloop := resetFrom_eq hsorted hleast (List.forall_mem_cons.mpr ⟨he.le, fun e' he' => he ▸ hfirst e' he'⟩)
      rw [resetGeneration, List.findIdx_cons, decide_eq_true he, cond_true, List.drop_zero, hloop]
      rfl
    · have hnext := ih hrest hleastRest
      rw [resetGeneration, Option.map_eq_some_iff] at hnext
      obtain ⟨lowered, hloop, htasks⟩ := hnext
      rw [resetGeneration, List.findIdx_cons, decide_eq_false he, cond_false, List.drop_succ_cons, hloop,
        Option.map_some,
        List.take_succ_cons, List.cons_append, htasks, List.map_cons, lower_of_ne he]

lemma Ordered.lowered {tasks : List Enqueued} (h : Ordered tasks) : Ordered (tasks.map lower) where
  once := by
    rw [List.map_map]
    exact (List.map_congr_left fun e _ => task_lower e) ▸ h.once
  sorted := by
    exact List.pairwise_map.mpr (h.sorted.imp priority_lower_le)
  least e he := by
    obtain ⟨e', he', rfl⟩ := List.mem_map.mp he
    have := h.least e' he'
    unfold lower
    split_ifs
    · exact le_rfl
    · exact this

/-- **The next task is ready and of the highest priority** of those that are, and there is one where any is. -/
theorem nextTask_eq {tasks : List Enqueued} (h : Ordered tasks) (readyToRequest : ℕ → Bool) :
    (∀ task, nextTask readyToRequest tasks false = some task → readyToRequest task = true ∧
      ∃ priority, ⟨task, priority⟩ ∈ tasks ∧ ∀ e ∈ tasks, readyToRequest e.task = true → e.priority ≤ priority) ∧
    ∀ e ∈ tasks, readyToRequest e.task = true → ∃ task, nextTask readyToRequest tasks false = some task := by
  have hnext : nextTask readyToRequest tasks false =
      (tasks.find? fun e => readyToRequest e.task).map Enqueued.task := by
    cases tasks with
    | nil => rfl
    | cons front tasks => exact congrArg (fun l => (List.find? _ l).map _) List.take_length
  rw [hnext]
  refine ⟨fun task htask => ?_, fun e he hready => ?_⟩
  · obtain ⟨x, hx, rfl⟩ := Option.map_eq_some_iff.mp htask
    obtain ⟨hready, before, after, rfl, hbefore⟩ := List.find?_eq_some_iff_append.mp hx
    refine ⟨hready, x.priority, List.mem_append_right _ List.mem_cons_self, fun e he heready => ?_⟩
    rcases List.mem_append.mp he with he | he
    · have := hbefore e he
      rw [heready] at this
      exact absurd this (by decide)
    · rcases List.mem_cons.mp he with rfl | he
      · exact le_rfl
      · exact (List.pairwise_cons.mp (List.pairwise_append.mp h.sorted).2.1).1 e he
  · have hsome : (tasks.find? fun e => readyToRequest e.task).isSome = true := List.find?_isSome.mpr ⟨e, he, hready⟩
    obtain ⟨x, hx⟩ := Option.isSome_iff_exists.mp hsome
    exact ⟨x.task, by rw [hx]; rfl⟩

/-! ### Runs -/

/-- What is done with the queue. A task is never asked for with a negative priority. -/
inductive Op where
  | enqueue (task : ℕ) (priority : ℤ) (nonneg : 0 ≤ priority)
  | remove (task : ℕ)
  | resetGeneration

/-- An operation. There is no outcome where the assertion fails. -/
def step (tasks : List Enqueued) : Op → Option (List Enqueued)
  | .enqueue task priority _ => some (Queue.enqueue tasks task priority)
  | .remove task => some (Queue.remove tasks task)
  | .resetGeneration => Queue.resetGeneration tasks

/-- A run of operations. -/
def run (tasks : List Enqueued) : List Op → Option (List Enqueued)
  | [] => some tasks
  | op :: ops => (step tasks op).bind fun tasks => run tasks ops

/-- An operation keeps a queue in order. -/
lemma Ordered.step {tasks : List Enqueued} (h : Ordered tasks) (op : Op) :
    ∃ tasks', Queue.step tasks op = some tasks' ∧ Ordered tasks' := by
  cases op with
  | enqueue task priority nonneg => exact ⟨_, rfl, h.enqueue task nonneg⟩
  | remove task => exact ⟨_, rfl, h.remove task⟩
  | resetGeneration => exact ⟨_, resetGeneration_eq h.sorted h.least, h.lowered⟩

lemma Ordered.run {tasks : List Enqueued} (h : Ordered tasks) (ops : List Op) :
    ∃ tasks', Queue.run tasks ops = some tasks' ∧ Ordered tasks' := by
  induction ops generalizing tasks with
  | nil => exact ⟨tasks, rfl, h⟩
  | cons op ops ih =>
    obtain ⟨tasks', hstep, h'⟩ := h.step op
    obtain ⟨tasks'', hrun, h''⟩ := ih h'
    exact ⟨tasks'', by rw [Queue.run, hstep, Option.bind_some, hrun], h''⟩

/-- **The queue keeps its priority order.** After every run no assertion has failed, each task is in the queue once, and
no priority is below a later one. A task that is put into the queue then stands behind the tasks of higher priority and
before all others, and the others stay in their order. A task that is removed leaves the others as they are, the
priorities can be lowered without a failure and without a task moved, and the next task is ready and of the highest
priority of those that are. -/
theorem keeps_priority_order (ops : List Op) :
    ∃ tasks, run [] ops = some tasks ∧
      (tasks.map Enqueued.task).Nodup ∧ (tasks.Pairwise fun e e' => e'.priority ≤ e.priority) ∧
      (∀ task priority, 0 ≤ priority → ∃ before after,
        enqueue tasks task priority = before ++ ⟨task, priority⟩ :: after ∧
        before ++ after = tasks.filter (fun e => decide (e.task ≠ task)) ∧
        (∀ e ∈ before, priority < e.priority) ∧ ∀ e ∈ after, e.priority ≤ priority) ∧
      (∀ task, remove tasks task = tasks.filter fun e => decide (e.task ≠ task)) ∧
      (∃ tasks', resetGeneration tasks = some tasks' ∧ tasks'.map Enqueued.task = tasks.map Enqueued.task) ∧
      ∀ readyToRequest : ℕ → Bool,
        (∀ task, nextTask readyToRequest tasks false = some task → readyToRequest task = true ∧
          ∃ priority, ⟨task, priority⟩ ∈ tasks ∧ ∀ e ∈ tasks, readyToRequest e.task = true → e.priority ≤ priority) ∧
        ∀ e ∈ tasks, readyToRequest e.task = true → ∃ task, nextTask readyToRequest tasks false = some task := by
  have hempty : Ordered [] := ⟨List.nodup_nil, List.Pairwise.nil, fun _ h => absurd h List.not_mem_nil⟩
  obtain ⟨tasks, hrun, h⟩ := hempty.run ops
  refine ⟨tasks, hrun, h.once, h.sorted, fun task priority _ => enqueue_eq h task priority, fun _ => rfl, ?_,
    nextTask_eq h⟩
  refine ⟨_, resetGeneration_eq h.sorted h.least, ?_⟩
  rw [List.map_map]
  exact List.map_congr_left fun e _ => task_lower e

end Queue

end Downloads
