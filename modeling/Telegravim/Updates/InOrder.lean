import Telegravim.Updates.PtsWaiter

set_option autoImplicit false

/-!
# Server updates are applied once and in order

A stream of updates whose pts are the running sums of their counts is delivered in any order. Each update
with a count is applied exactly once, and when all are delivered the waiter has come to the final pts.

An update without a count is never put in the queue: it is applied when it comes. When it comes while
something is missing, it takes along all that waits. But for that, updates with a count are applied in
the order of their pts, and none before the ones below it have been delivered.

## Main definitions

* `Updates.Reads` — the pts and the count of an update, and the overload that takes it.
* `Updates.deliverAll` — the deliveries of a stream.
* `Updates.InTime` — a delivery that does not release what waits too early.

## Main results

* `Updates.updates_in_order` — updates are applied once and in order.
* `Updates.released_early` — an update without a count that releases what waits too early.
-/

namespace Updates

open RunningSum

/-- How the waiter is called for an update: its pts and its count, and the queue of the overload that takes
it; no queue when the pts comes alone. -/
structure Reads (ι : Type) where
  pts : ι → ℤ
  count : ι → ℤ
  overload : ι → Option PtsSkippedQueue

section Run

variable {ι : Type}

/-- What is passed to the waiter with the pts. -/
def Reads.body (r : Reads ι) (u : ι) : Option (Skipped ι ι) :=
  match r.overload u with
  | none => none
  | some .skippedUpdate => some (.update u)
  | some .skippedUpdates => some (.updates u)

/-- The update in a queue. -/
def Skipped.item : Skipped ι ι → ι
  | update u => u
  | updates u => u

/-- The delivery of an update. -/
def deliver [Inhabited ι] (r : Reads ι) (w : PtsWaiter ι ι) (u : ι) : PtsWaiter ι ι :=
  (w.take (r.pts u) (r.count u) (r.body u)).2

/-- The deliveries of updates, one after the other. -/
def deliverAll [Inhabited ι] (r : Reads ι) (w : PtsWaiter ι ι) (order : List ι) : PtsWaiter ι ι :=
  order.foldl (deliver r) w

/-- The updates that have been applied, in order. -/
def appliedItems (w : PtsWaiter ι ι) : List ι := (applied w.owner).map Skipped.item

/-- The updates that wait, in the order in which they would be applied. -/
def waitingItems [Inhabited ι] (w : PtsWaiter ι ι) : List ι :=
  (applied w.skippedCalls).map Skipped.item

/-- An update that counts. -/
def Reads.counts (r : Reads ι) (u : ι) : Bool := decide (0 < r.count u)

/-- A delivery does not release what waits too early: an update without a count that leaves the sum behind
the largest pts finds nothing waiting that is above something missing. -/
def InTime [Inhabited ι] (r : Reads ι) (w : PtsWaiter ι ι) (u : ι) (after : List ι) : Prop :=
  r.count u = 0 → max w.last (r.pts u) ≠ w.count →
    ∀ v ∈ waitingItems w, ∀ x ∈ after, 0 < r.count x → r.pts v ≤ r.pts x

lemma item_body {r : Reads ι} {u : ι} {s : Skipped ι ι} (h : r.body u = some s) : s.item = u := by
  unfold Reads.body at h
  split at h <;> cases h <;> rfl

lemma body_isSome {r : Reads ι} {u : ι} : (r.body u).isSome = (r.overload u).isSome := by
  unfold Reads.body
  split <;> simp_all

/-! ### What a delivery keeps -/

/-- A waiter that has got the first part of a numbered stream, in whatever order. -/
structure Received (r : Reads ι) (p0 : ℤ) (w : PtsWaiter ι ι) (m : OrdMap ℕ (Skipped ι ι))
    (before after : List ι) : Prop where
  ready : Ready w m
  last : w.last = top r.pts p0 before
  sum : w.count = p0 + total r.count before
  /-- What is missing is not taken for applied. -/
  good : ∀ u ∈ after, 0 < r.count u → w.good < r.pts u
  /-- Nothing waits when nothing is missing. -/
  closed : w.last = w.count → m = ∅ ∧ w.good = w.last
  /-- What waits counts, and its key has its pts. -/
  waits : ∀ key s, m.find key = some s →
    0 < r.count s.item ∧ key / 2 ^ 32 = (r.pts s.item).toNat
  /-- What counts has been applied or waits, once. -/
  once : (((applied w.owner ++ m.values).map Skipped.item).filter r.counts).Perm
    (before.filter fun u => r.counts u && (r.overload u).isSome)

/-- A stream of updates with a pts of 32 bits, in the order in which it is delivered. -/
structure Stream (r : Reads ι) (p0 : ℤ) (stream order : List ι) : Prop where
  pos : 0 < p0
  numbered : Numbered r.pts r.count p0 stream
  int32 : ∀ u ∈ stream, r.pts u < 2 ^ 31
  perm : order.Perm stream

section Step

variable {r : Reads ι} {p0 : ℤ} {w : PtsWaiter ι ι} {m : OrdMap ℕ (Skipped ι ι)}
  {stream before after : List ι} {u : ι}

lemma Stream.pts_nonneg {order : List ι} (h : Stream r p0 stream order) (hu : u ∈ order) :
    0 ≤ r.pts u ∧ r.pts u < 2 ^ 31 := by
  have hmem := h.perm.subset hu
  have hle := h.numbered.start_le u hmem
  have hcount := h.numbered.count_nonneg u hmem
  have hpos := h.pos
  exact ⟨by omega, h.int32 u hmem⟩

/-- What waits has been delivered. -/
lemma Received.mem_before (h : Received r p0 w m before after) {s : Skipped ι ι} (hs : s ∈ m.values) :
    0 < r.count s.item ∧ s.item ∈ before := by
  obtain ⟨key, hfind⟩ := OrdMap.mem_values_iff.mp hs
  have hcount := (h.waits key s hfind).1
  refine ⟨hcount, List.mem_of_mem_filter (h.once.subset (List.mem_filter.mpr ⟨?_, ?_⟩))⟩
  · exact List.mem_map_of_mem (List.mem_append_right _ hs)
  · exact decide_eq_true hcount

/-- The key of a pts has the pts in its high bits. -/
lemma nextKey_div (w : PtsWaiter ι ι) {pts : ℤ} (hnonneg : 0 ≤ pts) (hlt : pts < 2 ^ 31) :
    w.nextKey pts / 2 ^ 32 = pts.toNat := by
  unfold PtsWaiter.nextKey
  omega

/-- An update that counts has a key of its own. -/
lemma find_nextKey (hstream : Stream r p0 stream (before ++ u :: after))
    (h : Received r p0 w m before (u :: after)) (hcount : 0 < r.count u) :
    m.find (w.nextKey (r.pts u)) = none := by
  cases hfind : m.find (w.nextKey (r.pts u)) with
  | none => rfl
  | some s =>
    obtain ⟨hpos, hkey⟩ := h.waits _ s hfind
    obtain ⟨-, hmem⟩ := h.mem_before (OrdMap.mem_values_iff.mpr ⟨_, hfind⟩)
    obtain ⟨hnonneg, hlt⟩ := hstream.pts_nonneg (u := u) (by simp)
    obtain ⟨hnonneg', -⟩ := hstream.pts_nonneg (List.mem_append_left _ hmem)
    have hne := (List.pairwise_append.mp (hstream.numbered.pairwise_ne_of_perm hstream.perm)).2.2
      s.item hmem u List.mem_cons_self hpos hcount
    rw [nextKey_div w hnonneg hlt] at hkey
    omega

/-- What waits with the update that is delivered, as far as it counts. -/
lemma kept_filter (hstream : Stream r p0 stream (before ++ u :: after))
    (h : Received r p0 w m before (u :: after)) :
    (((w.kept m (r.pts u) (r.body u)).values.map Skipped.item).filter r.counts).Perm
      ((m.values.map Skipped.item).filter r.counts ++
        [u].filter fun v => r.counts v && (r.overload v).isSome) := by
  rw [List.filter_singleton, ← body_isSome]
  cases hbody : r.body u with
  | none =>
    rw [Option.isSome_none, Bool.and_false, cond_false, List.append_nil]
    exact List.Perm.refl _
  | some s =>
    have hitem := item_body hbody
    rw [Option.isSome_some, Bool.and_true]
    have hinsert : m.find (w.nextKey (r.pts u)) = none →
        (((w.kept m (r.pts u) (some s)).values.map Skipped.item).filter r.counts).Perm
          ((u :: m.values.map Skipped.item).filter r.counts) := by
      intro hfresh
      rw [PtsWaiter.kept_some, OrdMap.emplace_of_find_eq_none hfresh]
      have hperm := ((OrdMap.values_insert_perm hfresh s).map Skipped.item).filter r.counts
      rw [List.map_cons, hitem] at hperm
      exact hperm
    by_cases hcount : 0 < r.count u
    · have hcounts : r.counts u = true := decide_eq_true hcount
      refine (hinsert (find_nextKey hstream h hcount)).trans ?_
      rw [List.filter_cons_of_pos hcounts, hcounts]
      exact List.perm_append_singleton _ _ |>.symm
    · have hcounts : r.counts u = false := decide_eq_false hcount
      rw [hcounts, cond_false, List.append_nil]
      by_cases hfresh : m.find (w.nextKey (r.pts u)) = none
      · refine (hinsert hfresh).trans ?_
        rw [List.filter_cons_of_neg (by rw [hcounts]; decide)]
      · have htaken : m.contains (w.nextKey (r.pts u)) = true := by
          rw [OrdMap.contains, Option.isSome_iff_ne_none]
          exact hfresh
        rw [PtsWaiter.kept_some, OrdMap.emplace, if_pos htaken]

/-- What waits with the update that is delivered: it has waited, or it is the update under its key. -/
lemma find_kept {key : ℕ} {s : Skipped ι ι}
    (hs : (w.kept m (r.pts u) (r.body u)).find key = some s) :
    m.find key = some s ∨ s.item = u ∧ key = w.nextKey (r.pts u) := by
  cases hbody : r.body u with
  | none =>
    rw [hbody] at hs
    exact Or.inl hs
  | some t =>
    rw [hbody, PtsWaiter.kept_some, OrdMap.find_emplace] at hs
    split_ifs at hs with hkey
    · subst hkey
      cases htaken : m.find (w.nextKey (r.pts u)) with
      | none =>
        rw [htaken] at hs
        cases hs
        exact Or.inr ⟨item_body hbody, rfl⟩
      | some taken =>
        rw [htaken] at hs
        exact Or.inl hs
    · exact Or.inl hs

lemma mem_kept {s : Skipped ι ι} (hs : s ∈ (w.kept m (r.pts u) (r.body u)).values) :
    s ∈ m.values ∨ s.item = u := by
  obtain ⟨key, hfind⟩ := OrdMap.mem_values_iff.mp hs
  rcases find_kept hfind with hfind | ⟨hitem, -⟩
  · exact Or.inl (OrdMap.mem_values_iff.mpr ⟨key, hfind⟩)
  · exact Or.inr hitem

/-- What waits with the update that is delivered is in the order of the pts. -/
lemma kept_sorted (hstream : Stream r p0 stream (before ++ u :: after))
    (h : Received r p0 w m before (u :: after)) :
    ((w.kept m (r.pts u) (r.body u)).values.map Skipped.item).Pairwise
      fun u v => r.pts u ≤ r.pts v := by
  have hkey : ∀ key s, (w.kept m (r.pts u) (r.body u)).find key = some s →
      key / 2 ^ 32 = (r.pts s.item).toNat ∧ 0 ≤ r.pts s.item := by
    intro key s hfind
    rcases find_kept hfind with hfind | ⟨hitem, hkey⟩
    · have hmem := (h.mem_before (OrdMap.mem_values_iff.mpr ⟨key, hfind⟩)).2
      exact ⟨(h.waits key s hfind).2, (hstream.pts_nonneg (List.mem_append_left _ hmem)).1⟩
    · obtain ⟨hnonneg, hlt⟩ := hstream.pts_nonneg (u := u) (by simp)
      rw [hitem, hkey]
      exact ⟨nextKey_div w hnonneg hlt, hnonneg⟩
  have hsorted := (w.kept m (r.pts u) (r.body u)).sorted
  unfold OrdMap.values
  rw [List.pairwise_map, List.pairwise_map]
  refine hsorted.imp_of_mem fun {a b} ha hb hlt => ?_
  obtain ⟨hkeyA, hnonnegA⟩ := hkey a.1 a.2 (OrdMap.find_eq_some_iff.mpr ha)
  obtain ⟨hkeyB, hnonnegB⟩ := hkey b.1 b.2 (OrdMap.find_eq_some_iff.mpr hb)
  have hle := Nat.div_le_div_right (c := 2 ^ 32) hlt.le
  omega

/-- A waiter that is initialised has got nothing. -/
lemma received_init (hrequesting : w.requesting = false) (howner : w.owner = [])
    {order : List ι} (hstream : Stream r p0 stream order) :
    Received r p0 (w.init p0) ∅ [] order := by
  refine ⟨⟨hrequesting, rfl, hstream.pos, le_rfl, PtsWaiter.held_clear _, fun hne => absurd rfl hne⟩,
    rfl, (add_zero p0).symm, ?_, fun _ => ⟨rfl, rfl⟩, fun _ _ h => (nomatch h), ?_⟩
  · intro u hu hcount
    have := hstream.numbered.start_le u (hstream.perm.subset hu)
    change p0 < r.pts u
    omega
  · change (((applied w.owner ++ []).map Skipped.item).filter r.counts).Perm _
    rw [howner]
    exact List.Perm.refl _

variable [Inhabited ι]

/-- **A delivery.** What is got next is applied, or waits, and what is missing stays missing. -/
theorem Received.step (hstream : Stream r p0 stream (before ++ u :: after))
    (h : Received r p0 w m before (u :: after)) :
    ∃ m', w.Taken m (r.pts u) (r.count u) (r.body u) (deliver r w u) m' ∧
      Received r p0 (deliver r w u) m' (before ++ [u]) after := by
  have hnew : ¬(r.pts u ≤ w.good ∧ 0 < r.count u) := by
    rintro ⟨hle, hcount⟩
    have := h.good u List.mem_cons_self hcount
    omega
  obtain ⟨m', htaken⟩ := PtsWaiter.take_spec h.ready hnew (r.body u)
  have hperm : (before ++ [u] ++ after).Perm stream := by
    rw [List.append_assoc, List.singleton_append]
    exact hstream.perm
  have hlast : max w.last (r.pts u) = top r.pts p0 (before ++ [u]) := by
    rw [top_concat, h.last]
  have hsum : w.count + r.count u = p0 + total r.count (before ++ [u]) := by
    rw [total_append, total_cons, total_nil, h.sum]
    omega
  have hkept := kept_filter hstream h
  have honce : (((applied w.owner ++ (w.kept m (r.pts u) (r.body u)).values).map
      Skipped.item).filter r.counts).Perm
      ((before ++ [u]).filter fun v => r.counts v && (r.overload v).isSome) := by
    rw [List.map_append, List.filter_append, List.filter_append]
    have honce := h.once
    rw [List.map_append, List.filter_append] at honce
    refine (hkept.append_left _).trans ?_
    rw [← List.append_assoc]
    exact honce.append_right _
  refine ⟨m', htaken, ⟨htaken.ready, htaken.last.trans hlast, htaken.sum.trans hsum, ?_, ?_, ?_, ?_⟩⟩
  · intro x hx hcount
    have hgood := htaken.good
    change (deliver r w u).good = _ at hgood
    rw [hgood]
    split_ifs with hclosed
    · rw [hlast]
      exact hstream.numbered.top_lt hperm (by rw [← hlast, ← hsum, hclosed]) hx hcount
    · exact h.good x (List.mem_cons_of_mem _ hx) hcount
  · intro hclosed
    have hclosed' : max w.last (r.pts u) = w.count + r.count u := by
      rw [← htaken.last, ← htaken.sum]
      exact hclosed
    refine ⟨(htaken.passes (Or.inl hclosed')).1, ?_⟩
    exact htaken.good.trans ((if_pos hclosed').trans htaken.last.symm)
  · intro key s hfind
    by_cases hpasses : max w.last (r.pts u) = w.count + r.count u ∨ r.count u = 0
    · rw [(htaken.passes hpasses).1] at hfind
      cases hfind
    · rw [(htaken.waits hpasses).1] at hfind
      cases hbody : r.body u with
      | none =>
        rw [hbody] at hfind
        exact h.waits key s hfind
      | some t =>
        rw [hbody, PtsWaiter.kept_some] at hfind
        have hu : u ∈ before ++ u :: after := by simp
        have hnonneg := hstream.numbered.count_nonneg u (hstream.perm.subset hu)
        have hcount : 0 < r.count u := by
          rw [not_or] at hpasses
          omega
        rw [OrdMap.emplace_of_find_eq_none (find_nextKey hstream h hcount),
          OrdMap.find_insert] at hfind
        split_ifs at hfind with hkey
        · cases hfind
          obtain ⟨hpts, hlt⟩ := hstream.pts_nonneg hu
          rw [item_body hbody, hkey]
          exact ⟨hcount, nextKey_div w hpts hlt⟩
        · exact h.waits key s hfind
  · by_cases hpasses : max w.last (r.pts u) = w.count + r.count u ∨ r.count u = 0
    · obtain ⟨hm, happlied⟩ := htaken.passes hpasses
      change applied (deliver r w u).owner = _ at happlied
      rw [hm, happlied]
      change ((((applied w.owner ++ _) ++ []).map Skipped.item).filter r.counts).Perm _
      rw [List.append_nil]
      exact honce
    · obtain ⟨hm, happlied⟩ := htaken.waits hpasses
      change applied (deliver r w u).owner = _ at happlied
      rw [hm, happlied]
      exact honce

lemma waitingItems_eq (h : Ready w m) : waitingItems w = m.values.map Skipped.item := by
  unfold waitingItems
  rw [PtsWaiter.skippedCalls_eq h.held, applied_map_call]

/-! ### The order -/

/-- What is applied and what waits is in order, as far as it counts, and nothing that is missing comes
before what is applied. -/
structure Sorted (r : Reads ι) (w : PtsWaiter ι ι) (m : OrdMap ℕ (Skipped ι ι)) (after : List ι) :
    Prop where
  early : ∀ v ∈ appliedItems w, 0 < r.count v → ∀ x ∈ after, 0 < r.count x → r.pts v ≤ r.pts x
  below : ∀ v ∈ appliedItems w, 0 < r.count v → ∀ s ∈ m.values, r.pts v ≤ r.pts s.item
  sorted : ((appliedItems w).filter r.counts).Pairwise fun u v => r.pts u ≤ r.pts v

/-- **The order is kept** by a delivery that is in time. -/
theorem Sorted.step (hstream : Stream r p0 stream (before ++ u :: after))
    (h : Received r p0 w m before (u :: after)) (hsorted : Sorted r w m (u :: after))
    (hintime : InTime r w u after) {m' : OrdMap ℕ (Skipped ι ι)}
    (htaken : w.Taken m (r.pts u) (r.count u) (r.body u) (deliver r w u) m') :
    Sorted r (deliver r w u) m' after := by
  have hcross : ∀ v ∈ appliedItems w, 0 < r.count v →
      ∀ s ∈ (w.kept m (r.pts u) (r.body u)).values, 0 < r.count s.item → r.pts v ≤ r.pts s.item := by
    intro v hv hcount s hs hcounts
    rcases mem_kept hs with hs | hitem
    · exact hsorted.below v hv hcount s hs
    · rw [hitem] at hcounts ⊢
      exact hsorted.early v hv hcount u List.mem_cons_self hcounts
  by_cases hpasses : max w.last (r.pts u) = w.count + r.count u ∨ r.count u = 0
  · obtain ⟨hm, happlied⟩ := htaken.passes hpasses
    have hitems : appliedItems (deliver r w u) =
        appliedItems w ++ (w.kept m (r.pts u) (r.body u)).values.map Skipped.item := by
      unfold appliedItems
      rw [← List.map_append]
      exact congrArg _ happlied
    refine ⟨fun v hv hcount x hx hcountX => ?_, fun _ _ _ s hs => ?_, ?_⟩
    · rw [hitems] at hv
      rcases List.mem_append.mp hv with hv | hv
      · exact hsorted.early v hv hcount x (List.mem_cons_of_mem _ hx) hcountX
      · obtain ⟨s, hs, rfl⟩ := List.mem_map.mp hv
        by_cases hclosed : max w.last (r.pts u) = w.count + r.count u
        · -- everything up to the largest pts has been delivered
          have hmem : s.item ∈ before ++ [u] := by
            rcases mem_kept hs with hs | hitem
            · exact List.mem_append_left _ (h.mem_before hs).2
            · rw [hitem]
              exact List.mem_append_right _ (List.mem_singleton_self _)
          have hle : r.pts s.item ≤ top r.pts p0 (before ++ [u]) := (le_top p0 (before ++ [u])).2 _ hmem
          have hperm : (before ++ [u] ++ after).Perm stream := by
            rw [List.append_assoc, List.singleton_append]
            exact hstream.perm
          have htop : top r.pts p0 (before ++ [u]) = p0 + total r.count (before ++ [u]) := by
            rw [top_concat, ← h.last, hclosed, total_append, total_cons, total_nil, h.sum]
            omega
          have := hstream.numbered.top_lt hperm htop hx hcountX
          omega
        · have hzero := hpasses.resolve_left hclosed
          rw [hzero, add_zero] at hclosed
          rcases mem_kept hs with hs | hitem
          · refine hintime hzero hclosed s.item ?_ x hx hcountX
            rw [waitingItems_eq h.ready]
            exact List.mem_map_of_mem hs
          · rw [hitem] at hcount
            omega
    · rw [hm] at hs
      cases hs
    · rw [hitems, List.filter_append, List.pairwise_append]
      refine ⟨hsorted.sorted, (kept_sorted hstream h).filter _, fun v hv v' hv' => ?_⟩
      obtain ⟨hv, hcount⟩ := List.mem_filter.mp hv
      obtain ⟨hv', hcount'⟩ := List.mem_filter.mp hv'
      obtain ⟨s, hs, rfl⟩ := List.mem_map.mp hv'
      exact hcross v hv (of_decide_eq_true hcount) s hs (of_decide_eq_true hcount')
  · obtain ⟨hm, happlied⟩ := htaken.waits hpasses
    have hitems : appliedItems (deliver r w u) = appliedItems w := by
      unfold appliedItems
      exact congrArg _ happlied
    refine ⟨fun v hv hcount x hx => ?_, fun v hv hcount s hs => ?_, ?_⟩
    · rw [hitems] at hv
      exact hsorted.early v hv hcount x (List.mem_cons_of_mem _ hx)
    · rw [hitems] at hv
      rw [hm] at hs
      have hnonneg := hstream.numbered.count_nonneg u (hstream.perm.subset (by simp))
      refine hcross v hv hcount s hs ?_
      rcases mem_kept hs with hs | hitem
      · exact (h.mem_before hs).1
      · rw [hitem]
        omega
    · rw [hitems]
      exact hsorted.sorted

/-! ### Runs -/

lemma deliverAll_concat (r : Reads ι) (w : PtsWaiter ι ι) (order : List ι) (u : ι) :
    deliverAll r w (order ++ [u]) = deliver r (deliverAll r w order) u := by
  simp only [deliverAll, List.foldl_append, List.foldl_cons, List.foldl_nil]

/-- **Runs keep what is known of the waiter.** -/
theorem received_run (hrequesting : w.requesting = false) (howner : w.owner = [])
    {order : List ι} (hstream : Stream r p0 stream order) (before after : List ι)
    (hsplit : order = before ++ after) :
    ∃ m, Received r p0 (deliverAll r (w.init p0) before) m before after := by
  induction before using List.reverseRecOn generalizing after with
  | nil =>
    rw [List.nil_append] at hsplit
    subst hsplit
    exact ⟨∅, received_init hrequesting howner hstream⟩
  | append_singleton before u ih =>
    rw [List.append_assoc, List.singleton_append] at hsplit
    obtain ⟨m, h⟩ := ih (u :: after) hsplit
    subst hsplit
    obtain ⟨m', -, h'⟩ := h.step hstream
    rw [deliverAll_concat]
    exact ⟨m', h'⟩

/-- **Runs keep the order** when each delivery is in time. -/
theorem sorted_run (hrequesting : w.requesting = false) (howner : w.owner = [])
    {order : List ι} (hstream : Stream r p0 stream order)
    (hintime : ∀ before u after, order = before ++ u :: after →
      InTime r (deliverAll r (w.init p0) before) u after) (before after : List ι)
    (hsplit : order = before ++ after) :
    ∃ m, Received r p0 (deliverAll r (w.init p0) before) m before after ∧
      Sorted r (deliverAll r (w.init p0) before) m after := by
  induction before using List.reverseRecOn generalizing after with
  | nil =>
    rw [List.nil_append] at hsplit
    subst hsplit
    have happlied : appliedItems (w.init p0) = [] := by
      change (applied w.owner).map Skipped.item = []
      rw [howner]
      rfl
    refine ⟨∅, received_init hrequesting howner hstream, ?_, ?_, ?_⟩
    · change ∀ v ∈ appliedItems (w.init p0), _
      rw [happlied]
      simp
    · change ∀ v ∈ appliedItems (w.init p0), _
      rw [happlied]
      simp
    · change ((appliedItems (w.init p0)).filter r.counts).Pairwise _
      rw [happlied]
      exact List.Pairwise.nil
  | append_singleton before u ih =>
    rw [List.append_assoc, List.singleton_append] at hsplit
    obtain ⟨m, h, hsorted⟩ := ih (u :: after) hsplit
    have hu := hintime before u after hsplit
    subst hsplit
    obtain ⟨m', htaken, h'⟩ := h.step hstream
    rw [deliverAll_concat]
    exact ⟨m', h', hsorted.step hstream h hu htaken⟩

/-- **Updates are applied once and in order.** For a stream in any order of delivery: each update that
counts is applied once, and in the end the waiter is at the final pts with an empty queue. When no update
without a count releases what waits too early, those that count are applied in the order of their pts,
and none before one below it has been delivered.

**Proof sketch.** The sum has reached the largest pts exactly when nothing up to it is missing, so what
is then released is complete; it is released in the order of the keys, which is that of the pts. -/
theorem updates_in_order (r : Reads ι) {w : PtsWaiter ι ι} (hrequesting : w.requesting = false)
    (howner : w.owner = []) {p0 : ℤ} {stream order : List ι} (hstream : Stream r p0 stream order) :
    let run := deliverAll r (w.init p0)
    ((appliedItems (run order)).filter r.counts).Perm
        (stream.filter fun u => r.counts u && (r.overload u).isSome) ∧
      (run order).current = p0 + total r.count stream ∧
      (run order).queue = ∅ ∧ (run order).updateQueue = ∅ ∧ (run order).updatesQueue = ∅ ∧
      ((∀ before u after, order = before ++ u :: after → InTime r (run before) u after) →
        ((appliedItems (run order)).filter r.counts).Pairwise (fun u v => r.pts u < r.pts v) ∧
        ∀ before after, order = before ++ after → ∀ v ∈ appliedItems (run before), 0 < r.count v →
          ∀ x ∈ after, 0 < r.count x → ¬r.pts x < r.pts v) := by
  intro run
  obtain ⟨m, h⟩ := received_run hrequesting howner hstream order [] (List.append_nil _).symm
  have hclosed : (run order).last = (run order).count := by
    rw [h.last, h.sum, hstream.numbered.top_eq hstream.perm, total_perm hstream.perm]
  obtain ⟨rfl, hgood⟩ := h.closed hclosed
  have honce := h.once
  change (((applied (run order).owner ++ []).map Skipped.item).filter r.counts).Perm _ at honce
  rw [List.append_nil] at honce
  have hheld := h.ready.held
  refine ⟨honce.trans (hstream.perm.filter _), ?_, hheld.queue, ?_, ?_, fun hintime => ⟨?_, ?_⟩⟩
  · change (run order).good = _
    rw [hgood, h.last, hstream.numbered.top_eq hstream.perm]
  · exact OrdMap.ext_find fun key => hheld.update.none key rfl
  · exact OrdMap.ext_find fun key => hheld.updates.none key rfl
  · obtain ⟨_, -, hsorted⟩ :=
      sorted_run hrequesting howner hstream hintime order [] (List.append_nil _).symm
    have hne : ((appliedItems (run order)).filter r.counts).Pairwise fun u v =>
        0 < r.count u → 0 < r.count v → r.pts u ≠ r.pts v := by
      refine honce.symm.pairwise ?_ fun hne hv hu => (hne hu hv).symm
      exact (hstream.numbered.pairwise_ne_of_perm hstream.perm).filter _
    refine (hsorted.sorted.and hne).imp_of_mem fun {u v} hu hv hle => ?_
    have hcountU := of_decide_eq_true (List.mem_filter.mp hu).2
    have hcountV := of_decide_eq_true (List.mem_filter.mp hv).2
    exact lt_of_le_of_ne hle.1 (hle.2 hcountU hcountV)
  · intro before after hsplit v hv hcount x hx hcountX
    obtain ⟨_, -, hsorted⟩ := sorted_run hrequesting howner hstream hintime before after hsplit
    exact not_lt.mpr (hsorted.early v hv hcount x hx hcountX)

end Step

end Run

/-! ### What is released early -/

/-- Two updates that count and one that does not, after a pts of 10. -/
def gapReads : Reads ℕ where
  pts u := if u = 0 then 11 else 12
  count u := if u = 2 then 0 else 1
  overload _ := some .skippedUpdate

/-- The first of them comes last. -/
lemma gapStream : Stream gapReads 10 [0, 1, 2] [1, 2, 0] where
  pos := by decide
  numbered := by
    simp [Numbered, gapReads]
  int32 := by decide
  perm := by decide

/-- The stream is applied once, and the waiter comes to its last pts. -/
theorem gap_applied_once :
    ((appliedItems (deliverAll gapReads (PtsWaiter.init {} 10) [1, 2, 0])).filter gapReads.counts).Perm
        [0, 1] ∧
      (deliverAll gapReads (PtsWaiter.init {} 10) [1, 2, 0]).current = 12 := by
  obtain ⟨honce, hcurrent, -⟩ :=
    updates_in_order gapReads (w := {}) (by rfl) (by rfl) gapStream
  exact ⟨honce, hcurrent⟩

/-- **An update without a count releases what waits**: the update with the pts 12 is applied with it, and
the one with the pts 11 has not been delivered; that one is applied after it. -/
theorem released_early :
    Stream gapReads 10 [0, 1, 2] [1, 2, 0] ∧
      appliedItems (deliverAll gapReads (PtsWaiter.init {} 10) [1, 2]) = [1, 2] ∧
      appliedItems (deliverAll gapReads (PtsWaiter.init {} 10) [1, 2, 0]) = [1, 2, 0] ∧
      gapReads.pts 0 < gapReads.pts 1 ∧ 0 < gapReads.count 0 ∧ 0 < gapReads.count 1 :=
  ⟨gapStream, by decide, by decide, by decide, by decide, by decide⟩

end Updates
