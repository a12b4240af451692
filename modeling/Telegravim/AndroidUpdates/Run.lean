import Telegravim.AndroidUpdates.Steps

set_option autoImplicit false

/-!
# Runs of the updater

After any run the package that is offered is the verified one of the entry that is offered, every callback was
run once or will be, and the installer was started for packages that were verified again. While no download is
on its way the worker and the callbacks of older downloads leave everything alone but the progress: a download
that had accepted a block before its generation was over still writes the progress of this block.

## Main definitions

* `AndroidUpdates.Quiescent` — nothing is pending.
* `AndroidUpdates.Safe` — what holds of the updater.

## Main results

* `AndroidUpdates.exists_finish` — what is pending comes to an end.
* `AndroidUpdates.run_safe` — the updater is safe after any run.
* `AndroidUpdates.progress_stale` — a cancelled download writes the progress.
-/

namespace AndroidUpdates

variable {d : Device} {s s' : State}

/-! ### What is pending comes to an end -/

/-- The event is of one of the threads, and no call. -/
def Event.Internal : Event → Prop
  | .worker _ | .ui _ _ => True
  | _ => False

/-- Nothing is pending. -/
def Quiescent (s : State) : Prop :=
  s.queue = [] ∧ s.current = none ∧ s.ui = [] ∧ s.running = []

/-- How much is left of a download. -/
def Stage.left : Stage → ℕ
  | .written _ | .validated _ => 4
  | _ => 3

/-- How much is pending. -/
def left (s : State) : ℕ :=
  8 * s.queue.length + (s.current.map fun dl => dl.stage.left).getD 0 + 2 * s.ui.length +
    (s.running.length + s.callbacks.length)

/-- A callback that is run is pending no more. -/
lemma left_runCallback {callback : Callback} {rest : List Callback} (hrunning : s.running = [])
    (hui : s.ui = callback :: rest) :
    left (runCallback { s with ui := rest } 0 true callback) < left s ∧
      (runCallback { s with ui := rest } 0 true callback).passed = s.passed := by
  have hlt : left { s with ui := rest } < left s := by
    simp only [left, hui, List.length_cons]
    omega
  cases callback with
  | checkDone checked cached failed =>
    have hchecked : ∀ {s' : State}, s'.queue = s.queue → s'.current = s.current → s'.ui = rest →
        s'.running = s.callbacks → s'.callbacks = [] → left s' < left s := by
      intro s' h1 h2 h3 h4 h5
      simp only [left, h1, h2, h3, h4, h5, hrunning, hui, List.length_cons, List.length_nil]
      omega
    unfold runCallback checkDone
    dsimp only
    split
    · exact ⟨hchecked rfl rfl rfl rfl rfl, rfl⟩
    · unfold adopt
      dsimp only
      split <;> split <;> exact ⟨hchecked rfl rfl rfl rfl rfl, rfl⟩
  | notifyProgress => exact ⟨hlt, rfl⟩
  | downloadDone t ready =>
    unfold runCallback downloadDone
    dsimp only
    split <;> exact ⟨hlt, rfl⟩
  | installReady call file =>
    unfold runCallback installReady
    dsimp only
    split <;> exact ⟨hlt, rfl⟩
  | installFailed => exact ⟨hlt, rfl⟩

/-- A task that is taken is pending no more; its callback is. -/
lemma left_takeTask {task : Task} {rest : List Task} (hcurrent : s.current = none) (hqueue : s.queue = task :: rest) :
    left (takeTask d {} s) < left s ∧ (takeTask d {} s).passed = s.passed := by
  have hpost : ∀ {s' : State} {callback : Callback}, s'.queue = rest → s'.current = none → s'.ui = s.ui →
      s'.running = s.running → s'.callbacks = s.callbacks → left (post s' callback) < left s := by
    intro s' callback h1 h2 h3 h4 h5
    simp only [left, post, h1, h2, h3, h4, h5, hcurrent, hqueue, List.length_cons, List.length_append,
      List.length_nil]
    omega
  unfold takeTask
  rw [hqueue]
  cases task with
  | check => exact ⟨hpost rfl hcurrent rfl rfl rfl, rfl⟩
  | download t entry => exact ⟨hpost rfl rfl rfl rfl rfl, rfl⟩
  | install call file entry =>
    dsimp only
    unfold runInstall
    split
    · exact ⟨hpost rfl hcurrent rfl rfl rfl, rfl⟩
    · split <;> exact ⟨hpost rfl hcurrent rfl rfl rfl, rfl⟩

/-- A download can always be brought nearer to its end. -/
lemma left_workerStep {dl : Download} (hcurrent : s.current = some dl) :
    ∃ event, left (workerStep d s event) < left s ∧ (workerStep d s event).passed = s.passed := by
  have hend : ∀ {ready : Option File}, left (endDownload s dl.token ready) < left s := by
    intro ready
    have hleft : 3 ≤ dl.stage.left := by
      cases dl.stage <;> simp [Stage.left]
    simp only [left, endDownload, post, hcurrent, List.length_append, List.length_cons, List.length_nil,
      Option.map_some, Option.map_none, Option.getD_some, Option.getD_none]
    omega
  have hadvance : ∀ stage : Stage, stage.left < dl.stage.left → left (advance s dl stage) < left s := by
    intro stage hlt
    simp only [left, advance, hcurrent, Option.map_some, Option.getD_some]
    omega
  unfold workerStep
  simp only [hcurrent]
  cases hstage : dl.stage with
  | reading received => exact ⟨.read .failure, hend, rfl⟩
  | read received block =>
    refine ⟨.accept true, ?_⟩
    simp only [acceptBlock, Bool.or_true, if_true]
    exact ⟨hend, rfl⟩
  | written received =>
    refine ⟨.report false, ?_, rfl⟩
    have hlt := hadvance (.reading received) (by rw [hstage]; exact Nat.lt_succ_self 3)
    exact hlt
  | synced =>
    refine ⟨.validate 0 true, ?_⟩
    simp only [Bool.not_true, Bool.and_false, Bool.false_eq_true, if_false]
    exact ⟨hend, rfl⟩
  | validated time =>
    refine ⟨.recheck, ?_⟩
    dsimp only
    split
    · exact ⟨hadvance _ (by rw [hstage]; exact Nat.lt_succ_self 3), rfl⟩
    · exact ⟨hend, rfl⟩
  | checked time =>
    refine ⟨.publish false, ?_⟩
    dsimp only
    unfold publishPackage
    dsimp only
    split <;> exact ⟨hend, rfl⟩

/-- One of the threads can go on unless nothing is pending. -/
lemma exists_internal (d : Device) (h : ¬ Quiescent s) :
    ∃ event : Event, event.Internal ∧ left (step d s event) < left s ∧ (step d s event).passed = s.passed := by
  cases hrunning : s.running with
  | cons done rest =>
    refine ⟨.ui 0 true, trivial, ?_⟩
    show left (uiStep s 0 true) < left s ∧ (uiStep s 0 true).passed = s.passed
    unfold uiStep
    simp only [hrunning]
    refine ⟨?_, trivial⟩
    simp only [left, hrunning, List.length_cons]
    omega
  | nil =>
    cases hui : s.ui with
    | cons callback rest =>
      refine ⟨.ui 0 true, trivial, ?_⟩
      have heq : uiStep s 0 true = runCallback { s with ui := rest } 0 true callback := by
        unfold uiStep
        simp only [hrunning, hui]
      show left (uiStep s 0 true) < left s ∧ (uiStep s 0 true).passed = s.passed
      rw [heq]
      exact left_runCallback hrunning hui
    | nil =>
      cases hcurrent : s.current with
      | some dl =>
        obtain ⟨event, hlt, hpassed⟩ := left_workerStep (d := d) hcurrent
        exact ⟨.worker event, trivial, hlt, hpassed⟩
      | none =>
        cases hqueue : s.queue with
        | nil => exact absurd ⟨hqueue, hcurrent, hui, hrunning⟩ h
        | cons task rest =>
          refine ⟨.worker (.take {}), trivial, ?_⟩
          have heq : workerStep d s (.take {}) = takeTask d {} s := by
            unfold workerStep
            simp only [hcurrent]
          show left (workerStep d s _) < left s ∧ (workerStep d s _).passed = s.passed
          rw [heq]
          exact left_takeTask hcurrent hqueue

/-- **What is pending comes to an end**: from any state the two threads alone can go on until nothing is. -/
theorem exists_finish (d : Device) (s : State) :
    ∃ events : List Event, (∀ event ∈ events, event.Internal) ∧ Quiescent (runFrom d s events) ∧
      (runFrom d s events).passed = s.passed := by
  induction hleft : left s using Nat.strong_induction_on generalizing s with
  | _ n ih =>
    by_cases hquiet : Quiescent s
    · exact ⟨[], fun _ h => (by cases h), hquiet, rfl⟩
    · obtain ⟨event, hinternal, hlt, hpassed⟩ := exists_internal d hquiet
      obtain ⟨events, hall, hend, hsame⟩ := ih _ (hleft ▸ hlt) (step d s event) rfl
      refine ⟨event :: events, fun e he => ?_, hend, hsame.trans hpassed⟩
      rcases List.mem_cons.mp he with rfl | he
      · exact hinternal
      · exact hall e he

/-! ### The updater is safe -/

/-- **What holds of the updater.** -/
structure Safe (d : Device) (s : State) : Prop where
  /-- The package that is offered passed the checks, for an entry of the version and digest that is offered. -/
  offered : ∀ {file}, s.downloaded = some file → ∃ entry v, s.available = some entry ∧ v ∈ s.validations ∧
    v.Valid d ∧ v.file = file ∧ Same v.entry entry
  /-- While no download is on its way, none of the current generation is pending. -/
  noneCurrent : s.downloading = false → s.generation ∉ tokens s
  /-- Then the worker leaves alone what the UI thread writes, and the progress too, unless it reports a block
  that a download of an older generation had accepted. -/
  older : s.downloading = false → ∀ event, Untouched s (workerStep d s event) ∧
    ((workerStep d s event).progress = s.progress ∨
      ∃ dl received, s.current = some dl ∧ dl.stage = .written received ∧ dl.token ≠ s.generation ∧
        (workerStep d s event).stale = s.stale ++ [dl.token])
  /-- Each does so once at most. -/
  olderOnce : s.stale.Nodup
  /-- Then the callbacks of downloads change nothing. -/
  olderCallback : s.downloading = false → ∀ {callback rest}, s.running = [] → s.ui = callback :: rest →
    (callback = .notifyProgress ∨ ∃ t ready, callback = .downloadDone t ready) →
    ∀ now activityGone, uiStep s now activityGone = { s with ui := rest }
  /-- Every callback passed to `check` was run, is being run or waits, once. -/
  accounted : s.passed.Perm (s.ran ++ (s.running ++ s.callbacks))
  /-- The threads can go on until every callback was run once. -/
  finishes : ∃ events : List Event, (∀ event ∈ events, event.Internal) ∧
    (runFrom d s events).passed = s.passed ∧ (runFrom d s events).passed.Perm (runFrom d s events).ran
  /-- Whenever nothing is pending every callback was run once. -/
  quiescent : Quiescent s → s.passed.Perm s.ran
  /-- The installer was started for the package that was offered then, after it was validated for this call. -/
  installs : ∀ {before after call file downloaded}, s.trace = before ++ .started call file downloaded :: after →
    downloaded = some file ∧ Approved d before call file

/-- What the parts of the updater keep. -/
structure Inv (d : Device) (s : State) : Prop where
  offered : Offered d s
  waits : Waits s
  installs : Installs d s
  stale : Stale s

/-- The application is started. -/
lemma inv_initial (d : Device) (disk : Path → Option (List UInt8)) : Inv d { disk := disk } where
  offered :=
    { valid := fun _ h => by cases h
      offered := fun h => by cases h
      nodup := List.nodup_nil
      past := fun h => by cases h
      current := fun h => by cases h
      queued := fun h => by cases h
      inWork := fun h => by cases h
      checked := fun h => by cases h
      ready := fun h => by cases h
      cached := fun h => by cases h }
  waits := ⟨rfl, fun h => absurd rfl h, List.Perm.refl _⟩
  installs :=
    { queued := fun h => by cases h
      ready := fun h => by cases h
      started := fun h => absurd h (by simp) }
  stale :=
    { nodup := List.nodup_nil
      past := fun h => by cases h
      taken := fun h => by cases h
      once := fun h => by cases h }

/-- **A step keeps what holds of the updater.** -/
theorem Inv.step (hi : Inv d s) (event : Event) : Inv d (step d s event) where
  offered := by
    cases event with
    | check force initialized now done => exact hi.offered.check force initialized now done
    | download initialized time => exact hi.offered.download initialized time
    | cancel => exact hi.offered.cancel
    | install finishing permitted => exact hi.offered.install finishing permitted
    | worker event => exact hi.offered.workerStep event
    | ui now activityGone => exact hi.offered.uiStep now activityGone
  waits := hi.waits.step d event
  installs := hi.installs.step event
  stale := hi.stale.step hi.offered event

/-- A run keeps it. -/
lemma Inv.runFrom (hi : Inv d s) (events : List Event) : Inv d (runFrom d s events) := by
  induction events generalizing s with
  | nil => exact hi
  | cons event rest ih => exact ih (hi.step event)

/-- With nothing pending no callback waits. -/
lemma Inv.quiescent (hi : Inv d s) (hq : Quiescent s) : s.passed.Perm s.ran := by
  obtain ⟨hqueue, -, hui, hrunning⟩ := hq
  have hpending := hi.waits.pending
  have hcallbacks : s.callbacks = [] := by
    by_contra hne
    rw [hi.waits.waiting hne] at hpending
    simp [checks, hqueue, hui] at hpending
  have haccounted := hi.waits.accounted
  rw [hrunning, hcallbacks, List.append_nil, List.append_nil] at haccounted
  exact haccounted

/-- The worker and the progress while no download is on its way. -/
lemma Inv.older (hi : Inv d s) (hdownloading : s.downloading = false) (hw : Worked d s s') :
    s'.progress = s.progress ∨ ∃ dl received, s.current = some dl ∧ dl.stage = .written received ∧
      dl.token ≠ s.generation ∧ s'.stale = s.stale ++ [dl.token] := by
  cases hw with
  | reported hcurrent hstage hui =>
    rename_i dl received progress ui
    have hne : dl.token ≠ s.generation := by
      intro heq
      have htrue := hi.offered.current (heq ▸ token_inWork hcurrent)
      rw [hdownloading] at htrue
      cases htrue
    exact Or.inr ⟨dl, received, hcurrent, hstage, hne, if_pos hne⟩
  | _ => exact Or.inl rfl

/-- **The updater is safe after any run** of calls, tasks and callbacks, whatever the network answers.

**Proof sketch.** The four parts of the invariant are kept by every step. A package becomes the offered one in the
callback of a check, which offers the entry it was validated for, or in that of a download of the current
generation; a check that finds another entry ends the generation, so such a download is for what is offered. A
download compares the generation before it accepts a block, and writes the progress afterwards: once its generation
is over it accepts no other block. -/
theorem run_safe (d : Device) (disk : Path → Option (List UInt8)) (events : List Event) :
    Safe d (run d disk events) := by
  have hi : Inv d (run d disk events) := (inv_initial d disk).runFrom events
  generalize run d disk events = s at hi
  have hnone : s.downloading = false → s.generation ∉ tokens s := by
    intro hdownloading hmem
    have htrue := hi.offered.current hmem
    rw [hdownloading] at htrue
    cases htrue
  exact {
    offered := fun hfile => by
      obtain ⟨entry, hentry, v, hv, hsame⟩ := hi.offered.offered hfile
      exact ⟨entry, v, hentry, hv, hi.offered.valid v hv, hsame⟩
    noneCurrent := hnone
    older := fun hdownloading event =>
      ⟨(workerStep_worked d s event).untouched, hi.older hdownloading (workerStep_worked d s event)⟩
    olderOnce := hi.stale.nodup
    olderCallback := fun hdownloading callback rest hrunning hui hkind now activityGone => by
      have heq : uiStep s now activityGone = runCallback { s with ui := rest } now activityGone callback := by
        unfold uiStep
        simp only [hrunning, hui]
      rw [heq]
      rcases hkind with rfl | ⟨t, ready, rfl⟩
      · rfl
      · have hmem : Callback.downloadDone t ready ∈ s.ui := hui ▸ List.mem_cons_self
        have hne : t ≠ s.generation := fun h => hnone hdownloading (h ▸ token_done hmem)
        exact if_pos hne
    accounted := hi.waits.accounted
    finishes := by
      obtain ⟨more, hinternal, hquiet, hpassed⟩ := exists_finish d s
      exact ⟨more, hinternal, hpassed, (hi.runFrom more).quiescent hquiet⟩
    quiescent := hi.quiescent
    installs := hi.installs.started }

/-! ### An older download that reports -/

/-- A device on which every package is a newer version by the same signer. -/
def someDevice : Device where
  packageName := "app"
  installed := { packageName := "app", versionCode := 1, minSdkVersion := some 1, signatures := some ["key"] }
  sdkInt := 30
  sha256Hex := fun _ => "0000000000000000000000000000000000000000000000000000000000000000"
  archiveInfo := fun _ =>
    some { packageName := "app", versionCode := 2, minSdkVersion := some 1, signatures := some ["key"] }

/-- A catalog with a release of two bytes. -/
def someAnswer : Answer where
  verified := true
  catalog :=
    { format := 1
      issued := 0
      expires := 1000
      stable :=
        { package := "app"
          minSdk := 1
          version := "2"
          versionCode := 2
          changelog := ""
          url := some
            { protocol := "https"
              host := "github.com"
              path := "/Informativus/telegravim/releases/download/2/app.apk"
              query := none
              userInfo := none
              port := -1
              ref := none }
          sha256 := "0000000000000000000000000000000000000000000000000000000000000000"
          size := 2 } }

/-- A release is found and downloaded; the download is cancelled after it accepted a block. -/
def cancelledRun : List Event :=
  [.check true true 1 none, .worker (.take { answer := some someAnswer }), .ui 1 false, .download true 1,
    .worker (.take { connects := true }), .worker (.read (.block [7])), .worker (.accept false), .cancel]

/-- **A cancelled download writes the progress**: after `cancelledRun` no download is on its way and none of the
current generation is pending, and the next step of the worker changes the progress. -/
theorem progress_stale :
    let s := run someDevice (fun _ => none) cancelledRun
    s.downloading = false ∧ s.generation ∉ tokens s ∧ s.progress = 0 ∧
      (step someDevice s (.worker (.report false))).progress ≠ 0 := by
  decide +kernel

end AndroidUpdates
