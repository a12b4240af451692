import Mathlib.Data.List.Count
import Mathlib.Tactic.Linarith
import Telegravim.AndroidUpdates.Offered

set_option autoImplicit false

/-!
# Steps of the updater

The UI thread may call `check`, `download`, `cancel` and `install` at any time, also from a callback, and both
threads go on in any order. A callback of `check` waits for the check that is on its way; the installer is
started for the package that is offered, after it was validated once more. A download whose generation is over
writes the progress once at most, for a block that it had accepted.

## Main definitions

* `AndroidUpdates.Event`, `AndroidUpdates.step`, `AndroidUpdates.run` — what happens.
* `AndroidUpdates.Worked` — what a step of the worker does.
* `AndroidUpdates.Waits`, `AndroidUpdates.Installs`, `AndroidUpdates.Stale` — what holds of callbacks, of
  installations and of older downloads.

## Main results

* `AndroidUpdates.Worked.untouched` — the worker writes nothing of the UI thread.
* `AndroidUpdates.Waits.step`, `AndroidUpdates.Installs.step`, `AndroidUpdates.Stale.step` — what a step keeps.
-/

namespace AndroidUpdates

/-! ### Runs -/

/-- What happens. -/
inductive Event
  /-- `check` is called. -/
  | check (force initialized : Bool) (now : ℤ) (done : Option Runnable)
  /-- `download` is called. -/
  | download (initialized : Bool) (time : ℤ)
  /-- `cancel` is called. -/
  | cancel
  /-- `install` is called. -/
  | install (finishing permitted : Bool)
  /-- The worker goes on. -/
  | worker (event : WorkerEvent)
  /-- The UI thread goes on. -/
  | ui (now : ℤ) (activityGone : Bool)

/-- What an event does. -/
def step (d : Device) (s : State) : Event → State
  | .check force initialized now done => check s force initialized now done
  | .download initialized time => download s initialized time
  | .cancel => cancel s
  | .install finishing permitted => install s finishing permitted
  | .worker event => workerStep d s event
  | .ui now activityGone => uiStep s now activityGone

/-- What a run leads to. -/
def runFrom (d : Device) (s : State) (events : List Event) : State :=
  events.foldl (step d) s

/-- A run of the application, from the files that are there. -/
def run (d : Device) (disk : Path → Option (List UInt8)) (events : List Event) : State :=
  runFrom d { disk := disk } events

/-! ### What the worker does -/

variable {d : Device} {s s' : State}

/-- **What a step of the worker does.** -/
inductive Worked (d : Device) (s : State) : State → Prop
  /-- Nothing. -/
  | idle : Worked d s s
  /-- A check ends. -/
  | checked {rest : List Task} {refs : ℕ} {disk : Path → Option (List UInt8)} {validations : List Validation}
      {entry : Option Entry} {cached : Option File} {failed : Bool} (hqueue : s.queue = .check :: rest) :
      Worked d s (post { s with queue := rest, refs := refs, disk := disk, validations := validations }
        (.checkDone entry cached failed))
  /-- A package is not installed. -/
  | refused {call : ℕ} {file : File} {entry : Entry} {rest : List Task}
      (hqueue : s.queue = .install call file entry :: rest) :
      Worked d s (post { s with queue := rest } .installFailed)
  /-- A package may be installed. -/
  | approved {call : ℕ} {v : Validation} {rest : List Task}
      (hqueue : s.queue = .install call v.file v.entry :: rest) (hv : v.Valid d) :
      Worked d s (post { s with queue := rest, trace := s.trace ++ [.validated call v] }
        (.installReady call v.file))
  /-- A download begins. -/
  | begun {t : ℕ} {entry : Entry} {rest : List Task} {disk : Path → Option (List UInt8)}
      (hqueue : s.queue = .download t entry :: rest) (hcurrent : s.current = none) :
      Worked d s { s with
        queue := rest, disk := disk, current := some { token := t, entry := entry, stage := .reading 0 } }
  /-- A download does not begin. -/
  | notBegun {t : ℕ} {entry : Entry} {rest : List Task} {disk : Path → Option (List UInt8)}
      (hqueue : s.queue = .download t entry :: rest) (hcurrent : s.current = none) :
      Worked d s (post { s with queue := rest, disk := disk, current := none } (.downloadDone t none))
  /-- A download goes on; a block is accepted in the generation of the download only. -/
  | advanced {dl : Download} {stage : Stage} {disk : Path → Option (List UInt8)} (hcurrent : s.current = some dl)
      (hstage : ∀ {received}, stage = .written received → dl.token = s.generation) :
      Worked d s { s with disk := disk, current := some { dl with stage := stage } }
  /-- The progress is written, for a block that was accepted. -/
  | reported {dl : Download} {received : ℤ} {progress : ℚ} {ui : List Callback} (hcurrent : s.current = some dl)
      (hstage : dl.stage = .written received) (hui : ui = s.ui ∨ ui = s.ui ++ [.notifyProgress]) :
      Worked d s { s with
        progress := progress
        stale := if dl.token ≠ s.generation then s.stale ++ [dl.token] else s.stale
        ui := ui
        current := some { dl with stage := .reading received } }
  /-- A download ends. -/
  | ended {dl : Download} {ready : Option File} {refs : ℕ} {disk : Path → Option (List UInt8)}
      {validations : List Validation} (hcurrent : s.current = some dl) :
      Worked d s (post { s with refs := refs, disk := disk, validations := validations, current := none }
        (.downloadDone dl.token ready))

lemma takeTask_worked (hcurrent : s.current = none) (world : World) : Worked d s (takeTask d world s) := by
  unfold takeTask
  split
  · exact .idle
  · rename_i task rest hqueue
    cases task with
    | check =>
      dsimp only
      unfold runCheck
      split
      · exact .checked hqueue
      · exact .checked hqueue
      · dsimp only
        split
        · exact .checked hqueue
        · split
          · exact .checked hqueue
          · exact .checked hqueue
    | download t entry =>
      dsimp only
      unfold startDownload
      dsimp only
      split
      · exact .begun hqueue hcurrent
      · exact .notBegun hqueue hcurrent
    | install call file entry =>
      dsimp only
      unfold runInstall
      split
      · exact .refused hqueue
      · rename_i content _
        split
        · rename_i hvalid
          let v : Validation := { file := file, content := content, entry := entry, time := world.time }
          exact .approved (v := v) hqueue (Bool.and_eq_true_iff.mp hvalid).1
        · exact .refused hqueue

/-- **A step of the worker** is one of these. -/
theorem workerStep_worked (d : Device) (s : State) (event : WorkerEvent) : Worked d s (workerStep d s event) := by
  unfold workerStep
  split
  · rename_i world hcurrent
    exact takeTask_worked hcurrent world
  · rename_i dl hcurrent
    split
    · exact .advanced hcurrent fun h => by cases h
    · exact .advanced hcurrent fun h => by cases h
    · exact .ended hcurrent
    · unfold acceptBlock
      split
      · exact .ended hcurrent
      split
      · exact .ended hcurrent
      · rename_i htoken _
        refine .advanced hcurrent fun _ => ?_
        by_contra hne
        exact htoken (by simp [hne])
    · rename_i hstage
      unfold reportProgress
      dsimp only
      split
      · exact .reported hcurrent hstage (Or.inr rfl)
      · exact .reported hcurrent hstage (Or.inl rfl)
    · split
      · exact .advanced hcurrent fun h => by cases h
      · exact .ended hcurrent
    · split
      · exact .advanced hcurrent fun h => by cases h
      · exact .ended hcurrent
    · unfold publishPackage
      dsimp only
      split
      · exact .ended hcurrent
      split
      · exact .ended hcurrent
      · exact .ended hcurrent
    · exact .idle
  · exact .idle

/-- What only the UI thread writes is the same. -/
structure Untouched (s s' : State) : Prop where
  generation : s'.generation = s.generation
  callbacks : s'.callbacks = s.callbacks
  checking : s'.checking = s.checking
  error : s'.error = s.error
  lastAttempt : s'.lastAttempt = s.lastAttempt
  lastSuccess : s'.lastSuccess = s.lastSuccess
  available : s'.available = s.available
  downloaded : s'.downloaded = s.downloaded
  downloading : s'.downloading = s.downloading
  running : s'.running = s.running
  passed : s'.passed = s.passed
  ran : s'.ran = s.ran

/-- **The worker writes nothing of the UI thread.** -/
theorem Worked.untouched (hw : Worked d s s') : Untouched s s' := by
  cases hw <;> exact ⟨rfl, rfl, rfl, rfl, rfl, rfl, rfl, rfl, rfl, rfl, rfl, rfl⟩

/-! ### Callbacks of checks -/

/-- The task is the one of a check. -/
def Task.isCheck : Task → Bool
  | .check => true
  | _ => false

/-- The callback is the one of a check. -/
def Callback.isCheck : Callback → Bool
  | .checkDone .. => true
  | _ => false

/-- The number of checks that are pending. -/
def checks (s : State) : ℕ :=
  s.queue.countP Task.isCheck + s.ui.countP Callback.isCheck

/-- **The callbacks of `check`**: each was run, is being run or waits for the check that is on its way. -/
structure Waits (s : State) : Prop where
  /-- One check is pending when one is on its way. -/
  pending : checks s = if s.checking then 1 else 0
  /-- Callbacks wait for a check only. -/
  waiting : s.callbacks ≠ [] → s.checking = true
  /-- Every callback is accounted for. -/
  accounted : s.passed.Perm (s.ran ++ (s.running ++ s.callbacks))

/-- The worker neither adds nor loses a check. -/
lemma Worked.checks_eq (hw : Worked d s s') : checks s' = checks s := by
  cases hw with
  | idle => rfl
  | checked hqueue => simp [checks, post, hqueue, List.countP_cons, Task.isCheck, Callback.isCheck]; omega
  | refused hqueue => simp [checks, post, hqueue, Task.isCheck, Callback.isCheck]
  | approved hqueue => simp [checks, post, hqueue, Task.isCheck, Callback.isCheck]
  | begun hqueue => simp [checks, hqueue, Task.isCheck]
  | notBegun hqueue => simp [checks, post, hqueue, Task.isCheck, Callback.isCheck]
  | advanced => rfl
  | reported _ _ hui =>
    rcases hui with rfl | rfl
    · rfl
    · simp [checks, Callback.isCheck]
  | ended => simp [checks, post, Callback.isCheck]

namespace Waits

/-- A step that leaves callbacks and checks alone. -/
lemma of_same (hw : Waits s) (hchecks : checks s' = checks s) (hchecking : s'.checking = s.checking)
    (hcallbacks : s'.callbacks = s.callbacks) (hrunning : s'.running = s.running) (hpassed : s'.passed = s.passed)
    (hran : s'.ran = s.ran) : Waits s' where
  pending := by rw [hchecks, hchecking]; exact hw.pending
  waiting := by rw [hcallbacks, hchecking]; exact hw.waiting
  accounted := by rw [hpassed, hran, hrunning, hcallbacks]; exact hw.accounted

lemma runNow (hw : Waits s) (done : Option Runnable) : Waits (runNow s done) := by
  cases done with
  | none => exact hw
  | some done =>
    refine ⟨hw.pending, hw.waiting, ?_⟩
    show (s.passed ++ [done]).Perm ((s.ran ++ [done]) ++ (s.running ++ s.callbacks))
    refine (hw.accounted.append_right [done]).trans ?_
    rw [List.append_assoc s.ran _ [done], List.append_assoc s.ran [done]]
    exact List.perm_append_comm.append_left s.ran

/-- **A check is asked for**: the callback is run at once, or waits for a check that is on its way. -/
lemma check (hw : Waits s) (force initialized : Bool) (now : ℤ) (done : Option Runnable) :
    Waits (check s force initialized now done) := by
  unfold AndroidUpdates.check
  split
  · have herror : Waits { s with error := true } := hw.of_same rfl rfl rfl rfl rfl rfl
    exact herror.runNow done
  split
  · exact hw.runNow done
  · have hadded : (addCallback s done).passed.Perm
        ((addCallback s done).ran ++ ((addCallback s done).running ++ (addCallback s done).callbacks)) := by
      cases done with
      | none => exact hw.accounted
      | some done =>
        show (s.passed ++ [done]).Perm (s.ran ++ (s.running ++ (s.callbacks ++ [done])))
        rw [← List.append_assoc s.running, ← List.append_assoc s.ran]
        exact hw.accounted.append_right [done]
    have hsame : checks (addCallback s done) = checks s ∧ (addCallback s done).checking = s.checking := by
      cases done <;> exact ⟨rfl, rfl⟩
    dsimp only
    split
    · rename_i hchecking
      refine ⟨?_, fun _ => hchecking, hadded⟩
      rw [hsame.1, hsame.2]
      exact hw.pending
    · rename_i hchecking
      refine ⟨?_, fun _ => rfl, hadded⟩
      have hpending := hw.pending
      rw [← hsame.1, ← hsame.2, if_neg hchecking] at hpending
      simp only [checks, List.countP_append, List.countP_singleton, Task.isCheck, if_true] at hpending ⊢
      omega

lemma download (hw : Waits s) (initialized : Bool) (time : ℤ) : Waits (download s initialized time) := by
  unfold AndroidUpdates.download
  split
  · exact hw
  split
  · exact hw
  split
  · exact hw
  · exact hw.of_same (by simp [checks, Task.isCheck]) rfl rfl rfl rfl rfl

lemma install (hw : Waits s) (finishing permitted : Bool) : Waits (install s finishing permitted) := by
  unfold AndroidUpdates.install
  split
  · split
    · exact hw
    · exact hw.of_same (by simp [checks, Task.isCheck]) rfl rfl rfl rfl rfl
  · exact hw

lemma workerStep (hw : Waits s) (d : Device) (event : WorkerEvent) : Waits (workerStep d s event) := by
  have hworked := workerStep_worked d s event
  have hsame := hworked.untouched
  exact hw.of_same hworked.checks_eq hsame.checking hsame.callbacks hsame.running hsame.passed hsame.ran

/-- What a check found does not change its callbacks. -/
lemma adopt_same (s : State) (now : ℤ) (checked : Option Entry) (cached : Option File) :
    (adopt s now checked cached).queue = s.queue ∧ (adopt s now checked cached).ui = s.ui ∧
      (adopt s now checked cached).checking = s.checking ∧ (adopt s now checked cached).callbacks = s.callbacks ∧
      (adopt s now checked cached).running = s.running ∧ (adopt s now checked cached).passed = s.passed ∧
      (adopt s now checked cached).ran = s.ran := by
  unfold adopt
  dsimp only
  split <;> split <;> exact ⟨rfl, rfl, rfl, rfl, rfl, rfl, rfl⟩

/-- **A check is done**: the callbacks that wait are run next. -/
lemma checkDone (hw : Waits s) {rest : List Callback} (hrunning : s.running = [])
    {checked : Option Entry} {cached : Option File} {failed : Bool}
    (hui : s.ui = .checkDone checked cached failed :: rest) (now : ℤ) :
    Waits (checkDone { s with ui := rest } now checked cached failed) := by
  have hpending := hw.pending
  have hnone : s.queue.countP Task.isCheck = 0 ∧ rest.countP Callback.isCheck = 0 := by
    simp only [checks, hui, List.countP_cons, Callback.isCheck, if_true] at hpending
    split at hpending <;> omega
  have hperm : s.passed.Perm (s.ran ++ (s.callbacks ++ [])) := by
    have haccounted := hw.accounted
    rw [hrunning] at haccounted
    rw [List.append_nil]
    exact haccounted
  unfold AndroidUpdates.checkDone
  dsimp only
  split
  · refine ⟨?_, fun h => absurd rfl h, hperm⟩
    simp [checks, hnone.1, hnone.2]
  · obtain ⟨hqueue, hui', hchecking, hcallbacks, -, hpassed, hran⟩ :=
      adopt_same { s with ui := rest, checking := false, error := failed } now checked cached
    refine ⟨?_, fun h => absurd rfl h, ?_⟩
    · show checks { AndroidUpdates.adopt _ now checked cached with .. } = _
      simp only [checks, hqueue, hui', hchecking, hnone.1, hnone.2]
      rfl
    · dsimp only
      rw [hpassed, hran, hcallbacks]
      exact hperm

/-- **A step of the UI thread.** -/
lemma uiStep (hw : Waits s) (now : ℤ) (activityGone : Bool) : Waits (uiStep s now activityGone) := by
  unfold AndroidUpdates.uiStep
  split
  · rename_i done rest hrunning
    refine ⟨hw.pending, hw.waiting, ?_⟩
    have haccounted := hw.accounted
    rw [hrunning] at haccounted
    show s.passed.Perm ((s.ran ++ [done]) ++ (rest ++ s.callbacks))
    rw [List.append_assoc]
    exact haccounted
  · rename_i callback rest hrunning hui
    have hother : callback.isCheck = false → Waits { s with ui := rest } := by
      intro hcheck
      exact hw.of_same (by simp [checks, hui, hcheck]) rfl rfl rfl rfl rfl
    cases callback with
    | checkDone checked cached failed => exact hw.checkDone hrunning hui now
    | notifyProgress => exact hother rfl
    | downloadDone t ready =>
      unfold runCallback downloadDone
      dsimp only
      split
      · exact hother rfl
      · exact (hother rfl).of_same rfl rfl rfl rfl rfl rfl
    | installReady call file =>
      unfold runCallback installReady
      dsimp only
      split
      · exact hother rfl
      · exact (hother rfl).of_same rfl rfl rfl rfl rfl rfl
    | installFailed => exact (hother rfl).of_same rfl rfl rfl rfl rfl rfl
  · exact hw

/-- **A step keeps the callbacks in order.** -/
theorem step (hw : Waits s) (d : Device) (event : Event) : Waits (step d s event) := by
  cases event with
  | check force initialized now done => exact hw.check force initialized now done
  | download initialized time => exact hw.download initialized time
  | cancel => exact hw.of_same rfl rfl rfl rfl rfl rfl
  | install finishing permitted => exact hw.install finishing permitted
  | worker event => exact hw.workerStep d event
  | ui now activityGone => exact hw.uiStep now activityGone

end Waits

/-! ### Installations -/

/-- The package was validated for the installation after it was asked for. -/
def Approved (d : Device) (trace : List Log) (call : ℕ) (file : File) : Prop :=
  ∃ v : Validation, v.Valid d ∧ v.file = file ∧ [Log.called call file v.entry, .validated call v].Sublist trace

/-- **The installer is started** for the package that is offered, after it was validated. -/
structure Installs (d : Device) (s : State) : Prop where
  /-- Tasks are of installations that were asked for. -/
  queued : ∀ {call file entry}, .install call file entry ∈ s.queue → .called call file entry ∈ s.trace
  /-- Callbacks are of packages that were validated. -/
  ready : ∀ {call file}, .installReady call file ∈ s.ui → Approved d s.trace call file
  /-- The installer was started for such packages. -/
  started : ∀ {before after call file downloaded}, s.trace = before ++ .started call file downloaded :: after →
    downloaded = some file ∧ Approved d before call file

lemma Approved.append {trace : List Log} {call : ℕ} {file : File} (ha : Approved d trace call file)
    (more : List Log) : Approved d (trace ++ more) call file := by
  obtain ⟨v, hv, hfile, hsub⟩ := ha
  exact ⟨v, hv, hfile, hsub.trans (List.sublist_append_left trace more)⟩

namespace Installs

/-- A step that leaves installations alone. -/
lemma of_same (hi : Installs d s)
    (hqueue : ∀ {call file entry}, .install call file entry ∈ s'.queue → .install call file entry ∈ s.queue)
    (hui : ∀ {call file}, .installReady call file ∈ s'.ui → .installReady call file ∈ s.ui)
    (htrace : s'.trace = s.trace) : Installs d s' where
  queued := fun hmem => by rw [htrace]; exact hi.queued (hqueue hmem)
  ready := fun hmem => by rw [htrace]; exact hi.ready (hui hmem)
  started := fun heq => hi.started (htrace.symm.trans heq)

/-- What happens is written down. -/
lemma record (hi : Installs d s) {log : Log}
    (hlog : ∀ {call file downloaded}, log = .started call file downloaded →
      downloaded = some file ∧ Approved d s.trace call file) : Installs d { s with trace := s.trace ++ [log] } where
  queued := fun hmem => List.mem_append_left _ (hi.queued hmem)
  ready := fun hmem => (hi.ready hmem).append _
  started := fun {before after call file downloaded} heq => by
    have heq : s.trace ++ [log] = before ++ .started call file downloaded :: after := heq
    rcases List.eq_nil_or_concat after with rfl | ⟨after', last, rfl⟩
    · obtain ⟨hbefore, hlast⟩ := List.append_inj' heq rfl
      rw [← hbefore]
      exact hlog (List.singleton_inj.mp hlast)
    · rw [List.concat_eq_append, ← List.cons_append, ← List.append_assoc] at heq
      exact hi.started (List.append_inj' heq rfl).1

lemma check (hi : Installs d s) (force initialized : Bool) (now : ℤ) (done : Option Runnable) :
    Installs d (check s force initialized now done) := by
  have hrun : ∀ {s : State}, Installs d s → Installs d (runNow s done) := by
    intro s hi
    cases done with
    | none => exact hi
    | some done => exact hi.of_same (fun h => h) (fun h => h) rfl
  have hadd : Installs d (addCallback s done) := by
    cases done with
    | none => exact hi
    | some done => exact hi.of_same (fun h => h) (fun h => h) rfl
  unfold AndroidUpdates.check
  split
  · exact hrun (hi.of_same (fun h => h) (fun h => h) rfl)
  split
  · exact hrun hi
  · dsimp only
    split
    · exact hadd
    · refine hadd.of_same (fun hmem => ?_) (fun h => h) rfl
      rcases List.mem_append.mp hmem with hmem | hmem
      · exact hmem
      · cases List.mem_singleton.mp hmem

lemma download (hi : Installs d s) (initialized : Bool) (time : ℤ) :
    Installs d (download s initialized time) := by
  unfold AndroidUpdates.download
  split
  · exact hi
  split
  · exact hi
  split
  · exact hi
  · refine hi.of_same (fun hmem => ?_) (fun h => h) rfl
    rcases List.mem_append.mp hmem with hmem | hmem
    · exact hmem
    · cases List.mem_singleton.mp hmem

/-- **An installation is asked for.** -/
lemma install (hi : Installs d s) (finishing permitted : Bool) : Installs d (install s finishing permitted) := by
  unfold AndroidUpdates.install
  split
  · split
    · exact hi
    · rename_i file entry _ _ _
      have hcalled : Installs d { s with trace := s.trace ++ [.called s.calls file entry] } :=
        hi.record fun h => by cases h
      exact { hcalled with
        queued := fun hmem => by
          rcases List.mem_append.mp hmem with hmem | hmem
          · exact hcalled.queued hmem
          · injection List.mem_singleton.mp hmem with hcall hfile hentry
            rw [hcall, hfile, hentry]
            exact List.mem_append_right _ (List.mem_singleton_self _) }
  · exact hi

/-- Only validated packages are posted to the UI thread. -/
lemma workerStep (hi : Installs d s) (event : WorkerEvent) : Installs d (workerStep d s event) := by
  have hrest : ∀ {task : Task} {rest : List Task}, s.queue = task :: rest →
      ∀ {call file entry}, .install call file entry ∈ rest → .install call file entry ∈ s.queue :=
    fun hqueue _ _ _ hmem => hqueue ▸ List.mem_cons_of_mem _ hmem
  have hpost : ∀ {callback : Callback}, (∀ call file, callback ≠ .installReady call file) →
      ∀ {call file}, .installReady call file ∈ s.ui ++ [callback] → .installReady call file ∈ s.ui := by
    intro callback hne call file hmem
    rcases List.mem_append.mp hmem with hmem | hmem
    · exact hmem
    · exact absurd (List.mem_singleton.mp hmem).symm (hne call file)
  have hworked := workerStep_worked d s event
  generalize AndroidUpdates.workerStep d s event = s' at hworked
  cases hworked with
  | idle => exact hi
  | checked hqueue => exact hi.of_same (hrest hqueue) (hpost fun _ _ h => by cases h) rfl
  | refused hqueue => exact hi.of_same (hrest hqueue) (hpost fun _ _ h => by cases h) rfl
  | approved hqueue hv =>
    rename_i call v rest
    have hcalled : Log.called call v.file v.entry ∈ s.trace := hi.queued (hqueue ▸ List.mem_cons_self)
    have hrecorded : Installs d { s with trace := s.trace ++ [.validated call v] } :=
      hi.record fun h => by cases h
    exact { hrecorded with
      queued := fun hmem => hrecorded.queued (hrest hqueue hmem)
      ready := fun hmem => by
        rcases List.mem_append.mp hmem with hmem | hmem
        · exact hrecorded.ready hmem
        · injection List.mem_singleton.mp hmem with hcall hfile
          rw [hcall, hfile]
          exact ⟨v, hv, rfl, (List.singleton_sublist.mpr hcalled).append (List.Sublist.refl _)⟩ }
  | begun hqueue => exact hi.of_same (hrest hqueue) (fun h => h) rfl
  | notBegun hqueue => exact hi.of_same (hrest hqueue) (hpost fun _ _ h => by cases h) rfl
  | advanced => exact hi.of_same (fun h => h) (fun h => h) rfl
  | reported _ _ hui =>
    refine hi.of_same (fun h => h) (fun hmem => ?_) rfl
    rcases hui with rfl | rfl
    · exact hmem
    · exact hpost (fun _ _ h => by cases h) hmem
  | ended => exact hi.of_same (fun h => h) (hpost fun _ _ h => by cases h) rfl

/-- **The installer is started** only for what was validated and is still offered. -/
lemma uiStep (hi : Installs d s) (now : ℤ) (activityGone : Bool) : Installs d (uiStep s now activityGone) := by
  unfold AndroidUpdates.uiStep
  split
  · exact hi.of_same (fun h => h) (fun h => h) rfl
  · rename_i callback rest _ hui
    have hmem : ∀ {c : Callback}, c ∈ rest → c ∈ s.ui := fun h => hui ▸ List.mem_cons_of_mem _ h
    have hrest : Installs d { s with ui := rest } := hi.of_same (fun h => h) (fun h => hmem h) rfl
    cases callback with
    | checkDone checked cached failed =>
      unfold runCallback checkDone
      dsimp only
      split
      · exact hrest.of_same (fun h => h) (fun h => h) rfl
      · unfold adopt
        dsimp only
        split <;> split <;> exact hrest.of_same (fun h => h) (fun h => h) rfl
    | notifyProgress => exact hrest
    | downloadDone t ready =>
      unfold runCallback downloadDone
      dsimp only
      split
      · exact hrest
      · exact hrest.of_same (fun h => h) (fun h => h) rfl
    | installReady call file =>
      unfold runCallback installReady
      dsimp only
      split
      · exact hrest
      · rename_i hstill
        refine hrest.record fun h => ?_
        injection h with hcall hfile hdownloaded
        rw [← hcall, ← hfile, ← hdownloaded]
        refine ⟨?_, hi.ready (hui ▸ List.mem_cons_self)⟩
        by_contra hne
        exact hstill (by simp [hne])
    | installFailed => exact hrest.of_same (fun h => h) (fun h => h) rfl
  · exact hi

/-- **A step keeps the installations in order.** -/
theorem step (hi : Installs d s) (event : Event) : Installs d (step d s event) := by
  cases event with
  | check force initialized now done => exact hi.check force initialized now done
  | download initialized time => exact hi.download initialized time
  | cancel => exact hi.of_same (fun h => h) (fun h => h) rfl
  | install finishing permitted => exact hi.install finishing permitted
  | worker event => exact hi.workerStep event
  | ui now activityGone => exact hi.uiStep now activityGone

end Installs

/-! ### The progress of older downloads -/

/-- **Older downloads**: each wrote the progress once at most after its generation was over. -/
structure Stale (s : State) : Prop where
  /-- No download did so twice. -/
  nodup : s.stale.Nodup
  /-- Their generations are over. -/
  past : ∀ {t}, t ∈ s.stale → t < s.generation
  /-- Their tasks were taken. -/
  taken : ∀ {t}, t ∈ s.stale → ∀ entry, .download t entry ∉ s.queue
  /-- They do not write it again. -/
  once : ∀ {dl received}, s.current = some dl → dl.stage = .written received → dl.token ∉ s.stale

namespace Stale

/-- Generations only grow, and a new task is of a new one. -/
lemma of_grow (hs : Stale s) (hgeneration : s.generation ≤ s'.generation)
    (hqueue : ∀ {t entry}, .download t entry ∈ s'.queue → .download t entry ∈ s.queue ∨ s.generation < t)
    (hcurrent : s'.current = s.current) (hstale : s'.stale = s.stale) : Stale s' where
  nodup := by rw [hstale]; exact hs.nodup
  past := fun hmem => by
    rw [hstale] at hmem
    exact (hs.past hmem).trans_le hgeneration
  taken := fun hmem entry htask => by
    rw [hstale] at hmem
    rcases hqueue htask with htask | hlt
    · exact hs.taken hmem entry htask
    · exact absurd (hs.past hmem) (by omega)
  once := by rw [hcurrent, hstale]; exact hs.once

/-- The download in work ends, or another one begins. -/
lemma of_current (hs : Stale s) (hgeneration : s'.generation = s.generation)
    (hqueue : ∀ {t entry}, .download t entry ∈ s'.queue → .download t entry ∈ s.queue)
    (hcurrent : ∀ {dl received}, s'.current = some dl → dl.stage = .written received → dl.token = s.generation)
    (hstale : s'.stale = s.stale) : Stale s' where
  nodup := by rw [hstale]; exact hs.nodup
  past := by rw [hstale, hgeneration]; exact hs.past
  taken := fun hmem entry htask => by
    rw [hstale] at hmem
    exact hs.taken hmem entry (hqueue htask)
  once := fun hdl hstage hmem => by
    rw [hstale] at hmem
    exact absurd (hs.past hmem) (by rw [hcurrent hdl hstage]; exact lt_irrefl _)

lemma check (hs : Stale s) (force initialized : Bool) (now : ℤ) (done : Option Runnable) :
    Stale (check s force initialized now done) := by
  have hrun : ∀ {s : State}, Stale s → Stale (runNow s done) := by
    intro s hs
    cases done with
    | none => exact hs
    | some done => exact hs.of_grow le_rfl Or.inl rfl rfl
  have hadd : Stale (addCallback s done) := by
    cases done with
    | none => exact hs
    | some done => exact hs.of_grow le_rfl Or.inl rfl rfl
  unfold AndroidUpdates.check
  split
  · exact hrun (hs.of_grow le_rfl Or.inl rfl rfl)
  split
  · exact hrun hs
  · dsimp only
    split
    · exact hadd
    · refine hadd.of_grow le_rfl (fun hmem => ?_) rfl rfl
      rcases List.mem_append.mp hmem with hmem | hmem
      · exact Or.inl hmem
      · cases List.mem_singleton.mp hmem

lemma download (hs : Stale s) (initialized : Bool) (time : ℤ) : Stale (download s initialized time) := by
  unfold AndroidUpdates.download
  split
  · exact hs
  split
  · exact hs
  split
  · exact hs
  · refine hs.of_grow (Nat.le_succ _) (fun hmem => ?_) rfl rfl
    rcases List.mem_append.mp hmem with hmem | hmem
    · exact Or.inl hmem
    · obtain ⟨htoken, -⟩ := Task.download.inj (List.mem_singleton.mp hmem)
      exact Or.inr (htoken ▸ Nat.lt_succ_self _)

lemma install (hs : Stale s) (finishing permitted : Bool) : Stale (install s finishing permitted) := by
  unfold AndroidUpdates.install
  split
  · split
    · exact hs
    · refine hs.of_grow le_rfl (fun hmem => ?_) rfl rfl
      rcases List.mem_append.mp hmem with hmem | hmem
      · exact Or.inl hmem
      · cases List.mem_singleton.mp hmem
  · exact hs

/-- **A report** of an older download is its last one: the block was accepted before its generation was over,
and the next one will not be. -/
lemma worked (hs : Stale s) (ho : Offered d s) (hw : Worked d s s') : Stale s' := by
  have hrest : ∀ {task : Task} {rest : List Task}, s.queue = task :: rest →
      ∀ {t entry}, .download t entry ∈ rest → .download t entry ∈ s.queue :=
    fun hqueue _ _ hmem => hqueue ▸ List.mem_cons_of_mem _ hmem
  cases hw with
  | idle => exact hs
  | checked hqueue => exact hs.of_grow le_rfl (fun hmem => Or.inl (hrest hqueue hmem)) rfl rfl
  | refused hqueue => exact hs.of_grow le_rfl (fun hmem => Or.inl (hrest hqueue hmem)) rfl rfl
  | approved hqueue hv => exact hs.of_grow le_rfl (fun hmem => Or.inl (hrest hqueue hmem)) rfl rfl
  | begun hqueue =>
    refine hs.of_current rfl (hrest hqueue) (fun hdl hstage => ?_) rfl
    rw [← Option.some.inj hdl] at hstage
    cases hstage
  | notBegun hqueue => exact hs.of_current rfl (hrest hqueue) (fun hdl => by cases hdl) rfl
  | advanced hcurrent hstage =>
    refine hs.of_current rfl (fun h => h) (fun hdl hwritten => ?_) rfl
    rw [← Option.some.inj hdl] at hwritten ⊢
    exact hstage hwritten
  | ended => exact hs.of_current rfl (fun h => h) (fun hdl => by cases hdl) rfl
  | reported hcurrent hstage hui =>
    rename_i dl received progress ui
    have hmem : dl.token ∈ tokens s := token_inWork hcurrent
    have hnotQueued : ∀ entry, .download dl.token entry ∉ s.queue := by
      intro entry htask
      have hnodup := ho.nodup
      unfold tokens at hnodup
      have hdisjoint := (List.nodup_append.mp hnodup).2.2
      refine hdisjoint dl.token (List.mem_filterMap.mpr ⟨_, htask, rfl⟩) dl.token ?_ rfl
      simp [hcurrent]
    refine ⟨?_, ?_, ?_, fun hdl hwritten => ?_⟩
    · show (if dl.token ≠ s.generation then s.stale ++ [dl.token] else s.stale).Nodup
      split
      · exact hs.nodup.append (List.nodup_singleton _) (by simpa using hs.once hcurrent hstage)
      · exact hs.nodup
    · intro t ht
      have ht : t ∈ if dl.token ≠ s.generation then s.stale ++ [dl.token] else s.stale := ht
      show t < s.generation
      split at ht
      · rename_i hne
        rcases List.mem_append.mp ht with ht | ht
        · exact hs.past ht
        · rw [List.mem_singleton.mp ht]
          exact lt_of_le_of_ne (ho.past hmem) hne
      · exact hs.past ht
    · intro t ht entry
      have ht : t ∈ if dl.token ≠ s.generation then s.stale ++ [dl.token] else s.stale := ht
      split at ht
      · rcases List.mem_append.mp ht with ht | ht
        · exact hs.taken ht entry
        · rw [List.mem_singleton.mp ht]
          exact hnotQueued entry
      · exact hs.taken ht entry
    · rw [← Option.some.inj hdl] at hwritten
      cases hwritten

lemma uiStep (hs : Stale s) (now : ℤ) (activityGone : Bool) : Stale (uiStep s now activityGone) := by
  unfold AndroidUpdates.uiStep
  split
  · exact hs.of_grow le_rfl Or.inl rfl rfl
  · rename_i callback rest _ _
    have hrest : Stale { s with ui := rest } := hs.of_grow le_rfl Or.inl rfl rfl
    cases callback with
    | checkDone checked cached failed =>
      unfold runCallback checkDone
      dsimp only
      split
      · exact hrest.of_grow le_rfl Or.inl rfl rfl
      · unfold adopt
        dsimp only
        split
        · exact hrest.of_grow (Nat.le_succ _) Or.inl rfl rfl
        · split <;> exact hrest.of_grow le_rfl Or.inl rfl rfl
    | notifyProgress => exact hrest
    | downloadDone t ready =>
      unfold runCallback downloadDone
      dsimp only
      split
      · exact hrest
      · exact hrest.of_grow le_rfl Or.inl rfl rfl
    | installReady call file =>
      unfold runCallback installReady
      dsimp only
      split
      · exact hrest
      · exact hrest.of_grow le_rfl Or.inl rfl rfl
    | installFailed => exact hrest.of_grow le_rfl Or.inl rfl rfl
  · exact hs

/-- **A step keeps the order of reports.** -/
theorem step (hs : Stale s) (ho : Offered d s) (event : Event) : Stale (step d s event) := by
  cases event with
  | check force initialized now done => exact hs.check force initialized now done
  | download initialized time => exact hs.download initialized time
  | cancel => exact hs.of_grow (Nat.le_succ _) Or.inl rfl rfl
  | install finishing permitted => exact hs.install finishing permitted
  | worker event => exact hs.worked ho (workerStep_worked d s event)
  | ui now activityGone => exact hs.uiStep now activityGone

end Stale

end AndroidUpdates
