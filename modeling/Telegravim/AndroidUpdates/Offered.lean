import Mathlib.Data.List.Nodup
import Mathlib.Data.List.Perm.Basic
import Telegravim.AndroidUpdates.Controller

set_option autoImplicit false

/-!
# What the updater offers

The package that is offered was validated for an entry of the version and digest that is offered. A download of
the current generation is one for this entry: a check that finds another one ends the generation, so that the
callback of the download is ignored. While no download is on its way nothing that is pending is of the current
generation.

## Main definitions

* `AndroidUpdates.tokens` — the generations of the downloads that are pending.
* `AndroidUpdates.Offered` — what holds of packages and downloads.

## Main results

* `AndroidUpdates.Offered.workerStep`, `AndroidUpdates.Offered.uiStep` — both threads keep it.
-/

namespace AndroidUpdates

/-! ### Pending downloads -/

/-- The generation of a task. -/
def Task.token : Task → Option ℕ
  | .download token _ => some token
  | _ => none

/-- The generation of a callback. -/
def Callback.token : Callback → Option ℕ
  | .downloadDone token _ => some token
  | _ => none

/-- The generations of the downloads that are pending: of tasks, of the download in work, of callbacks. -/
def tokens (s : State) : List ℕ :=
  s.queue.filterMap Task.token ++ ((s.current.map Download.token).toList ++ s.ui.filterMap Callback.token)

lemma token_queued {s : State} {t : ℕ} {entry : Entry} (h : .download t entry ∈ s.queue) : t ∈ tokens s :=
  List.mem_append_left _ (List.mem_filterMap.mpr ⟨.download t entry, h, rfl⟩)

lemma token_inWork {s : State} {dl : Download} (h : s.current = some dl) : dl.token ∈ tokens s := by
  simp [tokens, h]

lemma token_done {s : State} {t : ℕ} {ready : Option File} (h : .downloadDone t ready ∈ s.ui) : t ∈ tokens s :=
  List.mem_append_right _ (List.mem_append_right _ (List.mem_filterMap.mpr ⟨.downloadDone t ready, h, rfl⟩))

/-- Two entries have the same version and digest. -/
def Same (a b : Entry) : Prop :=
  a.versionCode = b.versionCode ∧ a.sha256 = b.sha256

lemma Same.refl (a : Entry) : Same a a :=
  ⟨rfl, rfl⟩

lemma Same.trans {a b c : Entry} (hab : Same a b) (hbc : Same b c) : Same a c :=
  ⟨hab.1.trans hbc.1, hab.2.trans hbc.2⟩

/-- A validation that was made: the package passed the checks. -/
def Validation.Valid (d : Device) (v : Validation) : Prop :=
  validateApk d v.time (some v.content) v.entry = true

/-- The package was validated for an entry of the version and digest of this one. -/
def Backed (s : State) (file : File) (entry : Entry) : Prop :=
  ∃ v ∈ s.validations, v.file = file ∧ Same v.entry entry

/-- An entry of the version and digest of this one is offered. -/
def Offers (s : State) (entry : Entry) : Prop :=
  ∃ offered, s.available = some offered ∧ Same entry offered

/-- What a download has checked so far. -/
def Download.Checked (d : Device) (s : State) (dl : Download) : Prop :=
  match dl.stage with
  | .validated time | .checked time => validateApk d time (s.disk (.part dl.token)) dl.entry = true
  | _ => True

/-- **What holds of packages and downloads.** -/
structure Offered (d : Device) (s : State) : Prop where
  /-- Validations were made. -/
  valid : ∀ v ∈ s.validations, v.Valid d
  /-- The package that is offered was validated for the entry that is offered. -/
  offered : ∀ {file}, s.downloaded = some file → ∃ entry, s.available = some entry ∧ Backed s file entry
  /-- Generations are not pending twice. -/
  nodup : (tokens s).Nodup
  /-- No generation is to come. -/
  past : ∀ {t}, t ∈ tokens s → t ≤ s.generation
  /-- A download of the current generation is the one that is on its way. -/
  current : s.generation ∈ tokens s → s.downloading = true
  /-- A task of the current generation is for what is offered. -/
  queued : ∀ {entry}, .download s.generation entry ∈ s.queue → Offers s entry
  /-- So is the download in work. -/
  inWork : ∀ {dl}, s.current = some dl → dl.token = s.generation → Offers s dl.entry
  /-- What the download in work has checked so far. -/
  checked : ∀ {dl}, s.current = some dl → dl.Checked d s
  /-- A package that was downloaded in the current generation was validated for what is offered. -/
  ready : ∀ {file}, .downloadDone s.generation (some file) ∈ s.ui →
    ∃ entry, s.available = some entry ∧ Backed s file entry
  /-- A package that a check found was validated for its entry. -/
  cached : ∀ {checked file failed}, .checkDone checked (some file) failed ∈ s.ui →
    ∃ entry, checked = some entry ∧ Backed s file entry

namespace Offered

variable {d : Device} {s s' : State}

/-- A step that changes neither what is pending nor what is offered. -/
lemma of_same (ho : Offered d s) (havailable : s'.available = s.available) (hdownloaded : s'.downloaded = s.downloaded)
    (hdownloading : s'.downloading = s.downloading) (hgeneration : s'.generation = s.generation)
    (hqueue : s'.queue = s.queue) (hcurrent : s'.current = s.current) (hui : s'.ui = s.ui)
    (hdisk : s'.disk = s.disk) (hvalidations : s'.validations = s.validations) : Offered d s' := by
  have hbacked : ∀ {file entry}, Backed s file entry → Backed s' file entry := by
    intro file entry ⟨v, hv, hsame⟩
    exact ⟨v, hvalidations ▸ hv, hsame⟩
  have hoffers : ∀ {entry}, Offers s entry → Offers s' entry := by
    intro entry ⟨offered, hoffered, hsame⟩
    exact ⟨offered, havailable.trans hoffered, hsame⟩
  have htokens : tokens s' = tokens s := by
    unfold tokens
    rw [hqueue, hcurrent, hui]
  refine ⟨?_, ?_, ?_, ?_, ?_, ?_, ?_, ?_, ?_, ?_⟩
  · rw [hvalidations]
    exact ho.valid
  · intro file hfile
    obtain ⟨entry, hentry, hback⟩ := ho.offered (hdownloaded.symm.trans hfile)
    exact ⟨entry, havailable.trans hentry, hbacked hback⟩
  · rw [htokens]
    exact ho.nodup
  · rw [htokens, hgeneration]
    exact ho.past
  · rw [htokens, hgeneration, hdownloading]
    exact ho.current
  · rw [hgeneration, hqueue]
    exact fun hmem => hoffers (ho.queued hmem)
  · rw [hgeneration, hcurrent]
    exact fun hdl htoken => hoffers (ho.inWork hdl htoken)
  · intro dl hdl
    unfold Download.Checked
    rw [hdisk]
    exact ho.checked (hcurrent.symm.trans hdl)
  · rw [hgeneration, hui]
    intro file hmem
    obtain ⟨entry, hentry, hback⟩ := ho.ready hmem
    exact ⟨entry, havailable.trans hentry, hbacked hback⟩
  · rw [hui]
    intro checked file failed hmem
    obtain ⟨entry, hentry, hback⟩ := ho.cached hmem
    exact ⟨entry, hentry, hbacked hback⟩

/-! ### Calls -/

/-- A task that is no download is queued. -/
lemma enqueue (ho : Offered d s) (task : Task) (htask : task.token = none) :
    Offered d { s with queue := s.queue ++ [task] } := by
  have htokens : tokens { s with queue := s.queue ++ [task] } = tokens s := by
    simp [tokens, List.filterMap_append, htask]
  exact { ho with
    nodup := htokens ▸ ho.nodup
    past := fun hmem => ho.past (htokens ▸ hmem)
    current := fun hmem => ho.current (htokens ▸ hmem)
    queued := fun {entry} hmem => by
      rcases List.mem_append.mp hmem with hmem | hmem
      · exact ho.queued hmem
      · rw [← List.mem_singleton.mp hmem] at htask
        cases htask }

lemma runNow (ho : Offered d s) (done : Option Runnable) : Offered d (runNow s done) := by
  cases done with
  | none => exact ho
  | some done => exact ho.of_same rfl rfl rfl rfl rfl rfl rfl rfl rfl

lemma addCallback (ho : Offered d s) (done : Option Runnable) : Offered d (addCallback s done) := by
  cases done with
  | none => exact ho
  | some done => exact ho.of_same rfl rfl rfl rfl rfl rfl rfl rfl rfl

lemma check (ho : Offered d s) (force initialized : Bool) (now : ℤ) (done : Option Runnable) :
    Offered d (check s force initialized now done) := by
  unfold AndroidUpdates.check
  split
  · have herror : Offered d { s with error := true } := ho.of_same rfl rfl rfl rfl rfl rfl rfl rfl rfl
    exact herror.runNow done
  split
  · exact ho.runNow done
  · have hadded := ho.addCallback done
    dsimp only
    split
    · exact hadded
    · have hqueued := hadded.enqueue .check rfl
      exact hqueued.of_same rfl rfl rfl rfl rfl rfl rfl rfl rfl

/-- **A download is asked for**: it is for what is offered, and the only one of its generation. -/
lemma download (ho : Offered d s) (initialized : Bool) (time : ℤ) : Offered d (download s initialized time) := by
  unfold AndroidUpdates.download
  cases havailable : s.available with
  | none => exact ho
  | some entry =>
    dsimp only
    split
    · exact ho
    split
    · exact ho
    set s' : State := { s with
      generation := s.generation + 1
      downloading := true
      progress := 0
      downloaded := none
      queue := s.queue ++ [.download (s.generation + 1) entry] } with hs'
    have hperm : (tokens s').Perm ((s.generation + 1) :: tokens s) := by
      simp only [tokens, hs', List.filterMap_append, List.filterMap_cons, Task.token, List.filterMap_nil,
        List.append_assoc, List.singleton_append]
      exact List.perm_middle
    have hnew : s.generation + 1 ∉ tokens s := fun hmem => absurd (ho.past hmem) (by omega)
    refine ⟨ho.valid, (fun hfile => by cases hfile), ?_, ?_, fun _ => rfl, ?_, ?_, ho.checked, ?_, ho.cached⟩
    · exact hperm.nodup_iff.mpr (List.nodup_cons.mpr ⟨hnew, ho.nodup⟩)
    · intro t hmem
      rcases List.mem_cons.mp (hperm.mem_iff.mp hmem) with rfl | hmem
      · exact le_rfl
      · exact (ho.past hmem).trans (Nat.le_succ _)
    · intro entry' hmem
      rcases List.mem_append.mp hmem with hmem | hmem
      · exact absurd (token_queued hmem) hnew
      · obtain ⟨-, rfl⟩ := Task.download.inj (List.mem_singleton.mp hmem)
        exact ⟨entry', rfl, Same.refl _⟩
    · intro dl hdl htoken
      have hmem : dl.token ∈ tokens s := token_inWork hdl
      have htoken : dl.token = s.generation + 1 := htoken
      exact absurd (htoken ▸ hmem) hnew
    · exact fun hmem => absurd (token_done (s := s) hmem) hnew

/-- A generation ends: nothing that is pending is of the next one. -/
lemma nextGeneration (ho : Offered d s) (hgeneration : s'.generation = s.generation + 1)
    (hvalid : ∀ v ∈ s'.validations, v.Valid d)
    (hoffered : ∀ {file}, s'.downloaded = some file → ∃ entry, s'.available = some entry ∧ Backed s' file entry)
    (hqueue : s'.queue = s.queue) (hcurrent : s'.current = s.current) (hui : s'.ui = s.ui)
    (hdisk : s'.disk = s.disk) (hvalidations : s'.validations = s.validations) : Offered d s' := by
  have htokens : tokens s' = tokens s := by
    unfold tokens
    rw [hqueue, hcurrent, hui]
  have hnew : s'.generation ∉ tokens s' := by
    rw [htokens, hgeneration]
    exact fun hmem => absurd (ho.past hmem) (by omega)
  refine ⟨hvalid, hoffered, htokens ▸ ho.nodup, ?_, fun hmem => absurd hmem hnew, ?_, ?_, ?_, ?_, ?_⟩
  · intro t hmem
    rw [hgeneration]
    exact (ho.past (htokens ▸ hmem)).trans (Nat.le_succ _)
  · exact fun hmem => absurd (token_queued hmem) hnew
  · exact fun hdl htoken => absurd (htoken ▸ token_inWork hdl) hnew
  · intro dl hdl
    unfold Download.Checked
    rw [hdisk]
    exact ho.checked (hcurrent.symm.trans hdl)
  · exact fun hmem => absurd (token_done hmem) hnew
  · rw [hui]
    intro checked file failed hmem
    obtain ⟨entry, hentry, v, hv, hback⟩ := ho.cached hmem
    exact ⟨entry, hentry, v, hvalidations ▸ hv, hback⟩

lemma cancel (ho : Offered d s) : Offered d (cancel s) :=
  ho.nextGeneration rfl ho.valid ho.offered rfl rfl rfl rfl rfl

lemma install (ho : Offered d s) (finishing permitted : Bool) : Offered d (install s finishing permitted) := by
  unfold AndroidUpdates.install
  split
  · split
    · exact ho
    · rename_i file entry _ _ _
      have hqueued := ho.enqueue (.install s.calls file entry) rfl
      exact hqueued.of_same rfl rfl rfl rfl rfl rfl rfl rfl rfl
  · exact ho

/-! ### The worker -/

/-- A callback that is not of a download is posted. -/
lemma post (ho : Offered d s) {callback : Callback} (htoken : callback.token = none)
    (hcached : ∀ {checked file failed}, callback = .checkDone checked (some file) failed →
      ∃ entry, checked = some entry ∧ Backed s file entry) : Offered d (post s callback) := by
  have htokens : tokens (AndroidUpdates.post s callback) = tokens s := by
    simp [tokens, AndroidUpdates.post, List.filterMap_append, htoken]
  exact { ho with
    nodup := htokens ▸ ho.nodup
    past := fun hmem => ho.past (htokens ▸ hmem)
    current := fun hmem => ho.current (htokens ▸ hmem)
    ready := fun hmem => by
      rcases List.mem_append.mp hmem with hmem | hmem
      · exact ho.ready hmem
      · rw [← List.mem_singleton.mp hmem] at htoken
        cases htoken
    cached := fun hmem => by
      rcases List.mem_append.mp hmem with hmem | hmem
      · exact ho.cached hmem
      · exact hcached (List.mem_singleton.mp hmem).symm }

/-- While no download is in work, files may change. -/
lemma setDisk (ho : Offered d s) (hcurrent : s.current = none) (disk : Path → Option (List UInt8)) :
    Offered d { s with disk := disk } :=
  { ho with
    checked := fun hdl => by
      have hnone : none = some _ := hcurrent.symm.trans hdl
      cases hnone }

/-- One more package was validated. -/
lemma addValidation (ho : Offered d s) {v : Validation} (hv : v.Valid d) :
    Offered d { s with validations := s.validations ++ [v] } := by
  have hbacked : ∀ {file entry}, Backed s file entry →
      Backed { s with validations := s.validations ++ [v] } file entry := by
    intro file entry ⟨v', hv', hsame⟩
    exact ⟨v', List.mem_append_left _ hv', hsame⟩
  exact { ho with
    valid := fun v' hmem => by
      rcases List.mem_append.mp hmem with hmem | hmem
      · exact ho.valid v' hmem
      · rw [List.mem_singleton.mp hmem]
        exact hv
    offered := fun hfile => by
      obtain ⟨entry, hentry, hback⟩ := ho.offered hfile
      exact ⟨entry, hentry, hbacked hback⟩
    ready := fun hmem => by
      obtain ⟨entry, hentry, hback⟩ := ho.ready hmem
      exact ⟨entry, hentry, hbacked hback⟩
    cached := fun hmem => by
      obtain ⟨entry, hentry, hback⟩ := ho.cached hmem
      exact ⟨entry, hentry, hbacked hback⟩ }

/-- The number of `File` objects does not matter. -/
lemma setRefs (ho : Offered d s) (refs : ℕ) : Offered d { s with refs := refs } :=
  ho.of_same rfl rfl rfl rfl rfl rfl rfl rfl rfl

/-- **A check**: a package that it finds is validated. -/
lemma runCheck (ho : Offered d s) (hcurrent : s.current = none) (world : World) :
    Offered d (runCheck d world s) := by
  unfold AndroidUpdates.runCheck
  split
  · exact ho.post rfl fun h => by cases h
  · exact ho.post rfl fun h => by cases h
  · rename_i entry _
    dsimp only
    split
    · exact (ho.setRefs _).post rfl fun h => by cases h
    · rename_i content _
      split
      · rename_i hvalid
        let v : Validation :=
          { file := { ref := s.refs, versionCode := entry.versionCode }
            content := content
            entry := entry
            time := world.time }
        have hv : v.Valid d := (Bool.and_eq_true_iff.mp hvalid).1
        refine ((ho.setRefs (s.refs + 1)).addValidation hv).post rfl fun h => ?_
        injection h with hchecked hfile
        injection hfile with hfile
        exact ⟨entry, hchecked.symm, _, List.mem_append_right _ (List.mem_singleton_self _), hfile,
          Same.refl _⟩
      · exact ((ho.setRefs (s.refs + 1)).setDisk hcurrent _).post rfl fun h => by cases h

lemma runInstall (ho : Offered d s) (world : World) (call : ℕ) (file : File) (entry : Entry) :
    Offered d (runInstall d world s call file entry) := by
  unfold AndroidUpdates.runInstall
  split
  · exact ho.post rfl fun h => by cases h
  · split
    · rename_i content _ _
      have htrace : Offered d { s with trace := s.trace ++
          [.validated call { file := file, content := content, entry := entry, time := world.time }] } :=
        ho.of_same rfl rfl rfl rfl rfl rfl rfl rfl rfl
      exact htrace.post rfl fun h => by cases h
    · exact ho.post rfl fun h => by cases h

/-- The download in work among those that are pending. -/
lemma tokens_current {dl : Download} (hcurrent : s.current = some dl) :
    (tokens s).Perm (dl.token :: tokens { s with current := none }) := by
  simp only [tokens, hcurrent, Option.map_some, Option.toList_some, Option.map_none, Option.toList_none,
    List.singleton_append, List.nil_append]
  exact List.perm_middle

/-- No download is in work any more. -/
lemma dropCurrent (ho : Offered d s) {dl : Download} (hcurrent : s.current = some dl) :
    Offered d { s with current := none } ∧ dl.token ∉ tokens { s with current := none } := by
  have hperm := tokens_current hcurrent
  obtain ⟨hnew, hnodup⟩ := List.nodup_cons.mp (hperm.nodup_iff.mp ho.nodup)
  exact ⟨{ ho with
    nodup := hnodup
    past := fun hmem => ho.past (hperm.mem_iff.mpr (List.mem_cons_of_mem _ hmem))
    current := fun hmem => ho.current (hperm.mem_iff.mpr (List.mem_cons_of_mem _ hmem))
    inWork := fun hdl => by cases hdl
    checked := fun hdl => by cases hdl }, hnew⟩

/-- **A download ends**, and its callback is posted. -/
lemma endDownload (ho : Offered d { s with current := none }) {t : ℕ} {ready : Option File}
    (hnew : t ∉ tokens { s with current := none }) (hpast : t ≤ s.generation)
    (hcurrent : t = s.generation → s.downloading = true)
    (hready : ∀ {file}, ready = some file → t = s.generation →
      ∃ entry, s.available = some entry ∧ Backed s file entry) : Offered d (endDownload s t ready) := by
  have hperm : (tokens (AndroidUpdates.endDownload s t ready)).Perm (t :: tokens { s with current := none }) := by
    simp only [tokens, AndroidUpdates.endDownload, AndroidUpdates.post, Option.map_none, Option.toList_none,
      List.nil_append, List.filterMap_append, List.filterMap_cons, Callback.token, List.filterMap_nil]
    rw [← List.append_assoc]
    exact List.perm_append_singleton _ _
  exact { ho with
    nodup := hperm.nodup_iff.mpr (List.nodup_cons.mpr ⟨hnew, ho.nodup⟩)
    past := fun hmem => by
      rcases List.mem_cons.mp (hperm.mem_iff.mp hmem) with rfl | hmem
      · exact hpast
      · exact ho.past hmem
    current := fun hmem => by
      rcases List.mem_cons.mp (hperm.mem_iff.mp hmem) with heq | hmem
      · exact hcurrent heq.symm
      · exact ho.current hmem
    checked := fun hdl => by cases hdl
    ready := fun hmem => by
      rcases List.mem_append.mp hmem with hmem | hmem
      · exact ho.ready hmem
      · obtain ⟨htoken, hfile⟩ := Callback.downloadDone.inj (List.mem_singleton.mp hmem)
        exact hready hfile.symm htoken.symm
    cached := fun hmem => by
      rcases List.mem_append.mp hmem with hmem | hmem
      · exact ho.cached hmem
      · cases List.mem_singleton.mp hmem }

/-- A download fails. -/
lemma failDownload (ho : Offered d s) {dl : Download} (hcurrent : s.current = some dl) :
    Offered d (AndroidUpdates.endDownload s dl.token none) := by
  obtain ⟨hdropped, hnew⟩ := ho.dropCurrent hcurrent
  exact endDownload hdropped hnew (ho.past (token_inWork hcurrent))
    (fun htoken => ho.current (htoken ▸ token_inWork hcurrent)) fun h => by cases h

/-- A download goes on. -/
lemma advance (ho : Offered d s) {dl : Download} (hcurrent : s.current = some dl) {stage : Stage}
    (hstage : Download.Checked d s { dl with stage := stage }) : Offered d (advance s dl stage) := by
  have htokens : tokens (AndroidUpdates.advance s dl stage) = tokens s := by
    simp [tokens, AndroidUpdates.advance, hcurrent]
  exact { ho with
    nodup := htokens ▸ ho.nodup
    past := fun hmem => ho.past (htokens ▸ hmem)
    current := fun hmem => ho.current (htokens ▸ hmem)
    inWork := fun hdl htoken => by
      have hdl : some _ = some _ := hdl
      rw [← Option.some.inj hdl] at htoken ⊢
      have hoffers : Offers s dl.entry := ho.inWork hcurrent htoken
      exact hoffers
    checked := fun hdl => by
      have hdl : some _ = some _ := hdl
      rw [← Option.some.inj hdl]
      exact hstage }

/-- A task of a download begins. -/
lemma startDownload (ho : Offered d s) (hcurrent : s.current = none) {t : ℕ} {entry : Entry} (hnew : t ∉ tokens s)
    (hpast : t ≤ s.generation) (hdownloading : t = s.generation → s.downloading = true)
    (hoffers : t = s.generation → Offers s entry) (world : World) :
    Offered d (startDownload world s t entry) := by
  unfold AndroidUpdates.startDownload
  dsimp only
  have hdeleted := ho.setDisk hcurrent fun path => if world.undeleted path then s.disk path else none
  have hsame : ∀ {disk : Path → Option (List UInt8)}, tokens { s with disk := disk, current := none } = tokens s := by
    intro disk
    simp [tokens, hcurrent]
  split
  · have hperm : ∀ {s' : State}, s'.queue = s.queue → s'.ui = s.ui → s'.current.map Download.token = some t →
        (tokens s').Perm (t :: tokens s) := by
      intro s' hqueue hui hcurrent'
      simp only [tokens, hqueue, hui, hcurrent', hcurrent, Option.map_none, Option.toList_none,
        Option.toList_some, List.nil_append, List.singleton_append]
      exact List.perm_middle
    have hperm := @hperm { s with
      disk := fun path => if path = .part t then some [] else
        if world.undeleted path then s.disk path else none
      current := some { token := t, entry := entry, stage := .reading 0 } } rfl rfl rfl
    exact { ho with
      nodup := hperm.nodup_iff.mpr (List.nodup_cons.mpr ⟨hnew, ho.nodup⟩)
      past := fun hmem => by
        rcases List.mem_cons.mp (hperm.mem_iff.mp hmem) with rfl | hmem
        · exact hpast
        · exact ho.past hmem
      current := fun hmem => by
        rcases List.mem_cons.mp (hperm.mem_iff.mp hmem) with heq | hmem
        · exact hdownloading heq.symm
        · exact ho.current hmem
      inWork := fun hdl htoken => by
        have hdl : some _ = some _ := hdl
        rw [← Option.some.inj hdl] at htoken ⊢
        exact hoffers htoken
      checked := fun hdl => by
        have hdl : some _ = some _ := hdl
        rw [← Option.some.inj hdl]
        trivial }
  · refine endDownload (s := { s with disk := fun path => if world.undeleted path then s.disk path else none })
      ?_ (hsame ▸ hnew) hpast hdownloading fun h => by cases h
    exact hdeleted.of_same rfl rfl rfl rfl rfl hcurrent.symm rfl rfl rfl

/-- A task is taken from the queue. -/
lemma takeTask (ho : Offered d s) (hcurrent : s.current = none) (world : World) :
    Offered d (takeTask d world s) := by
  unfold AndroidUpdates.takeTask
  cases hqueue : s.queue with
  | nil => exact ho
  | cons task rest =>
    have htokens : ∀ {t}, t ∈ tokens { s with queue := rest } → t ∈ tokens s := by
      intro t hmem
      rcases List.mem_append.mp hmem with hmem | hmem
      · obtain ⟨task', htask', htoken⟩ := List.mem_filterMap.mp hmem
        exact List.mem_append_left _ (List.mem_filterMap.mpr
          ⟨task', hqueue ▸ List.mem_cons_of_mem _ htask', htoken⟩)
      · exact List.mem_append_right _ hmem
    have hsub : (tokens { s with queue := rest }).Sublist (tokens s) := by
      unfold tokens
      rw [hqueue]
      exact ((List.sublist_cons_self task rest).filterMap _).append (List.Sublist.refl _)
    have hrest : Offered d { s with queue := rest } := { ho with
      nodup := ho.nodup.sublist hsub
      past := fun hmem => ho.past (htokens hmem)
      current := fun hmem => ho.current (htokens hmem)
      queued := fun hmem => ho.queued (hqueue ▸ List.mem_cons_of_mem _ hmem) }
    dsimp only
    cases task with
    | check => exact hrest.runCheck hcurrent world
    | install call file entry => exact hrest.runInstall world call file entry
    | download t entry =>
      have hmem : Task.download t entry ∈ s.queue := hqueue ▸ List.mem_cons_self
      refine hrest.startDownload hcurrent ?_ (ho.past (token_queued hmem))
        (fun htoken => ho.current (htoken ▸ token_queued hmem))
        (fun htoken => by subst htoken; exact ho.queued hmem) world
      have hnodup := ho.nodup
      unfold tokens at hnodup ⊢
      rw [hqueue, List.filterMap_cons] at hnodup
      exact (List.nodup_cons.mp hnodup).1

/-- **A package takes its name**: it is the one that was validated. -/
lemma publishPackage (ho : Offered d s) {dl : Download} {time : ℤ} (hcurrent : s.current = some dl)
    (hstage : dl.stage = .checked time) (renames : Bool) : Offered d (publishPackage s dl time renames) := by
  unfold AndroidUpdates.publishPackage
  dsimp only
  have hchecked := ho.checked hcurrent
  unfold Download.Checked at hchecked
  rw [hstage] at hchecked
  cases hdisk : s.disk (.part dl.token) with
  | none => exact ho.failDownload hcurrent
  | some content =>
    dsimp only
    split
    · let v : Validation :=
        { file := { ref := s.refs, versionCode := dl.entry.versionCode }
          content := content
          entry := dl.entry
          time := time }
      have hv : v.Valid d := by
        dsimp only at hchecked
        rw [hdisk] at hchecked
        exact hchecked
      obtain ⟨hdropped, hnew⟩ := ho.dropCurrent hcurrent
      have hrenamed := ((hdropped.setRefs (s.refs + 1)).setDisk rfl fun path =>
        if path = .update dl.entry.versionCode then some content else s.disk path).addValidation hv
      refine endDownload (s := { s with
          refs := s.refs + 1
          disk := fun path => if path = .update dl.entry.versionCode then some content else s.disk path
          validations := s.validations ++ [v] }) hrenamed hnew
        (ho.past (token_inWork hcurrent)) (fun htoken => ho.current (htoken ▸ token_inWork hcurrent)) ?_
      intro file hfile htoken
      obtain ⟨offered, hoffered, hsame⟩ := ho.inWork hcurrent htoken
      exact ⟨offered, hoffered, v, List.mem_append_right _ (List.mem_singleton_self _),
        Option.some.inj hfile, hsame⟩
    · exact ho.failDownload hcurrent

/-- **A step of the worker.** -/
theorem workerStep (ho : Offered d s) (event : WorkerEvent) : Offered d (workerStep d s event) := by
  unfold AndroidUpdates.workerStep
  cases hcurrent : s.current with
  | none =>
    cases event with
    | take world => exact ho.takeTask hcurrent world
    | _ => exact ho
  | some dl =>
    dsimp only
    split
    · exact ho.advance hcurrent trivial
    · exact ho.advance hcurrent trivial
    · exact ho.failDownload hcurrent
    · unfold acceptBlock
      split
      · exact ho.failDownload hcurrent
      split
      · exact ho.failDownload hcurrent
      · rename_i received block timedOut hstage _ _
        have hwritten : Offered d (writeBlock s dl.token block) := { ho with
          checked := fun {dl'} hdl => by
            have hdl : s.current = some dl' := hdl
            obtain rfl := Option.some.inj (hcurrent.symm.trans hdl)
            unfold Download.Checked
            rw [hstage]
            trivial }
        exact hwritten.advance hcurrent trivial
    · rename_i received notify hstage
      unfold reportProgress
      dsimp only
      have hwritten : Offered d { s with
          progress := (received : ℚ) / dl.entry.size
          stale := if dl.token ≠ s.generation then s.stale ++ [dl.token] else s.stale } :=
        ho.of_same rfl rfl rfl rfl rfl rfl rfl rfl rfl
      split
      · exact (hwritten.post rfl fun h => by cases h).advance hcurrent trivial
      · exact hwritten.advance hcurrent trivial
    · split
      · rename_i hvalid
        exact ho.advance hcurrent (Bool.and_eq_true_iff.mp hvalid).1
      · exact ho.failDownload hcurrent
    · rename_i time hstage
      split
      · have hchecked := ho.checked hcurrent
        unfold Download.Checked at hchecked
        rw [hstage] at hchecked
        exact ho.advance hcurrent hchecked
      · exact ho.failDownload hcurrent
    · rename_i time renames hstage
      exact ho.publishPackage hcurrent hstage renames
    · exact ho

/-! ### The UI thread -/

/-- The callbacks of a check do not matter. -/
lemma setRunning (ho : Offered d s) (running callbacks : List Runnable) :
    Offered d { s with running := running, callbacks := callbacks } :=
  ho.of_same rfl rfl rfl rfl rfl rfl rfl rfl rfl

/-- What is posted is taken by the UI thread. -/
lemma takeCallback (ho : Offered d s) {callback : Callback} {rest : List Callback}
    (hui : s.ui = callback :: rest) : Offered d { s with ui := rest } := by
  have hsub : (tokens { s with ui := rest }).Sublist (tokens s) := by
    unfold tokens
    rw [hui]
    exact (List.Sublist.refl _).append ((List.Sublist.refl _).append
      ((List.sublist_cons_self callback rest).filterMap _))
  exact { ho with
    nodup := ho.nodup.sublist hsub
    past := fun hmem => ho.past (hsub.subset hmem)
    current := fun hmem => ho.current (hsub.subset hmem)
    ready := fun hmem => ho.ready (hui ▸ List.mem_cons_of_mem _ hmem)
    cached := fun hmem => ho.cached (hui ▸ List.mem_cons_of_mem _ hmem) }

/-- **What a check found is offered.** Another entry ends the generation. -/
lemma adopt (ho : Offered d s) (now : ℤ) {checked : Option Entry} {cached : Option File}
    (hcached : ∀ {file}, cached = some file → ∃ entry, checked = some entry ∧ Backed s file entry) :
    Offered d (adopt s now checked cached) := by
  unfold AndroidUpdates.adopt
  dsimp only
  cases hdiffers : differs s.available checked with
  | true =>
    exact ho.nextGeneration rfl ho.valid hcached rfl rfl rfl rfl rfl
  | false =>
    obtain ⟨offered, entry, hoffered, hentry, hsame⟩ : ∃ offered entry, s.available = some offered ∧
        checked = some entry ∧ Same offered entry := by
      unfold differs at hdiffers
      cases havailable : s.available with
      | none => rw [havailable] at hdiffers; cases hdiffers
      | some offered =>
        cases hchecked : checked with
        | none => rw [havailable, hchecked] at hdiffers; cases hdiffers
        | some entry =>
          rw [havailable, hchecked] at hdiffers
          simp only [Bool.or_eq_false_iff, decide_eq_false_iff_not, not_not] at hdiffers
          exact ⟨offered, entry, rfl, rfl, hdiffers⟩
    have hadopted : Offered d { s with lastSuccess := now, available := checked } := { ho with
      offered := fun hfile => by
        obtain ⟨offered', hoffered', v, hv, hfile', hsame'⟩ := ho.offered hfile
        obtain rfl := Option.some.inj (hoffered.symm.trans hoffered')
        exact ⟨entry, hentry, v, hv, hfile', hsame'.trans hsame⟩
      queued := fun hmem => by
        obtain ⟨offered', hoffered', hsame'⟩ := ho.queued hmem
        obtain rfl := Option.some.inj (hoffered.symm.trans hoffered')
        exact ⟨entry, hentry, hsame'.trans hsame⟩
      inWork := fun hdl htoken => by
        obtain ⟨offered', hoffered', hsame'⟩ := ho.inWork hdl htoken
        obtain rfl := Option.some.inj (hoffered.symm.trans hoffered')
        exact ⟨entry, hentry, hsame'.trans hsame⟩
      ready := fun hmem => by
        obtain ⟨offered', hoffered', v, hv, hfile', hsame'⟩ := ho.ready hmem
        obtain rfl := Option.some.inj (hoffered.symm.trans hoffered')
        exact ⟨entry, hentry, v, hv, hfile', hsame'.trans hsame⟩ }
    simp only [Bool.false_eq_true, if_false]
    split
    · exact hadopted
    · exact { hadopted with offered := fun hfile => hcached hfile }

/-- What was posted is run. -/
lemma runCallback (ho : Offered d s) {callback : Callback} {rest : List Callback} (hui : s.ui = callback :: rest)
    (now : ℤ) (activityGone : Bool) : Offered d (runCallback { s with ui := rest } now activityGone callback) := by
  have hrest := ho.takeCallback hui
  have hmem : callback ∈ s.ui := hui ▸ List.mem_cons_self
  cases callback with
  | checkDone checked cached failed =>
    unfold AndroidUpdates.runCallback checkDone
    dsimp only
    refine setRunning ?_ _ _
    split
    · exact hrest.of_same rfl rfl rfl rfl rfl rfl rfl rfl rfl
    · have hset : Offered d { s with ui := rest, checking := false, error := failed } :=
        hrest.of_same rfl rfl rfl rfl rfl rfl rfl rfl rfl
      refine hset.adopt now fun {file} hfile => ?_
      subst hfile
      exact ho.cached hmem
  | notifyProgress => exact hrest
  | downloadDone t ready =>
    unfold AndroidUpdates.runCallback downloadDone
    dsimp only
    split
    · exact hrest
    · rename_i htoken
      have htoken : t = s.generation := not_not.mp htoken
      subst htoken
      have hlast : s.generation ∉ tokens { s with ui := rest } := by
        have hperm : (tokens s).Perm (s.generation :: tokens { s with ui := rest }) := by
          unfold tokens
          rw [hui, List.filterMap_cons]
          simp only [Callback.token]
          rw [← List.append_assoc, ← List.append_assoc]
          exact List.perm_middle
        exact (List.nodup_cons.mp (hperm.nodup_iff.mp ho.nodup)).1
      exact { hrest with
        offered := fun {file} hfile => by
          have hfile : ready = some file := hfile
          subst hfile
          exact ho.ready hmem
        current := fun hcurrent => absurd hcurrent hlast }
  | installReady call file =>
    unfold AndroidUpdates.runCallback installReady
    dsimp only
    split
    · exact hrest
    · exact hrest.of_same rfl rfl rfl rfl rfl rfl rfl rfl rfl
  | installFailed => exact { hrest with offered := fun hfile => by cases hfile }

/-- **A step of the UI thread.** -/
theorem uiStep (ho : Offered d s) (now : ℤ) (activityGone : Bool) : Offered d (uiStep s now activityGone) := by
  unfold AndroidUpdates.uiStep
  split
  · exact ho.of_same rfl rfl rfl rfl rfl rfl rfl rfl rfl
  · rename_i callback rest _ hui
    exact ho.runCallback hui now activityGone
  · exact ho

end Offered

end AndroidUpdates
