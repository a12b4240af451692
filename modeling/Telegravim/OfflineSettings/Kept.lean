import Mathlib.Data.List.Nodup
import Mathlib.Data.List.Infix
import Telegravim.OfflineSettings.Store

set_option autoImplicit false

/-!
# What the store keeps

Every file has an owner, the call of `prepare` that staged it. Only the worker writes files of the call it is in
the middle of, and only files of plans that were given up are deleted. A plan that is ready has written and
synced the registry of a generation that extends the one it was prepared against by its own archive; when it is
published its files join those of the generations that were published before.

## Main definitions

* `OfflineSettings.Lists`, `OfflineSettings.Kept` — a registry, an archive that is kept for good.
* `OfflineSettings.Pointed` — what a pointer leads to.
* `OfflineSettings.Progress` — what a call of `prepare` has done so far.
* `OfflineSettings.Inv` — what holds of the store.

## Main results

* `OfflineSettings.Inv.prepareStep`, `OfflineSettings.Inv.apply`, `OfflineSettings.Inv.discardStep` — the
  operations keep it.
-/

namespace OfflineSettings

variable {d : Device}

/-! ### Files that are kept -/

/-- The call of `prepare` that staged a file. -/
def owner : FileName → ℕ
  | .archive name => name / 2
  | .registry name => name / 2

@[simp] lemma owner_archive (serial : ℕ) : owner (.archive (archiveName serial)) = serial := by
  show 2 * serial / 2 = serial
  omega

@[simp] lemma owner_registry (serial : ℕ) : owner (.registry (generationName serial)) = serial := by
  show (2 * serial + 1) / 2 = serial
  omega

/-- A file is written and synced. -/
def Synced (files : Files) (name : FileName) (content : Sealed) : Prop :=
  ∃ linked, files name = some { content := some content, synced := true, linked := linked }

/-- A file is complete, and survives the process. -/
def Durable (files : Files) (name : FileName) (content : Sealed) : Prop :=
  files name = some { content := some content, synced := true, linked := true }

/-- The registry of a generation, as its file has it. -/
def Lists (s : State d) (g : Uuid) (archives : List Archive) : Prop :=
  ∃ key registry, s.key = some key ∧
    Durable s.files (.registry g) { key := key, name := .registry g, plain := .registry registry } ∧
    d.registryLength registry ≤ MAX_REGISTRY ∧ registry.version = 1 ∧ registry.archives = archives

/-- An archive is kept: its file is complete and decrypts to the recorded digest. -/
def Kept (s : State d) (archive : Archive) : Prop :=
  ∃ key bytes, s.key = some key ∧
    Durable s.files (.archive archive.file)
      { key := key, name := .archive archive.file, plain := .archive bytes } ∧
    bytes.length ≤ MAX_ENCRYPTED ∧ d.digest bytes = archive.digest ∧ (bytes.length : ℤ) = archive.bytes

/-- A generation lists one list of archives only. -/
lemma Lists.unique {s : State d} {g : Uuid} {a b : List Archive} (ha : Lists s g a) (hb : Lists s g b) : a = b := by
  obtain ⟨key, registry, hkey, hfile, -, -, ha⟩ := ha
  obtain ⟨key', registry', hkey', hfile', -, -, hb⟩ := hb
  unfold Durable at hfile hfile'
  rw [hfile] at hfile'
  simp only [Option.some.injEq, FileState.mk.injEq, Sealed.mk.injEq, Plain.registry.injEq] at hfile'
  rw [← ha, ← hb, hfile'.1.2.2]

/-- What the owners of some files keep in a step. -/
structure Keeps (P : ℕ → Prop) (s s' : State d) : Prop where
  key : ∀ {k}, s.key = some k → s'.key = some k
  files : ∀ {name content}, P (owner name) → Durable s.files name content → Durable s'.files name content

namespace Keeps

variable {P Q : ℕ → Prop} {s s' : State d}

lemma of_files (hkey : s'.key = s.key) (hfiles : ∀ {name}, P (owner name) → s'.files name = s.files name) :
    Keeps P s s' where
  key := fun h => hkey.trans h
  files := fun hP hdurable => (hfiles hP).trans hdurable

lemma mono (hk : Keeps P s s') (hPQ : ∀ o, Q o → P o) : Keeps Q s s' :=
  ⟨hk.key, fun hQ => hk.files (hPQ _ hQ)⟩

lemma lists (hk : Keeps P s s') {serial : ℕ} (hP : P serial) {archives : List Archive}
    (hl : Lists s (generationName serial) archives) : Lists s' (generationName serial) archives := by
  obtain ⟨key, registry, hkey, hfile, hrest⟩ := hl
  exact ⟨key, registry, hk.key hkey, hk.files (by rwa [owner_registry]) hfile, hrest⟩

lemma kept (hk : Keeps P s s') {archive : Archive} {serial : ℕ} (hfile : archive.file = archiveName serial)
    (hP : P serial) (ha : Kept s archive) : Kept s' archive := by
  obtain ⟨key, bytes, hkey, hdurable, hrest⟩ := ha
  exact ⟨key, bytes, hk.key hkey, hk.files (by rw [hfile, owner_archive]; exact hP) hdurable, hrest⟩

end Keeps

/-! ### Generations -/

/-- What a pointer leads to: no archives, or those of a generation that was published. -/
def Pointed (s : State d) (pointer : Option Value) (archives : List Archive) : Prop :=
  (pointer = none ∧ archives = []) ∨
    ∃ p ∈ s.publications, pointer = some (.uuid p.generation) ∧ Lists s p.generation archives

/-- **A generation that was published** is complete: every archive that it lists is kept, and belongs to a
package that was published; packages are distinct; and it extends the generation it replaced by its own one. -/
structure Published (s : State d) (p : Publication d) : Prop where
  /-- Its name is the one of its call of `prepare`. -/
  name : p.generation = generationName p.serial
  /-- The call was made. -/
  made : p.serial < s.serials
  /-- It is complete. -/
  complete : ∃ archives, Lists s p.generation archives ∧
    (∀ a ∈ archives, Kept s a ∧ ∃ q ∈ s.publications, a.file = archiveName q.serial) ∧
    (archives.map Archive.id).Nodup
  /-- It extends what it replaced. -/
  extends_ : ∃ old, Pointed s (p.replaced.map .uuid) old ∧
    Lists s p.generation (old ++ [newArchive p.serial p.transfer])

/-- A plan is ready: its registry extends what it was prepared against by its own archive. -/
def Ready (s : State d) (plan : Plan d) : Prop :=
  plan.generation = some (generationName plan.serial) ∧
    ∃ old, Pointed s plan.before.pointer old ∧
      Lists s (generationName plan.serial) (old ++ [newArchive plan.serial plan.transfer]) ∧
      Kept s (newArchive plan.serial plan.transfer) ∧ plan.transfer.id ∉ old.map Archive.id

/-- What a call of `prepare` found: the archives it was prepared against, its key, and a new package. -/
def Based (s : State d) (w : Work d) : Prop :=
  Pointed s w.before.pointer w.archives ∧ s.key = some w.key ∧ w.transfer.id ∉ w.archives.map Archive.id

/-- The archive of the package was written. -/
def WroteArchive (s : State d) (w : Work d) : Prop :=
  Synced s.files (.archive (archiveName w.serial))
    { key := w.key, name := .archive (archiveName w.serial), plain := .archive w.transfer.original }

/-- The new registry was written. -/
def WroteRegistry (s : State d) (w : Work d) : Prop :=
  Synced s.files (.registry (generationName w.serial))
    { key := w.key, name := .registry (generationName w.serial), plain := .registry (newRegistry w) }

/-- **What a call of `prepare` has done so far.** -/
def Progress (s : State d) (w : Work d) : Prop :=
  match w.phase with
  | .start => True
  | .checking rest _ _ duplicate => Pointed s w.before.pointer w.archives ∧ s.key = some w.key ∧
      ∃ done, w.archives = done ++ rest ∧ (duplicate = false → w.transfer.id ∉ done.map Archive.id)
  | .createArchive | .writeArchive => Based s w
  | .createRegistry => Based s w ∧ WroteArchive s w
  | .writeRegistry =>
    Based s w ∧ WroteArchive s w ∧ d.registryLength (newRegistry w) ≤ MAX_REGISTRY
  | .sync =>
    Based s w ∧ WroteArchive s w ∧ d.registryLength (newRegistry w) ≤ MAX_REGISTRY ∧ WroteRegistry s w

/-- What holds of the call of `prepare` on the worker. -/
structure Working (s : State d) (w : Work d) : Prop where
  made : w.serial < s.serials
  notPublished : w.serial ∉ s.publications.map Publication.serial
  notPlanned : w.serial ∉ s.plans.map Plan.serial
  staged : ∀ name ∈ w.stagedFiles, owner name = w.serial
  before : ∃ archives, Pointed s w.before.pointer archives
  progress : Progress s w

/-- What holds of a plan. -/
structure Planned (s : State d) (plan : Plan d) : Prop where
  made : plan.serial < s.serials
  notPublished : plan.publicationAttempted = false → plan.serial ∉ s.publications.map Publication.serial
  staged : ∀ name ∈ plan.stagedFiles, owner name = plan.serial
  ready : plan.publicationAttempted = false → plan.discarded = false → plan.duplicate = false → Ready s plan

/-- What holds of files that are deleted: they are of a plan that was given up. -/
structure Deleting (s : State d) (x : Discarding) : Prop where
  made : x.serial < s.serials
  notPublished : x.serial ∉ s.publications.map Publication.serial
  discarded : ∀ plan ∈ s.plans, plan.serial = x.serial → plan.discarded = true
  notWorking : ∀ w, s.work = some w → w.serial ≠ x.serial
  own : ∀ name ∈ x.files, owner name = x.serial

/-- **What holds of the store.** -/
structure Inv (s : State d) : Prop where
  published : ∀ p ∈ s.publications, Published s p
  memory : ∃ archives, Pointed s s.memory.pointer archives
  stored : ∃ archives, Pointed s s.stored.pointer archives
  plans : ∀ plan ∈ s.plans, Planned s plan
  serials : (s.plans.map Plan.serial).Nodup
  work : ∀ w, s.work = some w → Working s w
  discards : ∀ x ∈ s.discards, Deleting s x
  settled : ∀ g ∈ s.settled, ∃ p ∈ s.publications, p.generation = g ∧
    ∃ archives, Lists s g archives ∧
      (∀ now, Pointed s s.memory.pointer now → archives <+: now) ∧
      (∀ now, Pointed s s.stored.pointer now → archives <+: now)

/-! ### Steps that leave published files alone -/

/-- The owners whose files must be kept: those that were published and the plans that may be. -/
def Safe (s : State d) (o : ℕ) : Prop :=
  o ∈ s.publications.map Publication.serial ∨ ∃ plan ∈ s.plans, plan.serial = o ∧ plan.discarded = false

section Frame

variable {s s' : State d} {P : ℕ → Prop}

/-- A pointer leads to the same archives. -/
lemma Pointed.keep (hi : ∀ p ∈ s.publications, Published s p) (hk : Keeps P s s')
    (hP : ∀ p ∈ s.publications, P p.serial) (hsub : ∀ p ∈ s.publications, p ∈ s'.publications)
    {pointer : Option Value} {archives : List Archive} (h : Pointed s pointer archives) :
    Pointed s' pointer archives := by
  rcases h with ⟨hnone, hnil⟩ | ⟨p, hp, hpointer, hlists⟩
  · exact Or.inl ⟨hnone, hnil⟩
  · refine Or.inr ⟨p, hsub p hp, hpointer, ?_⟩
    rw [(hi p hp).name] at hlists ⊢
    exact hk.lists (hP p hp) hlists

/-- A pointer leads to one list of archives only. -/
lemma Pointed.unique {pointer : Option Value} {a b : List Archive} (ha : Pointed s pointer a)
    (hb : Pointed s pointer b) : a = b := by
  rcases ha with ⟨hnone, rfl⟩ | ⟨p, -, hpointer, hlists⟩
  · rcases hb with ⟨-, rfl⟩ | ⟨q, -, hpointer', -⟩
    · rfl
    · rw [hnone] at hpointer'
      cases hpointer'
  · rcases hb with ⟨hnone, -⟩ | ⟨q, -, hpointer', hlists'⟩
    · rw [hnone] at hpointer
      cases hpointer
    · rw [hpointer] at hpointer'
      have hname : p.generation = q.generation := Value.uuid.inj (Option.some.inj hpointer')
      rw [← hname] at hlists'
      exact hlists.unique hlists'

/-- What was published stays complete. -/
lemma Published.keep (hi : ∀ p ∈ s.publications, Published s p) (hk : Keeps P s s')
    (hP : ∀ p ∈ s.publications, P p.serial) (hsub : ∀ p ∈ s.publications, p ∈ s'.publications)
    (hserials : s.serials ≤ s'.serials) {p : Publication d} (hp : p ∈ s.publications) : Published s' p := by
  obtain ⟨hname, hmade, ⟨archives, hlists, hkept, hnodup⟩, ⟨old, hold, hextends⟩⟩ := hi p hp
  have hlists' : ∀ {archives}, Lists s p.generation archives → Lists s' p.generation archives := by
    intro archives h
    rw [hname] at h ⊢
    exact hk.lists (hP p hp) h
  refine ⟨hname, hmade.trans_le hserials, ⟨archives, hlists' hlists, fun a ha => ?_, hnodup⟩,
    ⟨old, hold.keep hi hk hP hsub, hlists' hextends⟩⟩
  obtain ⟨hkeep, q, hq, hfile⟩ := hkept a ha
  exact ⟨hk.kept hfile (hP q hq) hkeep, q, hsub q hq, hfile⟩

/-- A plan that is ready stays so. -/
lemma Ready.keep (hi : ∀ p ∈ s.publications, Published s p) (hk : Keeps P s s')
    (hP : ∀ p ∈ s.publications, P p.serial) (hsub : ∀ p ∈ s.publications, p ∈ s'.publications)
    {plan : Plan d} (hplan : P plan.serial) (h : Ready s plan) : Ready s' plan := by
  obtain ⟨hgeneration, old, hold, hlists, hkept, hnew⟩ := h
  exact ⟨hgeneration, old, hold.keep hi hk hP hsub, hk.lists hplan hlists, hk.kept rfl hplan hkept, hnew⟩

/-- What a settled generation lists is kept by both pointers. -/
lemma Inv.settled_keep (hi : Inv s) (hk : Keeps (Safe s) s s') (hpublications : s'.publications = s.publications)
    (hmemory : s'.memory.pointer = s.memory.pointer) (hstored : s'.stored.pointer = s.stored.pointer) :
    ∀ g ∈ s.settled, ∃ p ∈ s'.publications, p.generation = g ∧ ∃ archives, Lists s' g archives ∧
      (∀ now, Pointed s' s'.memory.pointer now → archives <+: now) ∧
      (∀ now, Pointed s' s'.stored.pointer now → archives <+: now) := by
  have hsafe : ∀ p ∈ s.publications, Safe s p.serial := fun p hp => Or.inl (List.mem_map_of_mem hp)
  have hsub : ∀ p ∈ s.publications, p ∈ s'.publications := fun p hp => hpublications ▸ hp
  intro g hg
  obtain ⟨p, hp, hname, archives, hlists, hnow, hnow'⟩ := hi.settled g hg
  have hlists' : Lists s' g archives := by
    rw [← hname, (hi.published p hp).name] at hlists ⊢
    exact hk.lists (hsafe p hp) hlists
  have hsame : ∀ {pointer now old}, Pointed s pointer old → Pointed s' pointer now → Pointed s pointer now := by
    intro pointer now old hold hnow
    have heq := hnow.unique (hold.keep hi.published hk hsafe hsub)
    rw [heq]
    exact hold
  refine ⟨p, hsub p hp, hname, archives, hlists', fun now h => ?_, fun now h => ?_⟩
  · obtain ⟨old, hold⟩ := hi.memory
    rw [hmemory] at h
    exact hnow now (hsame hold h)
  · obtain ⟨old, hold⟩ := hi.stored
    rw [hstored] at h
    exact hnow' now (hsame hold h)

/-- **A step that keeps the safe files**, the plans, the publications and the pointers. -/
lemma Inv.frame (hi : Inv s) (hk : Keeps (Safe s) s s') (hpublications : s'.publications = s.publications)
    (hplans : s'.plans = s.plans) (hserials : s.serials ≤ s'.serials) (hsettled : s'.settled = s.settled)
    (hmemory : s'.memory.pointer = s.memory.pointer) (hstored : s'.stored.pointer = s.stored.pointer)
    (hwork : ∀ w, s'.work = some w → Working s' w) (hdiscards : ∀ x ∈ s'.discards, Deleting s' x) : Inv s' := by
  have hsafe : ∀ p ∈ s.publications, Safe s p.serial := fun p hp => Or.inl (List.mem_map_of_mem hp)
  have hsub : ∀ p ∈ s.publications, p ∈ s'.publications := fun p hp => hpublications ▸ hp
  refine ⟨?_, ?_, ?_, ?_, ?_, hwork, hdiscards, ?_⟩
  · intro p hp
    rw [hpublications] at hp
    exact Published.keep hi.published hk hsafe hsub hserials hp
  · obtain ⟨archives, hpointed⟩ := hi.memory
    exact ⟨archives, hmemory ▸ hpointed.keep hi.published hk hsafe hsub⟩
  · obtain ⟨archives, hpointed⟩ := hi.stored
    exact ⟨archives, hstored ▸ hpointed.keep hi.published hk hsafe hsub⟩
  · intro plan hplan
    rw [hplans] at hplan
    obtain ⟨hmade, hnot, hstaged, hready⟩ := hi.plans plan hplan
    refine ⟨hmade.trans_le hserials, hpublications ▸ hnot, hstaged, fun h1 h2 h3 => ?_⟩
    exact (hready h1 h2 h3).keep hi.published hk hsafe hsub (Or.inr ⟨plan, hplan, rfl, h2⟩)
  · rw [hplans]
    exact hi.serials
  · rw [hsettled]
    exact hi.settled_keep hk hpublications hmemory hstored

/-- The worker's own files are not safe ones. -/
lemma Working.not_safe {w : Work d} (hw : Working s w) : ¬ Safe s w.serial := by
  rintro (h | ⟨plan, hplan, hserial, -⟩)
  · exact hw.notPublished h
  · exact hw.notPlanned (hserial ▸ List.mem_map_of_mem hplan)

/-- Files that are deleted are not safe ones. -/
lemma Deleting.not_safe {x : Discarding} (hx : Deleting s x) : ¬ Safe s x.serial := by
  rintro (h | ⟨plan, hplan, hserial, hdiscarded⟩)
  · exact hx.notPublished h
  · rw [hx.discarded plan hplan hserial] at hdiscarded
    cases hdiscarded

/-- Files of other owners are the same after one file was written. -/
lemma setFile_other {files : Files} {name other : FileName} {file : Option FileState}
    (hne : owner other ≠ owner name) : setFile files name file other = files other :=
  if_neg fun h => hne (congrArg owner h)

/-- What a call of `prepare` has done stays done while its files are left alone. -/
lemma Progress.keep (hi : ∀ p ∈ s.publications, Published s p) (hk : Keeps (Safe s) s s')
    (hsub : ∀ p ∈ s.publications, p ∈ s'.publications) {w : Work d}
    (hfiles : ∀ {name}, owner name = w.serial → s'.files name = s.files name) (h : Progress s w) :
    Progress s' w := by
  have hsafe : ∀ p ∈ s.publications, Safe s p.serial := fun p hp => Or.inl (List.mem_map_of_mem hp)
  have hpointed : ∀ {archives}, Pointed s w.before.pointer archives → Pointed s' w.before.pointer archives :=
    fun h => h.keep hi hk hsafe hsub
  have hbased : Based s w → Based s' w := fun ⟨h1, h2, h3⟩ => ⟨hpointed h1, hk.key h2, h3⟩
  have harchive : WroteArchive s w → WroteArchive s' w := fun ⟨linked, h⟩ =>
    ⟨linked, (hfiles (owner_archive _)).trans h⟩
  have hregistry : WroteRegistry s w → WroteRegistry s' w := fun ⟨linked, h⟩ =>
    ⟨linked, (hfiles (owner_registry _)).trans h⟩
  unfold Progress at h ⊢
  cases hphase : w.phase with
  | start => trivial
  | checking rest packageIds total duplicate =>
    rw [hphase] at h
    exact ⟨hpointed h.1, hk.key h.2.1, h.2.2⟩
  | createArchive =>
    rw [hphase] at h
    exact hbased h
  | writeArchive =>
    rw [hphase] at h
    exact hbased h
  | createRegistry =>
    rw [hphase] at h
    exact ⟨hbased h.1, harchive h.2⟩
  | writeRegistry =>
    rw [hphase] at h
    exact ⟨hbased h.1, harchive h.2.1, h.2.2⟩
  | sync =>
    rw [hphase] at h
    exact ⟨hbased h.1, harchive h.2.1, h.2.2.1, hregistry h.2.2.2⟩

/-- A call of `prepare` stays in order while its files are left alone. -/
lemma Working.keep (hi : ∀ p ∈ s.publications, Published s p) (hk : Keeps (Safe s) s s')
    (hsub : ∀ p ∈ s.publications, p ∈ s'.publications) (hserials : s.serials ≤ s'.serials) {w : Work d}
    (hfiles : ∀ {name}, owner name = w.serial → s'.files name = s.files name)
    (hnotPublished : w.serial ∉ s'.publications.map Publication.serial)
    (hnotPlanned : w.serial ∉ s'.plans.map Plan.serial) (hw : Working s w) : Working s' w := by
  have hsafe : ∀ p ∈ s.publications, Safe s p.serial := fun p hp => Or.inl (List.mem_map_of_mem hp)
  obtain ⟨archives, hpointed⟩ := hw.before
  exact ⟨hw.made.trans_le hserials, hnotPublished, hnotPlanned, hw.staged,
    ⟨archives, hpointed.keep hi hk hsafe hsub⟩, hw.progress.keep hi hk hsub hfiles⟩

end Frame

/-! ### Preparing -/

section Prepare

variable {s : State d} {w : Work d}

/-- The worker goes on with the call it is in the middle of, and touches files of this call only. -/
lemma Inv.goOn (hi : Inv s) (hw : s.work = some w) (s' : State d) (w' : Work d) (hserial : w'.serial = w.serial)
    (hbefore : w'.before = w.before) (hstaged : ∀ name ∈ w'.stagedFiles, owner name = w.serial)
    (hkey : ∀ {k}, s.key = some k → s'.key = some k)
    (hfiles : ∀ {name}, owner name ≠ w.serial → s'.files name = s.files name)
    (hpublications : s'.publications = s.publications) (hplans : s'.plans = s.plans)
    (hserials : s'.serials = s.serials) (hsettled : s'.settled = s.settled) (hmemory : s'.memory = s.memory)
    (hstored : s'.stored = s.stored) (hdiscards : s'.discards = s.discards) (hwork : s'.work = some w')
    (hprogress : Progress s' w') : Inv s' := by
  have hworking := hi.work w hw
  have hk : Keeps (Safe s) s s' := {
    key := hkey
    files := fun hP hdurable => by
      have hne : owner _ ≠ w.serial := fun h => hworking.not_safe (h ▸ hP)
      exact (hfiles hne).trans hdurable }
  have hsafe : ∀ p ∈ s.publications, Safe s p.serial := fun p hp => Or.inl (List.mem_map_of_mem hp)
  have hsub : ∀ p ∈ s.publications, p ∈ s'.publications := fun p hp => hpublications ▸ hp
  refine hi.frame hk hpublications hplans hserials.ge hsettled (by rw [hmemory]) (by rw [hstored]) ?_ ?_
  · intro x hx
    obtain rfl := Option.some.inj (hwork.symm.trans hx)
    obtain ⟨archives, hpointed⟩ := hworking.before
    refine ⟨by rw [hserial, hserials]; exact hworking.made, by rw [hserial, hpublications]; exact hworking.notPublished,
      by rw [hserial, hplans]; exact hworking.notPlanned, by rw [hserial]; exact hstaged, ⟨archives, ?_⟩, hprogress⟩
    rw [hbefore]
    exact hpointed.keep hi.published hk hsafe hsub
  · intro x hx
    rw [hdiscards] at hx
    obtain ⟨h1, h2, h3, h4, h5⟩ := hi.discards x hx
    refine ⟨hserials ▸ h1, hpublications ▸ h2, hplans ▸ h3, fun x' hx' => ?_, h5⟩
    obtain rfl := Option.some.inj (hwork.symm.trans hx')
    rw [hserial]
    exact h4 w hw

/-- `prepare` throws before anything was staged. -/
lemma Inv.quit (hi : Inv s) : Inv (quit s) := by
  refine hi.frame (Keeps.of_files rfl fun _ => rfl) rfl rfl le_rfl rfl rfl rfl (fun w hw => by cases hw) ?_
  intro x hx
  obtain ⟨h1, h2, h3, -, h5⟩ := hi.discards x hx
  exact ⟨h1, h2, h3, (fun w hw => by cases hw), h5⟩

/-- `prepare` throws: its files are those of no plan. -/
lemma Inv.fail (hi : Inv s) (hw : s.work = some w) {files : Files}
    (hfiles : Keeps (Safe s) s { s with files := files }) : Inv (fail { s with files := files } w) := by
  have hworking := hi.work w hw
  refine hi.frame ⟨fun h => h, fun hP h => hfiles.files hP h⟩ rfl rfl le_rfl rfl rfl rfl (fun w hw => by cases hw) ?_
  intro x hx
  rcases List.mem_append.mp hx with hx | hx
  · obtain ⟨h1, h2, h3, -, h5⟩ := hi.discards x hx
    exact ⟨h1, h2, h3, (fun w hw => by cases hw), h5⟩
  · rw [List.mem_singleton.mp hx]
    refine ⟨hworking.made, hworking.notPublished, fun plan hplan hserial => ?_, (fun w hw => by cases hw),
      hworking.staged⟩
    have hserial : plan.serial = w.serial := hserial
    exact absurd (hserial ▸ List.mem_map_of_mem hplan) hworking.notPlanned

/-- `prepare` is called. -/
lemma Inv.beginPrepare (hi : Inv s) (transfer : Package d) : Inv (beginPrepare s transfer) := by
  unfold OfflineSettings.beginPrepare
  split
  · exact hi
  · rename_i hnone
    have hnot : ∀ {α : Type} {l : List α} {f : α → ℕ}, (∀ a ∈ l, f a < s.serials) → s.serials ∉ l.map f := by
      intro α l f h hmem
      obtain ⟨a, ha, heq⟩ := List.mem_map.mp hmem
      exact absurd (h a ha) (by omega)
    have hkeeps : Keeps (Safe s) s { s with
        serials := s.serials + 1
        work := some { serial := s.serials, transfer := transfer, before := s.memory } } :=
      Keeps.of_files rfl fun _ => rfl
    have hsafe : ∀ p ∈ s.publications, Safe s p.serial := fun p hp => Or.inl (List.mem_map_of_mem hp)
    refine hi.frame hkeeps rfl rfl (Nat.le_succ _) rfl rfl rfl ?_ ?_
    · intro w hw
      obtain rfl := Option.some.inj hw
      obtain ⟨archives, hpointed⟩ := hi.memory
      exact ⟨Nat.lt_succ_self _, hnot fun p hp => (hi.published p hp).made, hnot fun plan hp => (hi.plans plan hp).made,
        (fun name h => by cases h), ⟨archives, hpointed.keep hi.published hkeeps hsafe fun p hp => hp⟩, trivial⟩
    · intro x hx
      obtain ⟨h1, h2, h3, -, h5⟩ := hi.discards x hx
      refine ⟨h1.trans (Nat.lt_succ_self _), h2, h3, fun w hw => ?_, h5⟩
      rw [← Option.some.inj hw]
      exact h1.ne'

/-- A registry that was read is the one that is pointed to. -/
lemma readRegistry_pointed {pointer : Option Value} {archives : List Archive} {previous : Uuid} {key : ℕ}
    {registry : Registry} (hpointed : Pointed s pointer archives) (hpointer : generation pointer = some (some previous))
    (hread : readEncrypted d s.files key (.registry previous) MAX_REGISTRY = some (.registry registry)) :
    Pointed s pointer registry.archives := by
  rcases hpointed with ⟨rfl, -⟩ | ⟨p, hp, rfl, hlists⟩
  · cases hpointer
  · have hname : p.generation = previous := by
      simpa [generation] using hpointer
    refine Or.inr ⟨p, hp, rfl, ?_⟩
    obtain ⟨key', registry', hkey, hfile, hlength, hversion, harchives⟩ := hlists
    rw [hname] at hfile
    unfold readEncrypted at hread
    rw [hfile] at hread
    dsimp only at hread
    split at hread
    · obtain rfl := Plain.registry.inj (Option.some.inj hread)
      rw [hname]
      exact ⟨key', registry', hkey, hfile, hlength, hversion, rfl⟩
    · cases hread

/-- **The registry that is pointed to is read.** -/
lemma Inv.startPrepare (hi : Inv s) (hw : s.work = some w) (world : World) : Inv (startPrepare s w world) := by
  have hworking := hi.work w hw
  have hcheck : ∀ {key : Option ℕ} (keys : ℕ) {k : ℕ} {archives : List Archive}, (∀ {k}, s.key = some k → key = some k) →
      key = some k → Pointed s w.before.pointer archives →
      Inv (checkArchives { s with key := key, keys := keys } w k archives) := by
    intro key keys k archives hmono hkey hpointed
    have hkeeps : Keeps (Safe s) s (checkArchives { s with key := key, keys := keys } w k archives) :=
      ⟨hmono, fun _ h => h⟩
    have hsafe : ∀ p ∈ s.publications, Safe s p.serial := fun p hp => Or.inl (List.mem_map_of_mem hp)
    refine hi.goOn hw (checkArchives { s with key := key, keys := keys } w k archives)
      { w with key := k, archives := archives, phase := .checking archives [] 0 false }
      rfl rfl hworking.staged hmono (fun _ => rfl) rfl rfl rfl rfl rfl rfl rfl rfl ?_
    exact ⟨hpointed.keep hi.published hkeeps hsafe fun p hp => hp, hkey, [], rfl, fun _ => by simp⟩
  unfold OfflineSettings.startPrepare
  split
  · exact hi.quit
  · split
    · exact hi.quit
    · rename_i hpointer hkey
      refine hcheck _ (fun h => ?_) rfl ?_
      · rw [hkey] at h
        cases h
      · obtain ⟨archives, hpointed⟩ := hworking.before
        rcases hpointed with ⟨hnone, -⟩ | ⟨p, -, hsome, -⟩
        · exact Or.inl ⟨hnone, rfl⟩
        · rw [hsome] at hpointer
          cases hpointer
    · rename_i key hpointer hkey
      refine hcheck s.keys (fun h => h) hkey ?_
      obtain ⟨archives, hpointed⟩ := hworking.before
      rcases hpointed with ⟨hnone, -⟩ | ⟨p, -, hsome, -⟩
      · exact Or.inl ⟨hnone, rfl⟩
      · rw [hsome] at hpointer
        cases hpointer
    · exact hi.quit
    · rename_i previous key hpointer hkey
      split
      · rename_i registry hread
        split
        · exact hi.quit
        · obtain ⟨archives, hpointed⟩ := hworking.before
          exact hcheck s.keys (fun h => h) hkey (readRegistry_pointed hpointed hpointer hread)
      · exact hi.quit

/-- One archive is checked. -/
lemma Inv.checkArchive (hi : Inv s) (hw : s.work = some w) (world : World) {archive : Archive} {rest : List Archive}
    {packageIds : List Uuid} {total : ℤ} {duplicate : Bool}
    (hphase : w.phase = .checking (archive :: rest) packageIds total duplicate) :
    Inv (checkArchive s w world archive rest packageIds total duplicate) := by
  have hworking := hi.work w hw
  have hprogress := hworking.progress
  unfold Progress at hprogress
  rw [hphase] at hprogress
  obtain ⟨hpointed, hkey, done, harchives, hnew⟩ := hprogress
  unfold OfflineSettings.checkArchive
  split
  · exact hi.quit
  split
  · exact hi.quit
  split
  · split
    · exact hi.quit
    split
    · exact hi.quit
    · let phase : Phase := .checking rest (archive.id :: packageIds) (total + archive.bytes)
        (duplicate || decide (archive.id = w.transfer.id))
      refine hi.goOn hw _ { w with phase := phase } rfl rfl hworking.staged (fun h => h) (fun _ => rfl)
        rfl rfl rfl rfl rfl rfl rfl rfl ?_
      refine ⟨hpointed, hkey, done ++ [archive], ?_, fun hduplicate => ?_⟩
      · rw [harchives, List.append_assoc]
        rfl
      · obtain ⟨hbefore, hid⟩ := Bool.or_eq_false_iff.mp hduplicate
        rw [List.map_append, List.mem_append, not_or]
        refine ⟨hnew hbefore, ?_⟩
        simp only [List.map_cons, List.map_nil, List.mem_singleton]
        exact fun heq => of_decide_eq_false hid heq.symm
  · exact hi.quit

/-- A plan is ready, or its package is kept already. -/
lemma Inv.finish (hi : Inv s) (hw : s.work = some w) {files : Files} {duplicate : Bool} {name : Option Uuid}
    (hfiles : Keeps (Safe s) s { s with files := files })
    (hready : duplicate = false → ∀ s' : State d, s'.files = files → s'.key = s.key →
      s'.publications = s.publications → Ready s'
        { serial := w.serial, transfer := w.transfer, before := w.before, duplicate := duplicate
          generation := name, stagedFiles := w.stagedFiles }) :
    Inv (finish { s with files := files } w duplicate name) := by
  have hworking := hi.work w hw
  set s' := OfflineSettings.finish { s with files := files } w duplicate name
  have hk : Keeps (Safe s) s s' := ⟨fun h => h, fun hP h => hfiles.files hP h⟩
  have hsafe : ∀ p ∈ s.publications, Safe s p.serial := fun p hp => Or.inl (List.mem_map_of_mem hp)
  refine ⟨?_, ?_, ?_, ?_, ?_, (fun w hw => by cases hw), ?_, ?_⟩
  · exact fun p hp => Published.keep hi.published hk hsafe (fun _ h => h) le_rfl hp
  · obtain ⟨archives, hpointed⟩ := hi.memory
    exact ⟨archives, hpointed.keep hi.published hk hsafe fun _ h => h⟩
  · obtain ⟨archives, hpointed⟩ := hi.stored
    exact ⟨archives, hpointed.keep hi.published hk hsafe fun _ h => h⟩
  · intro plan hplan
    rcases List.mem_append.mp hplan with hplan | hplan
    · obtain ⟨hmade, hnot, hstaged, hready⟩ := hi.plans plan hplan
      exact ⟨hmade, hnot, hstaged, fun h1 h2 h3 => (hready h1 h2 h3).keep hi.published hk hsafe (fun _ h => h)
        (Or.inr ⟨plan, hplan, rfl, h2⟩)⟩
    · rw [List.mem_singleton.mp hplan]
      exact ⟨hworking.made, fun _ => hworking.notPublished, hworking.staged,
        fun _ _ hduplicate => hready hduplicate s' rfl rfl rfl⟩
  · show ((s.plans ++ [_]).map Plan.serial).Nodup
    rw [List.map_append]
    exact hi.serials.append (List.nodup_singleton _) (by simpa using hworking.notPlanned)
  · intro x hx
    obtain ⟨h1, h2, h3, h4, h5⟩ := hi.discards x hx
    refine ⟨h1, h2, fun plan hplan hserial => ?_, (fun w hw => by cases hw), h5⟩
    rcases List.mem_append.mp hplan with hplan | hplan
    · exact h3 plan hplan hserial
    · rw [List.mem_singleton.mp hplan] at hserial
      exact absurd hserial (h4 w hw)
  · exact hi.settled_keep hk rfl rfl rfl

/-- The archives were checked. -/
lemma Inv.checkLimits (hi : Inv s) (hw : s.work = some w) (world : World) {packageIds : List Uuid} {total : ℤ}
    {duplicate : Bool} (hphase : w.phase = .checking [] packageIds total duplicate) :
    Inv (checkLimits s w world total duplicate) := by
  have hworking := hi.work w hw
  have hprogress := hworking.progress
  unfold Progress at hprogress
  rw [hphase] at hprogress
  obtain ⟨hpointed, hkey, done, harchives, hnew⟩ := hprogress
  unfold OfflineSettings.checkLimits
  split
  · exact hi.quit
  split
  · split
    · exact hi.quit
    · exact hi.finish hw (Keeps.of_files rfl fun _ => rfl) fun h => by cases h
  split
  · exact hi.quit
  split
  · exact hi.quit
  split
  · exact hi.quit
  · rename_i hduplicate _ _ _
    refine hi.goOn hw _ { w with phase := .createArchive } rfl rfl hworking.staged (fun h => h) (fun _ => rfl)
      rfl rfl rfl rfl rfl rfl rfl rfl ⟨hpointed, hkey, ?_⟩
    show w.transfer.id ∉ w.archives.map Archive.id
    rw [harchives, List.append_nil]
    exact hnew (Bool.eq_false_iff.mpr hduplicate)

/-- Only files of the call are written. -/
lemma keeps_setFile {name : FileName} (file : Option FileState) (hw : Working s w) (hname : owner name = w.serial) :
    Keeps (Safe s) s { s with files := setFile s.files name file } :=
  Keeps.of_files rfl fun hP => setFile_other fun h => hw.not_safe (hname ▸ h ▸ hP)

/-- A staged file is created. -/
lemma Inv.createFile (hi : Inv s) (hw : s.work = some w) (world : World) {name : FileName} {phase : Phase}
    (hname : owner name = w.serial)
    (hprogress : ∀ {s' : State d} {w' : Work d}, Keeps (Safe s) s s' → s'.publications = s.publications →
      (∀ {other}, other ≠ name → s'.files other = s.files other) → w'.phase = phase → w'.serial = w.serial →
      w'.transfer = w.transfer → w'.before = w.before → w'.key = w.key → w'.archives = w.archives →
      Progress s' w') : Inv (createFile s w world name phase) := by
  have hworking := hi.work w hw
  unfold OfflineSettings.createFile
  split
  · exact hi.fail hw (Keeps.of_files rfl fun _ => rfl)
  · let created : FileState := { content := none, synced := false, linked := false }
    refine hi.goOn hw (OfflineSettings.goOn { s with files := setFile s.files name (some created) }
      { w with stagedFiles := w.stagedFiles ++ [name] } phase)
      { w with stagedFiles := w.stagedFiles ++ [name], phase := phase } rfl rfl ?_ (fun h => h) ?_
      rfl rfl rfl rfl rfl rfl rfl rfl ?_
    · intro other hother
      rcases List.mem_append.mp hother with hother | hother
      · exact hworking.staged other hother
      · rw [List.mem_singleton.mp hother]
        exact hname
    · exact fun hne => setFile_other fun h => hne (h.trans hname)
    · have hkeeps := keeps_setFile (some created) hworking hname
      exact hprogress ⟨hkeeps.key, hkeeps.files⟩ rfl (fun hne => if_neg hne) rfl rfl rfl rfl rfl rfl

/-- A staged file is written. -/
lemma Inv.writeFile (hi : Inv s) (hw : s.work = some w) (world : World) {name : FileName} {plain : Plain}
    {phase : Phase} (hname : owner name = w.serial)
    (hprogress : ∀ {s' : State d} {w' : Work d}, Keeps (Safe s) s s' → s'.publications = s.publications →
      (∀ {other}, other ≠ name → s'.files other = s.files other) →
      Synced s'.files name { key := w.key, name := name, plain := plain } → w'.phase = phase →
      w'.serial = w.serial → w'.transfer = w.transfer → w'.before = w.before → w'.key = w.key →
      w'.archives = w.archives → Progress s' w') : Inv (writeFile s w world name plain phase) := by
  have hworking := hi.work w hw
  unfold OfflineSettings.writeFile
  dsimp only
  split
  · exact hi.fail hw (keeps_setFile _ hworking hname)
  · let content : Sealed := { key := w.key, name := name, plain := plain }
    let written : FileState := { content := some content, synced := true, linked := false }
    refine hi.goOn hw (OfflineSettings.goOn { s with files := setFile s.files name (some written) } w phase)
      { w with phase := phase } rfl rfl hworking.staged (fun h => h)
      (fun hne => setFile_other fun h => hne (h.trans hname)) rfl rfl rfl rfl rfl rfl rfl rfl ?_
    have hkeeps := keeps_setFile (some written) hworking hname
    exact hprogress ⟨hkeeps.key, hkeeps.files⟩ rfl (fun hne => if_neg hne) ⟨false, if_pos rfl⟩ rfl rfl rfl rfl
      rfl rfl

/-- What was found before stays found. -/
lemma Based.keep (hi : Inv s) {s' : State d} {w' : Work d} (hk : Keeps (Safe s) s s')
    (hpublications : s'.publications = s.publications) (htransfer : w'.transfer = w.transfer)
    (hbefore : w'.before = w.before) (hkey : w'.key = w.key) (harchives : w'.archives = w.archives)
    (h : Based s w) : Based s' w' := by
  have hsafe : ∀ p ∈ s.publications, Safe s p.serial := fun p hp => Or.inl (List.mem_map_of_mem hp)
  obtain ⟨hpointed, hkey', hnew⟩ := h
  unfold Based
  rw [htransfer, hbefore, hkey, harchives]
  exact ⟨hpointed.keep hi.published hk hsafe fun p hp => hpublications ▸ hp, hk.key hkey', hnew⟩

/-- Syncing the directory makes what was written durable. -/
lemma Synced.syncDirectory {files : Files} {name : FileName} {content : Sealed} (h : Synced files name content) :
    Durable (syncDirectory files) name content := by
  obtain ⟨linked, h⟩ := h
  unfold Durable OfflineSettings.syncDirectory
  rw [h]
  rfl

/-- What is durable stays so. -/
lemma keeps_syncDirectory (P : ℕ → Prop) : Keeps P s { s with files := syncDirectory s.files } :=
  ⟨fun h => h, fun _ h => Synced.syncDirectory ⟨true, h⟩⟩

/-- **A plan is ready** when its files were written and the directory was synced. -/
lemma Inv.ready (hi : Inv s) (hw : s.work = some w) (hphase : w.phase = .sync) {s' : State d}
    (hfiles : s'.files = syncDirectory s.files) (hkey : s'.key = s.key)
    (hpublications : s'.publications = s.publications) {plan : Plan d} (hserial : plan.serial = w.serial)
    (htransfer : plan.transfer = w.transfer) (hbefore : plan.before = w.before)
    (hname : plan.generation = some (generationName w.serial)) : Ready s' plan := by
  have hprogress := (hi.work w hw).progress
  unfold Progress at hprogress
  rw [hphase] at hprogress
  obtain ⟨⟨hpointed, hkey', hnew⟩, harchive, hlength, hregistry⟩ := hprogress
  have hk : Keeps (Safe s) s s' := by
    have hsync := keeps_syncDirectory (s := s) (Safe s)
    exact ⟨fun h => hkey.trans h, fun hP h => hfiles ▸ hsync.files hP h⟩
  have hsafe : ∀ p ∈ s.publications, Safe s p.serial := fun p hp => Or.inl (List.mem_map_of_mem hp)
  refine ⟨by rw [hname, hserial], w.archives, ?_, ?_, ?_, by rw [htransfer]; exact hnew⟩
  · rw [hbefore]
    exact hpointed.keep hi.published hk hsafe fun p hp => hpublications ▸ hp
  · rw [hserial, htransfer]
    exact ⟨w.key, newRegistry w, hkey.trans hkey', hfiles ▸ hregistry.syncDirectory, hlength, rfl, rfl⟩
  · rw [hserial, htransfer]
    exact ⟨w.key, w.transfer.original, hkey.trans hkey', hfiles ▸ harchive.syncDirectory, w.transfer.size_le,
      w.transfer.digest_eq.symm, rfl⟩

/-- **A step of `prepare`** keeps the store. -/
theorem Inv.prepareStep (hi : Inv s) (world : World) : Inv (prepareStep s world) := by
  unfold OfflineSettings.prepareStep
  split
  · exact hi
  · rename_i w hw
    have hworking := hi.work w hw
    have hprogress := hworking.progress
    unfold Progress at hprogress
    have hne : ∀ serial, FileName.archive (archiveName serial) ≠ .registry (generationName serial) :=
      fun _ h => by cases h
    split
    · exact hi.startPrepare hw world
    · rename_i hphase
      exact hi.checkArchive hw world hphase
    · rename_i hphase
      exact hi.checkLimits hw world hphase
    · rename_i hphase
      rw [hphase] at hprogress
      refine hi.createFile hw world (owner_archive _) ?_
      intro s' w' hk hpublications _ hphase' _ htransfer hbefore hkey harchives
      unfold Progress
      rw [hphase']
      exact hprogress.keep hi hk hpublications htransfer hbefore hkey harchives
    · rename_i hphase
      rw [hphase] at hprogress
      refine hi.writeFile hw world (owner_archive _) ?_
      intro s' w' hk hpublications _ hsynced hphase' hserial htransfer hbefore hkey harchives
      unfold Progress
      rw [hphase']
      refine ⟨hprogress.keep hi hk hpublications htransfer hbefore hkey harchives, ?_⟩
      unfold WroteArchive
      rw [hserial, htransfer, hkey]
      exact hsynced
    · rename_i hphase
      rw [hphase] at hprogress
      split
      · exact hi.fail hw (Keeps.of_files rfl fun _ => rfl)
      · rename_i hlength
        refine hi.createFile hw world (owner_registry _) ?_
        intro s' w' hk hpublications hother hphase' hserial htransfer hbefore hkey harchives
        unfold Progress
        rw [hphase']
        refine ⟨hprogress.1.keep hi hk hpublications htransfer hbefore hkey harchives, ?_, ?_⟩
        · obtain ⟨linked, hfile⟩ := hprogress.2
          unfold WroteArchive
          rw [hserial, htransfer, hkey]
          exact ⟨linked, (hother (hne _)).trans hfile⟩
        · unfold newRegistry at hlength ⊢
          rw [hserial, htransfer, harchives]
          exact not_lt.mp hlength
    · rename_i hphase
      rw [hphase] at hprogress
      refine hi.writeFile hw world (owner_registry _) ?_
      intro s' w' hk hpublications hother hsynced hphase' hserial htransfer hbefore hkey harchives
      unfold Progress
      rw [hphase']
      refine ⟨hprogress.1.keep hi hk hpublications htransfer hbefore hkey harchives, ?_, ?_, ?_⟩
      · obtain ⟨linked, hfile⟩ := hprogress.2.1
        unfold WroteArchive
        rw [hserial, htransfer, hkey]
        exact ⟨linked, (hother (hne _)).trans hfile⟩
      · have hlength := hprogress.2.2
        unfold newRegistry at hlength ⊢
        rw [hserial, htransfer, harchives]
        exact hlength
      · unfold WroteRegistry newRegistry
        rw [hserial, htransfer, hkey, harchives]
        exact hsynced
    · rename_i hphase
      split
      · refine hi.fail hw ?_
        split
        · exact keeps_syncDirectory _
        · exact Keeps.of_files rfl fun _ => rfl
      · exact hi.finish hw (keeps_syncDirectory _) fun _ s' hfiles hkey hpublications =>
          hi.ready hw hphase hfiles hkey hpublications rfl rfl rfl rfl

end Prepare

end OfflineSettings
