import Telegravim.OfflineSettings.Kept

set_option autoImplicit false

/-!
# Publication is atomic

Whatever plans are prepared, applied and discarded, whatever the user changes and whenever the process dies, the
stored pointer leads to a complete generation, and archives are only added. The pointer changes only together
with the preferences of a package, when nothing has changed since the package was prepared.

## Main definitions

* `OfflineSettings.Complete` — a generation whose registry and archives can all be read.
* `OfflineSettings.Atomic` — what holds of the store after any run.
* `OfflineSettings.StepAtomic` — what holds of every step.

## Main results

* `OfflineSettings.Inv.step` — a step keeps what holds of the store.
* `OfflineSettings.run_atomic` — publication is atomic and keeps every archive.
-/

namespace OfflineSettings

variable {d : Device} {s s' : State d}

/-! ### Pointers and plans -/

/-- A generation that was published, through its pointer. -/
lemma Pointed.lists {g : Uuid} {archives : List Archive} (h : Pointed s (some (.uuid g)) archives) :
    (∃ p ∈ s.publications, p.generation = g) ∧ Lists s g archives := by
  rcases h with ⟨hnone, -⟩ | ⟨p, hp, hpointer, hlists⟩
  · cases hnone
  · have hname : g = p.generation := Value.uuid.inj (Option.some.inj hpointer)
    rw [hname]
    exact ⟨⟨p, hp, rfl⟩, hlists⟩

/-- **Pointers may change places**: a step after which each of the two leads to where one of them led, and
which keeps what was published. -/
lemma Inv.pointers (hi : Inv s) (hk : Keeps (fun o => o ∈ s.publications.map Publication.serial) s s')
    (hpublications : s'.publications = s.publications) (hserials : s.serials ≤ s'.serials)
    (hmemory : s'.memory.pointer = s.memory.pointer ∨ s'.memory.pointer = s.stored.pointer)
    (hstored : s'.stored.pointer = s.memory.pointer ∨ s'.stored.pointer = s.stored.pointer)
    (hplans : ∀ plan ∈ s'.plans, Planned s' plan) (hnodup : (s'.plans.map Plan.serial).Nodup)
    (hwork : ∀ w, s'.work = some w → Working s' w) (hdiscards : ∀ x ∈ s'.discards, Deleting s' x)
    (hsettled : ∀ g ∈ s'.settled, g ∈ s.settled ∨
      (s'.memory.pointer = some (.uuid g) ∧ s'.stored.pointer = some (.uuid g))) : Inv s' := by
  have hP : ∀ p ∈ s.publications, p.serial ∈ s.publications.map Publication.serial :=
    fun p hp => List.mem_map_of_mem hp
  have hsub : ∀ p ∈ s.publications, p ∈ s'.publications := fun p hp => hpublications ▸ hp
  have hpointed : ∀ {pointer archives}, Pointed s pointer archives → Pointed s' pointer archives :=
    fun h => h.keep hi.published hk hP hsub
  obtain ⟨inMemory, hinMemory⟩ := hi.memory
  obtain ⟨onDisk, honDisk⟩ := hi.stored
  have hmemory' : ∃ archives, Pointed s' s'.memory.pointer archives := by
    rcases hmemory with heq | heq <;> rw [heq]
    · exact ⟨inMemory, hpointed hinMemory⟩
    · exact ⟨onDisk, hpointed honDisk⟩
  have hstored' : ∃ archives, Pointed s' s'.stored.pointer archives := by
    rcases hstored with heq | heq <;> rw [heq]
    · exact ⟨inMemory, hpointed hinMemory⟩
    · exact ⟨onDisk, hpointed honDisk⟩
  refine ⟨?_, hmemory', hstored', hplans, hnodup, hwork, hdiscards, ?_⟩
  · intro p hp
    rw [hpublications] at hp
    exact Published.keep hi.published hk hP hsub hserials hp
  · intro g hg
    rcases hsettled g hg with hg | ⟨hmem, hsto⟩
    · obtain ⟨p, hp, hname, archives, hlists, hnow, hnow'⟩ := hi.settled g hg
      have hlists' : Lists s' g archives := by
        rw [← hname, (hi.published p hp).name] at hlists ⊢
        exact hk.lists (hP p hp) hlists
      have hboth : ∀ {pointer}, pointer = s.memory.pointer ∨ pointer = s.stored.pointer →
          ∀ now, Pointed s' pointer now → archives <+: now := by
        intro pointer hor now h
        rcases hor with rfl | rfl
        · rw [h.unique (hpointed hinMemory)]
          exact hnow inMemory hinMemory
        · rw [h.unique (hpointed honDisk)]
          exact hnow' onDisk honDisk
      exact ⟨p, hsub p hp, hname, archives, hlists', hboth hmemory, hboth hstored⟩
    · obtain ⟨archives, h⟩ := hmemory'
      rw [hmem] at h
      obtain ⟨⟨p, hp, hname⟩, hlists⟩ := h.lists
      refine ⟨p, hp, hname, archives, hlists, fun now hnow => ?_, fun now hnow => ?_⟩
      · rw [hmem] at hnow
        rw [hnow.unique h]
      · rw [hsto] at hnow
        rw [hnow.unique h]

/-- A plan among those of which one was replaced. -/
lemma mem_set_plan {i : ℕ} {plan new other : Plan d} (hi : Inv s) (hplan : s.plans[i]? = some plan)
    (hmem : other ∈ s.plans.set i new) : other = new ∨ (other ∈ s.plans ∧ other.serial ≠ plan.serial) := by
  obtain ⟨j, hj⟩ := List.mem_iff_getElem?.mp hmem
  rw [List.getElem?_set] at hj
  split at hj
  · split at hj
    · exact Or.inl (Option.some.inj hj).symm
    · cases hj
  · rename_i hne
    refine Or.inr ⟨List.mem_of_getElem? hj, fun heq => hne ?_⟩
    have hlt : i < (s.plans.map Plan.serial).length := by
      rw [List.length_map]
      exact (List.getElem?_eq_some_iff.mp hplan).1
    refine (List.getElem?_inj hlt hi.serials).mp ?_
    rw [List.getElem?_map, List.getElem?_map, hplan, hj]
    exact congrArg some heq.symm

/-- The calls of the plans are the same. -/
lemma serials_set {i : ℕ} {plan new : Plan d} (hplan : s.plans[i]? = some plan) (hserial : new.serial = plan.serial) :
    (s.plans.set i new).map Plan.serial = s.plans.map Plan.serial := by
  apply List.ext_getElem?
  intro j
  rw [List.getElem?_map, List.getElem?_map, List.getElem?_set]
  split
  · rename_i heq
    subst heq
    rw [hplan]
    have hlt := (List.getElem?_eq_some_iff.mp hplan).1
    simp [hlt, hserial]
  · rfl

/-! ### Publishing -/

/-- **A generation is published**: the plan is ready and the preferences are those it was prepared against.
Wherever the pointers led, they lead there still, or to the new generation. -/
lemma Inv.publish (hi : Inv s) {i : ℕ} {plan : Plan d} (hplan : s.plans[i]? = some plan)
    (hattempted : plan.publicationAttempted = false) (hdiscarded : plan.discarded = false)
    (hduplicate : plan.duplicate = false) (hbefore : s.memory = plan.before) (hfiles : s'.files = s.files)
    (hkey : s'.key = s.key) (hserials : s'.serials = s.serials) (hwork : s'.work = s.work)
    (hdiscards : s'.discards = s.discards)
    (hplans : s'.plans = s.plans.set i { plan with publicationAttempted := true })
    (hpublications : s'.publications = s.publications ++ plan.generation.toList.map (publicationOf plan))
    (hmemory : s'.memory.pointer = s.memory.pointer ∨ s'.memory.pointer = plan.generation.map .uuid)
    (hstored : s'.stored.pointer = s.stored.pointer ∨ s'.stored.pointer = s.memory.pointer ∨
      s'.stored.pointer = plan.generation.map .uuid)
    (hsettled : s'.settled = s.settled ∨ (s'.settled = s.settled ++ plan.generation.toList ∧
      s'.memory.pointer = plan.generation.map .uuid ∧ s'.stored.pointer = plan.generation.map .uuid)) :
    Inv s' := by
  have hmem : plan ∈ s.plans := List.mem_of_getElem? hplan
  have hplanned := hi.plans plan hmem
  obtain ⟨hname, old, hold, hlists, hkept, hnew⟩ := hplanned.ready hattempted hdiscarded hduplicate
  rw [hname] at hpublications hmemory hstored hsettled
  simp only [Option.toList_some, List.map_cons, List.map_nil, Option.map_some] at hpublications hmemory hstored hsettled
  set p := publicationOf plan (generationName plan.serial) with hp
  have hk : Keeps (fun _ => True) s s' := Keeps.of_files hkey fun _ => by rw [hfiles]
  have hsub : ∀ q ∈ s.publications, q ∈ s'.publications := fun q hq => by
    rw [hpublications]
    exact List.mem_append_left _ hq
  have hpmem : p ∈ s'.publications := by
    rw [hpublications]
    exact List.mem_append_right _ (List.mem_singleton_self _)
  have hpointed : ∀ {pointer archives}, Pointed s pointer archives → Pointed s' pointer archives :=
    fun h => h.keep hi.published hk (fun _ _ => trivial) hsub
  have hlists' : Lists s' p.generation (old ++ [newArchive plan.serial plan.transfer]) := hk.lists trivial hlists
  have hpnew : Pointed s' (some (.uuid (generationName plan.serial)))
      (old ++ [newArchive plan.serial plan.transfer]) := Or.inr ⟨p, hpmem, rfl, hlists'⟩
  -- what the plan was prepared against is complete already
  have hbase : (∀ a ∈ old, Kept s' a ∧ ∃ q ∈ s'.publications, a.file = archiveName q.serial) ∧
      (old.map Archive.id).Nodup ∧ Pointed s' (p.replaced.map .uuid) old := by
    rcases hold with ⟨hnone, rfl⟩ | ⟨q, hq, hpointer, hlistsq⟩
    · refine ⟨fun a ha => (by cases ha), List.nodup_nil, Or.inl ⟨?_, rfl⟩⟩
      show Option.map _ ((generation plan.before.pointer).getD none) = none
      rw [hnone]
      rfl
    · obtain ⟨archives, hlistsa, hall, hnodup⟩ := (hi.published q hq).complete
      obtain rfl := hlistsq.unique hlistsa
      refine ⟨fun a ha => ?_, hnodup, ?_⟩
      · obtain ⟨hkeep, r, hr, hfile⟩ := hall a ha
        exact ⟨hk.kept hfile trivial hkeep, r, hsub r hr, hfile⟩
      · show Pointed s' (Option.map _ ((generation plan.before.pointer).getD none)) old
        rw [hpointer]
        exact hpointed (Or.inr ⟨q, hq, rfl, hlistsq⟩)
  have hothers : ∀ {x : ℕ}, x ∉ s.publications.map Publication.serial → x ≠ plan.serial →
      x ∉ s'.publications.map Publication.serial := by
    intro x hx hne
    rw [hpublications, List.map_append, List.mem_append, not_or]
    exact ⟨hx, by simpa [hp, publicationOf] using hne⟩
  refine ⟨?_, ?_, ?_, ?_, ?_, ?_, ?_, ?_⟩
  · intro q hq
    rw [hpublications] at hq
    rcases List.mem_append.mp hq with hq | hq
    · exact Published.keep hi.published hk (fun _ _ => trivial) hsub hserials.ge hq
    · rw [List.mem_singleton.mp hq]
      refine ⟨rfl, hserials ▸ hplanned.made, ⟨_, hlists', fun a ha => ?_, ?_⟩, ⟨old, hbase.2.2, hlists'⟩⟩
      · rcases List.mem_append.mp ha with ha | ha
        · exact hbase.1 a ha
        · rw [List.mem_singleton.mp ha]
          exact ⟨hk.kept rfl trivial hkept, p, hpmem, rfl⟩
      · rw [List.map_append]
        exact hbase.2.1.append (List.nodup_singleton _) (by simpa [newArchive] using hnew)
  · rcases hmemory with heq | heq <;> rw [heq]
    · obtain ⟨archives, h⟩ := hi.memory
      exact ⟨archives, hpointed h⟩
    · exact ⟨_, hpnew⟩
  · rcases hstored with heq | heq | heq <;> rw [heq]
    · obtain ⟨archives, h⟩ := hi.stored
      exact ⟨archives, hpointed h⟩
    · obtain ⟨archives, h⟩ := hi.memory
      exact ⟨archives, hpointed h⟩
    · exact ⟨_, hpnew⟩
  · intro other hother
    rw [hplans] at hother
    rcases mem_set_plan hi hplan hother with rfl | ⟨hother, hne⟩
    · exact ⟨hserials ▸ hplanned.made, (fun h => by cases h), hplanned.staged, (fun h => by cases h)⟩
    · obtain ⟨hmade, hnot, hstaged, hready⟩ := hi.plans other hother
      refine ⟨hserials ▸ hmade, fun h => hothers (hnot h) hne, hstaged, fun h1 h2 h3 => ?_⟩
      exact (hready h1 h2 h3).keep hi.published hk (fun _ _ => trivial) hsub trivial
  · rw [hplans, serials_set hplan]
    · exact hi.serials
    · rfl
  · intro w hw
    rw [hwork] at hw
    have hworking := hi.work w hw
    have hne : w.serial ≠ plan.serial := fun h => hworking.notPlanned (h ▸ List.mem_map_of_mem hmem)
    refine hworking.keep hi.published (hk.mono fun _ _ => trivial) hsub hserials.ge (fun _ => by rw [hfiles])
      (hothers hworking.notPublished hne) ?_
    rw [hplans, serials_set hplan]
    · exact hworking.notPlanned
    · rfl
  · intro x hx
    rw [hdiscards] at hx
    obtain ⟨h1, h2, h3, h4, h5⟩ := hi.discards x hx
    have hne : plan.serial ≠ x.serial := by
      intro heq
      rw [h3 plan hmem heq] at hdiscarded
      cases hdiscarded
    refine ⟨hserials ▸ h1, hothers h2 hne.symm, fun other hother hserial => ?_, hwork ▸ h4, h5⟩
    rw [hplans] at hother
    rcases mem_set_plan hi hplan hother with rfl | ⟨hother, -⟩
    · exact absurd hserial hne
    · exact h3 other hother hserial
  · have hold' : ∀ g ∈ s.settled, ∃ q ∈ s'.publications, q.generation = g ∧ ∃ archives, Lists s' g archives ∧
        (∀ now, Pointed s' s'.memory.pointer now → archives <+: now) ∧
        (∀ now, Pointed s' s'.stored.pointer now → archives <+: now) := by
      intro g hg
      obtain ⟨q, hq, hqname, archives, hlistsg, hnow, hnow'⟩ := hi.settled g hg
      have hlistsg' : Lists s' g archives := by
        rw [← hqname, (hi.published q hq).name] at hlistsg ⊢
        exact hk.lists trivial hlistsg
      have hbefore' : ∀ now, Pointed s' s.memory.pointer now → archives <+: now := by
        intro now h
        obtain ⟨m, hm⟩ := hi.memory
        rw [h.unique (hpointed hm)]
        exact hnow m hm
      have hafter : ∀ now, Pointed s' (some (.uuid (generationName plan.serial))) now → archives <+: now := by
        intro now h
        rw [h.unique hpnew]
        refine (hnow old ?_).trans (List.prefix_append _ _)
        rw [hbefore]
        exact hold
      refine ⟨q, hsub q hq, hqname, archives, hlistsg', fun now h => ?_, fun now h => ?_⟩
      · rcases hmemory with heq | heq <;> rw [heq] at h
        · exact hbefore' now h
        · exact hafter now h
      · rcases hstored with heq | heq | heq <;> rw [heq] at h
        · obtain ⟨m, hm⟩ := hi.stored
          rw [h.unique (hpointed hm)]
          exact hnow' m hm
        · exact hbefore' now h
        · exact hafter now h
    intro g hg
    rcases hsettled with heq | ⟨heq, hmem', hsto'⟩ <;> rw [heq] at hg
    · exact hold' g hg
    · rcases List.mem_append.mp hg with hg | hg
      · exact hold' g hg
      · rw [List.mem_singleton.mp hg]
        refine ⟨p, hpmem, rfl, _, hlists', fun now h => ?_, fun now h => ?_⟩
        · rw [hmem'] at h
          rw [h.unique hpnew]
        · rw [hsto'] at h
          rw [h.unique hpnew]

/-- A plan only sets the pointer to its generation. -/
lemma publish_pointer (plan : Plan d) (prefs : Prefs) :
    (publish plan prefs).pointer = plan.generation.map .uuid := by
  unfold OfflineSettings.publish
  have hset : ∀ (l : List (Portable × Bool)) (prefs : Prefs),
      (l.foldl (fun prefs preference => prefs.set preference.1 (some (.boolean preference.2))) prefs).pointer =
        prefs.pointer := by
    intro l
    induction l with
    | nil => exact fun _ => rfl
    | cons preference rest ih =>
      intro prefs
      rw [List.foldl_cons, ih]
      unfold Prefs.set
      split <;> rfl
  rw [hset]

/-- What a commit may do to the preferences in memory and on disk. -/
lemma commit_cases (s : State d) (outcome : Commit) (edit : Prefs → Prefs) :
    ∃ memory stored, commit s outcome edit = { s with memory := memory, stored := stored } ∧
      (memory = s.memory ∨ memory = edit s.memory) ∧ (stored = s.stored ∨ stored = edit s.memory) := by
  cases outcome with
  | done => exact ⟨_, _, rfl, Or.inr rfl, Or.inr rfl⟩
  | written => exact ⟨_, _, rfl, Or.inr rfl, Or.inr rfl⟩
  | unwritten => exact ⟨_, _, rfl, Or.inr rfl, Or.inl rfl⟩
  | refused => exact ⟨_, _, rfl, Or.inl rfl, Or.inl rfl⟩

/-- The plan may be published. -/
structure Current (s : State d) (i : ℕ) (plan : Plan d) : Prop where
  found : s.plans[i]? = some plan
  notAttempted : plan.publicationAttempted = false
  notDiscarded : plan.discarded = false
  notDuplicate : plan.duplicate = false
  certain : s.uncertain = false
  before : s.memory = plan.before

/-- **What `apply` does**: nothing, or a plan whose preferences are as they were is published, in memory or not,
on disk or not, and possibly rolled back. -/
lemma apply_cases (s : State d) (i : ℕ) (outcome rollback : Commit) :
    (apply s i outcome rollback).2 = s ∨ ∃ plan memory stored settled uncertain unknown,
      Current s i plan ∧
      (apply s i outcome rollback).2 = { attempt s i plan with
        memory := memory, stored := stored, settled := settled, uncertain := uncertain, unknown := unknown } ∧
      (memory = s.memory ∨ memory = publish plan s.memory) ∧
      (stored = s.stored ∨ stored = s.memory ∨ stored = publish plan s.memory) ∧
      (settled = s.settled ∨ (settled = s.settled ++ plan.generation.toList ∧
        memory = publish plan s.memory ∧ stored = publish plan s.memory)) ∧
      (unknown = true → uncertain = true ∨ s.unknown = true) ∧ (s.unknown = true → unknown = true) := by
  unfold OfflineSettings.apply
  split
  · exact Or.inl rfl
  · rename_i plan hplan
    split
    · exact Or.inl rfl
    rename_i hcertain
    split
    · exact Or.inl rfl
    rename_i hused
    split
    · exact Or.inl rfl
    rename_i hbefore
    split
    · exact Or.inl rfl
    rename_i hduplicate
    obtain ⟨hdiscarded, hattempted⟩ := Bool.or_eq_false_iff.mp (Bool.eq_false_iff.mpr hused)
    have hcurrent : Current s i plan :=
      ⟨hplan, hattempted, hdiscarded, Bool.eq_false_iff.mpr hduplicate, Bool.eq_false_iff.mpr hcertain,
        not_not.mp hbefore⟩
    refine Or.inr ⟨plan, ?_⟩
    dsimp only
    split
    · rename_i hdone
      subst hdone
      exact ⟨publish plan s.memory, publish plan s.memory, _, s.uncertain, s.unknown, hcurrent, rfl, Or.inr rfl,
        Or.inr (Or.inr rfl), Or.inr ⟨rfl, rfl, rfl⟩, fun h => Or.inr h, fun h => h⟩
    · obtain ⟨memory, stored, hcommit, hmemory, hstored⟩ :=
        commit_cases (attempt s i plan) outcome (OfflineSettings.publish plan)
      rw [hcommit]
      obtain ⟨memory', stored', hrollback, hmemory', hstored'⟩ := commit_cases
        { attempt s i plan with memory := memory, stored := stored, uncertain := true, unknown := true } rollback
        fun _ => plan.before
      refine ⟨memory', stored', s.settled, true, true, hcurrent, hrollback, ?_, ?_, Or.inl rfl,
        fun _ => Or.inl rfl, fun _ => rfl⟩
      · rcases hmemory' with rfl | rfl
        · exact hmemory
        · exact Or.inl hcurrent.before.symm
      · rcases hstored' with rfl | rfl
        · exact hstored.imp_right Or.inr
        · exact Or.inr (Or.inl hcurrent.before.symm)

/-- **A plan is applied.** -/
theorem Inv.apply (hi : Inv s) (i : ℕ) (outcome rollback : Commit) : Inv (apply s i outcome rollback).2 := by
  rcases apply_cases s i outcome rollback with heq | ⟨plan, memory, stored, settled, uncertain, unknown, hcurrent,
    heq, hmemory, hstored, hsettled, -⟩ <;> rw [heq]
  · exact hi
  · refine hi.publish hcurrent.found hcurrent.notAttempted hcurrent.notDiscarded hcurrent.notDuplicate
      hcurrent.before rfl rfl rfl rfl rfl rfl rfl ?_ ?_ ?_
    · rcases hmemory with rfl | rfl
      · exact Or.inl rfl
      · exact Or.inr (publish_pointer plan s.memory)
    · rcases hstored with rfl | rfl | rfl
      · exact Or.inl rfl
      · exact Or.inr (Or.inl rfl)
      · exact Or.inr (Or.inr (publish_pointer plan s.memory))
    · rcases hsettled with rfl | ⟨rfl, rfl, rfl⟩
      · exact Or.inl rfl
      · exact Or.inr ⟨rfl, publish_pointer plan s.memory, publish_pointer plan s.memory⟩

/-! ### Discarding -/

/-- **A plan is given up**: no commit of it was tried. -/
theorem Inv.discard (hi : Inv s) (i : ℕ) : Inv (discard s i) := by
  unfold OfflineSettings.discard
  split
  · exact hi
  rename_i plan hplan
  split
  · exact hi
  rename_i hattempted
  have hattempted : plan.publicationAttempted = false := Bool.eq_false_iff.mpr hattempted
  have hmem : plan ∈ s.plans := List.mem_of_getElem? hplan
  have hplanned := hi.plans plan hmem
  have hk : ∀ {s' : State d}, s'.files = s.files → s'.key = s.key → Keeps (fun _ => True) s s' :=
    fun hfiles hkey => Keeps.of_files hkey fun _ => by rw [hfiles]
  have hkeeps := @hk { s with
    plans := s.plans.set i { plan with discarded := true }
    discards := s.discards ++ [{ serial := plan.serial, files := plan.stagedFiles, complete := true }] } rfl rfl
  refine hi.pointers (hkeeps.mono fun _ _ => trivial) rfl le_rfl (Or.inl rfl) (Or.inr rfl) ?_ ?_ ?_ ?_
    fun g hg => Or.inl hg
  · intro other hother
    rcases mem_set_plan hi hplan hother with rfl | ⟨hother, hne⟩
    · exact ⟨hplanned.made, hplanned.notPublished, hplanned.staged, fun _ h => by cases h⟩
    · obtain ⟨hmade, hnot, hstaged, hready⟩ := hi.plans other hother
      exact ⟨hmade, hnot, hstaged, fun h1 h2 h3 =>
        (hready h1 h2 h3).keep hi.published hkeeps (fun _ _ => trivial) (fun _ h => h) trivial⟩
  · show ((s.plans.set i { plan with discarded := true }).map Plan.serial).Nodup
    rw [serials_set hplan]
    · exact hi.serials
    · rfl
  · intro w hw
    have hworking := hi.work w hw
    refine hworking.keep hi.published (hkeeps.mono fun _ _ => trivial) (fun _ h => h) le_rfl (fun _ => rfl)
      hworking.notPublished ?_
    show w.serial ∉ (s.plans.set i { plan with discarded := true }).map Plan.serial
    rw [serials_set hplan]
    · exact hworking.notPlanned
    · rfl
  · intro x hx
    rcases List.mem_append.mp hx with hx | hx
    · obtain ⟨h1, h2, h3, h4, h5⟩ := hi.discards x hx
      refine ⟨h1, h2, fun other hother hserial => ?_, h4, h5⟩
      rcases mem_set_plan hi hplan hother with rfl | ⟨hother, -⟩
      · rfl
      · exact h3 other hother hserial
    · rw [List.mem_singleton.mp hx]
      refine ⟨hplanned.made, hplanned.notPublished hattempted, fun other hother hserial => ?_, fun w hw heq => ?_,
        hplanned.staged⟩
      · rcases mem_set_plan hi hplan hother with rfl | ⟨-, hne⟩
        · rfl
        · exact absurd hserial hne
      · exact (hi.work w hw).notPlanned (heq ▸ List.mem_map_of_mem hmem)

/-- **A file is deleted**: it belongs to a plan that was given up. -/
theorem Inv.discardStep (hi : Inv s) (k : ℕ) (deletes : Bool) : Inv (discardStep s k deletes) := by
  have hstep : ∀ {files : Files} {discards : List Discarding} {uncertain : Bool} {x : Discarding}, x ∈ s.discards →
      (∀ {name}, owner name ≠ x.serial → files name = s.files name) →
      (∀ y ∈ discards, ∃ x ∈ s.discards, y.serial = x.serial ∧ ∀ name ∈ y.files, name ∈ x.files) →
      Inv { s with files := files, discards := discards, uncertain := uncertain } := by
    intro files discards uncertain x hx hfiles hall
    have hdeleting := hi.discards x hx
    have hkeeps : Keeps (Safe s) s { s with files := files, discards := discards, uncertain := uncertain } :=
      Keeps.of_files rfl fun hP => hfiles fun h => hdeleting.not_safe (h ▸ hP)
    refine hi.frame hkeeps rfl rfl le_rfl rfl rfl rfl (fun w hw => ?_) (fun y hy => ?_)
    · have hworking := hi.work w hw
      exact hworking.keep hi.published hkeeps (fun _ h => h) le_rfl
        (fun hown => hfiles fun h => hdeleting.notWorking w hw (hown.symm.trans h))
        hworking.notPublished hworking.notPlanned
    · obtain ⟨x', hx', hserial, hnames⟩ := hall y hy
      obtain ⟨h1, h2, h3, h4, h5⟩ := hi.discards x' hx'
      rw [← hserial] at h1 h2 h3 h4 h5
      exact ⟨h1, h2, h3, h4, fun name hname => h5 name (hnames name hname)⟩
  unfold OfflineSettings.discardStep
  split
  · exact hi
  · rename_i serial complete hk
    have hx := List.mem_of_getElem? hk
    exact hstep hx (fun _ => rfl) fun y hy => ⟨y, List.mem_of_mem_eraseIdx hy, rfl, fun _ h => h⟩
  · rename_i serial name rest complete hk
    have hx := List.mem_of_getElem? hk
    have hown : owner name = serial := (hi.discards _ hx).own name List.mem_cons_self
    have hset : ∀ {complete' : Bool},
        ∀ y ∈ s.discards.set k { serial := serial, files := rest, complete := complete' },
          ∃ x ∈ s.discards, y.serial = x.serial ∧ ∀ name ∈ y.files, name ∈ x.files := by
      intro complete' y hy
      rcases List.mem_or_eq_of_mem_set hy with hy | rfl
      · exact ⟨y, hy, rfl, fun _ h => h⟩
      · exact ⟨_, hx, rfl, fun _ h => List.mem_cons_of_mem _ h⟩
    split
    · exact hstep hx (fun hne => setFile_other fun h => hne (h.trans hown)) hset
    · exact hstep hx (fun _ => rfl) hset

/-! ### The process -/

/-- **The process dies**: what was published is durable. -/
theorem Inv.restart (hi : Inv s) (left : Files) : Inv (restart s left) := by
  have hk : Keeps (fun o => o ∈ s.publications.map Publication.serial) s (OfflineSettings.restart s left) := {
    key := fun h => h
    files := fun _ hdurable => by
      unfold Durable at hdurable ⊢
      simp only [OfflineSettings.restart, hdurable]
      rfl }
  refine hi.pointers hk rfl le_rfl (Or.inr rfl) (Or.inr rfl) (fun _ h => by cases h) List.nodup_nil
    (fun _ h => by cases h) (fun _ h => by cases h) ?_
  intro g hg
  rcases List.mem_append.mp hg with hg | hg
  · exact Or.inl hg
  · right
    have hpointer : s.stored.pointer = some (.uuid g) := by
      cases hvalue : s.stored.pointer with
      | none =>
        rw [hvalue] at hg
        cases hg
      | some value =>
        rw [hvalue] at hg
        cases value with
        | uuid name =>
          simp only [generation, Option.getD_some, Option.toList_some, List.mem_singleton] at hg
          rw [hg]
        | boolean b => cases hg
        | other n => cases hg
    exact ⟨hpointer, hpointer⟩

/-- **A step keeps what holds of the store.** -/
theorem Inv.step (hi : Inv s) (event : Event d) : Inv (step s event) := by
  have hsame : ∀ {memory stored : Prefs}, (memory.pointer = s.memory.pointer) →
      (stored.pointer = s.memory.pointer ∨ stored.pointer = s.stored.pointer) →
      Inv { s with memory := memory, stored := stored } := by
    intro memory stored hmemory hstored
    have hkeeps : Keeps (fun _ => True) s { s with memory := memory, stored := stored } :=
      Keeps.of_files rfl fun _ => rfl
    refine hi.pointers (hkeeps.mono fun _ _ => trivial) rfl le_rfl (Or.inl hmemory) hstored ?_ hi.serials ?_ ?_
      fun g hg => Or.inl hg
    · intro plan hplan
      obtain ⟨hmade, hnot, hstaged, hready⟩ := hi.plans plan hplan
      exact ⟨hmade, hnot, hstaged, fun h1 h2 h3 =>
        (hready h1 h2 h3).keep hi.published hkeeps (fun _ _ => trivial) (fun _ h => h) trivial⟩
    · intro w hw
      have hworking := hi.work w hw
      exact hworking.keep hi.published (hkeeps.mono fun _ _ => trivial) (fun _ h => h) le_rfl (fun _ => rfl)
        hworking.notPublished hworking.notPlanned
    · intro x hx
      obtain ⟨h1, h2, h3, h4, h5⟩ := hi.discards x hx
      exact ⟨h1, h2, h3, h4, h5⟩
  cases event with
  | prepare transfer => exact hi.beginPrepare transfer
  | work world => exact hi.prepareStep world
  | apply i outcome rollback => exact hi.apply i outcome rollback
  | discard i => exact hi.discard i
  | discardStep k deletes => exact hi.discardStep k deletes
  | change name value =>
    refine hsame ?_ (Or.inr rfl)
    unfold Prefs.set
    split <;> rfl
  | flush => exact hsame rfl (Or.inl rfl)
  | death left => exact hi.restart left

/-- A store that was just installed. -/
lemma inv_initial (prefs : Prefs) (hpointer : prefs.pointer = none) :
    Inv ({ stored := prefs, memory := prefs } : State d) where
  published := fun _ h => by cases h
  memory := ⟨[], Or.inl ⟨hpointer, rfl⟩⟩
  stored := ⟨[], Or.inl ⟨hpointer, rfl⟩⟩
  plans := fun _ h => by cases h
  serials := List.nodup_nil
  work := fun _ h => by cases h
  discards := fun _ h => by cases h
  settled := fun _ h => by cases h

/-! ### Failed commits -/

/-- A step of `prepare` fails no commit. -/
lemma prepareStep_unknown (s : State d) (world : World) :
    (prepareStep s world).unknown = s.unknown ∧ (prepareStep s world).uncertain = s.uncertain ∧
      (prepareStep s world).memory = s.memory ∧ (prepareStep s world).stored = s.stored ∧
      (prepareStep s world).publications = s.publications := by
  unfold prepareStep
  split
  · exact ⟨rfl, rfl, rfl, rfl, rfl⟩
  · split
    · unfold startPrepare
      repeat' split
      all_goals exact ⟨rfl, rfl, rfl, rfl, rfl⟩
    · unfold checkArchive
      repeat' split
      all_goals exact ⟨rfl, rfl, rfl, rfl, rfl⟩
    · unfold checkLimits
      repeat' split
      all_goals exact ⟨rfl, rfl, rfl, rfl, rfl⟩
    · unfold createFile
      split <;> exact ⟨rfl, rfl, rfl, rfl, rfl⟩
    · unfold writeFile
      dsimp only
      split <;> exact ⟨rfl, rfl, rfl, rfl, rfl⟩
    · unfold createFile
      repeat' split
      all_goals exact ⟨rfl, rfl, rfl, rfl, rfl⟩
    · unfold writeFile
      dsimp only
      split <;> exact ⟨rfl, rfl, rfl, rfl, rfl⟩
    · split <;> exact ⟨rfl, rfl, rfl, rfl, rfl⟩

/-- Discarding changes no preferences. -/
lemma discard_unknown (s : State d) (i : ℕ) :
    (discard s i).unknown = s.unknown ∧ (discard s i).uncertain = s.uncertain ∧ (discard s i).memory = s.memory ∧
      (discard s i).stored = s.stored ∧ (discard s i).publications = s.publications := by
  unfold discard
  split
  · exact ⟨rfl, rfl, rfl, rfl, rfl⟩
  · split <;> exact ⟨rfl, rfl, rfl, rfl, rfl⟩

lemma discardStep_unknown (s : State d) (k : ℕ) (deletes : Bool) :
    (discardStep s k deletes).unknown = s.unknown ∧
      (s.uncertain = true → (discardStep s k deletes).uncertain = true) ∧
      (discardStep s k deletes).memory = s.memory ∧ (discardStep s k deletes).stored = s.stored ∧
      (discardStep s k deletes).publications = s.publications := by
  unfold discardStep
  split
  · exact ⟨rfl, fun h => h, rfl, rfl, rfl⟩
  · exact ⟨rfl, fun h => by simp [h], rfl, rfl, rfl⟩
  · split <;> exact ⟨rfl, fun h => h, rfl, rfl, rfl⟩

lemma beginPrepare_unknown (s : State d) (transfer : Package d) :
    (beginPrepare s transfer).unknown = s.unknown ∧ (beginPrepare s transfer).uncertain = s.uncertain ∧
      (beginPrepare s transfer).memory = s.memory ∧ (beginPrepare s transfer).stored = s.stored ∧
      (beginPrepare s transfer).publications = s.publications := by
  unfold beginPrepare
  split <;> exact ⟨rfl, rfl, rfl, rfl, rfl⟩

/-- After a commit that failed the process is uncertain. -/
lemma step_uncertain (h : s.unknown = true → s.uncertain = true) (event : Event d) :
    (step s event).unknown = true → (step s event).uncertain = true := by
  cases event with
  | prepare transfer =>
    obtain ⟨h1, h2, -⟩ := beginPrepare_unknown s transfer
    exact fun hu => h2.trans (h (h1.symm.trans hu))
  | work world =>
    obtain ⟨h1, h2, -⟩ := prepareStep_unknown s world
    exact fun hu => h2.trans (h (h1.symm.trans hu))
  | apply i outcome rollback =>
    show (apply s i outcome rollback).2.unknown = true → (apply s i outcome rollback).2.uncertain = true
    rcases apply_cases s i outcome rollback with heq | ⟨plan, memory, stored, settled, uncertain, unknown, hcurrent,
      heq, -, -, -, hunknown, -⟩ <;> rw [heq]
    · exact h
    · intro hu
      rcases hunknown hu with h' | h'
      · exact h'
      · have htrue := h h'
        rw [hcurrent.certain] at htrue
        cases htrue
  | discard i =>
    obtain ⟨h1, h2, -⟩ := discard_unknown s i
    exact fun hu => h2.trans (h (h1.symm.trans hu))
  | discardStep k deletes =>
    obtain ⟨h1, h2, -⟩ := discardStep_unknown s k deletes
    exact fun hu => h2 (h (h1.symm.trans hu))
  | change name value => exact h
  | flush => exact h
  | death left => exact fun hu => by cases hu

/-! ### Publication is atomic -/

/-- **A generation is complete**: its registry can be read, and so can every archive that it names, with the
recorded digest; its packages are distinct. -/
structure Complete (s : State d) (g : Uuid) (archives : List Archive) : Prop where
  /-- The registry. -/
  registry : ∃ key registry, s.key = some key ∧
    readEncrypted d s.files key (.registry g) MAX_REGISTRY = some (.registry registry) ∧
    registry.version = 1 ∧ registry.archives = archives
  /-- The archives. -/
  readable : ∀ a ∈ archives, ∃ key bytes, s.key = some key ∧
    readEncrypted d s.files key (.archive a.file) MAX_ENCRYPTED = some (.archive bytes) ∧
    d.digest bytes = a.digest ∧ (bytes.length : ℤ) = a.bytes
  /-- The packages. -/
  distinct : (archives.map Archive.id).Nodup

/-- A pointer that is set leads to a complete generation that was published. -/
def PointsTo (s : State d) (pointer : Option Value) (archives : List Archive) : Prop :=
  (pointer = none ∧ archives = []) ∨
    ∃ p ∈ s.publications, pointer = some (.uuid p.generation) ∧ Complete s p.generation archives

/-- **What holds of the store after any run.** -/
structure Atomic (s : State d) : Prop where
  /-- The stored pointer, when it is set, leads to a complete generation. -/
  stored : ∃ archives, PointsTo s s.stored.pointer archives
  /-- Every generation that was published extends the one it replaced by one package. -/
  extends_ : ∀ p ∈ s.publications, ∃ old, PointsTo s (p.replaced.map .uuid) old ∧
    Complete s p.generation (old ++ [newArchive p.serial p.transfer])
  /-- A package that it has from there is not bound to another digest. -/
  bound : ∀ p ∈ s.publications, ∀ old archives, PointsTo s (p.replaced.map .uuid) old →
    Complete s p.generation archives → ∀ a ∈ old, ∀ b ∈ archives, a.id = b.id → a = b
  /-- A generation whose commit succeeded, or that a process found, is kept by what is stored now. -/
  kept : ∀ g ∈ s.settled, ∃ archives now, Complete s g archives ∧ PointsTo s s.stored.pointer now ∧
    archives <+: now
  /-- Files that are deleted are named by no published registry. -/
  discards : ∀ x ∈ s.discards, ∀ name ∈ x.files, ∀ p ∈ s.publications, name ≠ .registry p.generation ∧
    ∀ archives, Complete s p.generation archives → ∀ a ∈ archives, name ≠ .archive a.file

/-- **What holds of every step.** -/
structure StepAtomic (s : State d) (event : Event d) : Prop where
  /-- Preferences in memory change by the user, when a process is started, or all together by a plan that was
  prepared against them as they are. -/
  memory : (step s event).memory ≠ s.memory → (∃ name value, event = .change name value) ∨
    (∃ left, event = .death left) ∨ ∃ i outcome rollback plan, event = .apply i outcome rollback ∧
      s.plans[i]? = some plan ∧ s.memory = plan.before ∧ (step s event).memory = publish plan s.memory
  /-- Preferences on disk change to those in memory, or by a plan that was prepared against these. -/
  stored : (step s event).stored ≠ s.stored → (event = .flush ∧ (step s event).stored = s.memory) ∨
    ∃ i outcome rollback plan, event = .apply i outcome rollback ∧ s.plans[i]? = some plan ∧
      s.memory = plan.before ∧
      ((step s event).stored = s.memory ∨ (step s event).stored = publish plan s.memory)
  /-- After a commit that failed nothing is published by this process. -/
  unknown : s.unknown = true → (step s event).publications = s.publications

/-- A file that is kept can be read. -/
lemma Kept.read {a : Archive} (h : Kept s a) : ∃ key bytes, s.key = some key ∧
    readEncrypted d s.files key (.archive a.file) MAX_ENCRYPTED = some (.archive bytes) ∧
    d.digest bytes = a.digest ∧ (bytes.length : ℤ) = a.bytes := by
  obtain ⟨key, bytes, hkey, hfile, hlength, hdigest, hbytes⟩ := h
  refine ⟨key, bytes, hkey, ?_, hdigest, hbytes⟩
  unfold readEncrypted
  rw [hfile]
  exact if_pos ⟨hlength, rfl, rfl⟩

/-- So can a registry. -/
lemma Lists.read {g : Uuid} {archives : List Archive} (h : Lists s g archives) : ∃ key registry, s.key = some key ∧
    readEncrypted d s.files key (.registry g) MAX_REGISTRY = some (.registry registry) ∧
    registry.version = 1 ∧ registry.archives = archives := by
  obtain ⟨key, registry, hkey, hfile, hlength, hversion, harchives⟩ := h
  refine ⟨key, registry, hkey, ?_, hversion, harchives⟩
  unfold readEncrypted
  rw [hfile]
  exact if_pos ⟨hlength, rfl, rfl⟩

/-- A complete generation has one list of archives only. -/
lemma Complete.unique {g : Uuid} {a b : List Archive} (ha : Complete s g a) (hb : Complete s g b) : a = b := by
  obtain ⟨key, registry, hkey, hread, -, rfl⟩ := ha.registry
  obtain ⟨key', registry', hkey', hread', -, rfl⟩ := hb.registry
  rw [hkey] at hkey'
  obtain rfl := Option.some.inj hkey'
  rw [hread] at hread'
  rw [Plain.registry.inj (Option.some.inj hread')]

/-- What was published is complete. -/
lemma Inv.complete (hi : Inv s) {p : Publication d} (hp : p ∈ s.publications) {archives : List Archive}
    (hlists : Lists s p.generation archives) : Complete s p.generation archives := by
  obtain ⟨archives', hlists', hall, hnodup⟩ := (hi.published p hp).complete
  obtain rfl := hlists.unique hlists'
  exact ⟨hlists.read, fun a ha => (hall a ha).1.read, hnodup⟩

/-- What a pointer leads to is complete. -/
lemma Inv.pointsTo (hi : Inv s) {pointer : Option Value} {archives : List Archive} (h : Pointed s pointer archives) :
    PointsTo s pointer archives := by
  rcases h with ⟨hnone, hnil⟩ | ⟨p, hp, hpointer, hlists⟩
  · exact Or.inl ⟨hnone, hnil⟩
  · exact Or.inr ⟨p, hp, hpointer, hi.complete hp hlists⟩

/-- A pointer leads to one list of archives only. -/
lemma PointsTo.unique {pointer : Option Value} {a b : List Archive} (ha : PointsTo s pointer a)
    (hb : PointsTo s pointer b) : a = b := by
  rcases ha with ⟨hnone, rfl⟩ | ⟨p, -, hpointer, hcomplete⟩
  · rcases hb with ⟨-, rfl⟩ | ⟨q, -, hpointer', -⟩
    · rfl
    · rw [hnone] at hpointer'
      cases hpointer'
  · rcases hb with ⟨hnone, -⟩ | ⟨q, -, hpointer', hcomplete'⟩
    · rw [hnone] at hpointer
      cases hpointer
    · rw [hpointer] at hpointer'
      have hname : p.generation = q.generation := Value.uuid.inj (Option.some.inj hpointer')
      rw [← hname] at hcomplete'
      exact hcomplete.unique hcomplete'

/-- The store is as it should be. -/
lemma Inv.atomic (hi : Inv s) : Atomic s where
  stored := by
    obtain ⟨archives, h⟩ := hi.stored
    exact ⟨archives, hi.pointsTo h⟩
  extends_ := fun p hp => by
    obtain ⟨old, hold, hlists⟩ := (hi.published p hp).extends_
    exact ⟨old, hi.pointsTo hold, hi.complete hp hlists⟩
  bound := fun p hp old archives hold hcomplete a ha b hb hid => by
    obtain ⟨old', hold', hlists⟩ := (hi.published p hp).extends_
    obtain rfl := hold.unique (hi.pointsTo hold')
    obtain rfl := hcomplete.unique (hi.complete hp hlists)
    exact List.inj_on_of_nodup_map hcomplete.distinct (List.mem_append_left _ ha) hb hid
  kept := fun g hg => by
    obtain ⟨p, hp, hname, archives, hlists, -, hnow⟩ := hi.settled g hg
    obtain ⟨now, h⟩ := hi.stored
    subst hname
    exact ⟨archives, now, hi.complete hp hlists, hi.pointsTo h, hnow now h⟩
  discards := fun x hx name hname p hp => by
    have hdeleting := hi.discards x hx
    have hown := hdeleting.own name hname
    have hnot : ∀ q ∈ s.publications, x.serial ≠ q.serial :=
      fun q hq heq => hdeleting.notPublished (heq ▸ List.mem_map_of_mem hq)
    refine ⟨fun heq => ?_, fun archives hcomplete a ha heq => ?_⟩
    · rw [heq, (hi.published p hp).name, owner_registry] at hown
      exact hnot p hp hown.symm
    · obtain ⟨archives', hlists, hall, -⟩ := (hi.published p hp).complete
      obtain rfl := hcomplete.unique (hi.complete hp hlists)
      obtain ⟨-, q, hq, hfile⟩ := hall a ha
      rw [heq, hfile, owner_archive] at hown
      exact hnot q hq hown.symm

/-- A step changes preferences as it should. -/
lemma step_atomic (hu : s.unknown = true → s.uncertain = true) (event : Event d) : StepAtomic s event := by
  have hsame : (step s event).memory = s.memory → (step s event).stored = s.stored →
      (step s event).publications = s.publications → StepAtomic s event :=
    fun h1 h2 h3 => ⟨fun h => absurd h1 h, fun h => absurd h2 h, fun _ => h3⟩
  cases event with
  | prepare transfer =>
    obtain ⟨-, -, h1, h2, h3⟩ := beginPrepare_unknown s transfer
    exact hsame h1 h2 h3
  | work world =>
    obtain ⟨-, -, h1, h2, h3⟩ := prepareStep_unknown s world
    exact hsame h1 h2 h3
  | discard i =>
    obtain ⟨-, -, h1, h2, h3⟩ := discard_unknown s i
    exact hsame h1 h2 h3
  | discardStep k deletes =>
    obtain ⟨-, -, h1, h2, h3⟩ := discardStep_unknown s k deletes
    exact hsame h1 h2 h3
  | change name value => exact ⟨fun _ => Or.inl ⟨name, value, rfl⟩, fun h => absurd rfl h, fun _ => rfl⟩
  | flush => exact ⟨fun h => absurd rfl h, fun _ => Or.inl ⟨rfl, rfl⟩, fun _ => rfl⟩
  | death left => exact ⟨fun _ => Or.inr (Or.inl ⟨left, rfl⟩), fun h => absurd rfl h, fun _ => rfl⟩
  | apply i outcome rollback =>
    rcases apply_cases s i outcome rollback with heq | ⟨plan, memory, stored, settled, uncertain, unknown, hcurrent,
      heq, hmemory, hstored, -⟩
    · exact hsame (congrArg State.memory heq) (congrArg State.stored heq) (congrArg State.publications heq)
    · have hmemory' : (step s (.apply i outcome rollback)).memory = memory := congrArg State.memory heq
      have hstored' : (step s (.apply i outcome rollback)).stored = stored := congrArg State.stored heq
      refine ⟨fun hne => ?_, fun hne => ?_, fun hunknown => ?_⟩
      · rw [hmemory'] at hne
        exact Or.inr (Or.inr ⟨i, outcome, rollback, plan, rfl, hcurrent.found, hcurrent.before,
          hmemory'.trans (hmemory.resolve_left hne)⟩)
      · rw [hstored'] at hne
        refine Or.inr ⟨i, outcome, rollback, plan, rfl, hcurrent.found, hcurrent.before, ?_⟩
        rw [hstored']
        exact hstored.resolve_left hne
      · have hcertain := hu hunknown
        rw [hcurrent.certain] at hcertain
        cases hcertain

/-- **Publication is atomic and keeps every archive**, for any plans, any interleaving of `prepare`, `apply`,
`discard` and changes of the user, and a process that dies at any point.

**Proof sketch.** Every file has an owner, the call of `prepare` that staged it. The worker writes files of its own
call only, and `discard` deletes files of plans of which no commit was tried; a plan of which one is tried was not
given up, so its files are never deleted afterwards. They were synced before the plan was ready, so they survive the
process. What is published was prepared against the pointer as it is, so its registry extends the current one; a
commit that fails leaves the pointers at the old generation or at the new one, and both are complete. -/
theorem run_atomic (sendByEnter allowBigEmoji : Option Value) (events : List (Event d)) :
    Atomic (run sendByEnter allowBigEmoji events) ∧
      ∀ event, StepAtomic (run sendByEnter allowBigEmoji events) event := by
  have hrun : ∀ (events : List (Event d)) (s : State d), Inv s → (s.unknown = true → s.uncertain = true) →
      Inv (events.foldl step s) ∧
        ((events.foldl step s).unknown = true → (events.foldl step s).uncertain = true) := by
    intro events
    induction events with
    | nil => exact fun s hi hu => ⟨hi, hu⟩
    | cons event rest ih => exact fun s hi hu => ih _ (hi.step event) (step_uncertain hu event)
  obtain ⟨hi, hu⟩ := hrun events _ (inv_initial
    { pointer := none, sendByEnter := sendByEnter, allowBigEmoji := allowBigEmoji } rfl) fun h => by cases h
  exact ⟨hi.atomic, step_atomic hu⟩

end OfflineSettings
