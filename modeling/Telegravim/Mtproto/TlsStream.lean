import Telegravim.Mtproto.TlsHello

set_option autoImplicit false

/-!
# The stream in the disguise of TLS

Whatever the pieces in which the stream comes, and whenever the tasks run and the owner reads: the socket is connected
exactly where the stream starts with a good greeting, what was read is the start of the payload behind it and all of it
once nothing is left in the buffer, and the error is raised at the first record with another header.

## Main definitions

* `Tls.Sound` — what a session keeps: it waits for the greeting, or has refused it, or reads records.
* `Tls.Faithful` — what its owner may rely on.

## Main results

* `Tls.Sound.step` — a step keeps it, and no assertion fails.
* `Tls.session_faithful` — every session is faithful.
-/

namespace Tls

/-! ### What a session keeps -/

/-- The session waits for the greeting and has seen some of it. -/
structure Waiting (HmacSha256 : Bytes → Bytes → Bytes) (key digest : Bytes) (session : Session) (seen : Bytes) :
    Prop where
  state_eq : session.socket.state = .WaitingHello
  awaits : Awaits HmacSha256 key digest session.socket seen
  received : session.received = seen ++ session.socket.available
  returned : session.returned = []
  events : session.socket.events = []
  queue : ∀ task ∈ session.socket.queue, task = .plainReadyRead

/-- The session has refused the greeting. -/
structure Refused (HmacSha256 : Bytes → Bytes → Bytes) (key digest : Bytes) (session : Session) (seen : Bytes) :
    Prop where
  state_eq : session.socket.state = .Error
  bad : greeting HmacSha256 key digest seen = .bad
  received : session.received = seen ++ session.socket.available
  returned : session.returned = []
  events : .connected ∉ session.socket.events
  limit : session.socket.incomingGoodDataLimit = 0
  queue : ∀ task ∈ session.socket.queue, task = .plainReadyRead

/-- The socket reads records: either it is connected, and a record is marked unless the rest waits for more or a check is
queued; or it has found a record with another header, and the error is raised or queued. -/
inductive Works (socket : TlsSocket) : Prop
  | connected (state_eq : socket.state = .Connected) (quiet : .error ∉ socket.events)
    (noTask : .handleError ∉ socket.queue)
    (idle : .checkNextPacket ∉ socket.queue → socket.incomingGoodDataLimit = 0 →
      (left socket).1 = [] ∧ (left socket).2 ≠ none)
  | failed (state_eq : socket.state = .Error) (stream : left socket = ([], none))
    (told : .error ∈ socket.events ∨ .handleError ∈ socket.queue)

/-- The session has had a good greeting and has seen some of what comes behind it. -/
structure Reading (HmacSha256 : Bytes → Bytes → Bytes) (key digest : Bytes) (session : Session) (hello rest : Bytes) :
    Prop where
  connected : .connected ∈ session.socket.events
  good : GoodHello HmacSha256 key digest hello
  received : session.received = hello ++ (rest ++ session.socket.available)
  marked : Marked session.socket
  stream : records.run 0 rest = after session.returned (left session.socket)
  works : Works session.socket

/-- **What a session keeps.** -/
structure Sound (HmacSha256 : Bytes → Bytes → Bytes) (key digest : Bytes) (session : Session) : Prop where
  written : Written session.socket.written session.sent
  arrives : session.socket.available ≠ [] → session.socket.state ≠ .Error → .plainReadyRead ∈ session.socket.queue
  phase : (∃ seen, Waiting HmacSha256 key digest session seen) ∨ (∃ seen, Refused HmacSha256 key digest session seen) ∨
    ∃ hello rest, Reading HmacSha256 key digest session hello rest

section Stream

variable {HmacSha256 : Bytes → Bytes → Bytes} {key digest : Bytes}

theorem sound_start (HmacSha256 : Bytes → Bytes → Bytes) (key digest : Bytes) :
    Sound HmacSha256 key digest (start key digest) where
  written := .nil
  arrives h := absurd rfl h
  phase := .inl ⟨[], rfl, ⟨rfl, rfl, rfl, (List.append_nil _).symm, .inr ⟨rfl, rfl⟩⟩, rfl, rfl, rfl, nofun⟩

/-! ### Reading records -/

/-- Within a record something is given out before its end. -/
lemma run_ne_broken {remaining : ℕ} (hremaining : remaining ≠ 0) (bytes : Bytes) :
    records.run remaining bytes ≠ ([], none) := by
  obtain ⟨remaining, rfl⟩ := Nat.exists_eq_succ_of_ne_zero hremaining
  intro hrun
  rcases bytes with - | ⟨byte, bytes⟩
  · have hstep : records.step (remaining + 1) [] = .wait := rfl
    rw [Incremental.run_wait hstep] at hrun
    cases hrun
  · have hstep : records.step (remaining + 1) (byte :: bytes) = .take 1 remaining [byte] := rfl
    rw [Incremental.run_take hstep] at hrun
    cases hrun

lemma limit_of_broken {socket : TlsSocket} (h : left socket = ([], none)) : socket.incomingGoodDataLimit = 0 := by
  by_contra hlimit
  rw [left, if_neg hlimit] at h
  exact run_ne_broken hlimit _ h

/-- The socket of a session that reads records, before a check. -/
structure Checks (session : Session) (socket : TlsSocket) (hello rest : Bytes) : Prop where
  connected : .connected ∈ socket.events
  received : session.received = hello ++ (rest ++ socket.available)
  marked : Marked socket
  stream : records.run 0 rest = after session.returned (left socket)
  works : socket.state = .Connected ∧ .error ∉ socket.events ∧ .handleError ∉ socket.queue ∨
    socket.state = .Error ∧ left socket = ([], none)

lemma handleError_eq (socket : TlsSocket) :
    ∃ told : List Event, .connected ∉ told ∧
      handleError socket = { socket with state := .Error, events := socket.events ++ (told ++ [.error]) } := by
  rw [handleError]
  split_ifs
  · exact ⟨[.syncTimeRequests], by decide, by rw [fire, fire, List.append_assoc]⟩
  · exact ⟨[], by decide, rfl⟩

lemma handleError_available (socket : TlsSocket) : (handleError socket).available = socket.available := by
  rw [handleError]
  split_ifs <;> rfl

lemma handleError_written (socket : TlsSocket) : (handleError socket).written = socket.written := by
  rw [handleError]
  split_ifs <;> rfl

/-- The error is raised. -/
lemma Checks.handleError {session : Session} {socket : TlsSocket} {hello rest : Bytes}
    (h : Checks session socket hello rest) (hgood : GoodHello HmacSha256 key digest hello)
    (hstream : left socket = ([], none)) :
    Reading HmacSha256 key digest { session with socket := Tls.handleError socket } hello rest := by
  obtain ⟨told, -, heq⟩ := handleError_eq socket
  have hraised : .error ∈ socket.events ++ (told ++ [.error]) :=
    List.mem_append_right _ (List.mem_append_right _ List.mem_cons_self)
  rw [heq]
  exact ⟨List.mem_append_left _ h.connected, hgood, h.received, ⟨h.marked.none, h.marked.some⟩, h.stream,
    .failed rfl hstream (.inl hraised)⟩

/-- **A check** marks a record, finds that the rest waits for more, or raises the error. -/
theorem Checks.checkNextPacket {session : Session} {socket : TlsSocket} {hello rest : Bytes}
    (h : Checks session socket hello rest) (hgood : GoodHello HmacSha256 key digest hello) :
    ∃ ok next, Tls.checkNextPacket socket = some (ok, next) ∧
      (∃ incoming offset limit, next = place socket incoming offset limit) ∧
      Reading HmacSha256 key digest { session with socket := if ok = false then Tls.handleError next else next } hello
        rest := by
  obtain ⟨ok, incoming, offset, limit, hcheck, hleft, hmarked, hbroken, hidle⟩ := checkNextPacket_spec h.marked
  have hchecks : Checks session (place socket incoming offset limit) hello rest :=
    ⟨h.connected, h.received, hmarked, h.stream.trans (congrArg _ hleft.symm),
      h.works.imp_right fun hfailed => ⟨hfailed.1, hleft.trans hfailed.2⟩⟩
  refine ⟨ok, _, hcheck, ⟨incoming, offset, limit, rfl⟩, ?_⟩
  cases ok with
  | false => exact hchecks.handleError hgood (hleft.trans (hbroken rfl).1)
  | true =>
    refine ⟨hchecks.connected, hgood, hchecks.received, hmarked, hchecks.stream, ?_⟩
    rcases h.works with ⟨hstate, hquiet, hnoTask⟩ | ⟨-, hstream⟩
    · refine .connected hstate hquiet hnoTask fun _ hlimit => ?_
      rw [if_neg nofun, hleft]
      exact hidle rfl hlimit
    · have hlimit : limit = 0 := limit_of_broken (hleft.trans hstream)
      exact absurd (congrArg Prod.snd hstream) (hidle rfl hlimit).2

lemma Reading.readyRead {session : Session} {socket : TlsSocket} {hello rest : Bytes}
    (h : Reading HmacSha256 key digest { session with socket := socket } hello rest) :
    Reading HmacSha256 key digest { session with socket := fire socket .readyRead } hello rest := by
  refine ⟨List.mem_append_left _ h.connected, h.good, h.received, ⟨h.marked.none, h.marked.some⟩, h.stream, ?_⟩
  cases h.works with
  | connected hstate hquiet hnoTask hidle =>
    refine .connected hstate (fun hmem => ?_) hnoTask hidle
    rcases List.mem_append.mp hmem with hmem | hmem
    · exact hquiet hmem
    · exact nomatch List.mem_singleton.mp hmem
  | failed hstate hstream htold => exact .failed hstate hstream (htold.imp_left (List.mem_append_left _))

/-- **More has come** behind the greeting. -/
theorem Checks.readData {session : Session} {socket : TlsSocket} {hello rest : Bytes}
    (h : Checks session socket hello rest) (hgood : GoodHello HmacSha256 key digest hello)
    (hconnected : socket.state = .Connected) :
    ∃ next, Tls.readData socket = some next ∧ next.available = [] ∧ next.written = socket.written ∧
      Reading HmacSha256 key digest { session with socket := next } hello (rest ++ socket.available) := by
  have hmore : Checks session { socket with incoming := socket.incoming ++ socket.available, available := [] } hello
      (rest ++ socket.available) := by
    refine ⟨h.connected, ?_, ⟨h.marked.none, ?_⟩, ?_, ?_⟩
    · rw [List.append_nil]
      exact h.received
    · exact h.marked.some.trans (List.length_append ▸ Nat.le_add_right _ _)
    · have hleft : left { socket with incoming := socket.incoming ++ socket.available, available := [] } =
          records.feed (left socket) socket.available := left_append h.marked socket.available
      rw [records.run_append, h.stream, hleft]
      exact records.feed_append session.returned (left socket) socket.available
    · rcases h.works with hworks | ⟨hstate, -⟩
      · exact .inl hworks
      · exact nomatch hconnected.symm.trans hstate
  obtain ⟨ok, next, hcheck, ⟨incoming, offset, limit, rfl⟩, hreading⟩ := hmore.checkNextPacket hgood
  have hisConnected : isConnected socket = true := decide_eq_true hconnected
  rw [Tls.readData, hisConnected, if_neg nofun, hcheck, Option.map_some]
  refine ⟨_, rfl, ?_⟩
  cases ok with
  | false =>
    exact ⟨handleError_available _, handleError_written _, hreading⟩
  | true =>
    dsimp only
    rw [if_neg nofun]
    split_ifs
    · exact ⟨rfl, rfl, hreading.readyRead⟩
    · exact ⟨rfl, rfl, hreading⟩

/-- **Payload is read**. -/
theorem Reading.read {session : Session} {hello rest : Bytes} (h : Reading HmacSha256 key digest session hello rest)
    (size : ℕ) :
    ∃ bytes next, Tls.read session.socket size = some (bytes, next) ∧ next.available = session.socket.available ∧
      (next.state = .Error ∨ next.queue = session.socket.queue ∧ next.state = session.socket.state) ∧
      next.written = session.socket.written ∧
      Reading HmacSha256 key digest { session with socket := next, returned :=
        session.returned ++ bytes } hello rest := by
  obtain ⟨bytes, next, hread, hleft, hmarked, hreads⟩ := read_spec h.marked size
  have hstream : records.run 0 rest = after (session.returned ++ bytes) (left next) := by
    rw [h.stream, hleft, after_after]
  have hfailed (hsocket : left session.socket = ([], none)) : left next = ([], none) := by
    rw [hleft] at hsocket
    obtain ⟨hgiven, hnone⟩ := Prod.ext_iff.mp hsocket
    exact Prod.ext (List.append_eq_nil_iff.mp hgiven).2 hnone
  refine ⟨bytes, next, hread, ?_⟩
  cases hreads with
  | same => exact ⟨rfl, .inr ⟨rfl, rfl⟩, rfl, h.connected, h.good, h.received, hmarked, hstream, h.works⟩
  | placed incoming offset limit hidle =>
    refine ⟨rfl, .inr ⟨rfl, rfl⟩, rfl, h.connected, h.good, h.received, hmarked, hstream, ?_⟩
    cases h.works with
    | connected hstate hquiet hnoTask => exact .connected hstate hquiet hnoTask fun _ hlimit => hidle hlimit
    | failed hstate hsocket htold => exact .failed hstate (hfailed hsocket) htold
  | broken incoming offset hbroken =>
    exact ⟨rfl, .inl rfl, rfl, h.connected, h.good, h.received, hmarked, hstream,
      .failed rfl hbroken (.inr (List.mem_append_right _ List.mem_cons_self))⟩

/-! ### Reading the greeting -/

lemma greeted_eq (socket : TlsSocket) (rest : Bytes) (length : ℕ) :
    greeted socket rest length =
      { socket with
        incoming := rest
        available := []
        serverHelloLength := length
        incomingGoodDataOffset := 0
        incomingGoodDataLimit := 0
        state := .Connected
        queue := socket.queue ++ (if rest = [] then [] else [.checkNextPacket])
        events := socket.events ++ [.connected] } := by
  rw [greeted, helloAt]
  dsimp only
  by_cases hrest : rest = []
  · rw [if_neg (not_not_intro hrest), if_pos hrest, List.append_nil]
    rfl
  · rw [if_pos hrest, if_neg hrest]
    rfl

/-- **The greeting is read**, and waited for, refused, or good. -/
theorem Waiting.readHello {session : Session} {seen : Bytes} {tasks : List Task}
    (h : Waiting HmacSha256 key digest session seen) (hdigest : digest.length = kHelloDigestLength)
    (hwritten : Written session.socket.written session.sent) (htasks : ∀ task ∈ tasks, task = Task.plainReadyRead) :
    ∃ next, Tls.readHello HmacSha256 3 { session.socket with queue := tasks } = some next ∧
      Sound HmacSha256 key digest { session with socket := next } := by
  have hawaits : Awaits HmacSha256 key digest { session.socket with queue := tasks } seen :=
    ⟨h.awaits.key_eq, h.awaits.offset, h.awaits.limit, h.awaits.incoming, h.awaits.needed⟩
  obtain ⟨next, hnext, hhears⟩ := readHello_spec hdigest hawaits
  refine ⟨next, hnext, ?_⟩
  have hreceived : session.received = seen ++ session.socket.available ++ [] := by
    rw [List.append_nil]
    exact h.received
  cases hhears with
  | wait length hgreeting =>
    exact ⟨hwritten, fun hmore => absurd rfl hmore, .inl ⟨_, h.state_eq,
      ⟨h.awaits.key_eq, h.awaits.offset, h.awaits.limit, rfl, .inl hgreeting⟩, hreceived, h.returned, h.events, htasks⟩⟩
  | bad incoming length hgreeting =>
    obtain ⟨told, htold, heq⟩ := handleError_eq (helloAt { session.socket with queue := tasks } incoming length)
    have hevents : Event.connected ∉ session.socket.events ++ (told ++ [.error]) := by
      rw [h.events, List.nil_append]
      intro hmem
      rcases List.mem_append.mp hmem with hmem | hmem
      · exact htold hmem
      · cases List.mem_singleton.mp hmem
    rw [heq]
    exact ⟨hwritten, fun hmore => absurd rfl hmore, .inr (.inl ⟨_, rfl, hgreeting, hreceived, h.returned, hevents,
      h.awaits.limit, htasks⟩)⟩
  | good length hgreeting =>
    obtain ⟨hlength, hgood⟩ := goodHello_of_greeting hgreeting
    have hsplit : session.received = (seen ++ session.socket.available).take length ++
        ((seen ++ session.socket.available).drop length ++ []) := by
      rw [List.append_nil, List.take_append_drop, h.received]
    rw [greeted_eq]
    refine ⟨hwritten, fun hmore => absurd rfl hmore, .inr (.inr ⟨_, _,
      List.mem_append_right _ List.mem_cons_self, hgood, hsplit, ⟨fun _ => rfl, Nat.zero_le _⟩, ?_, ?_⟩)⟩
    · rw [h.returned]
      rfl
    · refine .connected rfl ?_ ?_ ?_
      · rw [h.events]
        exact fun hmem => Event.noConfusion (List.mem_singleton.mp hmem)
      · intro hmem
        rcases List.mem_append.mp hmem with hmem | hmem
        · cases htasks _ hmem
        · split_ifs at hmem
          · cases hmem
          · cases List.mem_singleton.mp hmem
      · intro hcheck _
        have hrest : (seen ++ session.socket.available).drop length = [] := by
          by_contra hrest
          refine hcheck (List.mem_append_right _ ?_)
          rw [if_neg hrest]
          exact List.mem_cons_self
        have hempty : records.run 0 [] = ([], some (0, [])) := run_short (Nat.zero_le _)
        rw [hrest, left, if_pos rfl, hempty]
        exact ⟨rfl, fun h => by cases h⟩

/-! ### Steps -/

lemma plainReadyRead_waiting {socket : TlsSocket} (h : socket.state = .WaitingHello) :
    plainReadyRead HmacSha256 socket = readHello HmacSha256 3 socket := by
  rw [plainReadyRead, h]

lemma plainReadyRead_connected {socket : TlsSocket} (h : socket.state = .Connected) :
    plainReadyRead HmacSha256 socket = readData socket := by
  rw [plainReadyRead, h]

lemma plainReadyRead_error {socket : TlsSocket} (h : socket.state = .Error) :
    plainReadyRead HmacSha256 socket = some socket := by
  rw [plainReadyRead, h]

/-- A session that reads records, with a task taken from the queue. -/
lemma Reading.checks {session : Session} {hello rest : Bytes} {task : Task} {tasks : List Task}
    (h : Reading HmacSha256 key digest session hello rest) (hqueue : session.socket.queue = task :: tasks) :
    Checks session { session.socket with queue := tasks } hello rest := by
  refine ⟨h.connected, h.received, ⟨h.marked.none, h.marked.some⟩, h.stream, ?_⟩
  cases h.works with
  | connected hstate hquiet hnoTask =>
    rw [hqueue] at hnoTask
    exact .inl ⟨hstate, hquiet, fun hmem => hnoTask (List.mem_cons_of_mem _ hmem)⟩
  | failed hstate hstream => exact .inr ⟨hstate, hstream⟩

/-- **The next task** runs. -/
theorem Sound.turn {session : Session} {task : Task} {tasks : List Task} (h : Sound HmacSha256 key digest session)
    (hdigest : digest.length = kHelloDigestLength) (hqueue : session.socket.queue = task :: tasks) :
    ∃ next, runTask HmacSha256 { session.socket with queue := tasks } task = some next ∧
      Sound HmacSha256 key digest { session with socket := next } := by
  have harrives : session.socket.available ≠ [] → session.socket.state ≠ .Error → task ≠ .plainReadyRead →
      Task.plainReadyRead ∈ tasks := by
    intro havailable hstate htask
    have hmem := h.arrives havailable hstate
    rw [hqueue] at hmem
    exact (List.mem_cons.mp hmem).resolve_left htask.symm
  rcases h.phase with ⟨seen, hwaiting⟩ | ⟨seen, hrefused⟩ | ⟨hello, rest, hreading⟩
  · have hall := hwaiting.queue
    rw [hqueue] at hall
    obtain rfl := hall task List.mem_cons_self
    obtain ⟨next, hnext, hsound⟩ := hwaiting.readHello hdigest h.written fun task hmem => hall task
      (List.mem_cons_of_mem _ hmem)
    have hstate : ({ session.socket with queue := tasks } : TlsSocket).state = .WaitingHello := hwaiting.state_eq
    exact ⟨next, (plainReadyRead_waiting hstate).trans hnext, hsound⟩
  · have hall := hrefused.queue
    rw [hqueue] at hall
    obtain rfl := hall task List.mem_cons_self
    exact ⟨{ session.socket with queue := tasks }, plainReadyRead_error hrefused.state_eq, h.written,
      fun _ hstate => absurd hrefused.state_eq hstate,
      .inr (.inl ⟨seen, hrefused.state_eq, hrefused.bad, hrefused.received, hrefused.returned, hrefused.events,
        hrefused.limit, fun task hmem => hall task (List.mem_cons_of_mem _ hmem)⟩)⟩
  · have hchecks := hreading.checks hqueue
    cases task with
    | plainReadyRead =>
      rcases hchecks.works with ⟨hstate, -⟩ | ⟨hstate, hstream⟩
      · obtain ⟨next, hnext, havailable, hwritten, hnextReading⟩ := hchecks.readData hreading.good hstate
        exact ⟨next, (plainReadyRead_connected hstate).trans hnext, hwritten ▸ h.written,
          fun hmore => absurd havailable hmore, .inr (.inr ⟨hello, _, hnextReading⟩)⟩
      · have htold : .error ∈ session.socket.events ∨ .handleError ∈ tasks := by
          cases hreading.works with
          | connected hconnected => exact nomatch hconnected.symm.trans hstate
          | failed _ _ htold =>
            have hother : Task.handleError ≠ .plainReadyRead := nofun
            rw [hqueue] at htold
            exact htold.imp_right fun hmem => (List.mem_cons.mp hmem).resolve_left hother
        exact ⟨{ session.socket with queue := tasks }, plainReadyRead_error hstate, h.written,
          fun _ hconnected => absurd hstate hconnected, .inr (.inr ⟨hello, rest, hchecks.connected, hreading.good,
            hchecks.received, hchecks.marked, hchecks.stream, .failed hstate hstream htold⟩)⟩
    | checkNextPacket =>
      obtain ⟨ok, next, hcheck, ⟨incoming, offset, limit, rfl⟩, hnextReading⟩ := hchecks.checkNextPacket hreading.good
      refine ⟨_, (congrArg (Option.map _) hcheck), ?_, ?_, .inr (.inr ⟨hello, rest, hnextReading⟩)⟩
      · cases ok with
        | false => exact (handleError_written _).symm ▸ h.written
        | true => exact h.written
      · cases ok with
        | false =>
          intro _ hstate
          obtain ⟨told, -, heq⟩ := handleError_eq (place { session.socket with queue := tasks } incoming offset limit)
          exact absurd (congrArg TlsSocket.state heq) hstate
        | true => exact fun hmore hstate => harrives hmore hstate nofun
    | handleError =>
      have hstream : left { session.socket with queue := tasks } = ([], none) := by
        cases hreading.works with
        | connected _ _ hnoTask =>
          rw [hqueue] at hnoTask
          exact absurd List.mem_cons_self hnoTask
        | failed _ hstream => exact hstream
      obtain ⟨told, -, heq⟩ := handleError_eq { session.socket with queue := tasks }
      exact ⟨_, rfl, (handleError_written _).symm ▸ h.written,
        fun _ hstate => absurd (congrArg TlsSocket.state heq) hstate,
        .inr (.inr ⟨hello, rest, hchecks.handleError hreading.good hstream⟩)⟩

/-- **More bytes come.** -/
lemma Sound.receive {session : Session} (h : Sound HmacSha256 key digest session) (chunk : Bytes) :
    Sound HmacSha256 key digest { session with
      socket := invokeQueued { session.socket with available := session.socket.available ++ chunk } .plainReadyRead
      received := session.received ++ chunk } := by
  refine ⟨h.written, fun _ _ => List.mem_append_right _ List.mem_cons_self, ?_⟩
  have hqueue (hall : ∀ task ∈ session.socket.queue, task = Task.plainReadyRead) :
      ∀ task ∈ session.socket.queue ++ [.plainReadyRead], task = Task.plainReadyRead := by
    intro task hmem
    rcases List.mem_append.mp hmem with hmem | hmem
    · exact hall task hmem
    · exact List.mem_singleton.mp hmem
  have hother {task : Task} (htask : task ≠ .plainReadyRead) (hmem : task ∉ session.socket.queue) :
      task ∉ session.socket.queue ++ [.plainReadyRead] := by
    intro hnext
    rcases List.mem_append.mp hnext with hnext | hnext
    · exact hmem hnext
    · exact htask (List.mem_singleton.mp hnext)
  rcases h.phase with ⟨seen, hwaiting⟩ | ⟨seen, hrefused⟩ | ⟨hello, rest, hreading⟩
  · have hreceived : session.received ++ chunk = seen ++ (session.socket.available ++ chunk) := by
      rw [hwaiting.received, List.append_assoc]
    exact .inl ⟨seen, hwaiting.state_eq, ⟨hwaiting.awaits.key_eq, hwaiting.awaits.offset, hwaiting.awaits.limit,
      hwaiting.awaits.incoming, hwaiting.awaits.needed⟩, hreceived, hwaiting.returned, hwaiting.events,
      hqueue hwaiting.queue⟩
  · have hreceived : session.received ++ chunk = seen ++ (session.socket.available ++ chunk) := by
      rw [hrefused.received, List.append_assoc]
    exact .inr (.inl ⟨seen, hrefused.state_eq, hrefused.bad, hreceived, hrefused.returned, hrefused.events,
      hrefused.limit, hqueue hrefused.queue⟩)
  · have hreceived : session.received ++ chunk = hello ++ (rest ++ (session.socket.available ++ chunk)) := by
      rw [hreading.received, List.append_assoc, List.append_assoc]
    refine .inr (.inr ⟨hello, rest, hreading.connected, hreading.good, hreceived,
      ⟨hreading.marked.none, hreading.marked.some⟩, hreading.stream, ?_⟩)
    cases hreading.works with
    | connected hstate hquiet hnoTask hidle =>
      exact .connected hstate hquiet (hother nofun hnoTask) fun hcheck hlimit =>
        hidle (fun hmem => hcheck (List.mem_append_left _ hmem)) hlimit
    | failed hstate hstream htold => exact .failed hstate hstream (htold.imp_right (List.mem_append_left _))

/-- **The owner reads.** -/
lemma Sound.read {session : Session} (h : Sound HmacSha256 key digest session) (size : ℕ) :
    ∃ bytes next, Tls.read session.socket size = some (bytes, next) ∧
      Sound HmacSha256 key digest { session with socket := next, returned := session.returned ++ bytes } := by
  have hnothing (hlimit : session.socket.incomingGoodDataLimit = 0) :
      Tls.read session.socket size = some ([], session.socket) := by
    rw [Tls.read, if_pos hlimit]
  have hsame : Sound HmacSha256 key digest
      { session with socket := session.socket, returned := session.returned ++ [] } := by
    rw [List.append_nil]
    exact h
  rcases h.phase with ⟨seen, hwaiting⟩ | ⟨seen, hrefused⟩ | ⟨hello, rest, hreading⟩
  · exact ⟨[], _, hnothing hwaiting.awaits.limit, hsame⟩
  · exact ⟨[], _, hnothing hrefused.limit, hsame⟩
  · obtain ⟨bytes, next, hread, havailable, hkept, hwritten, hnext⟩ := hreading.read size
    refine ⟨bytes, next, hread, hwritten ▸ h.written, fun hmore hstate => ?_, .inr (.inr ⟨hello, rest, hnext⟩)⟩
    obtain ⟨hqueue, hsameState⟩ := hkept.resolve_left hstate
    exact hqueue ▸ h.arrives (havailable ▸ hmore) (hsameState ▸ hstate)

/-- **The owner writes.** -/
lemma Sound.write {session : Session} (h : Sound HmacSha256 key digest session) {start buffer : Bytes}
    (hstart : start.length ≤ kClientPartSize) (hbuffer : buffer ≠ []) :
    ∃ next, Tls.write session.socket start buffer = some next ∧
      Sound HmacSha256 key digest { session with
        socket := next
        sent := session.sent ++ if isConnected session.socket then start ++ buffer else [] } := by
  obtain ⟨written, hwrite⟩ : ∃ written,
      Tls.write session.socket start buffer = some { session.socket with written := written } := by
    rw [Tls.write, if_neg hbuffer]
    split_ifs <;> exact ⟨_, rfl⟩
  refine ⟨_, hwrite, write_written hstart hwrite h.written, h.arrives, ?_⟩
  rcases h.phase with ⟨seen, hwaiting⟩ | ⟨seen, hrefused⟩ | ⟨hello, rest, hreading⟩
  · exact .inl ⟨seen, hwaiting.state_eq, ⟨hwaiting.awaits.key_eq, hwaiting.awaits.offset, hwaiting.awaits.limit,
      hwaiting.awaits.incoming, hwaiting.awaits.needed⟩, hwaiting.received, hwaiting.returned, hwaiting.events,
      hwaiting.queue⟩
  · exact .inr (.inl ⟨seen, hrefused.state_eq, hrefused.bad, hrefused.received, hrefused.returned, hrefused.events,
      hrefused.limit, hrefused.queue⟩)
  · refine .inr (.inr ⟨hello, rest, hreading.connected, hreading.good, hreading.received,
      ⟨hreading.marked.none, hreading.marked.some⟩, hreading.stream, ?_⟩)
    cases hreading.works with
    | connected hstate hquiet hnoTask hidle => exact .connected hstate hquiet hnoTask hidle
    | failed hstate hstream htold => exact .failed hstate hstream htold

/-- A call as it has to be: a buffer is written, with a start that fits into a record. -/
def Op.Allowed : Op → Prop
  | .write start buffer => start.length ≤ kClientPartSize ∧ buffer ≠ []
  | _ => True

/-- **A step keeps what a session keeps**, and no assertion fails. -/
theorem Sound.step {session : Session} (h : Sound HmacSha256 key digest session)
    (hdigest : digest.length = kHelloDigestLength) {op : Op} (hop : op.Allowed) :
    ∃ next, Tls.step HmacSha256 session op = some next ∧ Sound HmacSha256 key digest next := by
  cases op with
  | receive chunk => exact ⟨_, rfl, h.receive chunk⟩
  | turn =>
    rcases hqueue : session.socket.queue with - | ⟨task, tasks⟩
    · refine ⟨session, ?_, h⟩
      rw [Tls.step, hqueue]
    · obtain ⟨next, hnext, hsound⟩ := h.turn hdigest hqueue
      refine ⟨_, ?_, hsound⟩
      rw [Tls.step, hqueue]
      exact congrArg (Option.map _) hnext
  | read size =>
    obtain ⟨bytes, next, hnext, hsound⟩ := h.read size
    exact ⟨_, congrArg (Option.map _) hnext, hsound⟩
  | write start buffer =>
    obtain ⟨next, hnext, hsound⟩ := h.write hop.1 hop.2
    exact ⟨_, congrArg (Option.map _) hnext, hsound⟩

/-- A run keeps what a session keeps, and no assertion fails. -/
theorem Sound.run {session : Session} (h : Sound HmacSha256 key digest session)
    (hdigest : digest.length = kHelloDigestLength) {ops : List Op} (hops : ∀ op ∈ ops, op.Allowed) :
    ∃ last, Tls.run HmacSha256 session ops = some last ∧ Sound HmacSha256 key digest last := by
  induction ops generalizing session with
  | nil => exact ⟨session, rfl, h⟩
  | cons op ops ih =>
    obtain ⟨next, hnext, hsound⟩ := h.step hdigest (hops op List.mem_cons_self)
    obtain ⟨last, hlast, hlastSound⟩ := ih hsound fun op hmem => hops op (List.mem_cons_of_mem _ hmem)
    refine ⟨last, ?_, hlastSound⟩
    rw [Tls.run, List.foldlM_cons, hnext]
    exact hlast

/-! ### What the owner may rely on -/

/-- **What the owner of a socket may rely on**, by all that has come, been read and been written. -/
structure Faithful (HmacSha256 : Bytes → Bytes → Bytes) (key digest : Bytes) (session : Session) : Prop where
  /-- A connected socket has had a good greeting. -/
  connected : .connected ∈ session.socket.events →
    ∃ hello rest, session.received = hello ++ rest ∧ GoodHello HmacSha256 key digest hello
  /-- After a good greeting the socket is connected. -/
  connects : session.socket.queue = [] → ∀ hello rest, session.received = hello ++ rest →
    GoodHello HmacSha256 key digest hello → .connected ∈ session.socket.events
  /-- What was read is the start of the payload. -/
  returned : ∀ hello rest, session.received = hello ++ rest → GoodHello HmacSha256 key digest hello →
    session.returned <+: payload rest
  /-- Once nothing is left in the buffer it is all payload. -/
  drained : session.socket.queue = [] → hasBytesAvailable session.socket = false → ∀ hello rest,
    session.received = hello ++ rest → GoodHello HmacSha256 key digest hello → session.returned = payload rest
  /-- The error is raised at a record with another header, when all payload before it was read. -/
  raised : .error ∈ session.socket.events → ∀ hello rest, session.received = hello ++ rest →
    GoodHello HmacSha256 key digest hello → Broken rest ∧ session.returned = payload rest
  /-- At such a record it is raised. -/
  raises : session.socket.queue = [] → ∀ hello rest, session.received = hello ++ rest →
    GoodHello HmacSha256 key digest hello → Broken rest → session.returned = payload rest →
    .error ∈ session.socket.events
  /-- What is written is records with the payload. -/
  written : Written session.socket.written session.sent

/-- There is only one good greeting at the start of a stream. -/
lemma GoodHello.unique {hello rest hello' rest' : Bytes} (h : GoodHello HmacSha256 key digest hello)
    (h' : GoodHello HmacSha256 key digest hello') (heq : hello ++ rest = hello' ++ rest') : hello = hello' ∧ rest =
      rest' := by
  have hgreeting := h.greeting rest
  rw [heq, h'.greeting rest'] at hgreeting
  injection hgreeting with hlength
  exact List.append_inj heq hlength.symm

/-- No good greeting is at the start of a stream that waits for one. -/
lemma Waiting.not_good {session : Session} {seen : Bytes} (h : Waiting HmacSha256 key digest session seen)
    (hnone : session.socket.available = []) {hello rest : Bytes} (hreceived : session.received = hello ++ rest) :
    ¬GoodHello HmacSha256 key digest hello := by
  intro hgood
  have hgreeting := hgood.greeting rest
  rw [← hreceived, h.received, hnone, List.append_nil] at hgreeting
  rcases h.awaits.needed with hneeded | ⟨rfl, -⟩
  · exact nomatch hneeded.symm.trans hgreeting
  · exact nomatch hgreeting

/-- No good greeting is at the start of a stream that was refused. -/
lemma Refused.not_good {session : Session} {seen : Bytes} (h : Refused HmacSha256 key digest session seen)
    {hello rest : Bytes} (hreceived : session.received = hello ++ rest) : ¬GoodHello HmacSha256 key digest hello := by
  intro hgood
  have hgreeting := hgood.greeting rest
  have hdecided (length : ℕ) : greeting HmacSha256 key digest seen ≠ .wait length := by
    rw [h.bad]
    exact nofun
  rw [← hreceived, h.received, greeting_append hdecided, h.bad] at hgreeting
  cases hgreeting

/-- The payload is what was read and what a reader would make of the rest. -/
lemma Reading.run_eq {session : Session} {hello rest : Bytes} (h : Reading HmacSha256 key digest session hello rest) :
    records.run 0 (rest ++ session.socket.available) =
      after session.returned (records.feed (left session.socket) session.socket.available) := by
  rw [records.run_append, h.stream]
  exact records.feed_append session.returned (left session.socket) session.socket.available

/-- Where all that has come is in the buffer, the rest of the payload is what a reader would make of it. -/
lemma Reading.run_eq_left {session : Session} {hello rest : Bytes}
    (h : Reading HmacSha256 key digest session hello rest)
    (hnone : left session.socket = ([], none) ∨ session.socket.available = []) :
    records.run 0 (rest ++ session.socket.available) = after session.returned (left session.socket) := by
  rcases hnone with hnone | hnone
  · rw [h.run_eq, hnone]
    rfl
  · rw [hnone, List.append_nil, h.stream]

/-- A connected socket with nothing queued: nothing has come that is not in its buffer. -/
lemma Sound.available_eq_nil {session : Session} (h : Sound HmacSha256 key digest session)
    (hqueue : session.socket.queue = []) (hstate : session.socket.state ≠ .Error) : session.socket.available = [] := by
  by_contra havailable
  have hmem := h.arrives havailable hstate
  rw [hqueue] at hmem
  cases hmem

/-- Once a good greeting has come, either it was read or it still waits to be. -/
lemma Sound.reading {session : Session} (h : Sound HmacSha256 key digest session) {hello rest : Bytes}
    (hreceived : session.received = hello ++ rest) (hgood : GoodHello HmacSha256 key digest hello) :
    (session.socket.queue ≠ [] ∧ session.returned = [] ∧ session.socket.events = []) ∨
      ∃ seen, rest = seen ++ session.socket.available ∧ Reading HmacSha256 key digest session hello seen := by
  rcases h.phase with ⟨seen, hwaiting⟩ | ⟨seen, hrefused⟩ | ⟨hello', rest', hreading⟩
  · refine .inl ⟨fun hqueue => ?_, hwaiting.returned, hwaiting.events⟩
    have hstate : session.socket.state ≠ .Error := by
      rw [hwaiting.state_eq]
      exact nofun
    exact hwaiting.not_good (h.available_eq_nil hqueue hstate) hreceived hgood
  · exact absurd hgood (hrefused.not_good hreceived)
  · obtain ⟨rfl, rfl⟩ := hgood.unique hreading.good (hreceived.symm.trans hreading.received)
    exact .inr ⟨rest', rfl, hreading⟩

/-- Where nothing is left of a record in the buffer, no payload is. -/
lemma left_of_drained {socket : TlsSocket} (hlimit : socket.incomingGoodDataLimit ≠ 0)
    (hnone : hasBytesAvailable socket = false) : (left socket).1 = [] := by
  have hend : socket.incoming.length ≤ socket.incomingGoodDataOffset := by
    by_contra hmore
    exact of_decide_eq_false hnone ⟨Nat.pos_of_ne_zero hlimit, Nat.lt_of_not_le hmore⟩
  obtain ⟨limit, hsucc⟩ := Nat.exists_eq_succ_of_ne_zero hlimit
  have hstep : records.step (limit + 1) [] = .wait := rfl
  rw [left, if_neg hlimit, List.drop_eq_nil_of_le hend, hsucc, Incremental.run_wait hstep]

/-- **What a session keeps** is what its owner may rely on. -/
theorem Sound.faithful {session : Session} (h : Sound HmacSha256 key digest session) :
    Faithful HmacSha256 key digest session where
  connected hconnected := by
    rcases h.phase with ⟨seen, hwaiting⟩ | ⟨seen, hrefused⟩ | ⟨hello, rest, hreading⟩
    · rw [hwaiting.events] at hconnected
      cases hconnected
    · exact absurd hconnected hrefused.events
    · exact ⟨hello, _, hreading.received, hreading.good⟩
  connects hqueue hello rest hreceived hgood := by
    rcases h.reading hreceived hgood with ⟨hbusy, -⟩ | ⟨seen, -, hreading⟩
    · exact absurd hqueue hbusy
    · exact hreading.connected
  returned hello rest hreceived hgood := by
    rcases h.reading hreceived hgood with ⟨-, hreturned, -⟩ | ⟨seen, rfl, hreading⟩
    · rw [hreturned]
      exact List.nil_prefix
    · rw [payload, hreading.run_eq]
      exact List.prefix_append _ _
  drained hqueue hnone hello rest hreceived hgood := by
    rcases h.reading hreceived hgood with ⟨hbusy, -⟩ | ⟨seen, rfl, hreading⟩
    · exact absurd hqueue hbusy
    cases hreading.works with
    | connected hstate _ _ hidle =>
      have hstate' : session.socket.state ≠ .Error := by
        rw [hstate]
        decide
      have hcheck : Task.checkNextPacket ∉ session.socket.queue := by
        rw [hqueue]
        exact List.not_mem_nil
      have hleft : (left session.socket).1 = [] := by
        by_cases hlimit : session.socket.incomingGoodDataLimit = 0
        · exact (hidle hcheck hlimit).1
        · exact left_of_drained hlimit hnone
      rw [payload, hreading.run_eq_left (.inr (h.available_eq_nil hqueue hstate')), after, hleft, List.append_nil]
    | failed _ hstream =>
      rw [payload, hreading.run_eq_left (.inl hstream), hstream]
      exact (List.append_nil _).symm
  raised herror hello rest hreceived hgood := by
    rcases h.reading hreceived hgood with ⟨-, -, hevents⟩ | ⟨seen, rfl, hreading⟩
    · rw [hevents] at herror
      cases herror
    · cases hreading.works with
      | connected _ hquiet => exact absurd herror hquiet
      | failed _ hstream =>
        rw [Broken, payload, hreading.run_eq_left (.inl hstream), hstream]
        exact ⟨rfl, (List.append_nil _).symm⟩
  raises hqueue hello rest hreceived hgood hbroken hreturned := by
    rcases h.reading hreceived hgood with ⟨hbusy, -⟩ | ⟨seen, rfl, hreading⟩
    · exact absurd hqueue hbusy
    cases hreading.works with
    | connected hstate _ _ hidle =>
      have hstate' : session.socket.state ≠ .Error := by
        rw [hstate]
        decide
      have hrun := hreading.run_eq_left (.inr (h.available_eq_nil hqueue hstate'))
      rw [payload, hrun] at hreturned
      rw [Broken, hrun] at hbroken
      have hleft : (left session.socket).1 = [] := List.append_right_eq_self.mp hreturned.symm
      have hlimit := limit_of_broken (Prod.ext hleft hbroken)
      have hcheck : Task.checkNextPacket ∉ session.socket.queue := by
        rw [hqueue]
        exact List.not_mem_nil
      exact absurd hbroken (hidle hcheck hlimit).2
    | failed _ _ htold =>
      rw [hqueue] at htold
      exact htold.resolve_right List.not_mem_nil
  written := h.written

/-- **The disguise carries the stream unchanged.** -/
theorem session_faithful (HmacSha256 : Bytes → Bytes → Bytes) (key digest : Bytes)
    (hdigest : digest.length = kHelloDigestLength) (ops : List Op) (hops : ∀ op ∈ ops, op.Allowed) :
    ∃ session, run HmacSha256 (start key digest) ops = some session ∧ Faithful HmacSha256 key digest session := by
  obtain ⟨session, hrun, hsound⟩ := (sound_start HmacSha256 key digest).run hdigest hops
  exact ⟨session, hrun, hsound.faithful⟩

end Stream

/-- A key and the digest of a client. -/
def sampleKey : Bytes := List.replicate 16 1

def sampleDigest : Bytes := List.replicate 32 2

/-- The greeting for them, with a digest in it. -/
def sampleHello (digest : Bytes) : Bytes :=
  kServerHelloPart1 ++ [0, 38] ++ (List.replicate 6 0 ++ digest) ++ (kServerHelloPart3 ++ [0, 0] ++ [])

/-- The digest that the key gives for the greeting. -/
def sampleHmac : Bytes :=
  [0x22, 0xd7, 0xf9, 0xc1, 0xbd, 0x50, 0x6a, 0x6e, 0x46, 0x10, 0x3d, 0xb1, 0xdc, 0x77, 0x36, 0x69, 0x46, 0xba, 0x7d,
    0x6c, 0x95, 0xe9, 0x4b, 0xcc, 0xc0, 0xb6, 0xec, 0x79, 0xbb, 0x8f, 0x7e, 0x15]

/-- The function for digests, as far as it is needed here. -/
def sampleHmacSha256 (key data : Bytes) : Bytes :=
  if key = sampleKey ∧ data = sampleDigest ++ sampleHello (List.replicate 32 0) then sampleHmac
  else List.replicate 32 0

/-- A good greeting comes in two pieces, with a record and a part of another one behind it. -/
theorem sample_faithful :
    GoodHello sampleHmacSha256 sampleKey sampleDigest (sampleHello sampleHmac) ∧
      ∃ session, run sampleHmacSha256 (start sampleKey sampleDigest)
        [.receive ((sampleHello sampleHmac).take 20), .turn,
          .receive ((sampleHello sampleHmac).drop 20 ++ [0x17, 3, 3, 0, 2, 7, 8, 0x17, 3]), .turn, .turn, .read 1,
          .write [1] [2, 3]] = some session ∧ Faithful sampleHmacSha256 sampleKey sampleDigest session := by
  refine ⟨⟨⟨List.replicate 6 0 ++ sampleHmac, [], by decide, by decide, rfl⟩, by decide, by decide, by decide⟩, ?_⟩
  refine session_faithful sampleHmacSha256 sampleKey sampleDigest rfl _ fun op hop => ?_
  simp only [List.mem_cons, List.not_mem_nil, or_false] at hop
  rcases hop with rfl | rfl | rfl | rfl | rfl | rfl | rfl
  iterate 6 exact trivial
  exact ⟨by decide, by decide⟩

end Tls
