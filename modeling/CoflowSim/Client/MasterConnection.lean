import CoflowSim.Client.EventLoop
import CoflowSim.Lib.Run

namespace CoflowSim
open Lib

/-- `addfd(epollfd, fd, one_shot)`, when bytes are waiting already or not. -/
def addfd (one_shot waiting : Bool) : Registration := .add .epollIn one_shot waiting

/-- `modfd(epollfd, fd, ev)`, with the direction ready at the call or not. -/
def modfd (registration : Registration) (ev : Interest) (now : Bool) : Registration := registration.modify ev true now

/-- Where the event loop stands: in `epoll_wait`, before a `recv` of
`receiveMessage`, or after `recvMsg`. -/
inductive LoopPhase
  | blocked
  | receiving
  | received
deriving DecidableEq

/-- Where `SendManager::run` stands with a reply: before `setSendMsg` has taken
it, or before `sendMsg`. -/
inductive ReplyPhase
  | idle
  | offering (msg : List Byte)
  | sending
deriving DecidableEq

/-- The connection to the master, with the kernel's receive queue and the epoll
registration of its descriptor. -/
structure MasterConnection where
  receiveQueue : List Byte
  registration : Registration
  loop : EventLoop
  phase : LoopPhase
  reply : ReplyPhase

/-- The master sends bytes, the send side becomes writable, the event loop
makes its pass in steps, and so does `SendManager::run` with its reply. The
flags say whether the socket is writable at that moment. -/
inductive ConnectionAction
  | arrive (bytes : List Byte)
  | drain
  | epollWait (writable : Bool)
  | recv
  | decode
  | reply (msg : List Byte)
  | setSendMsg (writable : Bool)
  | sendMsg (kernel : SendOutcome) (writable : Bool)
deriving DecidableEq

namespace MasterConnection

/-- After `initSocket`; `waiting` has been sent before. -/
def init (waiting : List Byte) : MasterConnection :=
  ⟨waiting, addfd false (!waiting.isEmpty), .init, .blocked, .idle⟩

def sock (s : MasterConnection) : SocketManage := s.loop.masterSockManger

/-- What the next `recv` asks for at most. -/
def room (s : MasterConnection) : Nat := MAX_RECV_BUFFER_SIZE - s.sock.recvIdx

/-- Whether the direction of an event is ready. -/
def now (s : MasterConnection) (ev : Interest) (writable : Bool) : Bool :=
  match ev with
  | .epollIn => !s.receiveQueue.isEmpty
  | .epollOut => writable

/-- What the next `recv` returns. -/
def recvOutcome (s : MasterConnection) : RecvOutcome :=
  if s.receiveQueue.isEmpty then .eagain else .data (s.receiveQueue.take s.room)

/-- One turn of the loop of `receiveMessage`, which EAGAIN, a full buffer and
MSG_LEN bytes end. -/
def recv (s : MasterConnection) : MasterConnection :=
  let sock := (s.sock.receiveLoop [s.recvOutcome]).1
  let more := !(s.receiveQueue.take s.room).isEmpty && sock.recvIdx < MSG_LEN
  { s with
    receiveQueue := s.receiveQueue.drop s.room
    loop := { s.loop with masterSockManger := sock }
    phase := if more then .receiving else .received }

/-- A call on the send side, with the `modfd` that it makes. -/
def call (s : MasterConnection) (call : SocketManage.SendCall) (writable : Bool) : MasterConnection :=
  { s with
    loop := { s.loop with masterSockManger := call.socket }
    registration := match call.modfd with
      | some ev => modfd s.registration ev (s.now ev writable)
      | none => s.registration }

def step (s : MasterConnection) : ConnectionAction → Option MasterConnection
  | .arrive bytes =>
    if bytes.isEmpty then none
    else some { s with
      receiveQueue := s.receiveQueue ++ bytes, registration := s.registration.notify .epollIn }
  | .drain => some { s with registration := s.registration.notify .epollOut }
  | .epollWait writable =>
    if s.phase = .blocked ∧ s.registration.ready = true then
      let (event, registration) := s.registration.collect (s.now s.registration.interest writable)
      -- the branch for EPOLLOUT does nothing
      let reads := event && s.registration.interest = .epollIn
      let refuses := MAX_RECV_BUFFER_SIZE < s.sock.recvIdx
      some { s with
        registration, phase := if reads then if refuses then .received else .receiving else .blocked }
    else none
  | .recv => if s.phase = .receiving then some s.recv else none
  | .decode =>
    if s.phase = .received then some { s with loop := s.loop.getRecvBuf.decode, phase := .blocked } else none
  | .reply msg => if s.reply = .idle then some { s with reply := .offering msg } else none
  | .setSendMsg writable =>
    match s.reply with
    | .offering msg =>
      let set := s.sock.setSendMsg msg
      -- `while (!masterSockManger->setSendMsg(...));`
      some { s.call set writable with reply := if set.result then .sending else .offering msg }
    | _ => none
  | .sendMsg kernel writable =>
    if s.reply = .sending then some { s.call (s.sock.sendMsg kernel) writable with reply := .idle } else none

/-- The event loop is blocked in `epoll_wait` with no event pending, and no
reply is in progress. -/
def Blocked (s : MasterConnection) : Prop :=
  s.phase = .blocked ∧ s.registration.ready = false ∧ s.reply = .idle

instance (s : MasterConnection) : Decidable s.Blocked := inferInstanceAs (Decidable (_ ∧ _ ∧ _))

/-- An event will come, or a reply is in progress. -/
def Watched (s : MasterConnection) : Prop := s.registration.Pends .epollIn ∨ s.reply ≠ .idle

instance (s : MasterConnection) : Decidable s.Watched := inferInstanceAs (Decidable (_ ∨ _))

/-- There is something to send, and the kernel takes all of it. -/
def SendsAll (s : MasterConnection) (kernel : SendOutcome) : Prop :=
  match kernel with
  | .accepted count => 0 < s.sock.sendBufSize ∧ s.sock.sendBufSize ≤ count
  | _ => False

instance (s : MasterConnection) : (kernel : SendOutcome) → Decidable (s.SendsAll kernel)
  | .accepted _ => inferInstanceAs (Decidable (_ ∧ _))
  | .eagain | .failed => inferInstanceAs (Decidable False)

/-- Bytes only arrive while somebody will look at them; the `recv` that ends a
pass takes all there is, and a reply is sent in one piece, unless an event or
the pass itself makes up for it. -/
def Attended (s : MasterConnection) : ConnectionAction → Prop
  | .arrive _ => s.registration.Watches .epollIn ∨ s.phase = .receiving ∨ s.reply ≠ .idle
  | .recv => s.receiveQueue.length ≤ s.room ∨ s.Watched
  | .sendMsg kernel _ => s.SendsAll kernel ∨ s.receiveQueue = [] ∨ s.phase = .receiving
  | _ => True

instance (s : MasterConnection) : (a : ConnectionAction) → Decidable (s.Attended a)
  | .arrive _ => inferInstanceAs (Decidable (_ ∨ _))
  | .recv => inferInstanceAs (Decidable (_ ∨ _))
  | .sendMsg .. => inferInstanceAs (Decidable (_ ∨ _))
  | .drain | .epollWait _ | .decode | .reply _ | .setSendMsg _ => inferInstanceAs (Decidable True)

/-- The bytes in the queue will be read. A pass starts with an empty buffer, and
`sendMsg` with a descriptor that is not watched for `EPOLLIN`. -/
structure Covered (s : MasterConnection) : Prop where
  covered : s.receiveQueue = [] ∨ s.phase = .receiving ∨ s.Watched
  emptied : s.phase = .blocked → s.sock.recvIdx = 0
  deaf : s.reply = .sending → ¬ s.registration.Watches .epollIn

theorem sendsAll_iff {s : MasterConnection} {kernel : SendOutcome} :
    s.SendsAll kernel ↔ ∃ count, kernel = .accepted count ∧ 0 < s.sock.sendBufSize ∧ s.sock.sendBufSize ≤ count := by
  cases kernel <;> simp [SendsAll]

theorem covered_init (waiting : List Byte) : (init waiting).Covered := by
  refine ⟨?_, fun _ => rfl, nofun⟩
  cases waiting with
  | nil => exact Or.inl rfl
  | cons b rest => exact Or.inr (Or.inr (Or.inl ⟨rfl, rfl, rfl⟩))

theorem recv_phase (s : MasterConnection) : s.recv.phase ≠ .blocked := by
  simp only [recv]
  split <;> simp

namespace Covered

variable {s t : MasterConnection}

theorem arrive (before : s.Covered) {bytes : List Byte} (attended : s.Attended (.arrive bytes)) :
    Covered { s with receiveQueue := s.receiveQueue ++ bytes, registration := s.registration.notify .epollIn } := by
  refine ⟨Or.inr ?_, before.emptied, fun sends => mt (Registration.watches_notify ..).mp (before.deaf sends)⟩
  rcases attended with watches | receiving | replying
  · exact Or.inr (Or.inl (Registration.pends_notify watches))
  · exact Or.inl receiving
  · exact Or.inr (Or.inr replying)

theorem epollWait (before : s.Covered) {writable : Bool} (step : s.step (.epollWait writable) = some t) :
    t.Covered := by
  simp only [MasterConnection.step] at step
  split at step
  · rename_i waits
    have zero := before.emptied waits.1
    cases step
    refine ⟨?_, fun _ => zero, fun sends => mt Registration.watches_of_collect (before.deaf sends)⟩
    rcases before.covered with empty | receiving | pends | replying
    · exact Or.inl empty
    · exact nomatch waits.1.symm.trans receiving
    · by_cases empty : s.receiveQueue = []
      · exact Or.inl empty
      · -- the event is delivered, and the pass begins
        refine Or.inr (Or.inl ?_)
        simp [now, pends.2.2, empty, Registration.collect, pends.2.1, zero]
    · exact Or.inr (Or.inr (Or.inr replying))
  · cases step

theorem sendMsg (before : s.Covered) {kernel : SendOutcome} {writable : Bool}
    (attended : s.Attended (.sendMsg kernel writable)) :
    Covered { s.call (s.sock.sendMsg kernel) writable with reply := .idle } := by
  refine ⟨?_, fun waits => (SocketManage.sendMsg_recvIdx _ _).trans (before.emptied waits), nofun⟩
  rcases attended with all | empty | receiving
  · by_cases empty : s.receiveQueue = []
    · exact Or.inl empty
    · -- the modfd finds the bytes
      obtain ⟨count, rfl, some_bytes, full⟩ := sendsAll_iff.mp all
      refine Or.inr (Or.inr (Or.inl ?_))
      simp only [call, SocketManage.sendMsg_full some_bytes full, now, modfd, List.isEmpty_eq_false_iff.mpr empty,
        Bool.not_false]
      exact Registration.pends_modify ..
  · exact Or.inl empty
  · exact Or.inr (Or.inl receiving)

theorem step {a : ConnectionAction} (before : s.Covered) (attended : s.Attended a) (step : s.step a = some t) :
    t.Covered := by
  cases a with
  | arrive bytes =>
    simp only [MasterConnection.step] at step
    split at step
    · cases step
    · cases step
      exact before.arrive attended
  | drain =>
    cases step
    refine ⟨?_, before.emptied, fun sends => mt (Registration.watches_notify ..).mp (before.deaf sends)⟩
    exact before.covered.imp_right (Or.imp_right (Or.imp_left Registration.pends_notify_of_pends))
  | epollWait writable => exact before.epollWait step
  | recv =>
    simp only [MasterConnection.step] at step
    split at step
    · cases step
      refine ⟨?_, fun blocked => absurd blocked s.recv_phase, before.deaf⟩
      rcases attended with fits | watched
      · exact Or.inl (List.drop_of_length_le fits)
      · exact Or.inr (Or.inr watched)
    · cases step
  | decode =>
    simp only [MasterConnection.step] at step
    split at step
    · rename_i received
      cases step
      refine ⟨?_, fun _ => by simp only [sock, EventLoop.decode_socket]; rfl, before.deaf⟩
      rcases before.covered with empty | receiving | watched
      · exact Or.inl empty
      · exact nomatch received.symm.trans receiving
      · exact Or.inr (Or.inr watched)
    · cases step
  | reply msg =>
    simp only [MasterConnection.step] at step
    split at step
    · cases step
      exact ⟨Or.inr (Or.inr (Or.inr nofun)), before.emptied, nofun⟩
    · cases step
  | setSendMsg writable =>
    simp only [MasterConnection.step] at step
    split at step
    · rename_i msg _
      cases step
      refine ⟨Or.inr (Or.inr (Or.inr ?_)),
        fun waits => (SocketManage.setSendMsg_recvIdx _ _).trans (before.emptied waits), fun sends => ?_⟩
      · simp only
        split <;> nofun
      · rcases s.sock.setSendMsg_cases msg with ⟨-, -, out, -⟩ | ⟨-, refused⟩
        · simp [call, out, modfd, Registration.modify, Registration.Watches]
        · simp [refused] at sends
    · cases step
  | sendMsg kernel writable =>
    simp only [MasterConnection.step] at step
    split at step
    · cases step
      exact before.sendMsg attended
    · cases step

end Covered

theorem covered_run {waiting : List Byte} {acts : List ConnectionAction} {s : MasterConnection}
    (run : Run (Where (Steps step) Attended) (init waiting) acts s) : s.Covered :=
  run.invariant (covered_init waiting) fun _ _ _ before taken => before.step taken.1 taken.2

/-- No instruction is stranded in the receive queue by a run that attends to
all its bytes. -/
theorem queue_empty_when_blocked {waiting : List Byte} {acts : List ConnectionAction} {s : MasterConnection}
    (run : Run (Where (Steps step) Attended) (init waiting) acts s) (blocked : s.Blocked) : s.receiveQueue = [] := by
  obtain ⟨waits, quiet, idle⟩ := blocked
  rcases (covered_run run).covered with empty | receiving | pends | replying
  · exact empty
  · exact nomatch waits.symm.trans receiving
  · exact nomatch quiet.symm.trans pends.1
  · exact absurd idle replying

/-- Bytes that nobody looks at stay where they are until the event loop blocks. -/
theorem strands_blocked {s : MasterConnection} (left : s.receiveQueue ≠ []) (waits : s.phase = .blocked)
    (unwatched : ¬ s.Watched) : ∃ acts t, Run (Steps step) s acts t ∧ t.Blocked ∧ t.receiveQueue ≠ [] := by
  obtain ⟨quiet, idle⟩ := not_or.mp unwatched
  have idle := not_not.mp idle
  by_cases ready : s.registration.ready = true
  · have unread : ((s.registration.collect (s.now s.registration.interest false)).1 &&
        decide (s.registration.interest = .epollIn)) = false := by
      by_cases watches : s.registration.Watches .epollIn
      · exact absurd ⟨ready, watches⟩ quiet
      · by_cases reads : s.registration.interest = .epollIn
        · have disabled : s.registration.armed = false := by
            simpa [Registration.Watches, reads] using watches
          simp [Registration.collect, disabled]
        · simp [reads]
    have waited : s.step (.epollWait false) = some { s with
        registration := (s.registration.collect (s.now s.registration.interest false)).2, phase := .blocked } := by
      simp only [step, waits, ready, and_self, if_true, unread, Bool.false_eq_true, if_false]
    exact ⟨_, _, Run.single waited, ⟨rfl, Registration.collect_ready .., idle⟩, left⟩
  · exact ⟨[], s, .start, ⟨waits, Bool.eq_false_iff.mpr ready, idle⟩, left⟩

theorem strands {s : MasterConnection} (left : s.receiveQueue ≠ []) (away : s.phase ≠ .receiving)
    (unwatched : ¬ s.Watched) : ∃ acts t, Run (Steps step) s acts t ∧ t.Blocked ∧ t.receiveQueue ≠ [] := by
  cases phase : s.phase with
  | blocked => exact strands_blocked left phase unwatched
  | receiving => exact absurd phase away
  | received =>
    have decoded : s.step .decode = some { s with loop := s.loop.getRecvBuf.decode, phase := .blocked } := by
      simp only [step, phase, if_true]
    obtain ⟨acts, t, run, blocked, kept⟩ :=
      strands_blocked (s := { s with loop := s.loop.getRecvBuf.decode, phase := .blocked }) left rfl unwatched
    exact ⟨_, t, (Run.single decoded).trans run, blocked, kept⟩

theorem recv_short {s : MasterConnection} (more : s.room < s.receiveQueue.length) :
    s.recv.phase = .received ∧ s.recv.receiveQueue ≠ [] := by
  have left : s.receiveQueue.drop s.room ≠ [] := by
    simpa using more
  refine ⟨?_, left⟩
  have some_bytes : s.receiveQueue.isEmpty = false := by
    rw [List.isEmpty_eq_false_iff, ← List.length_pos_iff]
    omega
  have read : (s.receiveQueue.take s.room).length = s.room := List.length_take_of_le (Nat.le_of_lt more)
  have filled := SocketManage.receiveLoop_one (s := s.sock) (Nat.le_of_eq read)
  have stops : ¬ (s.sock.receiveLoop [.data (s.receiveQueue.take s.room)]).1.recvIdx < MSG_LEN := by
    rw [filled, read]
    simp only [room, MAX_RECV_BUFFER_SIZE, MSG_LEN]
    omega
  simp only [recv, recvOutcome, some_bytes, Bool.false_eq_true, if_false, stops, decide_false, Bool.and_false]

/-- Where a run does not attend to its bytes, some are stranded. -/
theorem unattended_strands {s t : MasterConnection} {a : ConnectionAction} (before : s.Covered)
    (unattended : ¬ s.Attended a) (taken : s.step a = some t) :
    ∃ acts u, Run (Steps step) t acts u ∧ u.Blocked ∧ u.receiveQueue ≠ [] := by
  cases a with
  | arrive bytes =>
    obtain ⟨unwatched, away, idle⟩ := (not_or.trans (and_congr_right' not_or)).mp unattended
    simp only [step] at taken
    split at taken
    · cases taken
    · rename_i some_bytes
      cases taken
      refine strands ?_ away ?_
      · simp_all
      · rintro (pends | replying)
        · exact unwatched ((Registration.watches_notify ..).mp pends.2)
        · exact idle replying
  | recv =>
    obtain ⟨more, unwatched⟩ := not_or.mp unattended
    simp only [step] at taken
    split at taken
    · cases taken
      obtain ⟨received, left⟩ := recv_short (Nat.not_le.mp more)
      exact strands left (by simp [received]) unwatched
    · cases taken
  | sendMsg kernel writable =>
    obtain ⟨short, left, away⟩ := (not_or.trans (and_congr_right' not_or)).mp unattended
    simp only [step] at taken
    split at taken
    · rename_i sends
      cases taken
      refine strands left away ?_
      rintro (pends | replying)
      · have deaf := before.deaf sends
        rcases s.sock.sendMsg_cases kernel with ⟨count, same, some_bytes, full, -⟩ | ⟨-, other, -⟩
        · exact short (sendsAll_iff.mpr ⟨count, same, some_bytes, full⟩)
        · have watches := pends.2
          simp only [call] at watches
          split at watches
          · rename_i ev registered
            exact other (registered.trans (congrArg some watches.2))
          · exact deaf watches
      · exact replying rfl
    · cases taken
  | drain | epollWait | decode | reply | setSendMsg => exact absurd trivial unattended

/-- A reply, then one event for the next instruction, which leaves the
descriptor disabled; another reply arms it again. -/
theorem queue_empty_when_blocked_two : ∃ acts s, Run (Where (Steps step) Attended) (init [40, 49, 41]) acts s ∧
    s.Blocked ∧ s.loop.appended = [[49], [50], [51]] ∧ s.receiveQueue = [] := by
  obtain ⟨s, run, last⟩ := Run.of_foldlM_any (guarded step Attended) (init [40, 49, 41])
    [.epollWait true, .recv, .recv, .decode, .reply [40, 48, 32, 48, 32, 55, 41], .setSendMsg false,
      .sendMsg (.accepted 7) false, .arrive [40, 50, 41], .epollWait false, .recv, .recv, .decode,
      .reply [40, 48, 32, 49, 32, 55, 41], .arrive [40, 51, 41], .setSendMsg false, .sendMsg (.accepted 7) false,
      .epollWait false, .recv, .recv, .decode]
    (p := fun s => decide (s.Blocked ∧ s.loop.appended = [[49], [50], [51]])) (by decide +kernel)
  obtain ⟨blocked, appended⟩ := of_decide_eq_true last
  exact ⟨_, s, run.of_guarded, blocked, appended, queue_empty_when_blocked run.of_guarded blocked⟩

theorem second_instruction_is_stranded : ∃ acts s, Run (Steps step) (init []) acts s ∧
    s.Blocked ∧ s.loop.appended = [[49]] ∧ s.receiveQueue = [40, 50, 41] := by
  obtain ⟨s, run, last⟩ := Run.of_foldlM_any step (init [])
    [.reply [40, 48, 32, 48, 32, 55, 41], .setSendMsg false, .sendMsg (.accepted 7) false, .arrive [40, 49, 41],
      .epollWait false, .recv, .recv, .decode, .arrive [40, 50, 41]]
    (p := fun s => decide (s.Blocked ∧ s.loop.appended = [[49]] ∧ s.receiveQueue = [40, 50, 41])) (by decide +kernel)
  exact ⟨_, s, run, of_decide_eq_true last⟩

end MasterConnection

end CoflowSim
