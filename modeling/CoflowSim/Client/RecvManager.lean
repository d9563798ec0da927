import CoflowSim.Client.MasterConnection

namespace CoflowSim
open Lib

def RECV_FILE_NUM : Nat := 65536

/-- What a `ReceFile` asks `recv` for. -/
def RECEFILE_BUFFER_SIZE : Nat := 1024

/-- The limit of tasks that the client leaves its pool. -/
def MAX_TASK_NUM : Nat := 10000

inductive ConnState
  | queued
  | opened
  | closed
deriving DecidableEq

/-- Where the run of a `ReceFile` stands: not appended, in the pool's queue, at
the top of its loop, inside `recv` on the connection that its descriptor meant
at the call, after a `recv` that returned 0, between `removefd` and the clearing
of `m_Sockfd`, or done. -/
inductive ReceStage
  | absent
  | queued
  | looping
  | receiving (source : Option Nat)
  | atEof
  | closing
  | returned
deriving DecidableEq

/-- A connection of a peer: the bytes in its receive queue, whether its FIN has
come, its descriptor once it is accepted with the registration, the run of the
`ReceFile` that its event has started, and whether that kind of run has read it
to its end. -/
structure DataConnection where
  pending : Nat
  fin : Bool
  state : ConnState
  fd : Nat
  registration : Option Registration
  run : ReceStage
  eof : Bool
deriving DecidableEq

inductive Source
  | listening
  | connection (c : Nat)
deriving DecidableEq

/-- An event in `events`, with `EPOLLRDHUP` in its mask or not. -/
structure Event where
  source : Source
  rdhup : Bool
deriving DecidableEq

/-- Where `RecvManager::run` stands: before its first `addfd`, in `epoll_wait`,
in the loop over the events, after `accept`, or after `initSocket`. -/
inductive RecvPhase
  | starting
  | waiting
  | handling
  | accepted (c : Nat)
  | initialised (c : Nat)
deriving DecidableEq

/-- `m_Sockfd` is `none` for -1. -/
structure RecvManager where
  connections : List DataConnection
  backlog : List Nat
  listening : Option Registration
  events : List Event
  phase : RecvPhase
  receFiles : Nat → Option Nat

/-- The peers connect, send and close; `RecvManager::run`, the kernel's
collection of events in `epoll_wait`, and the runs of `ReceFile`s make their
steps. `tasks` is the length of the pool's queue at that moment, and `count`
what `recv` takes. -/
inductive RecvAction
  | connect
  | send (c : Nat) (bytes : Nat)
  | finish (c : Nat)
  | start
  | collect (source : Source)
  | wake
  | accept (fd : Nat)
  | initSocket
  | addConnfd
  | dispatch (tasks : Nat)
  | wait
  | take (c : Nat)
  | recv (c : Nat)
  | recvReturns (c : Nat) (count : Nat)
  | closeConn (c : Nat)
  | clear (c : Nat)
deriving DecidableEq

/-- There is something to read, if only the end. -/
def DataConnection.readable (x : DataConnection) : Bool := 0 < x.pending || x.fin

/-- A connection that has just come. -/
def DataConnection.fresh : DataConnection := ⟨0, false, .queued, 0, none, .absent, false⟩

def DataConnection.notify (x : DataConnection) : DataConnection :=
  { x with registration := x.registration.map fun r => r.notify .epollIn }

namespace RecvManager

/-- The client when it has created its `RecvManager`. -/
def init : RecvManager := ⟨[], [], none, [], .starting, fun _ => none⟩

def setConn (s : RecvManager) (c : Nat) (change : DataConnection → DataConnection) : RecvManager :=
  { s with connections := s.connections.modify c change }

/-- The connection that a descriptor means. -/
def owner (s : RecvManager) (fd : Nat) : Option Nat :=
  s.connections.findIdx? fun x => x.state = .opened ∧ x.fd = fd

/-- `removefd`: the descriptor leaves the epoll instance and is closed. -/
def removefd (s : RecvManager) (fd : Nat) : RecvManager :=
  match s.owner fd with
  | some d => s.setConn d fun y => { y with state := .closed, registration := none }
  | none => s

/-- The number is free. -/
def Free (s : RecvManager) (fd : Nat) : Prop :=
  ∀ (d : Nat) y, s.connections[d]? = some y → y.state = .opened → y.fd ≠ fd

inductive Step : RecvManager → RecvAction → RecvManager → Prop
  | connect {s} :
      Step s .connect { s with
        connections := s.connections ++ [.fresh]
        backlog := s.backlog ++ [s.connections.length]
        listening := s.listening.map fun r => r.notify .epollIn }
  | send {s c x bytes} (here : s.connections[c]? = some x) (positive : 0 < bytes) (goes : x.fin = false)
      (unclosed : x.state ≠ .closed) :
      Step s (.send c bytes) (s.setConn c fun x => { x with pending := x.pending + bytes }.notify)
  | finish {s c x} (here : s.connections[c]? = some x) (goes : x.fin = false) :
      Step s (.finish c) (s.setConn c fun x => { x with fin := true }.notify)
  | start {s} (starts : s.phase = .starting) :
      Step s .start { s with listening := some (addfd false !s.backlog.isEmpty), phase := .waiting }
  | collectListening {s r} (waits : s.phase = .waiting) (fresh : ∀ e ∈ s.events, e.source ≠ .listening)
      (listens : s.listening = some r) (ready : r.ready = true) :
      Step s (.collect .listening) { s with
        listening := some (r.collect !s.backlog.isEmpty).2
        events := if (r.collect !s.backlog.isEmpty).1 then s.events ++ [⟨.listening, false⟩] else s.events }
  | collectConnection {s c x r} (waits : s.phase = .waiting) (fresh : ∀ e ∈ s.events, e.source ≠ .connection c)
      (here : s.connections[c]? = some x) (watches : x.registration = some r) (ready : r.ready = true) :
      Step s (.collect (.connection c))
        { s.setConn c fun x => { x with registration := some (r.collect x.readable).2 } with
          events := if (r.collect x.readable).1 then s.events ++ [⟨.connection c, x.fin⟩] else s.events }
  | wake {s} (waits : s.phase = .waiting) (events : s.events ≠ []) : Step s .wake { s with phase := .handling }
  | acceptNone {s rdhup rest} (fd : Nat) (handles : s.phase = .handling)
      (front : s.events = ⟨.listening, rdhup⟩ :: rest) (empty : s.backlog = []) :
      Step s (.accept fd) { s with events := rest }
  -- the kernel gives the connection any free number
  | accept {s rdhup rest c queue fd} (handles : s.phase = .handling) (front : s.events = ⟨.listening, rdhup⟩ :: rest)
      (first : s.backlog = c :: queue) (inside : fd < RECV_FILE_NUM) (free : s.Free fd) :
      Step s (.accept fd) { s.setConn c fun x => { x with state := .opened, fd } with
        backlog := queue, events := rest, phase := .accepted c }
  | initSocket {s c x} (accepted : s.phase = .accepted c) (here : s.connections[c]? = some x) :
      Step s .initSocket { s with
        receFiles := Function.update s.receFiles x.fd (some x.fd), phase := .initialised c }
  | addConnfd {s c} (initialised : s.phase = .initialised c) :
      Step s .addConnfd
        { s.setConn c fun x => { x with registration := some (addfd true x.readable) } with phase := .handling }
  -- the branch for `EPOLLRDHUP` is empty
  | hangUp {s c rest} (tasks : Nat) (handles : s.phase = .handling) (front : s.events = ⟨.connection c, true⟩ :: rest) :
      Step s (.dispatch tasks) { s with events := rest }
  | refuse {s c rest tasks} (handles : s.phase = .handling) (front : s.events = ⟨.connection c, false⟩ :: rest)
      (full : MAX_TASK_NUM < tasks) : Step s (.dispatch tasks) { s with events := rest }
  | append {s c rest tasks} (handles : s.phase = .handling) (front : s.events = ⟨.connection c, false⟩ :: rest)
      (room : tasks ≤ MAX_TASK_NUM) :
      Step s (.dispatch tasks) { s.setConn c fun x => { x with run := .queued } with events := rest }
  | wait {s} (handles : s.phase = .handling) (events : s.events = []) : Step s .wait { s with phase := .waiting }
  | take {s c x} (here : s.connections[c]? = some x) (queued : x.run = .queued) :
      Step s (.take c) (s.setConn c fun x => { x with run := .looping })
  | recv {s c x} (here : s.connections[c]? = some x) (loops : x.run = .looping) :
      Step s (.recv c) (s.setConn c fun x => { x with run := .receiving ((s.receFiles x.fd).bind s.owner) })
  -- a descriptor that means no connection: `recv` fails, and the loop ends
  | recvFails {s c x} (count : Nat) (here : s.connections[c]? = some x) (receives : x.run = .receiving none) :
      Step s (.recvReturns c count) (s.setConn c fun x => { x with run := .returned })
  | recvBytes {s c x d y count} (here : s.connections[c]? = some x) (receives : x.run = .receiving (some d))
      (there : s.connections[d]? = some y) (positive : 0 < count) (within : count ≤ y.pending)
      (room : count ≤ RECEFILE_BUFFER_SIZE) :
      Step s (.recvReturns c count) ((s.setConn d fun y => { y with pending := y.pending - count }).setConn c fun x =>
        { x with run := .looping })
  | recvEnd {s c x d y} (here : s.connections[c]? = some x) (receives : x.run = .receiving (some d))
      (there : s.connections[d]? = some y) (drained : y.pending = 0) (ended : y.fin = true) :
      Step s (.recvReturns c 0) ((s.setConn d fun y => { y with eof := true }).setConn c fun x =>
        { x with run := .atEof })
  | closeNone {s c x} (here : s.connections[c]? = some x) (ended : x.run = .atEof) (cleared : s.receFiles x.fd = none) :
      Step s (.closeConn c) (s.setConn c fun x => { x with run := .returned })
  | closeConn {s c x fd} (here : s.connections[c]? = some x) (ended : x.run = .atEof)
      (means : s.receFiles x.fd = some fd) :
      Step s (.closeConn c) ((s.removefd fd).setConn c fun x => { x with run := .closing })
  | clear {s c x} (here : s.connections[c]? = some x) (closes : x.run = .closing) :
      Step s (.clear c) { s.setConn c fun x => { x with run := .returned } with
        receFiles := Function.update s.receFiles x.fd none }

/-- `RecvManager::run` is blocked in `epoll_wait`, and no event is pending. -/
structure Blocked (s : RecvManager) : Prop where
  waits : s.phase = .waiting
  none : s.events = []
  listening : ∀ r, s.listening = some r → r.ready = false
  connections : ∀ (c : Nat) x r, s.connections[c]? = some x → x.registration = some r → r.ready = false

section Connections

variable {s : RecvManager} {c d fd : Nat} {x y : DataConnection} {change : DataConnection → DataConnection}

theorem setConn_self (here : s.connections[c]? = some x) : (s.setConn c change).connections[c]? = some (change x) := by
  simp [setConn, here]

theorem setConn_other (other : d ≠ c) : (s.setConn c change).connections[d]? = s.connections[d]? := by
  simp [setConn, Ne.symm other]

/-- Where a connection comes from when one of them has changed. -/
theorem of_setConn (there : (s.setConn c change).connections[d]? = some y) :
    (d ≠ c ∧ s.connections[d]? = some y) ∨ d = c ∧ ∃ x, s.connections[c]? = some x ∧ y = change x := by
  by_cases mine : d = c
  · subst mine
    simp only [setConn, List.getElem?_modify_eq, Option.map_eq_map, Option.map_eq_some_iff] at there
    obtain ⟨x, here, same⟩ := there
    exact Or.inr ⟨rfl, x, here, same.symm⟩
  · rw [setConn_other mine] at there
    exact Or.inl ⟨mine, there⟩

/-- A descriptor means an open connection. -/
theorem owner_some (means : s.owner fd = some d) :
    ∃ y, s.connections[d]? = some y ∧ y.state = .opened ∧ y.fd = fd := by
  obtain ⟨inside, opened, -⟩ := List.findIdx?_eq_some_iff_getElem.mp means
  have opened : s.connections[d].state = .opened ∧ s.connections[d].fd = fd := by simpa using opened
  exact ⟨_, List.getElem?_eq_getElem inside, opened.1, opened.2⟩

theorem owner_isSome (here : s.connections[c]? = some x) (opened : x.state = .opened) :
    ∃ d, s.owner x.fd = some d := by
  cases means : s.owner x.fd with
  | some d => exact ⟨d, rfl⟩
  | none =>
    have none := List.findIdx?_eq_none_iff.mp means x (List.mem_of_getElem? here)
    simp [opened] at none

theorem removefd_frame (s : RecvManager) (fd : Nat) : (s.removefd fd).backlog = s.backlog ∧
    (s.removefd fd).listening = s.listening ∧ (s.removefd fd).events = s.events ∧
    (s.removefd fd).phase = s.phase ∧ (s.removefd fd).receFiles = s.receFiles := by
  unfold removefd
  split <;> exact ⟨rfl, rfl, rfl, rfl, rfl⟩

end Connections

end RecvManager

end CoflowSim
