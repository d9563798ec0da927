import Mathlib.Data.List.Nodup
import CoflowSim.Client.RecvManager

namespace CoflowSim
open Lib

/-- The event is one of the listening socket. -/
def Event.listens (e : Event) : Bool := e.source = .listening

namespace RecvManager

/-- The events of the listening socket that have not been handled: the one that
is pending, and those that `epoll_wait` has taken. -/
def dueOf (listening : Option Registration) (events : List Event) : Nat :=
  (match listening with
    | some r => if r.ready then 1 else 0
    | none => 0) + events.countP Event.listens

def due (s : RecvManager) : Nat := dueOf s.listening s.events

/-- A connection comes while an event of the listening socket is pending, or two
are there when `addfd` registers the socket: one event stands for both. -/
def Merges (s : RecvManager) : RecvAction → Prop
  | .connect => ∃ r, s.listening = some r ∧ r.ready = true
  | .start => 2 ≤ s.backlog.length
  | _ => False

/-- No two connections share an event. -/
def Separate (s : RecvManager) (a : RecvAction) : Prop := ¬ s.Merges a

/-- Every connection has been accepted and registered. -/
def Drained (s : RecvManager) : Prop :=
  ∀ (c : Nat) x, s.connections[c]? = some x → x.state ≠ .queued ∧ (x.registration.isSome = true ∨ x.state = .closed)

/-- The listening socket is registered for good once `RecvManager::run` has
begun, and an event never outnumbers the connections that wait. -/
structure Listens (s : RecvManager) : Prop where
  watches : ∀ r, s.listening = some r → r.Watches .epollIn ∧ r.oneShot = false
  silent : s.phase = .starting → s.listening = none ∧ s.events = []
  started : s.phase ≠ .starting → s.listening.isSome = true ∧ s.due ≤ s.backlog.length

section Due

variable {s s' : RecvManager} {a : RecvAction}

theorem due_tail {listening : Option Registration} (e : Event) (rest : List Event) :
    dueOf listening (e :: rest) = dueOf listening rest + if e.listens then 1 else 0 := by
  simp only [dueOf, List.countP_cons]
  omega

theorem Listens.connect (listens : Listens s) (started : s.phase ≠ .starting) :
    s.Separate .connect ∧ dueOf (s.listening.map fun r => r.notify .epollIn) s.events = s.due + 1 ∨
      s.Merges .connect ∧ dueOf (s.listening.map fun r => r.notify .epollIn) s.events = s.due := by
  obtain ⟨registered, -⟩ := listens.started started
  obtain ⟨r, listening⟩ := Option.isSome_iff_exists.mp registered
  have notified : r.notify .epollIn = { r with ready := true } :=
    if_pos (listens.watches r listening).1
  rw [due, listening, Option.map_some, notified]
  by_cases ready : r.ready = true
  · exact Or.inr ⟨⟨r, listening, ready⟩, by simp [dueOf, ready]⟩
  · refine Or.inl ⟨fun ⟨q, same, readyQ⟩ => ?_, by simp [dueOf, ready]; omega⟩
    rw [listening, Option.some.injEq] at same
    exact ready (same ▸ readyQ)

/-- `epoll_wait` returns the event of a listening socket with a connection. -/
theorem Listens.collect (listens : Listens s) (started : s.phase ≠ .starting) {r : Registration}
    (listening : s.listening = some r) (ready : r.ready = true) :
    dueOf (some (r.collect !s.backlog.isEmpty).2)
      (if (r.collect !s.backlog.isEmpty).1 then s.events ++ [⟨.listening, false⟩] else s.events) = s.due := by
  obtain ⟨-, covered⟩ := listens.started started
  simp only [due, dueOf, listening, ready, if_true] at covered ⊢
  have waiting : s.backlog ≠ [] := fun empty => by simp [empty] at covered
  have event : (r.collect !s.backlog.isEmpty).1 = true ∧ (r.collect !s.backlog.isEmpty).2.ready = false := by
    simp [Registration.collect, (listens.watches r listening).1.1, waiting]
  rw [event.2, if_pos event.1, List.countP_append]
  simp [Event.listens]
  omega

/-- What a step does to the backlog and to the events that are due. -/
theorem Listens.books (listens : Listens s) (step : Step s a s') (started : s.phase ≠ .starting) :
    s'.phase ≠ .starting ∧ (s.Separate a ∧ s'.backlog.length + s.due = s.backlog.length + s'.due ∨
      s.Merges a ∧ s'.due = s.due ∧ s'.backlog.length = s.backlog.length + 1) := by
  have same (quiet : s.Separate a) (phase : s'.phase ≠ .starting) (backlog : s'.backlog = s.backlog)
      (due : dueOf s'.listening s'.events = dueOf s.listening s.events) : s'.phase ≠ .starting ∧
        (s.Separate a ∧ s'.backlog.length + s.due = s.backlog.length + s'.due ∨
          s.Merges a ∧ s'.due = s.due ∧ s'.backlog.length = s.backlog.length + 1) :=
    ⟨phase, Or.inl ⟨quiet, by rw [backlog, RecvManager.due, RecvManager.due, due]⟩⟩
  have covered := (listens.started started).2
  cases step with
  | connect =>
    refine ⟨started, (listens.connect started).imp (fun ⟨quiet, due⟩ => ⟨quiet, ?_⟩)
      fun ⟨merges, due⟩ => ⟨merges, due, ?_⟩⟩
    · change _ = _ + dueOf _ _
      simp only [due, List.length_append, List.length_singleton]
      omega
    · simp only [List.length_append, List.length_singleton]
  | start starts => exact absurd starts started
  | collectListening waits fresh listening ready => exact same id started rfl (listens.collect started listening ready)
  | collectConnection =>
    refine same id started rfl ?_
    simp only
    split
    · simp [dueOf, Event.listens, setConn]
    · rfl
  | wake => exact same id (by simp) rfl rfl
  | acceptNone fd handles front empty =>
    rw [empty, due, front, due_tail] at covered
    simp only [Event.listens, decide_true, if_true, List.length_nil] at covered
    omega
  | accept handles front first inside free =>
    refine ⟨by simp, Or.inl ⟨id, ?_⟩⟩
    rw [due, due, front, due_tail, first, List.length_cons]
    simp only [Event.listens, decide_true, if_true, setConn]
    omega
  | initSocket => exact same id (by simp) rfl rfl
  | addConnfd => exact same id (by simp) rfl rfl
  | hangUp tasks handles front => exact same id started rfl (by rw [front, due_tail]; simp [Event.listens])
  | refuse handles front full => exact same id started rfl (by rw [front, due_tail]; simp [Event.listens])
  | append handles front room =>
    exact same id started rfl (by rw [front, due_tail]; simp [Event.listens, setConn])
  | wait => exact same id (by simp) rfl rfl
  | @closeConn c x fd here ended means =>
    obtain ⟨backlog, listening, events, phase, -⟩ := removefd_frame s fd
    refine same id (by rw [← phase] at started; exact started) backlog ?_
    change dueOf (s.removefd fd).listening (s.removefd fd).events = _
    rw [listening, events]
  | send | finish | take | recv | recvFails | recvBytes | recvEnd | closeNone | clear => exact same id started rfl rfl

/-- No step leads back to the beginning. -/
theorem Step.starting (step : Step s a s') (starts : s'.phase = .starting) :
    s.phase = .starting ∧ s'.events = s.events ∧ (s.listening = none → s'.listening = none) := by
  cases step with
  | connect => exact ⟨starts, rfl, fun none => by simp [none]⟩
  | start | wake | accept | initSocket | addConnfd | wait => simp at starts
  | collectListening waits | collectConnection waits => simp [setConn, waits] at starts
  | acceptNone _ handles | hangUp _ handles | refuse handles | append handles => simp [setConn, handles] at starts
  | @closeConn c x fd here ended means =>
    obtain ⟨-, listening, events, phase, -⟩ := removefd_frame s fd
    exact ⟨phase ▸ starts, events, fun none => listening.trans none⟩
  | send | finish | take | recv | recvFails | recvBytes | recvEnd | closeNone | clear => exact ⟨starts, rfl, id⟩

theorem Listens.step_watches (listens : Listens s) (step : Step s a s') {r : Registration}
    (listening : s'.listening = some r) : r.Watches .epollIn ∧ r.oneShot = false := by
  cases step with
  | connect =>
    obtain ⟨q, before, rfl⟩ := Option.map_eq_some_iff.mp listening
    obtain ⟨watches, lasting⟩ := listens.watches q before
    rw [Registration.notify, if_pos watches]
    exact ⟨watches, lasting⟩
  | start =>
    cases listening
    exact ⟨⟨rfl, rfl⟩, rfl⟩
  | @collectListening q waits fresh before ready =>
    cases listening
    obtain ⟨watches, lasting⟩ := listens.watches q before
    rw [Registration.collect]
    split
    · exact ⟨⟨by simp [lasting], watches.2⟩, lasting⟩
    · exact ⟨watches, lasting⟩
  | @closeConn c x fd here ended means => exact listens.watches r ((removefd_frame s fd).2.1 ▸ listening)
  | send | finish | collectConnection | wake | acceptNone | accept | initSocket | addConnfd | hangUp | refuse | append
  | wait | take | recv | recvFails | recvBytes | recvEnd | closeNone | clear => exact listens.watches r listening

/-- The first `addfd` finds an event when connections wait. -/
theorem due_start (s : RecvManager) (silent : s.events = []) :
    dueOf (some (addfd false !s.backlog.isEmpty)) s.events = min 1 s.backlog.length := by
  cases queue : s.backlog <;> simp [dueOf, silent, addfd, Registration.add]

/-- Only its first `addfd` brings `RecvManager::run` to its loop. -/
theorem Step.begins (step : Step s a s') (starts : s.phase = .starting) (begun : s'.phase ≠ .starting) :
    a = .start ∧ s' = { s with listening := some (addfd false !s.backlog.isEmpty), phase := .waiting } := by
  cases step with
  | start => exact ⟨rfl, rfl⟩
  | collectListening waits | collectConnection waits | wake waits => simp [starts] at waits
  | acceptNone _ handles | accept handles | hangUp _ handles | refuse handles | append handles | wait handles =>
    simp [starts] at handles
  | initSocket phase | addConnfd phase => simp [starts] at phase
  | @closeConn c x fd => exact absurd ((removefd_frame s fd).2.2.2.1.trans starts) begun
  | connect | send | finish | take | recv | recvFails | recvBytes | recvEnd | closeNone | clear =>
    exact absurd starts begun

theorem Step.stays_registered (step : Step s a s') (registered : s.listening.isSome = true) :
    s'.listening.isSome = true := by
  cases step with
  | connect => simpa using registered
  | start | collectListening => rfl
  | @closeConn c x fd => exact (removefd_frame s fd).2.1 ▸ registered
  | send | finish | collectConnection | wake | acceptNone | accept | initSocket | addConnfd | hangUp | refuse
  | append | wait | take | recv | recvFails | recvBytes | recvEnd | closeNone | clear => exact registered

theorem Listens.step (listens : Listens s) (step : Step s a s') : Listens s' := by
  refine ⟨fun r => listens.step_watches step, fun starts => ?_, fun begun => ?_⟩
  · obtain ⟨before, events, listening⟩ := step.starting starts
    obtain ⟨none, empty⟩ := listens.silent before
    exact ⟨listening none, events.trans empty⟩
  · by_cases starts : s.phase = .starting
    · obtain ⟨-, rfl⟩ := step.begins starts begun
      refine ⟨rfl, ?_⟩
      change dueOf _ _ ≤ _
      rw [due_start s (listens.silent starts).2]
      exact Nat.min_le_right _ _
    · obtain ⟨registered, covered⟩ := listens.started starts
      obtain ⟨-, books⟩ := listens.books step starts
      refine ⟨step.stays_registered registered, ?_⟩
      rcases books with ⟨-, books⟩ | ⟨-, due, longer⟩ <;> omega

/-- Each waiting connection has an event of its own. -/
def Even (s : RecvManager) : Prop := s.phase ≠ .starting → s.due = s.backlog.length

/-- More connections wait than there will be events for. -/
def Behind (s : RecvManager) : Prop := s.phase ≠ .starting ∧ s.due < s.backlog.length

theorem Even.step (even : s.Even) (listens : Listens s) (quiet : s.Separate a) (step : Step s a s') : s'.Even := by
  intro begun
  by_cases starts : s.phase = .starting
  · obtain ⟨rfl, rfl⟩ := step.begins starts begun
    change dueOf _ _ = _
    rw [due_start s (listens.silent starts).2]
    exact Nat.min_eq_right (Nat.not_lt.mp quiet)
  · obtain ⟨-, ⟨-, books⟩ | ⟨merges, -⟩⟩ := listens.books step starts
    · have := even starts
      omega
    · exact absurd merges quiet

/-- Two connections that share an event leave one behind. -/
theorem Even.broken (even : s.Even) (listens : Listens s) (merges : s.Merges a) (step : Step s a s') : s'.Behind := by
  by_cases starts : s.phase = .starting
  · cases step with
    | connect =>
      obtain ⟨r, listening, -⟩ := merges
      rw [(listens.silent starts).1] at listening
      cases listening
    | start =>
      refine ⟨by simp, ?_⟩
      change dueOf (some (addfd false !s.backlog.isEmpty)) s.events < _
      have two : 2 ≤ s.backlog.length := merges
      rw [due_start s (listens.silent starts).2]
      simp only
      omega
    | _ => exact merges.elim
  · obtain ⟨begun, ⟨quiet, -⟩ | ⟨-, due, longer⟩⟩ := listens.books step starts
    · exact absurd merges quiet
    · have := even starts
      exact ⟨begun, by omega⟩

theorem Behind.step (behind : s.Behind) (listens : Listens s) (step : Step s a s') : s'.Behind := by
  obtain ⟨started, short⟩ := behind
  obtain ⟨begun, books⟩ := listens.books step started
  exact ⟨begun, by rcases books with ⟨-, books⟩ | ⟨-, due, longer⟩ <;> omega⟩

/-- The backlog holds the connections that are not accepted, and an accepted one
is registered before `RecvManager::run` goes on. -/
structure Filed (s : RecvManager) : Prop where
  queued : ∀ (c : Nat) x, s.connections[c]? = some x → (x.state = .queued ↔ c ∈ s.backlog)
  inside : ∀ c ∈ s.backlog, c < s.connections.length
  once : s.backlog.Nodup
  registered : ∀ (c : Nat) x, s.connections[c]? = some x → x.state = .opened →
    x.registration.isSome = true ∨ s.phase = .accepted c ∨ s.phase = .initialised c

/-- A step that accepts and closes nothing. -/
theorem Filed.setConn (filed : Filed s) {c : Nat} {change : DataConnection → DataConnection}
    (backlog : s'.backlog = s.backlog) (connections : s'.connections = (s.setConn c change).connections)
    (phase : s'.phase = s.phase) (state : ∀ x, (change x).state = x.state)
    (registration : ∀ x, x.registration.isSome = true → (change x).registration.isSome = true) : Filed s' := by
  refine ⟨fun d y there => ?_, fun d member => ?_, backlog ▸ filed.once, fun d y there opened => ?_⟩
  · rw [backlog]
    rcases of_setConn (connections ▸ there) with ⟨-, there⟩ | ⟨rfl, x, here, rfl⟩
    · exact filed.queued d y there
    · rw [state]
      exact filed.queued d x here
  · rw [connections]
    simpa [RecvManager.setConn] using filed.inside d (backlog ▸ member)
  · rw [phase]
    rcases of_setConn (connections ▸ there) with ⟨-, there⟩ | ⟨rfl, x, here, rfl⟩
    · exact filed.registered d y there opened
    · rw [state] at opened
      exact (filed.registered d x here opened).imp_left (registration x)

theorem Filed.same (filed : Filed s) (connections : s'.connections = s.connections) (backlog : s'.backlog = s.backlog)
    (phase : ∀ c, s.phase = .accepted c ∨ s.phase = .initialised c →
      s'.phase = .accepted c ∨ s'.phase = .initialised c) : Filed s' := by
  refine ⟨?_, ?_, backlog ▸ filed.once, fun c x here opened => ?_⟩
  · rw [connections, backlog]
    exact filed.queued
  · rw [connections, backlog]
    exact filed.inside
  · exact (filed.registered c x (connections ▸ here) opened).imp_right (phase c)

theorem Filed.removefd (filed : Filed s) (fd : Nat) : Filed (s.removefd fd) := by
  cases means : s.owner fd with
  | none =>
    rw [RecvManager.removefd, means]
    exact filed
  | some d =>
    obtain ⟨y, there, opened, -⟩ := owner_some means
    rw [RecvManager.removefd, means]
    refine ⟨fun c x here => ?_, fun c member => by simpa [RecvManager.setConn] using filed.inside c member, filed.once,
      fun c x here open_ => ?_⟩
    · rcases of_setConn here with ⟨-, here⟩ | ⟨rfl, x, here, rfl⟩
      · exact filed.queued c x here
      · have out : c ∉ s.backlog := fun member => by
          have waits := (filed.queued c y there).mpr member
          rw [opened] at waits
          cases waits
        simpa [RecvManager.setConn] using out
    · rcases of_setConn here with ⟨-, here⟩ | ⟨rfl, x, here, rfl⟩
      · exact filed.registered c x here open_
      · cases open_

theorem Filed.accept (filed : Filed s) {c fd : Nat} {queue : List Nat} {rest : List Event}
    (handles : s.phase = .handling) (first : s.backlog = c :: queue) :
    Filed { s.setConn c fun x => { x with state := .opened, fd } with
      backlog := queue, events := rest, phase := .accepted c } := by
  have once := filed.once
  rw [first, List.nodup_cons] at once
  refine ⟨fun d y there => ?_, fun d member => ?_, once.2, fun d y there opened => ?_⟩
  · rcases of_setConn there with ⟨other, there⟩ | ⟨rfl, x, here, rfl⟩
    · rw [filed.queued d y there, first, List.mem_cons, or_iff_right other]
    · simpa using once.1
  · have inside := filed.inside d (by rw [first]; exact List.mem_cons_of_mem c member)
    simpa [RecvManager.setConn] using inside
  · rcases of_setConn there with ⟨other, there⟩ | ⟨rfl, x, here, rfl⟩
    · have registered := filed.registered d y there opened
      simp only [handles, reduceCtorEq, or_false] at registered
      exact Or.inl registered
    · exact Or.inr (Or.inl rfl)

theorem Filed.addConnfd (filed : Filed s) {c : Nat} (initialised : s.phase = .initialised c) :
    Filed { s.setConn c fun x => { x with registration := some (addfd true x.readable) } with phase := .handling } := by
  refine ⟨fun d y there => ?_, fun d member => by simpa [RecvManager.setConn] using filed.inside d member, filed.once,
    fun d y there opened => ?_⟩
  · rcases of_setConn there with ⟨-, there⟩ | ⟨rfl, x, here, rfl⟩
    · exact filed.queued d y there
    · exact filed.queued d x here
  · rcases of_setConn there with ⟨other, there⟩ | ⟨rfl, x, here, rfl⟩
    · have registered := filed.registered d y there opened
      simp only [initialised, reduceCtorEq, RecvPhase.initialised.injEq, Ne.symm other, or_false] at registered
      exact Or.inl registered
    · exact Or.inl rfl

theorem Filed.connect (filed : Filed s) {x : DataConnection} (fresh : x.state = .queued)
    {listening : Option Registration} :
    Filed { s with
      connections := s.connections ++ [x], backlog := s.backlog ++ [s.connections.length], listening } := by
  have new : s.connections.length ∉ s.backlog := fun member => Nat.lt_irrefl _ (filed.inside _ member)
  refine ⟨fun c y here => ?_, fun c member => ?_, filed.once.append (List.nodup_singleton _) (by simpa using new),
    fun c y here opened => ?_⟩
  · rcases Nat.lt_trichotomy c s.connections.length with old | rfl | beyond
    · rw [List.getElem?_append_left old] at here
      simp [filed.queued c y here, Nat.ne_of_lt old]
    · rw [List.getElem?_concat_length, Option.some.injEq] at here
      simp [← here, fresh]
    · rw [List.getElem?_eq_none (by simp; omega)] at here
      cases here
  · rcases List.mem_append.mp member with old | last
    · have := filed.inside c old
      simp only [List.length_append, List.length_singleton]
      omega
    · simp [List.mem_singleton.mp last]
  · rcases Nat.lt_or_ge c s.connections.length with old | new
    · rw [List.getElem?_append_left old] at here
      exact filed.registered c y here opened
    · rw [List.getElem?_append_right new, List.getElem?_singleton] at here
      split at here
      · cases here
        rw [fresh] at opened
        cases opened
      · cases here

theorem Filed.step (filed : Filed s) (step : Step s a s') : Filed s' := by
  have notify (x : DataConnection) (registered : x.registration.isSome = true) :
      x.notify.registration.isSome = true := by simpa [DataConnection.notify] using registered
  cases step with
  | connect => exact filed.connect rfl
  | send => exact filed.setConn rfl rfl rfl (fun _ => rfl) fun x => notify _
  | finish => exact filed.setConn rfl rfl rfl (fun _ => rfl) fun x => notify _
  | start starts => exact filed.same rfl rfl fun c phase => by simp [starts] at phase
  | collectListening => exact filed.same rfl rfl fun _ => id
  | collectConnection => exact filed.setConn rfl rfl rfl (fun _ => rfl) fun _ _ => rfl
  | wake waits => exact filed.same rfl rfl fun c phase => by simp [waits] at phase
  | acceptNone | hangUp | refuse => exact filed.same rfl rfl fun _ => id
  | accept handles front first => exact filed.accept handles first
  | initSocket accepted =>
    refine filed.same rfl rfl fun d phase => ?_
    simpa [accepted] using phase
  | addConnfd initialised => exact filed.addConnfd initialised
  | append => exact filed.setConn rfl rfl rfl (fun _ => rfl) fun _ => id
  | wait handles => exact filed.same rfl rfl fun c phase => by simp [handles] at phase
  | @recvBytes c x d y count =>
    have read : Filed (s.setConn d fun y => { y with pending := y.pending - count }) :=
      filed.setConn rfl rfl rfl (fun _ => rfl) fun _ => id
    exact read.setConn rfl rfl rfl (fun _ => rfl) fun _ => id
  | @recvEnd c x d y =>
    have read : Filed (s.setConn d fun y => { y with eof := true }) :=
      filed.setConn rfl rfl rfl (fun _ => rfl) fun _ => id
    exact read.setConn rfl rfl rfl (fun _ => rfl) fun _ => id
  | @closeConn c x fd => exact (filed.removefd fd).setConn rfl rfl rfl (fun _ => rfl) fun _ => id
  | take | recv | recvFails | closeNone | clear => exact filed.setConn rfl rfl rfl (fun _ => rfl) fun _ => id

theorem listens_init : Listens init :=
  ⟨nofun, fun _ => ⟨rfl, rfl⟩, fun begun => absurd rfl begun⟩

theorem filed_init : Filed init :=
  ⟨fun c x here => by simp [init] at here, fun c member => by simp [init] at member, .nil,
    fun c x here => by simp [init] at here⟩

theorem orderly {acts : List RecvAction} (run : Run Step init acts s) : Listens s ∧ Filed s :=
  run.invariant (I := fun s => Listens s ∧ Filed s) ⟨listens_init, filed_init⟩
    fun _ _ _ kept step => ⟨kept.1.step step, kept.2.step step⟩

theorem even_run {acts : List RecvAction} (run : Run (Where Step Separate) init acts s) : s.Even :=
  (run.invariant (I := fun s => Listens s ∧ s.Even) ⟨listens_init, fun begun => absurd rfl begun⟩
    fun _ _ _ kept taken => ⟨kept.1.step taken.2, kept.2.step kept.1 taken.1 taken.2⟩).2

theorem Blocked.due (blocked : s.Blocked) : s.due = 0 := by
  cases listening : s.listening with
  | none => simp [RecvManager.due, dueOf, blocked.none, listening]
  | some r => simp [RecvManager.due, dueOf, blocked.none, listening, blocked.listening r listening]

theorem Blocked.drained_iff (blocked : s.Blocked) (filed : Filed s) : s.Drained ↔ s.backlog = [] := by
  constructor
  · intro drained
    by_contra waits
    obtain ⟨c, rest, first⟩ := List.exists_cons_of_ne_nil waits
    have member : c ∈ s.backlog := by simp [first]
    have here := List.getElem?_eq_getElem (filed.inside c member)
    exact (drained c _ here).1 ((filed.queued c _ here).mpr member)
  · intro empty c x here
    have accepted : x.state ≠ .queued := fun queued => by
      have member := (filed.queued c x here).mp queued
      simp [empty] at member
    refine ⟨accepted, ?_⟩
    cases state : x.state with
    | queued => exact absurd state accepted
    | opened => exact Or.inl ((filed.registered c x here state).resolve_right (by simp [blocked.waits]))
    | closed => exact Or.inr rfl

/-- When `RecvManager::run` is blocked, all the connections have been taken from
the backlog exactly when no two of them have shared an event. -/
theorem blocked_drained_iff {acts : List RecvAction} (run : Run Step init acts s) (blocked : s.Blocked) :
    s.Drained ↔ Run (Where Step Separate) init acts s := by
  have filed := (orderly run).2
  have waiting : s.phase ≠ .starting := by simp [blocked.waits]
  rw [blocked.drained_iff filed]
  constructor
  · intro empty
    rcases run.guarded_or_breaks Separate with clean | ⟨before, b, after, u, u', -, clean, merges, step, rest⟩
    · exact clean
    · have listens := (orderly clean.unguarded).1
      have behind := (even_run clean).broken listens (not_not.mp merges) step
      have last := rest.invariant (I := fun s => Listens s ∧ s.Behind) ⟨listens.step step, behind⟩
        fun _ _ _ kept step => ⟨kept.1.step step, kept.2.step kept.1 step⟩
      have left := last.2.2
      rw [empty] at left
      exact absurd left (Nat.not_lt_zero _)
  · intro clean
    have even := even_run clean waiting
    rw [blocked.due] at even
    exact List.length_eq_zero_iff.mp even.symm

end Due

/-- `RecvManager::run` takes a pass over the event of its listening socket. -/
theorem accepts {guard : RecvManager → RecvAction → Prop}
    (plain : ∀ s a, (∀ c, a ≠ .collect (.connection c)) → (∀ n, a ≠ .dispatch n) → (∀ c, a ≠ .clear c) → guard s a)
    {connections : List DataConnection} {c fd : Nat} {x : DataConnection} (queue : List Nat) (files : Nat → Option Nat)
    (here : connections[c]? = some x) (inside : fd < RECV_FILE_NUM)
    (free : ∀ (d : Nat) y, connections[d]? = some y → y.state = .opened → y.fd ≠ fd) :
    ∃ acts, Run (Where Step guard)
      ⟨connections, c :: queue, some ⟨.epollIn, false, true, true⟩, [], .waiting, files⟩ acts
      ⟨(connections.modify c fun x => { x with state := .opened, fd }).modify c fun x =>
        { x with registration := some (addfd true x.readable) },
        queue, some ⟨.epollIn, false, true, false⟩, [], .waiting, Function.update files fd (some fd)⟩ := by
  let accepted := connections.modify c fun x => { x with state := .opened, fd }
  have opened : accepted[c]? = some { x with state := .opened, fd } := by simp [accepted, here]
  have collect : Step _ (.collect .listening) ⟨connections, c :: queue, some ⟨.epollIn, false, true, false⟩,
      [⟨.listening, false⟩], .waiting, files⟩ := .collectListening (s := ⟨connections, c :: queue,
        some ⟨.epollIn, false, true, true⟩, [], .waiting, files⟩) rfl (by simp) rfl rfl
  have wake : Step _ .wake ⟨connections, c :: queue, some ⟨.epollIn, false, true, false⟩, [⟨.listening, false⟩],
      .handling, files⟩ := .wake (s := ⟨connections, c :: queue, some ⟨.epollIn, false, true, false⟩,
        [⟨.listening, false⟩], .waiting, files⟩) rfl (by simp)
  have accept : Step _ (.accept fd) ⟨accepted, queue, some ⟨.epollIn, false, true, false⟩, [], .accepted c, files⟩ :=
    .accept (s := ⟨connections, c :: queue, some ⟨.epollIn, false, true, false⟩, [⟨.listening, false⟩], .handling,
      files⟩) rfl rfl rfl inside free
  have initSocket : Step _ .initSocket ⟨accepted, queue, some ⟨.epollIn, false, true, false⟩, [], .initialised c,
      Function.update files fd (some fd)⟩ :=
    .initSocket (s := ⟨accepted, queue, some ⟨.epollIn, false, true, false⟩, [], .accepted c, files⟩) rfl opened
  have addConnfd : Step _ .addConnfd
      ⟨accepted.modify c fun x => { x with registration := some (addfd true x.readable) }, queue,
         some ⟨.epollIn, false, true, false⟩, [], .handling, Function.update files fd (some fd)⟩ :=
    .addConnfd (s := ⟨accepted, queue, some ⟨.epollIn, false, true, false⟩, [], .initialised c,
      Function.update files fd (some fd)⟩) rfl
  have run := Run.start.next (a := RecvAction.collect .listening)
    (show Where Step guard _ _ _ from ⟨plain _ _ nofun nofun nofun, collect⟩)
  have run := run.next (a := RecvAction.wake) ⟨plain _ _ nofun nofun nofun, wake⟩
  have run := run.next (a := RecvAction.accept fd) ⟨plain _ _ nofun nofun nofun, accept⟩
  have run := run.next (a := RecvAction.initSocket) ⟨plain _ _ nofun nofun nofun, initSocket⟩
  have run := run.next (a := RecvAction.addConnfd) ⟨plain _ _ nofun nofun nofun, addConnfd⟩
  exact ⟨_, run.next (a := RecvAction.wait) ⟨plain _ _ nofun nofun nofun, .wait rfl rfl⟩⟩

theorem eq_of_singleton {x y : DataConnection} {d : Nat} (here : [x][d]? = some y) : y = x := by
  simpa using List.mem_of_getElem? here

/-- One connection comes while `RecvManager::run` is blocked. -/
theorem blocked_drained_iff_one : ∃ acts s, Run Step init acts s ∧ s.Blocked ∧ s.connections.length = 1 ∧
    (s.Drained ↔ Run (Where Step Separate) init acts s) := by
  have begun : Step init .start ⟨[], [], some ⟨.epollIn, false, true, false⟩, [], .waiting, fun _ => none⟩ := .start rfl
  have comes : Step ⟨[], [], some ⟨.epollIn, false, true, false⟩, [], .waiting, fun _ => none⟩ .connect
      ⟨[.fresh], [0], some ⟨.epollIn, false, true, true⟩, [], .waiting, fun _ => none⟩ := .connect
  have free (d : Nat) y (here : [DataConnection.fresh][d]? = some y) (opened : y.state = .opened) : y.fd ≠ 7 := by
    rw [eq_of_singleton here] at opened
    cases opened
  obtain ⟨acts, pass⟩ := accepts (fun _ _ _ _ _ => trivial) [] (fun _ => none) (c := 0) (x := .fresh) rfl
    (show 7 < RECV_FILE_NUM by decide) free
  let last : RecvManager := ⟨[{ DataConnection.fresh with
      state := .opened, fd := 7, registration := some (addfd true false) }],
    [], some ⟨.epollIn, false, true, false⟩, [], .waiting, Function.update (fun _ => none) 7 (some 7)⟩
  have run : Run Step init _ last := (Run.start.next begun |>.next comes).trans pass.unguarded
  have blocked : last.Blocked := by
    refine ⟨rfl, rfl, fun r same => by cases same; rfl, fun d y r here same => ?_⟩
    rw [eq_of_singleton here] at same
    cases same
    rfl
  exact ⟨_, last, run, blocked, rfl, blocked_drained_iff run blocked⟩

/-- Two connections come before `addfd`, whose one event takes one of them. -/
theorem second_connection_waits : ∃ acts s, Run Step init acts s ∧ s.Blocked ∧ s.backlog = [1] ∧ ¬ s.Drained := by
  have first : Step init .connect ⟨[.fresh], [0], none, [], .starting, fun _ => none⟩ := .connect
  have second : Step ⟨[.fresh], [0], none, [], .starting, fun _ => none⟩ .connect
      ⟨[.fresh, .fresh], [0, 1], none, [], .starting, fun _ => none⟩ := .connect
  have begun : Step ⟨[.fresh, .fresh], [0, 1], none, [], .starting, fun _ => none⟩ .start
      ⟨[.fresh, .fresh], [0, 1], some ⟨.epollIn, false, true, true⟩, [], .waiting, fun _ => none⟩ := .start rfl
  have free (d : Nat) y (here : [DataConnection.fresh, .fresh][d]? = some y) (opened : y.state = .opened) :
      y.fd ≠ 7 := by
    have same : y = .fresh := by simpa using List.mem_of_getElem? here
    rw [same] at opened
    cases opened
  obtain ⟨acts, pass⟩ := accepts (fun _ _ _ _ _ => trivial) [1] (fun _ => none) (c := 0) (x := .fresh) rfl
    (show 7 < RECV_FILE_NUM by decide) free
  let last : RecvManager := ⟨[{ DataConnection.fresh with
      state := .opened, fd := 7, registration := some (addfd true false) }, .fresh],
    [1], some ⟨.epollIn, false, true, false⟩, [], .waiting, Function.update (fun _ => none) 7 (some 7)⟩
  have run : Run Step init _ last := (Run.start.next first |>.next second |>.next begun).trans pass.unguarded
  have blocked : last.Blocked := by
    refine ⟨rfl, rfl, fun r same => by cases same; rfl, fun d y r here same => ?_⟩
    rcases List.mem_cons.mp (List.mem_of_getElem? here) with rfl | rest
    · cases same
      rfl
    · rw [List.mem_singleton.mp rest] at same
      cases same
  exact ⟨_, last, run, blocked, rfl, fun drained => (drained 1 .fresh rfl).1 rfl⟩

end RecvManager

end CoflowSim
