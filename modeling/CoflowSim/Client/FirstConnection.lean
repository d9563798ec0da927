import CoflowSim.Lib.Run
import CoflowSim.Master.MachineManager

namespace CoflowSim
open Lib

/-- What a socket is bound or connected to. -/
abbrev Address := List Byte × Int

def Machine.address (m : Machine) : Address := (m.socketip, m.socketport)

/-- Who called `connect`: `startConn` for the machine at this position, or the
`SendManager` of a client. -/
inductive Opener
  | startConn (machine : Nat)
  | sendManager (client : Address)
deriving DecidableEq

def Opener.ByMaster : Opener → Prop
  | .startConn _ => True
  | .sendManager _ => False

/-- How far the main thread of a client is: before `listen`, before `accept`,
with the connection of `masterSockManger` and those that `RecvManager` has
accepted since, or after `exit`. -/
inductive ClientPhase
  | starting
  | waiting
  | serving (masterfd : Opener) (accepted : List Opener)
  | exited
deriving DecidableEq

/-- The part of an instruction that decides what `SendManager::run` connects
to, and whether its `Sender` has anything to send. -/
structure SendInstruction where
  destination : Address
  flowSizeKB : Nat
deriving DecidableEq

/-- The default of `task_number`. -/
def MAX_TASK_NUMBER : Nat := 65536

/-- A client: `backlog` are the connections that wait for `accept`, and
`failing` says that a `Sender` has bytes for a socket without a connection. -/
structure ClientProcess where
  phase : ClientPhase
  backlog : List Opener
  send_task_wait_queue : List SendInstruction
  failing : Bool

/-- The clients by the address they listen on, the results of the calls of
`connect` that `startConn` has made, and the instructions on their way from
each machine of the master. -/
structure Network where
  clients : Address → ClientProcess
  tried : List Bool
  inFlight : Nat → List SendInstruction

/-- A client listens, `startConn` goes to the next machine, a client accepts,
the master sends an instruction, its client reads it, `SendManager::run` takes
it, or a `Sender` fails to send. -/
inductive NetworkAction
  | listen (client : Address)
  | startConn
  | accept (client : Address)
  | sendTask (mapperID reducerID : CInt) (flowSizeKB : Nat)
  | recvMsg (client : Address)
  | connect (client : Address)
  | exit (client : Address)
deriving DecidableEq

namespace ClientPhase

/-- A connection is made whether it is accepted or not. -/
def listens : ClientPhase → Bool
  | .waiting | .serving _ _ => true
  | .starting | .exited => false

/-- The connections that have been accepted, in order. -/
def accepted : ClientPhase → List Opener
  | .serving masterfd accepted => masterfd :: accepted
  | _ => []

end ClientPhase

namespace ClientProcess

def init : ClientProcess := ⟨.starting, [], [], false⟩

/-- Every connection that has been made to the client, in order. -/
def arrivals (c : ClientProcess) : List Opener := c.phase.accepted ++ c.backlog

/-- The kernel puts a connection behind those that wait. -/
def arrive (c : ClientProcess) (opener : Opener) : ClientProcess := { c with backlog := c.backlog ++ [opener] }

/-- The first `accept` is that of `coflowSimClient`, the others are those of
`RecvManager::run`. -/
def accept (c : ClientProcess) : Option ClientProcess :=
  match c.phase, c.backlog with
  | .waiting, opener :: rest => some { c with phase := .serving opener [], backlog := rest }
  | .serving masterfd accepted, opener :: rest =>
    some { c with phase := .serving masterfd (accepted ++ [opener]), backlog := rest }
  | _, _ => none

/-- A full queue drops the instruction. -/
def appendTask (c : ClientProcess) (ins : SendInstruction) : ClientProcess :=
  if MAX_TASK_NUMBER < c.send_task_wait_queue.length then c
  else { c with send_task_wait_queue := c.send_task_wait_queue ++ [ins] }

end ClientProcess

namespace Network

def init : Network := ⟨fun _ => .init, [], fun _ => []⟩

def setClient (s : Network) (a : Address) (c : ClientProcess) : Network :=
  { s with clients := Function.update s.clients a c }

/-- `connect`, which succeeds when somebody listens. -/
def dial (s : Network) (destination : Address) (opener : Opener) : Network × Bool :=
  if (s.clients destination).phase.listens then
    (s.setClient destination ((s.clients destination).arrive opener), true)
  else (s, false)

/-- The position of the machine that an instruction goes through, and its
destination. The scheduler is appended to the pool behind `startConn`, and
without a connection `send` takes nothing. -/
def sends (mm : MachineManager) (s : Network) (mapperID reducerID : CInt) : Option (Nat × Address) := do
  let (mapper, _) ← mm.machineOf mapperID
  let (_, r) ← mm.machineOf reducerID
  if s.tried.length = mm.m_physicsMachines.length ∧ s.tried[mapper]? = some true then some (mapper, r.address)
  else none

def step (mm : MachineManager) (s : Network) : NetworkAction → Option Network
  | .listen a =>
    if (s.clients a).phase = .starting then some (s.setClient a { s.clients a with phase := .waiting }) else none
  | .startConn => do
    let m ← mm.m_physicsMachines[s.tried.length]?
    -- a failure is logged, and the loop goes on
    let (s, connected) := s.dial m.address (.startConn s.tried.length)
    some { s with tried := s.tried ++ [connected] }
  | .accept a => (s.clients a).accept.map (s.setClient a)
  | .sendTask mapperID reducerID flowSizeKB => do
    let (mapper, destination) ← s.sends mm mapperID reducerID
    some { s with inFlight := Function.update s.inFlight mapper (s.inFlight mapper ++ [⟨destination, flowSizeKB⟩]) }
  | .recvMsg a =>
    -- what a `Sender` sends holds no instruction
    match (s.clients a).phase with
    | .serving (.startConn machine) _ =>
      match s.inFlight machine with
      | ins :: rest =>
        some { s.setClient a ((s.clients a).appendTask ins) with inFlight := Function.update s.inFlight machine rest }
      | [] => none
    | _ => none
  | .connect a =>
    match (s.clients a).phase, (s.clients a).send_task_wait_queue with
    | .serving _ _, ins :: rest =>
      let (s, connected) := (s.setClient a { s.clients a with send_task_wait_queue := rest }).dial ins.destination
        (.sendManager a)
      let failing := (s.clients a).failing || (!connected && 0 < ins.flowSizeKB)
      some (s.setClient a { s.clients a with failing })
    | _, _ => none
  | .exit a =>
    if (s.clients a).failing then some (s.setClient a ⟨.exited, [], [], false⟩) else none

/-- The master has a connection to the client at this address. -/
def Established (mm : MachineManager) (s : Network) (a : Address) : Prop :=
  (∃ (k : Nat) (m : Machine), mm.m_physicsMachines[k]? = some m ∧ m.address = a ∧ s.tried[k]? = some true) ∧
    (s.clients a).phase ≠ .exited

/-- The client whose turn it is in `startConn` listens. -/
def Answered (mm : MachineManager) (s : Network) : NetworkAction → Prop
  | .startConn => ∀ m ∈ mm.m_physicsMachines[s.tried.length]?, (s.clients m.address).phase.listens = true
  | _ => True

instance (mm : MachineManager) (s : Network) (a : NetworkAction) : Decidable (s.Answered mm a) := by
  cases a <;> unfold Answered <;> infer_instance

section Setters

variable {s : Network} {a b : Address} {c : ClientProcess}

theorem setClient_clients : (s.setClient a c).clients b = if b = a then c else s.clients b :=
  Function.update_apply s.clients a c b

@[simp] theorem setClient_here : (s.setClient a c).clients a = c := by rw [setClient_clients, if_pos rfl]
@[simp] theorem setClient_tried : (s.setClient a c).tried = s.tried := rfl
@[simp] theorem setClient_inFlight : (s.setClient a c).inFlight = s.inFlight := rfl

theorem setClient_self (s : Network) : s.setClient a (s.clients a) = s := by
  rw [setClient, Function.update_eq_self]

theorem setClient_setClient {d : ClientProcess} : (s.setClient a c).setClient a d = s.setClient a d := by
  rw [setClient, setClient, setClient, Function.update_idem]

/-- What holds of a client after its change, and held of the others, holds of all. -/
theorem setClient_forall {P : Address → ClientProcess → Prop} (changed : P a c) (others : ∀ b, P b (s.clients b))
    (b : Address) : P b ((s.setClient a c).clients b) := by
  rw [setClient_clients]
  split
  · rename_i here
    exact here ▸ changed
  · exact others b

/-- A change of one client that keeps a value of it keeps that value of all. -/
theorem setClient_same {β : Type} (value : ClientProcess → β) (same : value c = value (s.clients a)) :
    value ((s.setClient a c).clients b) = value (s.clients b) :=
  setClient_forall (P := fun b c => value c = value (s.clients b)) same (fun _ => rfl) b

theorem take_phase (s : Network) (a b : Address) (rest : List SendInstruction) :
    ((s.setClient a { s.clients a with send_task_wait_queue := rest }).clients b).phase = (s.clients b).phase :=
  setClient_same ClientProcess.phase rfl

theorem arrive_phase {o : Opener} :
    ((s.setClient a ((s.clients a).arrive o)).clients b).phase = (s.clients b).phase :=
  setClient_same ClientProcess.phase rfl

end Setters

/-- What a step has checked, and what it leaves. -/
inductive Moves (mm : MachineManager) (s : Network) : NetworkAction → Network → Prop
  | listen {a} (starts : (s.clients a).phase = .starting) :
      Moves mm s (.listen a) (s.setClient a { s.clients a with phase := .waiting })
  | answered {m} (turn : mm.m_physicsMachines[s.tried.length]? = some m)
      (listens : (s.clients m.address).phase.listens = true) :
      Moves mm s .startConn { s.setClient m.address ((s.clients m.address).arrive (.startConn s.tried.length)) with
        tried := s.tried ++ [true] }
  | unanswered {m} (turn : mm.m_physicsMachines[s.tried.length]? = some m)
      (silent : (s.clients m.address).phase.listens = false) :
      Moves mm s .startConn { s with tried := s.tried ++ [false] }
  | accept {a c} (accepted : (s.clients a).accept = some c) : Moves mm s (.accept a) (s.setClient a c)
  | sendTask {mapperID reducerID flowSizeKB mapper destination}
      (sends : s.sends mm mapperID reducerID = some (mapper, destination)) :
      Moves mm s (.sendTask mapperID reducerID flowSizeKB) { s with
        inFlight := Function.update s.inFlight mapper (s.inFlight mapper ++ [⟨destination, flowSizeKB⟩]) }
  | recvMsg {a machine accepted ins rest} (serves : (s.clients a).phase = .serving (.startConn machine) accepted)
      (front : s.inFlight machine = ins :: rest) :
      Moves mm s (.recvMsg a) { s.setClient a ((s.clients a).appendTask ins) with
        inFlight := Function.update s.inFlight machine rest }
  | connect {a ins rest s'} (front : (s.clients a).send_task_wait_queue = ins :: rest)
      (taken : s' = s.setClient a { s.clients a with send_task_wait_queue := rest })
      (listens : (s'.clients ins.destination).phase.listens = true) :
      Moves mm s (.connect a)
        (s'.setClient ins.destination ((s'.clients ins.destination).arrive (.sendManager a)))
  | connectFails {a ins rest} (front : (s.clients a).send_task_wait_queue = ins :: rest)
      (silent : (s.clients ins.destination).phase.listens = false) (failing : Bool) :
      Moves mm s (.connect a) (s.setClient a { s.clients a with send_task_wait_queue := rest, failing })
  | exit {a} (failing : (s.clients a).failing = true) :
      Moves mm s (.exit a) (s.setClient a ⟨.exited, [], [], false⟩)

theorem step_moves {mm : MachineManager} {s t : Network} {a : NetworkAction} (step : s.step mm a = some t) :
    Moves mm s a t := by
  cases a with
  | listen a =>
    obtain ⟨starts, made⟩ := Option.ite_none_right_eq_some.mp step
    cases made
    exact .listen starts
  | startConn =>
    obtain ⟨m, turn, made⟩ := Option.bind_eq_some_iff.mp step
    cases listens : (s.clients m.address).phase.listens with
    | true =>
      simp only [dial, listens, if_true, Option.some.injEq] at made
      cases made
      exact .answered turn listens
    | false =>
      simp only [dial, listens, Bool.false_eq_true, if_false, Option.some.injEq] at made
      cases made
      exact .unanswered turn listens
  | accept a =>
    obtain ⟨c, accepted, made⟩ := Option.map_eq_some_iff.mp step
    cases made
    exact .accept accepted
  | sendTask mapperID reducerID flowSizeKB =>
    obtain ⟨⟨mapper, destination⟩, sends, made⟩ := Option.bind_eq_some_iff.mp step
    cases made
    exact .sendTask sends
  | recvMsg a =>
    unfold Network.step at step
    dsimp only at step
    split at step
    · rename_i machine accepted serves
      split at step
      · rename_i ins rest front
        cases step
        exact .recvMsg serves front
      · cases step
    · cases step
  | connect a =>
    unfold Network.step at step
    dsimp only at step
    split at step
    · rename_i masterfd accepted ins rest serves front
      have phase := take_phase s a ins.destination rest
      cases listens : (s.clients ins.destination).phase.listens with
      | true =>
        rw [← phase] at listens
        have kept (u : Network) : u.setClient a { u.clients a with failing := (u.clients a).failing } = u :=
          u.setClient_self
        simp only [dial, listens, if_true, Bool.not_true, Bool.false_and, Bool.or_false, kept,
          Option.some.injEq] at step
        cases step
        exact .connect front rfl listens
      | false =>
        have silent := listens
        rw [← phase] at silent
        simp only [dial, silent, Bool.false_eq_true, if_false, Option.some.injEq, setClient_setClient,
          setClient_here] at step
        cases step
        exact .connectFails front listens _
    · cases step
  | exit a =>
    obtain ⟨failing, made⟩ := Option.ite_none_right_eq_some.mp step
    cases made
    exact .exit failing

/-- Nobody but the master has connected, and no instruction has been sent. -/
structure Quiet (s : Network) : Prop where
  opened : ∀ a, ∀ o ∈ (s.clients a).arrivals, o.ByMaster
  untasked : ∀ a, (s.clients a).send_task_wait_queue = []
  unsent : ∀ k, s.inFlight k = []

/-- The first connection of the client is the master's. -/
def Heads (s : Network) (a : Address) : Prop := ∃ o, (s.clients a).arrivals.head? = some o ∧ o.ByMaster

/-- It is quiet until `startConn` has made its last call; and a client that the
master has a connection to has had no other connection before it. -/
structure Orderly (mm : MachineManager) (s : Network) : Prop where
  quiet : s.tried.length < mm.m_physicsMachines.length → s.Quiet
  heads : ∀ a, s.Established mm a ↔ s.Heads a

section Clients

variable {c c' : ClientProcess} {o : Opener}

theorem accept_spec (accepted : c.accept = some c') :
    c'.arrivals = c.arrivals ∧ c'.send_task_wait_queue = c.send_task_wait_queue ∧ c'.failing = c.failing ∧
      c.phase.listens = true ∧ c'.phase.listens = true := by
  unfold ClientProcess.accept at accepted
  split at accepted
  · rename_i phase backlog
    cases accepted
    simp [ClientProcess.arrivals, ClientPhase.accepted, ClientPhase.listens, phase, backlog]
  · rename_i phase backlog
    cases accepted
    simp [ClientProcess.arrivals, ClientPhase.accepted, ClientPhase.listens, phase, backlog]
  · cases accepted

theorem arrive_arrivals : (c.arrive o).arrivals = c.arrivals ++ [o] := by
  simp [ClientProcess.arrivals, ClientProcess.arrive]

theorem appendTask_spec (c : ClientProcess) (ins : SendInstruction) :
    (c.appendTask ins).phase = c.phase ∧ (c.appendTask ins).backlog = c.backlog ∧
      (c.appendTask ins).failing = c.failing ∧
      ∀ task ∈ (c.appendTask ins).send_task_wait_queue, task ∈ c.send_task_wait_queue ∨ task = ins := by
  unfold ClientProcess.appendTask
  split
  · exact ⟨rfl, rfl, rfl, fun _ member => Or.inl member⟩
  · refine ⟨rfl, rfl, rfl, fun task member => ?_⟩
    rw [← List.mem_singleton]
    exact List.mem_append.mp member

theorem not_exited_of_listens {phase : ClientPhase} (listens : phase.listens = true) : phase ≠ .exited := by
  rintro rfl
  cases listens

end Clients

theorem established_congr {mm : MachineManager} {s t : Network} {a : Address} (tried : t.tried = s.tried)
    (phase : (t.clients a).phase = .exited ↔ (s.clients a).phase = .exited) :
    t.Established mm a ↔ s.Established mm a := by
  unfold Established
  rw [tried, ne_eq, ne_eq, not_congr phase]

theorem established_append {mm : MachineManager} {s t : Network} {a : Address} {m : Machine} {connected : Bool}
    (turn : mm.m_physicsMachines[s.tried.length]? = some m) (tried : t.tried = s.tried ++ [connected])
    (phase : (t.clients a).phase = .exited ↔ (s.clients a).phase = .exited) :
    t.Established mm a ↔
      s.Established mm a ∨ connected = true ∧ m.address = a ∧ (s.clients a).phase ≠ .exited := by
  have last : t.tried[s.tried.length]? = some connected := by rw [tried, List.getElem?_concat_length]
  have before {k : Nat} (below : k < s.tried.length) : t.tried[k]? = s.tried[k]? := by
    rw [tried, List.getElem?_append_left below]
  constructor
  · rintro ⟨⟨k, m', atK, address, won⟩, alive⟩
    have inside := (List.getElem?_eq_some_iff.mp won).1
    rw [tried, List.length_append, List.length_singleton] at inside
    rcases Nat.lt_or_eq_of_le (Nat.le_of_lt_succ inside) with below | rfl
    · exact Or.inl ⟨⟨k, m', atK, address, before below ▸ won⟩, fun exited => alive (phase.mpr exited)⟩
    · rw [turn, Option.some.injEq] at atK
      rw [last, Option.some.injEq] at won
      exact Or.inr ⟨won, atK ▸ address, fun exited => alive (phase.mpr exited)⟩
  · rintro (⟨⟨k, m', atK, address, won⟩, alive⟩ | ⟨won, address, alive⟩)
    · have below := (List.getElem?_eq_some_iff.mp won).1
      exact ⟨⟨k, m', atK, address, (before below).trans won⟩, fun exited => alive (phase.mp exited)⟩
    · exact ⟨⟨s.tried.length, m, turn, address, last.trans (congrArg some won)⟩, fun exited => alive (phase.mp exited)⟩

section Preserved

variable {mm : MachineManager} {s t : Network} {a b : Address} {c : ClientProcess} {act : NetworkAction}

theorem Moves.tried_le (moves : Moves mm s act t) : s.tried.length ≤ t.tried.length := by
  cases moves with
  | answered | unanswered => simp
  | connect front taken =>
    rw [taken]
    exact Nat.le_refl _
  | _ => exact Nat.le_refl _

theorem Quiet.setClient (quiet : s.Quiet) (opened : ∀ o ∈ c.arrivals, o.ByMaster)
    (untasked : c.send_task_wait_queue = []) : (s.setClient a c).Quiet := by
  refine ⟨?_, ?_, quiet.unsent⟩
  · exact setClient_forall (P := fun _ c => ∀ o ∈ c.arrivals, o.ByMaster) opened quiet.opened
  · exact setClient_forall (P := fun _ c => c.send_task_wait_queue = []) untasked quiet.untasked

/-- No step but those of `startConn` connects or sends while it is quiet. -/
theorem Moves.quiet (moves : Moves mm s act t) (quiet : s.Quiet)
    (early : s.tried.length < mm.m_physicsMachines.length) : t.Quiet := by
  cases moves with
  | @listen a starts =>
    have opened := quiet.opened a
    simp only [ClientProcess.arrivals, starts, ClientPhase.accepted] at opened
    exact quiet.setClient opened (quiet.untasked a)
  | @answered m turn listens =>
    have arrived : ∀ o ∈ ((s.clients m.address).arrive (.startConn s.tried.length)).arrivals, o.ByMaster := by
      intro o member
      rw [arrive_arrivals] at member
      rcases List.mem_append.mp member with old | new
      · exact quiet.opened _ o old
      · rw [List.mem_singleton.mp new]
        trivial
    have next := quiet.setClient (a := m.address) arrived (quiet.untasked m.address)
    exact ⟨next.opened, next.untasked, next.unsent⟩
  | unanswered => exact ⟨quiet.opened, quiet.untasked, quiet.unsent⟩
  | @accept a c accepted =>
    obtain ⟨arrivals, queue, -⟩ := accept_spec accepted
    exact quiet.setClient (arrivals ▸ quiet.opened a) (queue.trans (quiet.untasked a))
  | sendTask sends =>
    obtain ⟨⟨mapper, m⟩, -, rest⟩ := Option.bind_eq_some_iff.mp sends
    obtain ⟨⟨position, r⟩, -, rest⟩ := Option.bind_eq_some_iff.mp rest
    obtain ⟨⟨finished, -⟩, -⟩ := Option.ite_none_right_eq_some.mp rest
    omega
  | recvMsg serves front =>
    rw [quiet.unsent] at front
    cases front
  | connect front | connectFails front =>
    rw [quiet.untasked] at front
    cases front
  | exit => exact quiet.setClient (fun _ member => (List.not_mem_nil member).elim) rfl

/-- A step of a client that keeps its connections. -/
theorem heads_setClient (heads : ∀ b, s.Established mm b ↔ s.Heads b) (clients : t.clients = (s.setClient a c).clients)
    (tried : t.tried = s.tried) (phase : c.phase = .exited ↔ (s.clients a).phase = .exited)
    (arrivals : c.arrivals = (s.clients a).arrivals) (b : Address) : t.Established mm b ↔ t.Heads b := by
  by_cases here : b = a
  · subst here
    have client : t.clients b = c := by rw [clients, setClient_here]
    rw [established_congr tried (by rw [client, phase]), heads b, Heads, Heads, client, arrivals]
  · have client : t.clients b = s.clients b := by rw [clients, setClient_clients, if_neg here]
    rw [established_congr tried (by rw [client]), heads b, Heads, Heads, client]

theorem Heads.of_arrive {o : Opener} :
    (s.setClient a ((s.clients a).arrive o)).Heads b ↔
      s.Heads b ∨ b = a ∧ (s.clients a).arrivals = [] ∧ o.ByMaster := by
  unfold Heads
  rw [setClient_clients]
  by_cases here : b = a
  · subst here
    rw [if_pos rfl, arrive_arrivals]
    cases arrivals : (s.clients b).arrivals with
    | nil => simp
    | cons => simp
  · simp [here]

theorem Moves.heads (moves : Moves mm s act t) (orderly : s.Orderly mm) (b : Address) :
    t.Established mm b ↔ t.Heads b := by
  cases moves with
  | @listen a starts =>
    refine heads_setClient orderly.heads rfl rfl ?_ ?_ b
    · simp [starts]
    · simp [ClientProcess.arrivals, ClientPhase.accepted, starts]
  | @answered m turn listens =>
    have quiet := orderly.quiet (List.getElem?_eq_some_iff.mp turn).1
    have phase := arrive_phase (s := s) (a := m.address) (b := b) (o := .startConn s.tried.length)
    refine (established_append turn rfl (by rw [← phase])).trans (Iff.trans ?_ Heads.of_arrive.symm)
    rw [orderly.heads b]
    constructor
    · rintro (first | ⟨-, rfl, -⟩)
      · exact Or.inl first
      · cases arrivals : (s.clients m.address).arrivals with
        | nil => exact Or.inr ⟨rfl, rfl, trivial⟩
        | cons o rest =>
          exact Or.inl ⟨o, by rw [arrivals]; rfl, quiet.opened m.address o (by rw [arrivals]; exact List.mem_cons_self)⟩
    · rintro (first | ⟨rfl, -, -⟩)
      · exact Or.inl first
      · exact Or.inr ⟨rfl, rfl, not_exited_of_listens listens⟩
  | @unanswered m turn =>
    have established := established_append (t := { s with tried := s.tried ++ [false] }) (a := b) turn rfl Iff.rfl
    rw [established, orderly.heads b]
    exact ⟨fun first => first.resolve_right (by simp), Or.inl⟩
  | @accept a c accepted =>
    obtain ⟨arrivals, -, -, before, after⟩ := accept_spec accepted
    refine heads_setClient orderly.heads rfl rfl ?_ arrivals b
    exact iff_of_false (not_exited_of_listens after) (not_exited_of_listens before)
  | sendTask => exact orderly.heads b
  | @recvMsg a machine accepted ins rest serves front =>
    obtain ⟨phase, backlog, -⟩ := appendTask_spec (s.clients a) ins
    refine heads_setClient orderly.heads rfl rfl (by rw [phase]) ?_ b
    rw [ClientProcess.arrivals, ClientProcess.arrivals, phase, backlog]
  | @connect a ins rest s' front taken listens =>
    have heads : s'.Established mm b ↔ s'.Heads b := by
      subst taken
      exact heads_setClient (c := { s.clients a with send_task_wait_queue := rest }) orderly.heads rfl rfl
        Iff.rfl rfl b
    have established :
        (s'.setClient ins.destination ((s'.clients ins.destination).arrive (.sendManager a))).Established mm b ↔
          s'.Established mm b := established_congr rfl (by rw [arrive_phase])
    rw [established, Heads.of_arrive, heads]
    exact (or_iff_left fun other => other.2.2).symm
  | @connectFails a ins rest front silent failing =>
    exact heads_setClient (c := { s.clients a with send_task_wait_queue := rest, failing }) orderly.heads rfl rfl
      Iff.rfl rfl b
  | @exit a failing =>
    by_cases here : b = a
    · subst here
      refine iff_of_false (fun established => established.2 (by rw [setClient_here])) ?_
      rintro ⟨o, first, -⟩
      rw [setClient_here] at first
      cases first
    · have client : (s.setClient a ⟨.exited, [], [], false⟩).clients b = s.clients b := by
        rw [setClient_clients, if_neg here]
      have established : (s.setClient a ⟨.exited, [], [], false⟩).Established mm b ↔ s.Established mm b :=
        established_congr rfl (by rw [client])
      rw [established, orderly.heads b, Heads, Heads, client]

theorem Orderly.step (orderly : s.Orderly mm) (moves : Moves mm s act t) : t.Orderly mm :=
  ⟨fun early => moves.quiet (orderly.quiet (Nat.lt_of_le_of_lt moves.tried_le early))
    (Nat.lt_of_le_of_lt moves.tried_le early), moves.heads orderly⟩

end Preserved

theorem orderly_init (mm : MachineManager) : init.Orderly mm := by
  have empty (a : Address) : (init.clients a).arrivals = [] := rfl
  refine ⟨fun _ => ⟨fun a o member => ?_, fun _ => rfl, fun _ => rfl⟩, fun a => iff_of_false ?_ ?_⟩
  · rw [empty] at member
    cases member
  · rintro ⟨⟨k, m, -, -, won⟩, -⟩
    cases won
  · rintro ⟨o, first, -⟩
    cases first

theorem orderly_of_run {mm : MachineManager} {acts : List NetworkAction} {s : Network}
    (run : Run (Steps (step mm)) init acts s) : s.Orderly mm :=
  run.invariant (orderly_init mm) fun _ _ _ orderly step => orderly.step (step_moves step)

/-- An instruction to one of the machines. -/
def Known (mm : MachineManager) (ins : SendInstruction) : Prop :=
  ∃ m ∈ mm.m_physicsMachines, m.address = ins.destination

/-- Every call of `startConn` has been answered: no client has failed, and only
clients that the master has a connection to have others. -/
structure Served (mm : MachineManager) (s : Network) : Prop where
  won : ∀ connected ∈ s.tried, connected = true
  sound : ∀ a, (s.clients a).phase ≠ .exited ∧ (s.clients a).failing = false
  listening : ∀ (k : Nat) (m : Machine), mm.m_physicsMachines[k]? = some m → k < s.tried.length →
    (s.clients m.address).phase.listens = true
  queued : ∀ a, ∀ ins ∈ (s.clients a).send_task_wait_queue, Known mm ins
  sent : ∀ k, ∀ ins ∈ s.inFlight k, Known mm ins
  reached : ∀ a, (s.clients a).arrivals ≠ [] → s.Established mm a

section Answered

variable {mm : MachineManager} {s t : Network} {a : Address} {c : ClientProcess} {act : NetworkAction}

/-- Behind `startConn` the master has a connection to every machine. -/
theorem Served.established (served : s.Served mm) (finished : mm.m_physicsMachines.length ≤ s.tried.length)
    {m : Machine} (member : m ∈ mm.m_physicsMachines) :
    s.Established mm m.address ∧ (s.clients m.address).phase.listens = true := by
  obtain ⟨k, atK⟩ := List.mem_iff_getElem?.mp member
  have inside := (List.getElem?_eq_some_iff.mp atK).1
  have tried : s.tried[k]? = some s.tried[k] := List.getElem?_eq_getElem (by omega)
  rw [served.won _ (List.getElem_mem _)] at tried
  exact ⟨⟨⟨k, m, atK, rfl, tried⟩, (served.sound _).1⟩, served.listening k m atK (by omega)⟩

/-- A step of a client that stays sound. -/
theorem Served.setClient (served : s.Served mm) (sound : c.phase ≠ .exited ∧ c.failing = false)
    (listening : (s.clients a).phase.listens = true → c.phase.listens = true)
    (queued : ∀ ins ∈ c.send_task_wait_queue, Known mm ins) (reached : c.arrivals ≠ [] → s.Established mm a) :
    (s.setClient a c).Served mm := by
  have alive := setClient_forall (a := a) (P := fun _ c => c.phase ≠ .exited ∧ c.failing = false) sound served.sound
  have kept (b : Address) : (s.setClient a c).Established mm b ↔ s.Established mm b :=
    established_congr rfl (iff_of_false (alive b).1 (served.sound b).1)
  refine ⟨served.won, alive, fun k m atK below => ?_, ?_, served.sent, fun b arrived => (kept b).mpr ?_⟩
  · have before := served.listening k m atK below
    rw [setClient_clients]
    split
    · rename_i here
      exact listening (here ▸ before)
    · exact before
  · exact setClient_forall (P := fun _ c => ∀ ins ∈ c.send_task_wait_queue, Known mm ins) queued served.queued
  · exact setClient_forall (P := fun b c => c.arrivals ≠ [] → s.Established mm b) reached served.reached b arrived

theorem Served.append (served : s.Served mm) {m : Machine} (turn : mm.m_physicsMachines[s.tried.length]? = some m)
    (listens : (s.clients m.address).phase.listens = true) : Served mm { s with tried := s.tried ++ [true] } := by
  refine ⟨fun connected member => ?_, served.sound, fun k m' atK below => ?_, served.queued, served.sent,
    fun a arrived => ?_⟩
  · rcases List.mem_append.mp member with old | new
    · exact served.won connected old
    · exact List.mem_singleton.mp new
  · rw [List.length_append, List.length_singleton] at below
    rcases Nat.lt_or_eq_of_le (Nat.le_of_lt_succ below) with before | rfl
    · exact served.listening k m' atK before
    · cases turn.symm.trans atK
      exact listens
  · have established := established_append (t := { s with tried := s.tried ++ [true] }) (a := a) turn rfl Iff.rfl
    exact established.mpr (Or.inl (served.reached a arrived))

/-- The instructions of `sendTask` are for machines of the master. -/
theorem known_of_sends {mapperID reducerID : CInt} {mapper : Nat} {destination : Address}
    (sends : s.sends mm mapperID reducerID = some (mapper, destination)) :
    (∃ m ∈ mm.m_physicsMachines, m.address = destination) ∧ s.tried.length = mm.m_physicsMachines.length := by
  obtain ⟨⟨mapper, m⟩, -, rest⟩ := Option.bind_eq_some_iff.mp sends
  obtain ⟨⟨position, r⟩, atReducer, rest⟩ := Option.bind_eq_some_iff.mp rest
  obtain ⟨⟨finished, -⟩, made⟩ := Option.ite_none_right_eq_some.mp rest
  cases made
  obtain ⟨-, found⟩ := MachineManager.machineOf_position atReducer
  exact ⟨⟨r, List.mem_of_getElem? found, rfl⟩, finished⟩

/-- Who has a task is behind `startConn`. -/
theorem Served.of_task (served : s.Served mm) (orderly : s.Orderly mm) {ins : SendInstruction}
    {rest : List SendInstruction} (front : (s.clients a).send_task_wait_queue = ins :: rest) :
    s.Established mm ins.destination ∧ (s.clients ins.destination).phase.listens = true := by
  obtain ⟨m, member, same⟩ := served.queued a ins (by rw [front]; exact List.mem_cons_self)
  rw [← same]
  refine served.established ?_ member
  by_contra early
  rw [(orderly.quiet (by omega)).untasked a] at front
  cases front

theorem Served.step (served : s.Served mm) (orderly : s.Orderly mm) (moves : Moves mm s act t)
    (answered : s.Answered mm act) : t.Served mm := by
  cases moves with
  | @listen a starts =>
    refine served.setClient ⟨by simp, (served.sound a).2⟩ (fun _ => rfl) (served.queued a) fun arrived => ?_
    refine served.reached a ?_
    rw [ClientProcess.arrivals, starts]
    exact arrived
  | @answered m turn listens =>
    have appended := served.append turn listens
    have established := established_append (t := { s with tried := s.tried ++ [true] }) (a := m.address) turn rfl
      Iff.rfl
    exact appended.setClient (appended.sound m.address) (fun _ => listens) (appended.queued m.address)
      fun _ => established.mpr (Or.inr ⟨rfl, rfl, (served.sound m.address).1⟩)
  | @unanswered m turn silent =>
    rw [answered m turn] at silent
    cases silent
  | @accept a c accepted =>
    obtain ⟨arrivals, queue, failing, -, after⟩ := accept_spec accepted
    refine served.setClient ⟨not_exited_of_listens after, failing.trans (served.sound a).2⟩ (fun _ => after)
      (queue ▸ served.queued a) ?_
    rw [arrivals]
    exact served.reached a
  | sendTask sends =>
    refine ⟨served.won, served.sound, served.listening, served.queued, fun k => ?_, served.reached⟩
    dsimp only
    rw [Function.update_apply]
    split
    · intro ins member
      rcases List.mem_append.mp member with old | new
      · exact served.sent _ ins old
      · rw [List.mem_singleton.mp new]
        exact (known_of_sends sends).1
    · exact served.sent k
  | @recvMsg a machine accepted ins rest serves front =>
    obtain ⟨phase, backlog, failing, tasks⟩ := appendTask_spec (s.clients a) ins
    have known := served.sent machine
    rw [front] at known
    have next := served.setClient (a := a) (c := (s.clients a).appendTask ins)
      ⟨phase ▸ (served.sound a).1, failing.trans (served.sound a).2⟩ (fun listens => by rw [phase]; exact listens)
      (fun task member => (tasks task member).elim (served.queued a task)
        fun new => by rw [new]; exact known ins List.mem_cons_self)
      (by rw [ClientProcess.arrivals, phase, backlog]; exact served.reached a)
    refine ⟨next.won, next.sound, next.listening, next.queued, fun k => ?_, next.reached⟩
    dsimp only
    rw [Function.update_apply]
    split
    · exact fun other member => known other (List.mem_cons_of_mem _ member)
    · exact served.sent k
  | @connect a ins rest s' front taken listens =>
    have queued := served.queued a
    rw [front] at queued
    have next : s'.Served mm := by
      rw [taken]
      exact served.setClient (served.sound a) id (fun task member => queued task (List.mem_cons_of_mem _ member))
        (served.reached a)
    refine next.setClient (next.sound _) id (next.queued _) fun _ => ?_
    obtain ⟨established, -⟩ := served.of_task orderly front
    have kept : s'.Established mm ins.destination ↔ s.Established mm ins.destination := by
      rw [taken]
      exact established_congr rfl (by rw [take_phase])
    exact kept.mpr established
  | connectFails front silent =>
    rw [(served.of_task orderly front).2] at silent
    cases silent
  | @exit a failing =>
    rw [(served.sound a).2] at failing
    cases failing

end Answered

theorem served_init (mm : MachineManager) : init.Served mm := by
  refine ⟨fun _ member => ?_, fun _ => ⟨by simp [init, ClientProcess.init], rfl⟩, fun _ _ _ below => ?_,
    fun _ _ member => ?_, fun _ _ member => ?_, fun _ arrived => (arrived rfl).elim⟩
  · cases member
  · cases below
  · cases member
  · cases member

theorem served_of_run {mm : MachineManager} {acts : List NetworkAction} {s : Network}
    (run : Run (Where (Steps (step mm)) (Answered mm)) init acts s) : s.Orderly mm ∧ s.Served mm := by
  refine run.invariant (I := fun s => s.Orderly mm ∧ s.Served mm) ⟨orderly_init mm, served_init mm⟩ ?_
  rintro s act t ⟨orderly, served⟩ ⟨answered, step⟩
  exact ⟨orderly.step (step_moves step), served.step orderly (step_moves step) answered⟩

/-- The connection of every `masterSockManger` was opened by the master. -/
def MasterFirst (s : Network) : Prop :=
  ∀ a masterfd accepted, (s.clients a).phase = .serving masterfd accepted → masterfd.ByMaster

/-- The next instruction names a client that the master has a connection to. -/
def NamesEstablished (mm : MachineManager) (s : Network) : Prop :=
  ∀ mapperID reducerID mapper destination, s.sends mm mapperID reducerID = some (mapper, destination) →
    s.Established mm destination

theorem Orderly.masterfd_iff {mm : MachineManager} {s : Network} (orderly : s.Orderly mm) {a : Address}
    {masterfd : Opener} {accepted : List Opener} (serves : (s.clients a).phase = .serving masterfd accepted) :
    masterfd.ByMaster ↔ s.Established mm a := by
  rw [orderly.heads, Heads, ClientProcess.arrivals, serves, ClientPhase.accepted, List.cons_append, List.head?_cons]
  simp

end Network

/-- In every run, what a client accepts first is the master's connection
exactly when the master has one to it. Where each client listens when
`startConn` comes to it, the master has one to every client that has accepted
any, and to every client that it names in an instruction. -/
theorem first_connection_of_answered (mm : MachineManager) :
    (∀ acts s, Run (Steps (Network.step mm)) Network.init acts s → ∀ a masterfd accepted,
      (s.clients a).phase = .serving masterfd accepted → (masterfd.ByMaster ↔ s.Established mm a)) ∧
      ∀ acts s, Run (Where (Steps (Network.step mm)) (Network.Answered mm)) Network.init acts s →
        s.MasterFirst ∧ s.NamesEstablished mm := by
  refine ⟨fun acts s run a masterfd accepted serves => (Network.orderly_of_run run).masterfd_iff serves,
    fun acts s run => ?_⟩
  obtain ⟨orderly, served⟩ := Network.served_of_run run
  constructor
  · intro a masterfd accepted serves
    refine (orderly.masterfd_iff serves).mpr (served.reached a ?_)
    rw [ClientProcess.arrivals, serves]
    exact List.cons_ne_nil _ _
  · intro mapperID reducerID mapper destination sends
    obtain ⟨⟨m, member, same⟩, finished⟩ := Network.known_of_sends sends
    exact same ▸ (served.established finished.ge member).1

/-- The two clients, the first of which is to send to the second. -/
def firstClient : Address := ([49], 80)
def secondClient : Address := ([50], 81)

def instructed : List NetworkAction :=
  [.accept firstClient, .sendTask (.clamp 0) (.clamp 1) 1, .recvMsg firstClient, .connect firstClient,
    .accept secondClient]

/-- Both clients listen before the master starts. -/
theorem first_connection_of_answered_two : ∃ s,
    Run (Where (Steps (Network.step twoMachines)) (Network.Answered twoMachines)) Network.init
      ([.listen secondClient, .listen firstClient, .startConn, .startConn] ++ instructed) s ∧
      s.MasterFirst ∧ s.NamesEstablished twoMachines := by
  obtain ⟨s, run, -⟩ := Run.of_foldlM_any (guarded (Network.step twoMachines) (Network.Answered twoMachines))
    Network.init ([.listen secondClient, .listen firstClient, .startConn, .startConn] ++ instructed)
    (p := fun _ => true) (by decide +kernel)
  exact ⟨s, .of_guarded run, (first_connection_of_answered twoMachines).2 _ s (.of_guarded run)⟩

/-- The second client listens too late for the master, and accepts the
connection of the first. -/
theorem first_connection_of_sender :
    (¬ ∀ mm acts s, Run (Steps (Network.step mm)) Network.init acts s → s.MasterFirst) ∧
      ¬ ∀ mm acts s, Run (Steps (Network.step mm)) Network.init acts s → s.NamesEstablished mm := by
  obtain ⟨s, run, late⟩ := Run.of_foldlM_any (Network.step twoMachines) Network.init
    ([.listen firstClient, .startConn, .startConn, .listen secondClient] ++ instructed)
    (p := fun s => decide ((s.clients secondClient).phase = .serving (.sendManager firstClient) []) &&
      decide (s.sends twoMachines (.clamp 0) (.clamp 1) = some (0, secondClient))) (by decide +kernel)
  rw [Bool.and_eq_true, decide_eq_true_eq, decide_eq_true_eq] at late
  constructor
  · intro always
    exact always _ _ s run _ _ _ late.1
  · intro always
    exact ((Network.orderly_of_run run).masterfd_iff late.1).mpr (always _ _ s run _ _ _ _ late.2)

end CoflowSim
