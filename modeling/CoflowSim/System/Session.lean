import CoflowSim.Client.RepliesOnce
import CoflowSim.Master.StartUp
import CoflowSim.System.CompletionLink
import CoflowSim.System.InstructionLink

namespace CoflowSim
open Lib Lib.Framing

/-- Where `Scheduler::run` stands: at the top of its loop, at a coflow of its
second loop, at a flow of that coflow, before `recvMsg` of a machine, in the
loop over the records of that machine, behind its `return`. -/
inductive RunPhase
  | registering
  | dispatching (i : Nat)
  | sending (i : Nat) (flows : List Flow)
  | polling (p : Nat)
  | draining (p : Nat)
  | returned
deriving DecidableEq

/-- A client and what is under way on its connection to the master, in the two
directions. `delivered` are the instructions that the master's `setSendMsg` has
taken for it, `taken` the records that `run` has taken from it. -/
structure Node where
  instructions : List Byte
  loop : EventLoop
  manager : SendManager
  completions : List Byte
  delivered : List (List Byte)
  taken : List FlowEndInfo

/-- The master and its clients, a client for each physical machine. -/
structure Session where
  phase : RunPhase
  master : Scheduler
  nodes : List Node

/-- The steps of the master's thread, the decoding loop of a client's thread,
and the other steps of a client. -/
inductive SessionAction
  | registerCoflow (now : Int)
  | next
  | sendTask (kernel : SendOutcome)
  | settle
  | poll (chunk rest : List Byte) (flowEndIndex flowStartIndex : CInt)
  | report (ctime : Nat → Int)
  | receive (p : Nat) (chunk rest : List Byte)
  | client (p : Nat) (a : ClientAction)

/-- What stands between the brackets of a frame. -/
def payload (frame : List Byte) : List Byte := frame.tail.dropLast

namespace Node

def start (pool : ThreadPool Caller Job) : Node := ⟨[], .init, .init pool, [], [], []⟩

/-- What a call of `sendTask` gives to its mapper's connection. -/
def offer (node : Node) (call : TaskCall) (kernel : SendOutcome) : Node :=
  { node with
    instructions := node.instructions ++ call.offered.taken kernel
    delivered := node.delivered ++ if (call.before.setSendMsg call.frame).result then [payload call.frame] else [] }

/-- What the client's own steps give to the connection. -/
def emitted (node : Node) : ClientAction → List Byte
  | .sendMsg _ kernel => node.manager.masterSockManger.taken kernel
  | _ => []

/-- `appendTask` is called for the instructions in the order of the scan. -/
def Scanned (node : Node) : ClientAction → Prop
  | .appendTask ins _ => node.loop.appended[node.manager.tasks.length]? = some ins
  | _ => True

/-- A reply does not fill the send buffer to its last byte, a send is not
short, and a `Sender` reads a time that an `int` holds. -/
def Proper (node : Node) : ClientAction → Prop
  | .setSendMsg _ => ∀ t reply rest, node.manager.phase = .replying t reply rest →
      node.manager.masterSockManger.sendBufSize + reply.length ≠ MAX_SEND_BUFFER_SIZE
  | .sendMsg _ kernel => ¬ node.manager.masterSockManger.Short kernel
  | .setEndTime _ time => 0 ≤ time ∧ time ≤ 2147483647
  | _ => True

end Node

namespace Session

def init (master : Scheduler) (pools : List (ThreadPool Caller Job)) : Session :=
  ⟨.registering, master, pools.map Node.start⟩

/-- The call of `sendTask` that comes next, with what its `send` returns. -/
def nextCall (s : Session) (kernel : SendOutcome) : Option Dispatched :=
  match s.phase with
  | .sending i (f :: _) => do
    let co ← s.master.sCoflows[i]?
    let f := f.setCurrentMbs 10
    let call ← s.master.machines.sendTask co.coflowID f.flowID f.mapperID f.reducerID f.flowSizeMB f.currentMbs kernel
    some ⟨i, f, call⟩
  | _ => none

def setMachine (master : Scheduler) (p : Nat) (machine : Machine) : Scheduler :=
  { master with machines :=
      { master.machines with m_physicsMachines := master.machines.m_physicsMachines.set p machine } }

inductive Step : Session → SessionAction → Session → Prop
  | registerCoflow {s} (now : Int) (top : s.phase = .registering) :
      Step s (.registerCoflow now) { s with master := (s.master.registerCoflow now).select, phase := .dispatching 0 }
  | enter {s i co} (at_i : s.phase = .dispatching i) (below : i < s.master.registerIndex)
      (here : s.master.sCoflows[i]? = some co) (running : co.coflowState = .running) :
      Step s .next { s with phase := .sending i co.flowCollection.values }
  | skip {s i co} (at_i : s.phase = .dispatching i) (below : i < s.master.registerIndex)
      (here : s.master.sCoflows[i]? = some co) (other : co.coflowState ≠ .running) :
      Step s .next { s with phase := .dispatching (i + 1) }
  | dispatched {s i} (at_i : s.phase = .dispatching i) (all : s.master.registerIndex ≤ i) :
      Step s .next { s with phase := .polling 0 }
  -- the result of `sendTask` is always true, so the loop around it ends
  | sendTask {s i f flows d} (kernel : SendOutcome) (sends : s.phase = .sending i (f :: flows))
      (called : s.nextCall kernel = some d) :
      Step s (.sendTask kernel) {
        phase := .sending i flows
        master := { s.master with machines := d.call.machines, calls := s.master.calls ++ [d] }
        nodes := s.nodes.modify d.call.mapper fun node => node.offer d.call kernel }
  | settle {s i co} (sent : s.phase = .sending i []) (here : s.master.sCoflows[i]? = some co) :
      Step s .settle { s with
        master := { s.master with sCoflows := s.master.sCoflows.set i co.settled }, phase := .dispatching (i + 1) }
  | poll {s p machine machine' node chunk rest flowEndIndex flowStartIndex} (at_p : s.phase = .polling p)
      (here : s.master.machines.m_physicsMachines[p]? = some machine) (client : s.nodes[p]? = some node)
      (arrives : node.completions = chunk ++ rest) (fits : chunk.length ≤ MAX_RECV_BUFFER_SIZE)
      (parsed : (machine.receive chunk).parseFlowsFinishedInfo flowEndIndex.val flowStartIndex.val = some machine') :
      Step s (.poll chunk rest flowEndIndex flowStartIndex) {
        phase := .draining p
        master := setMachine s.master p machine'
        nodes := s.nodes.set p { node with completions := rest } }
  | polled {s p} (at_p : s.phase = .polling p) (all : s.master.machines.m_physicsMachines.length ≤ p) :
      Step s .next { s with phase := .registering }
  | report {s p machine machine' node info} (ctime : Nat → Int) (drains : s.phase = .draining p)
      (here : s.master.machines.m_physicsMachines[p]? = some machine) (client : s.nodes[p]? = some node)
      (first : machine.getOneFlowEndInfo = some (info, machine')) :
      Step s (.report ctime) {
        phase := if (s.master.takeReport ctime info).returned then .returned else .draining p
        master := setMachine (s.master.takeReport ctime info) p machine'
        nodes := s.nodes.set p { node with taken := node.taken ++ [info] } }
  | drained {s p machine} (drains : s.phase = .draining p)
      (here : s.master.machines.m_physicsMachines[p]? = some machine) (empty : machine.getOneFlowEndInfo = none) :
      Step s .next { s with phase := .polling (p + 1) }
  -- a pass of the event loop begins when the instructions of the last one are appended
  | receive {s p node chunk rest} (client : s.nodes[p]? = some node) (listens : node.manager.Listening)
      (appended : node.manager.tasks.length = node.loop.appended.length)
      (arrives : node.instructions = chunk ++ rest) (fits : chunk.length ≤ MAX_RECV_BUFFER_SIZE) :
      Step s (.receive p chunk rest) { s with
        nodes := s.nodes.set p
          { node with instructions := rest, loop := node.loop.pass (RecvOutcome.ofChunk chunk) } }
  | client {s p node a manager} (client : s.nodes[p]? = some node) (scanned : node.Scanned a)
      (step : node.manager.Step a manager) :
      Step s (.client p a) { s with
        nodes := s.nodes.set p { node with manager, completions := node.completions ++ node.emitted a } }

/-- As `Node.Proper` says of a client, an instruction does not fill the send
buffer to its last byte and a send is not short; and `flowEndIndex` does not
start above zero where nothing sets it. -/
def Proper (s : Session) : SessionAction → Prop
  | .sendTask kernel => ∀ d, s.nextCall kernel = some d →
      d.call.before.sendBufSize + d.call.frame.length ≠ MAX_SEND_BUFFER_SIZE ∧ ¬ d.call.offered.Short kernel
  | .poll chunk _ flowEndIndex _ => rparen ∉ chunk → flowEndIndex.val ≤ 0
  | .client p a => ∀ node, s.nodes[p]? = some node → node.Proper a
  | _ => True

variable {s t : Session} {a : SessionAction}

/-- A step of the session is one of the client at a node, or none there. -/
theorem Step.manager (step : Step s a t) {p : Nat} {next : Node} (here : t.nodes[p]? = some next) :
    ∃ node, s.nodes[p]? = some node ∧
      (next.manager = node.manager ∨ ∃ b, a = .client p b ∧ node.manager.Step b next.manager) := by
  have kept {q : Nat} {node changed : Node} (client : s.nodes[q]? = some node)
      (there : (s.nodes.set q changed)[p]? = some next) (same : changed.manager = node.manager) :
      ∃ node, s.nodes[p]? = some node ∧
        (next.manager = node.manager ∨ ∃ b, a = .client p b ∧ node.manager.Step b next.manager) := by
    rw [List.getElem?_set] at there
    split at there
    · rename_i equal
      split at there
      · cases there
        exact ⟨node, equal ▸ client, Or.inl same⟩
      · cases there
    · exact ⟨next, there, Or.inl rfl⟩
  cases step with
  | registerCoflow | enter | skip | dispatched | settle | polled | drained => exact ⟨next, here, Or.inl rfl⟩
  | sendTask kernel sends called =>
    rw [List.getElem?_modify] at here
    obtain ⟨node, before, rfl⟩ := Option.map_eq_some_iff.mp here
    refine ⟨node, before, Or.inl ?_⟩
    split
    · rfl
    · rfl
  | poll _ _ client => exact kept client here rfl
  | report _ _ _ client => exact kept client here rfl
  | receive client => exact kept client here rfl
  | @client q node b manager client scanned own =>
    rw [List.getElem?_set] at here
    split at here
    · rename_i equal
      split at here
      · cases here
        exact ⟨node, equal ▸ client, Or.inr ⟨b, equal ▸ rfl, own⟩⟩
      · cases here
    · exact ⟨next, here, Or.inl rfl⟩

/-- The steps of the clients meet a guard. -/
def Clients (guard : SendManager → ClientAction → Prop) (s : Session) (a : SessionAction) : Prop :=
  ∀ p b node, a = .client p b → s.nodes[p]? = some node → guard node.manager b

/-- The steps are proper, and the clients are timely. -/
def Tidy (s : Session) (a : SessionAction) : Prop := s.Proper a ∧ s.Clients SendManager.Timely a

end Session

end CoflowSim
