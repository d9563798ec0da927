import CoflowSim.Lib.Shares
import CoflowSim.Master.CompletionOrder
import CoflowSim.System.SessionNode

namespace CoflowSim
open Lib Lib.Framing

/-- What `run` starts from: coflows whose flows have a size, and machines as
`addOnePhysicsMachine` creates them, at addresses that an instruction can carry. -/
structure Prepared (coflows : List Coflow) (mm : MachineManager) : Prop where
  built : ∀ c ∈ coflows, c.Built
  sized : ∀ c ∈ coflows, ∀ f ∈ c.flowCollection.values, 0 < f.flowSizeMB
  created : ∀ m ∈ mm.m_physicsMachines, ∃ (machineID : Nat) (sockip : List Byte) (port : CInt),
    m = Machine.create machineID sockip port.val ∧ Plain sockip

/-- Routing leaves the addresses as they were. -/
theorem Prepared.address {coflows : List Coflow} {mm mm' : MachineManager} (prepared : Prepared coflows mm)
    (routes : mm'.routes = mm.routes) {m : Machine} (member : m ∈ mm'.m_physicsMachines) :
    Plain m.socketip ∧ ∃ port : CInt, m.socketport = port.val := by
  have inRoutes : (m.socketip, m.socketport) ∈ mm'.routes.2 :=
    List.mem_map_of_mem (f := fun m : Machine => (m.socketip, m.socketport)) member
  rw [routes] at inRoutes
  obtain ⟨original, inside, same⟩ := List.mem_map.mp inRoutes
  obtain ⟨machineID, sockip, port, rfl, plain⟩ := prepared.created original inside
  obtain ⟨ip, number⟩ := Prod.mk.inj same
  exact ⟨ip ▸ plain, port, number.symm⟩

section Named

variable {coflowID flowID : CInt} {socketip : List Byte} {port : CInt} {flowSizeMB sendSpeedMbs : Rat}

/-- The IDs of an instruction are read whatever `malloc` has left. -/
theorem parse_taskBody_ids (address : Plain socketip) (size : 0 < flowSizeMB) (speed : 0 < sendSpeedMbs)
    (unset : CInt × CInt) :
    (SendTask.parse (taskBody coflowID flowID socketip port.val flowSizeMB sendSpeedMbs) unset).ids =
      (coflowID, flowID) := by
  have ids := TaskFields.parse_ids (taskBody coflowID flowID socketip port.val flowSizeMB sendSpeedMbs)
    ⟨unset.1, unset.2, [], .zero, [], 0, 0⟩
  rw [parse_taskBody address size speed] at ids
  exact Prod.ext ids.1 ids.2

end Named

namespace Scheduler

variable {coflows : List Coflow} {mm : MachineManager} {s : Scheduler}

/-- The loop does not look at the sends behind those it uses. -/
theorem sendTaskLoop_more {i : Nat} {co : Coflow} {f : Flow} {t : Scheduler} {sends rest : List SendOutcome}
    (loop : s.sendTaskLoop i co f sends = some (t, rest)) (more : List SendOutcome) :
    s.sendTaskLoop i co f (sends ++ more) = some (t, rest ++ more) := by
  induction sends generalizing s with
  | nil => cases loop
  | cons kernel sends ih =>
    obtain ⟨call, called, after⟩ := Option.bind_eq_some_iff.mp loop
    refine Option.bind_eq_some_iff.mpr ⟨call, called, ?_⟩
    dsimp only at after ⊢
    split at after
    · rename_i result
      cases after
      exact if_pos result
    · rename_i result
      exact (if_neg result).trans (ih after)

theorem sendFlows_more {i : Nat} {co : Coflow} {fs : List Flow} {t : Scheduler} {sends rest : List SendOutcome}
    (sent : fs.foldlM (fun (s, sends) f => s.sendTaskLoop i co (f.setCurrentMbs 10) sends) (s, sends) =
      some (t, rest)) (more : List SendOutcome) :
    fs.foldlM (fun (s, sends) f => s.sendTaskLoop i co (f.setCurrentMbs 10) sends) (s, sends ++ more) =
      some (t, rest ++ more) := by
  induction fs generalizing s sends with
  | nil =>
    cases sent
    rfl
  | cons f fs ih =>
    rw [List.foldlM_cons] at sent ⊢
    obtain ⟨⟨u, left⟩, first, later⟩ := Option.bind_eq_some_iff.mp sent
    exact Option.bind_eq_some_iff.mpr ⟨(u, left ++ more), sendTaskLoop_more first more, ih later⟩

theorem dispatchCoflow_of_sent {i : Nat} {co : Coflow} {t : Scheduler} {sends rest : List SendOutcome}
    (here : s.sCoflows[i]? = some co) (running : co.coflowState = .running)
    (sent : co.flowCollection.values.foldlM (fun (s, sends) f => s.sendTaskLoop i co (f.setCurrentMbs 10) sends)
      (s, sends) = some (t, rest)) :
    s.dispatchCoflow sends i = some ({ t with sCoflows := t.sCoflows.set i co.settled }, rest) := by
  refine Option.bind_eq_some_iff.mpr ⟨co, here, (if_pos running).trans ?_⟩
  exact Option.bind_eq_some_iff.mpr ⟨(t, rest), sent, rfl⟩

/-- `run` is inside the loop over the flows of the coflow at position `i`, with
`flows` still to send: `before` is where that loop was entered. -/
inductive Sending (coflows : List Coflow) (mm : MachineManager) (i : Nat) (flows : List Flow) (s : Scheduler) : Prop
  | intro {before : Scheduler} {sent : Nat} {co : Coflow} {done : List Flow} {sends : List SendOutcome}
      (upTo : i ≤ sent) (below : i < before.registerIndex) (standing : Standing coflows .running sent before)
      (dispatches : Dispatches mm before) (here : before.sCoflows[i]? = some co) (running : co.coflowState = .running)
      (values : co.flowCollection.values = done ++ flows)
      (sending : done.foldlM (fun (s, sends) f => s.sendTaskLoop i co (f.setCurrentMbs 10) sends) (before, sends) =
        some (s, [])) : Sending coflows mm i flows s

namespace Sending

variable {i : Nat} {flows : List Flow}

/-- Inside the loop only the sockets and the calls have changed. -/
theorem coflows_routes (sending : Sending coflows mm i flows s) :
    s.sCoflows.map Coflow.order = coflows.map Coflow.order ∧ s.machines.routes = mm.routes := by
  obtain ⟨-, -, standing, dispatches, -, -, -, sent⟩ := sending
  obtain ⟨more, after, routes, -, -⟩ := sendFlows_spec sent
  refine ⟨?_, routes.trans dispatches.routes⟩
  rw [after]
  exact standing.orders

theorem here (sending : Sending coflows mm i flows s) : ∃ co, s.sCoflows[i]? = some co := by
  obtain @⟨_, _, co, _, _, -, -, -, -, at_i, -, -, sent⟩ := sending
  obtain ⟨more, after, -, -, -⟩ := sendFlows_spec sent
  rw [after]
  exact ⟨co, at_i⟩

/-- The next flow is one of the coflow. -/
theorem mem {f : Flow} (sending : Sending coflows mm i (f :: flows) s) {co : Coflow}
    (here : s.sCoflows[i]? = some co) : f ∈ co.flowCollection.values := by
  obtain ⟨-, -, -, -, at_i, -, values, sent⟩ := sending
  obtain ⟨more, after, -, -, -⟩ := sendFlows_spec sent
  rw [after] at here
  cases at_i.symm.trans here
  rw [values]
  exact List.mem_append_right _ List.mem_cons_self

/-- One call of `sendTask` further. -/
theorem next {f : Flow} (sending : Sending coflows mm i (f :: flows) s) {co : Coflow}
    (here : s.sCoflows[i]? = some co) {kernel : SendOutcome} {call : TaskCall}
    (called : s.machines.sendTask co.coflowID (f.setCurrentMbs 10).flowID (f.setCurrentMbs 10).mapperID
      (f.setCurrentMbs 10).reducerID (f.setCurrentMbs 10).flowSizeMB (f.setCurrentMbs 10).currentMbs kernel =
        some call) :
    Sending coflows mm i flows
      { s with machines := call.machines, calls := s.calls ++ [⟨i, f.setCurrentMbs 10, call⟩] } := by
  obtain @⟨before, _, co, done, sends, upTo, below, standing, dispatches, at_i, running, values, sent⟩ := sending
  obtain ⟨more, after, -, -, -⟩ := sendFlows_spec sent
  rw [after] at here
  cases at_i.symm.trans here
  obtain ⟨_, _, _, _, -, -, result, -⟩ := MachineManager.sendTask_spec called
  have last : s.sendTaskLoop i co (f.setCurrentMbs 10) [kernel] = some
      ({ s with machines := call.machines, calls := s.calls ++ [⟨i, f.setCurrentMbs 10, call⟩] }, []) :=
    Option.bind_eq_some_iff.mpr ⟨call, called, if_pos result⟩
  have sent' : (done ++ [f]).foldlM (fun (s, sends) f => s.sendTaskLoop i co (f.setCurrentMbs 10) sends)
      (before, sends ++ [kernel]) = some
        ({ s with machines := call.machines, calls := s.calls ++ [⟨i, f.setCurrentMbs 10, call⟩] }, []) := by
    rw [List.foldlM_append]
    refine Option.bind_eq_some_iff.mpr ⟨_, sendFlows_more sent [kernel], ?_⟩
    simp only [List.foldlM_cons, List.foldlM_nil, bind_pure, List.nil_append]
    exact last
  exact ⟨upTo, below, standing, dispatches, at_i, running, values.trans (List.append_cons _ _ _), sent'⟩

/-- The end of the loop. -/
theorem settle (sending : Sending coflows mm i [] s) {co : Coflow} (here : s.sCoflows[i]? = some co) :
    ∃ sent, i + 1 ≤ sent ∧ Standing coflows .running sent { s with sCoflows := s.sCoflows.set i co.settled } ∧
      Dispatches mm { s with sCoflows := s.sCoflows.set i co.settled } := by
  obtain ⟨upTo, below, standing, dispatches, at_i, running, values, sent⟩ := sending
  obtain ⟨more, after, -, -, -⟩ := sendFlows_spec sent
  have coflows : s.sCoflows = _ := congrArg Scheduler.sCoflows after
  rw [coflows] at here
  cases at_i.symm.trans here
  rw [List.append_nil] at values
  rw [← values] at sent
  have dispatched := dispatchCoflow_of_sent at_i running sent
  obtain ⟨next, -, -⟩ := standing.dispatchCoflow upTo below dispatched
  exact ⟨_, le_max_right _ _, next, (dispatches.dispatchCoflow below dispatched).1⟩

end Sending

end Scheduler

/-- The mapper's `setSendMsg` has taken the frame of the call. -/
def Dispatched.accepted (d : Dispatched) : Bool := (d.call.before.setSendMsg d.call.frame).result

theorem Dispatched.accepted_of_room {d : Dispatched} (room : d.call.HasRoom) : d.accepted = true := by
  rcases d.call.before.setSendMsg_cases d.call.frame with ⟨-, result, -⟩ | ⟨full, -⟩
  · exact result
  · exact absurd room (Nat.not_le.mpr full)

/-- What stands in a list after one entry has been set. -/
theorem getElem?_set_cases {α : Type} {l : List α} {p q : Nat} {x y : α} (here : (l.set p x)[q]? = some y) :
    q = p ∧ y = x ∨ q ≠ p ∧ l[q]? = some y := by
  rw [List.getElem?_set] at here
  split at here
  · rename_i same
    split at here
    · cases here
      exact Or.inl ⟨same.symm, rfl⟩
    · cases here
  · rename_i other
    exact Or.inr ⟨Ne.symm other, here⟩

namespace Session

/-- Where the dispatch stands, by where `run` stands. -/
def Position (coflows : List Coflow) (mm : MachineManager) (s : Session) : Prop :=
  match s.phase with
  | .dispatching i => ∃ sent, i ≤ sent ∧ Scheduler.Standing coflows .running sent s.master ∧
      Scheduler.Dispatches mm s.master
  | .sending i flows => Scheduler.Sending coflows mm i flows s.master
  | _ => Scheduler.Standing coflows .running s.master.registerIndex s.master ∧ Scheduler.Dispatches mm s.master

/-- The instructions that have been accepted for the machine at position `p`. -/
def acceptedFor (p : Nat) (calls : List Dispatched) : List (List Byte) :=
  (calls.filter fun d => d.call.mapper = p ∧ d.accepted).map fun d => payload d.call.frame

/-- Nothing is under way between the master and its clients. -/
def Idle (s : Session) : Prop :=
  ∀ (p : Nat) (node : Node) (m : Machine), s.nodes[p]? = some node →
    s.master.machines.m_physicsMachines[p]? = some m → node.Idle m

/-- Every client is sound with its machine and has been given the instructions
that were accepted for it, the master has taken what it has taken from the
clients, and its accounts and its dispatch are as `run` keeps them. -/
structure Sound (coflows : List Coflow) (mm : MachineManager) (s : Session) : Prop where
  sites : s.nodes.length = s.master.machines.m_physicsMachines.length
  nodes : ∀ (p : Nat) (node : Node) (m : Machine), s.nodes[p]? = some node →
    s.master.machines.m_physicsMachines[p]? = some m → node.Sound m
  delivered : ∀ (p : Nat) (node : Node), s.nodes[p]? = some node → node.delivered = acceptedFor p s.master.calls
  taken : s.master.taken.Perm (s.nodes.flatMap fun node => node.taken)
  tracks : Scheduler.Tracks coflows s.master
  going : s.master.returned = true ↔ s.phase = .returned
  position : s.Position coflows mm

section Steps

variable {coflows : List Coflow} {mm : MachineManager} {s : Session}

/-- Every client has its machine. -/
theorem Sound.site (sound : s.Sound coflows mm) {p : Nat} {node : Node} (here : s.nodes[p]? = some node) :
    ∃ m, s.master.machines.m_physicsMachines[p]? = some m ∧ node.Sound m := by
  have inside := (List.getElem?_eq_some_iff.mp here).1
  rw [sound.sites] at inside
  have machine := List.getElem?_eq_getElem inside
  exact ⟨_, machine, sound.nodes p node _ here machine⟩

theorem Position.coflows_routes (position : s.Position coflows mm) :
    s.master.sCoflows.map Coflow.order = coflows.map Coflow.order ∧ s.master.machines.routes = mm.routes := by
  unfold Position at position
  split at position
  · obtain ⟨_, -, standing, dispatches⟩ := position
    exact ⟨standing.orders, dispatches.routes⟩
  · exact position.coflows_routes
  · exact ⟨position.1.orders, position.2.routes⟩

/-- Outside the dispatch. -/
theorem position_of_between {s : Session} (phase : ∀ i, s.phase ≠ .dispatching i)
    (outside : ∀ i flows, s.phase ≠ .sending i flows)
    (standing : Scheduler.Standing coflows .running s.master.registerIndex s.master)
    (dispatches : Scheduler.Dispatches mm s.master) : s.Position coflows mm := by
  unfold Position
  split
  · rename_i i same
    exact absurd same (phase i)
  · rename_i i flows same
    exact absurd same (outside i flows)
  · exact ⟨standing, dispatches⟩

theorem Tracks.machines {master : Scheduler} (tracks : Scheduler.Tracks coflows master) (machines : MachineManager)
    (calls : List Dispatched) : Scheduler.Tracks coflows { master with machines, calls } := by
  obtain ⟨same, accounts, lines, named, counted, halts, goes⟩ := tracks
  exact ⟨same, accounts, lines, named, counted, halts, goes⟩

/-- Registration and selection change the coflows and the index only. -/
theorem registerLoop_frame (t : Int) (n : Nat) (master : Scheduler) :
    ∃ sCoflows registerIndex, Scheduler.registerLoop t n master = { master with sCoflows, registerIndex } := by
  induction n generalizing master with
  | zero => exact ⟨_, _, rfl⟩
  | succ n ih =>
    unfold Scheduler.registerLoop
    split
    · exact ⟨_, _, rfl⟩
    · split
      · obtain ⟨sCoflows, registerIndex, after⟩ := ih { master with
          sCoflows := _, registerIndex := master.registerIndex + 1 }
        exact ⟨sCoflows, registerIndex, after⟩
      · exact ⟨_, _, rfl⟩

theorem Standing.machines {pending : CoflowState} {sent : Nat} {master : Scheduler}
    (standing : Scheduler.Standing coflows pending sent master) (machines : MachineManager) :
    Scheduler.Standing coflows pending sent { master with machines } := by
  obtain ⟨orders, registered, within, states, calls⟩ := standing
  exact ⟨orders, registered, within, states, calls⟩

theorem Sound.registerCoflow (sound : s.Sound coflows mm) (now : Int) (top : s.phase = .registering) :
    Sound coflows mm { s with master := (s.master.registerCoflow now).select, phase := .dispatching 0 } := by
  obtain ⟨sites, nodes, delivered, taken, tracks, going, position⟩ := sound
  rw [Position, top] at position
  obtain ⟨standing, dispatches⟩ := position
  have quiet : Scheduler.Undisturbed s.master (s.master.registerCoflow now).select :=
    (Scheduler.registerLoop_undisturbed _ _ _).trans (Scheduler.select_undisturbed _)
  have selected := ((standing.of_settled .registed).registerLoop (now - s.master.startTime)
    (s.master.sCoflows.length - s.master.registerIndex)).1.select
  have planned := (dispatches.registerLoop (now - s.master.startTime)
    (s.master.sCoflows.length - s.master.registerIndex)).keepsPlan (Scheduler.select_keepsPlan _)
  have tracked := tracks.undisturbed quiet
  have position : Position coflows mm { s with
      master := (s.master.registerCoflow now).select, phase := .dispatching 0 } :=
    ⟨s.master.registerIndex, Nat.zero_le _, selected, planned⟩
  obtain ⟨sCoflows, registerIndex, after⟩ := registerLoop_frame (now - s.master.startTime)
    (s.master.sCoflows.length - s.master.registerIndex) s.master
  have same : (s.master.registerCoflow now).select =
      { s.master with sCoflows := (s.master.registerCoflow now).select.sCoflows, registerIndex } := by
    rw [Scheduler.select, Scheduler.registerCoflow, after]
  refine ⟨?_, ?_, ?_, ?_, tracked, ?_, position⟩
  · rw [same]
    exact sites
  · rw [same]
    exact nodes
  · rw [same]
    exact delivered
  · rw [same]
    exact taken
  · rw [same]
    simpa [top] using going

/-- A step of `run` that only moves on. -/
theorem Sound.turn (sound : s.Sound coflows mm) {phase : RunPhase} (before : s.phase ≠ .returned)
    (after : phase ≠ .returned) (position : Position coflows mm { s with phase }) :
    Sound coflows mm { s with phase } := by
  obtain ⟨sites, nodes, delivered, taken, tracks, going, -⟩ := sound
  refine ⟨sites, nodes, delivered, taken, tracks, ?_, position⟩
  simpa [before, after] using going

theorem Sound.enter (sound : s.Sound coflows mm) {i : Nat} {co : Coflow} (at_i : s.phase = .dispatching i)
    (below : i < s.master.registerIndex) (here : s.master.sCoflows[i]? = some co)
    (running : co.coflowState = .running) :
    Sound coflows mm { s with phase := .sending i co.flowCollection.values } := by
  have position := sound.position
  rw [Position, at_i] at position
  obtain ⟨sent, upTo, standing, dispatches⟩ := position
  have entered : ([] : List Flow).foldlM (fun (master, sends) f =>
      Scheduler.sendTaskLoop i co (f.setCurrentMbs 10) master sends) (s.master, []) = some (s.master, []) := rfl
  have sending : Scheduler.Sending coflows mm i co.flowCollection.values s.master :=
    .intro upTo below standing dispatches here running (List.nil_append _).symm entered
  exact sound.turn (by simp [at_i]) nofun sending

theorem Sound.skip (sound : s.Sound coflows mm) {i : Nat} {co : Coflow} (at_i : s.phase = .dispatching i)
    (below : i < s.master.registerIndex) (here : s.master.sCoflows[i]? = some co)
    (other : co.coflowState ≠ .running) : Sound coflows mm { s with phase := .dispatching (i + 1) } := by
  have position := sound.position
  rw [Position, at_i] at position
  obtain ⟨sent, upTo, standing, dispatches⟩ := position
  have already : i < sent := by
    by_contra fresh
    have state := standing.states i co here
    rw [if_neg fresh, if_pos below] at state
    exact other state
  have position : Position coflows mm { s with phase := .dispatching (i + 1) } :=
    ⟨sent, already, standing, dispatches⟩
  exact sound.turn (by simp [at_i]) nofun position

theorem Sound.dispatched (sound : s.Sound coflows mm) {i : Nat} (at_i : s.phase = .dispatching i)
    (all : s.master.registerIndex ≤ i) : Sound coflows mm { s with phase := .polling 0 } := by
  have position := sound.position
  rw [Position, at_i] at position
  obtain ⟨sent, upTo, standing, dispatches⟩ := position
  have within := standing.within
  have complete : sent = s.master.registerIndex := by omega
  rw [complete] at standing
  have position : Position coflows mm { s with phase := .polling 0 } := ⟨standing, dispatches⟩
  exact sound.turn (by simp [at_i]) nofun position

theorem Sound.settle (sound : s.Sound coflows mm) {i : Nat} {co : Coflow} (sent : s.phase = .sending i [])
    (here : s.master.sCoflows[i]? = some co) :
    Sound coflows mm { s with
      master := { s.master with sCoflows := s.master.sCoflows.set i co.settled }, phase := .dispatching (i + 1) } := by
  obtain ⟨sites, nodes, delivered, taken, tracks, going, position⟩ := sound
  rw [Position, sent] at position
  obtain ⟨count, upTo, standing, dispatches⟩ := position.settle here
  have quiet : Scheduler.Undisturbed s.master
      { s.master with sCoflows := s.master.sCoflows.set i co.settled } := by
    refine ⟨rfl, Scheduler.map_set_same here ?_, rfl, rfl, rfl⟩
    simp [Coflow.ledger, Coflow.settled, OrderedMap.mapEntries, Flow.setCurrentMbs]
  exact ⟨sites, nodes, delivered, taken, tracks.undisturbed quiet, by simpa [sent] using going,
    ⟨count, upTo, standing, dispatches⟩⟩

/-- A node whose client takes a step of its own. -/
theorem Sound.setNode (sound : s.Sound coflows mm) {p : Nat} {node next : Node} (here : s.nodes[p]? = some node)
    (kept : ∀ m, node.Sound m → next.Sound m) (delivered : next.delivered = node.delivered)
    (taken : next.taken = node.taken) : Sound coflows mm { s with nodes := s.nodes.set p next } := by
  refine ⟨by simpa using sound.sites, fun q other m atQ machine => ?_, fun q other atQ => ?_, ?_, sound.tracks,
    sound.going, sound.position⟩
  · rcases getElem?_set_cases atQ with ⟨rfl, rfl⟩ | ⟨-, old⟩
    · exact kept m (sound.nodes q node m here machine)
    · exact sound.nodes q other m old machine
  · rcases getElem?_set_cases atQ with ⟨rfl, rfl⟩ | ⟨-, old⟩
    · exact delivered.trans (sound.delivered q node here)
    · exact sound.delivered q other old
  · rw [flatMap_set_same here taken]
    exact sound.taken

/-- A node and its machine that change together, while `run` is not in its
dispatch. -/
theorem Sound.setSite (sound : s.Sound coflows mm) {p : Nat} {node next : Node} {m m' : Machine}
    {master : Scheduler} {phase : RunPhase} (here : s.nodes[p]? = some node)
    (machine : s.master.machines.m_physicsMachines[p]? = some m) (machines : master.machines = s.master.machines)
    (kept : node.Sound m → next.Sound m') (delivered : next.delivered = node.delivered)
    (calls : master.calls = s.master.calls) (taken : master.taken.Perm ((s.nodes.set p next).flatMap fun n => n.taken))
    (tracks : Scheduler.Tracks coflows (setMachine master p m'))
    (going : master.returned = true ↔ phase = .returned)
    (position : Position coflows mm ⟨phase, setMachine master p m', s.nodes.set p next⟩) :
    Sound coflows mm ⟨phase, setMachine master p m', s.nodes.set p next⟩ := by
  have inside := (List.getElem?_eq_some_iff.mp machine).1
  refine ⟨?_, fun q other n atQ atM => ?_, fun q other atQ => ?_, taken, tracks, going, position⟩
  · simp only [setMachine, List.length_set, machines]
    exact sound.sites
  · simp only [setMachine, machines] at atM
    rcases getElem?_set_cases atQ with ⟨rfl, rfl⟩ | ⟨apart, old⟩
    · rw [List.getElem?_set_self inside] at atM
      cases atM
      exact kept (sound.nodes q node m here machine)
    · rw [List.getElem?_set_ne (Ne.symm apart)] at atM
      exact sound.nodes q other n old atM
  · have calls : (setMachine master p m').calls = s.master.calls := calls
    rw [calls]
    rcases getElem?_set_cases atQ with ⟨rfl, rfl⟩ | ⟨-, old⟩
    · exact delivered.trans (sound.delivered q node here)
    · exact sound.delivered q other old

theorem Sound.receive (sound : s.Sound coflows mm) {p : Nat} {node : Node} {chunk rest : List Byte}
    (client : s.nodes[p]? = some node) (arrives : node.instructions = chunk ++ rest)
    (fits : chunk.length ≤ MAX_RECV_BUFFER_SIZE) :
    Sound coflows mm { s with
      nodes := s.nodes.set p
        { node with instructions := rest, loop := node.loop.pass (RecvOutcome.ofChunk chunk) } } :=
  sound.setNode client (fun _ before => before.receive arrives fits) rfl rfl

theorem Sound.client (sound : s.Sound coflows mm) {p : Nat} {node : Node} {a : ClientAction} {manager : SendManager}
    (client : s.nodes[p]? = some node) (scanned : node.Scanned a) (proper : node.Proper a)
    (step : node.manager.Step a manager) :
    Sound coflows mm { s with
      nodes := s.nodes.set p { node with manager, completions := node.completions ++ node.emitted a } } :=
  sound.setNode client (fun _ before => before.client scanned proper step) rfl rfl

/-- A machine at the same address takes the place of another. -/
theorem setMachine_routes {master : Scheduler} {p : Nat} {m m' : Machine}
    (here : master.machines.m_physicsMachines[p]? = some m)
    (same : (m'.socketip, m'.socketport) = (m.socketip, m.socketport)) :
    (setMachine master p m').machines.routes = master.machines.routes := by
  obtain ⟨inside, rfl⟩ := List.getElem?_eq_some_iff.mp here
  refine Prod.ext rfl ?_
  change (master.machines.m_physicsMachines.set p m').map _ = master.machines.m_physicsMachines.map _
  rw [List.map_set, same, ← List.getElem_map (fun m : Machine => (m.socketip, m.socketport))
    (h := by simpa using inside), List.set_getElem_self]

theorem Sound.poll (sound : s.Sound coflows mm) {p : Nat} {node : Node} {machine machine' : Machine}
    {chunk rest : List Byte} {flowEndIndex flowStartIndex : CInt} (at_p : s.phase = .polling p)
    (here : s.master.machines.m_physicsMachines[p]? = some machine) (client : s.nodes[p]? = some node)
    (arrives : node.completions = chunk ++ rest) (fits : chunk.length ≤ MAX_RECV_BUFFER_SIZE)
    (parsed : (machine.receive chunk).parseFlowsFinishedInfo flowEndIndex.val flowStartIndex.val = some machine')
    (proper : rparen ∉ chunk → flowEndIndex.val ≤ 0) :
    Sound coflows mm ⟨.draining p, setMachine s.master p machine',
      s.nodes.set p { node with completions := rest }⟩ := by
  have position := sound.position
  rw [Position, at_p] at position
  obtain ⟨standing, dispatches⟩ := position
  have routes : (setMachine s.master p machine').machines.routes = s.master.machines.routes :=
    setMachine_routes here (congrArg Prod.snd (Machine.parse_kept parsed))
  have keeps : Scheduler.KeepsPlan s.master (setMachine s.master p machine') := ⟨rfl, routes, rfl, Nat.le_refl _⟩
  have next : Position coflows mm ⟨.draining p, setMachine s.master p machine',
      s.nodes.set p { node with completions := rest }⟩ := ⟨Standing.machines standing _, dispatches.keepsPlan keeps⟩
  have going := sound.going
  refine sound.setSite client here rfl (fun before => ?_) rfl rfl ?_ (Tracks.machines sound.tracks _ _)
    (by simpa [at_p] using going) next
  · obtain ⟨other, defined, after⟩ := before.poll arrives fits proper flowStartIndex
    cases parsed.symm.trans defined
    exact after
  · have same : (s.nodes.set p { node with completions := rest }).flatMap (fun n => n.taken) =
        s.nodes.flatMap fun n => n.taken := flatMap_set_same client rfl
    rw [same]
    exact sound.taken

theorem Sound.report (sound : s.Sound coflows mm) {p : Nat} {node : Node} {machine machine' : Machine}
    {info : FlowEndInfo} (ctime : Nat → Int) (drains : s.phase = .draining p)
    (here : s.master.machines.m_physicsMachines[p]? = some machine) (client : s.nodes[p]? = some node)
    (first : machine.getOneFlowEndInfo = some (info, machine')) :
    Sound coflows mm ⟨if (s.master.takeReport ctime info).returned then .returned else .draining p,
      setMachine (s.master.takeReport ctime info) p machine',
      s.nodes.set p { node with taken := node.taken ++ [info] }⟩ := by
  have position := sound.position
  rw [Position, drains] at position
  obtain ⟨standing, dispatches⟩ := position
  have going : s.master.returned = false := by
    have going := sound.going
    rw [drains] at going
    simpa using going
  obtain ⟨line, -, -, after⟩ := s.master.takeReport_spec ctime info
  have machines : (s.master.takeReport ctime info).machines = s.master.machines := by rw [after]
  have calls : (s.master.takeReport ctime info).calls = s.master.calls := by rw [after]
  have polled := s.master.takeReport_polled ctime info
  have address : (machine'.socketip, machine'.socketport) = (machine.socketip, machine.socketport) := by
    unfold Machine.getOneFlowEndInfo at first
    split at first
    · cases first
    · cases first
      rfl
  have routes : (setMachine (s.master.takeReport ctime info) p machine').machines.routes =
      (s.master.takeReport ctime info).machines.routes := setMachine_routes (by rw [machines]; exact here) address
  have standing' := standing.polled polled
  have replaced : Scheduler.KeepsPlan (s.master.takeReport ctime info)
      (setMachine (s.master.takeReport ctime info) p machine') := ⟨rfl, routes, rfl, Nat.le_refl _⟩
  have dispatches' := dispatches.keepsPlan ((Scheduler.takeReport_keepsPlan s.master ctime info).1.trans replaced)
  rw [← polled.index] at standing'
  have next : Position coflows mm ⟨if (s.master.takeReport ctime info).returned then .returned else .draining p,
      setMachine (s.master.takeReport ctime info) p machine',
      s.nodes.set p { node with taken := node.taken ++ [info] }⟩ :=
    position_of_between (by intro i; dsimp only; split <;> simp) (by intro i flows; dsimp only; split <;> simp)
      (Standing.machines standing' _) dispatches'
  refine sound.setSite client here machines (fun before => before.report first) rfl calls ?_
    (Tracks.machines (sound.tracks.takeReport going ctime info) _ _) ?_ next
  · rw [s.master.takeReport_taken ctime info]
    exact (sound.taken.append_right [info]).trans (flatMap_set_perm client rfl).symm
  · split
    · rename_i returned
      simp [returned]
    · rename_i goes
      simp [goes]

theorem nextCall_spec {kernel : SendOutcome} {i : Nat} {f : Flow} {flows : List Flow} {d : Dispatched}
    (sends : s.phase = .sending i (f :: flows)) (called : s.nextCall kernel = some d) :
    ∃ co call, d = ⟨i, f.setCurrentMbs 10, call⟩ ∧ s.master.sCoflows[i]? = some co ∧
      s.master.machines.sendTask co.coflowID (f.setCurrentMbs 10).flowID (f.setCurrentMbs 10).mapperID
        (f.setCurrentMbs 10).reducerID (f.setCurrentMbs 10).flowSizeMB (f.setCurrentMbs 10).currentMbs kernel =
          some call := by
  unfold nextCall at called
  rw [sends] at called
  obtain ⟨co, here, called⟩ := Option.bind_eq_some_iff.mp called
  obtain ⟨call, task, same⟩ := Option.bind_eq_some_iff.mp called
  exact ⟨co, call, (Option.some.inj same).symm, here, task⟩

/-- A flow of a coflow under way is one of the coflow that was prepared. -/
theorem sized_of_order (prepared : Prepared coflows mm) {coflows' : List Coflow}
    (orders : coflows'.map Coflow.order = coflows.map Coflow.order) {i : Nat} {co : Coflow}
    (here : coflows'[i]? = some co) {f : Flow} (member : f ∈ co.flowCollection.values) : 0 < f.flowSizeMB := by
  have entry := congrArg (fun l => l[i]?) orders
  simp only [List.getElem?_map, here, Option.map_some] at entry
  obtain ⟨c, atC, same⟩ := Option.map_eq_some_iff.mp entry.symm
  have task : (f.setCurrentMbs 10).task ∈ c.order.2 := by
    rw [same]
    exact List.mem_map_of_mem member
  obtain ⟨g, inside, equal⟩ := List.mem_map.mp task
  have size : g.flowSizeMB = f.flowSizeMB := by
    simp only [Flow.task, Flow.setCurrentMbs, Prod.mk.injEq] at equal
    exact equal.2.2.2.1
  rw [← size]
  exact prepared.sized c (List.mem_of_getElem? atC) g inside

/-- The instruction of a call is a frame around IDs that the client will read. -/
theorem frame_of_called (prepared : Prepared coflows mm) {machines : MachineManager}
    (routes : machines.routes = mm.routes) {coflowID : CInt} {f : Flow} {kernel : SendOutcome} {call : TaskCall}
    (size : 0 < f.flowSizeMB) (speed : 0 < f.currentMbs)
    (called : machines.sendTask coflowID f.flowID f.mapperID f.reducerID f.flowSizeMB f.currentMbs kernel =
      some call) :
    ∃ ins, call.frame = wrap lparen rparen ins ∧ (∀ b ∈ ins, b ≠ lparen ∧ b ≠ rparen) ∧
      ∀ unset, (SendTask.parse ins unset).ids = (coflowID, f.flowID) := by
  obtain ⟨_, position, r, _, -, atReducer, -, frame, -⟩ := MachineManager.sendTask_spec called
  obtain ⟨-, inside⟩ := MachineManager.machineOf_position atReducer
  obtain ⟨address, port, isPort⟩ := prepared.address routes (List.mem_of_getElem? inside)
  rw [isPort, taskFrame_eq address size speed] at frame
  refine ⟨_, frame, fun b member => ?_, parse_taskBody_ids address size speed⟩
  exact ⟨(taskBody_bytes address size speed b member).1, (taskBody_bytes address size speed b member).2.1⟩

theorem acceptedFor_snoc (p : Nat) (calls : List Dispatched) (d : Dispatched) :
    acceptedFor p (calls ++ [d]) =
      acceptedFor p calls ++ if d.call.mapper = p ∧ d.accepted then [payload d.call.frame] else [] := by
  rw [acceptedFor, List.filter_append, List.map_append, acceptedFor]
  congr 1
  by_cases here : d.call.mapper = p ∧ d.accepted = true
  · simp [here]
  · rw [if_neg here]
    simpa using here

theorem Sound.sendTask (sound : s.Sound coflows mm) (prepared : Prepared coflows mm) {i : Nat} {f : Flow}
    {flows : List Flow} {d : Dispatched} {kernel : SendOutcome} (sends : s.phase = .sending i (f :: flows))
    (called : s.nextCall kernel = some d)
    (room : d.call.before.sendBufSize + d.call.frame.length ≠ MAX_SEND_BUFFER_SIZE)
    (whole : ¬ d.call.offered.Short kernel) :
    Sound coflows mm {
      phase := .sending i flows
      master := { s.master with machines := d.call.machines, calls := s.master.calls ++ [d] }
      nodes := s.nodes.modify d.call.mapper fun node => node.offer d.call kernel } := by
  obtain ⟨sites, nodes, delivered, taken, tracks, going, position⟩ := sound
  obtain ⟨orders, routes⟩ := position.coflows_routes
  rw [Position, sends] at position
  obtain ⟨co, call, rfl, here, task⟩ := nextCall_spec sends called
  have size := sized_of_order prepared orders here (position.mem here)
  obtain ⟨ins, frame, clean, ids⟩ := frame_of_called prepared routes (f := f.setCurrentMbs 10) size
    (by norm_num [Flow.setCurrentMbs]) task
  obtain ⟨m, atMapper, before, offered, short, machines⟩ := MachineManager.sendTask_sent task
  obtain ⟨-, inside⟩ := MachineManager.machineOf_position atMapper
  have names : Names ins := fun unset => (ids unset).trans (ids (.zero, .zero)).symm
  have next : Position coflows mm { s with
      phase := .sending i flows
      master := { s.master with machines := call.machines, calls := s.master.calls ++ [⟨i, f.setCurrentMbs 10, call⟩] }
      nodes := s.nodes.modify call.mapper fun node => node.offer call kernel } := position.next here task
  dsimp only at room whole ⊢
  refine ⟨?_, fun p node other atP atM => ?_, fun p node atP => ?_, ?_, Tracks.machines tracks _ _, ?_, next⟩
  · rw [machines]
    simpa using sites
  · rw [machines] at atM
    rw [List.getElem?_modify] at atP
    obtain ⟨old, atOld, rfl⟩ := Option.map_eq_some_iff.mp atP
    dsimp only at atM ⊢
    split
    · rename_i same
      subst same
      rw [List.getElem?_set_self (List.getElem?_eq_some_iff.mp inside).1] at atM
      cases atM
      exact (nodes _ old m atOld inside).offer before offered frame clean short names room whole
    · rename_i apart
      rw [List.getElem?_set_ne apart] at atM
      exact nodes p old other atOld atM
  · rw [List.getElem?_modify] at atP
    obtain ⟨old, atOld, rfl⟩ := Option.map_eq_some_iff.mp atP
    rw [acceptedFor_snoc, ← delivered p old atOld]
    dsimp only
    by_cases same : call.mapper = p
    · simp [same, Node.offer, Dispatched.accepted]
    · simp [same]
  · have kept : (s.nodes.modify call.mapper fun node => node.offer call kernel).flatMap (fun node => node.taken) =
        s.nodes.flatMap fun node => node.taken := by
      rw [List.flatMap_def, List.flatMap_def]
      refine congrArg List.flatten (List.ext_getElem? fun p => ?_)
      rw [List.getElem?_map, List.getElem?_map, List.getElem?_modify]
      cases s.nodes[p]? with
      | none => rfl
      | some node => 
        split
        · rfl
        · rfl
    rw [kept]
    exact taken
  · simpa [sends] using going

theorem Sound.step (sound : s.Sound coflows mm) (prepared : Prepared coflows mm) {a : SessionAction} {t : Session}
    (proper : s.Proper a) (step : Step s a t) : t.Sound coflows mm := by
  cases step with
  | registerCoflow now top => exact sound.registerCoflow now top
  | enter at_i below here running => exact sound.enter at_i below here running
  | skip at_i below here other => exact sound.skip at_i below here other
  | dispatched at_i all => exact sound.dispatched at_i all
  | sendTask kernel sends called =>
    obtain ⟨room, whole⟩ := proper _ called
    exact sound.sendTask prepared sends called room whole
  | settle sent here => exact sound.settle sent here
  | poll at_p here client arrives fits parsed => exact sound.poll at_p here client arrives fits parsed proper
  | polled at_p all =>
    have position := sound.position
    rw [Position, at_p] at position
    exact sound.turn (by simp [at_p]) nofun position
  | report ctime drains here client first => exact sound.report ctime drains here client first
  | drained drains here empty =>
    have position := sound.position
    rw [Position, drains] at position
    exact sound.turn (by simp [drains]) nofun position
  | receive client listens appended arrives fits => exact sound.receive client arrives fits
  | client client scanned step => exact sound.client client scanned (proper _ client) step

end Steps

theorem sound_init {coflows : List Coflow} {mm : MachineManager} (prepared : Prepared coflows mm) (startTime : Int)
    {pools : List (ThreadPool Caller Job)} (clients : pools.length = mm.m_physicsMachines.length) :
    Sound coflows mm (init (Scheduler.init coflows mm startTime) pools) := by
  have unregistered : ∀ c ∈ coflows, c.coflowState = .unregister :=
    fun c member => (prepared.built c member).unregister
  refine ⟨by simpa [init, Scheduler.init] using clients, fun p node m atP atM => ?_, fun p node atP => ?_, ?_,
    Scheduler.tracks_init (fun c member => (prepared.built c member).fresh) mm startTime,
    by simp [init, Scheduler.init], ⟨Scheduler.standing_init prepared.built mm startTime, Scheduler.dispatches_init unregistered mm startTime⟩⟩
  · rw [init, List.getElem?_map] at atP
    obtain ⟨pool, -, rfl⟩ := Option.map_eq_some_iff.mp atP
    obtain ⟨machineID, sockip, port, rfl, -⟩ := prepared.created m (List.mem_of_getElem? atM)
    exact Node.sound_start pool machineID sockip port.val
  · rw [init, List.getElem?_map] at atP
    obtain ⟨pool, -, rfl⟩ := Option.map_eq_some_iff.mp atP
    rfl
  · have none_yet : (pools.map Node.start).flatMap (fun node => node.taken) = [] := by
      simp [List.flatMap_map, Node.start]
    rw [init, none_yet]
    exact .nil

/-- The state of the master and its clients after any run whose steps are proper. -/
theorem sound_run {coflows : List Coflow} {mm : MachineManager} (prepared : Prepared coflows mm) {startTime : Int}
    {pools : List (ThreadPool Caller Job)} (clients : pools.length = mm.m_physicsMachines.length)
    {acts : List SessionAction} {s : Session}
    (run : Run (Where Step Proper) (init (Scheduler.init coflows mm startTime) pools) acts s) : s.Sound coflows mm :=
  run.invariant (sound_init prepared startTime clients) fun _ _ _ sound taken => sound.step prepared taken.1 taken.2

end Session

end CoflowSim
