import CoflowSim.System.SessionInvariant

namespace CoflowSim
open Lib Lib.Framing

/-- Every flow has its instruction, which fits the array of `sendTask`. -/
def Sendable (coflows : List Coflow) (mm : MachineManager) : Prop :=
  ∀ c ∈ coflows, ∀ f ∈ c.flowCollection.values, ∃ mapper frame,
    mm.instruction c.coflowID (f.setCurrentMbs 10) = some (mapper, frame) ∧ frame.length < TASK_BUFFER

/-- A call for a flow with such an instruction is defined, whatever its kernel
returns. -/
theorem MachineManager.sendTask_of_instruction {mm : MachineManager} {coflowID : CInt} {f : Flow} {mapper : Nat}
    {frame : List Byte} (found : mm.instruction coflowID f = some (mapper, frame)) (fits : frame.length < TASK_BUFFER)
    (kernel : SendOutcome) :
    ∃ call, mm.sendTask coflowID f.flowID f.mapperID f.reducerID f.flowSizeMB f.currentMbs kernel = some call ∧
      call.frame = frame := by
  obtain ⟨⟨position, m⟩, atMapper, found⟩ := Option.bind_eq_some_iff.mp found
  obtain ⟨⟨other, r⟩, atReducer, made⟩ := Option.bind_eq_some_iff.mp found
  cases made
  have defined : (mm.sendTask coflowID f.flowID f.mapperID f.reducerID f.flowSizeMB f.currentMbs kernel).isSome := by
    simp only [sendTask, atMapper, atReducer, Option.bind_eq_bind, Option.bind_some, if_neg (Nat.not_le.mpr fits),
      Option.isSome_some]
  obtain ⟨call, called⟩ := Option.isSome_iff_exists.mp defined
  obtain ⟨_, _, _, _, -, atReducer', -, frame, -⟩ := sendTask_spec called
  cases atReducer.symm.trans atReducer'
  exact ⟨call, called, frame⟩

namespace Session

/-- The next step of `run` is defined, whatever it reads from the clock, its
kernel returns and the clients have sent. -/
def Defined (s : Session) : Prop :=
  match s.phase with
  | .registering => ∀ now, ∃ t, Step s (.registerCoflow now) t
  | .dispatching _ => ∃ t, Step s .next t
  | .sending _ [] => ∃ t, Step s .settle t
  | .sending _ (_ :: _) => ∀ kernel, ∃ t, Step s (.sendTask kernel) t
  | .polling p => (∃ t, Step s .next t) ∨ ∃ node, s.nodes[p]? = some node ∧
      ∀ chunk rest flowEndIndex flowStartIndex, node.completions = chunk ++ rest →
        chunk.length ≤ MAX_RECV_BUFFER_SIZE → s.Proper (.poll chunk rest flowEndIndex flowStartIndex) →
        ∃ t, Step s (.poll chunk rest flowEndIndex flowStartIndex) t
  | .draining _ => (∃ t, Step s .next t) ∨ ∀ ctime, ∃ t, Step s (.report ctime) t
  | .returned => True

/-- The machine that is being drained is one of the machines. -/
def Drains (s : Session) : Prop := ∀ p, s.phase = .draining p → p < s.nodes.length

variable {coflows : List Coflow} {mm : MachineManager} {s t : Session} {a : SessionAction}

theorem Drains.step (drains : s.Drains) (step : Step s a t) : t.Drains := by
  intro p draining
  cases step with
  | poll _ _ client =>
    cases draining
    rw [List.length_set]
    exact (List.getElem?_eq_some_iff.mp client).1
  | report _ at_p =>
    dsimp only at draining
    split at draining
    · cases draining
    · cases draining
      rw [List.length_set]
      exact drains p at_p
  | receive | client =>
    rw [List.length_set]
    exact drains p draining
  | _ => cases draining

theorem Sound.sends (sound : s.Sound coflows mm) (sendable : Sendable coflows mm) {i : Nat} {f : Flow}
    {flows : List Flow} (sends : s.phase = .sending i (f :: flows)) (kernel : SendOutcome) :
    ∃ t, Step s (.sendTask kernel) t := by
  have position := sound.position
  obtain ⟨orders, routes⟩ := position.coflows_routes
  rw [Position, sends] at position
  obtain ⟨co, here⟩ := position.here
  have entry := congrArg (fun l => l[i]?) orders
  simp only [List.getElem?_map, here, Option.map_some] at entry
  obtain ⟨c, atC, same⟩ := Option.map_eq_some_iff.mp entry.symm
  have task : (f.setCurrentMbs 10).task ∈ c.order.2 := by
    rw [same]
    exact List.mem_map_of_mem (position.mem here)
  obtain ⟨g, member, equal⟩ := List.mem_map.mp task
  obtain ⟨mapper, frame, found, fits⟩ := sendable c (List.mem_of_getElem? atC) g member
  have coflowID : c.coflowID = co.coflowID := congrArg Prod.fst same
  rw [instruction_of_task equal, coflowID, ← MachineManager.instruction_of_routes routes] at found
  obtain ⟨call, called, -⟩ := MachineManager.sendTask_of_instruction found fits kernel
  refine ⟨_, .sendTask kernel sends (d := ⟨i, f.setCurrentMbs 10, call⟩) ?_⟩
  rw [nextCall, sends]
  exact Option.bind_eq_some_iff.mpr ⟨co, here, Option.bind_eq_some_iff.mpr ⟨call, called, rfl⟩⟩

theorem Sound.defined (sound : s.Sound coflows mm) (sendable : Sendable coflows mm) (drains : s.Drains) :
    s.Defined := by
  have lengths : s.master.sCoflows.length = coflows.length := by
    simpa using congrArg List.length sound.position.coflows_routes.1
  unfold Defined
  split
  · rename_i top
    exact fun now => ⟨_, .registerCoflow now top⟩
  · rename_i i at_i
    by_cases below : i < s.master.registerIndex
    · have position := sound.position
      rw [Position, at_i] at position
      obtain ⟨_, -, standing, -⟩ := position
      have registered := standing.registered
      have inside : i < s.master.sCoflows.length := by omega
      have here := List.getElem?_eq_getElem inside
      by_cases running : s.master.sCoflows[i].coflowState = .running
      · exact ⟨_, .enter at_i below here running⟩
      · exact ⟨_, .skip at_i below here running⟩
    · exact ⟨_, .dispatched at_i (Nat.not_lt.mp below)⟩
  · rename_i i sent
    have position := sound.position
    rw [Position, sent] at position
    obtain ⟨co, here⟩ := position.here
    exact ⟨_, .settle sent here⟩
  · rename_i sends
    exact sound.sends sendable sends
  · rename_i p at_p
    by_cases below : p < s.nodes.length
    · have client := List.getElem?_eq_getElem below
      obtain ⟨it, machine, site⟩ := sound.site client
      refine Or.inr ⟨_, client, fun chunk rest flowEndIndex flowStartIndex arrives fits proper => ?_⟩
      obtain ⟨next, parsed, -⟩ := site.poll arrives fits proper flowStartIndex
      exact ⟨_, .poll at_p machine client arrives fits parsed⟩
    · have sites := sound.sites
      exact Or.inl ⟨_, .polled at_p (by omega)⟩
  · rename_i p at_p
    have below := drains p at_p
    have client := List.getElem?_eq_getElem below
    obtain ⟨it, machine, -⟩ := sound.site client
    cases first : it.getOneFlowEndInfo with
    | none => exact Or.inl ⟨_, .drained at_p machine first⟩
    | some taken => exact Or.inr fun ctime => ⟨_, .report ctime at_p machine client first⟩
  · trivial

end Session

namespace Node

/-- A step of the client, inside the node, that gives nothing to the connection. -/
def Quiet (node : Node) (manager : SendManager) (a : ClientAction) : Prop :=
  manager.Timely a ∧ Scanned { node with manager } a ∧ Proper { node with manager } a ∧
    emitted { node with manager } a = []

end Node

namespace Session

theorem tidy_of_master {s : Session} {a : SessionAction} (proper : s.Proper a) (own : ∀ p b, a ≠ .client p b) :
    s.Tidy a :=
  ⟨proper, fun p b _ same => absurd same (own p b)⟩

theorem tidy_of_client {phase : RunPhase} {master : Scheduler} {node : Node} {a : ClientAction}
    (proper : node.Proper a) (timely : node.manager.Timely a) :
    Tidy ⟨phase, master, [node]⟩ (.client 0 a) := by
  refine ⟨fun other same => ?_, fun p b other same here => ?_⟩
  · cases same
    exact proper
  · cases same
    cases here
    exact timely

/-- Steps of the only client that give nothing to its connection. -/
theorem client_steps (phase : RunPhase) (master : Scheduler) {node : Node} {acts : List ClientAction}
    {manager : SendManager} (run : Run (Where SendManager.Step node.Quiet) node.manager acts manager) :
    Run (Where Step Tidy) ⟨phase, master, [node]⟩ (acts.map (.client 0)) ⟨phase, master, [{ node with manager }]⟩ := by
  induction run with
  | start => exact .start
  | @next acts m a t _ last ih =>
    obtain ⟨⟨timely, scanned, proper, silent⟩, step⟩ := last
    have own : Step ⟨phase, master, [{ node with manager := m }]⟩ (.client 0 a) _ := .client rfl scanned step
    simp only [silent, List.append_nil] at own
    rw [List.map_append]
    exact ih.next ⟨tidy_of_client proper timely, own⟩

end Session

namespace SendManager

/-- The replied task of the instruction. -/
def answered (ins : List Byte) : SendTask :=
  (((((SendTask.parse ins (CInt.zero, CInt.zero)).setState .running).setEndTime 7).setSendEnd).setStage
    .closed).setStage .returned

theorem answered_timed (ins : List Byte) : (answered ins).Timed := by
  simp [answered, SendTask.Timed, SendTask.setState, SendTask.setEndTime, SendTask.setSendEnd, SendTask.setStage]

/-- The client when it has started, and listens to the master. -/
def listening (pool ready : ThreadPool Caller Job) : SendManager :=
  { init pool with startup := .eventLoop, pool := ready }

/-- It takes its first instruction, and appends the `Sender`. -/
theorem launches {node : Node} (pool : ThreadPool Caller Job) {ready q : ThreadPool Caller Job} {ins : List Byte}
    (fits : SendTask.Fits ins) (decoded : node.loop.appended = [ins])
    (occupied : ready.Occupied 0 10000 [.recvManager, .sendManager] [])
    (pushed : ready.push .sendManager (.sender 0) = some q) :
    ∃ acts : List ClientAction, Run (Where Step node.Quiet) (listening pool ready) acts { listening pool ready with
      tasks := [.parse ins (CInt.zero, CInt.zero)], phase := .appending 0, pool := q } := by
  have manager : .executing .sendManager ∈ ready.workers := by simp [occupied.workers]
  have room : ready.task_queue_.length ≤ ready.max_task_num_ := by simp [occupied.queue]
  have next : node.loop.appended[0]? = some ins := by simp [decoded]
  have ready_run : Run (Where Step node.Quiet) (listening pool ready) [] _ := .start
  have run := ready_run.next (a := ClientAction.appendTask ins (CInt.zero, CInt.zero))
    ⟨⟨⟨Nat.zero_le _, nofun⟩, next, trivial, rfl⟩, .appendTask ⟨rfl, occupied.idle _, rfl⟩ fits (Nat.zero_le _)⟩
  have run := run.next (a := ClientAction.post) ⟨⟨⟨trivial, nofun⟩, trivial, trivial, rfl⟩, .post rfl⟩
  have run := run.next (a := ClientAction.wait)
    ⟨⟨⟨trivial, nofun⟩, trivial, trivial, rfl⟩, .wait manager rfl (Nat.succ_pos _)⟩
  have run := run.next (a := ClientAction.pop) ⟨⟨⟨trivial, nofun⟩, trivial, trivial, rfl⟩, .pop rfl rfl⟩
  have run := run.next (a := ClientAction.append 0) ⟨⟨⟨room, nofun⟩, trivial, trivial, rfl⟩, .append rfl pushed⟩
  exact ⟨_, run⟩

/-- It takes its first instruction, sends the flow, and gives its reply. -/
theorem answers {node : Node} (pool : ThreadPool Caller Job) {ready : ThreadPool Caller Job} {ins : List Byte}
    (fits : SendTask.Fits ins) (decoded : node.loop.appended = [ins])
    (occupied : ready.Occupied 0 10000 [.recvManager, .sendManager] []) :
    ∃ (acts : List ClientAction) (ready' : ThreadPool Caller Job),
      ready'.Occupied 0 10000 [.recvManager, .sendManager, .sender 0] [] ∧
      Run (Where Step node.Quiet) (listening pool ready) acts { init pool with
        startup := .eventLoop, tasks := [answered ins], send_task_running_queue := [0], phase := .sending 0 []
        masterSockManger := (SocketManage.initSocket.setSendMsg (answered ins).reply).socket
        replies := [(0, (answered ins).reply)], pool := ready'.finish 2 } := by
  obtain ⟨q, more, ready', pushed, spawning, occupied'⟩ := occupied.append (Or.inl rfl) .sendManager (.sender 0)
  have sender : ready'.workers[2]? = some (.executing (.sender 0)) := by simp [occupied'.workers]
  have executes := List.mem_of_getElem? sender
  have pools (s : SendManager) (action : PoolAction Caller) : node.Quiet s (.pool action) :=
    ⟨⟨trivial, nofun⟩, trivial, trivial, rfl⟩
  have length := (answered_timed ins).reply_length
  have taken : (SocketManage.initSocket.setSendMsg (answered ins).reply).result = true := by
    rcases SocketManage.initSocket.setSendMsg_cases (answered ins).reply with ⟨-, result, -⟩ | ⟨full, -⟩
    · exact result
    · have empty : SocketManage.initSocket.sendBufSize = 0 := rfl
      omega
  obtain ⟨_, run⟩ := launches pool fits decoded occupied pushed
  have run := run.trans (pool_run pools spawning)
  have run := run.next (a := ClientAction.appendReturns 0)
    ⟨⟨⟨trivial, nofun⟩, trivial, trivial, rfl⟩, .appendReturns rfl (occupied'.idle _)⟩
  have run := run.next (a := ClientAction.mark 0) ⟨⟨⟨trivial, nofun⟩, trivial, trivial, rfl⟩, .mark rfl⟩
  have run := run.next (a := ClientAction.setEndTime 0 7)
    ⟨⟨⟨trivial, nofun⟩, trivial, ⟨by decide, by decide⟩, rfl⟩, .setEndTime 7 executes rfl⟩
  have run := run.next (a := ClientAction.setSendEnd 0)
    ⟨⟨⟨rfl, fun _ _ => Or.inr (Or.inl rfl)⟩, trivial, trivial, rfl⟩, .setSendEnd executes rfl⟩
  have run := run.next (a := ClientAction.close 0) ⟨⟨⟨trivial, nofun⟩, trivial, trivial, rfl⟩, .close executes rfl⟩
  have run := run.next (a := ClientAction.senderReturns 0)
    ⟨⟨⟨trivial, nofun⟩, trivial, trivial, rfl⟩, .senderReturns sender rfl⟩
  have run := run.next (a := ClientAction.push 0) ⟨⟨⟨trivial, nofun⟩, trivial, trivial, rfl⟩, .push rfl⟩
  have run := run.next (a := ClientAction.scan) ⟨⟨⟨trivial, nofun⟩, trivial, trivial, rfl⟩, .find rfl rfl rfl⟩
  have fill : ∀ t reply rest, ManagerPhase.replying 0 (answered ins).reply [] = .replying t reply rest →
      SocketManage.initSocket.sendBufSize + reply.length ≠ MAX_SEND_BUFFER_SIZE := by
    rintro t reply rest same
    cases same
    have empty : SocketManage.initSocket.sendBufSize = 0 := rfl
    omega
  have run := run.next (a := ClientAction.setSendMsg 0) ⟨⟨⟨trivial, nofun⟩, trivial, fill, rfl⟩, .takeReply rfl taken⟩
  exact ⟨_, ready', occupied', run⟩

end SendManager

namespace Session

/-- A network of one machine whose one coflow has one flow, and the call of
`sendTask` for that flow. -/
structure Single (c : Coflow) (mm : MachineManager) (f : Flow) (call : TaskCall) : Prop where
  prepared : Prepared [c] mm
  due : c.startTime ≤ 0
  flows : c.flowCollection.values = [f]
  machine : mm.m_physicsMachines.length = 1
  called : mm.sendTask c.coflowID (f.setCurrentMbs 10).flowID (f.setCurrentMbs 10).mapperID
    (f.setCurrentMbs 10).reducerID (f.setCurrentMbs 10).flowSizeMB (f.setCurrentMbs 10).currentMbs
    (.accepted MAX_SEND_BUFFER_SIZE) = some call
  fits : SendTask.Fits (payload call.frame)

section Single

variable {c : Coflow} {mm : MachineManager} {f : Flow} {call : TaskCall}

/-- The one machine sends on a new connection. -/
theorem Single.sent (single : Single c mm f call) : ∃ m, call.mapper = 0 ∧ call.before = SocketManage.initSocket ∧
    call.offered = (call.before.setSendMsg call.frame).socket ∧ call.frame.length < TASK_BUFFER ∧
    call.machines = { mm with m_physicsMachines := [m] } ∧
    m.toSocketManage = (call.offered.sendMsg (.accepted MAX_SEND_BUFFER_SIZE)).socket := by
  obtain ⟨only, one⟩ := List.length_eq_one_iff.mp single.machine
  obtain ⟨m, atMapper, before, offered, short, machines⟩ := MachineManager.sendTask_sent single.called
  obtain ⟨-, inside⟩ := MachineManager.machineOf_position atMapper
  obtain ⟨_, _, _, rfl, -⟩ := single.prepared.created m (List.mem_of_getElem? inside)
  have first : call.mapper = 0 := by
    have below := (List.getElem?_eq_some_iff.mp inside).1
    have length := single.machine
    omega
  rw [first, one] at machines
  exact ⟨_, first, before, offered, short, machines, rfl⟩

/-- The coflow is registered and selected at the first reading of the clock. -/
theorem Single.selected (single : Single c mm f call) : ((Scheduler.init [c] mm 0).registerCoflow 0).select =
    { Scheduler.init [c] mm 0 with sCoflows := [c.setCoflowState .running], registerIndex := 1 } := by
  simp [Scheduler.init, Scheduler.registerCoflow, Scheduler.registerLoop, Scheduler.select, single.due,
    Coflow.setCoflowState]

/-- The master takes up its one coflow and sends its one flow. -/
theorem Single.master_sends (single : Single c mm f call) : ∃ acts d master m,
    (∀ node, Run (Where Step Tidy) ⟨.registering, Scheduler.init [c] mm 0, [node]⟩ acts
      ⟨.polling 0, master, [node.offer d.call (.accepted MAX_SEND_BUFFER_SIZE)]⟩) ∧
    master.calls = [d] ∧ master.registerIndex = 1 ∧ master.machines.m_physicsMachines = [m] ∧ m.unsent = [] ∧
    d.call.HasRoom ∧ d.call.mapper = 0 ∧ d.call.offered.SendBounded ∧ SendTask.Fits (payload d.call.frame) := by
  obtain ⟨m, first, before, offered, short, machines, socket⟩ := single.sent
  have room : call.before.sendBufSize + call.frame.length < MAX_SEND_BUFFER_SIZE := by
    rw [before]
    have empty : SocketManage.initSocket.sendBufSize = 0 := rfl
    rw [empty, MAX_SEND_BUFFER_SIZE]
    rw [TASK_BUFFER] at short
    omega
  have bounded : call.offered.SendBounded := by
    rw [offered, before]
    exact SocketManage.setSendMsg_bounded SendStream.init_bounded _
  obtain ⟨whole, -, emptied⟩ := SocketManage.sendMsg_all bounded
  let co := c.setCoflowState .running
  let picked : Scheduler := { Scheduler.init [c] mm 0 with sCoflows := [co], registerIndex := 1 }
  let sent : Scheduler := { picked with machines := call.machines, calls := [⟨0, f.setCurrentMbs 10, call⟩] }
  have task (node : Node) : nextCall ⟨.sending 0 [f], picked, [node]⟩ (.accepted MAX_SEND_BUFFER_SIZE) =
      some ⟨0, f.setCurrentMbs 10, call⟩ :=
    Option.bind_eq_some_iff.mpr ⟨call, single.called, rfl⟩
  refine ⟨[.registerCoflow 0, .next, .sendTask (.accepted MAX_SEND_BUFFER_SIZE), .settle, .next],
    ⟨0, f.setCurrentMbs 10, call⟩, { sent with sCoflows := [co.settled] }, m, fun node => ?_, rfl, rfl,
    congrArg MachineManager.m_physicsMachines machines, ?_, room.le, first, bounded, single.fits⟩
  · have registers : Step ⟨.registering, Scheduler.init [c] mm 0, [node]⟩ (.registerCoflow 0) _ :=
      .registerCoflow 0 rfl
    rw [single.selected] at registers
    have enters : Step ⟨.dispatching 0, picked, [node]⟩ .next ⟨.sending 0 co.flowCollection.values, picked, [node]⟩ :=
      .enter rfl Nat.zero_lt_one rfl rfl
    have flows : co.flowCollection.values = [f] := single.flows
    rw [flows] at enters
    have sends : Step ⟨.sending 0 [f], picked, [node]⟩ (.sendTask (.accepted MAX_SEND_BUFFER_SIZE))
        ⟨.sending 0 [], sent, [node].modify call.mapper fun node => node.offer call (.accepted MAX_SEND_BUFFER_SIZE)⟩ :=
      .sendTask _ rfl (task node)
    rw [first] at sends
    have proper : Proper ⟨.sending 0 [f], picked, [node]⟩ (.sendTask (.accepted MAX_SEND_BUFFER_SIZE)) := by
      intro d same
      cases (task node).symm.trans same
      exact ⟨room.ne, whole⟩
    have opened : Run (Where Step Tidy) ⟨.registering, Scheduler.init [c] mm 0, [node]⟩ [] _ := .start
    have run := opened.next (a := SessionAction.registerCoflow 0)
      ⟨tidy_of_master trivial (by rintro p b ⟨⟩), registers⟩
    have run := run.next (a := SessionAction.next) ⟨tidy_of_master trivial (by rintro p b ⟨⟩), enters⟩
    have run := run.next (a := SessionAction.sendTask (.accepted MAX_SEND_BUFFER_SIZE))
      ⟨tidy_of_master proper (by rintro p b ⟨⟩), sends⟩
    have run := run.next (a := SessionAction.settle)
      ⟨tidy_of_master trivial (by rintro p b ⟨⟩), .settle rfl (rfl : picked.sCoflows[0]? = some co)⟩
    exact run.next (a := SessionAction.next) ⟨tidy_of_master trivial (by rintro p b ⟨⟩), .dispatched rfl (le_refl 1)⟩
  · rw [SocketManage.unsent, socket]
    exact emptied

theorem client_starts {pool : ThreadPool Caller Job} (created : ThreadPool.create 0 10000 = some pool)
    (master : Scheduler) : ∃ acts ready, ready.Occupied 0 10000 [.recvManager, .sendManager] [] ∧
      Run (Where Step Tidy) (init master [pool]) acts
        ⟨.registering, master, [{ Node.start pool with manager := .listening pool ready }]⟩ := by
  have starts (s : SendManager) : (Node.start pool).Quiet s .startUp := ⟨⟨trivial, nofun⟩, trivial, trivial, rfl⟩
  have pools (s : SendManager) (action : PoolAction Caller) : (Node.start pool).Quiet s (.pool action) :=
    ⟨⟨trivial, nofun⟩, trivial, trivial, rfl⟩
  obtain ⟨acts, ready, occupied, started⟩ := SendManager.started starts pools created
  exact ⟨_, ready, occupied, client_steps _ master started⟩

/-- The one instruction reaches the client. -/
theorem Single.instruction_arrives (single : Single c mm f call) {pool ready : ThreadPool Caller Job}
    {acts : List SessionAction} (occupied : ready.Occupied 0 10000 [.recvManager, .sendManager] [])
    (run : Run (Where Step Tidy) (init (Scheduler.init [c] mm 0) [pool]) acts
      ⟨.registering, Scheduler.init [c] mm 0, [{ Node.start pool with manager := .listening pool ready }]⟩) :
    ∃ acts d master m node, Run (Where Step Tidy) (init (Scheduler.init [c] mm 0) [pool]) acts
      ⟨.polling 0, master, [node]⟩ ∧ master.calls = [d] ∧ d.call.HasRoom ∧ master.registerIndex = 1 ∧
      master.machines.m_physicsMachines = [m] ∧ m.unsent = [] ∧ node.instructions = [] ∧
      node.loop.appended = [payload d.call.frame] ∧ SendTask.Fits (payload d.call.frame) ∧
      node.manager = .listening pool ready ∧ node.completions = [] ∧ node.taken = [] := by
  obtain ⟨more, d, master, m, sends, calls, index, machines, unsent, room, mapper, bounded, fits⟩ := single.master_sends
  let waiting : Node := { Node.start pool with manager := .listening pool ready }
  let sent : Node := waiting.offer d.call (.accepted MAX_SEND_BUFFER_SIZE)
  obtain ⟨-, all, -⟩ := SocketManage.sendMsg_all bounded
  have length : sent.instructions.length ≤ MAX_RECV_BUFFER_SIZE := by
    change (d.call.offered.taken (.accepted MAX_SEND_BUFFER_SIZE)).length ≤ MAX_RECV_BUFFER_SIZE
    rw [all, SocketManage.unsent_length bounded]
    exact Nat.le_trans bounded (by decide)
  let received : Node := { sent with
    instructions := [], loop := sent.loop.pass (RecvOutcome.ofChunk sent.instructions) }
  have receives : Where Step Tidy ⟨.polling 0, master, [sent]⟩ (.receive 0 sent.instructions [])
      ⟨.polling 0, master, [received]⟩ :=
    ⟨tidy_of_master trivial (by rintro p b ⟨⟩),
      .receive rfl ⟨rfl, occupied.idle _, rfl⟩ rfl (List.append_nil _).symm length⟩
  have run := (run.trans (sends waiting)).next receives
  have clients : [pool].length = mm.m_physicsMachines.length := single.machine.symm
  have sound := sound_run single.prepared clients (run.mono fun _ _ _ taken => ⟨taken.1.1, taken.2⟩)
  have atM : master.machines.m_physicsMachines[0]? = some m := by rw [machines]; rfl
  have site := sound.nodes 0 received m rfl atM
  have accepted : (d.call.before.setSendMsg d.call.frame).result = true := Dispatched.accepted_of_room room
  have decoded : received.loop.appended = [payload d.call.frame] := by
    refine (site.down.all_decoded rfl unsent).trans ?_
    change [] ++ _ = _
    rw [accepted, if_pos rfl, List.nil_append]
  exact ⟨_, d, master, m, received, run, calls, room, index, machines, unsent, rfl, decoded, fits, rfl, rfl, rfl⟩

/-- The client sends the flow of its one instruction, and replies. -/
theorem client_replies {phase : RunPhase} {master : Scheduler} {node : Node} {pool ready : ThreadPool Caller Job}
    {ins : List Byte} (occupied : ready.Occupied 0 10000 [.recvManager, .sendManager] [])
    (decoded : node.loop.appended = [ins]) (fits : SendTask.Fits ins)
    (manager : node.manager = .listening pool ready) (empty : node.completions = []) :
    ∃ acts completions manager, Run (Where Step Tidy) ⟨phase, master, [node]⟩ acts
      ⟨phase, master, [{ node with manager, completions }]⟩ ∧ completions.length ≤ MAX_RECV_BUFFER_SIZE ∧
      manager.tasks.length = 1 ∧ manager.records.length = 1 ∧ manager.masterSockManger.unsent = [] ∧
      manager.Quiescent := by
  obtain ⟨acts, ready', occupied', answers⟩ := SendManager.answers pool fits decoded occupied
  rw [← manager] at answers
  have full : (SocketManage.initSocket.setSendMsg (SendManager.answered ins).reply).socket.SendBounded :=
    SocketManage.setSendMsg_bounded SendStream.init_bounded _
  obtain ⟨whole, all, flushed⟩ := SocketManage.sendMsg_all full
  have run := (client_steps phase master answers).next
    (a := SessionAction.client 0 (.sendMsg 0 (.accepted MAX_SEND_BUFFER_SIZE)))
    ⟨tidy_of_client whole ⟨trivial, nofun⟩, .client rfl trivial (.sendMsg _ rfl)⟩
  have run := run.next (a := SessionAction.client 0 .scan)
    ⟨tidy_of_client trivial ⟨trivial, nofun⟩, .client rfl trivial (.scanned rfl)⟩
  have run := run.next (a := SessionAction.client 0 .delete)
    ⟨tidy_of_client trivial ⟨trivial, nofun⟩, .client rfl trivial (.delete rfl)⟩
  refine ⟨_, _, _, run, ?_, rfl, rfl, flushed, rfl, SendManager.quiet_pool occupied', rfl, rfl⟩
  simp only [Node.emitted, List.append_nil, empty, List.nil_append]
  rw [all, SocketManage.unsent_length full]
  exact Nat.le_trans full (by decide)

/-- The master takes the one record that is on its way. -/
theorem report_arrives {coflows : List Coflow} {mm : MachineManager} {master : Scheduler} {node : Node} {m : Machine}
    (sound : Sound coflows mm ⟨.polling 0, master, [node]⟩) (machines : master.machines.m_physicsMachines = [m])
    (length : node.completions.length ≤ MAX_RECV_BUFFER_SIZE) (flushed : node.manager.masterSockManger.unsent = [])
    (one : node.manager.records.length = 1) (untaken : node.taken = []) :
    ∃ acts t m' info, Run (Where Step Tidy) ⟨.polling 0, master, [node]⟩ acts t ∧
      t.nodes = [{ node with completions := [], taken := [info] }] ∧ t.master.machines.m_physicsMachines = [m'] ∧
      m'.sendHalf = m.sendHalf ∧ m'.flowsFinishedInfo = [] ∧ t.master.calls = master.calls ∧
      t.master.registerIndex = master.registerIndex ∧ (t.phase = .returned ∨ t.phase = .draining 0) := by
  have atM : master.machines.m_physicsMachines[0]? = some m := by rw [machines]; rfl
  have site := sound.nodes 0 node m rfl atM
  have unset : (CInt.clamp 0).val ≤ 0 := by decide
  obtain ⟨next, parsed, after⟩ := site.poll (List.append_nil _).symm length (fun _ => unset) (CInt.clamp 0)
  have queue : next.flowsFinishedInfo = node.manager.records := by
    have all := after.up.all_parsed rfl flushed
    simpa only [Node.up, untaken, List.nil_append] using all
  rw [List.length_eq_one_iff] at one
  obtain ⟨info, one⟩ := one
  rw [one] at queue
  have first : next.getOneFlowEndInfo = some (info, { next with flowsFinishedInfo := [] }) := by
    rw [Machine.getOneFlowEndInfo, queue]
  have polls : Where Step Tidy ⟨.polling 0, master, [node]⟩
      (.poll node.completions [] (CInt.clamp 0) (CInt.clamp 0))
      ⟨.draining 0, setMachine master 0 next, [{ node with completions := [] }]⟩ :=
    ⟨tidy_of_master (fun _ => unset) (by rintro p b ⟨⟩),
      .poll rfl atM rfl (List.append_nil _).symm length parsed⟩
  have atNext : (setMachine master 0 next).machines.m_physicsMachines[0]? = some next := by
    simp [setMachine, machines]
  have reports : Where Step Tidy ⟨.draining 0, setMachine master 0 next, [{ node with completions := [] }]⟩
      (.report fun _ => 9) _ :=
    ⟨tidy_of_master trivial (by rintro p b ⟨⟩), .report (fun _ => 9) rfl atNext rfl first⟩
  have taken := (setMachine master 0 next).takeReport_keepsPlan (fun _ => 9) info
  have index := ((setMachine master 0 next).takeReport_polled (fun _ => 9) info).index
  refine ⟨_, _, { next with flowsFinishedInfo := [] }, info, (Run.single polls).next reports, ?_, ?_, ?_, rfl, ?_,
    index, ite_eq_or_eq _ _ _⟩
  · simp [untaken]
  · change (((setMachine master 0 next).takeReport (fun _ => 9) info).machines.m_physicsMachines).set 0 _ = _
    rw [taken.2]
    simp [setMachine, machines]
  · exact congrArg Prod.fst (Machine.parse_kept parsed)
  · exact taken.1.calls

/-- With nothing left in the queue of the only machine, the iteration is over. -/
theorem iteration_ends {t : Session} {m : Machine} (drains : t.phase = .draining 0)
    (machine : t.master.machines.m_physicsMachines = [m]) (empty : m.flowsFinishedInfo = []) :
    ∃ acts phase, Run (Where Step Tidy) t acts { t with phase } ∧ (phase = .registering ∨ phase = .returned) := by
  have here : t.master.machines.m_physicsMachines[0]? = some m := by rw [machine]; rfl
  have drained : Where Step Tidy t SessionAction.next { t with phase := .polling (0 + 1) } :=
    ⟨tidy_of_master trivial (by rintro p b ⟨⟩), .drained drains here (by rw [Machine.getOneFlowEndInfo, empty])⟩
  have all : t.master.machines.m_physicsMachines.length ≤ 0 + 1 := by rw [machine]; exact Nat.le_refl 1
  have polled : Where Step Tidy { t with phase := .polling (0 + 1) } SessionAction.next { t with phase := .registering } :=
    ⟨tidy_of_master trivial (by rintro p b ⟨⟩), .polled rfl all⟩
  exact ⟨_, _, (Run.single drained).next polled, Or.inl rfl⟩

/-- The run in which the flow is sent, and its end is reported. -/
theorem Single.flow_ends (single : Single c mm f call) : ∃ (pool : ThreadPool Caller Job)
    (acts : List SessionAction) (s : Session) (info : FlowEndInfo) (co : Coflow), ThreadPool.create 0 10000 = some pool ∧
    Run (Where Step Tidy) (init (Scheduler.init [c] mm 0) [pool]) acts s ∧ s.Idle ∧
    (∀ d ∈ s.master.calls, d.call.HasRoom) ∧ info ∈ s.master.taken ∧ s.master.sCoflows = [co] ∧
    co.coflowState = .runninged ∧ (s.phase = .registering ∨ s.phase = .returned) := by
  obtain ⟨pool, created⟩ : ∃ pool : ThreadPool Caller Job, ThreadPool.create 0 10000 = some pool := ⟨_, rfl⟩
  have clients : [pool].length = mm.m_physicsMachines.length := single.machine.symm
  obtain ⟨_, ready, occupied, run⟩ := client_starts created (Scheduler.init [c] mm 0)
  obtain ⟨_, d, master, m, node, run, calls, room, index, machines, unsent, arrived, decoded, fits, manager, empty,
    untaken⟩ := single.instruction_arrives occupied run
  obtain ⟨_, completions, replied, replies, length, tasks, records, flushed, quiet⟩ :=
    client_replies occupied decoded fits manager empty
  have run := run.trans replies
  have sound := sound_run single.prepared clients (run.mono fun _ _ _ taken => ⟨taken.1.1, taken.2⟩)
  obtain ⟨_, t, m', info, reports, nodes, machine, kept, drained, same, index', phase⟩ :=
    report_arrives sound machines length flushed records untaken
  have run := run.trans reports
  have sound := sound_run single.prepared clients (run.mono fun _ _ _ taken => ⟨taken.1.1, taken.2⟩)
  have taken : info ∈ t.nodes.flatMap fun node => node.taken := by
    rw [nodes]
    simp
  have standing : Scheduler.Standing [c] .running t.master.registerIndex t.master := by
    have position := sound.position
    rcases phase with returned | draining
    · rw [Position, returned] at position
      exact position.1
    · rw [Position, draining] at position
      exact position.1
  have one : t.master.sCoflows.length = 1 := by simpa using congrArg List.length standing.orders
  obtain ⟨co, only⟩ := List.length_eq_one_iff.mp one
  have here : t.master.sCoflows[0]? = some co := by rw [only]; rfl
  have runninged : co.coflowState = .runninged := by
    rw [standing.states 0 co here, index', index, if_pos Nat.zero_lt_one]
  have idle : t.Idle := by
    intro p n it atP atIt
    rw [nodes] at atP
    rw [machine] at atIt
    cases p with
    | succ p => cases atP
    | zero =>
      cases atP
      cases atIt
      refine ⟨arrived, ?_, ?_, quiet, rfl, flushed, drained⟩
      · obtain ⟨buffer, size⟩ := Prod.mk.inj kept
        rwa [SocketManage.unsent, buffer, size, ← SocketManage.unsent]
      · simp [tasks, decoded]
  obtain ⟨acts, phase', turns, between⟩ : ∃ acts phase', Run (Where Step Tidy) t acts { t with phase := phase' } ∧
      (phase' = .registering ∨ phase' = .returned) := by
    rcases phase with returned | draining
    · exact ⟨[], t.phase, .start, Or.inr returned⟩
    · exact iteration_ends draining machine drained
  refine ⟨pool, _, _, info, co, created, run.trans turns, idle, fun e member => ?_, sound.taken.symm.subset taken, only,
    runninged, between⟩
  rw [same, calls] at member
  cases List.mem_singleton.mp member
  exact room

end Single

theorem one_prepared : Prepared [fanOut 1] oneMachine := by
  refine ⟨List.forall_mem_singleton.mpr (fanOut_built 1), List.forall_mem_singleton.mpr (by decide +kernel), ?_⟩
  refine List.forall_mem_singleton.mpr ⟨0, _, .clamp 65535, rfl, ?_⟩
  unfold Plain
  decide +kernel

theorem one_single : ∃ f call, Single (fanOut 1) oneMachine f call := by
  let f : Flow := .create (.clamp 2147483000) (.clamp 0) (.clamp 0) 2
  let sent := oneMachine.sendTask (fanOut 1).coflowID (f.setCurrentMbs 10).flowID (f.setCurrentMbs 10).mapperID
    (f.setCurrentMbs 10).reducerID (f.setCurrentMbs 10).flowSizeMB (f.setCurrentMbs 10).currentMbs
    (.accepted MAX_SEND_BUFFER_SIZE)
  have checked : sent.any (fun call => SendTask.Fits (payload call.frame)) = true := by decide +kernel
  obtain ⟨call, called, fits⟩ := (Option.any_eq_true _ _).mp checked
  exact ⟨f, call, one_prepared, by decide +kernel, by decide +kernel, rfl, called, of_decide_eq_true fits⟩

end Session

end CoflowSim
