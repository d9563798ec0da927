import CoflowSim.Client.TaskCodec
import CoflowSim.Master.CompletionCodec
import CoflowSim.System.Session

namespace CoflowSim
open Lib Lib.Framing

theorem payload_wrap (text : List Byte) : payload (wrap lparen rparen text) = text := by
  simp [payload, wrap]

/-- The coflow and the flow of a task, of an instruction and of a record. -/
def SendTask.ids (task : SendTask) : CInt × CInt := (task.coflow_id, task.flow_id)
def insIds (ins : List Byte) : CInt × CInt := (SendTask.parse ins (.zero, .zero)).ids
def FlowEndInfo.ids (info : FlowEndInfo) : CInt × CInt := (info.coflowID, info.flowID)

/-- Both IDs of the instruction are read, whatever `malloc` has left. -/
def Names (ins : List Byte) : Prop := ∀ unset, (SendTask.parse ins unset).ids = insIds ins

/-- What the master reads from the task's reply. -/
def SendTask.record (task : SendTask) : FlowEndInfo := ⟨task.coflow_id, task.flow_id, CInt.clamp task.end_time⟩

theorem SendTask.parse_reply (task : SendTask) : FlowEndInfo.parse (payload task.reply) = task.record := by
  rw [SendTask.reply_eq, payload_wrap, SendTask.body, FlowEndInfo.parse_replyBody, SendTask.record]

/-- The end time of a task is one that an `int` holds. -/
def SendTask.Timed (task : SendTask) : Prop := 0 ≤ task.end_time ∧ task.end_time ≤ 2147483647

theorem SendTask.Timed.reply_print {task : SendTask} (timed : task.Timed) : task.reply = task.record.print := by
  have value : (CInt.clamp task.end_time).val = task.end_time :=
    CInt.val_clamp (by have := timed.1; omega) timed.2
  rw [SendTask.reply_eq, FlowEndInfo.print, FlowEndInfo.body, SendTask.record, value]
  rfl

theorem SendTask.Timed.reply_length {task : SendTask} (timed : task.Timed) :
    task.reply.length < MAX_SEND_BUFFER_SIZE := by
  have body := task.record.body_length
  have whole : task.record.print.length = task.record.body.length + 2 := by simp [FlowEndInfo.print, wrap]
  rw [timed.reply_print, whole, MAX_SEND_BUFFER_SIZE]
  omega

namespace SendManager

variable {s s' : SendManager} {a : ClientAction}

/-- The records of the replies that `setSendMsg` has taken. -/
def records (s : SendManager) : List FlowEndInfo := s.replies.map fun reply => FlowEndInfo.parse (payload reply.2)

theorem mem_setTask {t : Nat} {change : SendTask → SendTask} {task : SendTask}
    (member : task ∈ (s.setTask t change).tasks) : ∃ old ∈ s.tasks, task = old ∨ task = change old := by
  obtain ⟨i, here⟩ := List.mem_iff_getElem?.mp member
  rw [setTask, List.getElem?_modify] at here
  obtain ⟨old, found, rfl⟩ := Option.map_eq_some_iff.mp here
  refine ⟨old, List.mem_of_getElem? found, ?_⟩
  split
  · exact Or.inr rfl
  · exact Or.inl rfl

theorem setTask_ids (t : Nat) {change : SendTask → SendTask} (kept : ∀ task, (change task).ids = task.ids) :
    (s.setTask t change).tasks.map SendTask.ids = s.tasks.map SendTask.ids := by
  refine List.ext_getElem? fun i => ?_
  rw [List.getElem?_map, List.getElem?_map, setTask, List.getElem?_modify]
  cases s.tasks[i]? with
  | none => rfl
  | some task =>
    split
    · simp [kept]
    · rfl

/-- The IDs of a task stay, and a task is added by `appendTask` only. -/
theorem Step.task_ids (step : Step s a s') :
    s'.tasks.map SendTask.ids = s.tasks.map SendTask.ids ∨
      ∃ ins unset, a = .appendTask ins unset ∧ s'.tasks = s.tasks ++ [.parse ins unset] := by
  cases step with
  | refuseTask | appendTask => exact Or.inr ⟨_, _, rfl, rfl⟩
  | mark | sendMsg | setEndTime | setSendEnd | close | senderReturns =>
    exact Or.inl (setTask_ids _ fun _ => rfl)
  | _ => exact Or.inl rfl

theorem Step.timed (step : Step s a s') (proper : ∀ t time, a = .setEndTime t time → 0 ≤ time ∧ time ≤ 2147483647)
    (timed : ∀ task ∈ s.tasks, task.Timed) : ∀ task ∈ s'.tasks, task.Timed := by
  have changed (t : Nat) (change : SendTask → SendTask) (kept : ∀ task, (change task).end_time = task.end_time) :
      ∀ task ∈ (s.setTask t change).tasks, task.Timed := by
    intro task member
    obtain ⟨old, inside, rfl | rfl⟩ := mem_setTask member
    · exact timed _ inside
    · rw [SendTask.Timed, kept]
      exact timed _ inside
  cases step with
  | refuseTask | appendTask =>
    intro task member
    rcases List.mem_append.mp member with old | new
    · exact timed task old
    · rw [List.mem_singleton.mp new]
      simp [SendTask.Timed, SendTask.parse]
  | mark | sendMsg | setSendEnd | close | senderReturns => exact changed _ _ fun _ => rfl
  | setEndTime time executes sends =>
    intro task member
    obtain ⟨old, inside, rfl | rfl⟩ := mem_setTask member
    · exact timed _ inside
    · exact proper _ _ rfl
  | _ => exact timed

end SendManager

namespace MachineManager

/-- What a call of `sendTask` does on the mapper's connection. -/
theorem sendTask_sent {mm : MachineManager} {coflowID flowID mapperID reducerID : CInt}
    {flowSizeMB sendSpeedMbs : Rat} {kernel : SendOutcome} {call : TaskCall}
    (called : mm.sendTask coflowID flowID mapperID reducerID flowSizeMB sendSpeedMbs kernel = some call) :
    ∃ m, mm.machineOf mapperID = some (call.mapper, m) ∧ call.before = m.toSocketManage ∧
      call.offered = (call.before.setSendMsg call.frame).socket ∧ call.frame.length < TASK_BUFFER ∧
      call.machines = { mm with m_physicsMachines :=
        mm.m_physicsMachines.set call.mapper { m with toSocketManage := (call.offered.sendMsg kernel).socket } } := by
  obtain ⟨⟨mapper, m⟩, atMapper, called⟩ := Option.bind_eq_some_iff.mp called
  obtain ⟨⟨position, r⟩, -, called⟩ := Option.bind_eq_some_iff.mp called
  dsimp only at called
  split at called
  · cases called
  · rename_i short
    cases called
    refine ⟨m, atMapper, ?_⟩
    simp only [Nat.lt_of_not_le short, and_self]

end MachineManager

namespace SocketManage

/-- A send that takes as much as the buffer can hold is not short and empties it. -/
theorem sendMsg_all {s : SocketManage} (bounded : s.SendBounded) :
    ¬ s.Short (.accepted MAX_SEND_BUFFER_SIZE) ∧ s.taken (.accepted MAX_SEND_BUFFER_SIZE) = s.unsent ∧
      (s.sendMsg (.accepted MAX_SEND_BUFFER_SIZE)).socket.unsent = [] := by
  have whole : ¬ s.Short (.accepted MAX_SEND_BUFFER_SIZE) := by
    rintro ⟨count, same, -, below⟩
    cases same
    exact absurd below (Nat.not_lt.mpr bounded)
  have all : s.taken (.accepted MAX_SEND_BUFFER_SIZE) = s.unsent := by
    rw [taken, List.take_of_length_le]
    rw [unsent_length bounded]
    exact bounded
  have left := taken_append_unsent bounded whole
  rw [all] at left
  exact ⟨whole, all, List.self_eq_append_right.mp left.symm⟩

/-- The send half of a connection. -/
def sendHalf (s : SocketManage) : CArray Byte MAX_SEND_BUFFER_SIZE × Nat := (s.sendBuf, s.sendBufSize)

theorem receiveLoop_sendHalf (s : SocketManage) (kernel : List RecvOutcome) :
    (s.receiveLoop kernel).1.sendHalf = s.sendHalf := by
  induction kernel generalizing s with
  | nil => rfl
  | cons outcome rest ih =>
    cases outcome with
    | data bytes =>
      simp only [receiveLoop]
      split
      · rfl
      · split
        · rfl
        · exact ih _
    | eof | eagain | failed => rfl

theorem recvMsg_sendHalf (s : SocketManage) (kernel : List RecvOutcome) :
    (s.recvMsg kernel).sendHalf = s.sendHalf := by
  unfold recvMsg receiveMessage
  split
  · rfl
  · exact s.receiveLoop_sendHalf kernel

end SocketManage

namespace Machine

/-- What a poll leaves alone: the send half of the connection and the address. -/
def kept (m : Machine) : (CArray Byte MAX_SEND_BUFFER_SIZE × Nat) × List Byte × Int :=
  (m.sendHalf, m.socketip, m.socketport)

theorem parse_kept {m next : Machine} {chunk : List Byte} {flowEndIndex flowStartIndex : Int}
    (parsed : (m.receive chunk).parseFlowsFinishedInfo flowEndIndex flowStartIndex = some next) :
    next.kept = m.kept := by
  have received : (m.receive chunk).kept = m.kept := by
    rw [kept, kept, receive, SocketManage.recvMsg_sendHalf]
  unfold parseFlowsFinishedInfo at parsed
  split at parsed
  · cases parsed
    exact received
  · obtain ⟨scan, -, finished⟩ := Option.bind_eq_some_iff.mp parsed
    have taken : (m.receive chunk).takeReceived.kept = m.kept := received
    rw [← taken]
    unfold keepUnfinished at finished
    split at finished
    · split at finished
      · cases finished
      · cases finished
        rfl
    · cases finished
      rfl

end Machine

theorem InstructionLink.Sound.reconnect {s : InstructionLink} (sound : s.Sound) {socket : SocketManage}
    (same : socket.sendHalf = s.socket.sendHalf) : Sound { s with socket } := by
  obtain ⟨bounded, lengths, stream⟩ := sound
  obtain ⟨buffer, size⟩ := Prod.mk.inj same
  refine ⟨?_, lengths, ?_⟩
  · rwa [SocketManage.SendBounded, size]
  · rwa [SocketManage.unsent, buffer, size, ← SocketManage.unsent]

theorem CompletionLink.Sound.resend {s : CompletionLink} (sound : s.Sound) {socket : SocketManage}
    (same : socket.recvIdx = s.machine.recvIdx) :
    Sound { s with machine := { s.machine with toSocketManage := socket } } := by
  obtain ⟨bounded, text, carries, cut, parsed⟩ := sound
  exact ⟨bounded, text, ⟨same.trans carries.handedOver, carries.length, carries.buffer, carries.drained⟩, cut, parsed⟩

namespace Node

/-- The two directions of the connection to the machine. -/
def down (node : Node) (m : Machine) : InstructionLink :=
  ⟨m.toSocketManage, node.instructions, node.loop, node.delivered⟩

def up (node : Node) (m : Machine) : CompletionLink :=
  ⟨node.manager.masterSockManger, node.completions, m, node.manager.records, node.taken⟩

/-- Both directions are in order, the tasks are those of the instructions
decoded so far, and each has had at most one reply. -/
structure Sound (node : Node) (m : Machine) : Prop where
  down : (node.down m).Sound
  up : (node.up m).Sound
  once : node.manager.Once
  timed : ∀ task ∈ node.manager.tasks, task.Timed
  named : ∀ ins ∈ node.delivered, Names ins
  decoded : node.manager.tasks.map SendTask.ids <+: node.loop.appended.map insIds

theorem sound_start (pool : ThreadPool Caller Job) (machineID : Nat) (sockip : List Byte) (sockport : Int) :
    (start pool).Sound (Machine.create machineID sockip sockport) :=
  ⟨InstructionLink.sound_init, CompletionLink.sound_init machineID sockip sockport, SendManager.once_init pool,
    by simp [start, SendManager.init], by simp [start], List.nil_prefix⟩

variable {node : Node} {m : Machine}

/-- A call of `sendTask` for this node. -/
theorem Sound.offer (sound : node.Sound m) {call : TaskCall} {kernel : SendOutcome} {ins : List Byte}
    (before : call.before = m.toSocketManage) (offered : call.offered = (call.before.setSendMsg call.frame).socket)
    (frame : call.frame = wrap lparen rparen ins) (clean : ∀ b ∈ ins, b ≠ lparen ∧ b ≠ rparen)
    (fits : call.frame.length < TASK_BUFFER) (names : Names ins)
    (room : call.before.sendBufSize + call.frame.length ≠ MAX_SEND_BUFFER_SIZE) (whole : ¬ call.offered.Short kernel) :
    (node.offer call kernel).Sound { m with toSocketManage := (call.offered.sendMsg kernel).socket } := by
  have length : ins.length ≤ EventLoop.INS_MAX := by
    have size : (wrap lparen rparen ins).length = ins.length + 2 := by simp [wrap]
    rw [frame, size, TASK_BUFFER] at fits
    rw [EventLoop.INS_MAX]
    omega
  rw [before] at offered room
  rw [frame] at offered room
  have put := (sound.down.step (a := .setSendMsg ins) ⟨clean, length, room⟩ (.setSendMsg ins)).1
  rw [offered] at whole
  have sent := (put.step (a := .sendMsg kernel) whole (.sendMsg kernel)).1
  refine ⟨?_, ?_, sound.once, sound.timed, ?_, sound.decoded⟩
  · rw [Node.down, Node.offer, offered, before, frame, payload_wrap]
    exact sent
  · refine sound.up.resend ?_
    rw [offered]
    exact (SocketManage.sendMsg_recvIdx _ _).trans (SocketManage.setSendMsg_recvIdx _ _)
  · intro other member
    rcases List.mem_append.mp member with old | new
    · exact sound.named other old
    · rw [frame, payload_wrap] at new
      split at new
      · rwa [List.mem_singleton.mp new]
      · cases new

/-- A pass of the event loop. -/
theorem Sound.receive (sound : node.Sound m) {chunk rest : List Byte} (arrives : node.instructions = chunk ++ rest)
    (fits : chunk.length ≤ MAX_RECV_BUFFER_SIZE) :
    Sound { node with instructions := rest, loop := node.loop.pass (RecvOutcome.ofChunk chunk) } m := by
  obtain ⟨passed, more, grown⟩ := sound.down.pass arrives fits
  have grown : (node.loop.pass (RecvOutcome.ofChunk chunk)).appended = node.loop.appended ++ more := grown
  refine ⟨passed, sound.up, sound.once, sound.timed, sound.named, sound.decoded.trans ?_⟩
  dsimp only
  rw [grown, List.map_append]
  exact List.prefix_append _ _

/-- A poll of the machine is defined, and its node stays sound. -/
theorem Sound.poll (sound : node.Sound m) {chunk rest : List Byte} (arrives : node.completions = chunk ++ rest)
    (fits : chunk.length ≤ MAX_RECV_BUFFER_SIZE) {flowEndIndex : CInt}
    (good : rparen ∉ chunk → flowEndIndex.val ≤ 0) (flowStartIndex : CInt) :
    ∃ next, (m.receive chunk).parseFlowsFinishedInfo flowEndIndex.val flowStartIndex.val = some next ∧
      Sound { node with completions := rest } next := by
  obtain ⟨next, parsed, up⟩ := sound.up.parse arrives fits good flowStartIndex
  have sendHalf : next.sendHalf = m.sendHalf := congrArg Prod.fst (Machine.parse_kept parsed)
  exact ⟨next, parsed, sound.down.reconnect sendHalf, up, sound.once, sound.timed, sound.named, sound.decoded⟩

/-- A record that `run` takes from the machine's queue. -/
theorem Sound.report (sound : node.Sound m) {info : FlowEndInfo} {next : Machine}
    (first : m.getOneFlowEndInfo = some (info, next)) : Sound { node with taken := node.taken ++ [info] } next := by
  have up := (sound.up.step (a := .take) trivial (.take first)).1
  have socket : next.toSocketManage = m.toSocketManage := by
    unfold Machine.getOneFlowEndInfo at first
    split at first
    · cases first
    · cases first
      rfl
  refine ⟨?_, up, sound.once, sound.timed, sound.named, sound.decoded⟩
  rw [Node.down, socket]
  exact sound.down

theorem Sound.instructed (sound : node.Sound m) : node.loop.appended <+: node.delivered := sound.down.inOrder

/-- `appendTask` takes the next of the decoded instructions. -/
theorem Sound.decoded_step (sound : node.Sound m) {a : ClientAction} {manager : SendManager}
    (scanned : node.Scanned a) (step : node.manager.Step a manager) :
    manager.tasks.map SendTask.ids <+: node.loop.appended.map insIds := by
  rcases step.task_ids with same | ⟨ins, unset, rfl, tasks⟩
  · rw [same]
    exact sound.decoded
  · have next : node.loop.appended[node.manager.tasks.length]? = some ins := scanned
    have names := sound.named ins (sound.instructed.subset (List.mem_of_getElem? next)) unset
    rw [tasks, List.map_append, List.map_singleton, names]
    have get : Fifo.Step (Fifo.mk (node.loop.appended.map insIds) (node.manager.tasks.map SendTask.ids)) _ :=
      .get (by simpa using ⟨ins, next, rfl⟩)
    exact get.inOrder sound.decoded

/-- The reply that is on its way is the frame of its task's record. -/
theorem Sound.reply_print (sound : node.Sound m) {t : Nat} {reply : List Byte} {rest : List Nat}
    (replies : node.manager.phase = .replying t reply rest) :
    ∃ info : FlowEndInfo, reply = info.print ∧ FlowEndInfo.parse (payload reply) = info := by
  obtain ⟨task, here, -, rfl⟩ := sound.once.replying t reply rest replies
  exact ⟨task.record, (sound.timed task (List.mem_of_getElem? here)).reply_print, task.parse_reply⟩

theorem Sound.up_step (sound : node.Sound m) {a : ClientAction} {manager : SendManager} (proper : node.Proper a)
    (step : node.manager.Step a manager) :
    (Node.up { node with manager, completions := node.completions ++ node.emitted a } m).Sound := by
  have quiet : (Node.up { node with completions := node.completions ++ [] } m).Sound := by
    rw [List.append_nil]
    exact sound.up
  cases step with
  | refuseReply replies refused =>
    obtain ⟨info, print, -⟩ := sound.reply_print replies
    have room := proper _ _ _ replies
    rw [print] at room refused
    have put := (sound.up.step (a := .setSendMsg info) room (.setSendMsg info)).1
    have result : ((node.up m).socket.setSendMsg info.print).result = false := refused
    simp only [result, Bool.false_eq_true, if_false, List.append_nil] at put
    simp only [Node.up, emitted, List.append_nil, print]
    exact put
  | takeReply replies taken =>
    obtain ⟨info, print, parse⟩ := sound.reply_print replies
    have room := proper _ _ _ replies
    rw [print] at room taken
    have put := (sound.up.step (a := .setSendMsg info) room (.setSendMsg info)).1
    have result : ((node.up m).socket.setSendMsg info.print).result = true := taken
    simp only [result, if_true] at put
    simp only [Node.up, emitted, List.append_nil, SendManager.records, List.map_append, List.map_singleton, parse]
    rw [print]
    exact put
  | sendMsg kernel sends => exact (sound.up.step (a := .sendMsg kernel) proper (.sendMsg kernel)).1
  | _ => exact quiet

/-- A step of the client. -/
theorem Sound.client (sound : node.Sound m) {a : ClientAction} {manager : SendManager} (scanned : node.Scanned a)
    (proper : node.Proper a) (step : node.manager.Step a manager) :
    Sound { node with manager, completions := node.completions ++ node.emitted a } m := by
  refine ⟨sound.down, sound.up_step proper step, sound.once.step step, step.timed ?_ sound.timed, sound.named,
    sound.decoded_step scanned step⟩
  rintro t time rfl
  exact proper

/-- Nothing is under way between the client and the machine, and the client has
nothing left to do. -/
structure Idle (node : Node) (m : Machine) : Prop where
  arrived : node.instructions = []
  sent : m.unsent = []
  appended : node.manager.tasks.length = node.loop.appended.length
  quiet : node.manager.Quiescent
  returned : node.completions = []
  flushed : node.manager.masterSockManger.unsent = []
  drained : m.flowsFinishedInfo = []

/-- An idle client that has replied for all its tasks has reported every
instruction that was accepted for it. -/
theorem Idle.taken (idle : node.Idle m) (sound : node.Sound m)
    (replied : ∀ t < node.manager.tasks.length, t ∈ node.manager.replied) {ins : List Byte}
    (given : ins ∈ node.delivered) : ∃ info ∈ node.taken, info.ids = insIds ins := by
  have decoded : node.loop.appended = node.delivered := sound.down.all_decoded idle.arrived idle.sent
  have records : node.taken = node.manager.records := sound.up.all_taken idle.returned idle.flushed idle.drained
  have lengths : (node.loop.appended.map insIds).length ≤ (node.manager.tasks.map SendTask.ids).length := by
    rw [List.length_map, List.length_map, idle.appended]
  have tasks : node.manager.tasks.map SendTask.ids = node.loop.appended.map insIds :=
    sound.decoded.eq_of_length_le lengths
  have named : insIds ins ∈ node.manager.tasks.map SendTask.ids := by
    rw [tasks, decoded]
    exact List.mem_map_of_mem given
  obtain ⟨task, member, same⟩ := List.mem_map.mp named
  obtain ⟨t, here⟩ := List.mem_iff_getElem?.mp member
  obtain ⟨⟨u, reply⟩, taken, rfl⟩ := List.mem_map.mp (replied t (List.getElem?_eq_some_iff.mp here).1)
  obtain ⟨other, here', -, rfl, -⟩ := sound.once.replies u reply taken
  cases here.symm.trans here'
  refine ⟨task.record, ?_, same⟩
  rw [records, ← task.parse_reply]
  exact List.mem_map_of_mem taken

end Node

end CoflowSim
