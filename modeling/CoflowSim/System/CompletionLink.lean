import CoflowSim.Common.SendStream
import CoflowSim.Lib.Channel
import CoflowSim.Master.CompletionStream

namespace CoflowSim
open Lib Lib.Framing

namespace Machine

/-- The records that a poll pushes go behind those that are in the queue. -/
theorem parse_behind_queue (m : Machine) (flowEndIndex flowStartIndex : Int) :
    m.parseFlowsFinishedInfo flowEndIndex flowStartIndex =
      (({ m with flowsFinishedInfo := [] } : Machine).parseFlowsFinishedInfo flowEndIndex flowStartIndex).map fun next =>
        { next with flowsFinishedInfo := m.flowsFinishedInfo ++ next.flowsFinishedInfo } := by
  unfold parseFlowsFinishedInfo
  dsimp only
  split
  · simp
  · have same : ({ m with flowsFinishedInfo := [] } : Machine).takeReceived.scanFinished flowEndIndex flowStartIndex =
        m.takeReceived.scanFinished flowEndIndex flowStartIndex := rfl
    rw [same]
    cases m.takeReceived.scanFinished flowEndIndex flowStartIndex with
    | none => rfl
    | some scan =>
      simp only [Option.bind_eq_bind, Option.bind_some, keepUnfinished]
      split
      · split
        · rfl
        · rfl
      · rfl

/-- Between two polls, whatever is still in the queue. -/
def Carries (m : Machine) (kept : List Byte) : Prop := ({ m with flowsFinishedInfo := [] } : Machine).Holds kept

theorem create_carries (machineID : Nat) (sockip : List Byte) (sockport : Int) :
    (create machineID sockip sockport).Carries [] :=
  create_holds machineID sockip sockport

/-- A poll that receives nothing changes nothing. -/
theorem Carries.parse_nothing {m : Machine} {kept : List Byte} (carries : m.Carries kept)
    (flowEndIndex flowStartIndex : Int) :
    (m.receive []).parseFlowsFinishedInfo flowEndIndex flowStartIndex = some m := by
  have handedOver : m.recvIdx = 0 := carries.handedOver
  have nothing : m.receive [] = m := by
    simp [receive, SocketManage.recvMsg, SocketManage.receiveMessage, RecvOutcome.ofChunk, handedOver,
      SocketManage.receiveLoop]
  rw [nothing, parseFlowsFinishedInfo, if_pos handedOver]

/-- A poll that keeps its unfinished frame, on whatever queue. -/
theorem Carries.parse {m : Machine} {text chunk rest : List Byte} (carries : m.Carries (carry lparen rparen text))
    (place : InStream text chunk rest) {flowEndIndex : CInt} (flowStartIndex : CInt)
    (good : rparen ∉ chunk → flowEndIndex.val ≤ 0) :
    ∃ next, (m.receive chunk).parseFlowsFinishedInfo flowEndIndex.val flowStartIndex.val = some next ∧
      next.Carries (carry lparen rparen (text ++ chunk)) ∧
      next.flowsFinishedInfo = m.flowsFinishedInfo ++ (frames lparen rparen text chunk).map FlowEndInfo.parse := by
  obtain ⟨last, polled, holds⟩ := Holds.poll_keeps carries place flowStartIndex good
  obtain ⟨next, parsed, drained⟩ := Option.bind_eq_some_iff.mp polled
  rw [drain_eq] at drained
  obtain ⟨queue, emptied⟩ := Prod.mk.inj (Option.some.inj drained)
  have behind := parse_behind_queue (m.receive chunk) flowEndIndex.val flowStartIndex.val
  rw [show ({ m.receive chunk with flowsFinishedInfo := [] } : Machine) =
    ({ m with flowsFinishedInfo := [] } : Machine).receive chunk from rfl, parsed, Option.map_some] at behind
  have kept : ({ next with flowsFinishedInfo := [] } : Machine).Holds (carry lparen rparen (text ++ chunk)) := by
    rwa [emptied]
  exact ⟨_, behind, kept, by rw [queue]; rfl⟩

end Machine

/-- The way of the completion records from a client to the master: the client's
side of the connection, the bytes that its kernel has taken and the master has
not received, and the master's machine. `sent` are the records whose frames
`setSendMsg` has taken, `taken` those that `getOneFlowEndInfo` has given. -/
structure CompletionLink where
  socket : SocketManage
  wire : List Byte
  machine : Machine
  sent : List FlowEndInfo
  taken : List FlowEndInfo

inductive CompletionAction
  | setSendMsg (info : FlowEndInfo)
  | sendMsg (kernel : SendOutcome)
  | parse (chunk rest : List Byte) (flowEndIndex flowStartIndex : CInt)
  | take

namespace CompletionLink

def init (machineID : Nat) (sockip : List Byte) (sockport : Int) : CompletionLink :=
  ⟨.initSocket, [], .create machineID sockip sockport, [], []⟩

/-- The master receives any beginning of what is under way that one `recv` can
return, and takes a record at a time. -/
inductive Step : CompletionLink → CompletionAction → CompletionLink → Prop
  | setSendMsg {s} (info : FlowEndInfo) : Step s (.setSendMsg info) { s with
      socket := (s.socket.setSendMsg info.print).socket
      sent := s.sent ++ if (s.socket.setSendMsg info.print).result then [info] else [] }
  | sendMsg {s} (kernel : SendOutcome) : Step s (.sendMsg kernel) { s with
      socket := (s.socket.sendMsg kernel).socket, wire := s.wire ++ s.socket.taken kernel }
  | parse {s chunk rest flowEndIndex flowStartIndex machine} (arrives : s.wire = chunk ++ rest)
      (fits : chunk.length ≤ MAX_RECV_BUFFER_SIZE)
      (parsed : (s.machine.receive chunk).parseFlowsFinishedInfo flowEndIndex.val flowStartIndex.val = some machine) :
      Step s (.parse chunk rest flowEndIndex flowStartIndex) { s with wire := rest, machine }
  | take {s info machine} (first : s.machine.getOneFlowEndInfo = some (info, machine)) :
      Step s .take { s with machine, taken := s.taken ++ [info] }

/-- A record does not fill the send buffer to its last byte, a send is not
short, and `flowEndIndex` does not start above zero where nothing sets it. -/
def Proper (s : CompletionLink) : CompletionAction → Prop
  | .setSendMsg info => s.socket.sendBufSize + info.print.length ≠ MAX_SEND_BUFFER_SIZE
  | .sendMsg kernel => ¬ s.socket.Short kernel
  | .parse chunk _ flowEndIndex _ => rparen ∉ chunk → flowEndIndex.val ≤ 0
  | .take => True

/-- The two ends of the link, as those of a FIFO channel. -/
def channel (s : CompletionLink) : Fifo FlowEndInfo := ⟨s.sent, s.taken⟩

/-- The master has parsed a part of the stream of the records, and the rest is
under way or in the send buffer. -/
structure Sound (s : CompletionLink) : Prop where
  bounded : s.socket.SendBounded
  stream : ∃ text, s.machine.Carries (carry lparen rparen text) ∧
    Cut lparen rparen (s.sent.map FlowEndInfo.body) text (s.wire ++ s.socket.unsent) ∧
    s.taken ++ s.machine.flowsFinishedInfo = (frames lparen rparen [] text).map FlowEndInfo.parse

theorem sound_init (machineID : Nat) (sockip : List Byte) (sockport : Int) :
    (init machineID sockip sockport).Sound :=
  ⟨SendStream.init_bounded, [], Machine.create_carries _ _ _, Cut.nil, rfl⟩

theorem parse_bodies (infos : List FlowEndInfo) : (infos.map FlowEndInfo.body).map FlowEndInfo.parse = infos := by
  rw [List.map_map, show FlowEndInfo.parse ∘ FlowEndInfo.body = id from funext FlowEndInfo.parse_body, List.map_id]

theorem clean_body (info : FlowEndInfo) : ∀ b ∈ info.body, b ≠ lparen ∧ b ≠ rparen :=
  fun b member => ⟨(info.body_bytes b member).1, (info.body_bytes b member).2.1⟩

variable {s t : CompletionLink} {a : CompletionAction}

/-- What has been taken or parsed is a beginning of what was sent. -/
theorem Sound.parsed (sound : s.Sound) : s.taken ++ s.machine.flowsFinishedInfo <+: s.sent := by
  obtain ⟨text, -, cut, parsed⟩ := sound.stream
  have messages := congrArg (List.map FlowEndInfo.parse) (cut.frames_eq lparen_ne_rparen)
  rw [parse_bodies, List.map_append, ← parsed] at messages
  exact ⟨_, messages⟩

theorem Sound.inOrder (sound : s.Sound) : s.channel.InOrder :=
  (List.prefix_append _ _).trans sound.parsed

/-- With nothing under way, all has been taken or parsed. -/
theorem Sound.all_parsed (sound : s.Sound) (arrived : s.wire = []) (flushed : s.socket.unsent = []) :
    s.taken ++ s.machine.flowsFinishedInfo = s.sent := by
  obtain ⟨text, -, cut, parsed⟩ := sound.stream
  rw [arrived, flushed] at cut
  rw [parsed, cut.all_read lparen_ne_rparen, parse_bodies]

/-- With nothing left in the buffers or under way, all has been taken. -/
theorem Sound.all_taken (sound : s.Sound) (arrived : s.wire = []) (flushed : s.socket.unsent = [])
    (drained : s.machine.flowsFinishedInfo = []) : s.taken = s.sent := by
  have parsed := sound.all_parsed arrived flushed
  rwa [drained, List.append_nil] at parsed

theorem inStream_of_cut {infos : List FlowEndInfo} {text chunk rest : List Byte}
    (cut : Cut lparen rparen (infos.map FlowEndInfo.body) text (chunk ++ rest)) (nonempty : chunk ≠ [])
    (fits : chunk.length ≤ MAX_RECV_BUFFER_SIZE) : Machine.InStream text chunk rest := by
  obtain ⟨packed, done, decoded⟩ := cut.packed lparen_ne_rparen
  have whole : text ++ (chunk ++ rest) = completions infos := by
    rw [cut.whole, List.flatMap_map]
    rfl
  refine ⟨packed, done, whole ▸ completions_no_nul infos, ?_, nonempty, fits⟩
  rw [decoded]
  intro body member
  obtain ⟨info, -, rfl⟩ := List.mem_map.mp member
  exact info.body_length

/-- A poll is defined, keeps the unfinished frame and takes nothing. -/
theorem Sound.parse {chunk rest : List Byte} {flowEndIndex : CInt} (sound : s.Sound) (arrives : s.wire = chunk ++ rest)
    (fits : chunk.length ≤ MAX_RECV_BUFFER_SIZE) (good : rparen ∉ chunk → flowEndIndex.val ≤ 0)
    (flowStartIndex : CInt) :
    ∃ machine, (s.machine.receive chunk).parseFlowsFinishedInfo flowEndIndex.val flowStartIndex.val = some machine ∧
      Sound { s with wire := rest, machine } := by
  obtain ⟨bounded, text, carries, cut, parsed⟩ := sound
  by_cases nothing : chunk = []
  · rw [nothing, List.nil_append] at arrives
    rw [nothing]
    refine ⟨s.machine, carries.parse_nothing _ _, bounded, text, carries, ?_, parsed⟩
    rwa [arrives] at cut
  · rw [arrives, List.append_assoc] at cut
    obtain ⟨machine, defined, kept, queue⟩ := carries.parse (inStream_of_cut cut nothing fits) flowStartIndex good
    refine ⟨machine, defined, bounded, _, kept, cut.read, ?_⟩
    dsimp only
    rw [queue, ← List.append_assoc, parsed, frames_append, List.map_append, List.nil_append]

/-- Each step of the link is a step of the channel at one of its ends, or none. -/
theorem Sound.step (sound : s.Sound) (proper : s.Proper a) (step : Step s a t) :
    t.Sound ∧ Relation.ReflTransGen Fifo.Step s.channel t.channel := by
  cases step with
  | setSendMsg info =>
    obtain ⟨bounded, text, carries, cut, parsed⟩ := sound
    have bounded' := SocketManage.setSendMsg_bounded bounded info.print
    rcases s.socket.setSendMsg_cases info.print with ⟨-, result, -, -, unsent⟩ | ⟨-, refused⟩
    · rw [result, if_pos rfl]
      refine ⟨⟨bounded', text, carries, ?_, parsed⟩, .single (.put info)⟩
      have put := cut.put (clean_body info)
      dsimp only
      rw [unsent, ← List.append_assoc, List.map_append]
      exact put
    · rw [refused]
      simp only [Bool.false_eq_true, if_false, List.append_nil]
      exact ⟨⟨bounded, text, carries, cut, parsed⟩, .refl⟩
  | sendMsg kernel =>
    obtain ⟨bounded, text, carries, cut, parsed⟩ := sound
    refine ⟨⟨SocketManage.sendMsg_bounded bounded kernel, text, carries, ?_, parsed⟩, .refl⟩
    rwa [List.append_assoc, SocketManage.taken_append_unsent bounded proper]
  | parse arrives fits defined =>
    obtain ⟨machine, defined', next⟩ := sound.parse arrives fits proper _
    rw [defined] at defined'
    cases defined'
    exact ⟨next, .refl⟩
  | @take info machine first =>
    obtain ⟨bounded, text, carries, cut, parsed⟩ := sound
    unfold Machine.getOneFlowEndInfo at first
    split at first
    · cases first
    · rename_i rest queue
      cases first
      have next : Sound { s with
          machine := { s.machine with flowsFinishedInfo := rest }, taken := s.taken ++ [info] } := by
        refine ⟨bounded, text, carries, cut, ?_⟩
        rw [queue] at parsed
        rw [← parsed]
        simp
      exact ⟨next, Fifo.gets (c := s.channel) next.inOrder⟩

/-- The link is a FIFO channel: however the kernels cut the stream and whatever
the send buffer refuses, the master takes the records that were sent, each once
and in order, with every poll defined; and all of them once nothing is left on
the way. -/
theorem completions_refine_fifo {machineID : Nat} {sockip : List Byte} {sockport : Int}
    {acts : List CompletionAction} (run : Run (Where Step Proper) (init machineID sockip sockport) acts s) :
    Relation.ReflTransGen Fifo.Step Fifo.empty s.channel ∧ s.channel.InOrder ∧
      (∀ chunk rest flowEndIndex flowStartIndex, s.wire = chunk ++ rest → chunk.length ≤ MAX_RECV_BUFFER_SIZE →
        s.Proper (.parse chunk rest flowEndIndex flowStartIndex) →
        ∃ t, Step s (.parse chunk rest flowEndIndex flowStartIndex) t) ∧
      (s.wire = [] → s.socket.unsent = [] → s.machine.flowsFinishedInfo = [] → s.taken = s.sent) := by
  obtain ⟨sound, steps⟩ := run.refines (I := Sound) (sound_init machineID sockip sockport)
    fun s a t sound taken => sound.step taken.1 taken.2
  refine ⟨steps, sound.inOrder, fun chunk rest flowEndIndex flowStartIndex arrives fits proper => ?_, sound.all_taken⟩
  obtain ⟨machine, defined, -⟩ := sound.parse arrives fits proper flowStartIndex
  exact ⟨_, .parse arrives fits defined⟩

/-- One record, which arrives in two pieces and is taken. -/
theorem one_in_two : ∃ s, Run (Where Step Proper) (init 0 [] 0)
    [.setSendMsg Machine.one_two_three, .sendMsg (.accepted 7),
      .parse [40, 49, 32, 50] [32, 51, 41] (CInt.clamp 0) (CInt.clamp 0),
      .parse [32, 51, 41] [] (CInt.clamp 0) (CInt.clamp 0), .take] s ∧
      s.wire = [] ∧ s.socket.unsent = [] ∧ s.machine.flowsFinishedInfo = [] ∧ s.sent = [Machine.one_two_three] := by
  let start := init 0 [] 0
  let queued : CompletionLink := { start with
    socket := (start.socket.setSendMsg Machine.one_two_three.print).socket, sent := [Machine.one_two_three] }
  let sent : CompletionLink := { queued with
    socket := (queued.socket.sendMsg (.accepted 7)).socket, wire := [40, 49, 32, 50, 32, 51, 41] }
  have put : Step start (.setSendMsg Machine.one_two_three) queued := .setSendMsg _
  have send : Step queued (.sendMsg (.accepted 7)) sent := .sendMsg (.accepted 7)
  have room : 0 + Machine.one_two_three.print.length ≠ MAX_SEND_BUFFER_SIZE := by decide
  have proper : queued.Proper (.sendMsg (.accepted 7)) := by
    rintro ⟨count, same, -, below⟩
    cases same
    exact absurd below (by decide)
  have flushed : sent.socket.unsent = [] := by decide +kernel
  have before : start.machine.Carries (carry lparen rparen []) := Machine.create_carries 0 [] 0
  have cut : Cut lparen rparen ([Machine.one_two_three].map FlowEndInfo.body) [] (sent.wire ++ []) :=
    Cut.nil.put (clean_body Machine.one_two_three)
  have fore : Machine.InStream [] [40, 49, 32, 50] [32, 51, 41] := inStream_of_cut cut (by decide) (by decide)
  have split : Cut lparen rparen ([Machine.one_two_three].map FlowEndInfo.body) []
      ([40, 49, 32, 50] ++ ([32, 51, 41] ++ [])) := cut
  have aft : Machine.InStream ([] ++ [40, 49, 32, 50]) [32, 51, 41] [] :=
    inStream_of_cut split.read (by decide) (by decide)
  have unset : ∀ chunk : List Byte, rparen ∉ chunk → (CInt.clamp 0).val ≤ 0 := fun _ _ => by decide
  obtain ⟨half, first, halfway, none_yet⟩ := before.parse fore (CInt.clamp 0) (unset _)
  obtain ⟨machine, second, -, queue⟩ := halfway.parse aft (CInt.clamp 0) (unset _)
  have one : machine.flowsFinishedInfo = [Machine.one_two_three] := by
    rw [queue, none_yet]
    decide
  have taken : machine.getOneFlowEndInfo = some (Machine.one_two_three, { machine with flowsFinishedInfo := [] }) := by
    rw [Machine.getOneFlowEndInfo, one]
  exact ⟨_, ((((Run.start.next ⟨room, put⟩).next ⟨proper, send⟩).next
    ⟨unset _, .parse rfl (by decide) first⟩).next ⟨unset _, .parse rfl (by decide) second⟩).next
    ⟨trivial, .take taken⟩, rfl, flushed, rfl, rfl⟩

theorem completions_refine_fifo_one : ∃ s, Run (Where Step Proper) (init 0 [] 0)
    [.setSendMsg Machine.one_two_three, .sendMsg (.accepted 7),
      .parse [40, 49, 32, 50] [32, 51, 41] (CInt.clamp 0) (CInt.clamp 0),
      .parse [32, 51, 41] [] (CInt.clamp 0) (CInt.clamp 0), .take] s ∧ s.taken = [Machine.one_two_three] := by
  obtain ⟨s, run, arrived, flushed, drained, sent⟩ := one_in_two
  exact ⟨s, run, ((completions_refine_fifo run).2.2.2 arrived flushed drained).trans sent⟩

end CompletionLink

end CoflowSim
