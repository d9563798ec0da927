import CoflowSim.Client.InstructionStream
import CoflowSim.Common.SendStream
import CoflowSim.Lib.Channel

namespace CoflowSim
open Lib Lib.Framing

/-- The way of the instructions from the master to a client: the master's side
of the connection, the bytes that its kernel has taken and the client has not
received, and the client's event loop. `instructions` are what stands between
the brackets of the frames that `setSendMsg` has taken. -/
structure InstructionLink where
  socket : SocketManage
  wire : List Byte
  loop : EventLoop
  instructions : List (List Byte)

inductive InstructionAction
  | setSendMsg (ins : List Byte)
  | sendMsg (kernel : SendOutcome)
  | pass (chunk rest : List Byte)

namespace InstructionLink

def init : InstructionLink := ⟨.initSocket, [], .init, []⟩

/-- A pass receives any beginning of what is under way that one `recv` can
return. -/
inductive Step : InstructionLink → InstructionAction → InstructionLink → Prop
  | setSendMsg {s} (ins : List Byte) : Step s (.setSendMsg ins) { s with
      socket := (s.socket.setSendMsg (wrap lparen rparen ins)).socket
      instructions := s.instructions ++ if (s.socket.setSendMsg (wrap lparen rparen ins)).result then [ins] else [] }
  | sendMsg {s} (kernel : SendOutcome) : Step s (.sendMsg kernel) { s with
      socket := (s.socket.sendMsg kernel).socket, wire := s.wire ++ s.socket.taken kernel }
  | pass {s chunk rest} (arrives : s.wire = chunk ++ rest) (fits : chunk.length ≤ MAX_RECV_BUFFER_SIZE) :
      Step s (.pass chunk rest) { s with wire := rest, loop := s.loop.pass (RecvOutcome.ofChunk chunk) }

/-- An instruction has no brackets inside and fits the frames of the client, and
does not fill the send buffer to its last byte; a send is not short. -/
def Proper (s : InstructionLink) : InstructionAction → Prop
  | .setSendMsg ins => (∀ b ∈ ins, b ≠ lparen ∧ b ≠ rparen) ∧ ins.length ≤ EventLoop.INS_MAX ∧
      s.socket.sendBufSize + (wrap lparen rparen ins).length ≠ MAX_SEND_BUFFER_SIZE
  | .sendMsg kernel => ¬ s.socket.Short kernel
  | .pass _ _ => True

/-- The two ends of the link, as those of a FIFO channel. -/
def channel (s : InstructionLink) : Fifo (List Byte) := ⟨s.instructions, s.loop.appended⟩

/-- The client has consumed a part of the stream of the instructions, and the
rest is under way or in the send buffer. -/
structure Sound (s : InstructionLink) : Prop where
  bounded : s.socket.SendBounded
  lengths : ∀ ins ∈ s.instructions, ins.length ≤ EventLoop.INS_MAX
  stream : ∃ text, s.loop.Consumed text ∧ Cut lparen rparen s.instructions text (s.wire ++ s.socket.unsent)

theorem sound_init : init.Sound :=
  ⟨SendStream.init_bounded, nofun, [], EventLoop.init_consumed, Cut.nil⟩

variable {s t : InstructionLink} {a : InstructionAction}

theorem Sound.inOrder (sound : s.Sound) : s.channel.InOrder := by
  obtain ⟨text, consumed, cut⟩ := sound.stream
  refine ⟨frames lparen rparen text (s.wire ++ s.socket.unsent), ?_⟩
  rw [channel, consumed.calls]
  exact cut.frames_eq lparen_ne_rparen

/-- With nothing left in the send buffer or under way, all has been decoded. -/
theorem Sound.all_decoded (sound : s.Sound) (arrived : s.wire = []) (sent : s.socket.unsent = []) :
    s.loop.appended = s.instructions := by
  obtain ⟨text, consumed, cut⟩ := sound.stream
  rw [arrived, sent] at cut
  rw [consumed.calls]
  exact cut.all_read lparen_ne_rparen

theorem Sound.pass {chunk rest : List Byte} (sound : s.Sound) (arrives : s.wire = chunk ++ rest)
    (fits : chunk.length ≤ MAX_RECV_BUFFER_SIZE) :
    Sound { s with wire := rest, loop := s.loop.pass (RecvOutcome.ofChunk chunk) } ∧
      ∃ more, (s.loop.pass (RecvOutcome.ofChunk chunk)).appended = s.loop.appended ++ more := by
  obtain ⟨bounded, lengths, text, consumed, cut⟩ := sound
  rw [arrives, List.append_assoc] at cut
  have next := cut.read
  have short := cut.short lparen_ne_rparen lengths
  have room := EventLoop.carried_room short fits
  have passed := consumed.pass fits (by omega) (next.closes lparen_ne_rparen)
  refine ⟨⟨bounded, lengths, _, passed, next⟩, frames lparen rparen text chunk, ?_⟩
  rw [passed.calls, consumed.calls, frames_append, List.nil_append]

/-- Each step of the link is a step of the channel at one of its ends, or none. -/
theorem Sound.step (sound : s.Sound) (proper : s.Proper a) (step : Step s a t) :
    t.Sound ∧ Relation.ReflTransGen Fifo.Step s.channel t.channel := by
  cases step with
  | setSendMsg ins =>
    obtain ⟨bounded, lengths, text, consumed, cut⟩ := sound
    obtain ⟨clean, length, -⟩ := proper
    have bounded' := SocketManage.setSendMsg_bounded bounded (wrap lparen rparen ins)
    rcases s.socket.setSendMsg_cases (wrap lparen rparen ins) with ⟨-, result, -, -, unsent⟩ | ⟨-, refused⟩
    · rw [result, if_pos rfl]
      refine ⟨⟨bounded', ?_, text, consumed, ?_⟩, .single (.put ins)⟩
      · intro other member
        rcases List.mem_append.mp member with old | new
        · exact lengths other old
        · rwa [List.mem_singleton.mp new]
      · have put := cut.put clean
        dsimp only
        rwa [unsent, ← List.append_assoc]
    · rw [refused]
      simp only [Bool.false_eq_true, if_false, List.append_nil]
      exact ⟨⟨bounded, lengths, text, consumed, cut⟩, .refl⟩
  | sendMsg kernel =>
    obtain ⟨bounded, lengths, text, consumed, cut⟩ := sound
    refine ⟨⟨SocketManage.sendMsg_bounded bounded kernel, lengths, text, consumed, ?_⟩, .refl⟩
    rwa [List.append_assoc, SocketManage.taken_append_unsent bounded proper]
  | pass arrives fits =>
    obtain ⟨next, more, grown⟩ := sound.pass arrives fits
    have order := next.inOrder
    refine ⟨next, ?_⟩
    simp only [channel, Fifo.InOrder, grown] at order ⊢
    exact Fifo.gets (c := s.channel) order

/-- The link is a FIFO channel: however the kernels cut the stream and whatever
the send buffer refuses, the client decodes the instructions that were taken,
each once and in order, without leaving its buffer; and all of them once
nothing is under way. -/
theorem instructions_refine_fifo {acts : List InstructionAction} (run : Run (Where Step Proper) init acts s) :
    Relation.ReflTransGen Fifo.Step Fifo.empty s.channel ∧ s.channel.InOrder ∧ s.loop.recvbuf.overrun = false ∧
      (s.wire = [] → s.socket.unsent = [] → s.loop.appended = s.instructions) := by
  obtain ⟨sound, steps⟩ := run.refines (I := Sound) sound_init fun s a t sound taken => sound.step taken.1 taken.2
  obtain ⟨_, consumed, -⟩ := sound.stream
  exact ⟨steps, sound.inOrder, consumed.inBounds, sound.all_decoded⟩

/-- One instruction of one byte, which arrives in two pieces. -/
theorem one_in_two : ∃ s, Run (Where Step Proper) init
    [.setSendMsg [49], .sendMsg (.accepted 3), .pass [40] [49, 41], .pass [49, 41] []] s ∧
      s.wire = [] ∧ s.socket.unsent = [] ∧ s.instructions = [[49]] := by
  let queued : InstructionLink :=
    { init with socket := (init.socket.setSendMsg (wrap lparen rparen [49])).socket, instructions := [[49]] }
  let sent : InstructionLink :=
    { queued with socket := (queued.socket.sendMsg (.accepted 3)).socket, wire := [40, 49, 41] }
  have put : Step init (.setSendMsg [49]) queued := .setSendMsg [49]
  have send : Step queued (.sendMsg (.accepted 3)) sent := .sendMsg (.accepted 3)
  have one : Step sent (.pass [40] [49, 41]) _ := .pass rfl (by decide)
  have clean : ∀ b ∈ ([49] : List Byte), b ≠ lparen ∧ b ≠ rparen := List.forall_mem_singleton.mpr (by decide)
  have room : 0 + (wrap lparen rparen [49]).length ≠ MAX_SEND_BUFFER_SIZE := by decide
  have proper : queued.Proper (.sendMsg (.accepted 3)) := by
    rintro ⟨count, same, -, below⟩
    cases same
    exact absurd below (by decide)
  exact ⟨_, (((Run.start.next ⟨⟨clean, by decide, room⟩, put⟩).next ⟨proper, send⟩).next
    ⟨trivial, one⟩).next ⟨trivial, .pass rfl (by decide)⟩, rfl, by decide +kernel, rfl⟩

theorem instructions_refine_fifo_one : ∃ s, Run (Where Step Proper) init
    [.setSendMsg [49], .sendMsg (.accepted 3), .pass [40] [49, 41], .pass [49, 41] []] s ∧
      s.loop.appended = [[49]] := by
  obtain ⟨s, run, arrived, sent, instructions⟩ := one_in_two
  exact ⟨s, run, ((instructions_refine_fifo run).2.2.2 arrived sent).trans instructions⟩

end InstructionLink

end CoflowSim
