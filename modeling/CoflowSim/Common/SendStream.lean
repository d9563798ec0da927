import CoflowSim.Common.SocketManage
import CoflowSim.Lib.Run

namespace CoflowSim
open Lib

namespace SocketManage

/-- The kernel takes some of the bytes it is offered, but not all of them. -/
def Short (s : SocketManage) (kernel : SendOutcome) : Prop :=
  ∃ count, kernel = .accepted count ∧ 0 < count ∧ count < s.sendBufSize

theorem setSendMsg_bounded {s : SocketManage} (bounded : s.SendBounded) (msg : List Byte) :
    (s.setSendMsg msg).socket.SendBounded := by
  rcases s.setSendMsg_cases msg with ⟨room, -, -, size, -⟩ | ⟨-, refused⟩
  · rwa [SendBounded, size]
  · rwa [refused]

theorem sendMsg_bounded {s : SocketManage} (bounded : s.SendBounded) (kernel : SendOutcome) :
    (s.sendMsg kernel).socket.SendBounded := by
  rcases s.sendMsg_cases kernel with ⟨count, -, -, -, emptied⟩ | ⟨kept, -⟩
  · rw [emptied]
    exact Nat.zero_le _
  · rwa [kept]

/-- Behind a send that is not short, what the kernel has taken and what is left
are what was there before. -/
theorem taken_append_unsent {s : SocketManage} {kernel : SendOutcome} (bounded : s.SendBounded)
    (whole : ¬ s.Short kernel) : s.taken kernel ++ (s.sendMsg kernel).socket.unsent = s.unsent := by
  have length := unsent_length bounded
  rcases s.sendMsg_cases kernel with ⟨count, rfl, -, full, emptied⟩ | ⟨kept, -, partly⟩
  · rw [emptied, initSendBuf_unsent, List.append_nil, taken, List.take_of_length_le (by omega)]
  · have none_taken : s.taken kernel = [] := by
      cases kernel with
      | eagain => rfl
      | failed => rfl
      | accepted count =>
        have nothing : count = 0 ∨ s.sendBufSize = 0 := by
          by_contra other
          exact whole ⟨count, rfl, by omega, (partly count rfl).resolve_right (by omega)⟩
        rw [taken, ← List.length_eq_zero_iff, List.length_take]
        omega
    rw [kept, none_taken, List.nil_append]

end SocketManage

/-- The send side of one connection: the socket, the bytes its kernel has
taken so far, and the messages for which `setSendMsg` has returned true. -/
structure SendStream where
  socket : SocketManage
  accepted : List Byte
  appended : List Byte

inductive SendAction
  | setSendMsg (msg : List Byte)
  | sendMsg (kernel : SendOutcome)

namespace SendStream

def init : SendStream := ⟨.initSocket, [], []⟩

def act (s : SendStream) : SendAction → SendStream
  | .setSendMsg msg =>
    let call := s.socket.setSendMsg msg
    { s with
      socket := call.socket
      appended := s.appended ++ if call.result then msg else [] }
  | .sendMsg kernel =>
    { s with
      socket := (s.socket.sendMsg kernel).socket
      accepted := s.accepted ++ s.socket.taken kernel }

def Step (s : SendStream) (a : SendAction) (t : SendStream) : Prop := t = s.act a

/-- The stream equation: what the kernel has taken, followed by what the
buffer still holds, is exactly what was appended. -/
def Faithful (s : SendStream) : Prop := s.accepted ++ s.socket.unsent = s.appended

def ShortSend (s : SendStream) (a : SendAction) : Prop := ∃ kernel, a = .sendMsg kernel ∧ s.socket.Short kernel

def NoShortSend (s : SendStream) (a : SendAction) : Prop := ¬ s.ShortSend a

theorem act_bounded {s : SendStream} (a : SendAction) (bounded : s.socket.SendBounded) :
    (s.act a).socket.SendBounded := by
  cases a with
  | setSendMsg msg => exact SocketManage.setSendMsg_bounded bounded msg
  | sendMsg kernel => exact SocketManage.sendMsg_bounded bounded kernel

/-- Appending never breaks the stream equation, whether it is accepted or
refused. -/
theorem faithful_setSendMsg {s : SendStream} (msg : List Byte) (faithful : s.Faithful) :
    (s.act (.setSendMsg msg)).Faithful := by
  unfold Faithful at faithful ⊢
  rcases s.socket.setSendMsg_cases msg with ⟨-, result, -, -, unsent⟩ | ⟨-, refused⟩
  · simp only [act, unsent, result, if_true]
    rw [← List.append_assoc, faithful]
  · simpa [act, refused] using faithful

/-- A send keeps the stream equation when the kernel takes all it is offered
or none of it. -/
theorem faithful_sendMsg {s : SendStream} {kernel : SendOutcome} (bounded : s.socket.SendBounded)
    (allowed : s.NoShortSend (.sendMsg kernel)) (faithful : s.Faithful) :
    (s.act (.sendMsg kernel)).Faithful := by
  have whole := SocketManage.taken_append_unsent bounded fun short => allowed ⟨kernel, rfl, short⟩
  unfold Faithful at faithful ⊢
  rw [act, List.append_assoc, whole, faithful]

/-- More bytes are accounted for, as taken or as still to send, than were ever
appended. -/
def Replays (s : SendStream) : Prop :=
  s.socket.SendBounded ∧ s.appended.length < s.accepted.length + s.socket.sendBufSize

theorem Replays.not_faithful {s : SendStream} (replays : s.Replays) : ¬ s.Faithful := by
  intro faithful
  have length := congrArg List.length faithful
  rw [List.length_append, SocketManage.unsent_length replays.1] at length
  have := replays.2
  omega

/-- A short send leaves the bytes it took in the buffer as well. -/
theorem replays_shortSend {s : SendStream} {a : SendAction} (bounded : s.socket.SendBounded)
    (faithful : s.Faithful) (short : s.ShortSend a) : (s.act a).Replays := by
  obtain ⟨_, rfl, count, rfl, positive, below⟩ := short
  refine ⟨act_bounded _ bounded, ?_⟩
  have length := congrArg List.length faithful
  have unsent := SocketManage.unsent_length bounded
  rw [List.length_append, unsent] at length
  rcases s.socket.sendMsg_cases (.accepted count) with ⟨other, same, -, full, -⟩ | ⟨kept, -⟩
  · cases same
    omega
  · simp only [act, kept, SocketManage.taken, List.length_append, List.length_take, unsent]
    omega

/-- Nothing the program does later takes a replayed byte back. -/
theorem Replays.act {s : SendStream} (replays : s.Replays) (a : SendAction) : (s.act a).Replays := by
  obtain ⟨bounded, excess⟩ := replays
  refine ⟨act_bounded a bounded, ?_⟩
  cases a with
  | setSendMsg msg =>
    rcases s.socket.setSendMsg_cases msg with ⟨-, result, -, size, -⟩ | ⟨-, refused⟩
    · simp only [SendStream.act, result, size, if_true, List.length_append]
      omega
    · simpa [SendStream.act, refused] using excess
  | sendMsg kernel =>
    have unsent := SocketManage.unsent_length bounded
    rcases s.socket.sendMsg_cases kernel with ⟨count, rfl, -, full, emptied⟩ | ⟨kept, -⟩
    · simp only [SendStream.act, emptied, SocketManage.taken, SocketManage.initSendBuf_size,
        List.length_append, List.length_take, unsent]
      omega
    · simp only [SendStream.act, kept, List.length_append]
      omega

theorem init_bounded : init.socket.SendBounded := Nat.zero_le _

theorem init_faithful : init.Faithful := by simp [Faithful, init, SocketManage.unsent, SocketManage.initSocket]

/-- On every run without a short send the stream equation holds, at the end
and so at every point. -/
theorem faithful_of_no_shortSend {acts : List SendAction} {t : SendStream}
    (run : Run (Where Step NoShortSend) init acts t) : t.socket.SendBounded ∧ t.Faithful := by
  refine run.invariant (I := fun s => s.socket.SendBounded ∧ s.Faithful) ⟨init_bounded, init_faithful⟩ ?_
  rintro s a t ⟨bounded, faithful⟩ ⟨allowed, rfl⟩
  refine ⟨act_bounded a bounded, ?_⟩
  cases a with
  | setSendMsg msg => exact faithful_setSendMsg msg faithful
  | sendMsg kernel => exact faithful_sendMsg bounded allowed faithful

/-- The send side keeps the byte stream exactly as long as no `send` has been
short: the first short send breaks the equation for good. -/
theorem faithful_iff_no_shortSend {acts : List SendAction} {t : SendStream} (run : Run Step init acts t) :
    t.Faithful ↔ Run (Where Step NoShortSend) init acts t := by
  constructor
  · intro faithful
    rcases run.guarded_or_breaks NoShortSend with clean |
      ⟨before, a, after, s, s', -, clean, broken, rfl, rest⟩
    · exact clean
    · obtain ⟨bounded, sound⟩ := faithful_of_no_shortSend clean
      have replays : t.Replays := by
        refine rest.invariant (replays_shortSend bounded sound (not_not.mp broken)) ?_
        rintro u b _ replays rfl
        exact replays.act b
      exact absurd faithful replays.not_faithful
  · exact fun clean => (faithful_of_no_shortSend clean).2

/-- Two bytes appended and taken in one send. -/
theorem faithful_iff_no_shortSend_full :
    ((init.act (.setSendMsg [97, 98])).act (.sendMsg (.accepted 2))).Faithful ↔
      Run (Where Step NoShortSend) init [.setSendMsg [97, 98], .sendMsg (.accepted 2)]
        ((init.act (.setSendMsg [97, 98])).act (.sendMsg (.accepted 2))) :=
  faithful_iff_no_shortSend ((Run.start.next rfl).next rfl)

/-- The kernel takes the first of two bytes: both stay in the buffer. -/
theorem shortSend_replays_prefix :
    ¬ ∀ (acts : List SendAction) (t : SendStream), Run Step init acts t → t.Faithful := by
  intro always
  let queued := init.act (.setSendMsg [97, 98])
  have faithful : queued.Faithful := faithful_setSendMsg _ init_faithful
  have short : queued.ShortSend (.sendMsg (.accepted 1)) := ⟨_, rfl, 1, rfl, by decide, by decide⟩
  have replays := replays_shortSend (act_bounded _ init_bounded) faithful short
  exact replays.not_faithful
    (always [.setSendMsg [97, 98], .sendMsg (.accepted 1)] _ ((Run.start.next rfl).next rfl))

end SendStream

end CoflowSim
