import CoflowSim.Client.SendManager
import CoflowSim.Common.SendStream

namespace CoflowSim
open Lib

namespace SocketManage

/-- `while (!masterSockManger->setSendMsg(...));`, as far as `n` calls lead.
Between them nobody touches the send buffer. -/
def replyLoop (s : SocketManage) (reply : List Byte) : Nat → Option SocketManage
  | 0 => none
  | calls + 1 =>
    let call := s.setSendMsg reply
    if call.result then some call.socket else call.socket.replyLoop reply calls

def ReplyEnds (s : SocketManage) (reply : List Byte) : Prop := ∃ calls t, s.replyLoop reply calls = some t

/-- A reply that fits is taken by the first call. -/
theorem replyLoop_accepted {s : SocketManage} {reply : List Byte}
    (room : s.sendBufSize + reply.length ≤ MAX_SEND_BUFFER_SIZE) : s.ReplyEnds reply := by
  rcases s.setSendMsg_cases reply with ⟨-, accepted, -⟩ | ⟨full, -⟩
  · exact ⟨1, (s.setSendMsg reply).socket, if_pos accepted⟩
  · exact absurd full (Nat.not_lt.mpr room)

/-- One that does not is refused by every call, each of which leaves the buffer
as it is. -/
theorem replyLoop_refused {s : SocketManage} {reply : List Byte}
    (full : MAX_SEND_BUFFER_SIZE < s.sendBufSize + reply.length) (calls : Nat) : s.replyLoop reply calls = none := by
  rcases s.setSendMsg_cases reply with ⟨room, -⟩ | ⟨-, refused⟩
  · exact absurd full (Nat.not_lt.mpr room)
  · induction calls with
    | zero => rfl
    | succ calls ih =>
      rw [replyLoop, refused]
      exact ih

theorem replyEnds_iff (s : SocketManage) (reply : List Byte) :
    s.ReplyEnds reply ↔ s.sendBufSize + reply.length ≤ MAX_SEND_BUFFER_SIZE := by
  constructor
  · rintro ⟨calls, t, ended⟩
    by_contra full
    rw [replyLoop_refused (Nat.lt_of_not_le full) calls] at ended
    cases ended
  · exact replyLoop_accepted

end SocketManage

namespace SendStream

/-- What a call makes of the number of bytes that wait in the send buffer. -/
def waitingAfter (fill : Nat) : SendAction → Nat
  | .setSendMsg msg => if fill + msg.length ≤ MAX_SEND_BUFFER_SIZE then fill + msg.length else fill
  | .sendMsg (.accepted count) => if fill ≤ count then 0 else fill
  | .sendMsg .eagain => fill
  | .sendMsg .failed => fill

/-- The bytes that wait, by the calls that were made: those of the messages
that fitted, since the last send that took everything. -/
def waiting (acts : List SendAction) : Nat := acts.foldl waitingAfter 0

theorem waiting_snoc (acts : List SendAction) (a : SendAction) :
    waiting (acts ++ [a]) = waitingAfter (waiting acts) a := by
  rw [waiting, List.foldl_append]
  rfl

theorem sendBufSize_act (s : SendStream) (a : SendAction) :
    (s.act a).socket.sendBufSize = waitingAfter s.socket.sendBufSize a := by
  rcases a with msg | kernel
  · rcases s.socket.setSendMsg_cases msg with ⟨room, -, -, size, -⟩ | ⟨full, refused⟩
    · simp only [act, size, waitingAfter, room, if_true]
    · simp only [act, refused, waitingAfter, Nat.not_le.mpr full, if_false]
  · rcases s.socket.sendMsg_cases kernel with ⟨count, rfl, -, full, emptied⟩ | ⟨kept, -, partly⟩
    · simp only [act, emptied, SocketManage.initSendBuf_size, waitingAfter, full, if_true]
    · cases kernel with
      | accepted count =>
        simp only [act, kept, waitingAfter]
        rcases partly count rfl with short | empty
        · simp only [Nat.not_le.mpr short, if_false]
        · simp only [empty, Nat.zero_le, if_true]
      | eagain => simp only [act, kept, waitingAfter]
      | failed => simp only [act, kept, waitingAfter]

theorem sendBufSize_eq_waiting {acts : List SendAction} {s : SendStream} (run : Run Step init acts s) :
    s.socket.sendBufSize = waiting acts := by
  induction run with
  | start => rfl
  | next _ last ih =>
    cases last
    rw [sendBufSize_act, waiting_snoc, ih]

/-- The calls of a history, one after the other. -/
theorem run_acts (acts : List SendAction) : Run Step init acts (acts.foldl act init) := by
  induction acts using List.reverseRecOn with
  | nil => exact .start
  | append_singleton acts a ih =>
    rw [List.foldl_append]
    exact ih.next rfl

/-- The loop ends if and only if the reply fits behind what still waits. -/
theorem reply_ends_iff {acts : List SendAction} {s : SendStream} (run : Run Step init acts s) (task : SendTask) :
    s.socket.ReplyEnds task.reply ↔ waiting acts + task.reply.length ≤ MAX_SEND_BUFFER_SIZE := by
  rw [s.socket.replyEnds_iff, sendBufSize_eq_waiting run]

def zeroTask : SendTask := ⟨CInt.zero, CInt.zero, .ended, 7, .signalled⟩

theorem reply_ends_iff_first :
    init.socket.ReplyEnds zeroTask.reply ↔ waiting [] + zeroTask.reply.length ≤ MAX_SEND_BUFFER_SIZE :=
  reply_ends_iff .start zeroTask

/-- Replies of seven bytes, each followed by a send that gets `EAGAIN`. -/
def unsentReplies : Nat → List SendAction
  | 0 => []
  | replies + 1 => unsentReplies replies ++ [.setSendMsg zeroTask.reply] ++ [.sendMsg .eagain]

theorem waiting_unsentReplies {replies : Nat} (fits : 7 * replies ≤ MAX_SEND_BUFFER_SIZE) :
    waiting (unsentReplies replies) = 7 * replies := by
  induction replies with
  | zero => rfl
  | succ replies ih =>
    have width : zeroTask.reply.length = 7 := by decide
    have before := ih (by omega)
    have room : 7 * replies + zeroTask.reply.length ≤ MAX_SEND_BUFFER_SIZE := by omega
    rw [unsentReplies, waiting_snoc, waiting_snoc, before, waitingAfter, waitingAfter, if_pos room, width]
    omega

/-- The 147th of them fits no more. -/
theorem unsent_replies_block :
    ¬ ∀ (acts : List SendAction) (s : SendStream), Run Step init acts s →
      ∀ task : SendTask, s.socket.ReplyEnds task.reply := by
  intro always
  have run := run_acts (unsentReplies 146)
  have ended := always _ _ run zeroTask
  rw [SocketManage.replyEnds_iff, sendBufSize_eq_waiting run,
    waiting_unsentReplies (show 7 * 146 ≤ MAX_SEND_BUFFER_SIZE by decide)] at ended
  exact absurd ended (by decide)

end SendStream

end CoflowSim
