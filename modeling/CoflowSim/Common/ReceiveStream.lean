import CoflowSim.Common.SocketManage
import CoflowSim.Lib.Run

namespace CoflowSim
open Lib

/-- A call of `recv` by the loop of `receiveMessage`: `m_recvIdx` when it is
made, and the bytes it returns. -/
structure RecvCall where
  recvIdx : Nat
  bytes : List Byte

namespace SocketManage

/-- The `recv` calls of the loop. -/
def loopCalls (s : SocketManage) : List RecvOutcome → List RecvCall
  | [] => [⟨s.recvIdx, []⟩]
  | .eagain :: _ => [⟨s.recvIdx, []⟩]
  | .failed :: _ => [⟨s.recvIdx, []⟩]
  | .eof :: _ => [⟨s.recvIdx, []⟩]
  | .data bytes :: rest =>
    let read := bytes.take (MAX_RECV_BUFFER_SIZE - s.recvIdx)
    ⟨s.recvIdx, read⟩ ::
      if read.isEmpty then []
      else
        let s := { s with
          recvBuf := s.recvBuf.storeAll s.recvIdx read
          recvIdx := s.recvIdx + read.length }
        if MSG_LEN ≤ s.recvIdx then [] else s.loopCalls rest

def recvCalls (s : SocketManage) (kernel : List RecvOutcome) : List RecvCall :=
  if MAX_RECV_BUFFER_SIZE < s.recvIdx then [] else s.loopCalls kernel

/-- The bytes that the `recv` calls of one `recvMsg` return. -/
def returned (s : SocketManage) (kernel : List RecvOutcome) : List Byte := (s.recvCalls kernel).flatMap RecvCall.bytes

/-- The fill index of the receive buffer never exceeds its capacity. -/
def RecvBounded (s : SocketManage) : Prop := s.recvIdx ≤ MAX_RECV_BUFFER_SIZE

theorem received_length {s : SocketManage} (bounded : s.RecvBounded) : s.received.length = s.recvIdx :=
  s.recvBuf.slice_length bounded

/-- One `recv` that returns data. -/
theorem receive_one {s : SocketManage} (bounded : s.RecvBounded) (bytes : List Byte) :
    let read := bytes.take (MAX_RECV_BUFFER_SIZE - s.recvIdx)
    let t : SocketManage := { s with
      recvBuf := s.recvBuf.storeAll s.recvIdx read
      recvIdx := s.recvIdx + read.length }
    t.RecvBounded ∧ t.received = s.received ++ read ∧ t.recvBuf.overrun = s.recvBuf.overrun := by
  intro read t
  have room : s.recvIdx + read.length ≤ MAX_RECV_BUFFER_SIZE := by
    have cut : read.length ≤ MAX_RECV_BUFFER_SIZE - s.recvIdx := List.length_take_le _ _
    unfold RecvBounded at bounded
    omega
  exact ⟨room, s.recvBuf.slice_storeAll read (Nat.zero_le _) room, s.recvBuf.overrun_storeAll read room⟩

/-- The loop, whichever of its exits it takes: what it has read stands behind
what there was. -/
theorem receiveLoop_spec {s : SocketManage} (bounded : s.RecvBounded) (kernel : List RecvOutcome) :
    (s.receiveLoop kernel).1.RecvBounded ∧
      (s.receiveLoop kernel).1.received = s.received ++ (s.loopCalls kernel).flatMap RecvCall.bytes ∧
      (s.receiveLoop kernel).1.recvBuf.overrun = s.recvBuf.overrun ∧
      ∀ call ∈ s.loopCalls kernel, call.recvIdx ≤ MAX_RECV_BUFFER_SIZE := by
  induction kernel generalizing s with
  | nil => exact ⟨bounded, by simp [receiveLoop, loopCalls], rfl, List.forall_mem_singleton.mpr bounded⟩
  | cons outcome rest ih =>
    cases outcome with
    | eagain => exact ⟨bounded, by simp [receiveLoop, loopCalls], rfl, List.forall_mem_singleton.mpr bounded⟩
    | failed => exact ⟨bounded, by simp [receiveLoop, loopCalls], rfl, List.forall_mem_singleton.mpr bounded⟩
    | eof => exact ⟨bounded, by simp [receiveLoop, loopCalls], rfl, List.forall_mem_singleton.mpr bounded⟩
    | data bytes =>
      obtain ⟨bounded', stored, within⟩ := receive_one bounded bytes
      simp only [receiveLoop, loopCalls]
      split
      · rename_i nothing
        rw [List.isEmpty_iff.mp nothing]
        exact ⟨bounded, by simp, rfl, List.forall_mem_singleton.mpr bounded⟩
      · split
        · refine ⟨bounded', ?_, within, List.forall_mem_singleton.mpr bounded⟩
          rw [stored, List.flatMap_singleton]
        · obtain ⟨last, content, overrun, calls⟩ := ih bounded'
          refine ⟨last, ?_, overrun.trans within, List.forall_mem_cons.mpr ⟨bounded, calls⟩⟩
          rw [content, stored, List.append_assoc, List.flatMap_cons]

theorem recvMsg_spec {s : SocketManage} (bounded : s.RecvBounded) (kernel : List RecvOutcome) :
    (s.recvMsg kernel).RecvBounded ∧ (s.recvMsg kernel).received = s.received ++ s.returned kernel ∧
      (s.recvMsg kernel).recvBuf.overrun = s.recvBuf.overrun ∧
      ∀ call ∈ s.recvCalls kernel, call.recvIdx ≤ MAX_RECV_BUFFER_SIZE := by
  have inRange : ¬ MAX_RECV_BUFFER_SIZE < s.recvIdx := Nat.not_lt.mpr bounded
  simp only [recvMsg, receiveMessage, returned, recvCalls, inRange, if_false]
  exact receiveLoop_spec bounded kernel

/-- Every `recv` that does not end the loop brings it nearer to `MSG_LEN`: so
few of them are made, whatever they return. -/
theorem loopCalls_length (s : SocketManage) (kernel : List RecvOutcome) :
    (s.loopCalls kernel).length ≤ max 1 (MSG_LEN - s.recvIdx) := by
  induction kernel generalizing s with
  | nil => exact Nat.le_max_left _ _
  | cons outcome rest ih =>
    cases outcome with
    | eagain => exact Nat.le_max_left _ _
    | failed => exact Nat.le_max_left _ _
    | eof => exact Nat.le_max_left _ _
    | data bytes =>
      simp only [loopCalls, List.length_cons]
      split
      · exact Nat.le_max_left _ _
      · rename_i something
        have progress := List.length_pos_iff.mpr (mt List.isEmpty_iff.mpr something)
        split
        · exact Nat.le_max_left _ _
        · rename_i more
          refine (Nat.succ_le_succ (ih _)).trans ?_
          dsimp only at more ⊢
          omega

/-- What the kernel would return after that makes no difference. -/
theorem receiveLoop_ends (s : SocketManage) (kernel more : List RecvOutcome)
    (enough : max 1 (MSG_LEN - s.recvIdx) ≤ kernel.length) :
    s.receiveLoop (kernel ++ more) = s.receiveLoop kernel := by
  induction kernel generalizing s with
  | nil => exact absurd ((Nat.le_max_left _ _).trans enough) (by simp)
  | cons outcome rest ih =>
    cases outcome with
    | eagain => rfl
    | failed => rfl
    | eof => rfl
    | data bytes =>
      simp only [List.cons_append, receiveLoop]
      split
      · rfl
      · rename_i something
        have progress := List.length_pos_iff.mpr (mt List.isEmpty_iff.mpr something)
        split
        · rfl
        · rename_i unfinished
          refine ih _ ?_
          simp only [List.length_cons] at enough
          dsimp only at unfinished ⊢
          omega

end SocketManage

/-- The receive side of one connection: the socket, the bytes that `recv` has
returned so far, and those that `getRecvBuf` has appended to its callers'
buffers. -/
structure ReceiveStream where
  socket : SocketManage
  returned : List Byte
  delivered : List Byte

inductive ReceiveAction
  | recvMsg (kernel : List RecvOutcome)
  | getRecvBuf {n : Nat} (buf : CArray Byte n) (buflen : Nat)

namespace ReceiveStream

def init : ReceiveStream := ⟨.initSocket, [], []⟩

def act (s : ReceiveStream) : ReceiveAction → ReceiveStream
  | .recvMsg kernel =>
    { s with
      socket := s.socket.recvMsg kernel
      returned := s.returned ++ s.socket.returned kernel }
  | .getRecvBuf buf buflen =>
    let (socket, buf, buflen') := s.socket.getRecvBuf buf buflen
    { s with
      socket := socket
      delivered := s.delivered ++ buf.slice buflen buflen' }

/-- The caller's buffer has room for what it is given, and for the NUL. -/
def Room (s : ReceiveStream) : ReceiveAction → Prop
  | .recvMsg _ => True
  | @ReceiveAction.getRecvBuf n _ buflen => buflen + s.socket.recvIdx < n

def Step (s : ReceiveStream) (a : ReceiveAction) (t : ReceiveStream) : Prop := s.Room a ∧ t = s.act a

/-- Nothing is lost: what the callers have been given and what the buffer holds
is what `recv` returned, in order. -/
structure Sound (s : ReceiveStream) : Prop where
  bounded : s.socket.RecvBounded
  lossless : s.delivered ++ s.socket.received = s.returned

/-- What holds besides of the next loop: no `recv` asks for more than there is
room for, and after at most `MSG_LEN` of them it has ended, whatever they
return and whatever would come. -/
structure Reads (s : ReceiveStream) (kernel : List RecvOutcome) : Prop where
  calls : ∀ call ∈ s.socket.recvCalls kernel, call.recvIdx ≤ MAX_RECV_BUFFER_SIZE
  few : (s.socket.recvCalls kernel).length ≤ MSG_LEN
  ends : MSG_LEN ≤ kernel.length →
    ∀ more, s.socket.receiveMessage (kernel ++ more) = s.socket.receiveMessage kernel

theorem init_sound : init.Sound := ⟨Nat.zero_le _, by simp [init, SocketManage.received, SocketManage.initSocket]⟩

theorem Sound.act {s : ReceiveStream} (sound : s.Sound) {a : ReceiveAction} (room : s.Room a) : (s.act a).Sound := by
  obtain ⟨bounded, lossless⟩ := sound
  cases a with
  | recvMsg kernel =>
    obtain ⟨bounded', content, -, -⟩ := SocketManage.recvMsg_spec bounded kernel
    refine ⟨bounded', ?_⟩
    rw [ReceiveStream.act, content, ← List.append_assoc, lossless]
  | getRecvBuf buf buflen =>
    obtain ⟨emptied, stored, -, length⟩ := s.socket.getRecvBuf_spec buf buflen bounded room
    have appended : (s.socket.getRecvBuf buf buflen).2.1.slice buflen (s.socket.getRecvBuf buf buflen).2.2 =
        s.socket.received := by
      have before : (buf.slice 0 buflen).length = buflen := by
        rw [buf.slice_length (Nat.le_of_lt (Nat.lt_of_le_of_lt (Nat.le_add_right _ _) room)), Nat.sub_zero]
      rw [length, CArray.slice_eq_drop, stored, List.drop_left' before]
    have left : (s.act (.getRecvBuf buf buflen)).socket.received = [] := by
      rw [SocketManage.received, show (s.act (.getRecvBuf buf buflen)).socket.recvIdx = 0 from emptied,
        CArray.slice_self]
    refine ⟨(Nat.le_of_eq emptied).trans (Nat.zero_le _), ?_⟩
    rw [left, List.append_nil, ReceiveStream.act]
    dsimp only
    rw [appended, lossless]

theorem sound_of_run {acts : List ReceiveAction} {t : ReceiveStream} (run : Run Step init acts t) : t.Sound := by
  refine run.invariant init_sound ?_
  rintro s a _ sound ⟨room, rfl⟩
  exact sound.act room

theorem Sound.reads {s : ReceiveStream} (sound : s.Sound) (kernel : List RecvOutcome) : s.Reads kernel := by
  have inRange : ¬ MAX_RECV_BUFFER_SIZE < s.socket.recvIdx := Nat.not_lt.mpr sound.bounded
  have most : max 1 (MSG_LEN - s.socket.recvIdx) ≤ MSG_LEN := max_le (by decide) (Nat.sub_le _ _)
  refine ⟨(SocketManage.recvMsg_spec sound.bounded kernel).2.2.2, ?_, fun long more => ?_⟩
  · simp only [SocketManage.recvCalls, inRange, if_false]
    exact (s.socket.loopCalls_length kernel).trans most
  · simp only [SocketManage.receiveMessage, inRange, if_false]
    exact s.socket.receiveLoop_ends kernel more (most.trans long)

/-- At every point of every run the receive side has lost nothing, and its next
loop will end. -/
theorem loses_nothing {acts : List ReceiveAction} {t : ReceiveStream} (run : Run Step init acts t) :
    t.delivered ++ t.socket.received = t.returned ∧ t.socket.recvIdx ≤ MAX_RECV_BUFFER_SIZE ∧
      ∀ kernel, t.Reads kernel :=
  have sound := sound_of_run run
  ⟨sound.lossless, sound.bounded, sound.reads⟩

/-- Two bytes, then an error, and a hand-over. -/
def handedOver : ReceiveStream :=
  (init.act (.recvMsg [.data [97, 98], .failed])).act (.getRecvBuf (.filled 0 false : CArray Byte 4) 0)

theorem loses_nothing_failed :
    handedOver.delivered ++ handedOver.socket.received = handedOver.returned ∧
      handedOver.socket.recvIdx ≤ MAX_RECV_BUFFER_SIZE ∧ ∀ kernel, handedOver.Reads kernel := by
  have first : Step init (.recvMsg [.data [97, 98], .failed]) (init.act (.recvMsg [.data [97, 98], .failed])) :=
    ⟨trivial, rfl⟩
  have room : (init.act (.recvMsg [.data [97, 98], .failed])).Room
      (.getRecvBuf (.filled 0 false : CArray Byte 4) 0) := by
    unfold Room
    decide +kernel
  exact loses_nothing ((Run.start.next first).next ⟨room, rfl⟩)

end ReceiveStream

end CoflowSim
