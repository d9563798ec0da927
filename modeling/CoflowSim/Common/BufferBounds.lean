import CoflowSim.Common.ReceiveStream
import CoflowSim.Common.SendStream

namespace CoflowSim
open Lib

namespace SocketManage

/-- The array that `sendMessage` hands to the logger, if it does. -/
def sendLogged (s : SocketManage) : SendOutcome → Option (CArray Byte MAX_SEND_BUFFER_SIZE)
  | .accepted count =>
    if 0 < s.sendBufSize ∧ min count s.sendBufSize = s.sendBufSize then some s.sendBuf else none
  | .eagain => none
  | .failed => none

/-- The array that `receiveMessage` hands to the logger, if it does. -/
def recvLogged (s : SocketManage) (kernel : List RecvOutcome) : Option (CArray Byte MAX_RECV_BUFFER_SIZE) :=
  let (s, result) := s.receiveMessage kernel
  if result = true ∧ 0 < s.recvIdx then some s.recvBuf else none

end SocketManage

/-- A connection's socket, and whether all that its loggers have been given so
far were C strings. -/
structure Buffers where
  socket : SocketManage
  printable : Bool

inductive BufferAction
  | send (a : SendAction)
  | recv (a : ReceiveAction)

namespace Buffers

def init : Buffers := ⟨.initSocket, true⟩

/-- A logger reads its array up to the first NUL. -/
def Printable {n : Nat} (logged : Option (CArray Byte n)) : Prop := ∀ a, logged = some a → 0 ∈ a.cells

instance {n : Nat} (logged : Option (CArray Byte n)) : Decidable (Printable logged) :=
  match logged with
  | none => .isTrue nofun
  | some a => decidable_of_iff (0 ∈ a.cells) ⟨fun inside _ same => Option.some.inj same ▸ inside, fun all => all a rfl⟩

def act (s : Buffers) : BufferAction → Buffers
  | .send (.setSendMsg msg) => { s with socket := (s.socket.setSendMsg msg).socket }
  | .send (.sendMsg kernel) =>
    ⟨(s.socket.sendMsg kernel).socket, s.printable && Printable (s.socket.sendLogged kernel)⟩
  | .recv (.recvMsg kernel) => ⟨s.socket.recvMsg kernel, s.printable && Printable (s.socket.recvLogged kernel)⟩
  | .recv (.getRecvBuf buf buflen) => { s with socket := (s.socket.getRecvBuf buf buflen).1 }

def Step (s : Buffers) (a : BufferAction) (t : Buffers) : Prop := t = s.act a

/-- No index outside the two arrays has been written, and no logger has been
given an array without a NUL. -/
structure Safe (s : Buffers) : Prop where
  sendBuf : s.socket.sendBuf.overrun = false
  recvBuf : s.socket.recvBuf.overrun = false
  printable : s.printable = true

/-- No message fills the send buffer to its last byte, and no NUL-free text the
receive buffer. -/
def Spares (s : Buffers) : BufferAction → Prop
  | .send (.setSendMsg msg) => s.socket.sendBufSize + msg.length ≠ MAX_SEND_BUFFER_SIZE
  | .send (.sendMsg _) => True
  | .recv (.recvMsg kernel) =>
    (s.socket.received ++ s.socket.returned kernel).length < MAX_RECV_BUFFER_SIZE ∨
      0 ∈ s.socket.received ++ s.socket.returned kernel
  | .recv (.getRecvBuf _ _) => True

end Buffers

namespace SocketManage

/-- The cells behind what has been received are as `initRecvBuf` left them. -/
def Blank (s : SocketManage) : Prop :=
  ∀ i, s.recvIdx ≤ i → i < MAX_RECV_BUFFER_SIZE → s.recvBuf.cells[i]? = some 0

theorem blank_filled (s : SocketManage) : s.initRecvBuf.Blank := by
  intro i _ inside
  simp only [initRecvBuf, CArray.filled, List.getElem?_replicate_of_lt inside]

/-- Such an array holds a NUL, unless it is full of other bytes. -/
theorem nul_mem_recvBuf {s : SocketManage} (bounded : s.RecvBounded) (blank : s.Blank) :
    0 ∈ s.recvBuf.cells ↔ s.received.length < MAX_RECV_BUFFER_SIZE ∨ 0 ∈ s.received := by
  rw [received_length bounded]
  constructor
  · intro inside
    rcases Nat.lt_or_eq_of_le bounded with below | full
    · exact Or.inl below
    · right
      rw [received, full, CArray.slice_all]
      exact inside
  · rintro (below | inside)
    · exact List.mem_of_getElem? (blank s.recvIdx le_rfl below)
    · exact CArray.mem_cells_of_mem_slice inside

theorem receiveLoop_blank {s : SocketManage} (blank : s.Blank) (kernel : List RecvOutcome) :
    (s.receiveLoop kernel).1.Blank := by
  induction kernel generalizing s with
  | nil => exact blank
  | cons outcome rest ih =>
    cases outcome with
    | eagain => exact blank
    | failed => exact blank
    | eof => exact blank
    | data bytes =>
      have stored : Blank { s with
          recvBuf := s.recvBuf.storeAll s.recvIdx (bytes.take (MAX_RECV_BUFFER_SIZE - s.recvIdx))
          recvIdx := s.recvIdx + (bytes.take (MAX_RECV_BUFFER_SIZE - s.recvIdx)).length } := by
        intro i behind inside
        rw [CArray.getElem?_storeAll_behind _ _ behind]
        exact blank i (Nat.le_of_add_right_le behind) inside
      simp only [receiveLoop]
      split
      · exact blank
      · split
        · exact stored
        · exact ih stored

/-- The loop fails only before it has read `MSG_LEN` bytes, or without having
read any. -/
theorem receiveLoop_failed {s : SocketManage} {kernel : List RecvOutcome} (failed : (s.receiveLoop kernel).2 = false) :
    (s.receiveLoop kernel).1.recvIdx = s.recvIdx ∨ (s.receiveLoop kernel).1.recvIdx < MSG_LEN := by
  induction kernel generalizing s with
  | nil => exact Or.inl rfl
  | cons outcome rest ih =>
    cases outcome with
    | eagain => exact Or.inl rfl
    | failed => exact Or.inl rfl
    | eof => exact Or.inl rfl
    | data bytes =>
      simp only [receiveLoop] at failed ⊢
      split at failed
      · rename_i nothing
        simp only [nothing, if_true, true_or]
      · rename_i something
        split at failed
        · cases failed
        · rename_i unfinished
          simp only [something, unfinished, if_false, Bool.false_eq_true]
          rcases ih failed with same | short
          · right
            rw [same]
            exact Nat.lt_of_not_le unfinished
          · exact Or.inr short

/-- A `recvMsg` that fills the buffer hands it to the logger. -/
theorem recvLogged_full {s : SocketManage} {kernel : List RecvOutcome} (room : s.recvIdx < MAX_RECV_BUFFER_SIZE)
    (full : (s.recvMsg kernel).recvIdx = MAX_RECV_BUFFER_SIZE) :
    s.recvLogged kernel = some (s.recvMsg kernel).recvBuf := by
  have inRange : ¬ MAX_RECV_BUFFER_SIZE < s.recvIdx := by omega
  have succeeds : (s.receiveMessage kernel).2 = true := by
    by_contra failed
    have stopped : (s.receiveLoop kernel).2 = false := by simpa [receiveMessage, inRange] using failed
    have exits := receiveLoop_failed stopped
    simp only [recvMsg, receiveMessage, inRange, if_false] at full
    rw [full] at exits
    rcases exits with same | short
    · omega
    · exact absurd short (by decide)
  have positive : 0 < (s.receiveMessage kernel).1.recvIdx := by
    rw [show (s.receiveMessage kernel).1.recvIdx = _ from full]
    decide
  rw [recvLogged]
  exact if_pos ⟨succeeds, positive⟩

/-- What is logged of a receive buffer is the buffer after the call. -/
theorem recvLogged_some {s : SocketManage} {kernel : List RecvOutcome} {a : CArray Byte MAX_RECV_BUFFER_SIZE}
    (logged : s.recvLogged kernel = some a) : a = (s.recvMsg kernel).recvBuf := by
  unfold recvLogged at logged
  dsimp only at logged
  split at logged
  · exact (Option.some.inj logged).symm
  · cases logged

theorem sendLogged_some {s : SocketManage} {kernel : SendOutcome} {a : CArray Byte MAX_SEND_BUFFER_SIZE}
    (logged : s.sendLogged kernel = some a) : a = s.sendBuf := by
  cases kernel with
  | accepted count =>
    rw [sendLogged] at logged
    split at logged
    · exact (Option.some.inj logged).symm
    · cases logged
  | eagain => cases logged
  | failed => cases logged

theorem recvMsg_blank {s : SocketManage} (blank : s.Blank) (kernel : List RecvOutcome) : (s.recvMsg kernel).Blank := by
  unfold recvMsg receiveMessage
  split
  · exact blank
  · exact receiveLoop_blank blank kernel

/-- Room for the terminator of the send buffer, and the terminator. -/
structure SendSpare (s : SocketManage) : Prop where
  overrun : s.sendBuf.overrun = false
  below : s.sendBufSize < MAX_SEND_BUFFER_SIZE
  terminated : s.sendBuf.cells[s.sendBufSize]? = some 0

/-- A NUL in the receive buffer, behind what has been received or inside it. -/
structure RecvSpare (s : SocketManage) : Prop where
  overrun : s.recvBuf.overrun = false
  bounded : s.RecvBounded
  blank : s.Blank
  unfilled : s.received.length < MAX_RECV_BUFFER_SIZE ∨ 0 ∈ s.received

theorem SendSpare.initSendBuf {s : SocketManage} (overrun : s.sendBuf.overrun = false) : s.initSendBuf.SendSpare :=
  ⟨overrun, show 0 < MAX_SEND_BUFFER_SIZE by decide, rfl⟩

theorem RecvSpare.initRecvBuf {s : SocketManage} (overrun : s.recvBuf.overrun = false) : s.initRecvBuf.RecvSpare :=
  ⟨overrun, Nat.zero_le _, blank_filled s, Or.inl (show 0 < MAX_RECV_BUFFER_SIZE by decide)⟩

theorem RecvSpare.setSendMsg {s : SocketManage} (spare : s.RecvSpare) (msg : List Byte) :
    (s.setSendMsg msg).socket.RecvSpare := by
  unfold SocketManage.setSendMsg
  split <;> exact ⟨spare.overrun, spare.bounded, spare.blank, spare.unfilled⟩

theorem RecvSpare.sendMsg {s : SocketManage} (spare : s.RecvSpare) (kernel : SendOutcome) :
    (s.sendMsg kernel).socket.RecvSpare := by
  rcases s.sendMsg_cases kernel with ⟨count, -, -, -, emptied⟩ | ⟨kept, -⟩
  · rw [emptied]
    exact ⟨spare.overrun, spare.bounded, spare.blank, spare.unfilled⟩
  · rw [kept]
    exact spare

theorem SendSpare.receiveLoop {s : SocketManage} (spare : s.SendSpare) (kernel : List RecvOutcome) :
    (s.receiveLoop kernel).1.SendSpare := by
  induction kernel generalizing s with
  | nil => exact spare
  | cons outcome rest ih =>
    cases outcome with
    | eagain => exact spare
    | failed => exact spare
    | eof => exact spare
    | data bytes =>
      simp only [SocketManage.receiveLoop]
      split
      · exact spare
      · split
        · exact ⟨spare.overrun, spare.below, spare.terminated⟩
        · exact ih ⟨spare.overrun, spare.below, spare.terminated⟩

theorem SendSpare.recvMsg {s : SocketManage} (spare : s.SendSpare) (kernel : List RecvOutcome) :
    (s.recvMsg kernel).SendSpare := by
  unfold SocketManage.recvMsg receiveMessage
  split
  · exact spare
  · exact spare.receiveLoop kernel

/-- A message that leaves the last byte free, or is refused. -/
theorem SendSpare.setSendMsg {s : SocketManage} (spare : s.SendSpare) {msg : List Byte}
    (spares : s.sendBufSize + msg.length ≠ MAX_SEND_BUFFER_SIZE) : (s.setSendMsg msg).socket.SendSpare := by
  unfold SocketManage.setSendMsg
  split
  · exact spare
  · rename_i accepted
    have below : s.sendBufSize + msg.length < MAX_SEND_BUFFER_SIZE := by omega
    refine ⟨?_, below, CArray.getElem?_store_self _ _ below⟩
    exact (CArray.overrun_store _ 0 below).trans
      ((s.sendBuf.overrun_storeAll msg (Nat.le_of_lt below)).trans spare.overrun)

/-- A message that fits exactly has its NUL behind the array. -/
theorem setSendMsg_exact {s : SocketManage} {msg : List Byte}
    (exact_fit : s.sendBufSize + msg.length = MAX_SEND_BUFFER_SIZE) :
    (s.setSendMsg msg).socket.sendBuf.overrun = true := by
  have accepted : ¬ MAX_SEND_BUFFER_SIZE < s.sendBufSize + msg.length := by omega
  have behind : MAX_SEND_BUFFER_SIZE ≤ s.sendBufSize + msg.length := by omega
  rw [setSendMsg, if_neg accepted]
  simp only [CArray.store, decide_eq_true behind, Bool.or_true]

theorem SendSpare.sendMsg {s : SocketManage} (spare : s.SendSpare) (kernel : SendOutcome) :
    (s.sendMsg kernel).socket.SendSpare := by
  rcases s.sendMsg_cases kernel with ⟨count, -, -, -, emptied⟩ | ⟨kept, -⟩
  · rw [emptied]
    exact .initSendBuf spare.overrun
  · rw [kept]
    exact spare

theorem RecvSpare.recvMsg {s : SocketManage} (spare : s.RecvSpare) {kernel : List RecvOutcome}
    (unfilled : (s.received ++ s.returned kernel).length < MAX_RECV_BUFFER_SIZE ∨ 0 ∈ s.received ++ s.returned kernel) :
    (s.recvMsg kernel).RecvSpare := by
  obtain ⟨bounded, content, overrun, -⟩ := recvMsg_spec spare.bounded kernel
  refine ⟨overrun.trans spare.overrun, bounded, recvMsg_blank spare.blank kernel, ?_⟩
  rwa [content]

/-- An access outside an array is never forgotten. -/
theorem setSendMsg_overrun {s : SocketManage} (strayed : s.sendBuf.overrun = true) (msg : List Byte) :
    (s.setSendMsg msg).socket.sendBuf.overrun = true := by
  unfold setSendMsg
  split
  · exact strayed
  · simp only [CArray.store, CArray.overrun_storeAll_of_overrun strayed, Bool.true_or]

theorem sendMsg_overrun (s : SocketManage) (kernel : SendOutcome) :
    (s.sendMsg kernel).socket.sendBuf.overrun = s.sendBuf.overrun := by
  rcases s.sendMsg_cases kernel with ⟨count, -, -, -, emptied⟩ | ⟨kept, -⟩
  · rw [emptied]
    rfl
  · rw [kept]

theorem recvMsg_sendBuf (s : SocketManage) (kernel : List RecvOutcome) : (s.recvMsg kernel).sendBuf = s.sendBuf := by
  have loop (s : SocketManage) (kernel : List RecvOutcome) : (s.receiveLoop kernel).1.sendBuf = s.sendBuf := by
    induction kernel generalizing s with
    | nil => rfl
    | cons outcome rest ih =>
      cases outcome with
      | eagain => rfl
      | failed => rfl
      | eof => rfl
      | data bytes =>
        simp only [receiveLoop]
        split
        · rfl
        · split
          · rfl
          · exact ih _
  unfold recvMsg receiveMessage
  split
  · rfl
  · exact loop s kernel

end SocketManage

namespace Buffers

/-- What the guarded steps keep. -/
structure Spare (s : Buffers) : Prop where
  printable : s.printable = true
  send : s.socket.SendSpare
  recv : s.socket.RecvSpare

theorem Spare.safe {s : Buffers} (spare : s.Spare) : s.Safe := ⟨spare.send.overrun, spare.recv.overrun, spare.printable⟩

theorem init_spare : init.Spare := ⟨rfl, .initSendBuf (s := .initSocket) rfl, .initRecvBuf (s := .initSocket) rfl⟩

theorem Spare.act {s : Buffers} (spare : s.Spare) {a : BufferAction} (allowed : s.Spares a) : (s.act a).Spare := by
  obtain ⟨printable, send, recv⟩ := spare
  rcases a with (msg | kernel) | (kernel | @⟨n, buf, buflen⟩)
  · exact ⟨printable, send.setSendMsg allowed, recv.setSendMsg msg⟩
  · have logged : Printable (s.socket.sendLogged kernel) := by
      intro a handed
      rw [SocketManage.sendLogged_some handed]
      exact List.mem_of_getElem? send.terminated
    exact ⟨by simp [Buffers.act, printable, logged], send.sendMsg kernel, recv.sendMsg kernel⟩
  · have after := recv.recvMsg allowed
    have logged : Printable (s.socket.recvLogged kernel) := by
      intro a handed
      rw [SocketManage.recvLogged_some handed]
      exact (SocketManage.nul_mem_recvBuf after.bounded after.blank).mpr after.unfilled
    exact ⟨by simp [Buffers.act, printable, logged], send.recvMsg kernel, after⟩
  · exact ⟨printable, ⟨send.overrun, send.below, send.terminated⟩, .initRecvBuf recv.overrun⟩

/-- What no later call makes good. -/
def Broken (s : Buffers) : Prop := s.socket.sendBuf.overrun = true ∨ s.printable = false

theorem Broken.not_safe {s : Buffers} (broken : s.Broken) : ¬ s.Safe := by
  rintro ⟨sendBuf, -, printable⟩
  rcases broken with strayed | unprintable
  · exact absurd (strayed.symm.trans sendBuf) (by decide)
  · exact absurd (printable.symm.trans unprintable) (by decide)

theorem Broken.act {s : Buffers} (broken : s.Broken) (a : BufferAction) : (s.act a).Broken := by
  rcases broken with strayed | unprintable
  · left
    rcases a with (msg | kernel) | (kernel | @⟨n, buf, buflen⟩)
    · exact SocketManage.setSendMsg_overrun strayed msg
    · exact (s.socket.sendMsg_overrun kernel).trans strayed
    · exact (congrArg CArray.overrun (s.socket.recvMsg_sendBuf kernel)).trans strayed
    · exact strayed
  · right
    rcases a with (msg | kernel) | (kernel | @⟨n, buf, buflen⟩)
    · exact unprintable
    · simp [Buffers.act, unprintable]
    · simp [Buffers.act, unprintable]
    · exact unprintable

/-- A step that breaks the guard: the terminator goes behind the send buffer,
or the logger gets a receive buffer without a NUL. -/
theorem Spare.broken {s : Buffers} (spare : s.Spare) {a : BufferAction} (fills : ¬ s.Spares a) : (s.act a).Broken := by
  rcases a with (msg | kernel) | (kernel | @⟨n, buf, buflen⟩)
  · exact Or.inl (SocketManage.setSendMsg_exact (not_not.mp fills))
  · exact absurd trivial fills
  · right
    obtain ⟨long, clean⟩ := not_or.mp fills
    obtain ⟨bounded, content, -, -⟩ := SocketManage.recvMsg_spec spare.recv.bounded kernel
    rw [← content] at long clean
    have blank := SocketManage.recvMsg_blank spare.recv.blank kernel
    have unprinted := mt (SocketManage.nul_mem_recvBuf bounded blank).mp (not_or.mpr ⟨long, clean⟩)
    rw [SocketManage.received_length bounded] at long
    have full := Nat.le_antisymm bounded (Nat.le_of_not_lt long)
    have room : s.socket.recvIdx < MAX_RECV_BUFFER_SIZE := by
      rcases spare.recv.unfilled with below | inside
      · rwa [SocketManage.received_length spare.recv.bounded] at below
      · rw [content] at clean
        exact absurd (List.mem_append_left _ inside) clean
    have logged := SocketManage.recvLogged_full room full
    have unprintable : ¬ Printable (s.socket.recvLogged kernel) := fun all => unprinted (all _ logged)
    simp [Buffers.act, unprintable]
  · exact absurd trivial fills

theorem spare_of_run {acts : List BufferAction} {t : Buffers} (run : Run (Where Step Spares) init acts t) :
    t.Spare := by
  refine run.invariant init_spare ?_
  rintro s a _ spare ⟨allowed, rfl⟩
  exact spare.act allowed

/-- The two arrays are never overrun and always printable exactly as long as
no message fills the one and no NUL-free text the other. -/
theorem safe_iff_spares {acts : List BufferAction} {t : Buffers} (run : Run Step init acts t) :
    t.Safe ↔ Run (Where Step Spares) init acts t := by
  constructor
  · intro safe
    rcases run.guarded_or_breaks Spares with clean | ⟨before, a, after, s, s', -, clean, broken, rfl, rest⟩
    · exact clean
    · have lasting : t.Broken := by
        refine rest.invariant ((spare_of_run clean).broken broken) ?_
        rintro u b _ broken rfl
        exact broken.act b
      exact absurd safe lasting.not_safe
  · exact fun clean => (spare_of_run clean).safe

/-- A message of one byte less than the buffer. -/
theorem safe_iff_spares_almost :
    (init.act (.send (.setSendMsg (.replicate 1023 97)))).Safe ↔
      Run (Where Step Spares) init [.send (.setSendMsg (.replicate 1023 97))]
        (init.act (.send (.setSendMsg (.replicate 1023 97)))) :=
  safe_iff_spares (.single rfl)

/-- A message of the size of the buffer. -/
theorem exact_fit_overruns : ¬ ∀ (acts : List BufferAction) (t : Buffers), Run Step init acts t → t.Safe := by
  intro always
  have fills : ¬ init.Spares (.send (.setSendMsg (.replicate 1024 97))) := by
    have full : init.socket.sendBufSize + (List.replicate 1024 (97 : Byte)).length = MAX_SEND_BUFFER_SIZE := by
      rw [List.length_replicate]
      rfl
    exact not_not.mpr full
  exact (init_spare.broken fills).not_safe (always _ _ (.single rfl))

end Buffers

end CoflowSim
