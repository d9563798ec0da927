import CoflowSim.Lib.CArray
import CoflowSim.Lib.Epoll

namespace CoflowSim
open Lib

/-- A C `char`, as the socket layer moves it. -/
abbrev Byte := UInt8

def lparen : Byte := 40
def rparen : Byte := 41
def space : Byte := 32

theorem lparen_ne_rparen : lparen ≠ rparen := by decide

def MSG_LEN : Nat := 100
def MAX_RECV_BUFFER_SIZE : Nat := 2048
def MAX_SEND_BUFFER_SIZE : Nat := 1024

/-- The two buffers of a connection and their fill indices. -/
structure SocketManage where
  recvBuf : CArray Byte MAX_RECV_BUFFER_SIZE
  recvIdx : Nat
  sendBuf : CArray Byte MAX_SEND_BUFFER_SIZE
  sendBufSize : Nat
deriving DecidableEq

/-- What one `recv` returns: bytes, 0 at the end of the stream, or -1 with
`EAGAIN` or with another error. -/
inductive RecvOutcome
  | data (bytes : List Byte)
  | eof
  | eagain
  | failed
deriving DecidableEq

/-- What the `recv` calls of one pass return when `chunk` is waiting: all of it
at once, and then nothing more. -/
def RecvOutcome.ofChunk (chunk : List Byte) : List RecvOutcome :=
  if chunk.isEmpty then [] else [.data chunk]

/-- What one `send` returns: the number of bytes the kernel takes, which is
never more than were offered, or -1 with `EAGAIN` or with another error. -/
inductive SendOutcome
  | accepted (count : Nat)
  | eagain
  | failed
deriving DecidableEq

namespace SocketManage

def initRecvBuf (s : SocketManage) : SocketManage :=
  { s with recvIdx := 0, recvBuf := .filled 0 s.recvBuf.overrun }

def initSendBuf (s : SocketManage) : SocketManage :=
  { s with sendBufSize := 0, sendBuf := .filled 0 s.sendBuf.overrun }

/-- Both buffers as `initSocket` leaves them. -/
def initSocket : SocketManage := ⟨.filled 0 false, 0, .filled 0 false, 0⟩

/-- The `while (true)` of `receiveMessage`, over the results of its `recv`
calls. When the list is used up, the kernel has nothing more: `EAGAIN`. -/
def receiveLoop (s : SocketManage) : List RecvOutcome → SocketManage × Bool
  | [] => (s, true)
  | .eagain :: _ => (s, true)
  | .failed :: _ => (s, false)
  | .eof :: _ => (s, false)
  | .data bytes :: rest =>
    let read := bytes.take (MAX_RECV_BUFFER_SIZE - s.recvIdx)
    -- a full buffer asks for zero bytes, which is the `bytes_read == 0` exit
    if read.isEmpty then (s, false)
    else
      let s := { s with
        recvBuf := s.recvBuf.storeAll s.recvIdx read
        recvIdx := s.recvIdx + read.length }
      if MSG_LEN ≤ s.recvIdx then (s, true) else s.receiveLoop rest

def receiveMessage (s : SocketManage) (kernel : List RecvOutcome) : SocketManage × Bool :=
  if MAX_RECV_BUFFER_SIZE < s.recvIdx then (s, false) else s.receiveLoop kernel

/-- `recvMsg` only prints when `receiveMessage` fails, and returns true. -/
def recvMsg (s : SocketManage) (kernel : List RecvOutcome) : SocketManage :=
  (s.receiveMessage kernel).1

/-- Appends the received bytes and a NUL to the caller's buffer, whose length
does not count the NUL. -/
def getRecvBuf {n : Nat} (s : SocketManage) (buf : CArray Byte n) (buflen : Nat) :
    SocketManage × CArray Byte n × Nat :=
  let bytes := s.recvBuf.slice 0 s.recvIdx
  (s.initRecvBuf, (buf.storeAll buflen bytes).store (buflen + bytes.length) 0, buflen + bytes.length)

/-- A call on the send side: the socket after it, its result, and the events
that its `modfd` registers, if it reaches one. -/
structure SendCall where
  socket : SocketManage
  result : Bool
  modfd : Option Interest

def sendMessage (s : SocketManage) (kernel : SendOutcome) : SendCall :=
  if s.sendBufSize = 0 then ⟨s.initSendBuf, true, some .epollIn⟩
  else
    match kernel with
    | .accepted count =>
      if min count s.sendBufSize = s.sendBufSize then ⟨s.initSendBuf, true, some .epollIn⟩
      else ⟨s, false, none⟩
    | .eagain => ⟨s, true, some .epollOut⟩
    | .failed => ⟨s, false, none⟩

def setSendMsg (s : SocketManage) (msg : List Byte) : SendCall :=
  if MAX_SEND_BUFFER_SIZE < s.sendBufSize + msg.length then ⟨s, false, none⟩
  else
    let size := s.sendBufSize + msg.length
    ⟨{ s with
        sendBuf := (s.sendBuf.storeAll s.sendBufSize msg).store size 0
        sendBufSize := size }, true, some .epollOut⟩

def sendMsg (s : SocketManage) (kernel : SendOutcome) : SendCall :=
  if 0 < s.sendBufSize then
    let call := s.sendMessage kernel
    { call with result := true }
  else ⟨s, false, none⟩

/-- `m_recvBuf[0..m_recvIdx)`: what has been received and not yet handed over. -/
def received (s : SocketManage) : List Byte := s.recvBuf.slice 0 s.recvIdx

theorem recvMsg_ofChunk {s : SocketManage} {chunk : List Byte} (empty : s.recvIdx = 0)
    (fits : chunk.length ≤ MAX_RECV_BUFFER_SIZE) :
    (s.recvMsg (RecvOutcome.ofChunk chunk)).recvIdx = chunk.length ∧
      (s.recvMsg (RecvOutcome.ofChunk chunk)).received = chunk := by
  cases chunk with
  | nil => simp [recvMsg, receiveMessage, receiveLoop, RecvOutcome.ofChunk, received, empty]
  | cons b rest =>
    have read : (b :: rest).take (MAX_RECV_BUFFER_SIZE - s.recvIdx) = b :: rest :=
      List.take_of_length_le (by omega)
    have inRange : ¬ MAX_RECV_BUFFER_SIZE < s.recvIdx := by omega
    have stored := s.recvBuf.slice_storeAll (b :: rest) (Nat.zero_le s.recvIdx) (by omega)
    simp only [empty, Nat.zero_add, CArray.slice_self, List.nil_append] at stored
    simp only [recvMsg, receiveMessage, inRange, if_false, RecvOutcome.ofChunk, List.isEmpty_cons,
      Bool.false_eq_true, receiveLoop, read, received]
    split <;> simp only [empty, Nat.zero_add, stored, and_self]

/-- One `recv` that fits moves the fill index by what it returns. -/
theorem receiveLoop_one {s : SocketManage} {bytes : List Byte}
    (fits : bytes.length ≤ MAX_RECV_BUFFER_SIZE - s.recvIdx) :
    (s.receiveLoop [.data bytes]).1.recvIdx = s.recvIdx + bytes.length := by
  simp only [receiveLoop, List.take_of_length_le fits]
  split
  · rename_i empty
    rw [List.isEmpty_iff.mp empty, List.length_nil, Nat.add_zero]
  · split <;> rfl

theorem getRecvBuf_length {n : Nat} (s : SocketManage) (buf : CArray Byte n) (buflen : Nat)
    (bounded : s.recvIdx ≤ MAX_RECV_BUFFER_SIZE) : (s.getRecvBuf buf buflen).2.2 = buflen + s.recvIdx := by
  have length : (s.recvBuf.slice 0 s.recvIdx).length = s.recvIdx := CArray.slice_length _ bounded
  simp only [getRecvBuf, length]

theorem getRecvBuf_spec {n : Nat} (s : SocketManage) (buf : CArray Byte n) (buflen : Nat)
    (bounded : s.recvIdx ≤ MAX_RECV_BUFFER_SIZE) (room : buflen + s.recvIdx < n) :
    (s.getRecvBuf buf buflen).1.recvIdx = 0 ∧
      (s.getRecvBuf buf buflen).2.1.slice 0 (buflen + s.recvIdx) = buf.slice 0 buflen ++ s.received ∧
      (s.getRecvBuf buf buflen).2.1.overrun = buf.overrun ∧
      (s.getRecvBuf buf buflen).2.2 = buflen + s.recvIdx := by
  have length : (s.recvBuf.slice 0 s.recvIdx).length = s.recvIdx := CArray.slice_length _ bounded
  refine ⟨rfl, ?_, ?_, s.getRecvBuf_length buf buflen bounded⟩
  · have stored := buf.slice_storeAll (s.recvBuf.slice 0 s.recvIdx) (Nat.zero_le buflen) (by omega)
    rw [length] at stored
    simp only [getRecvBuf, length, received]
    rw [CArray.slice_store_outside _ _ (Or.inr (Nat.le_refl _)), stored]
  · simp only [getRecvBuf, length]
    rw [CArray.overrun_store _ _ room, CArray.overrun_storeAll _ _ (by omega)]

@[simp] theorem setSendMsg_recvIdx (s : SocketManage) (msg : List Byte) :
    (s.setSendMsg msg).socket.recvIdx = s.recvIdx := by
  unfold setSendMsg
  split <;> rfl

@[simp] theorem sendMsg_recvIdx (s : SocketManage) (kernel : SendOutcome) :
    (s.sendMsg kernel).socket.recvIdx = s.recvIdx := by
  unfold sendMsg sendMessage
  repeat' split
  all_goals rfl

/-- `m_sendBuf[0..m_sendBufSize)`: what has been appended and not yet sent. -/
def unsent (s : SocketManage) : List Byte := s.sendBuf.slice 0 s.sendBufSize

/-- The bytes the kernel takes when `sendMsg` offers the whole of `unsent`. -/
def taken (s : SocketManage) : SendOutcome → List Byte
  | .accepted count => s.unsent.take count
  | .eagain => []
  | .failed => []

/-- The fill index of the send buffer never exceeds its capacity. -/
def SendBounded (s : SocketManage) : Prop := s.sendBufSize ≤ MAX_SEND_BUFFER_SIZE

theorem unsent_length {s : SocketManage} (bounded : s.SendBounded) : s.unsent.length = s.sendBufSize :=
  s.sendBuf.slice_length bounded

/-- Either the message fits and is appended, with `EPOLLOUT` registered, or
it does not and nothing happens. -/
theorem setSendMsg_cases (s : SocketManage) (msg : List Byte) :
    (s.sendBufSize + msg.length ≤ MAX_SEND_BUFFER_SIZE ∧ (s.setSendMsg msg).result = true ∧
      (s.setSendMsg msg).modfd = some .epollOut ∧
      (s.setSendMsg msg).socket.sendBufSize = s.sendBufSize + msg.length ∧
      (s.setSendMsg msg).socket.unsent = s.unsent ++ msg) ∨
    (MAX_SEND_BUFFER_SIZE < s.sendBufSize + msg.length ∧ s.setSendMsg msg = ⟨s, false, none⟩) := by
  by_cases full : MAX_SEND_BUFFER_SIZE < s.sendBufSize + msg.length
  · exact Or.inr ⟨full, by simp only [setSendMsg, full, if_true]⟩
  · have room := Nat.not_lt.mp full
    refine Or.inl ⟨room, ?_⟩
    simp only [setSendMsg, full, if_false, unsent, true_and]
    rw [CArray.slice_store_outside _ _ (Or.inr (Nat.le_refl _)),
      CArray.slice_storeAll _ _ (Nat.zero_le _) room]

theorem sendMsg_full {s : SocketManage} {count : Nat} (some_bytes : 0 < s.sendBufSize) (full : s.sendBufSize ≤ count) :
    s.sendMsg (.accepted count) = ⟨s.initSendBuf, true, some .epollIn⟩ := by
  have nonempty : s.sendBufSize ≠ 0 := Nat.ne_of_gt some_bytes
  simp only [sendMsg, some_bytes, if_true, sendMessage, nonempty, if_false, Nat.min_eq_right full]

/-- Either the kernel takes the whole buffer, which empties it and registers
`EPOLLIN`, or the buffer stays exactly as it was, whatever part of it the
kernel took, and `EPOLLIN` is not registered. -/
theorem sendMsg_cases (s : SocketManage) (kernel : SendOutcome) :
    (∃ count, kernel = .accepted count ∧ 0 < s.sendBufSize ∧ s.sendBufSize ≤ count ∧
      s.sendMsg kernel = ⟨s.initSendBuf, true, some .epollIn⟩) ∨
    ((s.sendMsg kernel).socket = s ∧ (s.sendMsg kernel).modfd ≠ some .epollIn ∧
      ∀ count, kernel = .accepted count → count < s.sendBufSize ∨ s.sendBufSize = 0) := by
  by_cases empty : s.sendBufSize = 0
  · exact Or.inr (by simp [sendMsg, empty])
  · have some_bytes : 0 < s.sendBufSize := Nat.pos_of_ne_zero empty
    cases kernel with
    | eagain => exact Or.inr (by simp [sendMsg, sendMessage, some_bytes, empty])
    | failed => exact Or.inr (by simp [sendMsg, sendMessage, some_bytes, empty])
    | accepted count =>
      by_cases full : s.sendBufSize ≤ count
      · exact Or.inl ⟨count, rfl, some_bytes, full, sendMsg_full some_bytes full⟩
      · have short : min count s.sendBufSize ≠ s.sendBufSize := by omega
        right
        simp only [sendMsg, some_bytes, if_true, sendMessage, empty, if_false, short]
        exact ⟨trivial, nofun, fun other same => by cases same; exact Or.inl (Nat.lt_of_not_le full)⟩

@[simp] theorem initSendBuf_unsent (s : SocketManage) : s.initSendBuf.unsent = [] := by
  simp [unsent, initSendBuf]

@[simp] theorem initSendBuf_size (s : SocketManage) : s.initSendBuf.sendBufSize = 0 := rfl

end SocketManage

end CoflowSim
