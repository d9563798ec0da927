import CoflowSim.Common.SocketManage
import CoflowSim.Lib.Framing

namespace CoflowSim
open Lib Lib.Framing

def RECVBUF_SIZE : Nat := 4096

/-- What `coflowSimClient` keeps between two events of the master connection,
with the arguments of its `appendTask` calls so far. -/
structure EventLoop where
  masterSockManger : SocketManage
  recvbuf : CArray Byte RECVBUF_SIZE
  recvbuflen : Nat
  appended : List (List Byte)

/-- The locals of the scan over `recvbuf`. -/
structure InsScan where
  insstart : Nat
  insend : Nat
  calls : List (List Byte)

def InsScan.byte (recvbuf : CArray Byte RECVBUF_SIZE) (scan : InsScan) (i : Nat) : InsScan :=
  let scan := if recvbuf.load i = lparen then { scan with insstart := i + 1 } else scan
  if recvbuf.load i = rparen then
    { scan with insend := i, calls := scan.calls ++ [recvbuf.slice scan.insstart i] }
  else scan

def scanBuf (recvbuf : CArray Byte RECVBUF_SIZE) (recvbuflen : Nat) : InsScan :=
  (List.range recvbuflen).foldl (InsScan.byte recvbuf) ⟨0, 0, []⟩

namespace EventLoop

def init : EventLoop := ⟨.initSocket, .filled 0 false, 0, []⟩

/-- `masterSockManger.getRecvBuf(recvbuf, recvbuflen)` -/
def getRecvBuf (loop : EventLoop) : EventLoop :=
  let (sock, recvbuf, recvbuflen) := loop.masterSockManger.getRecvBuf loop.recvbuf loop.recvbuflen
  { loop with masterSockManger := sock, recvbuf, recvbuflen }

/-- `recvMsg` and `getRecvBuf`. -/
def fill (loop : EventLoop) (kernel : List RecvOutcome) : EventLoop :=
  { loop with masterSockManger := loop.masterSockManger.recvMsg kernel }.getRecvBuf

/-- The scan, and the rewriting of the buffer to the unfinished frame. -/
def decode (loop : EventLoop) : EventLoop :=
  let scan := scanBuf loop.recvbuf loop.recvbuflen
  let loop := { loop with appended := loop.appended ++ scan.calls }
  if scan.insend < scan.insstart then
    let count := loop.recvbuflen - scan.insstart
    { loop with
      recvbuf := ((loop.recvbuf.store 0 lparen).copyDown 1 scan.insstart count).store (1 + count) 0
      recvbuflen := 1 + count }
  else { loop with recvbuf := loop.recvbuf.store 0 0, recvbuflen := 0 }

@[simp] theorem decode_socket (loop : EventLoop) : loop.decode.masterSockManger = loop.masterSockManger := by
  simp only [decode]
  split <;> rfl

/-- The `EPOLLIN` branch of the event loop. -/
def pass (loop : EventLoop) (kernel : List RecvOutcome) : EventLoop := (loop.fill kernel).decode

/-- One pass for each received chunk. -/
def receive (loop : EventLoop) (chunks : List (List Byte)) : EventLoop :=
  chunks.foldl (fun loop chunk => loop.pass (RecvOutcome.ofChunk chunk)) loop

end EventLoop

end CoflowSim
