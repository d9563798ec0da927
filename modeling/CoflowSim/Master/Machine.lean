import CoflowSim.Common.SocketManage
import CoflowSim.Lib.FormattedInput

namespace CoflowSim
open Lib

def TMORECV_MAX_SIZE : Nat := 4096

/-- One completion record: a flow of a coflow, and when its client saw it end. -/
structure FlowEndInfo where
  coflowID : CInt
  flowID : CInt
  endTime : CInt
deriving DecidableEq

/-- A physical machine and the master's connection to it. -/
structure Machine extends SocketManage where
  machineID : Nat
  socketip : List Byte
  socketport : Int
  flowsFinishedInfo : List FlowEndInfo
  tmprecv : CArray Byte TMORECV_MAX_SIZE
  tmprecvIndex : Nat

/-- Three extractions from a fresh stream into a zeroed record. -/
def FlowEndInfo.parse (text : List Byte) : FlowEndInfo :=
  let (coflowID, ss) := (IStream.mk text false).readInt
  let (flowID, ss) := ss.readInt
  let (endTime, _) := ss.readInt
  ⟨coflowID.getD CInt.zero, flowID.getD CInt.zero, endTime.getD CInt.zero⟩

/-- The buffer and the locals of the loop in `parseFlowsFinishedInfo`, with the
records it has pushed. -/
structure FinishedScan where
  tmprecv : CArray Byte TMORECV_MAX_SIZE
  flowEndIndex : Int
  flowStartIndex : Int
  pushed : List FlowEndInfo

/-- One byte of the loop; `none` is a read outside `tmprecv`. -/
def FinishedScan.byte (scan : FinishedScan) (i : Nat) : Option FinishedScan :=
  let scan := if scan.tmprecv.load i = lparen then { scan with flowStartIndex := i + 1 } else scan
  if scan.tmprecv.load i = rparen then
    let tmprecv := scan.tmprecv.store i 0
    (tmprecv.cString 0 scan.flowStartIndex).map fun text =>
      { scan with tmprecv, flowEndIndex := i, pushed := scan.pushed ++ [FlowEndInfo.parse text] }
  else some scan

namespace Machine

def create (machineID : Nat) (sockip : List Byte) (sockport : Int) : Machine :=
  { SocketManage.initSocket with
    machineID, socketip := sockip, socketport := sockport
    flowsFinishedInfo := [], tmprecv := .filled 0 false, tmprecvIndex := 0 }

/-- `getRecvBuf` into `tmprecv`. -/
def takeReceived (m : Machine) : Machine :=
  let (sock, tmprecv, tmprecvIndex) := m.getRecvBuf m.tmprecv m.tmprecvIndex
  { m with toSocketManage := sock, tmprecv, tmprecvIndex }

/-- The loop over `tmprecv`. The two indices are what its locals hold before
their first assignment. -/
def scanFinished (m : Machine) (flowEndIndex flowStartIndex : Int) : Option FinishedScan :=
  (List.range m.tmprecvIndex).foldlM FinishedScan.byte ⟨m.tmprecv, flowEndIndex, flowStartIndex, []⟩

/-- What is done after the loop: the records are queued, and an unfinished
frame is moved to the front of the buffer. -/
def keepUnfinished (m : Machine) (scan : FinishedScan) : Option Machine :=
  let m := { m with flowsFinishedInfo := m.flowsFinishedInfo ++ scan.pushed }
  if scan.flowEndIndex < scan.flowStartIndex then
    let start := scan.flowStartIndex.toNat
    let count := m.tmprecvIndex - start
    if scan.flowStartIndex < 0 then none
    else some { m with
      tmprecv := ((scan.tmprecv.store 0 lparen).copyDown 1 start count).store (1 + count) 0
      tmprecvIndex := 1 + count }
  else some { m with tmprecv := scan.tmprecv.store 0 0, tmprecvIndex := 0 }

/-- `none` is a read outside `tmprecv`. -/
def parseFlowsFinishedInfo (m : Machine) (flowEndIndex flowStartIndex : Int) : Option Machine :=
  if m.recvIdx = 0 then some m
  else do
    let m := m.takeReceived
    let scan ← m.scanFinished flowEndIndex flowStartIndex
    m.keepUnfinished scan

def getOneFlowEndInfo (m : Machine) : Option (FlowEndInfo × Machine) :=
  match m.flowsFinishedInfo with
  | [] => none
  | info :: rest => some (info, { m with flowsFinishedInfo := rest })

/-- `while (getOneFlowEndInfo(...))`: the records it returns, in order. -/
def drain (m : Machine) : List FlowEndInfo × Machine :=
  match _taken : m.getOneFlowEndInfo with
  | none => ([], m)
  | some (info, rest) =>
    let (infos, last) := drain rest
    (info :: infos, last)
termination_by m.flowsFinishedInfo.length
decreasing_by
  unfold getOneFlowEndInfo at _taken
  split at _taken
  · cases _taken
  · rename_i queue
    cases _taken
    simp [queue]

/-- `recvMsg` when `chunk` is waiting. -/
def receive (m : Machine) (chunk : List Byte) : Machine :=
  { m with toSocketManage := m.recvMsg (RecvOutcome.ofChunk chunk) }

/-- A poll of the scheduler: receive a chunk, parse it, and take the records. -/
def poll (m : Machine) (chunk : List Byte) (flowEndIndex flowStartIndex : CInt) :
    Option (List FlowEndInfo × Machine) := do
  let m ← (m.receive chunk).parseFlowsFinishedInfo flowEndIndex.val flowStartIndex.val
  some m.drain

/-- One poll for each chunk. The two sequences say what the locals of
`parseFlowsFinishedInfo` hold when its `k`-th call starts. -/
def pollAll (m : Machine) (ends starts : Nat → CInt) (chunks : List (List Byte)) :
    Option (List FlowEndInfo × Machine) :=
  chunks.zipIdx.foldlM (fun (infos, m) (chunk, k) => do
    let (more, m) ← m.poll chunk (ends k) (starts k)
    some (infos ++ more, m)) ([], m)

end Machine

end CoflowSim
