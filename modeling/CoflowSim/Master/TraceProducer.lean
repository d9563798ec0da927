import CoflowSim.Common.SocketManage
import CoflowSim.Lib.Double
import CoflowSim.Master.Coflow

namespace CoflowSim
open Lib

def colon : Byte := 58

/-- The capacities of `buffer` in `prepareCoflows` and of `buf` in
`prepareOneCoflow`. -/
def LINE_BUFFER : Nat := 4096
def TOKEN_BUFFER : Nat := 50

/-- A loop of extractions; `none` is one that leaves its variable unset. -/
def readMany {α : Type} (read : IStream → Option (α × IStream)) : Nat → IStream → Option (List α × IStream)
  | 0, ss => some ([], ss)
  | n + 1, ss => do
    let (a, ss) ← read ss
    let (as, ss) ← readMany read n ss
    some (a :: as, ss)

namespace TraceProducer

/-- `ss >> mapperIDs[i]` -/
def readMapper (ss : IStream) : Option (CInt × IStream) :=
  let (mapperID, ss) := ss.readInt
  mapperID.map fun mapperID => (mapperID, ss)

/-- `ss >> buf` and the two tokens of `buf`. `none` is a word that runs out of
`buf`, or a null pointer from `strtok`. -/
def readReducer (ss : IStream) (precision : Precision := .exact) : Option ((CInt × Rat) × IStream) := do
  let (buf, ss) := ss.readToken
  if TOKEN_BUFFER ≤ buf.length then none
  else
    let (first, rest) ← strtok colon buf
    let (second, _) ← strtok colon rest
    let reducerID ← (IStream.mk first false).readInt.1
    let sizeMB ← (precision.read ⟨second, false⟩).1
    some ((reducerID, sizeMB), ss)

/-- The loops over the reducers and the mappers; the second component is
`flowID`. Where it passes the last `int`, on which the source overflows, the
flows are all filed under that. -/
def addFlows (coflow : Coflow) (mapperIDs : List CInt) (reducer_sizeMB : List (CInt × Rat))
    (precision : Precision := .exact) : Coflow × Nat :=
  reducer_sizeMB.foldl (fun acc it => mapperIDs.foldl (fun (coflow, flowID) mapperID =>
    (coflow.addFlow (.clamp flowID) mapperID it.1 (precision.keep (it.2 / mapperIDs.length)), flowID + 1)) acc)
      (coflow, 0)

/-- `none` is the exception of `new int[mapperNum]`, or the use of a variable
that no extraction has set. The numbers are kept as `precision` says. -/
def prepareOneCoflow (line : List Byte) (precision : Precision := .exact) : Option Coflow := do
  let (coflowID, ss) := (IStream.mk (line.takeWhile (· != 0)) false).readInt
  let coflowID ← coflowID
  let (startTime, ss) := precision.read ss
  let startTime ← startTime
  let coflow := Coflow.create coflowID startTime
  let (mapperNum, ss) := ss.readInt
  let mapperNum ← mapperNum
  if mapperNum.val < 0 then none
  else
    let (mapperIDs, ss) ← readMany readMapper mapperNum.val.toNat ss
    let (reducerNum, ss) := ss.readInt
    let reducerNum ← reducerNum
    let (reducer_sizeMB, _) ← readMany (readReducer · precision) reducerNum.val.toNat ss
    some (addFlows coflow mapperIDs reducer_sizeMB precision).1

/-- The loop of `prepareCoflows`, over the coflows still to read. -/
def prepareLoop (coflows : Nat) (CBfin : FileStream) (precision : Precision := .exact) : Option (List Coflow) :=
  match coflows with
  | 0 => some []
  | coflows + 1 =>
    if CBfin.eof then some []
    else do
      let (buffer, CBfin) := CBfin.getline LINE_BUFFER
      let coflow ← prepareOneCoflow buffer precision
      let rest ← prepareLoop coflows CBfin precision
      some (coflow :: rest)

/-- `prepareCoflows` on the text of the file: `logicMachinePortNum`, and the
coflows. -/
def prepareCoflows (file : List Byte) (precision : Precision := .exact) : Option (CInt × List Coflow) := do
  let (logicMachinePortNum, CBfin) := (IStream.mk file false).readInt
  let (coflowNum, CBfin) := CBfin.readInt
  let coflowNum ← coflowNum
  let (_, CBfin) := FileStream.getline LINE_BUFFER ⟨CBfin.rest, CBfin.rest.isEmpty, CBfin.fail⟩
  let coflows ← prepareLoop coflowNum.val.toNat CBfin precision
  some (logicMachinePortNum.getD CInt.zero, coflows)

variable {precision : Precision}

/-- A round of the loop, as long as the end of the file has not been noticed. -/
theorem prepareLoop_next {n : Nat} {left line : List Byte} {fail : Bool} {CBfin : FileStream}
    (got : FileStream.getline LINE_BUFFER ⟨left, false, fail⟩ = (line, CBfin)) :
    prepareLoop (n + 1) ⟨left, false, fail⟩ precision = (prepareOneCoflow line precision).bind fun coflow =>
      (prepareLoop n CBfin precision).map fun rest => coflow :: rest := by
  rw [prepareLoop, if_neg Bool.false_ne_true, got]
  simp only [Option.map_eq_bind]
  rfl

/-- What every `addFlow` keeps, the loops keep. -/
theorem addFlows_keeps {P : Coflow → Prop} (each : ∀ c flowID mapperID reducerID sizeMB, P c →
    P (Coflow.addFlow c flowID mapperID reducerID sizeMB)) {coflow : Coflow} (base : P coflow) (mapperIDs : List CInt)
    (reducer_sizeMB : List (CInt × Rat)) : P (addFlows coflow mapperIDs reducer_sizeMB precision).1 := by
  have inner (mappers : List CInt) (it : CInt × Rat) (acc : Coflow × Nat) (here : P acc.1) :
      P (mappers.foldl (fun (coflow, flowID) mapperID => (Coflow.addFlow coflow (.clamp (flowID : Nat)) mapperID it.1
        (precision.keep (it.2 / mapperIDs.length)), flowID + 1)) acc).1 := by
    induction mappers generalizing acc with
    | nil => exact here
    | cons mapperID mappers ih => exact ih _ (each _ _ _ _ _ here)
  have outer (reducers : List (CInt × Rat)) (acc : Coflow × Nat) (here : P acc.1) :
      P (reducers.foldl (fun acc it => mapperIDs.foldl (fun (coflow, flowID) mapperID =>
        (Coflow.addFlow coflow (.clamp (flowID : Nat)) mapperID it.1 (precision.keep (it.2 / mapperIDs.length)),
          flowID + 1)) acc) acc).1 := by
    induction reducers generalizing acc with
    | nil => exact here
    | cons it reducers ih => exact ih _ (inner mapperIDs it acc here)
  exact outer reducer_sizeMB (coflow, 0) base

theorem addFlows_built {coflow : Coflow} (built : coflow.Built) (mapperIDs : List CInt)
    (reducer_sizeMB : List (CInt × Rat)) : (addFlows coflow mapperIDs reducer_sizeMB precision).1.Built :=
  addFlows_keeps (fun _ _ _ _ _ here => .addFlow here _ _ _ _) built mapperIDs reducer_sizeMB

theorem prepareOneCoflow_built {line : List Byte} {coflow : Coflow}
    (prepared : prepareOneCoflow line precision = some coflow) : coflow.Built := by
  simp only [prepareOneCoflow, Option.bind_eq_bind, Option.bind_eq_some_iff] at prepared
  obtain ⟨coflowID, -, startTime, -, mapperNum, -, rest⟩ := prepared
  split at rest
  · cases rest
  · simp only [Option.bind_eq_some_iff] at rest
    obtain ⟨⟨mapperIDs, _⟩, -, reducerNum, -, ⟨reducers, _⟩, -, made⟩ := rest
    cases made
    exact addFlows_built (.create _ _) mapperIDs reducers

theorem prepareLoop_built {n : Nat} {CBfin : FileStream} {coflows : List Coflow}
    (prepared : prepareLoop n CBfin precision = some coflows) : ∀ c ∈ coflows, c.Built := by
  induction n generalizing CBfin coflows with
  | zero =>
    cases prepared
    simp
  | succ n ih =>
    unfold prepareLoop at prepared
    split at prepared
    · cases prepared
      simp
    · obtain ⟨coflow, first, prepared⟩ := Option.bind_eq_some_iff.mp prepared
      obtain ⟨rest, later, made⟩ := Option.bind_eq_some_iff.mp prepared
      cases made
      exact List.forall_mem_cons.mpr ⟨prepareOneCoflow_built first, ih later⟩

theorem prepareCoflows_built {file : List Byte} {ports : CInt} {coflows : List Coflow}
    (prepared : prepareCoflows file precision = some (ports, coflows)) : ∀ c ∈ coflows, c.Built := by
  obtain ⟨coflowNum, -, prepared⟩ := Option.bind_eq_some_iff.mp prepared
  obtain ⟨rest, loop, made⟩ := Option.bind_eq_some_iff.mp prepared
  cases made
  exact prepareLoop_built loop

end TraceProducer

end CoflowSim
