import CoflowSim.Lib.FormattedOutput
import CoflowSim.Lib.OrderedMap
import CoflowSim.Master.Machine

namespace CoflowSim
open Lib

def underscore : Byte := 95

/-- `".txt"` -/
def dotTxt : List Byte := [46, 116, 120, 116]

/-- The capacity of the array in which `sendTask` builds an instruction. -/
def TASK_BUFFER : Nat := 100

/-- The text in `ch`, and what the stringstream still holds. -/
structure TaskText where
  ch : List Byte
  ss : List Byte

/-- `ss << field; ss >> ch + strlen(ch); ss.clear(); ch[strlen(ch)] = closing;` -/
def TaskText.put (text : TaskText) (field : List Byte) (closing : Byte) : TaskText :=
  let (token, ss) := (IStream.mk (text.ss ++ field) false).readToken
  ⟨text.ch ++ token ++ [closing], ss.rest⟩

/-- The instruction that `sendTask` builds for a flow to the machine at the
given address. -/
def taskFrame (coflowID flowID : CInt) (socketip : List Byte) (socketport : Int) (flowSizeMB sendSpeedMbs : Rat) :
    List Byte :=
  let fileName := showInt coflowID.val ++ [underscore] ++ showInt flowID.val ++ [underscore] ++
    showDouble flowSizeMB ++ [underscore] ++ showDouble sendSpeedMbs ++ dotTxt
  let text : TaskText := ⟨[lparen], []⟩
  let text := text.put (showInt coflowID.val) space
  let text := text.put (showInt flowID.val) space
  let text := text.put socketip space
  let text := text.put (showInt socketport) space
  let text := text.put fileName space
  let text := text.put (showDouble flowSizeMB) space
  let text := text.put (showDouble sendSpeedMbs) rparen
  text.ch

/-- A pointer to a machine is its position in `m_physicsMachines`. -/
structure MachineManager where
  m_logicMap : OrderedMap CInt Nat
  m_physicsMachines : List Machine
  m_logicMachineNum : Int
  m_physicsMachinesNum : Nat

/-- A call of `sendTask`: its result, the machines after it, and what it did
on the way: the mapper's machine, the frame, and the socket of that machine
before and after `setSendMsg`. -/
structure TaskCall where
  result : Bool
  machines : MachineManager
  mapper : Nat
  frame : List Byte
  before : SocketManage
  offered : SocketManage

namespace MachineManager

def init : MachineManager := ⟨.empty, [], -1, 0⟩

def setLogicMachineNum (mm : MachineManager) (num : Int) : MachineManager := { mm with m_logicMachineNum := num }

def updateLogicMap (mm : MachineManager) : MachineManager :=
  let assign (m : OrderedMap CInt Nat) (i : Nat) := m.insert (CInt.clamp i) (i % mm.m_physicsMachines.length)
  { mm with m_logicMap := (List.range mm.m_logicMachineNum.toNat).foldl assign mm.m_logicMap }

def addOnePhysicsMachine (mm : MachineManager) (sockip : List Byte) (sockport : Int) : Nat × MachineManager :=
  let machine := Machine.create mm.m_physicsMachinesNum sockip sockport
  let mm := updateLogicMap { mm with
    m_physicsMachinesNum := mm.m_physicsMachinesNum + 1
    m_physicsMachines := mm.m_physicsMachines ++ [machine] }
  (mm.m_physicsMachinesNum - 1, mm)

theorem find?_assign (length n : Nat) (small : n ≤ 2147483648) (m : OrderedMap CInt Nat) (id : CInt) :
    ((List.range n).foldl (fun m i => m.insert (CInt.clamp (i : Nat)) (i % length)) m).find? id =
      if 0 ≤ id.val ∧ id.val < n then some (id.val.toNat % length) else m.find? id := by
  induction n with
  | zero => rw [if_neg (by omega)]; rfl
  | succ n ih =>
    rw [List.range_succ, List.foldl_append, List.foldl_cons, List.foldl_nil, OrderedMap.find?_insert, ih (by omega)]
    have value := CInt.val_clamp (z := n) (by omega) (by omega)
    by_cases here : id = CInt.clamp n
    · have same : id.val = n := by rw [here, value]
      rw [if_pos here, if_pos (by omega)]
      congr 2
      omega
    · have other : id.val ≠ n := by
        intro same
        exact here (Subtype.ext (same.trans value.symm))
      rw [if_neg here]
      refine if_congr ?_ rfl rfl
      omega

/-- What an addition does: every logical machine is assigned anew. -/
theorem addOnePhysicsMachine_spec {mm : MachineManager} (small : mm.m_logicMachineNum ≤ 2147483648)
    (sockip : List Byte) (sockport : Int) :
    ∃ added, mm.addOnePhysicsMachine sockip sockport = (mm.m_physicsMachinesNum, added) ∧
      added.m_logicMachineNum = mm.m_logicMachineNum ∧ added.m_physicsMachinesNum = mm.m_physicsMachinesNum + 1 ∧
      added.m_physicsMachines = mm.m_physicsMachines ++ [Machine.create mm.m_physicsMachinesNum sockip sockport] ∧
      ∀ id : CInt, added.m_logicMap.find? id =
        if 0 ≤ id.val ∧ id.val < mm.m_logicMachineNum then some (id.val.toNat % (mm.m_physicsMachines.length + 1))
        else mm.m_logicMap.find? id := by
  refine ⟨(mm.addOnePhysicsMachine sockip sockport).2, ?_, rfl, rfl, rfl, fun id => ?_⟩
  · simp only [addOnePhysicsMachine, updateLogicMap, Nat.add_sub_cancel]
  · simp only [addOnePhysicsMachine, updateLogicMap, List.length_append, List.length_singleton]
    rw [find?_assign _ _ (by omega)]
    refine if_congr ?_ rfl rfl
    omega

/-- The machine that `m_logicMap[id]` points to; `none` is the null pointer
that a missing key gives. -/
def machineOf (mm : MachineManager) (id : CInt) : Option (Nat × Machine) := do
  let position ← mm.m_logicMap.find? id
  let machine ← mm.m_physicsMachines[position]?
  some (position, machine)

/-- `none` is a null machine, or an instruction that runs out of `ch`. -/
def sendTask (mm : MachineManager) (coflowID flowID mapperID reducerID : CInt) (flowSizeMB sendSpeedMbs : Rat)
    (kernel : SendOutcome) : Option TaskCall := do
  let (mapper, m) ← mm.machineOf mapperID
  let (_, r) ← mm.machineOf reducerID
  let ch := taskFrame coflowID flowID r.socketip r.socketport flowSizeMB sendSpeedMbs
  if TASK_BUFFER ≤ ch.length then none
  else
    -- the results of `setSendMsg` and of `sendMsg` are both dropped
    let set := m.setSendMsg ch
    let sent := set.socket.sendMsg kernel
    some {
      result := true
      machines := { mm with
        m_physicsMachines := mm.m_physicsMachines.set mapper { m with toSocketManage := sent.socket } }
      mapper, frame := ch, before := m.toSocketManage, offered := set.socket }

/-- What a call of `sendTask` does, whatever its kernel returns. -/
theorem sendTask_spec {mm : MachineManager} {coflowID flowID mapperID reducerID : CInt}
    {flowSizeMB sendSpeedMbs : Rat} {kernel : SendOutcome} {call : TaskCall}
    (called : mm.sendTask coflowID flowID mapperID reducerID flowSizeMB sendSpeedMbs kernel = some call) :
    ∃ m position r sent, mm.machineOf mapperID = some (call.mapper, m) ∧
      mm.machineOf reducerID = some (position, r) ∧
      call.result = true ∧ call.frame = taskFrame coflowID flowID r.socketip r.socketport flowSizeMB sendSpeedMbs ∧
      call.before = m.toSocketManage ∧ call.offered = (m.setSendMsg call.frame).socket ∧
      call.machines = { mm with
        m_physicsMachines := mm.m_physicsMachines.set call.mapper { m with toSocketManage := sent } } := by
  obtain ⟨⟨mapper, m⟩, atMapper, called⟩ := Option.bind_eq_some_iff.mp called
  obtain ⟨⟨position, r⟩, atReducer, called⟩ := Option.bind_eq_some_iff.mp called
  dsimp only at called
  split at called
  · cases called
  · cases called
    refine ⟨m, position, r, ((m.setSendMsg (taskFrame coflowID flowID r.socketip r.socketport flowSizeMB
      sendSpeedMbs)).socket.sendMsg kernel).socket, atMapper, atReducer, ?_⟩
    simp only [and_self]

theorem machineOf_position {mm : MachineManager} {id : CInt} {position : Nat} {m : Machine}
    (found : mm.machineOf id = some (position, m)) :
    mm.m_logicMap.find? id = some position ∧ mm.m_physicsMachines[position]? = some m := by
  obtain ⟨p, atKey, found⟩ := Option.bind_eq_some_iff.mp found
  obtain ⟨machine, inside, same⟩ := Option.bind_eq_some_iff.mp found
  cases same
  exact ⟨atKey, inside⟩

/-- A field that does not belong to the socket of a machine is left alone by
`sendTask`. -/
theorem sendTask_map {β : Type} (field : Machine → β)
    (kept : ∀ m socket, field { m with toSocketManage := socket } = field m)
    {mm : MachineManager} {coflowID flowID mapperID reducerID : CInt} {flowSizeMB sendSpeedMbs : Rat}
    {kernel : SendOutcome} {call : TaskCall}
    (called : mm.sendTask coflowID flowID mapperID reducerID flowSizeMB sendSpeedMbs kernel = some call) :
    call.machines.m_physicsMachines.map field = mm.m_physicsMachines.map field := by
  obtain ⟨m, _, _, sent, atMapper, -, -, -, -, -, machines⟩ := sendTask_spec called
  obtain ⟨-, inside⟩ := machineOf_position atMapper
  obtain ⟨bound, rfl⟩ := List.getElem?_eq_some_iff.mp inside
  rw [machines]
  dsimp only
  rw [List.map_set, kept, ← List.getElem_map field (h := by simpa using bound), List.set_getElem_self]

end MachineManager

/-- Two machines with a logic machine each. -/
def twoMachines : MachineManager :=
  (((MachineManager.init.setLogicMachineNum 2).addOnePhysicsMachine [49] 80).2.addOnePhysicsMachine [50] 81).2

end CoflowSim
