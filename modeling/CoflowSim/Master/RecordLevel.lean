import CoflowSim.Master.Scheduler

namespace CoflowSim
open Lib

namespace SocketManage

/-- The connection with nothing received on it. -/
def unread (s : SocketManage) : SocketManage := { s with recvBuf := .filled 0 false, recvIdx := 0 }

theorem setSendMsg_unread (s : SocketManage) (msg : List Byte) :
    (s.unread.setSendMsg msg).socket = (s.setSendMsg msg).socket.unread := by
  by_cases full : MAX_SEND_BUFFER_SIZE < s.sendBufSize + msg.length
  · rw [setSendMsg, setSendMsg, if_pos full, if_pos (show _ < s.unread.sendBufSize + msg.length from full)]
  · rw [setSendMsg, setSendMsg, if_neg full, if_neg (show ¬ _ < s.unread.sendBufSize + msg.length from full)]
    rfl

theorem sendMessage_unread (s : SocketManage) (kernel : SendOutcome) :
    (s.unread.sendMessage kernel).socket = (s.sendMessage kernel).socket.unread := by
  have size : s.unread.sendBufSize = s.sendBufSize := rfl
  simp only [sendMessage, size]
  split
  · rfl
  · cases kernel with
    | accepted count =>
      dsimp only
      split
      · rfl
      · rfl
    | eagain | failed => rfl

theorem sendMsg_unread (s : SocketManage) (kernel : SendOutcome) :
    (s.unread.sendMsg kernel).socket = (s.sendMsg kernel).socket.unread := by
  have size : s.unread.sendBufSize = s.sendBufSize := rfl
  simp only [sendMsg, size]
  split
  · exact s.sendMessage_unread kernel
  · rfl

end SocketManage

namespace Machine

/-- The machine with its queue, and nothing received behind the queue. -/
def unread (m : Machine) : Machine :=
  { m with toSocketManage := m.toSocketManage.unread, tmprecv := .filled 0 false, tmprecvIndex := 0 }

end Machine

namespace MachineManager

def unread (mm : MachineManager) : MachineManager :=
  { mm with m_physicsMachines := mm.m_physicsMachines.map Machine.unread }

theorem machineOf_unread (mm : MachineManager) (id : CInt) :
    mm.unread.machineOf id = (mm.machineOf id).map fun found => (found.1, found.2.unread) := by
  simp only [machineOf, unread]
  cases mm.m_logicMap.find? id with
  | none => rfl
  | some position =>
    simp only [Option.bind_eq_bind, Option.bind_some, List.getElem?_map]
    cases mm.m_physicsMachines[position]? with
    | none => rfl
    | some m => rfl

end MachineManager

def TaskCall.unread (call : TaskCall) : TaskCall :=
  { call with machines := call.machines.unread, before := call.before.unread, offered := call.offered.unread }

/-- A call of `sendTask` does not look at what has been received. -/
theorem MachineManager.sendTask_unread {mm : MachineManager} {coflowID flowID mapperID reducerID : CInt}
    {flowSizeMB sendSpeedMbs : Rat} {kernel : SendOutcome} {call : TaskCall}
    (called : mm.sendTask coflowID flowID mapperID reducerID flowSizeMB sendSpeedMbs kernel = some call) :
    mm.unread.sendTask coflowID flowID mapperID reducerID flowSizeMB sendSpeedMbs kernel = some call.unread := by
  obtain ⟨⟨mapper, m⟩, atMapper, called⟩ := Option.bind_eq_some_iff.mp called
  obtain ⟨⟨position, r⟩, atReducer, called⟩ := Option.bind_eq_some_iff.mp called
  dsimp only at called
  split at called
  · cases called
  · rename_i short
    cases called
    have atMapper' : mm.unread.machineOf mapperID = some (mapper, m.unread) := by
      rw [machineOf_unread, atMapper, Option.map_some]
    have atReducer' : mm.unread.machineOf reducerID = some (position, r.unread) := by
      rw [machineOf_unread, atReducer, Option.map_some]
    refine Option.bind_eq_some_iff.mpr ⟨_, atMapper', Option.bind_eq_some_iff.mpr ⟨_, atReducer', ?_⟩⟩
    refine (if_neg short).trans (congrArg some ?_)
    have frame : taskFrame coflowID flowID r.unread.socketip r.unread.socketport flowSizeMB sendSpeedMbs =
        taskFrame coflowID flowID r.socketip r.socketport flowSizeMB sendSpeedMbs := rfl
    have set (msg : List Byte) : (m.unread.setSendMsg msg).socket = (m.setSendMsg msg).socket.unread :=
      m.toSocketManage.setSendMsg_unread msg
    rw [frame, set, SocketManage.sendMsg_unread]
    simp only [TaskCall.unread, unread, List.map_set]
    generalize (m.setSendMsg (taskFrame coflowID flowID r.socketip r.socketport flowSizeMB sendSpeedMbs)).socket = set
    generalize (set.sendMsg kernel).socket = sent
    rfl

def Dispatched.unread (d : Dispatched) : Dispatched := { d with call := d.call.unread }

namespace Scheduler

def unread (s : Scheduler) : Scheduler :=
  { s with machines := s.machines.unread, calls := s.calls.map Dispatched.unread }

theorem registerLoop_unread (t : Int) (n : Nat) (s : Scheduler) :
    registerLoop t n s.unread = (registerLoop t n s).unread := by
  induction n generalizing s with
  | zero => rfl
  | succ n ih =>
    have here : s.unread.sCoflows[s.unread.registerIndex]? = s.sCoflows[s.registerIndex]? := rfl
    rw [registerLoop, registerLoop, here]
    cases s.sCoflows[s.registerIndex]? with
    | none => rfl
    | some co =>
      dsimp only
      split
      · exact ih { s with
          sCoflows := s.sCoflows.set s.registerIndex (co.setCoflowState .registed)
          registerIndex := s.registerIndex + 1 }
      · rfl

theorem takeReport_unread (s : Scheduler) (ctime : Nat → Int) (info : FlowEndInfo) :
    (s.takeReport ctime info).unread = s.unread.takeReport ctime info := by
  have coflows : s.unread.sCoflows = s.sCoflows := rfl
  simp only [takeReport, coflows]
  split
  · rfl
  · rfl

theorem takeReport_machines (s : Scheduler) (ctime : Nat → Int) (info : FlowEndInfo) :
    (s.takeReport ctime info).machines = s.machines := by
  unfold takeReport
  dsimp only
  split
  · rfl
  · rfl

theorem takeReport_setMachines (s : Scheduler) (machines : MachineManager) (ctime : Nat → Int) (info : FlowEndInfo) :
    { s with machines }.takeReport ctime info = { s.takeReport ctime info with machines } := by
  simp only [takeReport]
  split
  · rfl
  · rfl

section Pieces

variable {s t : Scheduler} {ctime : Nat → Int}

/-- The loop over a queue can be cut where `run` has not returned. -/
theorem drainQueue_append {first : List FlowEndInfo} (drained : drainQueue ctime s first = (t, []))
    (going : t.returned = false) (rest : List FlowEndInfo) :
    drainQueue ctime s (first ++ rest) = drainQueue ctime t rest := by
  induction first generalizing s with
  | nil =>
    cases drained
    rfl
  | cons info first ih =>
    rw [drainQueue] at drained
    split at drained
    · rename_i returned
      cases drained
      rw [returned] at going
      cases going
    · rename_i further
      rw [List.cons_append, drainQueue]
      exact (if_neg further).trans (ih drained)

/-- The loop over the machines can be cut where `run` has not returned. -/
theorem pollMachines_append {first polled : List Machine} {arrivals : List (List FlowEndInfo)}
    (done : pollMachines ctime s first arrivals = (t, polled)) (going : t.returned = false)
    (each : arrivals.length = first.length) (rest : List Machine) (later : List (List FlowEndInfo)) :
    pollMachines ctime s (first ++ rest) (arrivals ++ later) =
      ((pollMachines ctime t rest later).1, polled ++ (pollMachines ctime t rest later).2) := by
  induction first generalizing s polled arrivals with
  | nil =>
    cases List.length_eq_zero_iff.mp each
    cases done
    rfl
  | cons it first ih =>
    obtain ⟨arrived, arrivals, rfl⟩ := List.exists_cons_of_length_eq_add_one each
    rw [List.length_cons, List.length_cons, Nat.add_right_cancel_iff] at each
    obtain ⟨u, queue, drained⟩ : ∃ u queue, drainQueue ctime s (it.flowsFinishedInfo ++ arrived) = (u, queue) :=
      ⟨_, _, rfl⟩
    rw [pollMachines] at done
    rw [List.cons_append, List.cons_append, pollMachines]
    simp only [List.headD_cons, List.tail_cons, drained] at done ⊢
    by_cases returned : u.returned = true
    · rw [if_pos returned] at done
      cases done
      rw [returned] at going
      cases going
    · rw [if_neg returned] at done ⊢
      obtain ⟨last, others⟩ := Prod.mk.inj done
      rw [ih (Prod.ext last rfl) each, ← others]
      rfl

/-- A poll of one machine. -/
theorem pollMachines_cons {it : Machine} {rest : List Machine} {pushed queue : List FlowEndInfo}
    (drained : drainQueue ctime s (it.flowsFinishedInfo ++ pushed) = (t, queue)) :
    pollMachines ctime s (it :: rest) [pushed] =
      if t.returned then (t, { it with flowsFinishedInfo := queue } :: rest)
      else ((pollMachines ctime t rest []).1,
        { it with flowsFinishedInfo := queue } :: (pollMachines ctime t rest []).2) := by
  rw [pollMachines, List.headD_cons, drained]
  rfl

/-- A record writes at most one line. -/
theorem takeReport_lines (s : Scheduler) (ctime : Nat → Int) (info : FlowEndInfo) :
    s.coflowFinishedNum ≤ (s.takeReport ctime info).coflowFinishedNum := by
  unfold takeReport
  dsimp only
  split
  · exact Nat.le_refl _
  · exact Nat.le_succ _

/-- The clock is read for the line that is written. -/
theorem takeReport_clock {other : Nat → Int} {info : FlowEndInfo}
    (agree : s.coflowFinishedNum < (s.takeReport other info).coflowFinishedNum →
      ctime s.coflowFinishedNum = other s.coflowFinishedNum) : s.takeReport ctime info = s.takeReport other info := by
  unfold takeReport at agree ⊢
  dsimp only at agree ⊢
  split at agree
  · rfl
  · rw [agree (Nat.lt_succ_self _)]

/-- One iteration more. -/
theorem run_snoc {start : Scheduler} {rounds : List Round} (ran : start.run rounds = some s)
    (going : s.returned = false) {round : Round} (iterated : s.iterate round = some t) :
    start.run (rounds ++ [round]) = some t := by
  induction rounds generalizing start with
  | nil =>
    cases ran
    rw [List.nil_append, run, going, iterated]
    rfl
  | cons first rounds ih =>
    rw [run] at ran
    rw [List.cons_append, run]
    split at ran
    · rename_i returned
      cases ran
      rw [returned] at going
      cases going
    · rename_i further
      obtain ⟨u, head, ran⟩ := Option.bind_eq_some_iff.mp ran
      exact (if_neg further).trans (Option.bind_eq_some_iff.mpr ⟨u, head, ih ran⟩)

end Pieces

end Scheduler

end CoflowSim
