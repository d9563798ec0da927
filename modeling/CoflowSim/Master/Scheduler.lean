import CoflowSim.Master.Coflow
import CoflowSim.Master.MachineManager

namespace CoflowSim
open Lib

/-- A line of `coflow.log`. -/
structure CoflowLine where
  coflowID : CInt
  startTime : Rat
  time : Int
deriving DecidableEq

/-- A completion record that `run` has taken from a machine, with the line
that it has written for it, if any. -/
structure Report where
  info : FlowEndInfo
  line : Option CoflowLine
deriving DecidableEq

/-- A call of `sendTask` by `run`: the position of the coflow, its flow, and
what the call did. -/
structure Dispatched where
  coflow : Nat
  flow : Flow
  call : TaskCall

/-- The state of the scheduler's loop, with what it has done so far: the calls
of `sendTask` and the records it has taken. -/
structure Scheduler where
  sCoflows : List Coflow
  registerIndex : Nat
  machines : MachineManager
  startTime : Int
  coflowFinishedNum : Nat
  returned : Bool
  calls : List Dispatched
  reports : List Report

/-- What one iteration of `run` meets: the clock reading at its registration,
those at the lines it writes, by their number, what its sends return, and the
records that each machine's parser pushes. -/
structure Round where
  now : Int
  ctime : Nat → Int
  sends : List SendOutcome
  arrivals : List (List FlowEndInfo)

/-- What the second loop makes of a coflow that it sends. -/
def Coflow.settled (c : Coflow) : Coflow :=
  { c with
    flowCollection := c.flowCollection.mapEntries fun _ f => f.setCurrentMbs 10
    coflowState := .runninged }

namespace Scheduler

/-- The loop of `registerCoflow`, over the coflows still to register. -/
def registerLoop (t : Int) : Nat → Scheduler → Scheduler
  | 0, s => s
  | coflows + 1, s =>
    match s.sCoflows[s.registerIndex]? with
    | none => s
    | some co =>
      if co.startTime ≤ t then
        registerLoop t coflows { s with
          sCoflows := s.sCoflows.set s.registerIndex (co.setCoflowState .registed)
          registerIndex := s.registerIndex + 1 }
      else s

def registerCoflow (s : Scheduler) (currentTime : Int) : Scheduler :=
  s.registerLoop (currentTime - s.startTime) (s.sCoflows.length - s.registerIndex)

/-- The first loop of an iteration. -/
def select (s : Scheduler) : Scheduler :=
  { s with sCoflows := (List.range s.registerIndex).foldl (fun coflows i => coflows.modify i fun co =>
      if co.coflowState = .registed then co.setCoflowState .running else co) s.sCoflows }

/-- `while (!machines->sendTask(...));` over what its sends return. `none` is
undefined behaviour in `sendTask`, or a loop that has not come to its end. -/
def sendTaskLoop (i : Nat) (co : Coflow) (f : Flow) :
    Scheduler → List SendOutcome → Option (Scheduler × List SendOutcome)
  | _, [] => none
  | s, kernel :: sends => do
    let call ← s.machines.sendTask co.coflowID f.flowID f.mapperID f.reducerID f.flowSizeMB f.currentMbs kernel
    let s := { s with machines := call.machines, calls := s.calls ++ [⟨i, f, call⟩] }
    if call.result then some (s, sends) else sendTaskLoop i co f s sends

/-- One coflow of the second loop of an iteration. -/
def dispatchCoflow (s : Scheduler) (sends : List SendOutcome) (i : Nat) : Option (Scheduler × List SendOutcome) := do
  let co ← s.sCoflows[i]?
  if co.coflowState = .running then
    let (s, sends) ← co.flowCollection.values.foldlM (fun (s, sends) f =>
      s.sendTaskLoop i co (f.setCurrentMbs 10) sends) (s, sends)
    let co := { co with flowCollection := co.flowCollection.mapEntries fun _ f => f.setCurrentMbs 10 }
    some ({ s with sCoflows := s.sCoflows.set i (co.setCoflowState .runninged) }, sends)
  else some (s, sends)

def dispatch (s : Scheduler) (sends : List SendOutcome) : Option (Scheduler × List SendOutcome) :=
  (List.range s.registerIndex).foldlM (fun (s, sends) i => s.dispatchCoflow sends i) (s, sends)

/-- The loop over `sCoflows` for one record: the first coflow with its ID
takes it, and no other is looked at. The second component is that coflow, if
`flowEnd` returns true. -/
def reportTo (info : FlowEndInfo) : List Coflow → List Coflow × Option Coflow
  | [] => ([], none)
  | co :: rest =>
    if co.coflowID = info.coflowID then
      let (ended, co) := co.flowEnd info.flowID info.endTime
      (co :: rest, if ended then some co else none)
    else
      let (rest, ended) := reportTo info rest
      (co :: rest, ended)

/-- The body of `while (getOneFlowEndInfo(...))`. -/
def takeReport (s : Scheduler) (ctime : Nat → Int) (info : FlowEndInfo) : Scheduler :=
  let (sCoflows, ended) := reportTo info s.sCoflows
  match ended with
  | none => { s with sCoflows, reports := s.reports ++ [⟨info, none⟩] }
  | some co =>
    let line : CoflowLine := ⟨info.coflowID, co.startTime, ctime s.coflowFinishedNum - s.startTime⟩
    { s with
      sCoflows, reports := s.reports ++ [⟨info, some line⟩]
      coflowFinishedNum := s.coflowFinishedNum + 1
      returned := decide (sCoflows.length ≤ s.coflowFinishedNum + 1) }

/-- `while (getOneFlowEndInfo(...))` on a machine's queue, with what is left of
the queue. -/
def drainQueue (ctime : Nat → Int) : Scheduler → List FlowEndInfo → Scheduler × List FlowEndInfo
  | s, [] => (s, [])
  | s, info :: queue =>
    let s := s.takeReport ctime info
    if s.returned then (s, queue) else drainQueue ctime s queue

/-- The loop over the machines: what the parser pushes goes to the queue, and
the queue is drained. -/
def pollMachines (ctime : Nat → Int) : Scheduler → List Machine → List (List FlowEndInfo) → Scheduler × List Machine
  | s, [], _ => (s, [])
  | s, it :: machines, arrivals =>
    let (s, queue) := s.drainQueue ctime (it.flowsFinishedInfo ++ arrivals.headD [])
    let it := { it with flowsFinishedInfo := queue }
    if s.returned then (s, it :: machines)
    else
      let (s, machines) := pollMachines ctime s machines arrivals.tail
      (s, it :: machines)

def poll (s : Scheduler) (ctime : Nat → Int) (arrivals : List (List FlowEndInfo)) : Scheduler :=
  let (s, m_physicsMachines) := s.pollMachines ctime s.machines.m_physicsMachines arrivals
  { s with machines := { s.machines with m_physicsMachines } }

/-- One pass of the `while` loop of `run`. -/
def iterate (s : Scheduler) (round : Round) : Option Scheduler := do
  let s := (s.registerCoflow round.now).select
  let (s, _) ← s.dispatch round.sends
  some (s.poll round.ctime round.arrivals)

/-- `run`, as far as the given iterations lead. -/
def run (s : Scheduler) : List Round → Option Scheduler
  | [] => some s
  | round :: rounds =>
    if s.returned then some s
    else do
      let s ← s.iterate round
      s.run rounds

/-- The scheduler as its constructor, `setMachines` and `setCoflows` leave it,
with the values that `run` gives its locals. -/
def init (sCoflows : List Coflow) (machines : MachineManager) (startTime : Int) : Scheduler :=
  { sCoflows, registerIndex := 0, machines, startTime, coflowFinishedNum := 0, returned := false
    calls := [], reports := [] }

/-- A coflow that does not run is passed over; the other gets the calls for its
flows, and is settled. -/
theorem dispatchCoflow_cases {s t : Scheduler} {sends rest : List SendOutcome} {i : Nat}
    (dispatched : s.dispatchCoflow sends i = some (t, rest)) :
    ∃ co, s.sCoflows[i]? = some co ∧ (co.coflowState ≠ .running ∧ t = s ∨ co.coflowState = .running ∧
      ∃ u, co.flowCollection.values.foldlM (fun (s, sends) f => s.sendTaskLoop i co (f.setCurrentMbs 10) sends)
        (s, sends) = some (u, rest) ∧ t = { u with sCoflows := u.sCoflows.set i co.settled }) := by
  obtain ⟨co, atI, body⟩ := Option.bind_eq_some_iff.mp dispatched
  refine ⟨co, atI, ?_⟩
  dsimp only at body
  split at body
  · rename_i running
    obtain ⟨⟨u, left⟩, sent, finish⟩ := Option.bind_eq_some_iff.mp body
    cases finish
    exact Or.inr ⟨running, u, sent, rfl⟩
  · rename_i passed
    cases body
    exact Or.inl ⟨passed, rfl⟩

/-- A value of the coflows that an update of one of them does not change. -/
theorem map_set_same {β : Type} {value : Coflow → β} {coflows : List Coflow} {i : Nat} {c d : Coflow}
    (atI : coflows[i]? = some c) (same : value d = value c) :
    (coflows.set i d).map value = coflows.map value := by
  obtain ⟨inside, rfl⟩ := List.getElem?_eq_some_iff.mp atI
  rw [List.map_set, same, ← List.getElem_map value (h := by simpa using inside), List.set_getElem_self]

theorem select_map {β : Type} {value : Coflow → β} (s : Scheduler)
    (kept : ∀ co, co.coflowState = .registed → value (co.setCoflowState .running) = value co) :
    s.select.sCoflows.map value = s.sCoflows.map value := by
  unfold select
  dsimp only
  generalize List.range s.registerIndex = indices
  generalize s.sCoflows = coflows
  induction indices generalizing coflows with
  | nil => rfl
  | cons i rest ih =>
    rw [List.foldl_cons, ih]
    refine List.ext_getElem? fun j => ?_
    rw [List.getElem?_map, List.getElem?_modify, List.getElem?_map]
    cases coflows[j]? with
    | none => rfl
    | some co =>
      by_cases here : i = j
      · by_cases registed : co.coflowState = .registed <;> simp [here, registed, kept]
      · simp [here]

/-- What a record changes: its taker, the log, and, with a line, the counter
and the end of the loop. -/
theorem takeReport_spec (s : Scheduler) (ctime : Nat → Int) (info : FlowEndInfo) :
    ∃ line : Option CoflowLine, line.isSome = (reportTo info s.sCoflows).2.isSome ∧
      (∀ written, line = some written → written.coflowID = info.coflowID) ∧
      s.takeReport ctime info = { s with
        sCoflows := (reportTo info s.sCoflows).1
        reports := s.reports ++ [⟨info, line⟩]
        coflowFinishedNum := s.coflowFinishedNum + if line.isSome = true then 1 else 0
        returned := if line.isSome = true then
          decide ((reportTo info s.sCoflows).1.length ≤ s.coflowFinishedNum + 1) else s.returned } := by
  unfold takeReport
  rcases reportTo info s.sCoflows with ⟨updated, ended⟩
  cases ended with
  | none => exact ⟨none, rfl, by simp, rfl⟩
  | some co => exact ⟨some _, rfl, fun written same => by cases same; rfl, rfl⟩

/-- A value of the coflows that no report changes. -/
theorem reportTo_map {β : Type} {value : Coflow → β}
    (kept : ∀ c flowID endtime, value (Coflow.flowEnd c flowID endtime).2 = value c) (info : FlowEndInfo)
    (coflows : List Coflow) : (reportTo info coflows).1.map value = coflows.map value := by
  induction coflows with
  | nil => rfl
  | cons co rest ih =>
    by_cases same : co.coflowID = info.coflowID
    · simp [reportTo, same, kept]
    · simp [reportTo, same, ih]

section Keeps

variable {P : Scheduler → Prop} {s : Scheduler}

/-- What every report keeps, polling keeps. -/
theorem drainQueue_keeps {ctime : Nat → Int} (each : ∀ s info, P s → P (s.takeReport ctime info)) (base : P s)
    (queue : List FlowEndInfo) : P (s.drainQueue ctime queue).1 := by
  induction queue generalizing s with
  | nil => exact base
  | cons info queue ih =>
    unfold drainQueue
    dsimp only
    split
    · exact each s info base
    · exact ih (each s info base)

theorem pollMachines_keeps {ctime : Nat → Int} (each : ∀ s info, P s → P (s.takeReport ctime info)) (base : P s)
    (machines : List Machine) (arrivals : List (List FlowEndInfo)) : P (s.pollMachines ctime machines arrivals).1 := by
  induction machines generalizing s arrivals with
  | nil => exact base
  | cons it machines ih =>
    have after := drainQueue_keeps each base (it.flowsFinishedInfo ++ arrivals.headD [])
    unfold pollMachines
    dsimp only
    split
    · exact after
    · exact ih after arrivals.tail

/-- Polling changes the queues of the machines only. -/
theorem pollMachines_addresses (s : Scheduler) (ctime : Nat → Int) (machines : List Machine)
    (arrivals : List (List FlowEndInfo)) :
    (s.pollMachines ctime machines arrivals).2.map (fun m => (m.socketip, m.socketport)) =
      machines.map fun m => (m.socketip, m.socketport) := by
  induction machines generalizing s arrivals with
  | nil => rfl
  | cons it machines ih =>
    unfold pollMachines
    dsimp only
    split
    · rfl
    · exact congrArg (_ :: ·) (ih _ _)

/-- What every iteration keeps, a run keeps. -/
theorem run_keeps {t : Scheduler} {rounds : List Round}
    (each : ∀ s t round, P s → s.returned = false → s.iterate round = some t → P t) (base : P s)
    (ran : s.run rounds = some t) : P t := by
  induction rounds generalizing s with
  | nil =>
    cases ran
    exact base
  | cons round rounds ih =>
    rw [run] at ran
    split at ran
    · cases ran
      exact base
    · rename_i going
      obtain ⟨u, pass, later⟩ := Option.bind_eq_some_iff.mp ran
      exact ih (each s u round base (Bool.eq_false_iff.mpr going) pass) later

end Keeps

end Scheduler

end CoflowSim
