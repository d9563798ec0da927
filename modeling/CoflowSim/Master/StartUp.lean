import CoflowSim.Master.DispatchOnce
import CoflowSim.Master.TraceFormat

namespace CoflowSim
open Lib

/-- An object in the array `clients` of the machine definition. -/
structure ClientEntry where
  ip : List Byte
  port : CInt

/-- What `parseMachineDefine` finds in its document. -/
structure MachineDefine where
  master_ip : List Byte
  master_port : CInt
  clients : List ClientEntry

/-- The capacity of `master_ip` and `client_ip`. -/
def ADDRESS_BUFFER : Nat := 64

/-- `ss << ip; ss >> address; ss.clear(); ss << port; ss >> number; ss.clear();`
with what the stringstream held before. `none` is an address that runs out of
its array, no bytes are one that leaves it alone; a port that is not read stays
as it was. -/
def readAddress (ss ip : List Byte) (port unset : CInt) : Option ((List Byte × CInt) × List Byte) :=
  let (address, rest) := (IStream.mk (ss ++ ip) false).readToken
  let (number, rest) := (IStream.mk (rest.rest ++ showInt port.val) false).readInt
  if ADDRESS_BUFFER ≤ address.length then none else some ((address, number.getD unset), rest.rest)

/-- The loop over `clients`. -/
def addClients (unset : CInt) : List ClientEntry → MachineManager → List Byte → Option MachineManager
  | [], machineManager, _ => some machineManager
  | client :: clients, machineManager, ss => do
    let ((client_ip, client_port), ss) ← readAddress ss client.ip client.port unset
    addClients unset clients (machineManager.addOnePhysicsMachine client_ip client_port.val).2 ss

def parseMachineDefine (define : MachineDefine) (unset : CInt) (machineManager : MachineManager) :
    Option MachineManager := do
  let (_, ss) ← readAddress [] define.master_ip define.master_port unset
  addClients unset define.clients machineManager ss

/-- `createConnect` for every machine: whatever `connect` returns, the socket
is set up anew. -/
def MachineManager.startConn (mm : MachineManager) : MachineManager :=
  { mm with m_physicsMachines :=
      mm.m_physicsMachines.map fun it => { it with toSocketManage := SocketManage.initSocket } }

/-- The number of logic machines in `coflowSimMaster`. -/
def LOGIC_MACHINES : Int := 150

/-- `coflowSimMaster` up to the start of `run`, from the two files. -/
def coflowSimMaster (file : List Byte) (define : MachineDefine) (unset : CInt) (startTime : Int)
    (precision : Precision := .exact) : Option Scheduler := do
  let (_, coflows) ← TraceProducer.prepareCoflows file precision
  let machineManager1 ← parseMachineDefine define unset (MachineManager.init.setLogicMachineNum LOGIC_MACHINES)
  some (Scheduler.init coflows machineManager1.startConn startTime)

namespace MachineManager

/-- The map points every logic machine to a physical one, in turn, and knows
no other key. -/
structure Covers (mm : MachineManager) : Prop where
  number : mm.m_logicMachineNum = LOGIC_MACHINES
  keys : ∀ id : CInt, mm.m_logicMap.find? id =
    if 0 ≤ id.val ∧ id.val < LOGIC_MACHINES ∧ mm.m_physicsMachines ≠ [] then
      some (id.val.toNat % mm.m_physicsMachines.length) else none

theorem covers_init : (init.setLogicMachineNum LOGIC_MACHINES).Covers :=
  ⟨rfl, fun _ => (if_neg fun all => all.2.2 rfl).symm⟩

theorem Covers.addOnePhysicsMachine {mm : MachineManager} (covers : mm.Covers) (sockip : List Byte) (sockport : Int) :
    (mm.addOnePhysicsMachine sockip sockport).2.Covers ∧
      (mm.addOnePhysicsMachine sockip sockport).2.m_physicsMachines ≠ [] := by
  obtain ⟨number, keys⟩ := covers
  have small : mm.m_logicMachineNum ≤ 2147483648 := by
    rw [number]
    decide
  obtain ⟨added, same, sameNumber, -, pushed, assigned⟩ := addOnePhysicsMachine_spec small sockip sockport
  have nonempty : added.m_physicsMachines ≠ [] := by simp [pushed]
  rw [same]
  refine ⟨⟨sameNumber.trans number, fun id => ?_⟩, nonempty⟩
  rw [assigned id, number, pushed, List.length_append, List.length_singleton]
  by_cases inside : 0 ≤ id.val ∧ id.val < LOGIC_MACHINES
  · rw [if_pos inside, if_pos ⟨inside.1, inside.2, by simp⟩]
  · rw [if_neg inside, if_neg fun all => inside ⟨all.1, all.2.1⟩, keys id,
      if_neg fun all => inside ⟨all.1, all.2.1⟩]

theorem Covers.addClients {mm : MachineManager} (covers : mm.Covers) {unset : CInt} {clients : List ClientEntry}
    {ss : List Byte} {mm' : MachineManager} (added : CoflowSim.addClients unset clients mm ss = some mm') :
    mm'.Covers ∧ (clients ≠ [] ∨ mm.m_physicsMachines ≠ [] → mm'.m_physicsMachines ≠ []) := by
  induction clients generalizing mm ss with
  | nil =>
    cases added
    exact ⟨covers, fun some_machine => some_machine.resolve_left (fun clients => clients rfl)⟩
  | cons client clients ih =>
    obtain ⟨⟨⟨client_ip, client_port⟩, rest⟩, -, added⟩ := Option.bind_eq_some_iff.mp added
    obtain ⟨next, nonempty⟩ := covers.addOnePhysicsMachine client_ip client_port.val
    obtain ⟨last, kept⟩ := ih next added
    exact ⟨last, fun _ => kept (Or.inr nonempty)⟩

theorem startConn_routes (mm : MachineManager) : mm.startConn.routes = mm.routes := by
  simp [startConn, routes]

theorem machineOf_isSome_of_routes {mm mm' : MachineManager} (same : mm.routes = mm'.routes) (id : CInt) :
    (mm.machineOf id).isSome = (mm'.machineOf id).isSome := by
  have routed := mm.machineOf_routes id
  rw [same, ← machineOf_routes] at routed
  simpa using congrArg Option.isSome routed

/-- With a machine, the logic machines are the IDs from 0 to 149. -/
theorem Covers.machineOf_isSome_iff {mm : MachineManager} (covers : mm.Covers)
    (some_machine : mm.m_physicsMachines ≠ []) (id : CInt) :
    (mm.machineOf id).isSome = true ↔ 0 ≤ id.val ∧ id.val < 150 := by
  unfold machineOf
  rw [covers.keys id]
  by_cases inside : 0 ≤ id.val ∧ id.val < 150
  · have position : id.val.toNat % mm.m_physicsMachines.length < mm.m_physicsMachines.length :=
      Nat.mod_lt _ (List.length_pos_iff.mpr some_machine)
    rw [if_pos ⟨inside.1, inside.2, some_machine⟩]
    simp [position, inside]
  · have absent : ¬ (0 ≤ id.val ∧ id.val < LOGIC_MACHINES ∧ mm.m_physicsMachines ≠ []) :=
      fun all => inside ⟨all.1, all.2.1⟩
    rw [if_neg absent]
    simp only [Option.bind_eq_bind, Option.bind_none, Option.isSome_none, Bool.false_eq_true, false_iff]
    exact inside

end MachineManager

namespace Scheduler

/-- In the iteration that follows, `run` is to call `sendTask` for this flow. -/
def Calls (s : Scheduler) (round : Round) (f : Flow) : Prop :=
  ∃ i co, i < (s.registerCoflow round.now).select.registerIndex ∧
    (s.registerCoflow round.now).select.sCoflows[i]? = some co ∧ co.coflowState = .running ∧
    f ∈ co.flowCollection.values

/-- With a clock that has passed every start time, all coflows are registered. -/
theorem registerLoop_all (t : Int) (s : Scheduler) (due : ∀ c ∈ s.sCoflows, c.startTime ≤ t) {n : Nat}
    (left : s.registerIndex + n = s.sCoflows.length) : (registerLoop t n s).registerIndex = s.registerIndex + n := by
  induction n generalizing s with
  | zero => rfl
  | succ n ih =>
    have inside : s.registerIndex < s.sCoflows.length := by omega
    have here : s.sCoflows[s.registerIndex]? = some s.sCoflows[s.registerIndex] := List.getElem?_eq_getElem inside
    rw [registerLoop, here]
    dsimp only
    rw [if_pos (due _ (List.getElem_mem inside))]
    refine (ih _ (fun c member => ?_) (by simp only [List.length_set]; omega)).trans (by dsimp only; omega)
    rcases List.mem_or_eq_of_mem_set member with old | rfl
    · exact due c old
    · have first := due _ (List.getElem_mem inside)
      exact first

theorem exists_late (coflows : List Coflow) : ∃ now : Int, ∀ c ∈ coflows, c.startTime ≤ now := by
  induction coflows with
  | nil => exact ⟨0, by simp⟩
  | cons c rest ih =>
    obtain ⟨now, late⟩ := ih
    refine ⟨max c.startTime.ceil now, List.forall_mem_cons.mpr ⟨?_, fun d member => ?_⟩⟩
    · exact Rat.le_ceil.trans (Rat.intCast_le_intCast.mpr (le_max_left _ _))
    · exact (late d member).trans (Rat.intCast_le_intCast.mpr (le_max_right _ _))

theorem Standing.selected {coflows : List Coflow} {s : Scheduler}
    (standing : Standing coflows .running s.registerIndex s) (round : Round) :
    Standing coflows .running s.registerIndex (s.registerCoflow round.now).select :=
  ((standing.of_settled .registed).registerLoop (round.now - s.startTime)
    (s.sCoflows.length - s.registerIndex)).1.select

/-- The calls are for the coflows that the iteration registers. -/
theorem calls_iff {coflows : List Coflow} {s : Scheduler} {round : Round}
    (standing : Standing coflows .running s.registerIndex s) (task : Task) :
    (∃ f, s.Calls round f ∧ (f.setCurrentMbs 10).task = task) ↔
      ∃ i c, s.registerIndex ≤ i ∧ i < (s.registerCoflow round.now).select.registerIndex ∧ coflows[i]? = some c ∧
        task ∈ c.order.2 := by
  have selected := standing.selected round
  have entry (i : Nat) :
      (s.registerCoflow round.now).select.sCoflows[i]?.map Coflow.order = coflows[i]?.map Coflow.order := by
    rw [← List.getElem?_map, ← List.getElem?_map, selected.orders]
  constructor
  · rintro ⟨f, ⟨i, co, below, atI, running, member⟩, rfl⟩
    have same := entry i
    rw [atI, Option.map_some] at same
    obtain ⟨c, atC, same⟩ := Option.map_eq_some_iff.mp same.symm
    refine ⟨i, c, ?_, below, atC, same ▸ List.mem_map_of_mem member⟩
    by_contra sent
    have state := selected.states i co atI
    rw [if_pos (by omega), running] at state
    cases state
  · rintro ⟨i, c, from_index, below, atC, member⟩
    have same := entry i
    rw [atC, Option.map_some] at same
    obtain ⟨co, atI, same⟩ := Option.map_eq_some_iff.mp same
    have running := selected.states i co atI
    rw [if_neg (by omega), if_pos below] at running
    obtain ⟨f, inside, task⟩ := List.mem_map.mp (same ▸ member)
    exact ⟨f, ⟨i, co, below, atI, running, inside⟩, task⟩

/-- The tasks that an iteration adds to `calls` are those it is to call `sendTask` for. -/
theorem calls_iff_sent {coflows : List Coflow} {s t : Scheduler} {round : Round} {rest : List SendOutcome}
    (standing : Standing coflows .running s.registerIndex s) (phase : s.dispatchPhase round = some (t, rest))
    (task : Task) : (∃ f, s.Calls round f ∧ (f.setCurrentMbs 10).task = task) ↔
      ∃ d ∈ t.calls.drop s.calls.length, d.flow.task = task := by
  have selected := standing.selected round
  obtain ⟨settled, index, -⟩ := selected.dispatch phase
  have later : s.registerIndex ≤ t.registerIndex := index ▸ selected.within
  have calls : (t.calls.drop s.calls.length).map Dispatched.summary =
      (List.range (t.registerIndex - s.registerIndex)).flatMap
        fun k => ((coflows.map Coflow.order)[s.registerIndex + k]?.map (dueOf (s.registerIndex + k))).getD [] := by
    have lengths := congrArg List.length standing.calls
    rw [List.length_map] at lengths
    rw [List.map_drop, settled.calls, lengths, dueCalls, dueCalls, ← Nat.add_sub_cancel' later, List.range_add,
      List.flatMap_append, List.drop_left, List.flatMap_map, Nat.add_sub_cancel' later]
  have sent : (∃ d ∈ t.calls.drop s.calls.length, d.flow.task = task) ↔
      ∃ due ∈ (t.calls.drop s.calls.length).map Dispatched.summary, due.2.1 = task := by
    constructor
    · rintro ⟨d, member, same⟩
      exact ⟨d.summary, List.mem_map_of_mem member, same⟩
    · rintro ⟨_, member, same⟩
      obtain ⟨d, inside, rfl⟩ := List.mem_map.mp member
      exact ⟨d, inside, same⟩
  rw [calls_iff standing, sent, calls]
  constructor
  · rintro ⟨i, c, from_index, below, atC, member⟩
    have position : s.registerIndex + (i - s.registerIndex) = i := by omega
    refine ⟨(i, task, true), List.mem_flatMap.mpr ⟨i - s.registerIndex, List.mem_range.mpr (by omega), ?_⟩, rfl⟩
    rw [position, List.getElem?_map, atC]
    exact List.mem_map_of_mem member
  · rintro ⟨due, member, rfl⟩
    obtain ⟨k, below, inside⟩ := List.mem_flatMap.mp member
    have small := List.mem_range.mp below
    rw [List.getElem?_map] at inside
    cases atC : coflows[s.registerIndex + k]? with
    | none =>
      rw [atC] at inside
      cases inside
    | some c =>
      rw [atC] at inside
      obtain ⟨task, within, rfl⟩ := List.mem_map.mp inside
      exact ⟨s.registerIndex + k, c, by omega, by omega, atC, within⟩

/-- Every call of `sendTask` that `run` makes finds both its machines. -/
def Routable (s : Scheduler) : Prop :=
  ∀ rounds t round f, s.run rounds = some t → t.returned = false → t.Calls round f →
    (t.machines.machineOf f.mapperID).isSome = true ∧ (t.machines.machineOf f.reducerID).isSome = true

/-- A run calls `sendTask` for the flows of its coflows, and for each of them
when the clock is late enough. -/
theorem routable_iff_flows {coflows : List Coflow} (built : ∀ c ∈ coflows, c.Built) (mm : MachineManager)
    (startTime : Int) : (init coflows mm startTime).Routable ↔ ∀ c ∈ coflows, ∀ f ∈ c.flowCollection.values,
      (mm.machineOf f.mapperID).isSome = true ∧ (mm.machineOf f.reducerID).isSome = true := by
  have unregistered : ∀ c ∈ coflows, c.coflowState = .unregister := fun c member => (built c member).unregister
  constructor
  · intro routable c member g inside
    obtain ⟨now, late⟩ := exists_late coflows
    have settled : Standing coflows .running (init coflows mm startTime).registerIndex (init coflows mm startTime) :=
      standing_init built mm startTime
    have due : ∀ c ∈ (init coflows mm startTime).sCoflows,
        c.startTime ≤ ((now + startTime - startTime : Int) : Rat) := by
      intro d other
      rw [add_sub_cancel_right]
      exact late d other
    have all := registerLoop_all (now + startTime - startTime) (init coflows mm startTime) due
      (n := coflows.length) (Nat.zero_add _)
    obtain ⟨i, atC⟩ := List.mem_iff_getElem?.mp member
    have below : i < (registerLoop (now + startTime - startTime) coflows.length
        (init coflows mm startTime)).select.registerIndex := by
      have inside := (List.getElem?_eq_some_iff.mp atC).1
      refine inside.trans_eq (Eq.trans ?_ all.symm)
      exact (Nat.zero_add coflows.length).symm
    have called : ∃ f, (init coflows mm startTime).Calls ⟨now + startTime, fun _ => 0, [], []⟩ f ∧
        (f.setCurrentMbs 10).task = (g.setCurrentMbs 10).task :=
      (calls_iff settled _).mpr ⟨i, c, Nat.zero_le i, below, atC, List.mem_map_of_mem inside⟩
    obtain ⟨f, calls, task⟩ := called
    have found := routable [] _ _ f rfl rfl calls
    simp only [Flow.task, Flow.setCurrentMbs, Prod.mk.injEq] at task
    rw [← task.2.1, ← task.2.2.1]
    exact found
  · intro found rounds t round f ran _ calls
    obtain ⟨standing, -⟩ := Standing.run (standing_init built mm startTime) ran
    obtain ⟨i, c, -, -, atC, member⟩ := (calls_iff standing _).mp ⟨f, calls, rfl⟩
    obtain ⟨g, inside, task⟩ := List.mem_map.mp member
    simp only [Flow.task, Flow.setCurrentMbs, Prod.mk.injEq] at task
    have routes := ((dispatches_init unregistered mm startTime).run ran).routes
    rw [MachineManager.machineOf_isSome_of_routes routes, MachineManager.machineOf_isSome_of_routes routes,
      ← task.2.1, ← task.2.2.1]
    exact found c (List.mem_of_getElem? atC) g inside

end Scheduler

/-- The location of a mapper or a reducer is one of the logic machines. -/
def Located (id : CInt) : Prop := 0 ≤ id.val ∧ id.val < LOGIC_MACHINES

theorem routable_iff_flows {file : List Byte} {ports : CInt} {coflows : List Coflow}
    (prepared : TraceProducer.prepareCoflows file = some (ports, coflows)) {define : MachineDefine} {unset : CInt}
    {startTime : Int} {s : Scheduler} (clients : define.clients ≠ [])
    (started : coflowSimMaster file define unset startTime = some s) :
    s.Routable ↔ ∀ c ∈ coflows, ∀ f ∈ c.flowCollection.values, Located f.mapperID ∧ Located f.reducerID := by
  obtain ⟨⟨ports', coflows'⟩, prepared', rest⟩ := Option.bind_eq_some_iff.mp started
  cases prepared.symm.trans prepared'
  obtain ⟨machineManager1, parsed, made⟩ := Option.bind_eq_some_iff.mp rest
  cases made
  obtain ⟨⟨master, ss⟩, -, added⟩ := Option.bind_eq_some_iff.mp parsed
  obtain ⟨covers, some_machine⟩ := MachineManager.covers_init.addClients added
  rw [Scheduler.routable_iff_flows (TraceProducer.prepareCoflows_built prepared)]
  simp only [MachineManager.machineOf_isSome_of_routes machineManager1.startConn_routes,
    covers.machineOf_isSome_iff (some_machine (Or.inl clients))]
  rfl

theorem routable_iff_lines {trace : TraceFile} (fits : trace.Fits) {define : MachineDefine} {unset : CInt}
    {startTime : Int} {s : Scheduler} (clients : define.clients ≠ [])
    (started : coflowSimMaster trace.text define unset startTime = some s) :
    s.Routable ↔ ∀ line ∈ trace.lines, ∀ m ∈ line.mappers, ∀ r ∈ line.reducers, Located m ∧ Located r.1 := by
  rw [routable_iff_flows (TraceProducer.prepareCoflows_file trace fits) clients started, List.forall_mem_map]
  refine forall₂_congr fun line member => ?_
  have flows := line.mem_flows_iff (fits.few line member)
  constructor
  · intro located m inMappers r inReducers
    obtain ⟨f, inside, rfl, same⟩ := (flows m r.1).mpr ⟨inMappers, List.mem_map_of_mem inReducers⟩
    exact same ▸ located f inside
  · intro located f inside
    obtain ⟨inMappers, inReducers⟩ := (flows _ _).mp ⟨f, inside, rfl, rfl⟩
    obtain ⟨r, inReducers, same⟩ := List.mem_map.mp inReducers
    exact same ▸ located _ inMappers r inReducers

/-- The calls that a run makes are routable when and only when the locations
are below the number of logic machines, whatever number of ports the file has. -/
theorem routable_iff_located {file : List Byte} {ports : CInt} {coflows : List Coflow}
    (prepared : TraceProducer.prepareCoflows file = some (ports, coflows)) {define : MachineDefine} {unset : CInt}
    {startTime : Int} {s : Scheduler} (clients : define.clients ≠ [])
    (started : coflowSimMaster file define unset startTime = some s) :
    (s.Routable ↔ ∀ c ∈ coflows, ∀ f ∈ c.flowCollection.values, Located f.mapperID ∧ Located f.reducerID) ∧
      ∀ trace : TraceFile, trace.Fits → trace.text = file →
        (s.Routable ↔ ∀ line ∈ trace.lines, ∀ m ∈ line.mappers, ∀ r ∈ line.reducers, Located m ∧ Located r.1) := by
  refine ⟨routable_iff_flows prepared clients started, ?_⟩
  rintro trace fits rfl
  exact routable_iff_lines fits clients started

/-- A coflow of one flow, to the location 0. -/
def oneFlowTrace (ports mapper : Int) : TraceFile :=
  .spaced (.clamp ports) [{
    coflowID := .clamp 1
    arrival := ⟨[48], [], by simp, by simp [isDigit]⟩
    mappers := [.clamp mapper]
    reducers := [(.clamp 0, ⟨[49], [], by simp, by simp [isDigit]⟩)] }]

def oneClient : MachineDefine := ⟨[49], .clamp 4003, [⟨[50], .clamp 4003⟩]⟩

theorem oneFlowTrace_fits {ports mapper : Int}
    (lines : ∀ text ∈ (oneFlowTrace ports mapper).header :: (oneFlowTrace ports mapper).texts,
      text.length < LINE_BUFFER) : (oneFlowTrace ports mapper).Fits := by
  refine ⟨by simp [oneFlowTrace, TraceFile.spaced], lines, fun line member r inside => ?_⟩
  cases List.mem_singleton.mp member
  cases List.mem_singleton.mp inside
  decide +kernel

theorem oneClient_clients : oneClient.clients ≠ [] := List.cons_ne_nil _ _

/-- One flow within a fabric of one port. -/
theorem routable_iff_located_one : ∃ s,
    coflowSimMaster (oneFlowTrace 1 0).text oneClient (.clamp 0) 0 = some s ∧ s.Routable := by
  have fits : (oneFlowTrace 1 0).Fits := oneFlowTrace_fits (by decide +kernel)
  obtain ⟨s, started⟩ := Option.isSome_iff_exists.mp (show
    (coflowSimMaster (oneFlowTrace 1 0).text oneClient (.clamp 0) 0).isSome = true by decide +kernel)
  have routable :=
    (routable_iff_located (TraceProducer.prepareCoflows_file _ fits) oneClient_clients started).2 _ fits rfl
  refine ⟨s, started, routable.mpr fun line member m inMappers r inReducers => ?_⟩
  cases List.mem_singleton.mp member
  cases List.mem_singleton.mp inMappers
  cases List.mem_singleton.mp inReducers
  unfold Located
  decide

/-- In a fabric of 151 ports the last location has no machine. -/
theorem last_port_not_routable :
    ¬ ∀ trace : TraceFile, trace.Fits →
      (∀ line ∈ trace.lines, (∀ m ∈ line.mappers, 0 ≤ m.val ∧ m.val < trace.ports.val) ∧
        ∀ r ∈ line.reducers, 0 ≤ r.1.val ∧ r.1.val < trace.ports.val) →
      ∀ (define : MachineDefine) (unset : CInt) (startTime : Int) (s : Scheduler), define.clients ≠ [] →
        coflowSimMaster trace.text define unset startTime = some s → s.Routable := by
  intro always
  have fits : (oneFlowTrace 151 150).Fits := oneFlowTrace_fits (by decide +kernel)
  obtain ⟨s, started⟩ := Option.isSome_iff_exists.mp (show
    (coflowSimMaster (oneFlowTrace 151 150).text oneClient (.clamp 0) 0).isSome = true by decide +kernel)
  have inFabric : ∀ line ∈ (oneFlowTrace 151 150).lines,
      (∀ m ∈ line.mappers, 0 ≤ m.val ∧ m.val < (oneFlowTrace 151 150).ports.val) ∧
        ∀ r ∈ line.reducers, 0 ≤ r.1.val ∧ r.1.val < (oneFlowTrace 151 150).ports.val := by
    intro line member
    cases List.mem_singleton.mp member
    exact ⟨List.forall_mem_singleton.mpr (by decide), List.forall_mem_singleton.mpr (by decide)⟩
  have routable := always _ fits inFabric _ _ _ s oneClient_clients started
  have located := (routable_iff_lines fits oneClient_clients started).mp routable _ (List.mem_singleton_self _)
    (.clamp 150) (List.mem_singleton_self _) _ (List.mem_singleton_self _)
  exact absurd located.1.2 (by decide)

end CoflowSim
