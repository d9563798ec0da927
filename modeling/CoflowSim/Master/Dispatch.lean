import CoflowSim.Lib.Run
import CoflowSim.Master.Scheduler

namespace CoflowSim
open Lib

namespace MachineManager

/-- What the instructions depend on: the logic map and the addresses. -/
def routes (mm : MachineManager) : OrderedMap CInt Nat × List (List Byte × Int) :=
  (mm.m_logicMap, mm.m_physicsMachines.map fun m => (m.socketip, m.socketport))

/-- The instruction for a flow: the machine that is to get it, and its frame. -/
def instruction (mm : MachineManager) (coflowID : CInt) (f : Flow) : Option (Nat × List Byte) := do
  let (mapper, _) ← mm.machineOf f.mapperID
  let (_, r) ← mm.machineOf f.reducerID
  some (mapper, taskFrame coflowID f.flowID r.socketip r.socketport f.flowSizeMB f.currentMbs)

theorem machineOf_routes (mm : MachineManager) (id : CInt) :
    (mm.machineOf id).map (fun found => (found.1, found.2.socketip, found.2.socketport)) = (do
      let position ← mm.routes.1.find? id
      let address ← mm.routes.2[position]?
      some (position, address)) := by
  unfold machineOf routes
  cases mm.m_logicMap.find? id with
  | none => rfl
  | some position =>
    simp only [Option.bind_eq_bind, Option.bind_some, List.getElem?_map]
    cases mm.m_physicsMachines[position]? <;> rfl

theorem instruction_of_routes {mm mm' : MachineManager} (same : mm.routes = mm'.routes) (coflowID : CInt) (f : Flow) :
    mm.instruction coflowID f = mm'.instruction coflowID f := by
  have addresses (mm : MachineManager) : mm.instruction coflowID f = (do
      let (mapper, _) ← (mm.machineOf f.mapperID).map fun found => (found.1, found.2.socketip, found.2.socketport)
      let (_, ip, port) ← (mm.machineOf f.reducerID).map fun found => (found.1, found.2.socketip, found.2.socketport)
      some (mapper, taskFrame coflowID f.flowID ip port f.flowSizeMB f.currentMbs)) := by
    unfold instruction
    cases mm.machineOf f.mapperID <;> cases mm.machineOf f.reducerID <;> rfl
  rw [addresses, addresses, machineOf_routes, machineOf_routes, machineOf_routes, machineOf_routes, same]

end MachineManager

theorem taskFrame_ne_nil (coflowID flowID : CInt) (socketip : List Byte) (socketport : Int)
    (flowSizeMB sendSpeedMbs : Rat) : taskFrame coflowID flowID socketip socketport flowSizeMB sendSpeedMbs ≠ [] := by
  unfold taskFrame TaskText.put
  simp

/-- The whole frame has been appended to the mapper's send buffer. -/
def TaskCall.Delivered (call : TaskCall) : Prop := call.offered.unsent = call.before.unsent ++ call.frame

instance (call : TaskCall) : Decidable call.Delivered :=
  inferInstanceAs (Decidable (call.offered.unsent = call.before.unsent ++ call.frame))

/-- There is room for the frame in the mapper's send buffer. -/
def TaskCall.HasRoom (call : TaskCall) : Prop :=
  call.before.sendBufSize + call.frame.length ≤ MAX_SEND_BUFFER_SIZE

/-- A call that has returned true and offered the instruction of its flow to
the mapper's machine. -/
structure Dispatched.Sent (mm : MachineManager) (coflowID : CInt) (d : Dispatched) : Prop where
  result : d.call.result = true
  instruction : mm.instruction coflowID d.flow = some (d.call.mapper, d.call.frame)
  offered : d.call.offered = (d.call.before.setSendMsg d.call.frame).socket

theorem Dispatched.Sent.delivered_iff {mm : MachineManager} {coflowID : CInt} {d : Dispatched}
    (sent : d.Sent mm coflowID) : d.call.Delivered ↔ d.call.HasRoom := by
  have nonempty : d.call.frame ≠ [] := by
    have instruction := sent.instruction
    obtain ⟨_, -, found⟩ := Option.bind_eq_some_iff.mp instruction
    obtain ⟨_, -, made⟩ := Option.bind_eq_some_iff.mp found
    rw [← (Prod.mk.inj (Option.some.inj made)).2]
    apply taskFrame_ne_nil
  rw [TaskCall.Delivered, sent.offered]
  rcases d.call.before.setSendMsg_cases d.call.frame with ⟨room, -, -, -, appended⟩ | ⟨full, refused⟩
  · exact iff_of_true appended room
  · rw [refused]
    refine iff_of_false (fun same => nonempty ?_) (Nat.not_le.mpr full)
    exact List.append_right_eq_self.mp same.symm

/-- The arguments of `sendTask` that a flow holds. -/
def Flow.task (f : Flow) : CInt × CInt × CInt × Rat × Rat :=
  (f.flowID, f.mapperID, f.reducerID, f.flowSizeMB, f.currentMbs)

theorem instruction_of_task {f g : Flow} (same : f.task = g.task) (mm : MachineManager) (coflowID : CInt) :
    mm.instruction coflowID f = mm.instruction coflowID g := by
  simp only [Flow.task, Prod.mk.injEq] at same
  obtain ⟨flowID, mapperID, reducerID, flowSizeMB, currentMbs⟩ := same
  simp only [MachineManager.instruction, flowID, mapperID, reducerID, flowSizeMB, currentMbs]

def Coflow.tasks (c : Coflow) : List (CInt × CInt × CInt × Rat × Rat) := c.flowCollection.values.map Flow.task

/-- What the dispatch of a coflow depends on, and whether it is done. -/
def Coflow.plan (c : Coflow) : CInt × List (CInt × CInt × CInt × Rat × Rat) × Bool :=
  (c.coflowID, c.tasks, c.coflowState == .runninged)

namespace Scheduler

/-- The calls made for the coflow at position `i`. -/
def callsOf (i : Nat) (calls : List Dispatched) : List Dispatched := calls.filter fun d => d.coflow = i

/-- Where the dispatch stands: every call was for the instruction of its flow,
the coflows in the state `RUNNINGED` have had one call for each of their flows,
in order, and the others none. -/
structure Dispatches (mm : MachineManager) (s : Scheduler) : Prop where
  routes : s.machines.routes = mm.routes
  sent : ∀ d ∈ s.calls, ∃ c, s.sCoflows[d.coflow]? = some c ∧ d.Sent mm c.coflowID
  flows : ∀ i c, s.sCoflows[i]? = some c →
    (callsOf i s.calls).map (fun d => d.flow.task) = if c.coflowState = .runninged then c.tasks else []
  waiting : ∀ i c, s.sCoflows[i]? = some c → s.registerIndex ≤ i → c.coflowState ≠ .runninged

/-- A step that changes neither the plans nor the calls nor the routes. -/
structure KeepsPlan (s t : Scheduler) : Prop where
  plans : t.sCoflows.map Coflow.plan = s.sCoflows.map Coflow.plan
  routes : t.machines.routes = s.machines.routes
  calls : t.calls = s.calls
  index : s.registerIndex ≤ t.registerIndex

theorem KeepsPlan.refl (s : Scheduler) : KeepsPlan s s := ⟨rfl, rfl, rfl, Nat.le_refl _⟩

theorem KeepsPlan.trans {s t u : Scheduler} (first : KeepsPlan s t) (second : KeepsPlan t u) : KeepsPlan s u :=
  ⟨second.plans.trans first.plans, second.routes.trans first.routes, second.calls.trans first.calls,
    first.index.trans second.index⟩

theorem plan_of_map {coflows updated : List Coflow} (plans : updated.map Coflow.plan = coflows.map Coflow.plan)
    {i : Nat} {c : Coflow} (atI : updated[i]? = some c) : ∃ d, coflows[i]? = some d ∧ d.plan = c.plan := by
  have entry := congrArg (fun l => l[i]?) plans
  simp only [List.getElem?_map, atI, Option.map_some] at entry
  exact Option.map_eq_some_iff.mp entry.symm

theorem state_of_plan {c d : Coflow} (same : d.plan = c.plan) :
    d.coflowState = .runninged ↔ c.coflowState = .runninged := by
  have state : (d.coflowState == .runninged) = (c.coflowState == .runninged) := congrArg (fun p => p.2.2) same
  rw [← beq_iff_eq, state, beq_iff_eq]

theorem Dispatches.keepsPlan {mm : MachineManager} {s t : Scheduler} (dispatches : Dispatches mm s)
    (keeps : KeepsPlan s t) : Dispatches mm t := by
  constructor
  · exact keeps.routes.trans dispatches.routes
  · intro d member
    rw [keeps.calls] at member
    obtain ⟨c, atC, sent⟩ := dispatches.sent d member
    obtain ⟨c', atC', same⟩ := plan_of_map keeps.plans.symm atC
    have coflowID : c'.coflowID = c.coflowID := congrArg (fun p => p.1) same
    exact ⟨c', atC', coflowID ▸ sent⟩
  · intro i c atI
    obtain ⟨d, atI', same⟩ := plan_of_map keeps.plans atI
    have tasks : d.tasks = c.tasks := congrArg (fun p => p.2.1) same
    rw [keeps.calls, dispatches.flows i d atI', tasks]
    simp only [state_of_plan same]
  · intro i c atI after
    obtain ⟨d, atI', same⟩ := plan_of_map keeps.plans atI
    exact mt (state_of_plan same).mpr (dispatches.waiting i d atI' (keeps.index.trans after))

/-- A coflow that is registered is not `RUNNINGED` before and not after it. -/
theorem Dispatches.registerLoop {mm : MachineManager} {s : Scheduler} (dispatches : Dispatches mm s) (t : Int)
    (coflows : Nat) : Dispatches mm (registerLoop t coflows s) := by
  induction coflows generalizing s with
  | zero => exact dispatches
  | succ coflows ih =>
    unfold Scheduler.registerLoop
    split
    · exact dispatches
    · rename_i co atIndex
      split
      · refine ih (dispatches.keepsPlan ⟨map_set_same atIndex ?_, rfl, rfl, Nat.le_succ _⟩)
        have before := dispatches.waiting _ co atIndex (Nat.le_refl _)
        simp [Coflow.plan, Coflow.tasks, Coflow.setCoflowState, before]
      · exact dispatches

theorem select_keepsPlan (s : Scheduler) : KeepsPlan s s.select := by
  refine ⟨s.select_map fun co registed => ?_, rfl, rfl, Nat.le_refl _⟩
  simp [Coflow.plan, Coflow.tasks, Coflow.setCoflowState, registed]

/-- The retry loop ends with its first call, which returns true whatever
`setSendMsg` has done. -/
theorem sendTaskLoop_called {i : Nat} {co : Coflow} {f : Flow} {s t : Scheduler} {sends rest : List SendOutcome}
    (loop : s.sendTaskLoop i co f sends = some (t, rest)) :
    ∃ kernel call, s.machines.sendTask co.coflowID f.flowID f.mapperID f.reducerID f.flowSizeMB f.currentMbs kernel =
        some call ∧ t = { s with machines := call.machines, calls := s.calls ++ [⟨i, f, call⟩] } := by
  cases sends with
  | nil => cases loop
  | cons kernel sends =>
    obtain ⟨call, called, after⟩ := Option.bind_eq_some_iff.mp loop
    obtain ⟨_, _, _, _, -, -, result, -⟩ := MachineManager.sendTask_spec called
    dsimp only at after
    rw [if_pos result] at after
    cases after
    exact ⟨kernel, call, called, rfl⟩

theorem sendTaskLoop_spec {i : Nat} {co : Coflow} {f : Flow} {s t : Scheduler} {sends rest : List SendOutcome}
    (loop : s.sendTaskLoop i co f sends = some (t, rest)) :
    ∃ call, t = { s with machines := call.machines, calls := s.calls ++ [⟨i, f, call⟩] } ∧
      call.machines.routes = s.machines.routes ∧ Dispatched.Sent s.machines co.coflowID ⟨i, f, call⟩ := by
  obtain ⟨kernel, call, called, after⟩ := sendTaskLoop_called loop
  obtain ⟨m, position, r, sent, atMapper, atReducer, result, frame, before, offered, machines⟩ :=
    MachineManager.sendTask_spec called
  have addresses := MachineManager.sendTask_map (fun m => (m.socketip, m.socketport)) (fun _ _ => rfl) called
  have logicMap : call.machines.m_logicMap = s.machines.m_logicMap := by rw [machines]
  refine ⟨call, after, by rw [MachineManager.routes, MachineManager.routes, addresses, logicMap], result, ?_, ?_⟩
  · simp only [MachineManager.instruction, atMapper, atReducer, Option.bind_eq_bind, Option.bind_some, frame]
  · rw [offered, before]

/-- The loop over the flows of a coflow: one call for each, in order. -/
theorem sendFlows_spec {i : Nat} {co : Coflow} {fs : List Flow} {s t : Scheduler} {sends rest : List SendOutcome}
    (sent : fs.foldlM (fun (s, sends) f => s.sendTaskLoop i co (f.setCurrentMbs 10) sends) (s, sends) =
      some (t, rest)) :
    ∃ more, t = { s with machines := t.machines, calls := s.calls ++ more } ∧
      t.machines.routes = s.machines.routes ∧ more.map (fun d => d.flow) = fs.map (fun f => f.setCurrentMbs 10) ∧
      ∀ d ∈ more, d.coflow = i ∧ d.Sent s.machines co.coflowID := by
  induction fs generalizing s sends with
  | nil =>
    cases sent
    exact ⟨[], by simp, rfl, rfl, by simp⟩
  | cons f fs ih =>
    rw [List.foldlM_cons] at sent
    obtain ⟨⟨u, left⟩, first, later⟩ := Option.bind_eq_some_iff.mp sent
    obtain ⟨call, rfl, routes, called⟩ := sendTaskLoop_spec first
    obtain ⟨more, after, routes', flows, all⟩ := ih later
    refine ⟨⟨i, f.setCurrentMbs 10, call⟩ :: more, ?_, routes'.trans routes, by simp [flows], ?_⟩
    · rw [after]
      simp
    · intro d member
      rcases List.mem_cons.mp member with rfl | later
      · exact ⟨rfl, called⟩
      · obtain ⟨here, result, instruction, offered⟩ := all d later
        exact ⟨here, result, (MachineManager.instruction_of_routes routes _ _).symm.trans instruction, offered⟩

theorem Dispatches.dispatchCoflow {mm : MachineManager} {s t : Scheduler} (dispatches : Dispatches mm s)
    {sends rest : List SendOutcome} {i : Nat} (below : i < s.registerIndex)
    (dispatched : s.dispatchCoflow sends i = some (t, rest)) :
    Dispatches mm t ∧ t.registerIndex = s.registerIndex := by
  obtain ⟨co, atI, ⟨-, rfl⟩ | ⟨running, u, sent, rfl⟩⟩ := dispatchCoflow_cases dispatched
  · exact ⟨dispatches, rfl⟩
  · obtain ⟨more, after, routes, flows, all⟩ := sendFlows_spec sent
    rw [after]
    obtain ⟨inside, -⟩ := List.getElem?_eq_some_iff.mp atI
    have mine : callsOf i more = more := List.filter_eq_self.mpr fun d member => by simp [(all d member).1]
    have others (j : Nat) (other : j ≠ i) : callsOf j more = [] :=
      List.filter_eq_nil_iff.mpr fun d member => by simp [(all d member).1, Ne.symm other]
    refine ⟨⟨routes.trans dispatches.routes, ?_, ?_, ?_⟩, rfl⟩
    · intro d member
      dsimp only at member ⊢
      rcases List.mem_append.mp member with old | new
      · obtain ⟨c, atC, sent⟩ := dispatches.sent d old
        by_cases here : d.coflow = i
        · rw [here] at atC ⊢
          rw [atI] at atC
          cases atC
          exact ⟨_, List.getElem?_set_self inside, sent⟩
        · exact ⟨c, by rw [List.getElem?_set_ne (Ne.symm here)]; exact atC, sent⟩
      · obtain ⟨here, result, instruction, offered⟩ := all d new
        rw [here]
        exact ⟨_, List.getElem?_set_self inside, result,
          (MachineManager.instruction_of_routes dispatches.routes _ _).symm.trans instruction, offered⟩
    · intro j c atJ
      dsimp only at atJ ⊢
      rw [callsOf, List.filter_append, List.map_append]
      by_cases here : j = i
      · subst here
        rw [List.getElem?_set_self inside] at atJ
        cases atJ
        have none_before := dispatches.flows j co atI
        rw [running, if_neg (by decide)] at none_before
        have tasks := congrArg (List.map Flow.task) flows
        rw [List.map_map, List.map_map] at tasks
        change (callsOf j s.calls).map _ ++ (callsOf j more).map _ = _
        rw [none_before, mine, List.nil_append]
        simpa [Coflow.settled, Coflow.tasks, OrderedMap.values, OrderedMap.mapEntries, Function.comp_def] using tasks
      · rw [List.getElem?_set_ne (Ne.symm here)] at atJ
        change (callsOf j s.calls).map _ ++ (callsOf j more).map _ = _
        rw [others j here, List.map_nil, List.append_nil]
        exact dispatches.flows j c atJ
    · intro j c atJ after
      dsimp only at atJ after
      rw [List.getElem?_set_ne (by omega)] at atJ
      exact dispatches.waiting j c atJ after

theorem Dispatches.dispatch {mm : MachineManager} {s t : Scheduler} (dispatches : Dispatches mm s)
    {sends rest : List SendOutcome} (dispatched : s.dispatch sends = some (t, rest)) : Dispatches mm t := by
  have loop (indices : List Nat) (below : ∀ i ∈ indices, i < s.registerIndex) (u : Scheduler) (sends : List SendOutcome)
      (here : Dispatches mm u) (index : u.registerIndex = s.registerIndex)
      (ran : indices.foldlM (fun (s, sends) i => s.dispatchCoflow sends i) (u, sends) = some (t, rest)) :
      Dispatches mm t := by
    induction indices generalizing u sends with
    | nil =>
      cases ran
      exact here
    | cons i indices ih =>
      rw [List.foldlM_cons] at ran
      obtain ⟨⟨v, left⟩, first, later⟩ := Option.bind_eq_some_iff.mp ran
      obtain ⟨next, same⟩ := here.dispatchCoflow (index ▸ below i (by simp)) first
      exact ih (fun j member => below j (by simp [member])) v left next (same.trans index) later
  exact loop _ (fun i member => List.mem_range.mp member) s sends dispatches rfl dispatched

theorem flowEnd_plan (c : Coflow) (flowID endtime : CInt) : (c.flowEnd flowID endtime).2.plan = c.plan := by
  have task (key : CInt) (f : Flow) :
      (if key = flowID then (f.setFlowState FLOWEND).setEndTime endtime else f).task = f.task := by
    split <;> rfl
  unfold Coflow.flowEnd
  split
  · dsimp only
    split <;> simp [Coflow.plan, Coflow.tasks, OrderedMap.values, OrderedMap.modify, OrderedMap.mapEntries, task]
  · rfl

theorem takeReport_keepsPlan (s : Scheduler) (ctime : Nat → Int) (info : FlowEndInfo) :
    KeepsPlan s (s.takeReport ctime info) ∧ (s.takeReport ctime info).machines = s.machines := by
  obtain ⟨line, -, -, after⟩ := s.takeReport_spec ctime info
  rw [after]
  exact ⟨⟨reportTo_map flowEnd_plan info s.sCoflows, rfl, rfl, Nat.le_refl _⟩, rfl⟩

theorem poll_keepsPlan (s : Scheduler) (ctime : Nat → Int) (arrivals : List (List FlowEndInfo)) :
    KeepsPlan s (s.poll ctime arrivals) := by
  have each (t : Scheduler) (info : FlowEndInfo) (kept : KeepsPlan s t ∧ t.machines = s.machines) :
      KeepsPlan s (t.takeReport ctime info) ∧ (t.takeReport ctime info).machines = s.machines := by
    obtain ⟨next, same⟩ := t.takeReport_keepsPlan ctime info
    exact ⟨kept.1.trans next, same.trans kept.2⟩
  obtain ⟨keeps, machines⟩ := pollMachines_keeps each ⟨.refl s, rfl⟩ s.machines.m_physicsMachines arrivals
  refine ⟨keeps.plans, ?_, keeps.calls, keeps.index⟩
  simp only [poll, MachineManager.routes, machines, pollMachines_addresses]

theorem Dispatches.iterate {mm : MachineManager} {s t : Scheduler} {round : Round} (dispatches : Dispatches mm s)
    (pass : s.iterate round = some t) : Dispatches mm t := by
  obtain ⟨⟨u, rest⟩, dispatched, polled⟩ := Option.bind_eq_some_iff.mp pass
  have selected :=
    (dispatches.registerLoop (round.now - s.startTime) (s.sCoflows.length - s.registerIndex)).keepsPlan
      (select_keepsPlan _)
  cases polled
  exact (selected.dispatch dispatched).keepsPlan (u.poll_keepsPlan _ _)

theorem Dispatches.run {mm : MachineManager} {s t : Scheduler} {rounds : List Round} (dispatches : Dispatches mm s)
    (ran : s.run rounds = some t) : Dispatches mm t :=
  run_keeps (fun _ _ _ here _ pass => here.iterate pass) dispatches ran

theorem dispatches_init {coflows : List Coflow} (unregistered : ∀ c ∈ coflows, c.coflowState = .unregister)
    (mm : MachineManager) (startTime : Int) : Dispatches mm (init coflows mm startTime) := by
  have state {i : Nat} {c : Coflow} (atI : coflows[i]? = some c) : c.coflowState ≠ .runninged := by
    rw [unregistered c (List.mem_of_getElem? atI)]
    decide
  exact ⟨rfl, by simp [init], fun i c atI => by rw [if_neg (state atI)]; rfl, fun i c atI _ => state atI⟩

end Scheduler

/-- Whenever `sendTask` has returned true, the instruction of its flow has
been appended to the send buffer of the mapper's machine; and the frames
appended for a coflow in the state `RUNNINGED` are those of its flows, one
each, on their mappers' machines. -/
def Truthful (mm : MachineManager) (t : Scheduler) : Prop :=
  (∀ d ∈ t.calls, d.call.result = true → d.call.Delivered ∧
    ∃ c, t.sCoflows[d.coflow]? = some c ∧ mm.instruction c.coflowID d.flow = some (d.call.mapper, d.call.frame)) ∧
  ∀ i c, t.sCoflows[i]? = some c → c.coflowState = .runninged →
    ((Scheduler.callsOf i t.calls).filter fun d => d.call.Delivered).map (fun d => some (d.call.mapper, d.call.frame)) =
      c.flowCollection.values.map (mm.instruction c.coflowID)

theorem Scheduler.Dispatches.truthful {mm : MachineManager} {t : Scheduler} (dispatches : Dispatches mm t)
    (room : ∀ d ∈ t.calls, d.call.HasRoom) : Truthful mm t := by
  constructor
  · intro d member _
    obtain ⟨c, atC, sent⟩ := dispatches.sent d member
    exact ⟨sent.delivered_iff.mpr (room d member), c, atC, sent.instruction⟩
  · intro i c atI runninged
    have all : (callsOf i t.calls).filter (fun d => d.call.Delivered) = callsOf i t.calls := by
      refine List.filter_eq_self.mpr fun d mine => ?_
      obtain ⟨member, -⟩ := List.mem_filter.mp mine
      obtain ⟨_, -, sent⟩ := dispatches.sent d member
      simpa using sent.delivered_iff.mpr (room d member)
    have tasks := dispatches.flows i c atI
    rw [if_pos runninged] at tasks
    have instructions : (callsOf i t.calls).map (fun d => some (d.call.mapper, d.call.frame)) =
        (callsOf i t.calls).map fun d => mm.instruction c.coflowID d.flow := by
      refine List.map_congr_left fun d mine => ?_
      obtain ⟨member, here⟩ := List.mem_filter.mp mine
      obtain ⟨c', atC, sent⟩ := dispatches.sent d member
      rw [of_decide_eq_true here, atI] at atC
      cases atC
      exact sent.instruction.symm
    rw [all, instructions]
    refine List.ext_getElem? fun k => ?_
    have entry := congrArg (fun l => l[k]?) tasks
    simp only [Coflow.tasks, List.getElem?_map] at entry ⊢
    cases atK : (callsOf i t.calls)[k]? with
    | none =>
      rw [atK] at entry
      rw [Option.map_eq_none_iff.mp entry.symm]
      rfl
    | some d =>
      rw [atK] at entry
      obtain ⟨f, atF, same⟩ := Option.map_eq_some_iff.mp entry.symm
      rw [atF]
      exact congrArg some (instruction_of_task same.symm mm c.coflowID)

theorem Scheduler.Dispatches.hasRoom {mm : MachineManager} {t : Scheduler} (dispatches : Dispatches mm t)
    (truthful : Truthful mm t) : ∀ d ∈ t.calls, d.call.HasRoom := by
  intro d member
  obtain ⟨_, -, sent⟩ := dispatches.sent d member
  exact sent.delivered_iff.mp (truthful.1 d member sent.result).1

/-- `sendTask` tells the truth exactly as long as the mapper's send buffer has
had room for every frame. -/
theorem truthful_iff_room {coflows : List Coflow} (unregistered : ∀ c ∈ coflows, c.coflowState = .unregister)
    {mm : MachineManager} {startTime : Int} {rounds : List Round} {t : Scheduler}
    (ran : (Scheduler.init coflows mm startTime).run rounds = some t) :
    Truthful mm t ↔ ∀ d ∈ t.calls, d.call.HasRoom :=
  have dispatches := (Scheduler.dispatches_init unregistered mm startTime).run ran
  ⟨dispatches.hasRoom, dispatches.truthful⟩

/-- A coflow whose flows all have their mapper on one machine. -/
def fanOut (flows : Nat) : Coflow :=
  (List.range flows).foldl (fun c k => c.addFlow (.clamp (2147483000 + k)) (.clamp 0) (.clamp 0) 2)
    (Coflow.create (.clamp 2147483647) 0)

/-- The machine at 100.100.100.100:65535. -/
def oneMachine : MachineManager :=
  ((MachineManager.init.setLogicMachineNum 1).addOnePhysicsMachine
    [49, 48, 48, 46, 49, 48, 48, 46, 49, 48, 48, 46, 49, 48, 48] 65535).2

/-- One iteration in which no `send` is accepted. -/
def blockedRun (flows : Nat) : Option Scheduler :=
  (Scheduler.init [fanOut flows] oneMachine 0).run [⟨0, fun _ => 0, List.replicate flows .eagain, []⟩]

theorem truthful_iff_room_two :
    Truthful oneMachine ((blockedRun 2).get (by decide +kernel)) ↔
      ∀ d ∈ ((blockedRun 2).get (by decide +kernel)).calls, d.call.HasRoom :=
  truthful_iff_room (by decide) (Option.some_get _).symm

/-- While `send` returns `EAGAIN`, 1024 bytes hold the frames of twelve flows:
`sendTask` returns true for the thirteenth too. -/
theorem thirteenth_frame_lost :
    ¬ ∀ (coflows : List Coflow) (mm : MachineManager) (startTime : Int) (rounds : List Round) (t : Scheduler),
      (∀ c ∈ coflows, c.coflowState = .unregister) →
      (Scheduler.init coflows mm startTime).run rounds = some t → Truthful mm t := by
  intro always
  have ran : (blockedRun 13).isSome = true := by decide +kernel
  have unregistered : ∀ c ∈ [fanOut 13], c.coflowState = .unregister := by decide
  have truthful := always _ _ _ _ ((blockedRun 13).get ran) unregistered (Option.some_get _).symm
  have dispatches := (Scheduler.dispatches_init unregistered oneMachine 0).run (Option.some_get ran).symm
  have full : ¬ ∀ d ∈ ((blockedRun 13).get (by decide +kernel)).calls, d.call.HasRoom := by
    unfold TaskCall.HasRoom
    decide +kernel
  exact full (dispatches.hasRoom truthful)

end CoflowSim
