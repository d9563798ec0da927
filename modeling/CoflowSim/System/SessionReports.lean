import CoflowSim.System.SessionInvariant

namespace CoflowSim
open Lib Lib.Framing

/-- The coflow and the flow that the instruction of a call names. -/
def Dispatched.ids (d : Dispatched) : CInt × CInt := insIds (payload d.call.frame)

/-- A call is the one for a flow of a coflow that `run` was given. -/
structure Dispatched.For (coflows : List Coflow) (mm : MachineManager) (d : Dispatched) (c : Coflow) : Prop where
  here : coflows[d.coflow]? = some c
  flow : d.flow.task ∈ c.order.2
  instruction : mm.instruction c.coflowID d.flow = some (d.call.mapper, d.call.frame)

/-- The calls made are a beginning of those that are due. -/
structure Planned (coflows : List Coflow) (mm : MachineManager) (calls : List Dispatched) : Prop where
  due : ∃ n, calls.map Dispatched.summary <+: dueCalls (coflows.map Coflow.order) n
  each : ∀ d ∈ calls, ∃ c, d.For coflows mm c

theorem task_of_due {orders : List (CInt × List Task)} {n : Nat} {due : Nat × Task × Bool}
    (member : due ∈ dueCalls orders n) : ∃ order, orders[due.1]? = some order ∧ due.2.1 ∈ order.2 := by
  obtain ⟨i, -, inside⟩ := List.mem_flatMap.mp member
  have here := position_of_due inside
  cases atI : orders[i]? with
  | none => simp [atI] at inside
  | some order =>
    rw [atI] at inside
    obtain ⟨task, within, rfl⟩ := List.mem_map.mp inside
    exact ⟨order, atI, within⟩

/-- What is due and was sent as an instruction is a call for a flow. -/
theorem Planned.of_sent {coflows coflows' : List Coflow} {mm : MachineManager} {calls : List Dispatched} {n : Nat}
    (orders : coflows'.map Coflow.order = coflows.map Coflow.order)
    (due : calls.map Dispatched.summary <+: dueCalls (coflows.map Coflow.order) n)
    (sent : ∀ d ∈ calls, ∃ c, coflows'[d.coflow]? = some c ∧ d.Sent mm c.coflowID) : Planned coflows mm calls := by
  refine ⟨⟨n, due⟩, fun d member => ?_⟩
  obtain ⟨c', atC', isSent⟩ := sent d member
  have entry := congrArg (fun l => l[d.coflow]?) orders
  simp only [List.getElem?_map, atC', Option.map_some] at entry
  obtain ⟨c, atC, same⟩ := Option.map_eq_some_iff.mp entry.symm
  have coflowID : c.coflowID = c'.coflowID := congrArg Prod.fst same
  obtain ⟨order, atD, task⟩ := task_of_due (due.subset (List.mem_map_of_mem (f := Dispatched.summary) member))
  have atD : (coflows.map Coflow.order)[d.coflow]? = some order := atD
  rw [List.getElem?_map, atC] at atD
  cases atD
  exact ⟨c, atC, task, coflowID ▸ isSent.instruction⟩

theorem Scheduler.Sending.planned {coflows : List Coflow} {mm : MachineManager} {i : Nat} {flows : List Flow}
    {s : Scheduler} (sending : Scheduler.Sending coflows mm i flows s) : Planned coflows mm s.calls := by
  obtain @⟨before, sent, co, done, _, upTo, below, standing, dispatches, here, running, values, sends⟩ := sending
  obtain ⟨more, after, -, sentFlows, all⟩ := sendFlows_spec sends
  have calls : s.calls = before.calls ++ more := by rw [after]
  have fresh : i = sent := by
    have state := standing.states i co here
    by_cases already : i < sent
    · rw [if_pos already, running] at state
      cases state
    · omega
  have ordered : (coflows.map Coflow.order)[i]? = some co.order := by
    rw [← standing.orders, List.getElem?_map, here]
    rfl
  have summaries : more.map Dispatched.summary <+: dueOf i co.order := by
    have tasks := congrArg (List.map fun f : Flow => (i, f.task, true)) sentFlows
    rw [List.map_map, List.map_map] at tasks
    have same : more.map Dispatched.summary = done.map fun f => (i, (f.setCurrentMbs 10).task, true) := by
      refine Eq.trans (List.map_congr_left fun d member => ?_) tasks
      obtain ⟨position, called⟩ := all d member
      rw [Dispatched.summary, position, called.result]
      rfl
    rw [same, dueOf, Coflow.order, List.map_map, values, List.map_append]
    exact List.prefix_append _ _
  refine Planned.of_sent standing.orders (n := i + 1) ?_ fun d member => ?_
  · rw [calls, List.map_append, standing.calls, dueCalls_succ ordered, fresh, List.prefix_append_right_inj]
    exact fresh ▸ summaries
  · rw [calls, List.mem_append] at member
    rcases member with old | new
    · exact dispatches.sent d old
    · obtain ⟨position, result, instruction, offered⟩ := all d new
      rw [position]
      exact ⟨co, here, result,
        (MachineManager.instruction_of_routes dispatches.routes _ _).symm.trans instruction, offered⟩

section Prepared

variable {coflows : List Coflow} {mm : MachineManager} {d : Dispatched} {c : Coflow}

/-- The instruction of a call names its coflow and its flow. -/
theorem Dispatched.For.ids_eq (isFor : d.For coflows mm c) (prepared : Prepared coflows mm) :
    d.ids = (c.coflowID, d.flow.flowID) := by
  obtain ⟨here, flow, instruction⟩ := isFor
  obtain ⟨f, member, same⟩ := List.mem_map.mp flow
  simp only [Flow.task, Flow.setCurrentMbs, Prod.mk.injEq] at same
  obtain ⟨-, -, -, size, speed⟩ := same
  have sized : 0 < d.flow.flowSizeMB := size ▸ prepared.sized c (List.mem_of_getElem? here) f member
  have fast : 0 < d.flow.currentMbs := by
    rw [← speed]
    norm_num
  obtain ⟨_, -, found⟩ := Option.bind_eq_some_iff.mp instruction
  obtain ⟨⟨position, r⟩, atReducer, made⟩ := Option.bind_eq_some_iff.mp found
  obtain ⟨-, inside⟩ := MachineManager.machineOf_position atReducer
  obtain ⟨address, port, isPort⟩ := prepared.address rfl (List.mem_of_getElem? inside)
  have frame := (Prod.mk.inj (Option.some.inj made)).2
  rw [isPort, taskFrame_eq address sized fast] at frame
  rw [Dispatched.ids, ← frame, payload_wrap]
  exact parse_taskBody_ids address sized fast _

/-- With distinct coflow IDs no two calls name the same flow. -/
theorem Planned.ids_nodup {calls : List Dispatched} (planned : Planned coflows mm calls)
    (prepared : Prepared coflows mm) (distinct : (coflows.map fun c => c.coflowID).Nodup) :
    (calls.map Dispatched.ids).Nodup := by
  obtain ⟨⟨n, due⟩, each⟩ := planned
  have ascending := (dueCalls_ascending prepared.built n).sublist due.sublist
  rw [List.pairwise_map] at ascending
  refine List.pairwise_map.mpr (ascending.imp_of_mem fun {d e} first second below same => ?_)
  obtain ⟨c, isFor⟩ := each d first
  obtain ⟨c', isFor'⟩ := each e second
  rw [isFor.ids_eq prepared, isFor'.ids_eq prepared] at same
  obtain ⟨coflowID, flowID⟩ := Prod.mk.inj same
  rcases below with earlier | ⟨-, lower⟩
  · have here : (coflows.map fun c => c.coflowID)[d.coflow]? = some c.coflowID := by simp [isFor.here]
    have there : (coflows.map fun c => c.coflowID)[e.coflow]? = some c.coflowID := by simp [isFor'.here, coflowID]
    have inside := (List.getElem?_eq_some_iff.mp here).1
    have equal := (List.getElem?_inj inside distinct).mp (here.trans there.symm)
    exact absurd equal (Nat.ne_of_lt earlier)
  · have lower : d.flow.flowID < e.flow.flowID := lower
    rw [flowID] at lower
    exact absurd lower (lt_irrefl _)

end Prepared

namespace Node

variable {node : Node} {m : Machine}

/-- A record that has been taken is that of a task that has ended. -/
theorem Sound.ended_of_taken (sound : node.Sound m) {info : FlowEndInfo} (member : info ∈ node.taken) :
    ∃ (t : Nat) (task : SendTask), node.manager.tasks[t]? = some task ∧ task.sender.Ended ∧ task.record = info := by
  have inOrder : node.taken <+: node.manager.records := sound.up.inOrder
  obtain ⟨⟨t, reply⟩, replied, rfl⟩ := List.mem_map.mp (inOrder.subset member)
  obtain ⟨task, here, hasEnded, rfl, -⟩ := sound.once.replies t reply replied
  exact ⟨t, task, here, hasEnded, task.parse_reply.symm⟩

/-- A task is that of an instruction that the master's `setSendMsg` has taken. -/
theorem Sound.instruction_of_task (sound : node.Sound m) {task : SendTask} (member : task ∈ node.manager.tasks) :
    ∃ ins ∈ node.delivered, insIds ins = task.ids := by
  obtain ⟨ins, inside, same⟩ := List.mem_map.mp (sound.decoded.subset (List.mem_map_of_mem member))
  exact ⟨ins, sound.instructed.subset inside, same⟩

/-- No task has two records. -/
theorem Sound.records_subperm (sound : node.Sound m) :
    (node.manager.records.map FlowEndInfo.ids).Subperm (node.manager.tasks.map SendTask.ids) := by
  have entry (t : Nat) (reply : List Byte) (member : (t, reply) ∈ node.manager.replies) :
      t < node.manager.tasks.length ∧ (FlowEndInfo.parse (payload reply)).ids =
        (node.manager.tasks.map SendTask.ids).getD t (.zero, .zero) := by
    obtain ⟨task, here, -, rfl, -⟩ := sound.once.replies t reply member
    have below := (List.getElem?_eq_some_iff.mp here).1
    refine ⟨below, ?_⟩
    rw [task.parse_reply, List.getD_eq_getElem?_getD, List.getElem?_map, here]
    rfl
  have records : node.manager.records.map FlowEndInfo.ids =
      node.manager.replied.map fun t => (node.manager.tasks.map SendTask.ids).getD t (.zero, .zero) := by
    rw [SendManager.records, SendManager.replied, List.map_map, List.map_map]
    exact List.map_congr_left fun reply member => (entry reply.1 reply.2 member).2
  rw [records]
  refine entries_subperm sound.once.distinct (fun t member => ?_) _
  obtain ⟨reply, inside, rfl⟩ := List.mem_map.mp member
  rw [List.length_map]
  exact (entry reply.1 reply.2 inside).1

/-- What has been taken from a client names flows that it was given, each at
most as often as it was. -/
theorem Sound.taken_subperm (sound : node.Sound m) :
    (node.taken.map FlowEndInfo.ids).Subperm (node.delivered.map insIds) := by
  have inOrder : node.taken <+: node.manager.records := sound.up.inOrder
  have first := (inOrder.map FlowEndInfo.ids).sublist.subperm
  have last := (sound.decoded.trans (sound.instructed.map insIds)).sublist.subperm
  exact (first.trans sound.records_subperm).trans last

end Node

namespace Session

variable {coflows : List Coflow} {mm : MachineManager} {s : Session}

theorem Sound.planned (sound : s.Sound coflows mm) : Planned coflows mm s.master.calls := by
  have position := sound.position
  unfold Position at position
  split at position
  · obtain ⟨sent, -, standing, dispatches⟩ := position
    exact .of_sent standing.orders ⟨[], (List.append_nil _).trans standing.calls⟩ dispatches.sent
  · exact position.planned
  · obtain ⟨standing, dispatches⟩ := position
    exact .of_sent standing.orders ⟨[], (List.append_nil _).trans standing.calls⟩ dispatches.sent

/-- The accepted instructions for all machines, by what they name. -/
theorem accepted_subperm (n : Nat) (calls : List Dispatched) :
    ((List.range n).flatMap fun p => (acceptedFor p calls).map insIds).Subperm (calls.map Dispatched.ids) := by
  have share (p : Nat) : (acceptedFor p calls).map insIds =
      ((calls.filter Dispatched.accepted).filter fun d => d.call.mapper = p).map Dispatched.ids := by
    rw [acceptedFor, List.map_map, List.filter_filter]
    refine congrArg (List.map Dispatched.ids) (List.filter_congr fun d _ => ?_)
    simp
  simp only [share]
  rw [← List.map_flatMap]
  have parts := shares_subperm (fun d : Dispatched => d.call.mapper) (List.nodup_range (n := n))
    (calls.filter Dispatched.accepted)
  exact subperm_map _ (parts.trans List.filter_sublist.subperm)

/-- The master takes no more records of a flow than it has made calls for it. -/
theorem Sound.taken_subperm (sound : s.Sound coflows mm) :
    (s.master.taken.map FlowEndInfo.ids).Subperm (s.master.calls.map Dispatched.ids) := by
  have given : (s.nodes.flatMap fun node => node.taken.map FlowEndInfo.ids).Subperm
      (s.nodes.flatMap fun node => node.delivered.map insIds) := by
    refine subperm_flatMap fun node member => ?_
    obtain ⟨p, here⟩ := List.mem_iff_getElem?.mp member
    obtain ⟨m, -, site⟩ := sound.site here
    exact site.taken_subperm
  have positions : (s.nodes.flatMap fun node => node.delivered.map insIds) =
      (List.range s.nodes.length).flatMap fun p => (acceptedFor p s.master.calls).map insIds :=
    flatMap_eq_range fun p node here => by rw [sound.delivered p node here]
  rw [positions] at given
  have taken := (sound.taken.map FlowEndInfo.ids).subperm
  rw [List.map_flatMap] at taken
  exact (taken.trans given).trans (accepted_subperm _ _)

/-- A record that the master has taken was given by the client of the flow's
mapper, for a task whose `Sender` has ended at that time. -/
theorem Sound.reporter (sound : s.Sound coflows mm) (prepared : Prepared coflows mm) {info : FlowEndInfo}
    (member : info ∈ s.master.taken) :
    ∃ (d : Dispatched) (c : Coflow) (node : Node) (t : Nat) (task : SendTask), d ∈ s.master.calls ∧
      d.For coflows mm c ∧ s.nodes[d.call.mapper]? = some node ∧ node.manager.tasks[t]? = some task ∧
      task.sender.Ended ∧ task.record = info ∧ info.ids = (c.coflowID, d.flow.flowID) := by
  obtain ⟨node, inside, taken⟩ := List.mem_flatMap.mp (sound.taken.subset member)
  obtain ⟨p, here⟩ := List.mem_iff_getElem?.mp inside
  obtain ⟨m, -, site⟩ := sound.site here
  obtain ⟨t, task, at_t, hasEnded, record⟩ := site.ended_of_taken taken
  obtain ⟨ins, given, named⟩ := site.instruction_of_task (List.mem_of_getElem? at_t)
  rw [sound.delivered p node here] at given
  obtain ⟨d, accepted, rfl⟩ := List.mem_map.mp given
  obtain ⟨called, mapper⟩ := List.mem_filter.mp accepted
  obtain ⟨rfl, -⟩ := of_decide_eq_true mapper
  obtain ⟨c, isFor⟩ := sound.planned.each d called
  refine ⟨d, c, node, t, task, called, isFor, here, at_t, hasEnded, record, ?_⟩
  have ids : d.ids = task.ids := named
  rw [← isFor.ids_eq prepared, ids, ← record]
  rfl

end Session

end CoflowSim
