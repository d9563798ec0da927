import CoflowSim.System.SessionProgress
import CoflowSim.System.SessionReports

namespace CoflowSim
open Lib

/-- With distinct reports no flow is reported more than once. -/
theorem ReportedOnce.of_nodup {records : List FlowEndInfo} (distinct : (records.map FlowEndInfo.ids).Nodup)
    (coflows : List Coflow) : ReportedOnce coflows records := by
  intro c _ flowID _
  have counts := List.nodup_iff_count_le_one.mp distinct (c.coflowID, flowID)
  rw [List.count, List.countP_map] at counts
  refine le_trans (List.countP_mono_left fun info _ named => ?_) counts
  obtain ⟨coflow, flow⟩ := of_decide_eq_true named
  simp [FlowEndInfo.ids, coflow, flow]

namespace Session

/-- The flow has been sent, and the `Sender` of its task at the client of its
mapper has ended. -/
def FlowEnded (mm : MachineManager) (s : Session) (c : Coflow) (flowID : CInt) : Prop :=
  ∃ (d : Dispatched) (node : Node) (task : SendTask), d ∈ s.master.calls ∧ d.flow.flowID = flowID ∧
    mm.instruction c.coflowID d.flow = some (d.call.mapper, d.call.frame) ∧ s.nodes[d.call.mapper]? = some node ∧
    task ∈ node.manager.tasks ∧ task.sender.Ended ∧ task.ids = (c.coflowID, flowID)

variable {coflows : List Coflow} {mm : MachineManager} {s : Session}

theorem Sound.taken_nodup (sound : s.Sound coflows mm) (prepared : Prepared coflows mm)
    (distinct : (coflows.map fun c => c.coflowID).Nodup) : (s.master.taken.map FlowEndInfo.ids).Nodup := by
  obtain ⟨some_calls, same, within⟩ := sound.taken_subperm
  exact same.nodup_iff.mp ((sound.planned.ids_nodup prepared distinct).sublist within)

theorem Sound.loggedAtLast (sound : s.Sound coflows mm) (prepared : Prepared coflows mm)
    (distinct : (coflows.map fun c => c.coflowID).Nodup) : LoggedAtLast coflows s.master.reports :=
  fun _ _ _ split =>
    sound.tracks.lines_iff distinct (.of_nodup (sound.taken_nodup prepared distinct) coflows) split

theorem Sound.logged_iff (sound : s.Sound coflows mm) (prepared : Prepared coflows mm)
    (distinct : (coflows.map fun c => c.coflowID).Nodup) {c : Coflow} (member : c ∈ coflows) :
    c.coflowID ∈ logged s.master.reports ↔
      c.flowIDs ≠ [] ∧ ∀ flowID ∈ c.flowIDs, (c.coflowID, flowID) ∈ s.master.taken.map FlowEndInfo.ids := by
  have reported (flowID : CInt) : flowID ∈ reportedFlows c s.master.taken ↔
      (c.coflowID, flowID) ∈ s.master.taken.map FlowEndInfo.ids := by
    simp only [reportedFlows, List.mem_map, List.mem_filter, decide_eq_true_eq, FlowEndInfo.ids, Prod.mk.injEq,
      and_assoc]
  rw [mem_logged_iff (sound.loggedAtLast prepared distinct) sound.tracks.named]
  constructor
  · rintro ⟨d, inside, same, nonempty, covers⟩
    obtain rfl := List.inj_on_of_nodup_map distinct inside member same
    exact ⟨nonempty, fun flowID knows => (reported flowID).mp (covers flowID knows)⟩
  · rintro ⟨nonempty, all⟩
    exact ⟨c, member, rfl, nonempty, fun flowID knows => (reported flowID).mpr (all flowID knows)⟩

theorem Sound.flowEnded (sound : s.Sound coflows mm) (prepared : Prepared coflows mm)
    (distinct : (coflows.map fun c => c.coflowID).Nodup) {c : Coflow} (member : c ∈ coflows) {flowID : CInt}
    (reported : (c.coflowID, flowID) ∈ s.master.taken.map FlowEndInfo.ids) : s.FlowEnded mm c flowID := by
  obtain ⟨info, taken, same⟩ := List.mem_map.mp reported
  obtain ⟨d, c', node, t, task, called, isFor, here, at_t, hasEnded, record, ids⟩ := sound.reporter prepared taken
  obtain ⟨coflow, flow⟩ := Prod.mk.inj (ids.symm.trans same)
  obtain rfl := List.inj_on_of_nodup_map distinct (List.mem_of_getElem? isFor.here) member coflow
  refine ⟨d, node, task, called, flow, isFor.instruction, here, List.mem_of_getElem? at_t, hasEnded, ?_⟩
  rw [← same, ← record]
  rfl

/-- When `run` has returned, it has logged every coflow. -/
theorem Sound.all_logged (sound : s.Sound coflows mm) (prepared : Prepared coflows mm)
    (distinct : (coflows.map fun c => c.coflowID).Nodup) (returned : s.phase = .returned) :
    ∀ c ∈ coflows, c.coflowID ∈ logged s.master.reports := by
  have atLast := sound.loggedAtLast prepared distinct
  have within := logged_subset atLast sound.tracks.named
  obtain ⟨before, r, -, -, reaches⟩ := sound.tracks.halts.mp (sound.going.mpr returned)
  rw [loggedNum_eq] at reaches
  have fewer := List.subperm_of_subset (logged_nodup distinct atLast sound.tracks.named) within
  have all := fewer.perm_of_length_le (by rwa [List.length_map])
  exact fun c member => all.symm.subset (List.mem_map_of_mem member)

section Results

variable {startTime : Int} {pools : List (ThreadPool Caller Job)} {acts : List SessionAction}

/-- Over any run of the master with its clients, no flow is reported twice, and
each record comes from the client of its flow's mapper, for the task of that
flow, with the end time that the task's `Sender` has set. -/
theorem reports_once (prepared : Prepared coflows mm) (distinct : (coflows.map fun c => c.coflowID).Nodup)
    (clients : pools.length = mm.m_physicsMachines.length)
    (run : Run (Where Step Proper) (init (Scheduler.init coflows mm startTime) pools) acts s) :
    (s.master.taken.map FlowEndInfo.ids).Nodup ∧ ∀ info ∈ s.master.taken,
      ∃ (d : Dispatched) (c : Coflow) (node : Node) (t : Nat) (task : SendTask), d ∈ s.master.calls ∧
        d.For coflows mm c ∧ s.nodes[d.call.mapper]? = some node ∧ node.manager.tasks[t]? = some task ∧
        task.sender.Ended ∧ task.record = info ∧ info.ids = (c.coflowID, d.flow.flowID) :=
  have sound := sound_run prepared clients run
  ⟨sound.taken_nodup prepared distinct, fun _ member => sound.reporter prepared member⟩

theorem one_distinct : ([fanOut 1].map fun c => c.coflowID).Nodup := List.nodup_singleton _

theorem reports_once_one : ∃ (s : Session) (info : FlowEndInfo) (node : Node) (task : SendTask),
    info ∈ s.master.taken ∧ node ∈ s.nodes ∧ task ∈ node.manager.tasks ∧ task.sender.Ended ∧ task.record = info := by
  obtain ⟨f, call, single⟩ := one_single
  obtain ⟨pool, acts, s, info, co, -, run, -, -, taken, -⟩ := single.flow_ends
  obtain ⟨d, c, node, t, task, -, -, here, at_t, hasEnded, record, -⟩ :=
    (reports_once one_prepared one_distinct rfl (run.mono fun _ _ _ taken => ⟨taken.1.1, taken.2⟩)).2 info taken
  exact ⟨s, info, node, task, taken, List.mem_of_getElem? here, List.mem_of_getElem? at_t, hasEnded, record⟩

/-- The log of a run is true: each coflow stands in it at most once, and only
after the `Sender`s of all its flows have ended; and all coflows stand in it
when `run` has returned. -/
theorem log_truthful (prepared : Prepared coflows mm) (distinct : (coflows.map fun c => c.coflowID).Nodup)
    (clients : pools.length = mm.m_physicsMachines.length)
    (run : Run (Where Step Proper) (init (Scheduler.init coflows mm startTime) pools) acts s) :
    (logged s.master.reports).Nodup ∧ logged s.master.reports ⊆ coflows.map (fun c => c.coflowID) ∧
      (∀ c ∈ coflows, c.coflowID ∈ logged s.master.reports →
        c.flowIDs ≠ [] ∧ ∀ flowID ∈ c.flowIDs, s.FlowEnded mm c flowID) ∧
      (s.phase = .returned → ∀ c ∈ coflows, c.coflowID ∈ logged s.master.reports) := by
  have sound := sound_run prepared clients run
  have atLast := sound.loggedAtLast prepared distinct
  refine ⟨logged_nodup distinct atLast sound.tracks.named, logged_subset atLast sound.tracks.named,
    fun c member inLog => ?_, sound.all_logged prepared distinct⟩
  obtain ⟨nonempty, reported⟩ := (sound.logged_iff prepared distinct member).mp inLog
  exact ⟨nonempty, fun flowID knows => sound.flowEnded prepared distinct member (reported flowID knows)⟩

theorem log_truthful_one : ∃ s : Session, s.master.taken ≠ [] ∧ (logged s.master.reports).Nodup ∧
    ((fanOut 1).coflowID ∈ logged s.master.reports → ∀ flowID ∈ (fanOut 1).flowIDs,
      s.FlowEnded oneMachine (fanOut 1) flowID) := by
  obtain ⟨f, call, single⟩ := one_single
  obtain ⟨pool, acts, s, info, co, -, run, -, -, taken, -⟩ := single.flow_ends
  obtain ⟨nodup, -, ended, -⟩ :=
    log_truthful one_prepared one_distinct rfl (run.mono fun _ _ _ taken => ⟨taken.1.1, taken.2⟩)
  exact ⟨s, List.ne_nil_of_mem taken, nodup, fun inLog => (ended _ (List.mem_singleton_self _) inLog).2⟩

end Results

end Session

end CoflowSim
