import CoflowSim.Master.Deployment
import CoflowSim.System.SessionLog

namespace CoflowSim
open Lib Lib.Framing

namespace Deployment

/-- Every location is a logic machine, addresses are dotted decimals, and the
two IDs and the double of a flow's size are printed with at most 22 characters. -/
structure Compact (d : Deployment) : Prop where
  some_client : d.define.clients ≠ []
  dotted : ∀ client ∈ d.define.clients, client.ip.length ≤ 15 ∧ 0 ≤ client.port.val ∧ client.port.val ≤ 65535
  located : ∀ line ∈ d.trace.lines, (∀ m ∈ line.mappers, Located m) ∧ ∀ r ∈ line.reducers, Located r.1
  short : ∀ line ∈ d.trace.lines, ∀ spec ∈ (line.specs .double).zipIdx,
    (showInt line.coflowID.val).length + (showInt (CInt.clamp spec.2).val).length +
      (showDouble spec.1.2.2).length ≤ 22

variable {d : Deployment} {mm : MachineManager}

theorem prepared (deployed : mm.Deployed d.define.clients) : Prepared d.coflows mm := by
  refine ⟨d.built, fun c coflow f flow => (d.flow_sized coflow flow).1, fun m member => ?_⟩
  rw [deployed.machines] at member
  obtain ⟨client, within, rfl⟩ := List.mem_map.mp member
  exact ⟨client.2, _, client.1.port, rfl, d.clients _ (List.fst_mem_of_mem_zipIdx within)⟩

/-- The instruction of a flow of the trace. -/
theorem instruction_fits (deployed : mm.Deployed d.define.clients) (compact : d.Compact) {c : Coflow} {f : Flow}
    (coflow : c ∈ d.coflows) (flow : f ∈ c.flowCollection.values) :
    ∃ mapper frame, mm.instruction c.coflowID (f.setCurrentMbs 10) = some (mapper, frame) ∧
      frame.length < TASK_BUFFER ∧ SendTask.Fits (payload frame) := by
  obtain ⟨line, member, rfl⟩ := List.mem_map.mp coflow
  rw [d.values member] at flow
  obtain ⟨spec, inside, rfl⟩ := List.mem_map.mp flow
  have within := List.fst_mem_of_mem_zipIdx inside
  have sized := (d.spec_sized member within).1
  have fast : (0 : Rat) < 10 := by norm_num
  have some_machine : mm.m_physicsMachines ≠ [] := by
    rw [← List.length_pos_iff, deployed.length]
    exact List.length_pos_iff.mpr compact.some_client
  obtain ⟨mappers, reducers⟩ := compact.located line member
  obtain ⟨r, atR, fromM⟩ := List.mem_flatMap.mp within
  obtain ⟨m, atM, same⟩ := List.mem_map.mp fromM
  have mapper : (mm.machineOf spec.1.1).isSome = true := by
    rw [← same]
    exact (deployed.covers.machineOf_isSome_iff some_machine m).mpr (mappers m atM)
  have reducer : (mm.machineOf spec.1.2.1).isSome = true := by
    rw [← same]
    exact (deployed.covers.machineOf_isSome_iff some_machine r.1).mpr (reducers r atR)
  obtain ⟨⟨position, atPosition⟩, atMapper⟩ := Option.isSome_iff_exists.mp mapper
  obtain ⟨⟨other, it⟩, atReducer⟩ := Option.isSome_iff_exists.mp reducer
  obtain ⟨-, client, here, rfl⟩ := deployed.machineOf atReducer
  have known := List.mem_of_getElem? here
  have address : Plain client.ip := d.clients client known
  obtain ⟨dotted, low, high⟩ := compact.dotted client known
  have fits := (instructionFits_iff address dotted low high sized).mpr (compact.short line member spec inside)
  obtain ⟨short, text, one, inArrays⟩ := fits
  rw [frames_taskFrame address sized fast] at one
  cases one
  refine ⟨position, _, ?_, short, ?_⟩
  · rw [(line.coflow_identity .double).1]
    exact Option.bind_eq_some_iff.mpr ⟨_, atMapper, Option.bind_eq_some_iff.mpr ⟨_, atReducer, rfl⟩⟩
  · have inArrays := inArrays
    rwa [← payload_wrap (taskBody _ _ _ _ _ _), ← taskFrame_eq address sized fast] at inArrays

theorem sendable (deployed : mm.Deployed d.define.clients) (compact : d.Compact) : Sendable d.coflows mm := by
  intro c coflow f flow
  obtain ⟨mapper, frame, found, short, -⟩ := instruction_fits deployed compact coflow flow
  exact ⟨mapper, frame, found, short⟩

/-- A compact deployment of one client and one flow, which is due at once. -/
theorem single (deployed : mm.Deployed d.define.clients) (compact : d.Compact)
    (one_client : d.define.clients.length = 1) {line : TraceLine} (one_line : d.trace.lines = [line])
    {spec : CInt × CInt × Rat} (one_flow : line.specs .double = [spec]) (due : nearestDouble line.arrival.value ≤ 0) :
    ∃ f call, Session.Single (line.coflow .double) mm f call := by
  have coflows : d.coflows = [line.coflow .double] := by rw [Deployment.coflows, one_line, List.map_singleton]
  have member : line ∈ d.trace.lines := one_line ▸ List.mem_singleton_self line
  have values : (line.coflow .double).flowCollection.values = [(TraceLine.entry (spec, 0)).2] := by
    rw [d.values member, one_flow]
    rfl
  have inside : (TraceLine.entry (spec, 0)).2 ∈ (line.coflow .double).flowCollection.values :=
    values ▸ List.mem_singleton_self _
  obtain ⟨mapper, frame, found, short, fits⟩ :=
    instruction_fits deployed compact (coflows ▸ List.mem_singleton_self _) inside
  obtain ⟨call, called, rfl⟩ := MachineManager.sendTask_of_instruction found short (.accepted MAX_SEND_BUFFER_SIZE)
  have start : (line.coflow .double).startTime ≤ 0 := by
    rw [(line.coflow_identity .double).2]
    exact due
  exact ⟨_, call, coflows ▸ prepared deployed, start, values, deployed.length.trans one_client, called,
    fits⟩

end Deployment

namespace Session

variable {d : Deployment} {unset : CInt} {startTime : Int} {master : Scheduler}
  {pools : List (ThreadPool Caller Job)} {acts : List SessionAction} {s : Session}

end Session

end CoflowSim
