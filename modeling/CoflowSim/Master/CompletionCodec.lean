import CoflowSim.Client.SendManager
import CoflowSim.Master.CompletionStream
import CoflowSim.Master.Coflow

namespace CoflowSim
open Lib Lib.Framing

/-- The frames that `SendManager::run` prints for a list of tasks. -/
def replyStream (tasks : List SendTask) : List Byte := tasks.flatMap SendTask.reply

def SendTask.body (task : SendTask) : List Byte := replyBody task.coflow_id task.flow_id task.end_time

theorem SendTask.reply_eq (task : SendTask) : task.reply = wrap lparen rparen task.body := by
  simp [SendTask.reply, SendTask.body, replyBody, wrap]

theorem replyStream_packed (tasks : List SendTask) :
    Packed lparen rparen (replyStream tasks) ∧ ¬ Open lparen rparen (replyStream tasks) ∧
      frames lparen rparen [] (replyStream tasks) = tasks.map SendTask.body := by
  have clean : ∀ run ∈ tasks.map SendTask.body, ∀ b ∈ run, b ≠ lparen ∧ b ≠ rparen := by
    intro run member b inside
    obtain ⟨task, _, rfl⟩ := List.mem_map.mp member
    obtain ⟨notOpen, notClose, -⟩ := replyBody_bytes _ _ _ b inside
    exact ⟨notOpen, notClose⟩
  have stream : replyStream tasks = (tasks.map SendTask.body).flatMap (wrap lparen rparen) := by
    rw [replyStream, List.flatMap_map, funext SendTask.reply_eq]
  rw [stream]
  exact packed_flatMap lparen_ne_rparen clean

theorem replyStream_no_nul (tasks : List SendTask) : 0 ∉ replyStream tasks := by
  intro member
  obtain ⟨task, _, inside⟩ := List.mem_flatMap.mp member
  simp only [SendTask.reply_eq, wrap, List.cons_append, List.mem_cons, List.mem_append, List.not_mem_nil,
    or_false] at inside
  rcases inside with same | inBody | same
  · exact absurd same (by decide)
  · obtain ⟨-, -, notNul⟩ := replyBody_bytes _ _ _ 0 inBody
    exact notNul rfl
  · exact absurd same (by decide)

namespace Machine

/-- A poll of whole frames gives all of them, whatever its two locals held
before. -/
theorem Holds.poll_whole {m : Machine} (holds : m.Holds []) {chunk : List Byte}
    (fits : chunk.length ≤ MAX_RECV_BUFFER_SIZE) (packed : Packed lparen rparen chunk)
    (closed : ¬ Open lparen rparen chunk) (clean : 0 ∉ chunk) (flowEndIndex flowStartIndex : CInt) :
    ∃ last, m.poll chunk flowEndIndex flowStartIndex =
      some ((frames lparen rparen [] chunk).map FlowEndInfo.parse, last) := by
  by_cases nothing : chunk = []
  · obtain ⟨size, -⟩ := SocketManage.recvMsg_ofChunk holds.handedOver fits
    rw [nothing, List.length_nil] at size
    have waiting : (m.receive []).recvIdx = 0 := size
    have drained : (m.receive []).flowsFinishedInfo = [] := holds.drained
    rw [nothing]
    simp only [poll, parseFlowsFinishedInfo, waiting, if_true, bind, Option.bind_some, drain_eq, drained]
    exact ⟨_, rfl⟩
  · have room : chunk.length < TMORECV_MAX_SIZE := Nat.lt_of_le_of_lt fits (by decide)
    have filled := holds.takeReceived fits (by simpa using room)
    rw [List.nil_append] at filled
    have length := filled.length
    have buffer := filled.buffer
    rw [length] at buffer
    obtain ⟨scan, run, scanned⟩ := scan_at (m.receive chunk).takeReceived.tmprecv flowEndIndex.val flowStartIndex.val
      (Nat.le_of_lt room) (by rw [buffer]; exact packed.closes lparen_ne_rparen) (by rw [buffer]; exact clean)
    have pushed := scanned.pushed
    have after := scanned.after
    rw [buffer] at pushed after
    -- frames that close leave nothing behind the last closing bracket
    have someClose : rparen ∈ chunk := by
      by_contra noClose
      exact closed (packed.single nothing noClose).1
    have order : ¬ scan.flowEndIndex < scan.flowStartIndex := fun below => closed ((after someClose).2.mp below)
    obtain ⟨next, discarded, -⟩ := filled.discard order
    have ran : (m.receive chunk).takeReceived.scanFinished flowEndIndex.val flowStartIndex.val = some scan := by
      rw [scanFinished, length]
      exact run
    rw [poll_eq holds nothing fits, ran, Option.bind_some, discarded, pushed]
    exact ⟨next, rfl⟩

/-- A poll of printed frames gives, for each, the IDs and the nearest `int` to
the end time. -/
theorem Holds.poll_replies {m : Machine} (holds : m.Holds []) {tasks : List SendTask}
    (fits : (replyStream tasks).length ≤ MAX_RECV_BUFFER_SIZE) (flowEndIndex flowStartIndex : CInt) :
    ∃ last, m.poll (replyStream tasks) flowEndIndex flowStartIndex =
      some (tasks.map fun task => ⟨task.coflow_id, task.flow_id, CInt.clamp task.end_time⟩, last) := by
  obtain ⟨packed, closed, decoded⟩ := replyStream_packed tasks
  obtain ⟨last, polled⟩ := holds.poll_whole fits packed closed (replyStream_no_nul tasks) flowEndIndex flowStartIndex
  refine ⟨last, polled.trans ?_⟩
  rw [decoded, List.map_map]
  have same : FlowEndInfo.parse ∘ SendTask.body =
      fun task => ⟨task.coflow_id, task.flow_id, CInt.clamp task.end_time⟩ := by
    funext task
    exact FlowEndInfo.parse_replyBody _ _ _
  rw [same]

end Machine

/-- `flowEnd` stores the time it is given in the flow it names. -/
theorem Coflow.flowEnd_stores {c : Coflow} {flowID : CInt} (knows : flowID ∈ c.flowIDs) (endtime : CInt) :
    ∃ f, (c.flowEnd flowID endtime).2.flowCollection.find? flowID = some f ∧ f.endTime = endtime := by
  obtain ⟨⟨key, f⟩, member, rfl⟩ := List.mem_map.mp knows
  let change (f : Flow) := (f.setFlowState FLOWEND).setEndTime endtime
  have entries : (key, change f) ∈ (c.flowCollection.modify key change).entries :=
    List.mem_map.mpr ⟨(key, f), member, by simp⟩
  refine ⟨change f, ?_, rfl⟩
  have found := OrderedMap.find?_of_mem entries
  unfold Coflow.flowEnd
  rw [if_pos (show key ∈ c.flowCollection.keys from knows)]
  dsimp only
  split <;> exact found

/-- The record of a task has its IDs and its end time, and ends its flow at
that time in any coflow that has it. -/
structure Returned (task : SendTask) (info : FlowEndInfo) : Prop where
  coflow : info.coflowID = task.coflow_id
  flow : info.flowID = task.flow_id
  time : info.endTime.val = task.end_time
  stored : ∀ c : Coflow, task.flow_id ∈ c.flowIDs → ∃ f,
    (c.flowEnd info.flowID info.endTime).2.flowCollection.find? task.flow_id = some f ∧ f.endTime.val = task.end_time

theorem returned_iff {task : SendTask} {info : FlowEndInfo} :
    Returned task info ↔
      info.coflowID = task.coflow_id ∧ info.flowID = task.flow_id ∧ info.endTime.val = task.end_time := by
  refine ⟨fun returned => ⟨returned.coflow, returned.flow, returned.time⟩, ?_⟩
  rintro ⟨coflow, flow, time⟩
  refine ⟨coflow, flow, time, fun c knows => ?_⟩
  rw [flow]
  obtain ⟨f, found, stored⟩ := c.flowEnd_stores knows info.endTime
  exact ⟨f, found, by rw [stored, time]⟩

namespace Machine

/-- A poll that receives the replies of `tasks` in one chunk gives a record
back for each of them. -/
def RoundTrip (m : Machine) (tasks : List SendTask) (flowEndIndex flowStartIndex : CInt) : Prop :=
  ∃ infos last, m.poll (replyStream tasks) flowEndIndex flowStartIndex = some (infos, last) ∧
    List.Forall₂ Returned tasks infos

/-- The replies of a chunk come back if and only if an `int` holds each of
their end times. -/
theorem roundTrip_iff {m : Machine} (holds : m.Holds []) {tasks : List SendTask}
    (times : ∀ task ∈ tasks, 0 ≤ task.end_time) (fits : (replyStream tasks).length ≤ MAX_RECV_BUFFER_SIZE)
    (flowEndIndex flowStartIndex : CInt) :
    m.RoundTrip tasks flowEndIndex flowStartIndex ↔ ∀ task ∈ tasks, task.end_time ≤ 2147483647 := by
  obtain ⟨last, polled⟩ := holds.poll_replies fits flowEndIndex flowStartIndex
  have given : m.RoundTrip tasks flowEndIndex flowStartIndex ↔ List.Forall₂ Returned tasks
      (tasks.map fun task => ⟨task.coflow_id, task.flow_id, CInt.clamp task.end_time⟩) := by
    simp only [RoundTrip, polled, Option.some.injEq, Prod.mk.injEq]
    constructor
    · rintro ⟨infos, _, ⟨rfl, -⟩, returned⟩
      exact returned
    · exact fun returned => ⟨_, last, ⟨rfl, rfl⟩, returned⟩
  rw [given, List.forall₂_map_right_iff, List.forall₂_same]
  refine forall₂_congr fun task member => ?_
  rw [returned_iff]
  constructor
  · rintro ⟨-, -, time⟩
    rw [← time]
    exact (CInt.clamp task.end_time).property.2
  · intro small
    have nonneg := times task member
    exact ⟨rfl, rfl, CInt.val_clamp (by omega) small⟩

end Machine

/-- A task with nothing left to do. -/
def endedTask (end_time : Int) : SendTask := ⟨.clamp 1, .zero, .ended, end_time, .returned⟩

namespace Machine

theorem roundTrip_iff_two :
    (create 0 [] 0).RoundTrip [endedTask 2147483647, endedTask 2147483648] .zero .zero ↔
      ∀ task ∈ [endedTask 2147483647, endedTask 2147483648], task.end_time ≤ 2147483647 :=
  roundTrip_iff (create_holds 0 [] 0) (by simp [endedTask]) (by decide +kernel) .zero .zero

/-- The first second of which the seconds since 1970 are no `int`. -/
theorem late_end_is_clamped :
    ¬ ∀ (m : Machine) (tasks : List SendTask) (flowEndIndex flowStartIndex : CInt), m.Holds [] →
      (∀ task ∈ tasks, 0 ≤ task.end_time) → (replyStream tasks).length ≤ MAX_RECV_BUFFER_SIZE →
      m.RoundTrip tasks flowEndIndex flowStartIndex := by
  intro always
  have holds := create_holds 0 [] 0
  have fits : (replyStream [endedTask 2147483648]).length ≤ MAX_RECV_BUFFER_SIZE := by decide +kernel
  obtain ⟨infos, last, given, returned⟩ :=
    always (create 0 [] 0) [endedTask 2147483648] .zero .zero holds (by simp [endedTask]) fits
  obtain ⟨last', polled⟩ := holds.poll_replies fits .zero .zero
  rw [polled] at given
  obtain ⟨rfl, -⟩ := Prod.mk.inj (Option.some.inj given)
  have time := (List.forall₂_cons.mp returned).1.time
  exact absurd time (by decide)

end Machine

end CoflowSim
