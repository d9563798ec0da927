import CoflowSim.Client.CompletionReports

namespace CoflowSim
open Lib

/-- `Sender::run` has set `SEND_END`, or has closed its socket as well. -/
def SenderStage.Ended (stage : SenderStage) : Prop := stage = .signalled ∨ stage = .closed ∨ stage = .returned
def SenderStage.Released (stage : SenderStage) : Prop := stage = .closed ∨ stage = .returned

namespace SendManager

/-- What a step can do to a task: the marks of `SendManager::run`, and the steps
of `Sender::run` in their order. -/
inductive TaskMove (phase : ManagerPhase) (t : Nat) : SendTask → SendTask → Prop
  | stays {task} : TaskMove phase t task task
  | marked {task} (appended : phase = .appended t) : TaskMove phase t task (task.setState .running)
  | reported {task rest} (sends : phase = .sending t rest) : TaskMove phase t task (task.setState .taskEnd)
  | timed {task} (time : Int) (sends : task.sender = .sending) : TaskMove phase t task (task.setEndTime time)
  | ended {task} (timed : task.sender = .timed) : TaskMove phase t task task.setSendEnd
  | closed {task} (signalled : task.sender = .signalled) : TaskMove phase t task (task.setStage .closed)
  | returned {task} (closed : task.sender = .closed) : TaskMove phase t task (task.setStage .returned)

section Steps

variable {s s' : SendManager} {a : ClientAction} {t : Nat}

theorem move_of_setTask {u : Nat} {change : SendTask → SendTask} {new : SendTask}
    (move : ∀ task, s.tasks[u]? = some task → TaskMove s.phase u task (change task))
    (here : (s.setTask u change).tasks[t]? = some new) :
    ∃ old, s.tasks[t]? = some old ∧ TaskMove s.phase t old new := by
  by_cases mine : t = u
  · subst mine
    rw [setTask_self] at here
    obtain ⟨old, atT, same⟩ := Option.map_eq_some_iff.mp here
    exact ⟨old, atT, same ▸ move old atT⟩
  · rw [setTask_other s mine] at here
    exact ⟨new, here, .stays⟩

theorem stage_at {task : SendTask} {stage : SenderStage} (staged : s.stageOf t = some stage)
    (here : s.tasks[t]? = some task) : task.sender = stage := by
  simpa [stageOf, here] using staged

/-- Where a task comes from: it was one before the step, or it is new. -/
theorem Step.origin (step : Step s a s') {new : SendTask} (here : s'.tasks[t]? = some new) :
    (∃ old, s.tasks[t]? = some old ∧ TaskMove s.phase t old new) ∨ s.tasks.length ≤ t ∧ new.send_state = .wait := by
  have arrives {ins : List Byte} {unset : CInt × CInt} (here : (s.tasks ++ [.parse ins unset])[t]? = some new) :
      (∃ old, s.tasks[t]? = some old ∧ TaskMove s.phase t old new) ∨
        s.tasks.length ≤ t ∧ new.send_state = .wait := by
    by_cases last : t = s.tasks.length
    · subst last
      rw [List.getElem?_concat_length, Option.some.injEq] at here
      exact Or.inr ⟨Nat.le_refl _, here ▸ rfl⟩
    · rw [tasks_append_other s last] at here
      exact Or.inl ⟨new, here, .stays⟩
  cases step with
  | refuseTask => exact arrives here
  | appendTask => exact arrives here
  | mark appended => exact Or.inl (move_of_setTask (fun _ _ => .marked appended) here)
  | sendMsg kernel sends => exact Or.inl (move_of_setTask (fun _ _ => .reported sends) here)
  | setEndTime time executes sends =>
    exact Or.inl (move_of_setTask (fun _ at' => .timed time (stage_at sends at')) here)
  | setSendEnd executes timed => exact Or.inl (move_of_setTask (fun _ at' => .ended (stage_at timed at')) here)
  | close executes signalled => exact Or.inl (move_of_setTask (fun _ at' => .closed (stage_at signalled at')) here)
  | senderReturns executes closed => exact Or.inl (move_of_setTask (fun _ at' => .returned (stage_at closed at')) here)
  | startRecv | startSend | post | wait | popNone | pop | refuseSender | append | appendReturns | push | pass | find
  | scanned | refuseReply | takeReply | delete | pool | refuseReceFile | appendReceFile | receFileReturns =>
    exact Or.inl ⟨new, here, .stays⟩

theorem Step.keeps_tasks (step : Step s a s') : s.tasks.length ≤ s'.tasks.length := by
  cases step <;> simp [setTask]

/-- No step takes a task away, and none does more to it than `TaskMove` says. -/
theorem Step.moves (step : Step s a s') {old : SendTask} (here : s.tasks[t]? = some old) :
    ∃ new, s'.tasks[t]? = some new ∧ TaskMove s.phase t old new := by
  have below : t < s.tasks.length := (List.getElem?_eq_some_iff.mp here).1
  have after := List.getElem?_eq_getElem (Nat.lt_of_lt_of_le below step.keeps_tasks)
  rcases step.origin after with ⟨old', before, move⟩ | ⟨beyond, -⟩
  · cases here.symm.trans before
    exact ⟨_, after, move⟩
  · exact absurd below (Nat.not_lt.mpr beyond)

/-- The scan replies for a task that it has found with `SEND_END`. -/
theorem Step.reporting (step : Step s a s') (reports : s'.phase.reporting = some t) :
    s.phase.reporting = some t ∨ s.stateOf t = some .ended := by
  cases step with
  | @find u rest task scans here ended =>
    cases reports
    exact Or.inr (by rw [stateOf, here, Option.map_some, ended])
  | takeReply replies => exact Or.inl (by rw [replies]; exact reports)
  | wait | popNone | pop | refuseSender | append | appendReturns | mark | push | pass | scanned | sendMsg | delete =>
    simp [ManagerPhase.reporting] at reports
  | startRecv | startSend | refuseTask | appendTask | post | refuseReply | pool | refuseReceFile | appendReceFile
  | receFileReturns | setEndTime | setSendEnd | close | senderReturns => exact Or.inl reports

/-- The delete pass begins when the scan has passed the whole queue. -/
theorem Step.deleting (step : Step s a s') (deletes : s'.phase = .deleting) :
    (s.phase = .deleting ∧ s'.send_task_running_queue = s.send_task_running_queue) ∨
      a = .scan ∧ s.phase = .scanning [] ∧ s' = { s with phase := .deleting } := by
  cases step with
  | scanned scans => exact Or.inr ⟨rfl, scans, rfl⟩
  | wait | popNone | pop | refuseSender | append | appendReturns | mark | push | pass | find | takeReply | sendMsg
  | delete => cases deletes
  | startRecv | startSend | refuseTask | appendTask | post | refuseReply | pool | refuseReceFile | appendReceFile
  | receFileReturns | setEndTime | setSendEnd | close | senderReturns => exact Or.inl ⟨deletes, rfl⟩

end Steps

/-- The tasks that the delete pass takes from the queue: their `Sender` and the
task itself are freed. -/
def freed (s : SendManager) : List Nat := s.send_task_running_queue.filter fun t => s.stateOf t = some .taskEnd

/-- `Sender::run` still has a step that reads its `Sender` or its task, the last
one being `close(sockfd)`. -/
def Reads (s : SendManager) (t : Nat) : Prop := s.Busy t ∨ s.stageOf t = some .signalled

/-- When a scan ends, no task that it leaves to the delete pass has its `Sender`
between `SEND_END` and `close`. -/
def ClosesInTime (s : SendManager) (a : ClientAction) : Prop :=
  a = .scan → s.phase = .scanning [] → ∀ t ∈ s.freed, s.stageOf t ≠ some .signalled

/-- Only a `Sender` that has set `SEND_END` is reported or freed, and the latter
after its `close`. -/
structure Outlived (s : SendManager) : Prop where
  ended : ∀ t task, s.tasks[t]? = some task → task.send_state = .ended ∨ task.send_state = .taskEnd ∨
    s.phase.reporting = some t → task.sender.Ended
  reports : ∀ t, s.phase.reporting = some t → t < s.tasks.length
  released : s.phase = .deleting → ∀ t ∈ s.send_task_running_queue, ∀ task, s.tasks[t]? = some task →
    task.send_state = .taskEnd → task.sender.Released

section Outlived

variable {s s' : SendManager} {a : ClientAction}

theorem mem_freed {t : Nat} {task : SendTask} (here : s.tasks[t]? = some task) :
    t ∈ s.freed ↔ t ∈ s.send_task_running_queue ∧ task.send_state = .taskEnd := by
  simp [freed, stateOf, here]

theorem Outlived.step_ended (outlived : Outlived s) (step : Step s a s') {t : Nat} {new : SendTask}
    (here : s'.tasks[t]? = some new)
    (marked : new.send_state = .ended ∨ new.send_state = .taskEnd ∨ s'.phase.reporting = some t) :
    new.sender.Ended := by
  have reporting := step.reporting (t := t)
  rcases step.origin here with ⟨old, atT, move⟩ | ⟨new, waits⟩
  · have before (marked : old.send_state = .ended ∨ old.send_state = .taskEnd ∨ s'.phase.reporting = some t) :
        old.sender.Ended := by
      refine outlived.ended t old atT ?_
      rcases marked with ended | taskEnd | reports
      · exact Or.inl ended
      · exact Or.inr (Or.inl taskEnd)
      · rcases reporting reports with reports | ended
        · exact Or.inr (Or.inr reports)
        · exact Or.inl (by simpa [stateOf, atT] using ended)
    cases move with
    | stays => exact before marked
    | marked =>
      have reports := (marked.resolve_left (by simp [SendTask.setState])).resolve_left (by simp [SendTask.setState])
      exact before (Or.inr (Or.inr reports))
    | reported sends => exact outlived.ended t old atT (Or.inr (Or.inr (by rw [sends]; rfl)))
    | timed time sends =>
      have ended := before marked
      simp [SenderStage.Ended, sends] at ended
    | ended => exact Or.inl rfl
    | closed => exact Or.inr (Or.inl rfl)
    | returned => exact Or.inr (Or.inr rfl)
  · have reports := (marked.resolve_left (by simp [waits])).resolve_left (by simp [waits])
    rcases reporting reports with reports | ended
    · exact absurd (outlived.reports t reports) (by omega)
    · exact absurd (stateOf_lt ended) (by omega)

theorem Outlived.step_released (outlived : Outlived s) (inTime : s.ClosesInTime a) (step : Step s a s')
    (deletes : s'.phase = .deleting) {t : Nat} (inside : t ∈ s'.send_task_running_queue) {new : SendTask}
    (here : s'.tasks[t]? = some new) (taskEnd : new.send_state = .taskEnd) : new.sender.Released := by
  rcases step.deleting deletes with ⟨deletes, queue⟩ | ⟨scan, scans, rfl⟩
  · rcases step.origin here with ⟨old, atT, move⟩ | ⟨-, waits⟩
    · have before (taskEnd : old.send_state = .taskEnd) : old.sender.Released :=
        outlived.released deletes t (queue ▸ inside) old atT taskEnd
      cases move with
      | stays => exact before taskEnd
      | marked appended => simp [deletes] at appended
      | reported sends => simp [deletes] at sends
      | timed time sends =>
        have released := before taskEnd
        simp [SenderStage.Released, sends] at released
      | ended => simp [SendTask.setSendEnd] at taskEnd
      | closed => exact Or.inl rfl
      | returned => exact Or.inr rfl
    · simp [waits] at taskEnd
  · have open_ := inTime scan scans t ((mem_freed here).mpr ⟨inside, taskEnd⟩)
    rw [stageOf, here] at open_
    exact (outlived.ended t new here (Or.inr (Or.inl taskEnd))).resolve_left fun stage =>
      open_ (congrArg some stage)

theorem Outlived.step (outlived : Outlived s) (inTime : s.ClosesInTime a) (step : Step s a s') : Outlived s' := by
  refine ⟨fun t new here marked => outlived.step_ended step here marked, fun t reports => ?_,
    fun deletes t inside new here taskEnd => outlived.step_released inTime step deletes inside here taskEnd⟩
  refine Nat.lt_of_lt_of_le ?_ step.keeps_tasks
  rcases step.reporting reports with reports | ended
  · exact outlived.reports t reports
  · exact stateOf_lt ended

theorem outlived_init (pool : ThreadPool Caller Job) : Outlived (init pool) :=
  ⟨fun t task here => by simp [init] at here, fun t reports => by simp [init, ManagerPhase.reporting] at reports,
    fun deletes => by simp [init] at deletes⟩

/-- In a run in which every `Sender` closes its socket before the scan that has
reported its task ends, no delete pass frees a `Sender` that still runs. -/
theorem sender_outlives_run {pool : ThreadPool Caller Job} {acts : List ClientAction}
    (run : Run (Where Step ClosesInTime) (init pool) acts s) (deletes : s.phase = .deleting) :
    ∀ t ∈ s.freed, ¬ s.Reads t := by
  have outlived := run.invariant (I := Outlived) (outlived_init pool) fun _ _ _ outlived taken =>
    outlived.step taken.1 taken.2
  intro t freed reads
  have inside := (List.mem_filter.mp freed).1
  have taskEnd : s.stateOf t = some .taskEnd := by simpa using (List.mem_filter.mp freed).2
  obtain ⟨task, here, state⟩ := Option.map_eq_some_iff.mp taskEnd
  have released := outlived.released deletes t inside task here state
  rcases reads with (reads | reads) | reads <;> simp [SenderStage.Released, stage_at reads here] at released

/-- The condition is needed at each such scan: when it ends without it, the delete
pass may come at once. -/
theorem frees_early (scans : s.phase = .scanning []) {t : Nat} (freed : t ∈ s.freed)
    (signalled : s.stageOf t = some .signalled) :
    ∃ s', Step s .scan s' ∧ s'.phase = .deleting ∧ t ∈ s'.freed ∧ s'.Reads t :=
  ⟨_, .scanned scans, rfl, freed, Or.inr signalled⟩

end Outlived

/-- One instruction, whose `Sender` has set `SEND_END` when `SendManager::run`
scans its queue, and has not closed its socket when the scan ends. -/
theorem reports {pool : ThreadPool Caller Job} (created : ThreadPool.create 0 10000 = some pool) :
    ∃ acts s, Run (Where Step ClosesInTime) (init pool) acts s ∧ s.phase = .scanning [] ∧ s.freed = [0] ∧
      s.stageOf 0 = some .signalled ∧ .executing (.sender 0) ∈ s.pool.workers ∧ s.send_task_running_queue = [0] := by
  have early (s : SendManager) (a : ClientAction) (_ : s.HandsOver a) (other : a ≠ .scan)
      (_ : ∀ t, a ≠ .setSendEnd t) : s.ClosesInTime a := fun same => absurd same other
  obtain ⟨acts, ready, occupied, run⟩ := marks early created
  have executes : .executing (.sender 0) ∈ ready.workers := by simp [occupied.workers]
  have run := run.next (a := ClientAction.setEndTime 0 7) ⟨nofun, .setEndTime 7 executes rfl⟩
  have run := run.next (a := ClientAction.setSendEnd 0) ⟨nofun, .setSendEnd executes rfl⟩
  have run := run.next (a := ClientAction.push 0) ⟨nofun, .push rfl⟩
  have run := run.next (a := ClientAction.scan) ⟨fun _ passed => (by cases passed), .find rfl rfl rfl⟩
  have taken : (SocketManage.initSocket.setSendMsg ((((SendTask.parse sampleTask (CInt.zero, CInt.zero)).setState
      .running).setEndTime 7).setSendEnd).reply).result = true := by decide +kernel
  have run := run.next (a := ClientAction.setSendMsg 0) ⟨nofun, .takeReply rfl taken⟩
  have run := run.next (a := ClientAction.sendMsg 0 .eagain) ⟨nofun, .sendMsg .eagain rfl⟩
  exact ⟨_, _, run, rfl, rfl, rfl, executes, rfl⟩

theorem sender_outlives_run_one : ∃ pool acts s, Run (Where Step ClosesInTime) (init pool) acts s ∧
    s.phase = .deleting ∧ s.freed = [0] ∧ ¬ s.Reads 0 := by
  obtain ⟨pool, created⟩ : ∃ pool : ThreadPool Caller Job, ThreadPool.create 0 10000 = some pool := ⟨_, rfl⟩
  obtain ⟨acts, s, run, scans, freed, signalled, executes, queue⟩ := reports created
  have run := run.next (a := ClientAction.close 0) ⟨nofun, .close executes signalled⟩
  have state : (s.setTask 0 (.setStage .closed)).stateOf 0 = s.stateOf 0 := stateOf_setTask_kept s 0 0 _ fun _ => rfl
  have freed' : (s.setTask 0 (.setStage .closed)).freed = [0] := by
    have inside : 0 ∈ s.freed := by simp [freed]
    have taskEnd : s.stateOf 0 = some .taskEnd := by simpa using (List.mem_filter.mp inside).2
    change (s.send_task_running_queue.filter _) = _
    simp [queue, state, taskEnd]
  have closed : (s.setTask 0 (.setStage .closed)).stageOf 0 = some .closed :=
    stageOf_setTask (stageOf_lt signalled) _ fun _ => rfl
  have inTime : (s.setTask 0 (.setStage .closed)).ClosesInTime .scan := by
    intro _ _ t member
    rw [freed', List.mem_singleton] at member
    rw [member, closed]
    simp
  have run := run.next (a := ClientAction.scan) ⟨inTime, .scanned scans⟩
  have member : 0 ∈ (s.setTask 0 (.setStage .closed)).freed := by simp [freed']
  exact ⟨pool, _, _, run, rfl, freed', sender_outlives_run run rfl 0 member⟩

/-- The delete pass comes between `SEND_END` and `close`. -/
theorem sender_freed_before_close : ∃ pool acts s, ThreadPool.create 0 10000 = some pool ∧
    Run Step (init pool) acts s ∧ s.phase = .deleting ∧ .executing (.sender 0) ∈ s.pool.workers ∧
      ∃ t ∈ s.freed, s.Reads t := by
  obtain ⟨pool, created⟩ : ∃ pool : ThreadPool Caller Job, ThreadPool.create 0 10000 = some pool := ⟨_, rfl⟩
  obtain ⟨acts, s, run, scans, freed, signalled, executes, -⟩ := reports created
  have run := run.unguarded.next (.scanned scans)
  have member : 0 ∈ s.freed := by simp [freed]
  exact ⟨pool, _, _, created, run, rfl, executes, 0, member, Or.inr signalled⟩

end SendManager

end CoflowSim
