import CoflowSim.Client.TaskPlaces

namespace CoflowSim
open Lib

/-- The tasks that the current scan has still to look at. -/
def ManagerPhase.unscanned : ManagerPhase → List Nat
  | .scanning rest => rest
  | .replying _ _ rest => rest
  | .sending _ rest => rest
  | _ => []

/-- The task whose reply is on its way. -/
def ManagerPhase.reporting : ManagerPhase → Option Nat
  | .replying t _ _ => some t
  | .sending t _ => some t
  | _ => none

/-- The task whose reply `setSendMsg` has taken. -/
def ManagerPhase.sends : ManagerPhase → Option Nat
  | .sending t _ => some t
  | _ => none

namespace SendManager

/-- A scan will still come to the task: an instruction waits, or is held before
its scan, or the current scan has the task before it. -/
def ScanAhead (s : SendManager) (t : Nat) : Prop :=
  s.send_task_wait_queue ≠ [] ∨ s.phase.holds.isSome ∨ t ∈ s.phase.unscanned

/-- Every queue takes what it is given, and a `Sender` sets `SEND_END` after its
task has been marked and before the last scan has passed the task. -/
def Timely (s : SendManager) (a : ClientAction) : Prop :=
  s.HandsOver a ∧ ∀ t, a = .setSendEnd t → s.ScanAhead t

/-- The wait queue is empty, every `Sender::run` has returned, and
`SendManager::run` is blocked in `wait_queue_sem.wait()`. -/
def Quiescent (s : SendManager) : Prop :=
  s.send_task_wait_queue = [] ∧ (∀ t, ¬ s.pool.Holds (.sender t)) ∧ s.phase = .waiting ∧ s.wait_queue_sem = 0

/-- The replies for a task, in the order in which `setSendMsg` has taken them. -/
def repliesFor (s : SendManager) (t : Nat) : List (List Byte) :=
  (s.replies.filter fun reply => reply.1 = t).map fun reply => reply.2

/-- Every task has had its one reply, and no `SEND_END` is left. -/
def NothingLeft (s : SendManager) : Prop :=
  (∀ t task, s.tasks[t]? = some task → s.repliesFor t = [task.reply]) ∧
    ∀ t ∈ s.send_task_running_queue, s.stateOf t ≠ some .ended

/-- The replies for a task that there should be by now. -/
def due (tasks : List SendTask) (phase : ManagerPhase) (t : Nat) : List (List Byte) :=
  match tasks[t]? with
  | some task => if task.send_state = .taskEnd ∨ phase.sends = some t then [task.reply] else []
  | none => []

structure Reporting (s : SendManager) : Prop where
  ahead : ∀ t, s.stateOf t = some .ended → s.ScanAhead t ∨ s.phase.reporting = some t
  replied : ∀ t, s.repliesFor t = due s.tasks s.phase t
  reply : ∀ t reply rest, s.phase = .replying t reply rest → ∃ task, s.tasks[t]? = some task ∧ task.reply = reply

section Due

variable {tasks tasks' : List SendTask} {phase phase' : ManagerPhase} {t : Nat}

theorem due_congr (task : tasks'[t]? = tasks[t]?) (sends : phase'.sends = some t ↔ phase.sends = some t) :
    due tasks' phase' t = due tasks phase t := by
  simp only [due, task, sends]

theorem due_of_task {task task' : SendTask} (here : tasks[t]? = some task) (here' : tasks'[t]? = some task')
    (reply : task'.reply = task.reply)
    (state : task'.send_state = .taskEnd ∨ phase'.sends = some t ↔ task.send_state = .taskEnd ∨ phase.sends = some t) :
    due tasks' phase' t = due tasks phase t := by
  simp only [due, here, here', reply, state]

theorem due_of_unreported (unreported : tasks[t]?.map (·.send_state) ≠ some .taskEnd) (unsent : phase.sends ≠ some t) :
    due tasks phase t = [] := by
  unfold due
  split
  · rename_i task here
    have running : task.send_state ≠ .taskEnd := by simpa [here] using unreported
    simp only [running, unsent, or_self, if_false]
  · rfl

end Due

theorem Sound.sends_ended {s : SendManager} (sound : Sound s) {t : Nat} (sends : s.phase.sends = some t) :
    s.stateOf t = some .ended := by
  have scans := sound.scans
  unfold Scans at scans
  unfold ManagerPhase.sends at sends
  split at sends
  · rename_i u rest phase
    rw [phase] at scans
    exact Option.some.inj sends ▸ scans.1
  · cases sends

namespace Reporting

variable {s s' : SendManager}

/-- A step that leaves the phase alone, and ends no task. -/
theorem kept (reporting : Reporting s) (sound : Sound s) (phase : s'.phase = s.phase)
    (queue : s.send_task_wait_queue ≠ [] → s'.send_task_wait_queue ≠ [])
    (ended : ∀ t, s'.stateOf t = some .ended → s.stateOf t = some .ended) (replies : s'.replies = s.replies)
    (due_eq : ∀ t, due s'.tasks s'.phase t = due s.tasks s.phase t)
    (reply : ∀ t task, s.tasks[t]? = some task → s.stateOf t = some .ended →
      ∃ task', s'.tasks[t]? = some task' ∧ task'.reply = task.reply) : Reporting s' := by
  refine ⟨fun t here => ?_, fun t => ?_, fun t text rest replying => ?_⟩
  · rw [phase, ScanAhead, phase]
    rcases reporting.ahead t (ended t here) with ahead | reports
    · exact Or.inl (ahead.imp_left queue)
    · exact Or.inr reports
  · rw [due_eq, ← reporting.replied, repliesFor, replies, repliesFor]
  · rw [phase] at replying
    obtain ⟨task, here, text_eq⟩ := reporting.reply t text rest replying
    have scans := sound.scans
    rw [Scans, replying] at scans
    obtain ⟨task', here', same⟩ := reply t task here scans
    exact ⟨task', here', same.trans text_eq⟩

theorem unaffected (reporting : Reporting s) (sound : Sound s) (phase : s'.phase = s.phase)
    (queue : s'.send_task_wait_queue = s.send_task_wait_queue) (tasks : s'.tasks = s.tasks)
    (replies : s'.replies = s.replies) : Reporting s' := by
  have same (t : Nat) : s'.tasks[t]? = s.tasks[t]? := by rw [tasks]
  refine reporting.kept sound phase (by rw [queue]; exact id) (fun t => ?_) replies
    (fun t => due_congr (same t) (by rw [phase])) fun t task here _ => ⟨task, (same t).trans here, rfl⟩
  rw [stateOf, same, stateOf]
  exact id

/-- A step of `SendManager::run` that takes no reply and marks no task. -/
theorem phased (reporting : Reporting s) (tasks : s'.tasks = s.tasks) (replies : s'.replies = s.replies)
    (before : s.phase.sends = none) (after : s'.phase.sends = none)
    (ahead : ∀ t, s.stateOf t = some .ended → s.ScanAhead t ∨ s.phase.reporting = some t →
      s'.ScanAhead t ∨ s'.phase.reporting = some t)
    (reply : ∀ t reply rest, s'.phase = .replying t reply rest → ∃ task, s.tasks[t]? = some task ∧ task.reply = reply) :
    Reporting s' := by
  have same (t : Nat) : s'.tasks[t]? = s.tasks[t]? := by rw [tasks]
  refine ⟨fun t here => ?_, fun t => ?_, fun t text rest replying => ?_⟩
  · rw [stateOf, same, ← stateOf] at here
    exact ahead t here (reporting.ahead t here)
  · have sends : s'.phase.sends = some t ↔ s.phase.sends = some t := by rw [before, after]
    rw [due_congr (same t) sends, ← reporting.replied, repliesFor, replies, repliesFor]
  · rw [same]
    exact reply t text rest replying

theorem appendTask (reporting : Reporting s) (sound : Sound s) (ins : List Byte) (unset : CInt × CInt) :
    Reporting { s with
      tasks := s.tasks ++ [.parse ins unset]
      send_task_wait_queue := s.send_task_wait_queue ++ [s.tasks.length], posting := true } := by
  have same {u : Nat} (other : u ≠ s.tasks.length) := tasks_append_other s other (.parse ins unset)
  refine reporting.kept sound rfl (by simp) (fun t here => ?_) rfl (fun t => ?_) fun t task here ended => ?_
  · by_cases new : t = s.tasks.length
    · subst new
      simp [stateOf, SendTask.parse] at here
    · simpa only [stateOf, same new] using here
  · by_cases new : t = s.tasks.length
    · subst new
      have unsent : s.phase.sends ≠ some s.tasks.length := fun sends =>
        Nat.lt_irrefl _ (stateOf_lt (sound.sends_ended sends))
      rw [due_of_unreported (by simp [SendTask.parse]) unsent, due_of_unreported (by simp) unsent]
    · exact due_congr (same new) Iff.rfl
  · have old : t ≠ s.tasks.length := Nat.ne_of_lt (stateOf_lt ended)
    exact ⟨task, (same old).trans here, rfl⟩

theorem mark (reporting : Reporting s) (sound : Sound s) {t : Nat} (appended : s.phase = .appended t) :
    Reporting { s.setTask t (.setState .running) with phase := .marked t } := by
  obtain ⟨-, -, state, -, -⟩ := sound.launched (Or.inr appended)
  refine ⟨fun _ _ => Or.inl (Or.inr (Or.inl rfl)), fun u => (reporting.replied u).trans (Eq.symm ?_), nofun⟩
  by_cases other : u = t
  · obtain ⟨task, here, waits⟩ := Option.map_eq_some_iff.mp state
    have here' := setTask_self s t (.setState .running)
    rw [here] at here'
    subst other
    exact due_of_task here here' rfl (by simp [SendTask.setState, waits, appended, ManagerPhase.sends])
  · exact due_congr (setTask_other s other _) (by simp [appended, ManagerPhase.sends])

theorem takeReply (reporting : Reporting s) (sound : Sound s) {t : Nat} {reply : List Byte} {rest : List Nat}
    (replies : s.phase = .replying t reply rest) (socket : SocketManage) :
    Reporting { s with
      masterSockManger := socket, replies := s.replies ++ [(t, reply)], phase := .sending t rest } := by
  obtain ⟨task, here, text⟩ := reporting.reply t reply rest replies
  have state : s.stateOf t = some .ended := by
    have scans := sound.scans
    rwa [Scans, replies] at scans
  refine ⟨fun u ended => ?_, fun u => ?_, by simp⟩
  · have ahead := reporting.ahead u ended
    simpa only [ScanAhead, replies, ManagerPhase.holds, ManagerPhase.unscanned, ManagerPhase.reporting] using ahead
  · have before := reporting.replied u
    simp only [repliesFor, List.filter_append, List.map_append] at before ⊢
    rw [before]
    by_cases other : u = t
    · subst other
      have unsent : s.phase.sends ≠ some u := by simp [replies, ManagerPhase.sends]
      have open_ : s.stateOf u ≠ some .taskEnd := by simp [state]
      rw [due_of_unreported open_ unsent]
      simp [due, here, ManagerPhase.sends, text]
    · have same : due s.tasks (.sending t rest) u = due s.tasks s.phase u :=
        due_congr rfl (by simp [replies, ManagerPhase.sends, Ne.symm other])
      simp [same, Ne.symm other]

theorem sendMsg (reporting : Reporting s) (sound : Sound s) {t : Nat} {rest : List Nat}
    (sends : s.phase = .sending t rest) (socket : SocketManage) :
    Reporting { s.setTask t (.setState .taskEnd) with masterSockManger := socket, phase := .scanning rest } := by
  have ended := sound.sends_ended (t := t) (by rw [sends]; rfl)
  have taskEnd := stateOf_setTask (stateOf_lt ended) (.setState .taskEnd) fun _ => rfl
  refine ⟨fun u here => ?_, fun u => (reporting.replied u).trans (Eq.symm ?_), nofun⟩
  · have other : u ≠ t := by
      rintro rfl
      exact nomatch taskEnd.symm.trans here
    have before : s.stateOf u = some .ended := by
      rw [stateOf, ← setTask_other s other (.setState .taskEnd)]
      exact here
    have ahead := reporting.ahead u before
    simp only [ScanAhead, sends, ManagerPhase.holds, ManagerPhase.unscanned, ManagerPhase.reporting,
      Option.some.injEq, Ne.symm other, or_false] at ahead
    exact Or.inl ahead
  · by_cases other : u = t
    · obtain ⟨task, here, -⟩ := Option.map_eq_some_iff.mp ended
      have here' := setTask_self s t (.setState .taskEnd)
      rw [here] at here'
      subst other
      exact due_of_task here here' rfl (by simp [SendTask.setState, sends, ManagerPhase.sends])
    · exact due_congr (setTask_other s other _) (by simp [sends, ManagerPhase.sends, Ne.symm other])

theorem setSendEnd (reporting : Reporting s) (sound : Sound s) {t : Nat} (running : s.stateOf t = some .running)
    (ahead : s.ScanAhead t) : Reporting (s.setTask t .setSendEnd) := by
  have unsent : s.phase.sends ≠ some t := fun sends => nomatch running.symm.trans (sound.sends_ended sends)
  refine ⟨fun u here => ?_, fun u => (reporting.replied u).trans (Eq.symm ?_), fun u reply rest replying => ?_⟩
  · by_cases other : u = t
    · exact Or.inl (other ▸ ahead)
    · exact reporting.ahead u (by rwa [stateOf, ← setTask_other s other .setSendEnd])
  · by_cases other : u = t
    · obtain ⟨task, here, runs⟩ := Option.map_eq_some_iff.mp running
      have here' := setTask_self s t .setSendEnd
      rw [here] at here'
      subst other
      exact due_of_task here here' rfl (by simp [SendTask.setSendEnd, SendManager.setTask, runs, unsent])
    · exact due_congr (setTask_other s other _) Iff.rfl
  · have scans := sound.scans
    rw [Scans, show s.phase = .replying u reply rest from replying] at scans
    have other : u ≠ t := by
      rintro rfl
      exact nomatch running.symm.trans scans
    obtain ⟨task, here, text⟩ := reporting.reply u reply rest replying
    exact ⟨task, (setTask_other s other _).trans here, text⟩

theorem setTask_kept (reporting : Reporting s) (sound : Sound s) (t : Nat) (change : SendTask → SendTask)
    (pool : ThreadPool Caller Job) (state : ∀ task, (change task).send_state = task.send_state)
    (reply : s.stateOf t = some .ended ∨ s.stateOf t = some .taskEnd → ∀ task, (change task).reply = task.reply) :
    Reporting { s.setTask t change with pool } := by
  have states (u : Nat) := stateOf_setTask_kept s t u change state
  refine reporting.kept sound rfl id (fun u here => (states u).symm.trans here) rfl (fun u => ?_)
    fun u task here ended => ?_
  · by_cases other : u = t
    · subst other
      have here := setTask_self s u change
      cases task : s.tasks[u]? with
      | none => exact due_congr (by rw [here, task]; rfl) Iff.rfl
      | some old =>
        rw [task] at here
        by_cases done : s.stateOf u = some .ended ∨ s.stateOf u = some .taskEnd
        · exact due_of_task task here (reply done old) (by simp [state, SendManager.setTask])
        · rw [not_or] at done
          have unsent : s.phase.sends ≠ some u := fun sends => done.1 (sound.sends_ended sends)
          rw [due_of_unreported done.2 unsent]
          exact due_of_unreported (fun taskEnd => done.2 ((states u).symm.trans taskEnd)) unsent
    · exact due_congr (setTask_other s other _) Iff.rfl
  · by_cases other : u = t
    · subst other
      have here' := setTask_self s u change
      rw [here] at here'
      exact ⟨_, here', reply (Or.inl ended) task⟩
    · exact ⟨task, (setTask_other s other _).trans here, rfl⟩

theorem step {a : ClientAction} (reporting : Reporting s) (sound : Sound s) (timely : s.Timely a)
    (step : Step s a s') : Reporting s' := by
  cases step with
  | startRecv | startSend | post | refuseReply | pool | refuseReceFile | appendReceFile | receFileReturns =>
    exact reporting.unaffected sound rfl rfl rfl rfl
  | refuseTask listens fits full => exact absurd timely.1 (Nat.not_le.mpr full)
  | appendTask listens fits room => exact reporting.appendTask sound _ _
  | wait executes waits posted =>
    refine reporting.phased rfl rfl (by rw [waits]; rfl) rfl (fun t _ ahead => ?_) (by simp)
    simpa only [ScanAhead, waits, ManagerPhase.holds, ManagerPhase.unscanned, ManagerPhase.reporting] using ahead
  | popNone wakes empty =>
    refine reporting.phased rfl rfl (by rw [wakes]; rfl) rfl (fun t _ ahead => ?_) (by simp)
    simpa only [ScanAhead, wakes, ManagerPhase.holds, ManagerPhase.unscanned, ManagerPhase.reporting] using ahead
  | pop wakes front =>
    exact reporting.phased rfl rfl (by rw [wakes]; rfl) rfl (fun _ _ _ => Or.inl (Or.inr (Or.inl rfl))) (by simp)
  | refuseSender holds full =>
    exact reporting.phased rfl rfl (by rw [holds]; rfl) rfl (fun _ _ _ => Or.inl (Or.inr (Or.inl rfl))) (by simp)
  | append holds pushed =>
    exact reporting.phased rfl rfl (by rw [holds]; rfl) rfl (fun _ _ _ => Or.inl (Or.inr (Or.inl rfl))) (by simp)
  | appendReturns appends returned =>
    exact reporting.phased rfl rfl (by rw [appends]; rfl) rfl (fun _ _ _ => Or.inl (Or.inr (Or.inl rfl))) (by simp)
  | mark appended => exact reporting.mark sound appended
  | @push t marked =>
    refine reporting.phased rfl rfl (by rw [marked]; rfl) rfl (fun u ended _ => Or.inl (Or.inr (Or.inr ?_))) (by simp)
    -- the scan starts with every task of the queue before it
    obtain ⟨-, -, here | ⟨inside, -⟩⟩ := sound.ended ended
    · rw [marked] at here
      cases here
      simp [ManagerPhase.unscanned]
    · simp [ManagerPhase.unscanned, inside]
  | @pass t rest scans running =>
    refine reporting.phased rfl rfl (by rw [scans]; rfl) rfl (fun u ended ahead => ?_) (by simp)
    have other : u ≠ t := by
      rintro rfl
      exact running ended
    simpa [ScanAhead, scans, ManagerPhase.holds, ManagerPhase.unscanned, ManagerPhase.reporting, other] using ahead
  | @find t rest task scans here ended =>
    refine reporting.phased rfl rfl (by rw [scans]; rfl) rfl (fun u _ ahead => ?_) ?_
    · by_cases other : u = t
      · exact Or.inr (by rw [other]; rfl)
      · simpa [ScanAhead, scans, ManagerPhase.holds, ManagerPhase.unscanned, ManagerPhase.reporting, other,
          Ne.symm other] using ahead
    · intro u reply rest' replying
      cases replying
      exact ⟨task, here, rfl⟩
  | scanned scans =>
    refine reporting.phased rfl rfl (by rw [scans]; rfl) rfl (fun t _ ahead => ?_) (by simp)
    simpa [ScanAhead, scans, ManagerPhase.holds, ManagerPhase.unscanned, ManagerPhase.reporting] using ahead
  | takeReply replies taken => exact reporting.takeReply sound replies _
  | sendMsg kernel sends => exact reporting.sendMsg sound sends _
  | delete deletes =>
    refine reporting.phased rfl rfl (by rw [deletes]; rfl) rfl (fun t _ ahead => ?_) (by simp)
    simpa [ScanAhead, deletes, ManagerPhase.holds, ManagerPhase.unscanned, ManagerPhase.reporting] using ahead
  | @setEndTime t time executes sends =>
    refine reporting.setTask_kept sound t (.setEndTime time) _ (fun _ => rfl) fun done => ?_
    have early := sound.busy (Or.inl sends)
    exact absurd done (not_or.mpr early)
  | setSendEnd executes timed => exact reporting.setSendEnd sound timely.1 (timely.2 _ rfl)
  | close | senderReturns => exact reporting.setTask_kept sound _ _ _ (fun _ => rfl) fun _ _ => rfl

end Reporting

theorem reporting_init (pool : ThreadPool Caller Job) : Reporting (init pool) :=
  ⟨fun t here => by simp [stateOf, init] at here, fun t => by simp [repliesFor, due, init], nofun⟩

theorem reporting_run {thread_num : Int} {pool : ThreadPool Caller Job} {acts : List ClientAction} {s : SendManager}
    (created : ThreadPool.create thread_num 10000 = some pool) (run : Run (Where Step Timely) (init pool) acts s) :
    Sound s ∧ Reporting s :=
  run.invariant (I := fun s => Sound s ∧ Reporting s) ⟨sound_init created, reporting_init pool⟩
    fun _ _ _ kept taken => ⟨kept.1.step taken.1.1 taken.2, kept.2.step kept.1 taken.1 taken.2⟩

/-- When all is quiet, a task can only be where it has been reported. -/
theorem Standing.quiescent {s : SendManager} (quiet : s.Quiescent) {t : Nat} {place : Place}
    (stands : Standing s t place) (unended : s.stateOf t ≠ some .ended) : s.stateOf t = some .taskEnd := by
  obtain ⟨empty, returned, waits, -⟩ := quiet
  cases stands with
  | waitQueue queued => simp [empty] at queued
  | connecting phase | markedRunning phase | markedEnded phase => simp [waits] at phase
  | launched phase => simp [waits] at phase
  | running _ _ _ _ _ pooled => exact absurd pooled (returned t)
  | ended _ _ _ state => exact absurd state unended
  | reported _ _ state => exact state

/-- Nothing is left behind by a run in which every `Sender` ends in time for a
scan. -/
theorem nothing_left_behind {thread_num : Int} {pool : ThreadPool Caller Job} {acts : List ClientAction}
    {s : SendManager} (created : ThreadPool.create thread_num 10000 = some pool)
    (run : Run (Where Step Timely) (init pool) acts s) (quiet : s.Quiescent) : s.NothingLeft := by
  obtain ⟨sound, reporting⟩ := reporting_run created run
  have unended (t : Nat) : s.stateOf t ≠ some .ended := by
    intro ended
    obtain ⟨empty, -, waits, -⟩ := quiet
    have ahead := reporting.ahead t ended
    simp [ScanAhead, empty, waits, ManagerPhase.holds, ManagerPhase.unscanned, ManagerPhase.reporting] at ahead
  refine ⟨fun t task here => ?_, fun t _ => unended t⟩
  obtain ⟨place, stands⟩ := sound.stands t (List.getElem?_eq_some_iff.mp here).1
  have taskEnd := stands.quiescent quiet (unended t)
  simp only [stateOf, here, Option.map_some, Option.some.injEq] at taskEnd
  rw [reporting.replied, due, here]
  simp only [taskEnd, true_or, if_true]

/-- One instruction, up to the point where `SendManager::run` has marked its
task and the task's `Sender` has a thread. -/
theorem marks {guard : SendManager → ClientAction → Prop}
    (early : ∀ s a, s.HandsOver a → a ≠ .scan → (∀ t, a ≠ .setSendEnd t) → guard s a)
    {pool : ThreadPool Caller Job} (created : ThreadPool.create 0 10000 = some pool) :
    ∃ acts ready, ready.Occupied 0 10000 [.recvManager, .sendManager, .sender 0] [] ∧
      Run (Where Step guard) (init pool) acts { init pool with
        startup := .eventLoop, tasks := [(SendTask.parse sampleTask (CInt.zero, CInt.zero)).setState .running]
        phase := .marked 0, pool := ready } := by
  have pools (s : SendManager) (action : PoolAction Caller) : guard s (.pool action) := early _ _ trivial nofun nofun
  obtain ⟨acts, ready, occupied, run⟩ :=
    started (show ∀ s, guard s .startUp from fun _ => early _ _ trivial nofun nofun) pools created
  obtain ⟨q, more, ready', pushed, spawning, occupied'⟩ := occupied.append (Or.inl rfl) .sendManager (.sender 0)
  have manager : .executing .sendManager ∈ ready.workers := by simp [occupied.workers]
  have room : ¬ ready.max_task_num_ < ready.task_queue_.length := by simp [occupied.queue]
  have run : Run (Where Step guard) (init pool) _ { init pool with
      startup := .eventLoop, tasks := [.parse sampleTask (CInt.zero, CInt.zero)], send_task_wait_queue := [0]
      posting := true, pool := ready } := run.next (a := ClientAction.appendTask sampleTask (CInt.zero, CInt.zero))
    ⟨early _ _ (Nat.zero_le _) nofun nofun,
      .appendTask ⟨rfl, occupied.idle _, rfl⟩ sampleTask_fits (Nat.zero_le _)⟩
  have run := run.next (a := ClientAction.post) ⟨early _ _ trivial nofun nofun, .post rfl⟩
  have run := run.next (a := ClientAction.wait)
    ⟨early _ _ trivial nofun nofun, .wait manager rfl (Nat.succ_pos _)⟩
  have run := run.next (a := ClientAction.pop) ⟨early _ _ trivial nofun nofun, .pop rfl rfl⟩
  have run := run.next (a := ClientAction.append 0)
    ⟨early _ _ (Nat.not_lt.mp room) nofun nofun, .append rfl pushed⟩
  have run := run.trans (pool_run pools spawning)
  have run := run.next (a := ClientAction.appendReturns 0)
    ⟨early _ _ trivial nofun nofun, .appendReturns rfl (occupied'.idle _)⟩
  exact ⟨_, _, occupied', run.next (a := ClientAction.mark 0) ⟨early _ _ trivial nofun nofun, .mark rfl⟩⟩

/-- `marks` as a run whose steps are all timely. -/
theorem timely_marks {pool : ThreadPool Caller Job} (created : ThreadPool.create 0 10000 = some pool) :
    ∃ acts ready, ready.Occupied 0 10000 [.recvManager, .sendManager, .sender 0] [] ∧
      Run (Where Step Timely) (init pool) acts { init pool with
        startup := .eventLoop, tasks := [(SendTask.parse sampleTask (CInt.zero, CInt.zero)).setState .running]
        phase := .marked 0, pool := ready } :=
  marks (fun _ _ handsOver _ unended => ⟨handsOver, fun t same => absurd same (unended t)⟩) created

theorem quiet_pool {ready : ThreadPool Caller Job}
    (occupied : ready.Occupied 0 10000 [.recvManager, .sendManager, .sender 0] []) (t : Nat) :
    ¬ (ready.finish 2).Holds (.sender t) := by
  simp [ThreadPool.Holds, ThreadPool.finish, occupied.workers, occupied.queue]

/-- The `Sender` ends before its task is scanned. -/
theorem nothing_left_behind_early : ∃ pool acts s, ThreadPool.create 0 10000 = some pool ∧
    Run (Where Step Timely) (init pool) acts s ∧ s.Quiescent ∧ s.tasks.length = 1 ∧ s.NothingLeft := by
  obtain ⟨pool, created⟩ : ∃ pool : ThreadPool Caller Job, ThreadPool.create 0 10000 = some pool := ⟨_, rfl⟩
  obtain ⟨acts, ready, occupied, run⟩ := timely_marks created
  have sender : ready.workers[2]? = some (.executing (.sender 0)) := by simp [occupied.workers]
  have executes := List.mem_of_getElem? sender
  have run := run.next (a := ClientAction.setEndTime 0 7) ⟨⟨trivial, nofun⟩, .setEndTime 7 executes rfl⟩
  have run := run.next (a := ClientAction.setSendEnd 0)
    ⟨⟨rfl, fun _ _ => Or.inr (Or.inl rfl)⟩, .setSendEnd executes rfl⟩
  have run := run.next (a := ClientAction.close 0) ⟨⟨trivial, nofun⟩, .close executes rfl⟩
  have run := run.next (a := ClientAction.senderReturns 0) ⟨⟨trivial, nofun⟩, .senderReturns sender rfl⟩
  have run := run.next (a := ClientAction.push 0) ⟨⟨trivial, nofun⟩, .push rfl⟩
  have run := run.next (a := ClientAction.scan) ⟨⟨trivial, nofun⟩, .find rfl rfl rfl⟩
  have taken : (SocketManage.initSocket.setSendMsg (((((SendTask.parse sampleTask (CInt.zero, CInt.zero)).setState
      .running).setEndTime 7).setSendEnd.setStage .closed).setStage .returned).reply).result = true := by decide +kernel
  have run := run.next (a := ClientAction.setSendMsg 0) ⟨⟨trivial, nofun⟩, .takeReply rfl taken⟩
  have run := run.next (a := ClientAction.sendMsg 0 .eagain) ⟨⟨trivial, nofun⟩, .sendMsg .eagain rfl⟩
  have run := run.next (a := ClientAction.scan) ⟨⟨trivial, nofun⟩, .scanned rfl⟩
  have run := run.next (a := ClientAction.delete) ⟨⟨trivial, nofun⟩, .delete rfl⟩
  exact ⟨pool, _, _, created, run, ⟨rfl, quiet_pool occupied, rfl, rfl⟩, rfl,
    nothing_left_behind created run ⟨rfl, quiet_pool occupied, rfl, rfl⟩⟩

/-- The `Sender` ends after its task has been scanned. -/
theorem late_end_is_not_reported : ∃ pool acts s, ThreadPool.create 0 10000 = some pool ∧
    Run (Where Step HandsOver) (init pool) acts s ∧ s.Quiescent ∧ s.repliesFor 0 = [] ∧ ¬ s.NothingLeft := by
  obtain ⟨pool, created⟩ : ∃ pool : ThreadPool Caller Job, ThreadPool.create 0 10000 = some pool := ⟨_, rfl⟩
  obtain ⟨acts, ready, occupied, run⟩ := timely_marks created
  have sender : ready.workers[2]? = some (.executing (.sender 0)) := by simp [occupied.workers]
  have executes := List.mem_of_getElem? sender
  have run := run.mono fun _ _ _ taken => And.intro taken.1.1 taken.2
  have run := run.next (a := ClientAction.push 0) ⟨trivial, .push rfl⟩
  have unended : some SendState.running ≠ some .ended := nofun
  have run := run.next (a := ClientAction.scan) ⟨trivial, .pass rfl unended⟩
  have run := run.next (a := ClientAction.scan) ⟨trivial, .scanned rfl⟩
  have run := run.next (a := ClientAction.delete) ⟨trivial, .delete rfl⟩
  have run := run.next (a := ClientAction.setEndTime 0 7) ⟨trivial, .setEndTime 7 executes rfl⟩
  have run := run.next (a := ClientAction.setSendEnd 0) ⟨rfl, .setSendEnd executes rfl⟩
  have run := run.next (a := ClientAction.close 0) ⟨trivial, .close executes rfl⟩
  have run := run.next (a := ClientAction.senderReturns 0) ⟨trivial, .senderReturns sender rfl⟩
  exact ⟨pool, _, _, created, run, ⟨rfl, quiet_pool occupied, rfl, rfl⟩, rfl,
    fun done => done.2 0 List.mem_cons_self rfl⟩

end SendManager

end CoflowSim
