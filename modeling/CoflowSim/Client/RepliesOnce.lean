import CoflowSim.Client.SenderLifetime

namespace CoflowSim
open Lib

namespace SendManager

variable {s s' : SendManager} {a : ClientAction} {t : Nat}

/-- What a step can do to the replies and to the scan that gives them. -/
inductive Turn (s s' : SendManager) : Prop
  | same (phase : s'.phase = s.phase) (replies : s'.replies = s.replies)
  | quiet (before : s.phase.reporting = none) (after : s'.phase.reporting = none) (replies : s'.replies = s.replies)
  | find {t : Nat} {task : SendTask} {rest : List Nat} (before : s.phase.reporting = none)
      (here : s.tasks[t]? = some task) (ended : task.send_state = .ended) (tasks : s'.tasks = s.tasks)
      (after : s'.phase = .replying t task.reply rest) (replies : s'.replies = s.replies)
  | taken {t : Nat} {reply : List Byte} {rest : List Nat} (before : s.phase = .replying t reply rest)
      (tasks : s'.tasks = s.tasks) (after : s'.phase = .sending t rest) (replies : s'.replies = s.replies ++ [(t, reply)])
  | sent {t : Nat} {rest : List Nat} (before : s.phase = .sending t rest) (after : s'.phase = .scanning rest)
      (tasks : s'.tasks = (s.setTask t (.setState .taskEnd)).tasks) (replies : s'.replies = s.replies)

theorem Step.turn (step : Step s a s') : Turn s s' := by
  cases step with
  | wait executes waits posted => exact .quiet (by rw [waits]; rfl) rfl rfl
  | popNone wakes empty => exact .quiet (by rw [wakes]; rfl) rfl rfl
  | pop wakes front => exact .quiet (by rw [wakes]; rfl) rfl rfl
  | refuseSender holds full => exact .quiet (by rw [holds]; rfl) rfl rfl
  | append holds pushed => exact .quiet (by rw [holds]; rfl) rfl rfl
  | appendReturns appends returned => exact .quiet (by rw [appends]; rfl) rfl rfl
  | mark appended => exact .quiet (by rw [appended]; rfl) rfl rfl
  | push marked => exact .quiet (by rw [marked]; rfl) rfl rfl
  | pass scans other => exact .quiet (by rw [scans]; rfl) rfl rfl
  | find scans here ended => exact .find (by rw [scans]; rfl) here ended rfl rfl rfl
  | scanned scans => exact .quiet (by rw [scans]; rfl) rfl rfl
  | takeReply replies taken => exact .taken replies rfl rfl rfl
  | sendMsg kernel sends => exact .sent sends rfl rfl rfl
  | delete deletes => exact .quiet (by rw [deletes]; rfl) rfl rfl
  | _ => exact .same rfl rfl

section Moves

variable {task task' : SendTask}

/-- What a `Sender` has set, nobody sets again. -/
theorem TaskMove.ended_kept (move : TaskMove s.phase t task task') (ended : task.sender.Ended) :
    task'.sender.Ended ∧ task'.reply = task.reply ∧ (task'.send_state = .ended → task.send_state = .ended) := by
  cases move with
  | stays => exact ⟨ended, rfl, id⟩
  | marked => exact ⟨ended, rfl, nofun⟩
  | reported => exact ⟨ended, rfl, nofun⟩
  | timed time sends => simp [SenderStage.Ended, sends] at ended
  | ended timed => simp [SenderStage.Ended, timed] at ended
  | closed => exact ⟨Or.inr (Or.inl rfl), rfl, id⟩
  | returned => exact ⟨Or.inr (Or.inr rfl), rfl, id⟩

/-- While a reply is on its way, a task that has ended is left as it is. -/
theorem TaskMove.replying {u : Nat} {reply : List Byte} {rest : List Nat} (move : TaskMove s.phase t task task')
    (phase : s.phase = .replying u reply rest) (ended : task.send_state = .ended) : task'.send_state = .ended := by
  cases move with
  | marked appended => simp [phase] at appended
  | reported sends => simp [phase] at sends
  | ended => rfl
  | stays | timed | closed | returned => exact ended

theorem TaskMove.state_ended (move : TaskMove s.phase t task task') (ended : task'.send_state = .ended) :
    task.send_state = .ended ∨ task'.sender.Ended := by
  cases move with
  | marked => exact nomatch ended
  | reported => exact nomatch ended
  | ended => exact Or.inr (Or.inl rfl)
  | stays | timed | closed | returned => exact Or.inl ended

theorem TaskMove.state_taskEnd (move : TaskMove s.phase t task task') (taskEnd : task'.send_state = .taskEnd) :
    task.send_state = .taskEnd ∨ s.phase.sends = some t := by
  cases move with
  | reported sends => exact Or.inr (by rw [sends]; rfl)
  | marked => exact nomatch taskEnd
  | ended => exact nomatch taskEnd
  | stays | timed | closed | returned => exact Or.inl taskEnd

end Moves

/-- The tasks that have a reply. -/
def replied (s : SendManager) : List Nat := s.replies.map fun reply => reply.1

structure Once (s : SendManager) : Prop where
  ended : ∀ (t : Nat) (task : SendTask), s.tasks[t]? = some task → task.send_state = .ended → task.sender.Ended
  taskEnd : ∀ (t : Nat) (task : SendTask), s.tasks[t]? = some task → task.send_state = .taskEnd → t ∈ s.replied
  replying : ∀ t reply rest, s.phase = .replying t reply rest →
    ∃ task : SendTask, s.tasks[t]? = some task ∧ task.send_state = .ended ∧ task.reply = reply
  sends : ∀ t, s.phase.sends = some t → t ∈ s.replied
  distinct : s.replied.Nodup
  replies : ∀ t reply, (t, reply) ∈ s.replies → ∃ task : SendTask, s.tasks[t]? = some task ∧
    task.sender.Ended ∧ task.reply = reply ∧ (task.send_state = .ended → s.phase.sends = some t)

theorem once_init (pool : ThreadPool Caller Job) : Once (init pool) :=
  ⟨by simp [init], by simp [init], nofun, nofun, by simp [init, replied], by simp [init]⟩

namespace Once

variable {task' : SendTask}

theorem ended_step (once : Once s) (step : Step s a s') (here : s'.tasks[t]? = some task')
    (ended : task'.send_state = .ended) : task'.sender.Ended := by
  rcases step.origin here with ⟨task, earlier, move⟩ | ⟨-, waits⟩
  · rcases move.state_ended ended with old | new
    · exact (move.ended_kept (once.ended t task earlier old)).1
    · exact new
  · exact nomatch waits.symm.trans ended

/-- The replies only grow. -/
theorem replied_mono (step : Step s a s') (member : t ∈ s.replied) : t ∈ s'.replied := by
  unfold replied at member ⊢
  rcases step.turn with ⟨-, same⟩ | ⟨-, -, same⟩ | ⟨-, -, -, -, -, same⟩ | ⟨-, -, -, more⟩ | ⟨-, -, -, same⟩
  · rwa [same]
  · rwa [same]
  · rwa [same]
  · rw [more, List.map_append]
    exact List.mem_append_left _ member
  · rwa [same]

theorem taskEnd_step (once : Once s) (step : Step s a s') (here : s'.tasks[t]? = some task')
    (taskEnd : task'.send_state = .taskEnd) : t ∈ s'.replied := by
  rcases step.origin here with ⟨task, earlier, move⟩ | ⟨-, waits⟩
  · rcases move.state_taskEnd taskEnd with old | sends
    · exact replied_mono step (once.taskEnd t task earlier old)
    · exact replied_mono step (once.sends t sends)
  · exact nomatch waits.symm.trans taskEnd

/-- A task that waits for its reply has had none. -/
theorem unreplied (once : Once s) {reply : List Byte} {rest : List Nat} (replies : s.phase = .replying t reply rest) :
    t ∉ s.replied := by
  intro member
  obtain ⟨⟨u, text⟩, found, rfl⟩ := List.mem_map.mp member
  obtain ⟨task, here, -, -, sends⟩ := once.replies u text found
  obtain ⟨other, same, ended, -⟩ := once.replying u reply rest replies
  cases here.symm.trans same
  have sending := sends ended
  rw [replies] at sending
  cases sending

/-- A reply that was taken before a step is still that of its task. -/
theorem replies_step (once : Once s) (step : Step s a s') {reply : List Byte} (member : (t, reply) ∈ s.replies) :
    ∃ task : SendTask, s'.tasks[t]? = some task ∧ task.sender.Ended ∧ task.reply = reply ∧
      (task.send_state = .ended → s'.phase.sends = some t) := by
  obtain ⟨task, here, hasEnded, text, sends⟩ := once.replies t reply member
  obtain ⟨task', here', move⟩ := step.moves here
  obtain ⟨hasEnded', reply', ended'⟩ := move.ended_kept hasEnded
  refine ⟨task', here', hasEnded', reply'.trans text, fun ended => ?_⟩
  have sending := sends (ended' ended)
  rcases step.turn with ⟨phase, -⟩ | ⟨quiet, -⟩ | ⟨quiet, -⟩ | ⟨replying, -⟩ | ⟨phase, -, tasks, -⟩
  · rwa [phase]
  · cases phase : s.phase <;> simp [phase, ManagerPhase.sends, ManagerPhase.reporting] at sending quiet
  · cases phase : s.phase <;> simp [phase, ManagerPhase.sends, ManagerPhase.reporting] at sending quiet
  · simp [replying, ManagerPhase.sends] at sending
  · rw [phase] at sending
    cases sending
    rw [tasks, setTask_self, here, Option.map_some] at here'
    cases here'
    cases ended

theorem replying_step (once : Once s) (step : Step s a s') {reply : List Byte} {rest : List Nat}
    (before : s.phase = .replying t reply rest) :
    ∃ task : SendTask, s'.tasks[t]? = some task ∧ task.send_state = .ended ∧ task.reply = reply := by
  obtain ⟨task, here, ended, text⟩ := once.replying t reply rest before
  obtain ⟨task', here', move⟩ := step.moves here
  obtain ⟨-, reply', -⟩ := move.ended_kept (once.ended t task here ended)
  exact ⟨task', here', move.replying before ended, reply'.trans text⟩

theorem step (once : Once s) (step : Step s a s') : Once s' := by
  have ended (t : Nat) (task : SendTask) (here : s'.tasks[t]? = some task) := once.ended_step step here
  have taskEnd (t : Nat) (task : SendTask) (here : s'.tasks[t]? = some task) := once.taskEnd_step step here
  have old (t : Nat) (reply : List Byte) (member : (t, reply) ∈ s.replies) := once.replies_step step member
  rcases step.turn with ⟨phase, same⟩ | ⟨-, quiet, same⟩ | ⟨-, here, isEnded, tasks, phase, same⟩ |
    ⟨replying, tasks, phase, more⟩ | ⟨-, phase, -, same⟩
  · have replied_eq : s'.replied = s.replied := by rw [replied, same, replied]
    refine ⟨ended, taskEnd, fun t reply rest replying => ?_, fun t sends => ?_, replied_eq ▸ once.distinct, ?_⟩
    · exact once.replying_step step (phase ▸ replying)
    · rw [replied_eq]
      exact once.sends t (phase ▸ sends)
    · exact fun t reply member => old t reply (same ▸ member)
  · have replied_eq : s'.replied = s.replied := by rw [replied, same, replied]
    refine ⟨ended, taskEnd, fun t reply rest replying => ?_, fun t sends => ?_, replied_eq ▸ once.distinct, ?_⟩
    · simp [replying, ManagerPhase.reporting] at quiet
    · cases phase : s'.phase <;> simp [phase, ManagerPhase.sends, ManagerPhase.reporting] at sends quiet
    · exact fun t reply member => old t reply (same ▸ member)
  · have replied_eq : s'.replied = s.replied := by rw [replied, same, replied]
    refine ⟨ended, taskEnd, fun t reply rest replying => ?_, fun t sends => ?_, replied_eq ▸ once.distinct, ?_⟩
    · rw [phase] at replying
      cases replying
      exact ⟨_, tasks ▸ here, isEnded, rfl⟩
    · simp [phase, ManagerPhase.sends] at sends
    · exact fun t reply member => old t reply (same ▸ member)
  · rename_i u text rest
    have replied_eq : s'.replied = s.replied ++ [u] := by rw [replied, more, List.map_append, replied]; rfl
    refine ⟨ended, taskEnd, fun t reply rest replying => ?_, fun t sends => ?_, ?_, ?_⟩
    · rw [phase] at replying
      cases replying
    · rw [phase] at sends
      cases sends
      simp [replied_eq]
    · rw [replied_eq, List.nodup_append]
      refine ⟨once.distinct, List.nodup_singleton u, ?_⟩
      rintro v member w new rfl
      rw [List.mem_singleton.mp new] at member
      exact once.unreplied replying member
    · intro t reply member
      rw [more, List.mem_append] at member
      rcases member with earlier | new
      · exact old t reply earlier
      · obtain ⟨rfl, rfl⟩ := Prod.mk.inj (List.mem_singleton.mp new)
        obtain ⟨task, here, isEnded, text⟩ := once.replying t reply rest replying
        exact ⟨task, tasks ▸ here, once.ended t task here isEnded, text, fun _ => by rw [phase]; rfl⟩
  · have replied_eq : s'.replied = s.replied := by rw [replied, same, replied]
    refine ⟨ended, taskEnd, fun t reply rest replying => ?_, fun t sends => ?_, replied_eq ▸ once.distinct, ?_⟩
    · rw [phase] at replying
      cases replying
    · simp [phase, ManagerPhase.sends] at sends
    · exact fun t reply member => old t reply (same ▸ member)

end Once

theorem once_run {pool : ThreadPool Caller Job} {acts : List ClientAction} (run : Run Step (init pool) acts s) :
    Once s :=
  run.invariant (once_init pool) fun _ _ _ once step => once.step step

/-- Whatever the queues refuse and however the `Sender`s race with the marks,
a task is replied at most once, after its `Sender` has set `SEND_END`, with its
IDs and its end time as they stay; and a task that is marked `TASK_END`, as the
delete pass of `run` finds it, has been replied. -/
theorem replied_once {pool : ThreadPool Caller Job} {acts : List ClientAction} (run : Run Step (init pool) acts s) :
    s.replied.Nodup ∧
      (∀ t reply, (t, reply) ∈ s.replies →
        ∃ task : SendTask, s.tasks[t]? = some task ∧ task.sender.Ended ∧ task.reply = reply) ∧
      ∀ t, s.stateOf t = some .taskEnd → t ∈ s.replied := by
  have once := once_run run
  refine ⟨once.distinct, fun t reply member => ?_, fun t taskEnd => ?_⟩
  · obtain ⟨task, here, hasEnded, text, -⟩ := once.replies t reply member
    exact ⟨task, here, hasEnded, text⟩
  · obtain ⟨task, here, state⟩ := Option.map_eq_some_iff.mp taskEnd
    exact once.taskEnd t task here state

/-- The `Sender` of the one task ends before the task is scanned, and its reply
is taken. -/
theorem one_reply : ∃ (pool : ThreadPool Caller Job) (acts : List ClientAction) (s : SendManager) (reply : List Byte),
    Run Step (init pool) acts s ∧ (0, reply) ∈ s.replies := by
  obtain ⟨pool, created⟩ : ∃ pool : ThreadPool Caller Job, ThreadPool.create 0 10000 = some pool := ⟨_, rfl⟩
  obtain ⟨acts, ready, occupied, run⟩ := timely_marks created
  have run := run.unguarded
  have executes : .executing (.sender 0) ∈ ready.workers := by simp [occupied.workers]
  have run := run.next (a := ClientAction.setEndTime 0 7) (.setEndTime 7 executes rfl)
  have run := run.next (a := ClientAction.setSendEnd 0) (.setSendEnd executes rfl)
  have run := run.next (a := ClientAction.push 0) (.push rfl)
  have run := run.next (a := ClientAction.scan) (.find rfl rfl rfl)
  have taken : (SocketManage.initSocket.setSendMsg ((((SendTask.parse sampleTask (CInt.zero, CInt.zero)).setState
      .running).setEndTime 7).setSendEnd).reply).result = true := by decide +kernel
  have run := run.next (a := ClientAction.setSendMsg 0) (.takeReply rfl taken)
  exact ⟨pool, _, _, _, run, List.mem_singleton_self _⟩

theorem replied_once_one : ∃ (pool : ThreadPool Caller Job) (acts : List ClientAction) (s : SendManager)
    (task : SendTask), Run Step (init pool) acts s ∧ s.tasks[0]? = some task ∧ task.sender.Ended ∧
      (0, task.reply) ∈ s.replies := by
  obtain ⟨pool, acts, s, reply, run, member⟩ := one_reply
  obtain ⟨task, here, hasEnded, text⟩ := (replied_once run).2.1 0 reply member
  exact ⟨pool, acts, s, task, run, here, hasEnded, text ▸ member⟩

end SendManager

end CoflowSim
