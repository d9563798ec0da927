import CoflowSim.Client.SendManager
import CoflowSim.Lib.Run

namespace CoflowSim
open Lib

/-- The task that `SendManager::run` has popped and not yet pushed. -/
def ManagerPhase.holds : ManagerPhase → Option Nat
  | .connecting t => some t
  | .appending t => some t
  | .appended t => some t
  | .marked t => some t
  | _ => none

/-- The places in which a decoded instruction can be. -/
inductive Place
  | waitQueue
  | held
  | running
  | ended
  | reported

namespace SendManager

def At (s : SendManager) (t : Nat) : Place → Prop
  | .waitQueue => t ∈ s.send_task_wait_queue
  | .held => s.phase.holds = some t
  | .running => t ∈ s.send_task_running_queue ∧ s.stateOf t = some .running ∧ s.pool.Holds (.sender t)
  | .ended => t ∈ s.send_task_running_queue ∧ s.stateOf t = some .ended
  | .reported => s.stateOf t = some .taskEnd ∧ ∃ reply, (t, reply) ∈ s.replies

/-- No queue refuses the hand-over, and no `Sender` sets `SEND_END` before
`SendManager::run` has set `SEND_RUNNING`. -/
def HandsOver (s : SendManager) : ClientAction → Prop
  | .appendTask _ _ => s.send_task_wait_queue.length ≤ s.max_task_number
  | .append _ => s.pool.task_queue_.length ≤ s.pool.max_task_num_
  | .setSendEnd t => s.stateOf t = some .running
  | _ => True

/-- The `Sender` of the task has not set `SEND_END` yet, or it has. -/
def Busy (s : SendManager) (t : Nat) : Prop := s.stageOf t = some .sending ∨ s.stageOf t = some .timed
def Done (s : SendManager) (t : Nat) : Prop :=
  s.stageOf t = some .signalled ∨ s.stageOf t = some .closed ∨ s.stageOf t = some .returned

/-- A place of a task, with all that holds of a task there. -/
inductive Standing (s : SendManager) (t : Nat) : Place → Prop
  | waitQueue (queued : t ∈ s.send_task_wait_queue) (free : s.phase.holds ≠ some t)
      (out : t ∉ s.send_task_running_queue) (state : s.stateOf t = some .wait) (busy : s.Busy t)
      (unpooled : ¬ s.pool.Holds (.sender t)) : Standing s t .waitQueue
  | connecting (phase : s.phase = .connecting t) (unqueued : t ∉ s.send_task_wait_queue)
      (out : t ∉ s.send_task_running_queue) (state : s.stateOf t = some .wait) (busy : s.Busy t)
      (unpooled : ¬ s.pool.Holds (.sender t)) : Standing s t .held
  | launched (phase : s.phase = .appending t ∨ s.phase = .appended t) (unqueued : t ∉ s.send_task_wait_queue)
      (out : t ∉ s.send_task_running_queue) (state : s.stateOf t = some .wait) (busy : s.Busy t)
      (pooled : s.pool.Holds (.sender t)) : Standing s t .held
  | markedRunning (phase : s.phase = .marked t) (unqueued : t ∉ s.send_task_wait_queue)
      (out : t ∉ s.send_task_running_queue) (state : s.stateOf t = some .running) (busy : s.Busy t)
      (pooled : s.pool.Holds (.sender t)) : Standing s t .held
  | markedEnded (phase : s.phase = .marked t) (unqueued : t ∉ s.send_task_wait_queue)
      (out : t ∉ s.send_task_running_queue) (state : s.stateOf t = some .ended) (done : s.Done t) : Standing s t .held
  | running (inside : t ∈ s.send_task_running_queue) (unqueued : t ∉ s.send_task_wait_queue)
      (free : s.phase.holds ≠ some t) (state : s.stateOf t = some .running) (busy : s.Busy t)
      (pooled : s.pool.Holds (.sender t)) : Standing s t .running
  | ended (inside : t ∈ s.send_task_running_queue) (unqueued : t ∉ s.send_task_wait_queue)
      (free : s.phase.holds ≠ some t) (state : s.stateOf t = some .ended) (done : s.Done t) : Standing s t .ended
  | reported (unqueued : t ∉ s.send_task_wait_queue) (free : s.phase.holds ≠ some t)
      (state : s.stateOf t = some .taskEnd) (done : s.Done t) (replied : ∃ reply, (t, reply) ∈ s.replies) :
      Standing s t .reported

theorem Standing.at {s : SendManager} {t : Nat} {place : Place} (stands : Standing s t place) : s.At t place := by
  cases stands with
  | waitQueue queued => exact queued
  | connecting phase => simp [At, phase, ManagerPhase.holds]
  | launched phase => rcases phase with phase | phase <;> simp [At, phase, ManagerPhase.holds]
  | markedRunning phase | markedEnded phase => simp [At, phase, ManagerPhase.holds]
  | running inside _ _ state _ pooled => exact ⟨inside, state, pooled⟩
  | ended inside _ _ state => exact ⟨inside, state⟩
  | reported _ _ state _ replied => exact ⟨state, replied⟩

/-- A task stands in no place but its own. -/
theorem Standing.only {s : SendManager} {t : Nat} {place : Place} (stands : Standing s t place) {other : Place}
    (there : s.At t other) : other = place := by
  cases stands with
  | waitQueue queued free out state => cases other <;> simp_all [At]
  | connecting phase unqueued out state => cases other <;> simp_all [At]
  | launched phase unqueued out state => cases other <;> simp_all [At]
  | markedRunning phase unqueued out state => cases other <;> simp_all [At]
  | markedEnded phase unqueued out state => cases other <;> simp_all [At]
  | running inside unqueued free state => cases other <;> simp_all [At]
  | ended inside unqueued free state => cases other <;> simp_all [At]
  | reported unqueued free state => cases other <;> simp_all [At]

theorem Standing.existsUnique {s : SendManager} {t : Nat} {place : Place} (stands : Standing s t place) :
    ∃! place, s.At t place :=
  ⟨place, stands.at, fun _ there => stands.only there⟩

/-- A step that leaves this task in its place. A task that has been reported may
leave the running queue, and one whose `Sender` is done may leave the pool. -/
structure Spares (s s' : SendManager) (t : Nat) : Prop where
  queued : t ∈ s'.send_task_wait_queue ↔ t ∈ s.send_task_wait_queue
  inside : s.stateOf t ≠ some .taskEnd → t ∈ s.send_task_running_queue → t ∈ s'.send_task_running_queue
  outside : t ∈ s'.send_task_running_queue → t ∈ s.send_task_running_queue
  phase : s'.phase = s.phase ∨ s.phase.holds ≠ some t ∧ s'.phase.holds ≠ some t
  state : s'.stateOf t = s.stateOf t
  busy : s.Busy t → s'.Busy t
  done : s.Done t → s'.Done t
  pooled : s.Busy t → s.pool.Holds (.sender t) → s'.pool.Holds (.sender t)
  unpooled : s'.pool.Holds (.sender t) → s.pool.Holds (.sender t)
  replies : ∀ reply ∈ s.replies, reply ∈ s'.replies

theorem Spares.refl (s : SendManager) (t : Nat) : Spares s s t :=
  ⟨Iff.rfl, fun _ => id, id, Or.inl rfl, rfl, id, id, fun _ => id, id, fun _ => id⟩

theorem Standing.spared {s s' : SendManager} {t : Nat} {place : Place} (spares : Spares s s' t)
    (stands : Standing s t place) : Standing s' t place := by
  obtain ⟨queued, inside, outside, phase, state, busy, done, pooled, unpooled, replies⟩ := spares
  have free (away : s.phase.holds ≠ some t) : s'.phase.holds ≠ some t := by
    rcases phase with same | ⟨-, away'⟩
    · rwa [same]
    · exact away'
  have stays (here : s.phase.holds = some t) : s'.phase = s.phase := by
    rcases phase with same | ⟨away, -⟩
    · exact same
    · exact absurd here away
  have kept {st : SendState} (st_eq : s.stateOf t = some st) (open_ : st ≠ .taskEnd) : s.stateOf t ≠ some .taskEnd := by
    simpa [st_eq] using open_
  cases stands with
  | waitQueue q f o st b u =>
    exact .waitQueue (queued.mpr q) (free f) (mt outside o) (state.trans st) (busy b) (mt unpooled u)
  | connecting ph u o st b up =>
    exact .connecting ((stays (by rw [ph]; rfl)).trans ph) (mt queued.mp u) (mt outside o) (state.trans st)
      (busy b) (mt unpooled up)
  | launched ph u o st b po =>
    have same : s'.phase = s.phase := stays (by rcases ph with ph | ph <;> rw [ph] <;> rfl)
    exact .launched (by rwa [same]) (mt queued.mp u) (mt outside o) (state.trans st) (busy b) (pooled b po)
  | markedRunning ph u o st b po =>
    exact .markedRunning ((stays (by rw [ph]; rfl)).trans ph) (mt queued.mp u) (mt outside o) (state.trans st)
      (busy b) (pooled b po)
  | markedEnded ph u o st d =>
    exact .markedEnded ((stays (by rw [ph]; rfl)).trans ph) (mt queued.mp u) (mt outside o) (state.trans st) (done d)
  | running i u f st b po =>
    exact .running (inside (kept st nofun) i) (mt queued.mp u) (free f) (state.trans st) (busy b) (pooled b po)
  | ended i u f st d =>
    exact .ended (inside (kept st nofun) i) (mt queued.mp u) (free f) (state.trans st) (done d)
  | reported u f st d r =>
    obtain ⟨reply, member⟩ := r
    exact .reported (mt queued.mp u) (free f) (state.trans st) (done d) ⟨reply, replies _ member⟩

/-- While a reply is on its way, its task has ended, and `sendMsg` comes after
the reply has been taken. -/
def Scans (s : SendManager) : Prop :=
  match s.phase with
  | .replying t _ _ => s.stateOf t = some .ended
  | .sending t _ => s.stateOf t = some .ended ∧ ∃ reply, (t, reply) ∈ s.replies
  | _ => True

theorem Scans.kept {s s' : SendManager} (scans : s.Scans) (phase : s'.phase = s.phase)
    (state : ∀ t, s.stateOf t = some .ended → s'.stateOf t = some .ended)
    (replies : ∀ reply ∈ s.replies, reply ∈ s'.replies) : s'.Scans := by
  unfold Scans at scans ⊢
  rw [phase]
  split
  · rename_i t reply rest here
    rw [here] at scans
    exact state t scans
  · rename_i t rest here
    rw [here] at scans
    obtain ⟨ended, reply, member⟩ := scans
    exact ⟨state t ended, reply, replies _ member⟩
  · trivial

/-- Every task stands somewhere, and what is not a task yet is nowhere. -/
structure Sound (s : SendManager) : Prop where
  stands : ∀ t < s.tasks.length, ∃ place, Standing s t place
  fresh : ∀ t, s.tasks.length ≤ t → t ∉ s.send_task_wait_queue ∧ t ∉ s.send_task_running_queue ∧
    s.phase.holds ≠ some t ∧ ¬ s.pool.Holds (.sender t)
  distinct : s.send_task_wait_queue.Nodup
  scans : s.Scans

theorem tasks_append_other (s : SendManager) {u : Nat} (other : u ≠ s.tasks.length) (task : SendTask) :
    (s.tasks ++ [task])[u]? = s.tasks[u]? := by
  rcases Nat.lt_or_gt_of_ne other with below | above
  · exact List.getElem?_append_left below
  · exact (List.getElem?_eq_none (by simp; omega)).trans (List.getElem?_eq_none (by omega)).symm

theorem setTask_other (s : SendManager) {t u : Nat} (other : u ≠ t) (change : SendTask → SendTask) :
    (s.setTask t change).tasks[u]? = s.tasks[u]? := by
  simp [setTask, Ne.symm other]

theorem setTask_self (s : SendManager) (t : Nat) (change : SendTask → SendTask) :
    (s.setTask t change).tasks[t]? = s.tasks[t]?.map change := by
  simp [setTask]

theorem stateOf_setTask {s : SendManager} {t : Nat} (task : t < s.tasks.length) (change : SendTask → SendTask)
    {state : SendState} (becomes : ∀ task, (change task).send_state = state) :
    (s.setTask t change).stateOf t = some state := by
  rw [stateOf, setTask_self, List.getElem?_eq_getElem task]
  simp [becomes]

theorem stageOf_setTask {s : SendManager} {t : Nat} (task : t < s.tasks.length) (change : SendTask → SendTask)
    {stage : SenderStage} (becomes : ∀ task, (change task).sender = stage) :
    (s.setTask t change).stageOf t = some stage := by
  rw [stageOf, setTask_self, List.getElem?_eq_getElem task]
  simp [becomes]

theorem stateOf_setTask_kept (s : SendManager) (t u : Nat) (change : SendTask → SendTask)
    (keeps : ∀ task, (change task).send_state = task.send_state) : (s.setTask t change).stateOf u = s.stateOf u := by
  by_cases other : u = t
  · subst other
    rw [stateOf, setTask_self, Option.map_map, stateOf]
    exact congrArg (Option.map · _) (funext keeps)
  · rw [stateOf, setTask_other s other, stateOf]

theorem stageOf_setTask_kept (s : SendManager) (t u : Nat) (change : SendTask → SendTask)
    (keeps : ∀ task, (change task).sender = task.sender) : (s.setTask t change).stageOf u = s.stageOf u := by
  by_cases other : u = t
  · subst other
    rw [stageOf, setTask_self, Option.map_map, stageOf]
    exact congrArg (Option.map · _) (funext keeps)
  · rw [stageOf, setTask_other s other, stageOf]

theorem busy_congr {s s' : SendManager} {t : Nat} (stage : s'.stageOf t = s.stageOf t) : s'.Busy t ↔ s.Busy t := by
  rw [Busy, Busy, stage]

theorem done_congr {s s' : SendManager} {t : Nat} (stage : s'.stageOf t = s.stageOf t) : s'.Done t ↔ s.Done t := by
  rw [Done, Done, stage]

theorem Busy.unfinished {s : SendManager} {t : Nat} (busy : s.Busy t) : ¬ s.Done t := by
  rintro (done | done | done) <;> rcases busy with here | here <;> simp [here] at done

theorem Spares.setTask (s : SendManager) {t u : Nat} (other : u ≠ t) (change : SendTask → SendTask) :
    Spares s (s.setTask t change) u := by
  have stage : (s.setTask t change).stageOf u = s.stageOf u := by rw [stageOf, setTask_other s other, stageOf]
  refine { Spares.refl s u with state := ?_, busy := (busy_congr stage).mpr, done := (done_congr stage).mpr }
  rw [stateOf, setTask_other s other, stateOf]

theorem stateOf_lt {s : SendManager} {t : Nat} {state : SendState} (here : s.stateOf t = some state) :
    t < s.tasks.length := by
  obtain ⟨task, found, -⟩ := Option.map_eq_some_iff.mp here
  exact (List.getElem?_eq_some_iff.mp found).1

theorem stageOf_lt {s : SendManager} {t : Nat} {stage : SenderStage} (here : s.stageOf t = some stage) :
    t < s.tasks.length := by
  obtain ⟨task, found, -⟩ := Option.map_eq_some_iff.mp here
  exact (List.getElem?_eq_some_iff.mp found).1

namespace Sound

variable {s s' : SendManager}

/-- A step that spares every task and adds none. -/
theorem spared (sound : Sound s) (length : s'.tasks.length = s.tasks.length) (spares : ∀ t, Spares s s' t)
    (queue : s'.send_task_wait_queue = s.send_task_wait_queue) (scans : s'.Scans) : Sound s' := by
  refine ⟨fun t below => ?_, fun t above => ?_, queue ▸ sound.distinct, scans⟩
  · obtain ⟨place, stands⟩ := sound.stands t (length ▸ below)
    exact ⟨place, stands.spared (spares t)⟩
  · obtain ⟨unqueued, out, free, unpooled⟩ := sound.fresh t (length ▸ above)
    have spares := spares t
    refine ⟨mt spares.queued.mp unqueued, mt spares.outside out, ?_, mt spares.unpooled unpooled⟩
    rcases spares.phase with same | ⟨-, away⟩
    · rwa [same]
    · exact away

/-- A step that moves one task only, or adds it. -/
theorem moved (sound : Sound s) {u : Nat} (task : u < s'.tasks.length)
    (length : ∀ t ≠ u, t < s'.tasks.length ↔ t < s.tasks.length) (stands : ∃ place, Standing s' u place)
    (others : ∀ t ≠ u, Spares s s' t) (distinct : s'.send_task_wait_queue.Nodup) (scans : s'.Scans) : Sound s' := by
  refine ⟨fun t below => ?_, fun t above => ?_, distinct, scans⟩
  · by_cases here : t = u
    · exact here ▸ stands
    · obtain ⟨place, stands⟩ := sound.stands t ((length t here).mp below)
      exact ⟨place, stands.spared (others t here)⟩
  · have apart : t ≠ u := by omega
    have beyond : ¬ t < s.tasks.length := mt (length t apart).mpr (by omega)
    obtain ⟨unqueued, out, free, unpooled⟩ := sound.fresh t (by omega)
    have spares := others t apart
    refine ⟨mt spares.queued.mp unqueued, mt spares.outside out, ?_, mt spares.unpooled unpooled⟩
    rcases spares.phase with same | ⟨-, away⟩
    · rwa [same]
    · exact away

/-- The task that `SendManager::run` holds, by what it has done with it. -/
theorem connecting (sound : Sound s) {t : Nat} (holds : s.phase = .connecting t) :
    t ∉ s.send_task_wait_queue ∧ t ∉ s.send_task_running_queue ∧ s.stateOf t = some .wait ∧ s.Busy t := by
  have held : s.phase.holds = some t := by rw [holds]; rfl
  have task : t < s.tasks.length := by
    by_contra above
    exact (sound.fresh t (by omega)).2.2.1 held
  obtain ⟨place, stands⟩ := sound.stands t task
  cases stands with
  | connecting _ unqueued out state busy => exact ⟨unqueued, out, state, busy⟩
  | launched phase | markedRunning phase | markedEnded phase => simp [holds] at phase
  | waitQueue _ free | running _ _ free | ended _ _ free | reported _ free => exact absurd held free

theorem launched (sound : Sound s) {t : Nat} (holds : s.phase = .appending t ∨ s.phase = .appended t) :
    t ∉ s.send_task_wait_queue ∧ t ∉ s.send_task_running_queue ∧ s.stateOf t = some .wait ∧ s.Busy t ∧
      s.pool.Holds (.sender t) := by
  have held : s.phase.holds = some t := by rcases holds with holds | holds <;> rw [holds] <;> rfl
  have task : t < s.tasks.length := by
    by_contra above
    exact (sound.fresh t (by omega)).2.2.1 held
  obtain ⟨place, stands⟩ := sound.stands t task
  cases stands with
  | launched _ unqueued out state busy pooled => exact ⟨unqueued, out, state, busy, pooled⟩
  | connecting phase | markedRunning phase | markedEnded phase => simp [phase] at holds
  | waitQueue _ free | running _ _ free | ended _ _ free | reported _ free => exact absurd held free

theorem marked (sound : Sound s) {t : Nat} (holds : s.phase = .marked t) :
    t ∉ s.send_task_wait_queue ∧
      (s.stateOf t = some .running ∧ s.Busy t ∧ s.pool.Holds (.sender t) ∨ s.stateOf t = some .ended ∧ s.Done t) := by
  have held : s.phase.holds = some t := by rw [holds]; rfl
  have task : t < s.tasks.length := by
    by_contra above
    exact (sound.fresh t (by omega)).2.2.1 held
  obtain ⟨place, stands⟩ := sound.stands t task
  cases stands with
  | markedRunning _ unqueued _ state busy pooled => exact ⟨unqueued, Or.inl ⟨state, busy, pooled⟩⟩
  | markedEnded _ unqueued _ state done => exact ⟨unqueued, Or.inr ⟨state, done⟩⟩
  | connecting phase => simp [holds] at phase
  | launched phase => simp [holds] at phase
  | waitQueue _ free | running _ _ free | ended _ _ free | reported _ free => exact absurd held free

/-- A task that has ended is held, or it is in the running queue. -/
theorem ended (sound : Sound s) {t : Nat} (here : s.stateOf t = some .ended) :
    t ∉ s.send_task_wait_queue ∧ s.Done t ∧ (s.phase = .marked t ∨
      t ∈ s.send_task_running_queue ∧ s.phase.holds ≠ some t) := by
  obtain ⟨place, stands⟩ := sound.stands t (stateOf_lt here)
  cases stands with
  | markedEnded phase unqueued _ _ done => exact ⟨unqueued, done, Or.inl phase⟩
  | ended inside unqueued free _ done => exact ⟨unqueued, done, Or.inr ⟨inside, free⟩⟩
  | waitQueue _ _ _ state | connecting _ _ _ state | launched _ _ _ state | markedRunning _ _ _ state
  | running _ _ _ state | reported _ _ state => simp [here] at state

/-- A `Sender` that has not set `SEND_END` has a task that waits or runs. -/
theorem busy (sound : Sound s) {t : Nat} (here : s.Busy t) :
    s.stateOf t ≠ some .ended ∧ s.stateOf t ≠ some .taskEnd := by
  have task : t < s.tasks.length := by rcases here with here | here <;> exact stageOf_lt here
  have unfinished := here.unfinished
  obtain ⟨place, stands⟩ := sound.stands t task
  cases stands with
  | waitQueue _ _ _ state | connecting _ _ _ state | launched _ _ _ state | markedRunning _ _ _ state
  | running _ _ _ state => simp [state]
  | markedEnded _ _ _ _ done | ended _ _ _ _ done | reported _ _ _ done => exact absurd done unfinished

theorem pop (sound : Sound s) {t : Nat} {rest : List Nat} (wakes : s.phase = .woken)
    (front : s.send_task_wait_queue = t :: rest) :
    Sound { s with send_task_wait_queue := rest, phase := .connecting t } := by
  have queued : t ∈ s.send_task_wait_queue := by simp [front]
  have distinct := sound.distinct
  rw [front, List.nodup_cons] at distinct
  have task : t < s.tasks.length := by
    by_contra above
    exact (sound.fresh t (by omega)).1 queued
  refine sound.moved task (fun _ _ => Iff.rfl) ?_ (fun u other => ?_) distinct.2 trivial
  · obtain ⟨place, stands⟩ := sound.stands t task
    cases stands with
    | waitQueue _ _ out state busy unpooled => exact ⟨.held, .connecting rfl distinct.1 out state busy unpooled⟩
    | connecting _ unqueued | launched _ unqueued | markedRunning _ unqueued | markedEnded _ unqueued
    | running _ unqueued | ended _ unqueued | reported unqueued => exact absurd queued unqueued
  · refine { Spares.refl s u with queued := by simp [front, other], phase := Or.inr ?_ }
    simp [wakes, ManagerPhase.holds, Ne.symm other]

theorem append (sound : Sound s) {t : Nat} {pool : ThreadPool Caller Job} (holds : s.phase = .connecting t)
    (pushed : s.pool.push .sendManager (.sender t) = some pool) : Sound { s with pool, phase := .appending t } := by
  obtain ⟨unqueued, out, state, busy⟩ := sound.connecting holds
  have iff := ThreadPool.push_holds_iff pushed
  refine sound.moved (stateOf_lt state) (fun _ _ => Iff.rfl) ?_ (fun u other => ?_) sound.distinct trivial
  · exact ⟨.held, .launched (Or.inl rfl) unqueued out state busy ((iff _).mpr (Or.inl rfl))⟩
  · have same : pool.Holds (.sender u) ↔ s.pool.Holds (.sender u) := by
      rw [iff]
      simp [other]
    refine { Spares.refl s u with phase := Or.inr ?_, pooled := fun _ => same.mpr, unpooled := same.mp }
    simp [holds, ManagerPhase.holds, Ne.symm other]

theorem appendReturns (sound : Sound s) {t : Nat} (appends : s.phase = .appending t) :
    Sound { s with phase := .appended t } := by
  obtain ⟨unqueued, out, state, busy, pooled⟩ := sound.launched (Or.inl appends)
  refine sound.moved (stateOf_lt state) (fun _ _ => Iff.rfl) ?_ (fun u other => ?_) sound.distinct trivial
  · exact ⟨.held, .launched (Or.inr rfl) unqueued out state busy pooled⟩
  · refine { Spares.refl s u with phase := Or.inr ?_ }
    simp [appends, ManagerPhase.holds, Ne.symm other]

theorem mark (sound : Sound s) {t : Nat} (appended : s.phase = .appended t) :
    Sound { s.setTask t (.setState .running) with phase := .marked t } := by
  obtain ⟨unqueued, out, state, busy, pooled⟩ := sound.launched (Or.inr appended)
  have task := stateOf_lt state
  refine sound.moved (by simpa [setTask] using task) (by simp [setTask]) ?_ (fun u other => ?_) sound.distinct trivial
  · have stage := stageOf_setTask_kept s t t (.setState .running) fun _ => rfl
    exact ⟨.held, .markedRunning rfl unqueued out (stateOf_setTask task _ fun _ => rfl)
      ((busy_congr stage).mpr busy) pooled⟩
  · refine { Spares.setTask s other _ with phase := Or.inr ?_ }
    simp [appended, ManagerPhase.holds, Ne.symm other]

theorem push (sound : Sound s) {t : Nat} (marked : s.phase = .marked t) :
    Sound { s with
      send_task_running_queue := s.send_task_running_queue ++ [t]
      phase := .scanning (s.send_task_running_queue ++ [t]) } := by
  obtain ⟨unqueued, stands⟩ := sound.marked marked
  have inside : t ∈ s.send_task_running_queue ++ [t] := by simp
  have task : t < s.tasks.length := by
    rcases stands with ⟨state, -⟩ | ⟨state, -⟩ <;> exact stateOf_lt state
  refine sound.moved task (fun _ _ => Iff.rfl) ?_ (fun u other => ?_) sound.distinct trivial
  · rcases stands with ⟨state, busy, pooled⟩ | ⟨state, done⟩
    · exact ⟨.running, .running inside unqueued nofun state busy pooled⟩
    · exact ⟨.ended, .ended inside unqueued nofun state done⟩
  · refine { Spares.refl s u with inside := by simp_all, outside := by simp [other], phase := Or.inr ?_ }
    simp [marked, ManagerPhase.holds, Ne.symm other]

theorem reply (sound : Sound s) {t : Nat} {rest : List Nat} (sends : s.phase = .sending t rest)
    (socket : SocketManage) :
    Sound { s.setTask t (.setState .taskEnd) with
      masterSockManger := socket, phase := .scanning rest } := by
  have scans := sound.scans
  rw [Scans, sends] at scans
  obtain ⟨state, replied⟩ := scans
  have task := stateOf_lt state
  obtain ⟨unqueued, done, -⟩ := sound.ended state
  refine sound.moved (by simpa [setTask] using task) (by simp [setTask]) ?_ (fun u other => ?_) sound.distinct trivial
  · have stage := stageOf_setTask_kept s t t (.setState .taskEnd) fun _ => rfl
    exact ⟨.reported, .reported unqueued nofun (stateOf_setTask task _ fun _ => rfl)
      ((done_congr stage).mpr done) replied⟩
  · refine { Spares.setTask s other _ with phase := Or.inr ?_ }
    simp [sends, ManagerPhase.holds]

theorem setSendEnd (sound : Sound s) {t : Nat} (state : s.stateOf t = some .running) :
    Sound (s.setTask t .setSendEnd) := by
  have task := stateOf_lt state
  have ended := stateOf_setTask task .setSendEnd fun _ => rfl
  have done : (s.setTask t .setSendEnd).Done t :=
    Or.inl (stageOf_setTask task _ fun _ => rfl)
  refine sound.moved (by simpa [setTask] using task) (by simp [setTask]) ?_ (fun u other => ?_) sound.distinct ?_
  · obtain ⟨place, stands⟩ := sound.stands t task
    cases stands with
    | markedRunning phase unqueued out => exact ⟨.held, .markedEnded phase unqueued out ended done⟩
    | running inside unqueued free => exact ⟨.ended, .ended inside unqueued free ended done⟩
    | waitQueue _ _ _ other | connecting _ _ _ other | launched _ _ _ other | markedEnded _ _ _ other
    | ended _ _ _ other | reported _ _ other => simp [state] at other
  · exact Spares.setTask s other _
  · refine sound.scans.kept rfl (fun u here => ?_) fun _ => id
    by_cases same : u = t
    · exact same ▸ ended
    · rwa [stateOf, setTask_other s same, ← stateOf]

theorem appendTask (sound : Sound s) (ins : List Byte) (unset : CInt × CInt) :
    Sound { s with
      tasks := s.tasks ++ [.parse ins unset]
      send_task_wait_queue := s.send_task_wait_queue ++ [s.tasks.length], posting := true } := by
  obtain ⟨unqueued, out, free, unpooled⟩ := sound.fresh _ (Nat.le_refl s.tasks.length)
  have same {u : Nat} (other : u ≠ s.tasks.length) := tasks_append_other s other (.parse ins unset)
  refine sound.moved (u := s.tasks.length) (by simp) (fun u other => ?_) ?_ (fun u other => ?_) ?_ ?_
  · simp only [List.length_append, List.length_singleton]
    omega
  · refine ⟨.waitQueue, .waitQueue (by simp) free out ?_ (Or.inl ?_) unpooled⟩
    · simp [stateOf, SendTask.parse]
    · simp [stageOf, SendTask.parse]
  · refine { Spares.refl s u with
      queued := by simp [other], state := congrArg (Option.map _) (same other), busy := ?_, done := ?_ }
    · exact (busy_congr (congrArg (Option.map _) (same other))).mpr
    · exact (done_congr (congrArg (Option.map _) (same other))).mpr
  · exact List.nodup_append.mpr ⟨sound.distinct, List.nodup_singleton _, by
      intro u inside v new same
      simp only [List.mem_singleton] at new
      exact unqueued (new ▸ same ▸ inside)⟩
  · refine sound.scans.kept rfl (fun u here => ?_) fun _ => id
    have below := stateOf_lt here
    exact (congrArg (Option.map _) (same (by omega))).trans here

/-- A step of the pool, or of another user of the pool. -/
theorem pooled (sound : Sound s) {pool : ThreadPool Caller Job} {startup : StartUp}
    (holds : ∀ t, pool.Holds (.sender t) ↔ s.pool.Holds (.sender t)) : Sound { s with pool, startup } := by
  refine sound.spared rfl (fun t => ?_) rfl (sound.scans.kept rfl (fun _ => id) fun _ => id)
  exact { Spares.refl s t with pooled := fun _ => (holds t).mpr, unpooled := (holds t).mp }

/-- A step of `SendManager::run` while it holds no task. -/
theorem phased (sound : Sound s) {phase : ManagerPhase} {sem : Nat} (before : s.phase.holds = none)
    (after : phase.holds = none) (scans : { s with phase, wait_queue_sem := sem }.Scans) :
    Sound { s with phase, wait_queue_sem := sem } := by
  refine sound.spared rfl (fun t => ?_) rfl scans
  exact { Spares.refl s t with phase := Or.inr (by simp [before, after]) }

/-- The last two steps of a `Sender`, which end with its return to the pool. -/
theorem staged (sound : Sound s) {t : Nat} {stage : SenderStage} {pool : ThreadPool Caller Job} (done : s.Done t)
    (after : stage = .closed ∨ stage = .returned)
    (others : ∀ u ≠ t, pool.Holds (.sender u) ↔ s.pool.Holds (.sender u))
    (fewer : pool.Holds (.sender t) → s.pool.Holds (.sender t)) :
    Sound { s.setTask t (.setStage stage) with pool } := by
  have state (u : Nat) := stateOf_setTask_kept s t u (.setStage stage) fun _ => rfl
  have task : t < s.tasks.length := by rcases done with here | here | here <;> exact stageOf_lt here
  refine sound.spared (by simp [setTask]) (fun u => ?_) rfl
    (sound.scans.kept rfl (fun u => (state u).trans) fun _ => id)
  by_cases other : u = t
  · subst other
    have here : (s.setTask u (.setStage stage)).stageOf u = some stage := stageOf_setTask task _ fun _ => rfl
    have still : (s.setTask u (.setStage stage)).Done u := by
      rcases after with rfl | rfl
      · exact Or.inr (Or.inl here)
      · exact Or.inr (Or.inr here)
    have idle : ¬ s.Busy u := fun busy => busy.unfinished done
    exact { Spares.refl s u with
      state := state u, busy := (absurd · idle), done := fun _ => still, pooled := (absurd · idle), unpooled := fewer }
  · exact { Spares.setTask s other _ with pooled := fun _ => (others u other).mpr, unpooled := (others u other).mp }

/-- One step keeps every task in some place, unless a queue refuses a task or a
`Sender` ends before its task is marked. -/
theorem step {a : ClientAction} (sound : Sound s) (handsOver : s.HandsOver a) (step : Step s a s') : Sound s' := by
  cases step with
  | startRecv first pushed => exact sound.pooled fun t => by rw [ThreadPool.push_holds_iff pushed]; simp
  | startSend second returned pushed => exact sound.pooled fun t => by rw [ThreadPool.push_holds_iff pushed]; simp
  | refuseTask listens fits full => exact absurd handsOver (Nat.not_le.mpr full)
  | appendTask listens fits room => exact sound.appendTask _ _
  | post pushed =>
    exact sound.spared rfl (fun t => { Spares.refl s t with }) rfl (sound.scans.kept rfl (fun _ => id) fun _ => id)
  | wait executes waits posted => exact sound.phased (by rw [waits]; rfl) rfl trivial
  | popNone wakes empty => exact sound.phased (by rw [wakes]; rfl) rfl trivial
  | pop wakes front => exact sound.pop wakes front
  | refuseSender holds full =>
    unfold ThreadPool.push at full
    split at full
    · rename_i tooMany
      exact absurd handsOver (Nat.not_le.mpr tooMany)
    · cases full
  | append holds pushed => exact sound.append holds pushed
  | appendReturns appends returned => exact sound.appendReturns appends
  | mark appended => exact sound.mark appended
  | push marked => exact sound.push marked
  | pass scans other => exact sound.phased (by rw [scans]; rfl) rfl trivial
  | find scans here ended =>
    refine sound.phased (by rw [scans]; rfl) rfl ?_
    simp [Scans, stateOf, here, ended]
  | scanned scans => exact sound.phased (by rw [scans]; rfl) rfl trivial
  | refuseReply replies refused =>
    exact sound.spared rfl (fun t => { Spares.refl s t with }) rfl (sound.scans.kept rfl (fun _ => id) fun _ => id)
  | @takeReply t reply rest replies taken =>
    have scans := sound.scans
    rw [Scans, replies] at scans
    refine sound.spared rfl (fun u => ?_) rfl ⟨scans, reply, by simp⟩
    refine { Spares.refl s u with phase := Or.inr ?_, replies := fun _ member => List.mem_append_left _ member }
    simp [replies, ManagerPhase.holds]
  | sendMsg kernel sends => exact sound.reply sends _
  | delete deletes =>
    refine sound.spared rfl (fun t => ?_) rfl trivial
    refine { Spares.refl s t with
      inside := fun running inside => by simp [inside, running]
      outside := fun inside => (List.mem_filter.mp inside).1, phase := Or.inr ?_ }
    simp [deletes, ManagerPhase.holds]
  | pool step => exact sound.pooled fun t => step.holds_iff _
  | refuseReceFile => exact sound
  | appendReceFile executes returned pushed =>
    exact sound.pooled fun t => by rw [ThreadPool.push_holds_iff pushed]; simp
  | receFileReturns executes => exact sound.pooled fun t => ThreadPool.finish_holds executes nofun
  | @setEndTime t time executes sends =>
    have state (u : Nat) := stateOf_setTask_kept s t u (.setEndTime time) fun _ => rfl
    refine sound.spared (by simp [setTask]) (fun u => ?_) rfl
      (sound.scans.kept rfl (fun u => (state u).trans) fun _ => id)
    by_cases other : u = t
    · subst other
      have timed : (s.setTask u (.setEndTime time)).Busy u := Or.inr (stageOf_setTask (stageOf_lt sends) _ fun _ => rfl)
      refine { Spares.refl s u with state := state u, busy := fun _ => timed, done := fun done => ?_ }
      rcases done with signalled | closed | returned <;> simp_all
    · exact Spares.setTask s other _
  | setSendEnd executes timed => exact sound.setSendEnd handsOver
  | close executes signalled => exact sound.staged (Or.inl signalled) (Or.inl rfl) (fun _ _ => Iff.rfl) id
  | @senderReturns t i executes closed =>
    refine sound.staged (Or.inr (Or.inl closed)) (Or.inr rfl) (fun u other => ?_) (ThreadPool.holds_of_finish executes)
    have apart : Job.sender u ≠ .sender t := by simpa using other
    exact ThreadPool.finish_holds executes apart

end Sound

theorem sound_init {thread_num : Int} {pool : ThreadPool Caller Job}
    (created : ThreadPool.create thread_num 10000 = some pool) : Sound (init pool) := by
  obtain ⟨-, rfl⟩ := ThreadPool.create_eq created
  refine ⟨fun t below => ?_, fun t _ => ?_, .nil, trivial⟩
  · simp [init] at below
  · simp [init, ManagerPhase.holds, ThreadPool.Holds]

theorem sound_run {thread_num : Int} {pool : ThreadPool Caller Job} {acts : List ClientAction} {s : SendManager}
    (created : ThreadPool.create thread_num 10000 = some pool) (run : Run (Where Step HandsOver) (init pool) acts s) :
    Sound s :=
  run.invariant (sound_init created) fun _ _ _ sound taken => sound.step taken.1 taken.2

/-- No task is lost in a run in which every queue takes what it is given, and
no `Sender` ends before its task is marked as running. -/
theorem each_task_in_one_place {thread_num : Int} {pool : ThreadPool Caller Job} {acts : List ClientAction}
    {s : SendManager} (created : ThreadPool.create thread_num 10000 = some pool)
    (run : Run (Where Step HandsOver) (init pool) acts s) : ∀ t < s.tasks.length, ∃! place, s.At t place := by
  intro t task
  obtain ⟨place, stands⟩ := (sound_run created run).stands t task
  exact stands.existsUnique

/-- `0 0 1.1.1.1 1 0 1 1` -/
def sampleTask : List Byte := [48, 32, 48, 32, 49, 46, 49, 46, 49, 46, 49, 32, 49, 32, 48, 32, 49, 32, 49]

theorem sampleTask_fits : SendTask.Fits sampleTask := by decide +kernel

section Started

variable {guard : SendManager → ClientAction → Prop} (starts : ∀ s, guard s .startUp)
  (pools : ∀ s action, guard s (.pool action))

include pools

theorem pool_run {s : SendManager} {q : ThreadPool Caller Job} {acts : List (PoolAction Caller)}
    (run : Run ThreadPool.Step s.pool acts q) : Run (Where Step guard) s (acts.map .pool) { s with pool := q } := by
  induction run with
  | start => exact .start
  | next _ last ih =>
    rw [List.map_append]
    exact ih.next ⟨pools _ _, .pool last⟩

include starts

/-- A client without a limit of threads gets to its event loop. -/
theorem started {pool : ThreadPool Caller Job} (created : ThreadPool.create 0 10000 = some pool) :
    ∃ acts ready, ready.Occupied 0 10000 [.recvManager, .sendManager] [] ∧
      Run (Where Step guard) (init pool) acts { init pool with startup := .eventLoop, pool := ready } := by
  cases created
  have empty : ThreadPool.Occupied (⟨0, 10000, 0, 0, [], 0, [], fun _ => .idle⟩ : ThreadPool Caller Job) 0 10000
      [] [] :=
    ⟨rfl, rfl, rfl, rfl, fun _ => rfl, rfl, rfl⟩
  obtain ⟨p, acts, q, pushed, first, occupied⟩ := empty.append (Or.inl rfl) .eventLoop .recvManager
  obtain ⟨p', acts', q', pushed', second, occupied'⟩ := occupied.append (Or.inl rfl) .eventLoop .sendManager
  have startRecv : Where Step guard (init ⟨0, 10000, 0, 0, [], 0, [], fun _ => .idle⟩) .startUp _ :=
    ⟨starts _, .startRecv rfl pushed⟩
  have run := (Run.single startRecv).trans (pool_run pools first)
  have run := run.next (a := ClientAction.startUp) ⟨starts _, .startSend rfl (occupied.idle _) pushed'⟩
  exact ⟨_, _, occupied', run.trans (pool_run pools second)⟩

end Started

/-- The event loop can fill the queue before `SendManager::run` takes a task. -/
theorem fills {ins : List Byte} (fits : SendTask.Fits ins) (unset : CInt × CInt) {s : SendManager}
    (listens : s.Listening) (n : Nat) (room : s.send_task_wait_queue.length + n ≤ s.max_task_number + 1) :
    ∃ acts s', Run (Where Step HandsOver) s acts s' ∧ s'.Listening ∧ s'.max_task_number = s.max_task_number ∧
      s'.send_task_wait_queue.length = s.send_task_wait_queue.length + n ∧
      s'.tasks.length = s.tasks.length + n := by
  induction n with
  | zero => exact ⟨[], s, .start, listens, rfl, rfl, rfl⟩
  | succ n ih =>
    obtain ⟨acts, s', run, listens, limit, queue, tasks⟩ := ih (by omega)
    have room : s'.send_task_wait_queue.length ≤ s'.max_task_number := by omega
    have run := run.next (a := ClientAction.appendTask ins unset) ⟨room, .appendTask listens fits room⟩
    refine ⟨_, _, run.next (a := ClientAction.post) ⟨trivial, .post rfl⟩, ⟨listens.1, listens.2.1, rfl⟩, limit, ?_, ?_⟩
    · simp only [List.length_append, List.length_singleton]
      omega
    · simp only [List.length_append, List.length_singleton]
      omega

/-- What `appendTask` refuses is nowhere. -/
theorem refused_nowhere {s s' : SendManager} {ins : List Byte} {unset : CInt × CInt} (sound : Sound s)
    (full : s.max_task_number < s.send_task_wait_queue.length) (refused : Step s (.appendTask ins unset) s') :
    ∀ place, ¬ s'.At s.tasks.length place := by
  obtain ⟨unqueued, out, free, unpooled⟩ := sound.fresh _ (Nat.le_refl _)
  cases refused with
  | appendTask _ _ room => exact absurd room (Nat.not_le.mpr full)
  | refuseTask =>
    intro place
    cases place with
    | waitQueue => exact unqueued
    | held => exact free
    | running => exact fun there => out there.1
    | ended => exact fun there => out there.1
    | reported => simp [At, stateOf, SendTask.parse]

theorem each_task_in_one_place_three : ∃ pool acts s, ThreadPool.create 0 10000 = some pool ∧
    Run (Where Step HandsOver) (init pool) acts s ∧ s.tasks.length = 3 ∧
      ∀ t < s.tasks.length, ∃! place, s.At t place := by
  obtain ⟨pool, created⟩ : ∃ pool : ThreadPool Caller Job, ThreadPool.create 0 10000 = some pool := ⟨_, rfl⟩
  obtain ⟨acts, ready, occupied, run⟩ :=
    started (show ∀ s, HandsOver s .startUp from fun _ => trivial) (fun _ _ => trivial) created
  obtain ⟨more, s, filling, -, -, -, tasks⟩ := fills sampleTask_fits (CInt.zero, CInt.zero)
    (s := { init pool with startup := .eventLoop, pool := ready }) ⟨rfl, occupied.idle _, rfl⟩ 3 (by simp [init])
  have run := run.trans filling
  exact ⟨pool, _, s, created, run, tasks, each_task_in_one_place created run⟩

/-- Instructions can arrive so fast that the queue overflows. -/
theorem overflows {s : SendManager} (sound : Sound s) (listens : s.Listening) (empty : s.send_task_wait_queue = []) :
    ∃ acts s', Run Step s acts s' ∧ ∃ t < s'.tasks.length, ∀ place, ¬ s'.At t place := by
  obtain ⟨acts, s', run, listens', limit, queue, -⟩ :=
    fills sampleTask_fits (CInt.zero, CInt.zero) listens (s.max_task_number + 1) (by simp [empty])
  have full : s'.max_task_number < s'.send_task_wait_queue.length := by
    simp only [empty, List.length_nil] at queue
    omega
  have refused : Step s' (.appendTask sampleTask (CInt.zero, CInt.zero)) _ := .refuseTask listens' sampleTask_fits full
  have sound' := run.invariant sound fun _ _ _ sound taken => sound.step taken.1 taken.2
  exact ⟨_, _, run.unguarded.next refused, s'.tasks.length, by simp, refused_nowhere sound' full refused⟩

theorem refused_task_is_lost : ∃ pool acts s, ThreadPool.create 0 10000 = some pool ∧
    Run Step (init pool) acts s ∧ ¬ ∀ t < s.tasks.length, ∃! place, s.At t place := by
  obtain ⟨pool, created⟩ : ∃ pool : ThreadPool Caller Job, ThreadPool.create 0 10000 = some pool := ⟨_, rfl⟩
  obtain ⟨acts, ready, occupied, run⟩ :=
    started (show ∀ s, HandsOver s .startUp from fun _ => trivial) (fun _ _ => trivial) created
  obtain ⟨more, s, overflowing, t, task, nowhere⟩ := overflows (sound_run created run) ⟨rfl, occupied.idle _, rfl⟩ rfl
  refine ⟨pool, _, s, created, run.unguarded.trans overflowing, fun kept => ?_⟩
  obtain ⟨place, there, -⟩ := kept t task
  exact nowhere place there

end SendManager

end CoflowSim
