import Mathlib.Data.List.Perm.Basic
import Mathlib.Logic.Function.Basic
import CoflowSim.Lib.Run

namespace CoflowSim
open Lib

/-- Where a call of `append` stands: at `tryWait`, before the test of the limit,
before or after the creation of a thread, or before `task_queue_stat_.post()`. -/
inductive AppendPhase
  | idle
  | looping
  | refused
  | creating
  | counting
  | granted
deriving DecidableEq

/-- Where a worker stands: before `free_thread_stat_.post()`, at
`task_queue_stat_.wait()`, before the pop, or in the `run` of a task. -/
inductive Worker (τ : Type)
  | starting
  | waiting
  | woken
  | executing (task : τ)
deriving DecidableEq

/-- The task that a worker executes. -/
def Worker.task? {τ : Type} : Worker τ → Option τ
  | .executing task => some task
  | _ => none

/-- A pool for the tasks `τ`, and the calls of `append` by the threads `γ`. -/
structure ThreadPool (γ τ : Type) where
  max_thread_num_ : Nat
  max_task_num_ : Nat
  created_thread_num_ : Nat
  free_thread_stat_ : Nat
  task_queue_ : List τ
  task_queue_stat_ : Nat
  workers : List (Worker τ)
  calls : γ → AppendPhase

inductive PoolAction (γ : Type)
  | tryWait (caller : γ)
  | test (caller : γ)
  | create (caller : γ)
  | count (caller : γ)
  | post (caller : γ)
  | free (worker : Nat)
  | wait (worker : Nat)
  | pop (worker : Nat)

namespace ThreadPool

variable {γ τ : Type} [DecidableEq γ]

/-- The constructor, which throws on a negative limit or an empty queue. -/
def create (max_thread_num max_task_num : Int) : Option (ThreadPool γ τ) :=
  if max_thread_num < 0 ∨ max_task_num ≤ 0 then none
  else some ⟨max_thread_num.toNat, max_task_num.toNat, 0, 0, [], 0, [], fun _ => .idle⟩

omit [DecidableEq γ] in
theorem create_eq {max_thread_num max_task_num : Int} {p : ThreadPool γ τ}
    (created : create max_thread_num max_task_num = some p) : 0 ≤ max_thread_num ∧
      p = ⟨max_thread_num.toNat, max_task_num.toNat, 0, 0, [], 0, [], fun _ => .idle⟩ := by
  unfold create at created
  split at created
  · cases created
  · cases created
    exact ⟨by omega, rfl⟩

/-- The locked section of `append`. `none` is its `return false`. -/
def push (p : ThreadPool γ τ) (caller : γ) (task : τ) : Option (ThreadPool γ τ) :=
  if p.max_task_num_ < p.task_queue_.length then none
  else some { p with
    task_queue_ := p.task_queue_ ++ [task]
    calls := Function.update p.calls caller .looping }

/-- The return of a task's `run`, and the worker's next pass of its loop. -/
def finish (p : ThreadPool γ τ) (worker : Nat) : ThreadPool γ τ :=
  { p with workers := p.workers.set worker .starting }

/-- The test of the limit in `append`, which is on the threads counted so far. -/
def AtLimit (p : ThreadPool γ τ) : Prop := 0 < p.max_thread_num_ ∧ p.max_thread_num_ ≤ p.created_thread_num_

/-- The atomic steps of the calls of `append` after their push, and of the
workers between two tasks. -/
inductive Step : ThreadPool γ τ → PoolAction γ → ThreadPool γ τ → Prop
  | tryWait {p c} (loops : p.calls c = .looping) (free : 0 < p.free_thread_stat_) :
      Step p (.tryWait c) { p with
        free_thread_stat_ := p.free_thread_stat_ - 1, calls := Function.update p.calls c .granted }
  | busy {p c} (loops : p.calls c = .looping) (busy : p.free_thread_stat_ = 0) :
      Step p (.tryWait c) { p with calls := Function.update p.calls c .refused }
  -- `created_thread_num_` is read without its lock, at a moment of its own
  | limit {p c} (tests : p.calls c = .refused) (full : p.AtLimit) :
      Step p (.test c) { p with calls := Function.update p.calls c .granted }
  | below {p c} (tests : p.calls c = .refused) (room : ¬ p.AtLimit) :
      Step p (.test c) { p with calls := Function.update p.calls c .creating }
  | create {p c} (creates : p.calls c = .creating) :
      Step p (.create c) { p with
        workers := p.workers ++ [.starting], calls := Function.update p.calls c .counting }
  | count {p c} (counts : p.calls c = .counting) :
      Step p (.count c) { p with
        created_thread_num_ := p.created_thread_num_ + 1, calls := Function.update p.calls c .looping }
  | post {p c} (grants : p.calls c = .granted) :
      Step p (.post c) { p with
        task_queue_stat_ := p.task_queue_stat_ + 1, calls := Function.update p.calls c .idle }
  | free {p i} (atTop : p.workers[i]? = some .starting) :
      Step p (.free i) { p with
        free_thread_stat_ := p.free_thread_stat_ + 1, workers := p.workers.set i .waiting }
  | wait {p i} (waits : p.workers[i]? = some .waiting) (posted : 0 < p.task_queue_stat_) :
      Step p (.wait i) { p with
        task_queue_stat_ := p.task_queue_stat_ - 1, workers := p.workers.set i .woken }
  | popNone {p i} (wakes : p.workers[i]? = some .woken) (empty : p.task_queue_ = []) :
      Step p (.pop i) { p with workers := p.workers.set i .starting }
  | pop {p i task rest} (wakes : p.workers[i]? = some .woken) (front : p.task_queue_ = task :: rest) :
      Step p (.pop i) { p with task_queue_ := rest, workers := p.workers.set i (.executing task) }

/-- A task is with the pool while it is queued or some worker executes it. -/
def Holds (p : ThreadPool γ τ) (task : τ) : Prop := task ∈ p.task_queue_ ∨ .executing task ∈ p.workers

/-- All that the pool holds. -/
def held (p : ThreadPool γ τ) : List τ := p.task_queue_ ++ p.workers.filterMap Worker.task?

section Held

variable {p q : ThreadPool γ τ} {i : Nat} {task : τ}

theorem mem_tasks {workers : List (Worker τ)} : task ∈ workers.filterMap Worker.task? ↔ .executing task ∈ workers := by
  have executes (w : Worker τ) : w.task? = some task ↔ w = .executing task := by cases w <;> simp [Worker.task?]
  simp [executes]

omit [DecidableEq γ] in
theorem mem_held : task ∈ p.held ↔ p.Holds task := by
  rw [held, Holds, List.mem_append, mem_tasks]

/-- A worker that changes, in front of the others, which do not. -/
theorem workers_set {workers : List (Worker τ)} {old : Worker τ} (here : workers[i]? = some old) (new : Worker τ) :
    ∃ rest, workers.Perm (old :: rest) ∧ (workers.set i new).Perm (new :: rest) := by
  obtain ⟨bound, same⟩ := List.getElem?_eq_some_iff.mp here
  refine ⟨workers.eraseIdx i, ?_, List.set_perm_cons_eraseIdx bound new⟩
  rw [← same]
  exact (List.getElem_cons_eraseIdx_perm bound).symm

theorem tasks_set {workers : List (Worker τ)} {old : Worker τ} (here : workers[i]? = some old) (new : Worker τ)
    (same : new.task? = old.task?) :
    ((workers.set i new).filterMap Worker.task?).Perm (workers.filterMap Worker.task?) := by
  obtain ⟨rest, before, after⟩ := workers_set here new
  refine (after.filterMap _).trans (.trans ?_ (before.filterMap _).symm)
  rw [List.filterMap_cons, List.filterMap_cons, same]

/-- The pool's own steps lose no task and make none. -/
theorem Step.held_perm {a : PoolAction γ} (step : Step p a q) : q.held.Perm p.held := by
  cases step with
  | tryWait | busy | limit | below | count | post => exact .refl _
  | create => simp [held, List.filterMap_cons, Worker.task?]
  | free atTop => exact (tasks_set atTop .waiting rfl).append_left p.task_queue_
  | wait waits => exact (tasks_set waits .woken rfl).append_left p.task_queue_
  | popNone wakes => exact (tasks_set wakes .starting rfl).append_left p.task_queue_
  | @pop i front rest wakes queue =>
    obtain ⟨others, before, after⟩ := workers_set wakes (.executing front)
    have taken := (after.filterMap Worker.task?).append_left rest
    have queued := (before.filterMap Worker.task?).append_left (front :: rest)
    simp only [List.filterMap_cons, Worker.task?] at taken queued
    simp only [held, queue]
    exact taken.trans (List.perm_middle.trans queued.symm)

theorem Step.holds_iff {a : PoolAction γ} (step : Step p a q) (task : τ) : q.Holds task ↔ p.Holds task := by
  rw [← mem_held, step.held_perm.mem_iff, mem_held]

theorem push_eq {caller : γ} (pushed : p.push caller task = some q) : p.task_queue_.length ≤ p.max_task_num_ ∧
    q = { p with
      task_queue_ := p.task_queue_ ++ [task], calls := Function.update p.calls caller .looping } := by
  unfold push at pushed
  split at pushed
  · cases pushed
  · cases pushed
    exact ⟨by omega, rfl⟩

theorem push_held {caller : γ} (pushed : p.push caller task = some q) : q.held.Perm (task :: p.held) := by
  obtain ⟨-, rfl⟩ := push_eq pushed
  simp only [held, List.append_assoc]
  exact List.perm_middle

theorem push_holds_iff {caller : γ} (pushed : p.push caller task = some q) (other : τ) :
    q.Holds other ↔ other = task ∨ p.Holds other := by
  rw [← mem_held, (push_held pushed).mem_iff, List.mem_cons, mem_held]

omit [DecidableEq γ] in
theorem finish_held (executes : p.workers[i]? = some (.executing task)) : p.held.Perm (task :: (p.finish i).held) := by
  obtain ⟨others, before, after⟩ := workers_set executes .starting
  have running := (before.filterMap Worker.task?).append_left p.task_queue_
  have returned := (after.filterMap Worker.task?).append_left p.task_queue_
  simp only [List.filterMap_cons, Worker.task?] at running returned
  exact running.trans (List.perm_middle.trans (returned.symm.cons task))

omit [DecidableEq γ] in
theorem finish_holds (executes : p.workers[i]? = some (.executing task)) {other : τ} (apart : other ≠ task) :
    (p.finish i).Holds other ↔ p.Holds other := by
  rw [← mem_held, ← mem_held, (finish_held executes).mem_iff, List.mem_cons, or_iff_right apart]

omit [DecidableEq γ] in
theorem holds_of_finish (executes : p.workers[i]? = some (.executing task)) {other : τ}
    (holds : (p.finish i).Holds other) : p.Holds other := by
  rw [← mem_held, (finish_held executes).mem_iff, List.mem_cons, mem_held]
  exact Or.inr holds

end Held

/-- A call of `append` that finds no free thread and may create one, up to its
return. -/
theorem append_creates {p : ThreadPool γ τ} {c : γ} (loops : p.calls c = .looping) (busy : p.free_thread_stat_ = 0)
    (room : ¬ p.AtLimit) : ∃ acts, Run Step p acts { p with
      created_thread_num_ := p.created_thread_num_ + 1, task_queue_stat_ := p.task_queue_stat_ + 1
      workers := p.workers ++ [.waiting], calls := Function.update p.calls c .idle } := by
  have atTop : (p.workers ++ [.starting])[p.workers.length]? = some .starting := by simp
  have run := Run.start.next (Step.busy loops busy)
  have run := run.next (.below (Function.update_self ..) room)
  have run := run.next (.create (Function.update_self ..))
  have run := run.next (.count (Function.update_self ..))
  have run := run.next (.free atTop)
  have run := run.next (.tryWait (Function.update_self ..) (Nat.succ_pos _))
  have run := run.next (.post (Function.update_self ..))
  simp only [Function.update_idem, List.set_append_right, Nat.le_refl, Nat.sub_self, List.set_cons_zero,
    Nat.add_sub_cancel] at run
  exact ⟨_, run⟩

/-- A waiting worker takes the first task of the queue. -/
theorem takes {p : ThreadPool γ τ} {i : Nat} {task : τ} {rest : List τ} (waits : p.workers[i]? = some .waiting)
    (posted : 0 < p.task_queue_stat_) (front : p.task_queue_ = task :: rest) :
    ∃ acts, Run Step p acts { p with
      task_queue_ := rest, task_queue_stat_ := p.task_queue_stat_ - 1
      workers := p.workers.set i (.executing task) } := by
  have woken : (p.workers.set i .woken)[i]? = some .woken := by
    simp [(List.getElem?_eq_some_iff.mp waits).1]
  have run := (Run.single (Step.wait waits posted)).next (.pop woken front)
  simp only [List.set_set] at run
  exact ⟨_, run⟩

/-- A task that finds an empty queue and no free thread gets a thread of its own. -/
theorem spawns {p q : ThreadPool γ τ} {c : γ} {task : τ} (pushed : p.push c task = some q) (empty : p.task_queue_ = [])
    (busy : p.free_thread_stat_ = 0) (room : ¬ p.AtLimit) :
    ∃ acts, Run Step q acts { p with
      created_thread_num_ := p.created_thread_num_ + 1, task_queue_ := [], workers := p.workers ++ [.executing task]
      calls := Function.update p.calls c .idle } := by
  obtain ⟨-, rfl⟩ := push_eq pushed
  have here : (p.workers ++ [.waiting])[p.workers.length]? = some (.waiting : Worker τ) := by simp
  obtain ⟨acts, appends⟩ := append_creates (p := { p with
    task_queue_ := p.task_queue_ ++ [task], calls := Function.update p.calls c .looping }) (Function.update_self ..)
    busy room
  obtain ⟨more, takes⟩ := takes (p := { p with
    created_thread_num_ := p.created_thread_num_ + 1, task_queue_ := p.task_queue_ ++ [task]
    task_queue_stat_ := p.task_queue_stat_ + 1, workers := p.workers ++ [.waiting]
    calls := Function.update (Function.update p.calls c .looping) c .idle }) here (Nat.succ_pos _)
    (show p.task_queue_ ++ [task] = task :: [] by simp [empty])
  have run := appends.trans takes
  simp only [Function.update_idem, List.set_append_right, Nat.le_refl, Nat.sub_self, List.set_cons_zero,
    Nat.add_sub_cancel] at run
  exact ⟨_, run⟩

/-- A pool in which every thread executes a task and nobody is inside `append`. -/
structure Occupied (pool : ThreadPool γ τ) (max_thread_num max_task_num : Nat) (jobs queued : List τ) : Prop where
  workers : pool.workers = jobs.map .executing
  counted : pool.created_thread_num_ = jobs.length
  queue : pool.task_queue_ = queued
  free : pool.free_thread_stat_ = 0
  idle : ∀ caller, pool.calls caller = .idle
  threads : pool.max_thread_num_ = max_thread_num
  tasks : pool.max_task_num_ = max_task_num

section Occupied

variable {p : ThreadPool γ τ} {threads tasks : Nat} {jobs queued : List τ}

theorem returns {calls : γ → AppendPhase} (idle : ∀ caller, calls caller = .idle) (caller other : γ) :
    Function.update calls caller .idle other = .idle := by
  by_cases same : other = caller
  · exact same ▸ Function.update_self ..
  · exact (Function.update_of_ne same ..).trans (idle other)

/-- Below its limit, the pool gives a task a thread of its own. -/
theorem Occupied.append (occupied : Occupied p threads tasks jobs []) (room : threads = 0 ∨ jobs.length < threads)
    (caller : γ) (job : τ) : ∃ q acts r, p.push caller job = some q ∧ Run Step q acts r ∧
      Occupied r threads tasks (jobs ++ [job]) [] := by
  have free : ¬ p.max_task_num_ < p.task_queue_.length := by simp [occupied.queue]
  have below : ¬ p.AtLimit := by
    rw [AtLimit, occupied.threads, occupied.counted]
    omega
  obtain ⟨q, pushed⟩ : ∃ q, p.push caller job = some q := ⟨_, by rw [push, if_neg free]⟩
  obtain ⟨acts, run⟩ := spawns pushed occupied.queue occupied.free below
  refine ⟨_, acts, _, pushed, run, { occupied with
    workers := ?_, counted := ?_, queue := rfl, idle := returns occupied.idle caller }⟩
  · simp [occupied.workers]
  · simp [occupied.counted]

/-- At its limit, the pool leaves a task in the queue. -/
theorem Occupied.enqueue (occupied : Occupied p threads tasks jobs queued) (full : 0 < threads ∧ threads ≤ jobs.length)
    (room : queued.length ≤ tasks) (caller : γ) (job : τ) :
    ∃ q acts r, p.push caller job = some q ∧ Run Step q acts r ∧ Occupied r threads tasks jobs (queued ++ [job]) := by
  have free : ¬ p.max_task_num_ < p.task_queue_.length := by
    rw [occupied.queue, occupied.tasks]
    omega
  have atLimit : p.AtLimit := by
    rw [AtLimit, occupied.threads, occupied.counted]
    exact full
  have run := Run.start.next (Step.busy (p := { p with
    task_queue_ := p.task_queue_ ++ [job], calls := Function.update p.calls caller .looping })
    (Function.update_self ..) occupied.free)
  have run := run.next (.limit (Function.update_self ..) atLimit)
  have run := run.next (.post (Function.update_self ..))
  simp only [Function.update_idem] at run
  refine ⟨_, _, _, by rw [push, if_neg free], run, { occupied with
    queue := ?_, idle := returns occupied.idle caller }⟩
  simp only [occupied.queue]

/-- Nothing happens in the pool by itself. -/
theorem Occupied.no_step (occupied : Occupied p threads tasks jobs queued) {a : PoolAction γ} {q : ThreadPool γ τ} :
    ¬ Step p a q := by
  have executing {i : Nat} {w : Worker τ} (here : p.workers[i]? = some w) : ∃ job, .executing job = w := by
    have member := List.mem_of_getElem? here
    rw [occupied.workers] at member
    obtain ⟨job, -, same⟩ := List.mem_map.mp member
    exact ⟨job, same⟩
  intro step
  cases step with
  | tryWait calls | busy calls | limit calls | below calls | create calls | count calls | post calls =>
    simp [occupied.idle] at calls
  | free here | wait here | popNone here | pop here =>
    obtain ⟨job, same⟩ := executing here
    cases same

end Occupied

end ThreadPool

end CoflowSim
