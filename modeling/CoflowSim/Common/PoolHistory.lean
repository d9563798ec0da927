import Mathlib.Algebra.BigOperators.Group.Finset.Piecewise
import Mathlib.Order.Interval.Finset.Nat
import CoflowSim.Lib.Tally
import CoflowSim.Common.PoolProgress

namespace CoflowSim
open Lib

/-- A pool with its history: the calls of `append` with their tasks and whether
they pushed them, the workers' pops, the pops whose tasks have returned, and the
last push of each caller and the last pop of each worker, by number. -/
structure PoolHistory (γ τ : Type) where
  pool : ThreadPool γ τ
  appends : List (τ × Bool)
  pops : List (Nat × τ)
  returns : List Nat
  lastPush : γ → Nat
  lastPop : Nat → Nat

inductive PoolEvent (γ τ : Type)
  | append (caller : γ) (task : τ)
  | step (action : PoolAction γ)
  | returns (worker : Nat)

namespace ThreadPool

variable {γ τ : Type} [DecidableEq γ] {p q : ThreadPool γ τ} {a : PoolAction γ}

/-- Only a push begins a call of `append`. -/
theorem Step.active (step : p.Step a q) {c : γ} (active : q.calls c ≠ .idle) : p.calls c ≠ .idle := by
  have moved {d : γ} {old new : AppendPhase} (here : p.calls d = old) (begun : old ≠ .idle)
      (active : Function.update p.calls d new c ≠ .idle) : p.calls c ≠ .idle := by
    by_cases mine : c = d
    · rwa [mine, here]
    · rwa [Function.update_of_ne mine] at active
  cases step with
  | tryWait here | busy here | limit here | below here | create here | count here | post here =>
    exact moved here (by simp) active
  | free | wait | popNone | pop => exact active

theorem executing_set {workers : List (Worker τ)} {i j : Nat} {old new : Worker τ} (here : workers[i]? = some old)
    (before : old.task? = none) (after : new.task? = none) (task : τ) :
    (workers.set i new)[j]? = some (.executing task) ↔ workers[j]? = some (.executing task) := by
  by_cases mine : j = i
  · have inside := (List.getElem?_eq_some_iff.mp here).1
    rw [mine, List.getElem?_set_self inside, here]
    constructor <;> intro same <;> cases Option.some.inj same
    · cases after
    · cases before
  · rw [List.getElem?_set_ne (Ne.symm mine)]

/-- A step that pops no task leaves the queue and the tasks at work alone. -/
theorem Step.unpopped (none : ∀ i, a = .pop i → p.task_queue_ = []) (step : p.Step a q) :
    q.task_queue_ = p.task_queue_ ∧
      ∀ (i : Nat) task, q.workers[i]? = some (.executing task) ↔ p.workers[i]? = some (.executing task) := by
  cases step with
  | tryWait | busy | limit | below | count | post => exact ⟨rfl, fun _ _ => .rfl⟩
  | create =>
    refine ⟨rfl, fun i task => ?_⟩
    rw [List.getElem?_append]
    split
    · exact .rfl
    · simp [List.getElem?_eq_none (by omega : p.workers.length ≤ i), List.getElem?_singleton]
  | free here | wait here | popNone here => exact ⟨rfl, fun _ task => executing_set here rfl rfl task⟩
  | pop _ front => simp [none _ rfl] at front

end ThreadPool

namespace PoolHistory

variable {γ τ : Type}

/-- The tasks that `append` pushed, in order. -/
def pushes (h : PoolHistory γ τ) : List τ := h.appends.filterMap fun call => if call.2 then some call.1 else none

variable [DecidableEq γ]

def init (pool : ThreadPool γ τ) : PoolHistory γ τ :=
  { pool, appends := [], pops := [], returns := [], lastPush := fun _ => 0, lastPop := fun _ => 0 }

/-- A task may return at any time, or never. -/
inductive Step : PoolHistory γ τ → PoolEvent γ τ → PoolHistory γ τ → Prop
  | refuse {h c task} (idle : h.pool.calls c = .idle) (full : h.pool.push c task = none) :
      Step h (.append c task) { h with appends := h.appends ++ [(task, false)] }
  | push {h c task pool} (idle : h.pool.calls c = .idle) (pushed : h.pool.push c task = some pool) :
      Step h (.append c task) { h with
        pool, appends := h.appends ++ [(task, true)]
        lastPush := Function.update h.lastPush c h.pushes.length }
  | step {h a pool} (none : ∀ i, a = .pop i → h.pool.task_queue_ = []) (step : h.pool.Step a pool) :
      Step h (.step a) { h with pool }
  | pop {h i task rest pool} (front : h.pool.task_queue_ = task :: rest) (step : h.pool.Step (.pop i) pool) :
      Step h (.step (.pop i)) { h with
        pool, pops := h.pops ++ [(i, task)], lastPop := Function.update h.lastPop i h.pops.length }
  | returns {h i task} (executes : h.pool.workers[i]? = some (.executing task)) :
      Step h (.returns i) { h with pool := h.pool.finish i, returns := h.returns ++ [h.lastPop i] }

section Kept

variable [Fintype γ] {threads tasks : Nat} {h h' : PoolHistory γ τ}

/-- The history of a pool agrees with its state. -/
structure Kept (threads tasks : Nat) (h : PoolHistory γ τ) : Prop where
  ready : h.pool.Ready threads tasks
  order : h.pushes = h.pops.map Prod.snd ++ h.pool.task_queue_
  opened : ∀ c, h.pool.calls c ≠ .idle → h.lastPush c < h.pushes.length
  apart : ∀ c d, h.pool.calls c ≠ .idle → h.pool.calls d ≠ .idle → h.lastPush c = h.lastPush d → c = d
  runs : ∀ k i task, h.pops[k]? = some (i, task) → k ∈ h.returns ∨
    h.lastPop i = k ∧ h.pool.workers[i]? = some (.executing task)
  executes : ∀ i task, h.pool.workers[i]? = some (.executing task) →
    h.pops[h.lastPop i]? = some (i, task) ∧ h.lastPop i ∉ h.returns
  once : h.returns.Nodup ∧ ∀ k ∈ h.returns, k < h.pops.length

omit [DecidableEq γ] in
theorem Kept.init {max_thread_num max_task_num : Int} {pool : ThreadPool γ τ}
    (created : ThreadPool.create max_thread_num max_task_num = some pool) :
    (init pool).Kept max_thread_num.toNat max_task_num.toNat := by
  have ready := ThreadPool.Ready.create created
  obtain ⟨-, rfl⟩ := ThreadPool.create_eq created
  exact ⟨ready, rfl, fun c active => absurd rfl active, fun c d active => absurd rfl active,
    fun k i task atK => by simp [PoolHistory.init] at atK, fun i task atI => by simp [PoolHistory.init] at atI,
    .nil, fun k member => by simp [PoolHistory.init] at member⟩

/-- A refused task leaves no trace but its call. -/
theorem pushes_refuse (appends : List (τ × Bool)) (task : τ) :
    (appends ++ [(task, false)]).filterMap (fun call => if call.2 then some call.1 else none) =
      appends.filterMap fun call => if call.2 then some call.1 else none := by
  simp

omit [DecidableEq γ] in
theorem Kept.refuse (kept : h.Kept threads tasks) (task : τ) :
    { h with appends := h.appends ++ [(task, false)] }.Kept threads tasks := by
  have same : { h with appends := h.appends ++ [(task, false)] }.pushes = h.pushes := pushes_refuse ..
  exact ⟨kept.ready, same ▸ kept.order, fun c active => same ▸ kept.opened c active, kept.apart, kept.runs,
    kept.executes, kept.once⟩

theorem Kept.push (kept : h.Kept threads tasks) {c : γ} {task : τ} {pool : ThreadPool γ τ}
    (idle : h.pool.calls c = .idle) (pushed : h.pool.push c task = some pool) :
    { h with
      pool, appends := h.appends ++ [(task, true)]
      lastPush := Function.update h.lastPush c h.pushes.length }.Kept threads tasks := by
  have ready := kept.ready.push idle pushed
  obtain ⟨-, rfl⟩ := ThreadPool.push_eq pushed
  have more : { h with appends := h.appends ++ [(task, true)] }.pushes = h.pushes ++ [task] := by simp [pushes]
  have longer (d : γ) (other : d ≠ c) (active : Function.update h.pool.calls c .looping d ≠ .idle) :
      Function.update h.lastPush c h.pushes.length d < h.pushes.length := by
    rw [Function.update_of_ne other] at active ⊢
    exact kept.opened d active
  refine ⟨ready, ?_, fun d active => ?_, fun d e active activeE same => ?_, kept.runs, kept.executes, kept.once⟩
  · change { h with appends := h.appends ++ [(task, true)] }.pushes = _
    rw [more, kept.order, List.append_assoc]
  · change _ < { h with appends := h.appends ++ [(task, true)] }.pushes.length
    rw [more, List.length_append, List.length_singleton]
    by_cases mine : d = c
    · subst mine
      simp only [Function.update_self]
      omega
    · exact (longer d mine active).trans (Nat.lt_succ_self _)
  · simp only at active activeE same
    by_cases mine : d = c <;> by_cases mineE : e = c
    · exact mine.trans mineE.symm
    · have := longer e mineE activeE
      rw [← same, mine, Function.update_self] at this
      exact absurd this (Nat.lt_irrefl _)
    · have := longer d mine active
      rw [same, mineE, Function.update_self] at this
      exact absurd this (Nat.lt_irrefl _)
    · rw [Function.update_of_ne mine] at active same
      rw [Function.update_of_ne mineE] at activeE same
      exact kept.apart d e active activeE same

theorem Kept.step (kept : h.Kept threads tasks) {a : PoolAction γ} {pool : ThreadPool γ τ}
    (none : ∀ i, a = .pop i → h.pool.task_queue_ = []) (step : h.pool.Step a pool) :
    { h with pool }.Kept threads tasks := by
  obtain ⟨queue, executing⟩ := step.unpopped none
  refine ⟨kept.ready.step step, ?_, fun c active => kept.opened c (step.active active),
    fun c d active activeD => kept.apart c d (step.active active) (step.active activeD), fun k i task atK => ?_,
    fun i task atI => kept.executes i task ((executing i task).mp atI), kept.once⟩
  · simp only [queue]
    exact kept.order
  · exact (kept.runs k i task atK).imp_right fun ⟨last, runs⟩ => ⟨last, (executing i task).mpr runs⟩

theorem Kept.pop (kept : h.Kept threads tasks) {i : Nat} {task : τ} {rest : List τ} {pool : ThreadPool γ τ}
    (front : h.pool.task_queue_ = task :: rest) (step : h.pool.Step (.pop i) pool) :
    { h with
      pool, pops := h.pops ++ [(i, task)]
      lastPop := Function.update h.lastPop i h.pops.length }.Kept threads tasks := by
  have ready := kept.ready.step step
  cases step with
  | popNone _ empty => simp [empty] at front
  | @pop _ first others wakes queue =>
    obtain ⟨rfl, rfl⟩ := List.cons.inj (queue.symm.trans front)
    have inside := (List.getElem?_eq_some_iff.mp wakes).1
    refine ⟨ready, ?_, kept.opened, kept.apart, fun k j other atK => ?_, fun j other atJ => ?_, kept.once.1,
      fun k member => ?_⟩
    · rw [List.map_append, List.append_assoc]
      exact kept.order.trans (by rw [queue]; rfl)
    · rcases Nat.lt_or_ge k h.pops.length with old | new
      · rw [List.getElem?_append_left old] at atK
        refine (kept.runs k j other atK).imp_right fun ⟨last, runs⟩ => ?_
        have apart : j ≠ i := fun same => by
          rw [same, wakes] at runs
          cases runs
        exact ⟨(Function.update_of_ne apart ..).trans last, (List.getElem?_set_ne apart.symm).trans runs⟩
      · rw [List.getElem?_append_right new, List.getElem?_singleton] at atK
        split at atK
        · cases atK
          refine Or.inr ⟨(Function.update_self ..).trans (by omega), List.getElem?_set_self inside⟩
        · cases atK
    · by_cases mine : j = i
      · subst mine
        simp only [List.getElem?_set_self inside, Option.some.injEq, Worker.executing.injEq] at atJ
        subst atJ
        simp only [Function.update_self]
        exact ⟨by simp, fun member => Nat.lt_irrefl _ (kept.once.2 _ member)⟩
      · rw [List.getElem?_set_ne (Ne.symm mine)] at atJ
        obtain ⟨popped, runs⟩ := kept.executes j other atJ
        simp only [Function.update_of_ne mine]
        exact ⟨(List.getElem?_append_left (List.getElem?_eq_some_iff.mp popped).1).trans popped, runs⟩
    · exact (kept.once.2 k member).trans_le (by simp)

omit [DecidableEq γ] in
theorem Kept.returns (kept : h.Kept threads tasks) {i : Nat} {task : τ}
    (executes : h.pool.workers[i]? = some (.executing task)) :
    { h with pool := h.pool.finish i, returns := h.returns ++ [h.lastPop i] }.Kept threads tasks := by
  obtain ⟨popped, running⟩ := kept.executes i task executes
  refine ⟨kept.ready.finish executes, kept.order, kept.opened, kept.apart, fun k j other atK => ?_,
    fun j other atJ => ?_, ?_, fun k member => ?_⟩
  · rcases kept.runs k j other atK with returned | ⟨last, runs⟩
    · exact Or.inl (List.mem_append_left _ returned)
    · by_cases mine : j = i
      · exact Or.inl (by simp [← last, mine])
      · exact Or.inr ⟨last, (List.getElem?_set_ne (Ne.symm mine)).trans runs⟩
  · have mine : j ≠ i := fun same => by
      simp only [same, ThreadPool.finish, List.getElem?_set_self (List.getElem?_eq_some_iff.mp executes).1] at atJ
      cases atJ
    rw [ThreadPool.finish, List.getElem?_set_ne (Ne.symm mine)] at atJ
    obtain ⟨poppedJ, runs⟩ := kept.executes j other atJ
    refine ⟨poppedJ, fun member => ?_⟩
    rcases List.mem_append.mp member with old | new
    · exact runs old
    · rw [List.mem_singleton.mp new, popped] at poppedJ
      exact mine (Prod.mk.inj (Option.some.inj poppedJ)).1.symm
  · exact kept.once.1.append (List.nodup_singleton _) (by simpa using running)
  · rcases List.mem_append.mp member with old | new
    · exact kept.once.2 k old
    · rw [List.mem_singleton.mp new]
      exact (List.getElem?_eq_some_iff.mp popped).1

theorem Kept.next (kept : h.Kept threads tasks) {e : PoolEvent γ τ} (step : Step h e h') : h'.Kept threads tasks := by
  cases step with
  | refuse => exact kept.refuse _
  | push idle pushed => exact kept.push idle pushed
  | step none step => exact kept.step none step
  | pop front step => exact kept.pop front step
  | returns executes => exact kept.returns executes

theorem Kept.of_run {max_thread_num max_task_num : Int} {pool : ThreadPool γ τ}
    (created : ThreadPool.create max_thread_num max_task_num = some pool) {events : List (PoolEvent γ τ)}
    (run : Run Step (PoolHistory.init pool) events h) : h.Kept max_thread_num.toNat max_task_num.toNat :=
  run.invariant (Kept.init created) fun _ _ _ kept step => kept.next step

omit [Fintype γ] in
/-- The pool goes on while one of its threads or one of the calls of `append` can. -/
theorem goes_on {a : PoolAction γ} {pool : ThreadPool γ τ} (step : h.pool.Step a pool) : ∃ h', Step h (.step a) h' := by
  by_cases pops : ∃ i, a = .pop i
  · obtain ⟨i, rfl⟩ := pops
    cases queue : h.pool.task_queue_ with
    | nil => exact ⟨_, .step (fun _ _ => queue) step⟩
    | cons task rest => exact ⟨_, .pop queue step⟩
  · exact ⟨_, .step (fun i same => absurd ⟨i, same⟩ pops) step⟩

/-- A pool that can only take new tasks has popped all that it has been given. -/
theorem Kept.at_rest (kept : h.Kept threads tasks) (rest : ∀ e h', Step h e h' → ∃ c task, e = .append c task) :
    h.pool.task_queue_ = [] := by
  have stuck {a : PoolAction γ} {pool : ThreadPool γ τ} (step : h.pool.Step a pool) : False := by
    obtain ⟨h', step⟩ := goes_on step
    obtain ⟨c, task, same⟩ := rest _ _ step
    cases same
  have idle (c : γ) : h.pool.calls c = .idle := by
    by_contra active
    obtain ⟨a, pool, -, step⟩ := ThreadPool.call_steps active
    exact stuck step
  by_contra queued
  rcases ThreadPool.worker_steps kept.ready idle queued with ⟨a, pool, -, step⟩ | ⟨full, executing⟩
  · exact stuck step
  · have inside : 0 < h.pool.workers.length := full.1.trans_le full.2
    obtain ⟨task, executes⟩ := executing _ (List.getElem_mem inside)
    obtain ⟨c, other, same⟩ := rest _ _ (.returns ((List.getElem?_eq_getElem inside).trans (congrArg some executes)))
    cases same

omit [DecidableEq γ] in
theorem Kept.pushed_at (kept : h.Kept threads tasks) {k : Nat} {task : τ} (atK : h.pushes[k]? = some task) :
    h.pops.length ≤ k ∧ h.pool.task_queue_[k - h.pops.length]? = some task ∨ ∃ i, h.pops[k]? = some (i, task) := by
  rw [kept.order] at atK
  rcases Nat.lt_or_ge k h.pops.length with old | new
  · rw [List.getElem?_append_left (by simpa using old), List.getElem?_map] at atK
    obtain ⟨⟨i, other⟩, here, same⟩ := Option.map_eq_some_iff.mp atK
    cases same
    exact Or.inr ⟨i, here⟩
  · rw [List.getElem?_append_right (by simpa using new), List.length_map] at atK
    exact Or.inl ⟨new, atK⟩

omit [DecidableEq γ] in
theorem Kept.popped_at (kept : h.Kept threads tasks) {k i : Nat} {task : τ} (atK : h.pops[k]? = some (i, task)) :
    h.pushes[k]? = some task := by
  have inside := (List.getElem?_eq_some_iff.mp atK).1
  rw [kept.order, List.getElem?_append_left (by simpa using inside), List.getElem?_map, atK]
  rfl

omit [DecidableEq γ] [Fintype γ] in
theorem pushed_iff {task : τ} : task ∈ h.pushes ↔ (task, true) ∈ h.appends := by
  simp [pushes]

omit [DecidableEq γ] in
/-- Nobody pops or executes a task that was never pushed. -/
theorem Kept.refused (kept : h.Kept threads tasks) {task : τ} (refused : (task, true) ∉ h.appends) :
    (∀ i, (i, task) ∉ h.pops) ∧ .executing task ∉ h.pool.workers := by
  have unpopped (i : Nat) : (i, task) ∉ h.pops := fun member => by
    refine refused (pushed_iff.mp ?_)
    rw [kept.order]
    exact List.mem_append_left _ (List.mem_map_of_mem member)
  refine ⟨unpopped, fun member => ?_⟩
  obtain ⟨i, atI⟩ := List.getElem?_of_mem member
  exact unpopped i (List.mem_of_getElem? (kept.executes i task atI).1)

end Kept

/-- A caller pushes the task `false` and stops there; another pushes `true`, gets a
thread, posts and returns. The thread takes the first task. -/
theorem overtaking : ∃ (pool : ThreadPool Bool Bool) (events : List (PoolEvent Bool Bool)) (h : PoolHistory Bool Bool),
    ThreadPool.create 0 1 = some pool ∧ Run Step (init pool) events h ∧
      h.appends = [(false, true), (true, true)] ∧ h.pops = [(0, false)] ∧ h.returns = [] ∧
      h.pool.max_thread_num_ = 0 ∧ h.pool.workers = [.executing false] ∧ h.pool.task_queue_ = [true] ∧
      h.pool.calls = Function.update (fun _ => .idle) false .looping ∧ h.lastPush false = 0 := by
  let pool : ThreadPool Bool Bool := ⟨0, 1, 0, 0, [], 0, [], fun _ => .idle⟩
  have run := Run.start.next (show Step (init pool) (.append false false) _ from .push rfl rfl)
  have run := run.next (show Step _ (.append true true) _ from .push rfl rfl)
  have run := run.next (.step (by simp) (.busy (c := true) rfl rfl))
  have run := run.next (.step (by simp) (.below (c := true) rfl fun full => Nat.lt_irrefl 0 full.1))
  have run := run.next (.step (by simp) (.create (c := true) rfl))
  have run := run.next (.step (by simp) (.count (c := true) rfl))
  have run := run.next (.step (by simp) (.free (i := 0) rfl))
  have run := run.next (.step (by simp) (.tryWait (c := true) rfl Nat.one_pos))
  have run := run.next (.step (by simp) (.post (c := true) rfl))
  have run := run.next (.step (by simp) (.wait (i := 0) rfl Nat.one_pos))
  have run := run.next (.pop rfl (.pop (i := 0) rfl rfl))
  exact ⟨_, _, _, rfl, run, rfl, rfl, rfl, rfl, rfl, rfl, by funext c; cases c <;> rfl, rfl⟩

section Exactly

variable [Fintype γ]

/-- The pool runs each pushed task once and in the order of the pushes. The
pushes and the pops are counted, since a task may be appended twice. -/
theorem runs_once_in_order {max_thread_num max_task_num : Int} {pool : ThreadPool γ τ}
    (created : ThreadPool.create max_thread_num max_task_num = some pool) {events : List (PoolEvent γ τ)}
    {h : PoolHistory γ τ} (run : Run Step (init pool) events h) :
    h.pops.map Prod.snd <+: h.pushes ∧
    (∀ k task, h.pushes[k]? = some task →
      h.pops.length ≤ k ∧ h.pool.task_queue_[k - h.pops.length]? = some task ∨
      ∃! i, h.pops[k]? = some (i, task) ∧
        (k ∈ h.returns ∨ h.lastPop i = k ∧ h.pool.workers[i]? = some (.executing task))) ∧
    h.returns.Nodup ∧
    h.pool.task_queue_stat_ + h.pool.workers.countP Worker.wakes + ∑ c, (h.pool.calls c).open =
      h.pool.task_queue_.length ∧
    (.woken ∈ h.pool.workers → h.pool.task_queue_ ≠ []) ∧
    (∀ task, (task, true) ∉ h.appends → (∀ i, (i, task) ∉ h.pops) ∧ .executing task ∉ h.pool.workers) ∧
    ((∀ e h', Step h e h' → ∃ c task, e = .append c task) → h.pops.map Prod.snd = h.pushes) := by
  have kept := Kept.of_run created run
  have balanced := kept.ready.balanced
  refine ⟨⟨_, kept.order.symm⟩, fun k task atK => ?_, kept.once.1, balanced.symm, fun wakes empty => ?_,
    fun task refused => kept.refused refused, fun rest => ?_⟩
  · refine (kept.pushed_at atK).imp_right fun ⟨i, popped⟩ => ⟨i, ⟨popped, kept.runs k i task popped⟩, ?_⟩
    rintro j ⟨other, -⟩
    exact (Prod.mk.inj (Option.some.inj (other.symm.trans popped))).1
  · have woken : 0 < h.pool.workers.countP Worker.wakes := List.countP_pos_iff.mpr ⟨_, wakes, rfl⟩
    unfold ThreadPool.Balanced at balanced
    rw [empty, List.length_nil] at balanced
    omega
  · rw [kept.order, kept.at_rest rest, List.append_nil]

end Exactly

theorem runs_once_in_order_two : ∃ h : PoolHistory Bool Bool, h.appends = [(false, true), (true, true)] ∧
    h.pops = [(0, false)] ∧ h.pops.map Prod.snd <+: h.pushes ∧
    h.pool.task_queue_stat_ + h.pool.workers.countP Worker.wakes + ∑ c, (h.pool.calls c).open =
      h.pool.task_queue_.length := by
  obtain ⟨pool, events, h, created, run, appends, pops, -⟩ := overtaking
  obtain ⟨order, -, -, balanced, -⟩ := runs_once_in_order created run
  exact ⟨h, appends, pops, order, balanced⟩

section Served

variable {h : PoolHistory γ τ}

omit [DecidableEq γ] in
/-- The call of `append` that made the push `k` has returned. -/
def Returned (h : PoolHistory γ τ) (k : Nat) : Prop :=
  k < h.pushes.length ∧ ∀ c, h.pool.calls c ≠ .idle → h.lastPush c ≠ k

/-- No call of `append` that made an earlier push is still under way. -/
def Unpassed (h : PoolHistory γ τ) (k : Nat) : Prop := ∀ c, h.pool.calls c ≠ .idle → k ≤ h.lastPush c

/-- The thread `i` executes the task of the push `k`, or it stands ready to. -/
def Serves (h : PoolHistory γ τ) (i k : Nat) : Prop :=
  k < h.pops.length ∧ h.lastPop i = k ∧ (∃ task, h.pushes[k]? = some task ∧
    h.pool.workers[i]? = some (.executing task)) ∨
  h.pops.length ≤ k ∧ (h.pool.workers[i]? = some .waiting ∨ h.pool.workers[i]? = some .woken)

/-- Each of the pushes has a thread of its own. -/
def EachServed (h : PoolHistory γ τ) (P : Nat → Prop) : Prop :=
  ∃ own : Nat → Nat, (∀ k, P k → h.Serves (own k) k) ∧ ∀ k l, P k → P l → own k = own l → k = l

omit [DecidableEq γ] in
theorem count_ready (workers : List (Worker τ)) :
    workers.countP (fun w => w.waits || w.wakes) = workers.countP Worker.waits + workers.countP Worker.wakes := by
  induction workers with
  | nil => rfl
  | cons w rest ih =>
    rw [List.countP_cons, List.countP_cons, List.countP_cons, ih]
    cases w <;> simp [Worker.waits, Worker.wakes] <;> omega

variable [Fintype γ] {threads tasks : Nat}

omit [DecidableEq γ] in
/-- The tasks at work and the first of the queue, as many as have been posted,
have their threads. -/
theorem Kept.served (kept : h.Kept threads tasks)
    (supplied : h.pool.task_queue_stat_ ≤ h.pool.workers.countP Worker.waits) :
    h.EachServed fun k => k ∉ h.returns ∧
      k < h.pops.length + (h.pool.task_queue_stat_ + h.pool.workers.countP Worker.wakes) := by
  obtain ⟨place, places, apart⟩ := exists_places h.pool.workers fun w => w.waits || w.wakes
  rw [count_ready] at places apart
  have ready {j : Nat} (below : j < h.pool.workers.countP Worker.waits + h.pool.workers.countP Worker.wakes) :
      h.pool.workers[place j]? = some .waiting ∨ h.pool.workers[place j]? = some .woken := by
    obtain ⟨w, atJ, stands⟩ := places j below
    cases w with
    | waiting => exact Or.inl atJ
    | woken => exact Or.inr atJ
    | starting | executing => simp [Worker.waits, Worker.wakes] at stands
  let own (k : Nat) : Nat := match h.pops[k]? with
    | some (i, _) => i
    | none => place (k - h.pops.length)
  have serves (k : Nat) (live : k ∉ h.returns)
      (below : k < h.pops.length + (h.pool.task_queue_stat_ + h.pool.workers.countP Worker.wakes)) :
      h.Serves (own k) k := by
    cases atK : h.pops[k]? with
    | some pop =>
      obtain ⟨last, runs⟩ := (kept.runs k pop.1 pop.2 atK).resolve_left live
      simp only [own, atK]
      exact Or.inl ⟨(List.getElem?_eq_some_iff.mp atK).1, last, pop.2, kept.popped_at atK, runs⟩
    | none =>
      have new := List.getElem?_eq_none_iff.mp atK
      simp only [own, atK]
      exact Or.inr ⟨new, ready (by omega)⟩
  refine ⟨own, fun k ⟨live, below⟩ => serves k live below, fun k l ⟨liveK, belowK⟩ ⟨liveL, belowL⟩ same => ?_⟩
  rcases serves k liveK belowK with ⟨-, lastK, taskK, -, runsK⟩ | ⟨newK, readyK⟩ <;>
    rcases serves l liveL belowL with ⟨-, lastL, taskL, -, runsL⟩ | ⟨newL, readyL⟩
  · rw [← lastK, ← lastL, same]
  · rw [← same, runsK] at readyL
    simp at readyL
  · rw [same, runsL] at readyK
    simp at readyK
  · simp only [own, List.getElem?_eq_none newK, List.getElem?_eq_none newL] at same
    have := apart _ (by omega) _ (by omega) same
    omega

omit [DecidableEq γ] in
/-- The open calls made pushes of their own. -/
theorem Kept.below (kept : h.Kept threads tasks) {k : Nat} (returned : h.Returned k) (unpassed : h.Unpassed k) :
    k < h.pops.length + (h.pool.task_queue_stat_ + h.pool.workers.countP Worker.wakes) := by
  classical
  let active : Finset γ := Finset.univ.filter fun c => h.pool.calls c ≠ .idle
  have opened : ∑ c, (h.pool.calls c).open = active.card := by
    rw [Finset.card_filter]
    refine Finset.sum_congr rfl fun c _ => ?_
    cases h.pool.calls c <;> rfl
  have later : active.card ≤ (Finset.Ico (k + 1) h.pushes.length).card := by
    refine Finset.card_le_card_of_injOn h.lastPush (fun c member => ?_) fun c member d memberD same => ?_
    · have calls := (Finset.mem_filter.mp member).2
      have := unpassed c calls
      have := returned.2 c calls
      have := kept.opened c calls
      simp only [Finset.coe_Ico, Set.mem_Ico]
      omega
    · exact kept.apart c d (Finset.mem_filter.mp member).2 (Finset.mem_filter.mp memberD).2 same
  have length := congrArg List.length kept.order
  have balanced := kept.ready.balanced
  have pushed := returned.1
  unfold ThreadPool.Balanced at balanced
  rw [Nat.card_Ico] at later
  rw [List.length_append, List.length_map] at length
  omega

/-- Below its limit the pool has a waiting thread for every posted task that is
not taken. Without a limit, every task whose `append` has returned has a thread
of its own, unless an `append` with an earlier task is still under way. -/
theorem posted_have_threads {max_thread_num max_task_num : Int} {pool : ThreadPool γ τ}
    (created : ThreadPool.create max_thread_num max_task_num = some pool) {events : List (PoolEvent γ τ)}
    (run : Run Step (init pool) events h) :
    (0 < h.pool.max_thread_num_ ∧
        h.pool.max_thread_num_ ≤ h.pool.created_thread_num_ + ∑ c, (h.pool.calls c).uncounted ∨
      h.pool.task_queue_stat_ ≤ h.pool.workers.countP Worker.waits) ∧
    (h.pool.max_thread_num_ = 0 →
      h.EachServed fun k => k ∉ h.returns ∧ h.Returned k ∧ h.Unpassed k) := by
  have kept := Kept.of_run created run
  have enough (supplied : h.pool.Supplied) : h.pool.task_queue_stat_ ≤ h.pool.workers.countP Worker.waits := by
    unfold ThreadPool.Supplied at supplied
    omega
  refine ⟨?_, fun unlimited => ?_⟩
  · rcases kept.ready.supplied with supplied | full
    · exact Or.inr (enough supplied)
    · refine Or.inl ⟨full.1, ?_⟩
      rw [show _ + _ = _ from kept.ready.counted]
      exact full.2
  · have supplied := kept.ready.supplied.resolve_right fun full => absurd full.1 (by omega)
    obtain ⟨own, serves, apart⟩ := kept.served (enough supplied)
    exact ⟨own, fun k ⟨live, returned, unpassed⟩ => serves k ⟨live, kept.below returned unpassed⟩,
      fun k l ⟨liveK, returnedK, unpassedK⟩ ⟨liveL, returnedL, unpassedL⟩ =>
        apart k l ⟨liveK, kept.below returnedK unpassedK⟩ ⟨liveL, kept.below returnedL unpassedL⟩⟩

theorem posted_have_threads_two : ∃ h : PoolHistory Bool Bool, h.pushes = [false, true] ∧
    h.pool.task_queue_stat_ ≤ h.pool.workers.countP Worker.waits ∧
    h.EachServed fun k => k ∉ h.returns ∧ h.Returned k ∧ h.Unpassed k := by
  obtain ⟨pool, events, h, created, run, appends, -, -, unlimited, -⟩ := overtaking
  obtain ⟨waiting, served⟩ := posted_have_threads created run
  exact ⟨h, by rw [pushes, appends]; rfl, waiting.resolve_left fun full => by omega, served unlimited⟩

/-- The thread of the second task takes the first one, and may execute it for ever. -/
theorem overtaken_task_waits : ∃ (pool : ThreadPool Bool Bool) (events : List (PoolEvent Bool Bool))
    (h : PoolHistory Bool Bool), ThreadPool.create 0 1 = some pool ∧ Run Step (init pool) events h ∧
      (1 ∉ h.returns ∧ h.Returned 1) ∧ h.pool.workers = [.executing false] ∧ h.pool.task_queue_ = [true] ∧
      ¬ h.EachServed fun k => k ∉ h.returns ∧ h.Returned k := by
  obtain ⟨pool, events, h, created, run, appends, pops, returns, -, workers, queue, calls, last⟩ := overtaking
  have pushes : h.pushes = [false, true] := by rw [PoolHistory.pushes, appends]; rfl
  have live : 1 ∉ h.returns ∧ h.Returned 1 := by
    refine ⟨by simp [returns], by simp [pushes], fun c active => ?_⟩
    cases c with
    | false => simp [last]
    | true => simp [calls] at active
  refine ⟨pool, events, h, created, run, live, workers, queue, fun ⟨own, serves, _⟩ => ?_⟩
  rcases serves 1 live with ⟨popped, -⟩ | ⟨-, ready⟩
  · simp [pops] at popped
  · rw [workers, List.getElem?_singleton] at ready
    split at ready <;> simp at ready

end Served

end PoolHistory

end CoflowSim
