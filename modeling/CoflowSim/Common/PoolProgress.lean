import Mathlib.Algebra.BigOperators.Group.Finset.Basic
import CoflowSim.Common.ThreadPool

namespace CoflowSim

def Worker.waits {τ : Type} : Worker τ → Bool
  | .waiting => true
  | _ => false

def Worker.wakes {τ : Type} : Worker τ → Bool
  | .woken => true
  | _ => false

/-- A call of `append` that has pushed its task and not posted it. -/
def AppendPhase.open : AppendPhase → Nat
  | .idle => 0
  | _ => 1

/-- A call of `append` that may hold a token of `free_thread_stat_`. -/
def AppendPhase.token : AppendPhase → Nat
  | .granted => 1
  | _ => 0

/-- A call of `append` whose thread is created and not counted. -/
def AppendPhase.uncounted : AppendPhase → Nat
  | .counting => 1
  | _ => 0

/-- The thread that calls `append`, in a step of such a call. -/
def PoolAction.caller? {γ : Type} : PoolAction γ → Option γ
  | .tryWait c => some c
  | .test c => some c
  | .create c => some c
  | .count c => some c
  | .post c => some c
  | _ => none

namespace ThreadPool

variable {γ τ : Type} [DecidableEq γ] [Fintype γ]

/-- A sum over the calls, when one of them moves on. -/
theorem sum_update {calls : γ → AppendPhase} {c : γ} {old : AppendPhase} (here : calls c = old)
    (weight : AppendPhase → Nat) (new : AppendPhase) :
    (∑ d, weight (Function.update calls c new d)) + weight old = (∑ d, weight (calls d)) + weight new := by
  have split (f : γ → AppendPhase) : ∑ d, weight (f d) = weight (f c) + ∑ d ∈ Finset.univ.erase c, weight (f d) :=
    (Finset.add_sum_erase _ _ (Finset.mem_univ c)).symm
  have others : ∑ d ∈ Finset.univ.erase c, weight (Function.update calls c new d) =
      ∑ d ∈ Finset.univ.erase c, weight (calls d) :=
    Finset.sum_congr rfl fun d member => by rw [Function.update_of_ne (Finset.ne_of_mem_erase member)]
  rw [split, split, others, Function.update_self, here]
  omega

theorem sum_update_same {calls : γ → AppendPhase} {c : γ} {old : AppendPhase} (here : calls c = old)
    (weight : AppendPhase → Nat) (new : AppendPhase) (same : weight new = weight old) :
    ∑ d, weight (Function.update calls c new d) = ∑ d, weight (calls d) := by
  have sums := sum_update here weight new
  omega

/-- Every thread is counted, or the call of `append` that created it goes on. -/
def Counted (p : ThreadPool γ τ) : Prop :=
  p.created_thread_num_ + ∑ c, (p.calls c).uncounted = p.workers.length

/-- Every queued task has been posted, or its call of `append` goes on. -/
def Balanced (p : ThreadPool γ τ) : Prop :=
  p.task_queue_.length = p.task_queue_stat_ + p.workers.countP Worker.wakes + ∑ c, (p.calls c).open

/-- Some worker waits for every posted task, and for every task that will be
posted without a further search. -/
def Supplied (p : ThreadPool γ τ) : Prop :=
  p.workers.countP Worker.waits = p.free_thread_stat_ + p.task_queue_stat_ + ∑ c, (p.calls c).token

/-- The pool has all the threads that it may create. -/
def Full (p : ThreadPool γ τ) : Prop := 0 < p.max_thread_num_ ∧ p.max_thread_num_ ≤ p.workers.length

/-- No call of `append` gives up the search for a thread. -/
def Grants (p : ThreadPool γ τ) (a : PoolAction γ) : Prop := ∀ c, a = .test c → ¬ p.AtLimit

/-- What holds of a pool with its limits from its creation on. -/
structure Ready (max_thread_num max_task_num : Nat) (p : ThreadPool γ τ) : Prop where
  threads : p.max_thread_num_ = max_thread_num
  tasks : p.max_task_num_ = max_task_num
  counted : p.Counted
  balanced : p.Balanced
  supplied : p.Supplied ∨ p.Full
  bounded : p.task_queue_.length ≤ max_task_num + 1

omit [DecidableEq γ] [Fintype γ] in
theorem count_set {workers : List (Worker τ)} {i : Nat} {old : Worker τ} (here : workers[i]? = some old)
    (new : Worker τ) (test : Worker τ → Bool) :
    (workers.set i new).countP test + (if test old then 1 else 0) =
      workers.countP test + if test new then 1 else 0 := by
  obtain ⟨rest, before, after⟩ := workers_set here new
  rw [before.countP_eq, after.countP_eq, List.countP_cons, List.countP_cons]
  omega

theorem count_set_same {workers : List (Worker τ)} {i : Nat} {old : Worker τ} (here : workers[i]? = some old)
    (new : Worker τ) (test : Worker τ → Bool) (same : test new = test old) :
    (workers.set i new).countP test = workers.countP test := by
  have counts := count_set here new test
  rw [same] at counts
  omega

/-- A new thread is at the top of its loop. -/
theorem count_created (workers : List (Worker τ)) (test : Worker τ → Bool) (fails : test .starting = false) :
    (workers ++ [Worker.starting]).countP test = workers.countP test := by
  rw [List.countP_append, List.countP_singleton, fails]
  rfl

section Invariants

variable {p q : ThreadPool γ τ} {a : PoolAction γ}

theorem Counted.step (counted : p.Counted) (step : Step p a q) : q.Counted := by
  have same {c : γ} {old : AppendPhase} (here : p.calls c = old) (new : AppendPhase)
      (uncounted : new.uncounted = old.uncounted) :
      p.created_thread_num_ + ∑ d, (Function.update p.calls c new d).uncounted = p.workers.length := by
    rw [sum_update_same here AppendPhase.uncounted new uncounted]
    exact counted
  unfold Counted at counted ⊢
  cases step with
  | tryWait loops => exact same loops .granted rfl
  | busy loops => exact same loops .refused rfl
  | limit tests => exact same tests .granted rfl
  | below tests => exact same tests .creating rfl
  | create creates =>
    have calls : _ + 0 = _ + 1 := sum_update creates AppendPhase.uncounted .counting
    simp only [List.length_append, List.length_singleton] at calls ⊢
    omega
  | count counts =>
    have calls : _ + 1 = _ + 0 := sum_update counts AppendPhase.uncounted .looping
    simp only at calls ⊢
    omega
  | post grants => exact same grants .idle rfl
  | free | wait | popNone | pop => simpa only [List.length_set] using counted

theorem Balanced.step (balanced : p.Balanced) (step : Step p a q) : q.Balanced := by
  have same {c : γ} {old : AppendPhase} (here : p.calls c = old) (new : AppendPhase) (still : new.open = old.open) :
      p.task_queue_.length = p.task_queue_stat_ + p.workers.countP Worker.wakes +
        ∑ d, (Function.update p.calls c new d).open := by
    rw [sum_update_same here AppendPhase.open new still]
    exact balanced
  unfold Balanced at balanced ⊢
  cases step with
  | tryWait loops => exact same loops .granted rfl
  | busy loops => exact same loops .refused rfl
  | limit tests => exact same tests .granted rfl
  | below tests => exact same tests .creating rfl
  | create creates =>
    rw [count_created _ Worker.wakes rfl]
    exact same creates .counting rfl
  | count counts => exact same counts .looping rfl
  | post grants =>
    have calls : _ + 1 = _ + 0 := sum_update grants AppendPhase.open .idle
    simp only at calls ⊢
    omega
  | free atTop =>
    rw [count_set_same atTop .waiting Worker.wakes rfl]
    exact balanced
  | wait waits posted =>
    have woken : _ + 0 = _ + 1 := count_set waits .woken Worker.wakes
    simp only at woken ⊢
    omega
  | popNone wakes empty =>
    have woken : _ + 1 = _ + 0 := count_set wakes .starting Worker.wakes
    simp only [empty, List.length_nil] at balanced woken ⊢
    omega
  | @pop i task rest wakes front =>
    have woken : _ + 1 = _ + 0 := count_set wakes (.executing task) Worker.wakes
    simp only [front, List.length_cons] at balanced woken ⊢
    omega

theorem Supplied.step (supplied : p.Supplied) (grants : p.Grants a) (step : Step p a q) : q.Supplied := by
  have same {c : γ} {old : AppendPhase} (here : p.calls c = old) (new : AppendPhase) (holds : new.token = old.token) :
      p.workers.countP Worker.waits =
        p.free_thread_stat_ + p.task_queue_stat_ + ∑ d, (Function.update p.calls c new d).token := by
    rw [sum_update_same here AppendPhase.token new holds]
    exact supplied
  unfold Supplied at supplied ⊢
  cases step with
  | tryWait loops free =>
    have calls : _ + 0 = _ + 1 := sum_update loops AppendPhase.token .granted
    simp only at calls ⊢
    omega
  | busy loops => exact same loops .refused rfl
  | limit tests full => exact absurd full (grants _ rfl)
  | below tests => exact same tests .creating rfl
  | create creates =>
    rw [count_created _ Worker.waits rfl]
    exact same creates .counting rfl
  | count counts => exact same counts .looping rfl
  | post granted =>
    have calls : _ + 1 = _ + 0 := sum_update granted AppendPhase.token .idle
    simp only at calls ⊢
    omega
  | free atTop =>
    have waiting : _ + 0 = _ + 1 := count_set atTop .waiting Worker.waits
    simp only at waiting ⊢
    omega
  | wait waits posted =>
    have waiting : _ + 1 = _ + 0 := count_set waits .woken Worker.waits
    simp only at waiting ⊢
    omega
  | popNone wakes =>
    rw [count_set_same wakes .starting Worker.waits rfl]
    exact supplied
  | @pop i task rest wakes =>
    rw [count_set_same wakes (.executing task) Worker.waits rfl]
    exact supplied

theorem Counted.push (counted : p.Counted) {c : γ} {task : τ} (idle : p.calls c = .idle)
    (pushed : p.push c task = some q) : q.Counted := by
  obtain ⟨-, rfl⟩ := push_eq pushed
  unfold Counted at counted ⊢
  rw [sum_update_same idle AppendPhase.uncounted .looping rfl]
  exact counted

theorem Balanced.push (balanced : p.Balanced) {c : γ} {task : τ} (idle : p.calls c = .idle)
    (pushed : p.push c task = some q) : q.Balanced := by
  obtain ⟨-, rfl⟩ := push_eq pushed
  have calls : _ + 0 = _ + 1 := sum_update idle AppendPhase.open .looping
  unfold Balanced at balanced ⊢
  simp only [List.length_append, List.length_singleton] at calls ⊢
  omega

theorem Supplied.push (supplied : p.Supplied) {c : γ} {task : τ} (idle : p.calls c = .idle)
    (pushed : p.push c task = some q) : q.Supplied := by
  obtain ⟨-, rfl⟩ := push_eq pushed
  unfold Supplied at supplied ⊢
  rw [sum_update_same idle AppendPhase.token .looping rfl]
  exact supplied

omit [DecidableEq γ] in
theorem Counted.finish (counted : p.Counted) (i : Nat) : (p.finish i).Counted := by
  unfold Counted at counted ⊢
  simpa only [ThreadPool.finish, List.length_set] using counted

omit [DecidableEq γ] in
theorem Balanced.finish (balanced : p.Balanced) {i : Nat} {task : τ}
    (executes : p.workers[i]? = some (.executing task)) : (p.finish i).Balanced := by
  unfold Balanced at balanced ⊢
  rw [ThreadPool.finish, count_set_same executes .starting Worker.wakes rfl]
  exact balanced

omit [DecidableEq γ] in
theorem Supplied.finish (supplied : p.Supplied) {i : Nat} {task : τ}
    (executes : p.workers[i]? = some (.executing task)) : (p.finish i).Supplied := by
  unfold Supplied at supplied ⊢
  rw [ThreadPool.finish, count_set_same executes .starting Worker.waits rfl]
  exact supplied

omit [Fintype γ] in
/-- The pool's own steps change no limit, lengthen no queue and end no thread. -/
theorem Step.keeps (step : Step p a q) : q.max_thread_num_ = p.max_thread_num_ ∧ q.max_task_num_ = p.max_task_num_ ∧
    q.task_queue_.length ≤ p.task_queue_.length ∧ p.workers.length ≤ q.workers.length := by
  cases step with
  | tryWait | busy | limit | below | count | post => exact ⟨rfl, rfl, Nat.le_refl _, Nat.le_refl _⟩
  | create => simp
  | free | wait | popNone => simp
  | pop wakes front => simp [front]

omit [DecidableEq γ] in
theorem Full.of_atLimit (counted : p.Counted) (atLimit : p.AtLimit) : p.Full := by
  unfold Counted at counted
  exact ⟨atLimit.1, by have := atLimit.2; omega⟩

namespace Ready

variable {max_threads max_tasks : Nat}

theorem step (ready : p.Ready max_threads max_tasks) (step : Step p a q) : q.Ready max_threads max_tasks := by
  obtain ⟨sameThreads, sameTasks, shorter, longer⟩ := step.keeps
  have grown (full : p.Full) : q.Full := ⟨sameThreads ▸ full.1, by have := full.2; omega⟩
  refine ⟨sameThreads.trans ready.threads, sameTasks.trans ready.tasks, ready.counted.step step,
    ready.balanced.step step, ?_, shorter.trans ready.bounded⟩
  by_cases grants : p.Grants a
  · exact ready.supplied.imp (fun supplied => supplied.step grants step) grown
  · unfold Grants at grants
    push Not at grants
    obtain ⟨c, -, atLimit⟩ := grants
    exact Or.inr (grown (.of_atLimit ready.counted atLimit))

theorem push (ready : p.Ready max_threads max_tasks) {c : γ} {task : τ} (idle : p.calls c = .idle)
    (pushed : p.push c task = some q) : q.Ready max_threads max_tasks := by
  obtain ⟨room, same⟩ := push_eq pushed
  have counted := ready.counted.push idle pushed
  have balanced := ready.balanced.push idle pushed
  have supplied := ready.supplied.imp_left fun supplied => supplied.push idle pushed
  rw [ready.tasks] at room
  subst same
  exact ⟨ready.threads, ready.tasks, counted, balanced, supplied, by simpa using room⟩

omit [DecidableEq γ] in
theorem finish (ready : p.Ready max_threads max_tasks) {i : Nat} {task : τ}
    (executes : p.workers[i]? = some (.executing task)) : (p.finish i).Ready max_threads max_tasks := by
  refine ⟨ready.threads, ready.tasks, ready.counted.finish i, ready.balanced.finish executes,
    ready.supplied.imp (fun supplied => supplied.finish executes) fun full => ?_, ready.bounded⟩
  simpa only [Full, ThreadPool.finish, List.length_set] using full

omit [DecidableEq γ] in
theorem create {max_thread_num max_task_num : Int} (created : create max_thread_num max_task_num = some p) :
    p.Ready max_thread_num.toNat max_task_num.toNat := by
  obtain ⟨-, rfl⟩ := create_eq created
  exact ⟨rfl, rfl, by simp [Counted, AppendPhase.uncounted], by simp [Balanced, AppendPhase.open],
    Or.inl (by simp [Supplied, AppendPhase.token]), Nat.zero_le _⟩

end Ready

section Counts

variable [DecidableEq τ]

omit [Fintype γ] in
theorem Step.held_count (step : Step p a q) (task : τ) : q.held.count task = p.held.count task :=
  step.held_perm.count_eq task

omit [Fintype γ] in
theorem push_count {c : γ} {task : τ} (pushed : p.push c task = some q) (other : τ) :
    q.held.count other = p.held.count other + if task = other then 1 else 0 := by
  rw [(push_held pushed).count_eq, List.count_cons]
  simp only [beq_iff_eq]

omit [DecidableEq γ] [Fintype γ] in
theorem finish_count {i : Nat} {task : τ} (executes : p.workers[i]? = some (.executing task)) (other : τ) :
    p.held.count other = (p.finish i).held.count other + if task = other then 1 else 0 := by
  rw [(finish_held executes).count_eq, List.count_cons]
  simp only [beq_iff_eq]

end Counts

omit [Fintype γ] in
/-- A call of `append` can always go on. -/
theorem call_steps {c : γ} (active : p.calls c ≠ .idle) : ∃ a q, a.caller? = some c ∧ Step p a q := by
  cases phase : p.calls c with
  | idle => exact absurd phase active
  | looping =>
    by_cases free : 0 < p.free_thread_stat_
    · exact ⟨.tryWait c, _, rfl, .tryWait phase free⟩
    · exact ⟨.tryWait c, _, rfl, .busy phase (by omega)⟩
  | refused =>
    by_cases full : p.AtLimit
    · exact ⟨.test c, _, rfl, .limit phase full⟩
    · exact ⟨.test c, _, rfl, .below phase full⟩
  | creating => exact ⟨.create c, _, rfl, .create phase⟩
  | counting => exact ⟨.count c, _, rfl, .count phase⟩
  | granted => exact ⟨.post c, _, rfl, .post phase⟩

/-- With no call under way, a queued task has a worker that can step, or the pool
may create no thread and all its workers are at a task. -/
theorem worker_steps {max_threads max_tasks : Nat} (ready : p.Ready max_threads max_tasks)
    (idle : ∀ c, p.calls c = .idle) (queued : p.task_queue_ ≠ []) : (∃ a q, a.caller? = none ∧ Step p a q) ∨
      p.Full ∧ ∀ w ∈ p.workers, ∃ task, w = .executing task := by
  have opened : ∑ c, (p.calls c).open = 0 := Finset.sum_eq_zero fun c _ => by rw [idle c]; rfl
  have tokens : ∑ c, (p.calls c).token = 0 := Finset.sum_eq_zero fun c _ => by rw [idle c]; rfl
  have some_task := List.length_pos_iff.mpr queued
  have balanced := ready.balanced
  unfold Balanced at balanced
  by_cases woken : 0 < p.workers.countP Worker.wakes
  · obtain ⟨w, member, wakes⟩ := List.countP_pos_iff.mp woken
    obtain ⟨i, atI⟩ := List.getElem?_of_mem member
    obtain ⟨task, rest, front⟩ := List.exists_cons_of_ne_nil queued
    cases w with
    | woken => exact Or.inl ⟨.pop i, _, rfl, .pop atI front⟩
    | starting | waiting | executing => cases wakes
  have posted : 0 < p.task_queue_stat_ := by omega
  by_cases free : ∃ w ∈ p.workers, ∀ task, w ≠ .executing task
  · obtain ⟨w, member, free⟩ := free
    obtain ⟨i, atI⟩ := List.getElem?_of_mem member
    cases w with
    | starting => exact Or.inl ⟨.free i, _, rfl, .free atI⟩
    | waiting => exact Or.inl ⟨.wait i, _, rfl, .wait atI posted⟩
    | woken => exact absurd (List.countP_pos_iff.mpr ⟨_, member, rfl⟩) woken
    | executing task => exact absurd rfl (free task)
  · push Not at free
    have waiting : p.workers.countP Worker.waits = 0 := List.countP_eq_zero.mpr fun w member => by
      obtain ⟨task, rfl⟩ := free w member
      nofun
    refine Or.inr ⟨ready.supplied.resolve_left fun supplied => ?_, free⟩
    unfold Supplied at supplied
    omega

end Invariants

section Single

variable {p q : ThreadPool γ τ} {a : PoolAction γ} {main : γ}

/-- A pool with one thread, to which only one thread appends. -/
structure Single (main : γ) (p : ThreadPool γ τ) : Prop where
  idle : ∀ c ≠ main, p.calls c = .idle
  creating : p.calls main = .creating → p.workers = []
  workers : p.workers.length ≤ 1

omit [Fintype γ] in
theorem Single.push (single : p.Single main) {task : τ} (pushed : p.push main task = some q) : q.Single main := by
  obtain ⟨-, rfl⟩ := push_eq pushed
  exact ⟨fun c other => (Function.update_of_ne other ..).trans (single.idle c other),
    fun creates => by simp at creates, single.workers⟩

theorem Single.step {max_tasks : Nat} (single : p.Single main) (ready : p.Ready 1 max_tasks) (step : Step p a q) :
    q.Single main := by
  have caller {c : γ} {phase : AppendPhase} (here : p.calls c = phase) (active : phase ≠ .idle) : c = main := by
    by_contra other
    exact active (here.symm.trans (single.idle c other))
  have others (phase : AppendPhase) (c : γ) (other : c ≠ main) : Function.update p.calls main phase c = .idle :=
    (Function.update_of_ne other ..).trans (single.idle c other)
  cases step with
  | tryWait loops | busy loops | limit loops =>
    cases caller loops nofun
    exact ⟨others _, fun creates => by simp at creates, single.workers⟩
  | below loops room =>
    cases caller loops nofun
    refine ⟨others _, fun _ => ?_, single.workers⟩
    have uncounted : ∑ c, (p.calls c).uncounted = 0 := by
      refine Finset.sum_eq_zero fun c _ => ?_
      by_cases same : c = main
      · rw [same, loops]
        rfl
      · rw [single.idle c same]
        rfl
    have counted := ready.counted
    have threads := ready.threads
    unfold AtLimit at room
    unfold Counted at counted
    have none : p.workers.length = 0 := by omega
    exact List.length_eq_zero_iff.mp none
  | create creates =>
    cases caller creates nofun
    exact ⟨others _, fun creates => by simp at creates, by simp [single.creating creates]⟩
  | count counts =>
    cases caller counts nofun
    exact ⟨others _, fun creates => by simp at creates, single.workers⟩
  | post grants =>
    cases caller grants nofun
    exact ⟨others _, fun creates => by simp at creates, single.workers⟩
  | free | wait | popNone | pop =>
    exact ⟨single.idle, fun creates => by simp [single.creating creates], by simpa using single.workers⟩

end Single

section Leads

variable {p q : ThreadPool γ τ} {a : PoolAction γ} {job : τ}

/-- The first task of the pool is at the front of its queue, until a worker takes
it. It never returns. -/
def Leads (p : ThreadPool γ τ) (job : τ) : Prop :=
  .executing job ∈ p.workers ∨ (∀ task, .executing task ∉ p.workers) ∧ p.task_queue_.head? = some job

omit [DecidableEq γ] [Fintype γ] in
theorem Leads.executes (leads : p.Leads job) {task : τ} (other : .executing task ∈ p.workers) :
    .executing job ∈ p.workers :=
  leads.resolve_right fun waits => waits.1 task other

omit [Fintype γ] in
theorem Leads.of_push {c : γ} (empty : p.held = []) (pushed : p.push c job = some q) : q.Leads job := by
  obtain ⟨-, rfl⟩ := push_eq pushed
  obtain ⟨queue, tasks⟩ := List.append_eq_nil_iff.mp empty
  refine Or.inr ⟨fun task executes => ?_, by simp [queue]⟩
  have member := mem_tasks.mpr executes
  rw [tasks] at member
  cases member

omit [Fintype γ] in
theorem Leads.push (leads : p.Leads job) {c : γ} {task : τ} (pushed : p.push c task = some q) : q.Leads job := by
  obtain ⟨-, rfl⟩ := push_eq pushed
  exact leads.imp_right fun ⟨free, front⟩ => ⟨free, by simp [List.head?_append, front]⟩

omit [DecidableEq γ] [Fintype γ] in
theorem Leads.finish (leads : p.Leads job) {i : Nat} {task : τ} (executes : p.workers[i]? = some (.executing task))
    (apart : job ≠ task) : (p.finish i).Leads job := by
  have runs := leads.executes (List.mem_of_getElem? executes)
  obtain ⟨others, before, after⟩ := workers_set executes .starting
  have kept := (List.mem_cons.mp (before.mem_iff.mp runs)).resolve_left fun same => apart (Worker.executing.inj same)
  exact Or.inl (after.mem_iff.mpr (List.mem_cons_of_mem _ kept))

omit [Fintype γ] in
theorem Leads.step (leads : p.Leads job) (step : Step p a q) : q.Leads job := by
  have kept {i : Nat} {old : Worker τ} (here : p.workers[i]? = some old) (new : Worker τ) (same : new.task? = old.task?)
      (task : τ) : .executing task ∈ p.workers.set i new ↔ .executing task ∈ p.workers := by
    rw [← mem_tasks, (tasks_set here new same).mem_iff, mem_tasks]
  cases step with
  | tryWait | busy | limit | below | count | post => exact leads
  | create => simpa [Leads] using leads
  | free atTop => simpa only [Leads, kept atTop .waiting rfl] using leads
  | wait waits => simpa only [Leads, kept waits .woken rfl] using leads
  | popNone wakes => simpa only [Leads, kept wakes .starting rfl] using leads
  | @pop i task rest wakes queue =>
    obtain ⟨others, before, after⟩ := workers_set wakes (.executing task)
    refine Or.inl (after.mem_iff.mpr ?_)
    rcases leads with runs | ⟨-, front⟩
    · exact List.mem_cons_of_mem _ ((List.mem_cons.mp (before.mem_iff.mp runs)).resolve_left nofun)
    · rw [queue] at front
      cases front
      exact List.mem_cons_self

end Leads

end ThreadPool

end CoflowSim
