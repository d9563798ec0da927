import CoflowSim.Common.PoolHistory

namespace CoflowSim
open Lib

def Worker.executes {τ : Type} : Worker τ → Bool
  | .executing _ => true
  | _ => false

namespace PoolEvent

variable {γ τ : Type}

def appends : PoolEvent γ τ → Bool
  | .append _ _ => true
  | _ => false

def creates : PoolEvent γ τ → Bool
  | .step (.create _) => true
  | _ => false

/-- A step of a call of `append`. -/
def ofCall : PoolEvent γ τ → Bool
  | .step a => a.caller?.isSome
  | _ => false

end PoolEvent

/-- How far a call of `append` is from its last creation: from one creation to
the next it takes four steps. -/
def AppendPhase.rank : AppendPhase → Nat
  | .counting => 0
  | .looping => 1
  | .refused => 2
  | .creating => 3
  | .granted => 3
  | .idle => 4

namespace PoolHistory

variable {γ τ : Type} [DecidableEq γ] {h h' : PoolHistory γ τ} {threads tasks : Nat}

/-- The calls of `append` that returned false. -/
def refusals (h : PoolHistory γ τ) : Nat := h.appends.countP fun call => !call.2

/-- A thread is created only while the threads at no task are fewer than the
tasks that are queued or have returned, with the calls that were refused. -/
def Demanded (h : PoolHistory γ τ) (e : PoolEvent γ τ) : Prop :=
  ∀ c, e = .step (.create c) →
    h.pool.workers.countP (!·.executes) < h.pool.task_queue_.length + h.returns.length + h.refusals

/-- No more threads have been created than calls of `append` have been made. -/
def OnDemand (h : PoolHistory γ τ) : Prop := h.pool.workers.length ≤ h.appends.length

/-- Each pop is at work or has returned. -/
def Worked (h : PoolHistory γ τ) : Prop := h.pops.length = h.pool.workers.countP Worker.executes + h.returns.length

theorem Worked.step (worked : h.Worked) {e : PoolEvent γ τ} (step : Step h e h') : h'.Worked := by
  unfold Worked at worked ⊢
  cases step with
  | refuse => exact worked
  | push _ pushed =>
    obtain ⟨-, rfl⟩ := ThreadPool.push_eq pushed
    exact worked
  | @returns i task executes =>
    have count : _ + 1 = _ + 0 := ThreadPool.count_set executes .starting Worker.executes
    simp only [ThreadPool.finish, List.length_append, List.length_singleton] at count ⊢
    omega
  | @pop i task rest pool front step =>
    cases step with
    | popNone _ empty => simp [empty] at front
    | @pop _ first _ wakes =>
      have count : _ + 0 = _ + 1 := ThreadPool.count_set wakes (.executing first) Worker.executes
      simp only [List.length_append, List.length_singleton] at count ⊢
      omega
  | @step a pool none step =>
    cases step with
    | tryWait | busy | limit | below | count | post => exact worked
    | create =>
      rw [ThreadPool.count_created _ Worker.executes rfl]
      exact worked
    | free here =>
      rw [ThreadPool.count_set_same here .waiting Worker.executes rfl]
      exact worked
    | wait here =>
      rw [ThreadPool.count_set_same here .woken Worker.executes rfl]
      exact worked
    | popNone here =>
      rw [ThreadPool.count_set_same here .starting Worker.executes rfl]
      exact worked
    | @pop i _ _ _ front => simp [none i rfl] at front

omit [DecidableEq γ] in
theorem appends_length (h : PoolHistory γ τ) : h.appends.length = h.pushes.length + h.refusals := by
  rw [pushes, refusals]
  induction h.appends with
  | nil => rfl
  | cons call calls ih =>
    obtain ⟨task, pushed⟩ := call
    cases pushed <;> simp [ih] <;> omega

section Counts

variable [Fintype γ]

omit [DecidableEq γ] in
/-- The calls of `append`, by what has become of them. -/
theorem Kept.appends_eq (kept : h.Kept threads tasks) (worked : h.Worked) : h.appends.length =
    h.pool.workers.countP Worker.executes + h.pool.task_queue_.length + h.returns.length + h.refusals := by
  have order := congrArg List.length kept.order
  unfold Worked at worked
  rw [List.length_append, List.length_map] at order
  rw [appends_length]
  omega

omit [Fintype γ] in
/-- What a step adds to the threads and to the calls. -/
theorem Step.counts {e : PoolEvent γ τ} (step : Step h e h') :
    h'.pool.workers.length = h.pool.workers.length + (if e.creates then 1 else 0) ∧
      h'.appends.length = h.appends.length + if e.appends then 1 else 0 := by
  cases step with
  | refuse => exact ⟨rfl, List.length_append⟩
  | push _ pushed =>
    obtain ⟨-, rfl⟩ := ThreadPool.push_eq pushed
    exact ⟨rfl, List.length_append⟩
  | returns => exact ⟨List.length_set, rfl⟩
  | pop _ step =>
    cases step with
    | popNone | pop => exact ⟨List.length_set, rfl⟩
  | step _ step =>
    cases step with
    | tryWait | busy | limit | below | count | post => exact ⟨rfl, rfl⟩
    | create => exact ⟨List.length_append, rfl⟩
    | free | wait | popNone | pop => exact ⟨List.length_set, rfl⟩

/-- Whether a creation is on demand is seen before it. -/
theorem Kept.demanded_iff (kept : h.Kept threads tasks) (worked : h.Worked) (onDemand : h.OnDemand)
    {e : PoolEvent γ τ} (step : Step h e h') : h.Demanded e ↔ h'.OnDemand := by
  obtain ⟨created, called⟩ := step.counts
  have split : h.pool.workers.length =
      h.pool.workers.countP Worker.executes + h.pool.workers.countP (!·.executes) := by
    simpa using List.length_eq_countP_add_countP Worker.executes (l := h.pool.workers)
  have appends := kept.appends_eq worked
  unfold OnDemand at onDemand ⊢
  by_cases creates : ∃ c, e = .step (.create c)
  · obtain ⟨c, rfl⟩ := creates
    have one : h'.pool.workers.length = h.pool.workers.length + 1 := created
    have none : h'.appends.length = h.appends.length := called
    constructor
    · intro demanded
      have fewer := demanded c rfl
      omega
    · intro within d _
      omega
  · refine iff_of_true (fun c same => absurd ⟨c, same⟩ creates) ?_
    have none : e.creates = false := by
      cases e with
      | append | returns => rfl
      | step a =>
        cases a with
        | create c => exact absurd ⟨c, rfl⟩ creates
        | _ => rfl
    rw [created, called, none]
    exact onDemand.trans (Nat.le_add_right _ _)

end Counts

section Single

variable {s h h' : PoolHistory Unit τ} {during : List (PoolEvent Unit τ)}

/-- While no new call is made, the thread that appends takes four steps from one
creation to the next. -/
theorem Step.rank {e : PoolEvent Unit τ} (step : Step h e h') (old : e.appends = false) :
    (h.pool.calls ()).rank + (if e.ofCall then 1 else 0) ≤
      (h'.pool.calls ()).rank + if e.creates then 4 else 0 := by
  have moved {calls : Unit → AppendPhase} {c : Unit} {now : AppendPhase} (here : calls c = now) (next : AppendPhase)
      (made : Nat) (enough : now.rank + 1 ≤ next.rank + made) :
      (calls ()).rank + 1 ≤ (Function.update calls c next ()).rank + made := by
    rw [← here] at enough
    rwa [Function.update_self]
  cases step with
  | refuse | push => cases old
  | returns => exact Nat.le_refl _
  | pop _ step =>
    cases step with
    | popNone | pop => exact Nat.le_refl _
  | step _ step =>
    cases step with
    | tryWait here => exact moved here .granted 0 (by decide)
    | busy here => exact moved here .refused 0 (by decide)
    | limit here => exact moved here .granted 0 (by decide)
    | below here => exact moved here .creating 0 (by decide)
    | create here => exact moved here .counting 4 (by decide)
    | count here => exact moved here .looping 0 (by decide)
    | post here => exact moved here .idle 0 (by decide)
    | free | wait | popNone | pop => exact Nat.le_refl _

/-- What is done before the next call: the threads that are created and the
steps that the call under way takes. -/
theorem run_counts (run : Run Step s during h) (old : ∀ e ∈ during, e.appends = false) :
    h.appends.length = s.appends.length ∧
      h.pool.workers.length = s.pool.workers.length + during.countP PoolEvent.creates ∧
      during.countP PoolEvent.ofCall + (s.pool.calls ()).rank ≤
        4 * during.countP PoolEvent.creates + (h.pool.calls ()).rank := by
  induction run with
  | start => exact ⟨rfl, rfl, by simp⟩
  | @next during t e h earlier step ih =>
    obtain ⟨appends, created, steps⟩ := ih fun e member => old e (List.mem_append_left _ member)
    have last : e.appends = false := old e (by simp)
    obtain ⟨one, called⟩ := step.counts
    have rank := step.rank last
    rw [last] at called
    simp only [List.countP_append, List.countP_singleton]
    refine ⟨called.trans appends, by omega, ?_⟩
    split at rank <;> split at rank <;> simp_all <;> omega

/-- A call of `append` that finds no free thread creates as many as the limit
lets it, as long as none of them gets to post. -/
theorem creates_again (loops : s.pool.calls () = .looping) (busy : s.pool.free_thread_stat_ = 0) {n : Nat}
    (room : s.pool.max_thread_num_ = 0 ∨ s.pool.created_thread_num_ + n ≤ s.pool.max_thread_num_) :
    ∃ during h, Run Step s during h ∧ h.appends = s.appends ∧ h.pool.calls () = .looping ∧
      h.pool.workers = s.pool.workers ++ List.replicate n .starting := by
  induction n generalizing s with
  | zero => exact ⟨[], s, .start, rfl, loops, (List.append_nil _).symm⟩
  | succ n ih =>
    have below : ¬ s.pool.AtLimit := by
      rw [ThreadPool.AtLimit]
      omega
    have run := Run.start.next (show Step s (.step (.tryWait ())) _ from .step (by simp) (.busy loops busy))
    have run := run.next (.step (by simp) (.below (c := ()) rfl below))
    have run := run.next (.step (by simp) (.create (c := ()) rfl))
    have run := run.next (.step (by simp) (.count (c := ()) rfl))
    obtain ⟨during, h, rest, called, looping, workers⟩ := ih (s := { s with pool := { s.pool with
      workers := s.pool.workers ++ [.starting], created_thread_num_ := s.pool.created_thread_num_ + 1
      calls := fun _ => .looping } }) rfl busy (by simp only; omega)
    refine ⟨_, h, run.trans rest, called, looping, ?_⟩
    rw [workers, List.append_assoc, List.replicate_succ]
    rfl

theorem single_next (single : h.pool.Single ()) (kept : h.Kept 1 tasks) {e : PoolEvent Unit τ} (step : Step h e h') :
    h'.pool.Single () := by
  cases step with
  | refuse => exact single
  | push _ pushed => exact single.push pushed
  | step _ step | pop _ step => exact single.step kept.ready step
  | returns =>
    exact ⟨single.idle, fun creates => by simp [ThreadPool.finish, single.creating creates],
      List.length_set.trans_le single.workers⟩

end Single

section Demand

variable {max_thread_num max_task_num : Int} {pool : ThreadPool Unit τ} {events : List (PoolEvent Unit τ)}
  {s h : PoolHistory Unit τ}

theorem demand_init {γ : Type} {pool : ThreadPool γ τ}
    (created : ThreadPool.create max_thread_num max_task_num = some pool) :
    (init pool).OnDemand ∧ (init pool).Worked ∧ (init pool).pool.workers = [] := by
  obtain ⟨-, rfl⟩ := ThreadPool.create_eq created
  exact ⟨Nat.le_refl _, rfl, rfl⟩

/-- A pool of one thread creates it for the first task. -/
theorem one_thread_on_demand (created : ThreadPool.create 1 max_task_num = some pool)
    (run : Run Step (init pool) events h) : h.OnDemand := by
  have start : (init pool).pool.Single () := by
    refine ⟨fun c other => absurd rfl other, fun _ => (demand_init created).2.2, ?_⟩
    rw [(demand_init created).2.2]
    exact Nat.zero_le _
  have all : h.Kept 1 max_task_num.toNat ∧ h.Worked ∧ h.pool.Single () ∧ h.OnDemand := by
    refine run.invariant (I := fun h => h.Kept 1 max_task_num.toNat ∧ h.Worked ∧ h.pool.Single () ∧ h.OnDemand)
      ⟨Kept.init created, (demand_init created).2.1, start, (demand_init created).1⟩ ?_
    rintro s e t ⟨kept, worked, single, onDemand⟩ step
    refine ⟨kept.next step, worked.step step, single_next single kept step, ?_⟩
    by_cases creates : ∃ c, e = .step (.create c)
    · obtain ⟨c, rfl⟩ := creates
      -- the call that creates the thread has pushed its task
      have active : s.pool.calls c ≠ .idle := by
        cases step with
        | step _ step =>
          cases step with
          | create creates => simp [creates]
      have pushed := kept.opened c active
      have called := appends_length s
      have more := step.counts.2
      have few := (single_next single kept step).workers
      simp only [PoolEvent.appends] at more
      unfold OnDemand
      omega
    · exact (kept.demanded_iff worked onDemand step).mp fun c same => absurd ⟨c, same⟩ creates
  exact all.2.2.2

/-- Any other pool can create two threads for the first task, and without a limit
any number of them. -/
theorem many_for_one (created : ThreadPool.create max_thread_num max_task_num = some pool) {n : Nat}
    (room : max_thread_num = 0 ∨ (n : Int) ≤ max_thread_num) (task : τ) : ∃ events h, Run Step (init pool) events h ∧
      h.appends = [(task, true)] ∧ h.pool.calls () = .looping ∧ h.pool.workers.length = n := by
  obtain ⟨-, same⟩ := ThreadPool.create_eq created
  have pushed : pool.push () task = some { pool with
      task_queue_ := [task], calls := Function.update pool.calls () .looping } := by
    simp [same, ThreadPool.push]
  let begun : PoolHistory Unit τ := { init pool with
    pool := { pool with task_queue_ := [task], calls := Function.update pool.calls () .looping }
    appends := [(task, true)], lastPush := Function.update (fun _ => 0) () 0 }
  have first : Run Step (init pool) [.append () task] begun := .single (.push (by simp [init, same]) pushed)
  obtain ⟨during, h, rest, called, looping, workers⟩ := creates_again (n := n) (s := begun) rfl
    (by simp [begun, same]) (by simp only [begun, same]; omega)
  exact ⟨_, h, first.trans rest, called, looping, by simp [workers, begun, same]⟩

theorem onDemand_last (created : ThreadPool.create max_thread_num max_task_num = some pool)
    (run : Run (Into Step OnDemand) (init pool) events h) : h.OnDemand := by
  cases run with
  | start => exact (demand_init created).1
  | next _ last => exact last.2

/-- The threads are at most the calls of `append`, in all states of a run, if and
only if each of them is created while there are more tasks than idle threads. No
call then creates more threads than the earlier calls have left, so it
returns. A pool that has no other run is a pool of one thread. -/
theorem created_on_demand_iff (created : ThreadPool.create max_thread_num max_task_num = some pool) (task : τ) :
    (Run (Where Step Demanded) (init pool) events h ↔ Run (Into Step OnDemand) (init pool) events h) ∧
    (Run (Where Step Demanded) (init pool) events s → ∀ during h, Run (Where Step Demanded) s during h →
      (∀ e ∈ during, e.appends = false) →
        s.pool.workers.length + during.countP PoolEvent.creates ≤ s.appends.length ∧
        during.countP PoolEvent.ofCall ≤ 4 * (s.appends.length - s.pool.workers.length) + 4) ∧
    ((∀ events h, Run Step (init pool) events h → h.OnDemand) ↔ max_thread_num = 1) := by
  have exactly {events : List (PoolEvent Unit τ)} {h : PoolHistory Unit τ} :
      Run (Where Step Demanded) (init pool) events h ↔ Run (Into Step OnDemand) (init pool) events h := by
    refine Run.guarded_iff_into
      (I := fun h => h.Kept max_thread_num.toNat max_task_num.toNat ∧ h.Worked)
      ⟨Kept.init created, (demand_init created).2.1⟩ (demand_init created).1
      (fun _ _ _ kept step => ⟨kept.1.next step, kept.2.step step⟩)
      fun _ _ _ kept onDemand step => kept.1.demanded_iff kept.2 onDemand step
  refine ⟨exactly, fun before during h run old => ?_, fun always => ?_, fun one => ?_⟩
  · have onDemand := onDemand_last created (exactly.mp (before.trans run))
    obtain ⟨appends, workers, steps⟩ := run_counts run.unguarded old
    have rank (phase : AppendPhase) : phase.rank ≤ 4 := by cases phase <;> decide
    have last := rank (h.pool.calls ())
    unfold OnDemand at onDemand
    omega
  · by_contra other
    have limit := (ThreadPool.create_eq created).1
    obtain ⟨events, h, run, appends, -, workers⟩ := many_for_one created (n := 2) (by omega) task
    have onDemand := always events h run
    unfold OnDemand at onDemand
    rw [appends, workers, List.length_singleton] at onDemand
    exact absurd onDemand (by decide)
  · subst one
    exact fun events h run => one_thread_on_demand created run

/-- The thread posts before the call that created it looks for one again. -/
theorem created_on_demand_iff_one : ∃ (pool : ThreadPool Unit Bool) (events : List (PoolEvent Unit Bool))
    (h : PoolHistory Unit Bool), ThreadPool.create 0 1 = some pool ∧ Run (Into Step OnDemand) (init pool) events h ∧
      h.appends = [(false, true)] ∧ h.pool.workers = [.waiting] ∧ h.pool.calls () = .idle := by
  let pool : ThreadPool Unit Bool := ⟨0, 1, 0, 0, [], 0, [], fun _ => .idle⟩
  have run := Run.start.next (show Where Step Demanded (init pool) (.append () false) _ from
    ⟨by simp [Demanded], .push rfl rfl⟩)
  have run := run.next ⟨by simp [Demanded], .step (by simp) (.busy (c := ()) rfl rfl)⟩
  have run := run.next ⟨by simp [Demanded], .step (by simp) (.below (c := ()) rfl fun full => Nat.lt_irrefl 0 full.1)⟩
  have run := run.next ⟨fun _ _ => by decide, .step (by simp) (.create (c := ()) rfl)⟩
  have run := run.next ⟨by simp [Demanded], .step (by simp) (.count (c := ()) rfl)⟩
  have run := run.next ⟨by simp [Demanded], .step (by simp) (.free (i := 0) rfl)⟩
  have run := run.next ⟨by simp [Demanded], .step (by simp) (.tryWait (c := ()) rfl Nat.one_pos)⟩
  have run := run.next ⟨by simp [Demanded], .step (by simp) (.post (c := ()) rfl)⟩
  have created : ThreadPool.create 0 1 = some pool := rfl
  exact ⟨pool, _, _, created, (created_on_demand_iff (s := init pool) created false).1.mp run, rfl, rfl, rfl⟩

/-- One call of `append` creates a second thread, since the first has not yet posted. -/
theorem second_thread_for_one_task : ¬ ∀ (τ : Type) (max_thread_num max_task_num : Int) (pool : ThreadPool Unit τ)
    (events : List (PoolEvent Unit τ)) (h : PoolHistory Unit τ),
    ThreadPool.create max_thread_num max_task_num = some pool → Run Step (init pool) events h →
    h.pool.workers.length ≤ h.appends.length := by
  intro always
  let pool : ThreadPool Unit Bool := ⟨0, 1, 0, 0, [], 0, [], fun _ => .idle⟩
  have created : ThreadPool.create 0 1 = some pool := rfl
  obtain ⟨events, h, run, appends, -, workers⟩ := many_for_one created (n := 2) (Or.inl rfl) false
  have within := always Bool 0 1 pool events h created run
  rw [appends, workers, List.length_singleton] at within
  exact absurd within (by decide)

end Demand

end PoolHistory

end CoflowSim
