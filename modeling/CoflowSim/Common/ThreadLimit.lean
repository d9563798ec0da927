import Mathlib.Algebra.Order.BigOperators.Group.Finset
import CoflowSim.Common.PoolHistory

namespace CoflowSim
open Lib

/-- A call of `append` between its test of the limit and its count. -/
def AppendPhase.underway : AppendPhase → Nat
  | .creating => 1
  | .counting => 1
  | _ => 0

/-- A call of `append` that has passed its test and is to create a thread. -/
def AppendPhase.uncreated : AppendPhase → Nat
  | .creating => 1
  | _ => 0

namespace ThreadPool

variable {γ τ : Type} [DecidableEq γ] [Fintype γ] {p q : ThreadPool γ τ} {a : PoolAction γ}

/-- The threads that are counted and those that the calls of `append` are about
to create or to count. -/
def promised (p : ThreadPool γ τ) : Nat := p.created_thread_num_ + ∑ c, (p.calls c).underway

omit [DecidableEq γ] in
theorem Counted.promised_eq (counted : p.Counted) :
    p.promised = p.workers.length + ∑ c, (p.calls c).uncreated := by
  have split : ∑ c, (p.calls c).underway = ∑ c, (p.calls c).uncounted + ∑ c, (p.calls c).uncreated := by
    rw [← Finset.sum_add_distrib]
    refine Finset.sum_congr rfl fun c _ => ?_
    cases p.calls c <;> rfl
  unfold Counted at counted
  rw [promised, split]
  omega

/-- Only the test of the limit promises a thread. -/
theorem Step.promised (step : Step p a q) :
    (∀ c, a = .test c → p.AtLimit) ∧ q.promised = p.promised ∨
      (∃ c, a = .test c ∧ p.calls c = .refused) ∧ ¬ p.AtLimit ∧ q.promised = p.promised + 1 ∧
        q.created_thread_num_ = p.created_thread_num_ := by
  have same {c : γ} {old : AppendPhase} (here : p.calls c = old) (new : AppendPhase)
      (still : new.underway = old.underway) :
      p.created_thread_num_ + ∑ d, (Function.update p.calls c new d).underway = p.promised :=
    congrArg _ (sum_update_same here AppendPhase.underway new still)
  cases step with
  | tryWait loops => exact Or.inl ⟨nofun, same loops .granted rfl⟩
  | busy loops => exact Or.inl ⟨nofun, same loops .refused rfl⟩
  | limit tests full => exact Or.inl ⟨fun _ _ => full, same tests .granted rfl⟩
  | @below c tests room =>
    have calls : _ + 0 = _ + 1 := sum_update tests AppendPhase.underway .creating
    refine Or.inr ⟨⟨c, rfl, tests⟩, room, ?_, rfl⟩
    unfold ThreadPool.promised
    simp only at calls ⊢
    omega
  | create creates => exact Or.inl ⟨nofun, same creates .counting rfl⟩
  | count counts =>
    have calls : _ + 1 = _ + 0 := sum_update counts AppendPhase.underway .looping
    refine Or.inl ⟨nofun, ?_⟩
    unfold ThreadPool.promised
    simp only at calls ⊢
    omega
  | post grants => exact Or.inl ⟨nofun, same grants .idle rfl⟩
  | free | wait | popNone | pop => exact Or.inl ⟨nofun, rfl⟩

theorem push_promised {c : γ} {task : τ} (idle : p.calls c = .idle) (pushed : p.push c task = some q) :
    q.promised = p.promised := by
  obtain ⟨-, rfl⟩ := push_eq pushed
  unfold promised
  rw [sum_update_same idle AppendPhase.underway .looping rfl]

end ThreadPool

namespace PoolHistory

variable {γ τ : Type} [DecidableEq γ] [Fintype γ] {h h' : PoolHistory γ τ} {threads tasks : Nat}

/-- No test of the limit passes while the threads counted and those under way
are as many as the limit. -/
def Spares (h : PoolHistory γ τ) (e : PoolEvent γ τ) : Prop :=
  ∀ c, e = .step (.test c) → ¬ h.pool.AtLimit → h.pool.promised < h.pool.max_thread_num_

/-- Neither now nor by the creations that are under way has the pool more
threads than its limit. -/
def KeepsLimit (h : PoolHistory γ τ) : Prop :=
  ∀ creations h', (∀ e ∈ creations, ∃ c, e = .step (.create c)) → Run Step h creations h' →
    h'.pool.workers.length ≤ h'.pool.max_thread_num_

omit [Fintype γ] in
theorem Step.limits {e : PoolEvent γ τ} (step : Step h e h') : h'.pool.max_thread_num_ = h.pool.max_thread_num_ := by
  cases step with
  | refuse | returns => rfl
  | push _ pushed => rw [(ThreadPool.push_eq pushed).2]
  | step _ step | pop _ step => exact step.keeps.1

theorem Step.promised {e : PoolEvent γ τ} (step : Step h e h') :
    (∀ c, e = .step (.test c) → h.pool.AtLimit) ∧ h'.pool.promised = h.pool.promised ∨
      (∃ c, e = .step (.test c) ∧ h.pool.calls c = .refused) ∧ ¬ h.pool.AtLimit ∧
        h'.pool.promised = h.pool.promised + 1 ∧ h'.pool.created_thread_num_ = h.pool.created_thread_num_ := by
  cases step with
  | refuse | returns => exact Or.inl ⟨nofun, rfl⟩
  | push idle pushed => exact Or.inl ⟨nofun, ThreadPool.push_promised idle pushed⟩
  | pop _ step =>
    rcases ThreadPool.Step.promised step with ⟨-, kept⟩ | ⟨⟨c, other, -⟩, -⟩
    · exact Or.inl ⟨nofun, kept⟩
    · cases other
  | step _ step =>
    rcases ThreadPool.Step.promised step with ⟨full, kept⟩ | ⟨⟨c, rfl, tests⟩, room, grown⟩
    · exact Or.inl ⟨fun c tests => full c (PoolEvent.step.inj tests), kept⟩
    · exact Or.inr ⟨⟨c, rfl, tests⟩, room, grown⟩

/-- The creations under way can all take place. -/
theorem creations_run (h : PoolHistory γ τ) : ∃ creations h', (∀ e ∈ creations, ∃ c, e = .step (.create c)) ∧
    Run Step h creations h' ∧ h'.pool.max_thread_num_ = h.pool.max_thread_num_ ∧
    h'.pool.workers.length = h.pool.workers.length + ∑ c, (h.pool.calls c).uncreated := by
  induction left : ∑ c, (h.pool.calls c).uncreated generalizing h with
  | zero => exact ⟨[], h, by simp, .start, rfl, rfl⟩
  | succ n ih =>
    obtain ⟨c, -, creating⟩ := Finset.exists_ne_zero_of_sum_ne_zero (by omega :
      ∑ c, (h.pool.calls c).uncreated ≠ 0)
    have creates : h.pool.calls c = .creating := by
      cases phase : h.pool.calls c <;> simp [phase, AppendPhase.uncreated] at creating ⊢
    let next : PoolHistory γ τ := { h with pool := { h.pool with
      workers := h.pool.workers ++ [.starting], calls := Function.update h.pool.calls c .counting } }
    have first : Step h (.step (.create c)) next := .step (by simp) (.create creates)
    have fewer : ∑ d, (next.pool.calls d).uncreated + 1 = _ + 0 :=
      ThreadPool.sum_update creates AppendPhase.uncreated .counting
    obtain ⟨creations, last, all, run, limit, length⟩ := ih next (by omega)
    have longer : next.pool.workers.length = h.pool.workers.length + 1 := List.length_append
    refine ⟨.step (.create c) :: creations, last, ?_, (Run.single first).trans run, limit, ?_⟩
    · exact List.forall_mem_cons.mpr ⟨⟨c, rfl⟩, all⟩
    · rw [length, longer]
      omega

theorem keepsLimit_iff (kept : h.Kept threads tasks) :
    h.KeepsLimit ↔ h.pool.promised ≤ h.pool.max_thread_num_ := by
  constructor
  · intro keeps
    obtain ⟨creations, last, all, run, limit, length⟩ := creations_run h
    rw [kept.ready.counted.promised_eq, ← length, ← limit]
    exact keeps creations last all run
  · intro room creations last all run
    have bound : last.Kept threads tasks ∧ last.pool.max_thread_num_ = h.pool.max_thread_num_ ∧
        last.pool.promised = h.pool.promised := by
      induction run with
      | start => exact ⟨kept, rfl, rfl⟩
      | @next creations s e t _ step ih =>
        obtain ⟨keptS, limit, same⟩ := ih fun e member => all e (List.mem_append_left _ member)
        obtain ⟨c, rfl⟩ := all e (by simp)
        refine ⟨keptS.next step, step.limits.trans limit, ?_⟩
        rcases step.promised with ⟨-, kept⟩ | ⟨⟨d, other, -⟩, -⟩
        · exact kept.trans same
        · cases other
    obtain ⟨keptLast, limit, same⟩ := bound
    have counted := keptLast.ready.counted.promised_eq
    omega

section Limited

variable {max_thread_num max_task_num : Int} {pool : ThreadPool γ τ} {events : List (PoolEvent γ τ)}

omit [DecidableEq γ] in
theorem promised_init (created : ThreadPool.create max_thread_num max_task_num = some pool) :
    (init pool).pool.promised = 0 := by
  obtain ⟨-, rfl⟩ := ThreadPool.create_eq created
  exact (Nat.zero_add _).trans (Finset.sum_eq_zero fun _ _ => rfl)

/-- The threads stay within the limit, in all states of a run and by the
creations under way in them, if and only if each test of the limit that passes
reckons with the threads that other calls of `append` are about to create or to
count. -/
theorem within_limit_iff (created : ThreadPool.create max_thread_num max_task_num = some pool) :
    (Run (Where Step Spares) (init pool) events h ↔ Run (Into Step KeepsLimit) (init pool) events h) ∧
      (Run (Where Step Spares) (init pool) events h → h.pool.workers.length ≤ max_thread_num.toNat) := by
  have start : (init pool).KeepsLimit := by
    rw [keepsLimit_iff (Kept.init created), promised_init created]
    exact Nat.zero_le _
  have exactly : Run (Where Step Spares) (init pool) events h ↔ Run (Into Step KeepsLimit) (init pool) events h := by
    refine Run.guarded_iff_into (Kept.init created) start (fun _ _ _ kept step => kept.next step)
      fun s e t kept keeps step => ?_
    rw [keepsLimit_iff kept] at keeps
    rw [keepsLimit_iff (kept.next step), step.limits]
    rcases step.promised with ⟨full, same⟩ | ⟨⟨c, rfl, -⟩, room, grown, -⟩
    · exact iff_of_true (fun c tests room => absurd (full c tests) room) (same ▸ keeps)
    · rw [grown]
      exact ⟨fun spares => spares c rfl room, fun below _ _ _ => below⟩
  refine ⟨exactly, fun run => ?_⟩
  have kept := Kept.of_run created run.unguarded
  have keeps : h.KeepsLimit := by
    cases exactly.mp run with
    | start => exact start
    | next _ last => exact last.2
  have within := keeps [] h (by simp) .start
  rwa [kept.ready.threads] at within

omit [DecidableEq γ] in
theorem underway_le (calls : γ → AppendPhase) : ∑ c, (calls c).underway ≤ Fintype.card γ := by
  have one (phase : AppendPhase) : phase.underway ≤ 1 := by cases phase <;> simp [AppendPhase.underway]
  exact (Finset.sum_le_sum fun c _ => one (calls c)).trans_eq (Finset.card_eq_sum_ones _).symm

/-- However the calls of `append` interleave, each of the threads that make them
but one can take the pool one thread beyond its limit. -/
theorem created_le_appenders (created : ThreadPool.create max_thread_num max_task_num = some pool)
    (limited : 0 < max_thread_num) (run : Run Step (init pool) events h) :
    h.pool.workers.length + 1 ≤ max_thread_num.toNat + Fintype.card γ := by
  have kept := Kept.of_run created run
  have bound : h.pool.promised + 1 ≤ max_thread_num.toNat + Fintype.card γ := by
    induction run with
    | start =>
      rw [promised_init created]
      omega
    | @next events s e t earlier step ih =>
      have keptS := Kept.of_run created earlier
      have within := ih keptS
      rcases step.promised with ⟨-, same⟩ | ⟨-, room, grown, counted⟩
      · rwa [same]
      · have limit := keptS.ready.threads
        have others := underway_le t.pool.calls
        rw [ThreadPool.AtLimit] at room
        rw [ThreadPool.promised] at grown ⊢
        omega
  have counted := kept.ready.counted.promised_eq
  omega

/-- A single thread that appends takes no pool beyond its limit. -/
theorem single_appender_spares [Subsingleton γ] (created : ThreadPool.create max_thread_num max_task_num = some pool)
    (limited : 0 < max_thread_num) (run : Run Step (init pool) events h) :
    Run (Where Step Spares) (init pool) events h := by
  induction run with
  | start => exact .start
  | @next events s e t earlier step ih =>
    refine ih.next ⟨?_, step⟩
    rintro c rfl room
    rcases step.promised with ⟨full, -⟩ | ⟨⟨d, -, tests⟩, -⟩
    · exact absurd (full c rfl) room
    · have alone : ∑ c, (s.pool.calls c).underway = 0 := by
        refine Finset.sum_eq_zero fun c _ => ?_
        rw [Subsingleton.elim c d, tests]
        rfl
      have limit := (Kept.of_run created earlier).ready.threads
      rw [ThreadPool.AtLimit] at room
      rw [ThreadPool.promised, alone]
      omega

end Limited

/-- A pool of one thread, to which two threads append. -/
def oneThread : ThreadPool Bool Bool := ⟨1, 1, 0, 0, [], 0, [], fun _ => .idle⟩

/-- The second appends after the first has got its thread. -/
theorem within_limit_iff_two : ∃ events h, Run (Into Step KeepsLimit) (init oneThread) events h ∧
    h.pool.workers.length ≤ 1 ∧ h.appends = [(false, true), (true, true)] ∧ h.pool.workers = [.waiting] := by
  have run := Run.start.next (show Where Step Spares (init oneThread) (.append false false) _ from
    ⟨by simp [Spares], .push rfl rfl⟩)
  have run := run.next ⟨by simp [Spares], .step (by simp) (.busy (c := false) rfl rfl)⟩
  have run := run.next ⟨fun _ _ _ => by decide, .step (by simp)
    (.below (c := false) rfl fun full => Nat.not_succ_le_zero 0 full.2)⟩
  have run := run.next ⟨by simp [Spares], .step (by simp) (.create (c := false) rfl)⟩
  have run := run.next ⟨by simp [Spares], .step (by simp) (.count (c := false) rfl)⟩
  have run := run.next ⟨by simp [Spares], .step (by simp) (.free (i := 0) rfl)⟩
  have run := run.next ⟨by simp [Spares], .step (by simp) (.tryWait (c := false) rfl Nat.one_pos)⟩
  have run := run.next ⟨by simp [Spares], .step (by simp) (.post (c := false) rfl)⟩
  have run := run.next ⟨by simp [Spares], show Step _ (.append true true) _ from .push rfl rfl⟩
  have run := run.next ⟨by simp [Spares], .step (by simp) (.busy (c := true) rfl rfl)⟩
  have run := run.next ⟨fun _ _ room => absurd ⟨Nat.one_pos, Nat.le_refl 1⟩ room, .step (by simp)
    (.limit (c := true) rfl ⟨Nat.one_pos, Nat.le_refl 1⟩)⟩
  have run := run.next ⟨by simp [Spares], .step (by simp) (.post (c := true) rfl)⟩
  have created : ThreadPool.create 1 1 = some oneThread := rfl
  exact ⟨_, _, (within_limit_iff created).1.mp run, (within_limit_iff created).2 run, rfl, rfl⟩

/-- Both pass the test before either of them has counted its thread. -/
theorem second_test_passes : ¬ ∀ (γ τ : Type) [DecidableEq γ] [Fintype γ] (max_thread_num max_task_num : Int)
    (pool : ThreadPool γ τ) (events : List (PoolEvent γ τ)) (h : PoolHistory γ τ), 0 < max_thread_num →
    ThreadPool.create max_thread_num max_task_num = some pool → Run Step (init pool) events h →
    h.pool.workers.length ≤ max_thread_num.toNat := by
  intro always
  have run := Run.start.next (show Step (init oneThread) (.append false false) _ from .push rfl rfl)
  have run := run.next (show Step _ (.append true true) _ from .push rfl rfl)
  have run := run.next (.step (by simp) (.busy (c := false) rfl rfl))
  have run := run.next (.step (by simp) (.busy (c := true) rfl rfl))
  have run := run.next (.step (by simp) (.below (c := false) rfl fun full => Nat.not_succ_le_zero 0 full.2))
  have run := run.next (.step (by simp) (.below (c := true) rfl fun full => Nat.not_succ_le_zero 0 full.2))
  have run := run.next (.step (by simp) (.create (c := false) rfl))
  have run := run.next (.step (by simp) (.create (c := true) rfl))
  exact absurd (always Bool Bool 1 1 oneThread _ _ (by decide) rfl run) (by decide)

end PoolHistory

end CoflowSim
