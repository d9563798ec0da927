import CoflowSim.Common.PoolProgress
import CoflowSim.Lib.Completion

namespace CoflowSim
open Lib

/-- A call of `append` that has not found a thread for its task. -/
def AppendPhase.seeks : AppendPhase → Nat
  | .looping => 1
  | .refused => 1
  | .creating => 1
  | .counting => 1
  | _ => 0

/-- A call of `append` that has found no free thread and has not created one. -/
def AppendPhase.lacks : AppendPhase → Nat
  | .refused => 1
  | .creating => 1
  | _ => 0

/-- The steps that a call of `append` has still before it, and those that it
leaves to the workers. -/
def AppendPhase.work : AppendPhase → Nat
  | .idle => 0
  | .granted => 5
  | .looping => 6
  | .counting => 7
  | .creating => 10
  | .refused => 11

def Worker.starts {τ : Type} : Worker τ → Bool
  | .starting => true
  | _ => false

def Worker.work {τ : Type} : Worker τ → Nat
  | .starting => 2
  | .waiting => 1
  | .woken => 4
  | .executing _ => 3

namespace ThreadPool

variable {γ τ : Type} [DecidableEq γ] [Fintype γ]

/-- The calls of `append` that will find no thread among those that are free,
about to be free, or about to be created. -/
def shortage (p : ThreadPool γ τ) : Nat :=
  (∑ c, (p.calls c).seeks) -
    (p.free_thread_stat_ + p.workers.countP Worker.starts + ∑ c, (p.calls c).lacks)

/-- A bound of the steps that the pool can take by itself. -/
def work (p : ThreadPool γ τ) : Nat :=
  6 * p.shortage + ∑ c, (p.calls c).work + (p.workers.map Worker.work).sum + 4 * p.task_queue_stat_

/-- No call of `append` gives up waiting for a thread that is about to be free. -/
def Patient (p : ThreadPool γ τ) (a : PoolAction γ) : Prop :=
  ∀ c, a = .tryWait c → p.free_thread_stat_ = 0 → .starting ∉ p.workers

variable {p q : ThreadPool γ τ} {a : PoolAction γ}

end ThreadPool

end CoflowSim
