import Mathlib.Tactic.Common

namespace Lib

/-- The two directions a descriptor can be watched for. -/
inductive Interest
  | epollIn
  | epollOut
deriving DecidableEq, Repr

/-- A descriptor of an epoll instance, edge-triggered: the direction it is
watched for, its `EPOLLONESHOT` flag, whether an event has not disabled it, and
whether it is in the ready list. -/
structure Registration where
  interest : Interest
  oneShot : Bool
  armed : Bool
  ready : Bool
deriving DecidableEq

namespace Registration

def Watches (r : Registration) (i : Interest) : Prop := r.armed = true ∧ r.interest = i

instance (r : Registration) (i : Interest) : Decidable (r.Watches i) := inferInstanceAs (Decidable (_ ∧ _))

/-- `EPOLL_CTL_ADD`, when the direction is `now` ready or not. -/
def add (interest : Interest) (oneShot now : Bool) : Registration := ⟨interest, oneShot, true, now⟩

/-- `EPOLL_CTL_MOD`, which also arms a disabled descriptor. -/
def modify (r : Registration) (interest : Interest) (oneShot now : Bool) : Registration :=
  ⟨interest, oneShot, true, r.ready || now⟩

/-- The descriptor becomes ready in a direction. -/
def notify (r : Registration) (i : Interest) : Registration := if r.Watches i then { r with ready := true } else r

/-- `epoll_wait` takes the descriptor from the ready list, and returns an event
if its direction is `now` ready. -/
def collect (r : Registration) (now : Bool) : Bool × Registration :=
  if r.armed && now then (true, { r with armed := !r.oneShot, ready := false }) else (false, { r with ready := false })

/-- An event for this direction is on its way. -/
def Pends (r : Registration) (i : Interest) : Prop := r.ready = true ∧ r.Watches i

instance (r : Registration) (i : Interest) : Decidable (r.Pends i) := inferInstanceAs (Decidable (_ ∧ _))

/-- No event will come any more, unless the descriptor is modified. -/
def Spent (r : Registration) : Prop := r.armed = false ∧ r.ready = false

@[simp] theorem watches_notify (r : Registration) (i j : Interest) : (r.notify j).Watches i ↔ r.Watches i := by
  unfold notify
  split <;> exact Iff.rfl

theorem watches_of_collect {r : Registration} {i : Interest} {now : Bool} (watches : (r.collect now).2.Watches i) :
    r.Watches i := by
  unfold collect at watches
  split at watches
  · rename_i delivers
    exact ⟨(Bool.and_eq_true_iff.mp delivers).1, watches.2⟩
  · exact watches

theorem collect_ready (r : Registration) (now : Bool) : (r.collect now).2.ready = false := by
  unfold collect
  split <;> rfl

theorem pends_notify {r : Registration} {i : Interest} (watches : r.Watches i) : (r.notify i).Pends i := by
  rw [notify, if_pos watches]
  exact ⟨rfl, watches⟩

theorem pends_notify_of_pends {r : Registration} {i j : Interest} (pends : r.Pends i) : (r.notify j).Pends i := by
  unfold notify
  split
  · exact ⟨rfl, pends.2⟩
  · exact pends

theorem pends_modify (r : Registration) (i : Interest) (oneShot : Bool) : (r.modify i oneShot true).Pends i :=
  ⟨Bool.or_true _, rfl, rfl⟩

theorem notify_spent {r : Registration} (spent : r.Spent) (i : Interest) : r.notify i = r :=
  if_neg fun watches => absurd watches.1 (by simp [spent.1])

/-- A one-shot registration is spent once its event has been returned. -/
theorem collect_spent {r : Registration} {now : Bool} (oneShot : r.oneShot = true)
    (event : (r.collect now).1 = true) : (r.collect now).2.Spent := by
  unfold collect at event ⊢
  split
  · exact ⟨by simp [oneShot], rfl⟩
  · rename_i silent
    rw [if_neg silent] at event
    cases event

/-- An armed registration without an event was not ready, and goes on. -/
theorem collect_silent {r : Registration} {now : Bool} {i : Interest} (watches : r.Watches i)
    (silent : (r.collect now).1 = false) : now = false ∧ (r.collect now).2.Watches i ∧
      (r.collect now).2.oneShot = r.oneShot := by
  cases now with
  | true => simp [collect, watches.1] at silent
  | false =>
    rw [collect, Bool.and_false]
    exact ⟨rfl, watches, rfl⟩

end Registration

end Lib
