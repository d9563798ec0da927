import CoflowSim.Client.Cluster
import CoflowSim.Client.TaskCodec
import Mathlib.Algebra.Order.BigOperators.Group.Finset

namespace CoflowSim
open Lib

/-- How `Sender::run` comes to an end: it sets `SEND_END`, having given the
kernel this many bytes, it leaves the program after a failed `send`, or an
`int` has overflown. -/
inductive SenderEnd
  | sendEnd (taken : Nat)
  | exited
  | undefined
deriving DecidableEq

namespace Sender

/-- `while (sended_MB++ < flowSizeKB)`, over what its sends return; `none` is -1. -/
def loop (flowSizeKB : CInt) (kernel : Nat → Option Nat) (sended_MB : Int) (taken : Nat) : SenderEnd :=
  -- the comparison increments, also when it fails
  if 2147483647 ≤ sended_MB then .undefined
  else if sended_MB < flowSizeKB.val then
    match kernel sended_MB.toNat with
    | none => .exited
    | some count => loop flowSizeKB kernel (sended_MB + 1) (taken + count)
  else .sendEnd taken
termination_by (flowSizeKB.val - sended_MB).toNat

def run (flow_size_MB : Rat) (kernel : Nat → Option Nat) : SenderEnd :=
  match flowSizeKB flow_size_MB with
  | none => .undefined
  | some flowSizeKB => loop flowSizeKB kernel 0 0

/-- The loop makes a call for each KB and counts the calls. -/
theorem loop_eq {flowSizeKB : CInt} (kernel : Nat → Nat) {k n : Nat} (whole : flowSizeKB.val = n) (within : k ≤ n) :
    loop flowSizeKB (fun i => some (kernel i)) k (∑ i ∈ Finset.range k, kernel i) =
      if n ≤ 2147483646 then .sendEnd (∑ i ∈ Finset.range n, kernel i) else .undefined := by
  have high := flowSizeKB.property.2
  induction left : n - k generalizing k with
  | zero =>
    have done : k = n := by omega
    rw [loop, done]
    by_cases small : n ≤ 2147483646
    · rw [if_neg (by omega), if_neg (by omega), if_pos small]
    · rw [if_pos (by omega), if_neg small]
  | succ left ih =>
    rw [loop, if_neg (by omega), if_pos (by omega), Int.toNat_natCast]
    have next := ih (k := k + 1) (by omega) (by omega)
    rw [Finset.sum_range_succ, Nat.cast_succ] at next
    exact next

/-- Every send took all it was offered. -/
theorem sum_full_iff {kernel : Nat → Nat} (counts : ∀ i, kernel i ≤ SENDER_BUFFER_SIZE) (n : Nat) :
    ∑ i ∈ Finset.range n, kernel i = SENDER_BUFFER_SIZE * n ↔ ∀ i, i < n → kernel i = SENDER_BUFFER_SIZE := by
  have offered : SENDER_BUFFER_SIZE * n = ∑ _i ∈ Finset.range n, SENDER_BUFFER_SIZE := by
    rw [Finset.sum_const_nat fun _ _ => rfl, Finset.card_range, Nat.mul_comm]
  rw [offered, Finset.sum_eq_sum_iff_of_le fun i _ => counts i]
  simp only [Finset.mem_range]

/-- A flow is sent exactly if and only if every send takes all that it is
offered and the flow has few enough KB to count them. -/
theorem transmits_exactly_iff {size : Rat} (nonneg : 0 ≤ size) (kernel : Nat → Nat)
    (counts : ∀ i, 1 ≤ kernel i ∧ kernel i ≤ SENDER_BUFFER_SIZE) :
    run size (fun i => some (kernel i)) = .sendEnd (1024 * (size * 1024).floor.toNat) ↔
      (size * 1024).floor ≤ 2147483646 ∧
        ∀ i : Nat, (i : Int) < (size * 1024).floor → kernel i = SENDER_BUFFER_SIZE := by
  have product : 0 ≤ size * 1024 := by positivity
  have floorNonneg : 0 ≤ (size * 1024).floor := Rat.le_floor_iff.mpr (by exact_mod_cast product)
  have converted := flowSizeKB_eq_iff nonneg
  generalize (size * 1024).floor = whole at floorNonneg converted ⊢
  obtain ⟨n, rfl⟩ := Int.eq_ofNat_of_zero_le floorNonneg
  unfold run
  cases conversion : flowSizeKB size with
  | none =>
    have large : ¬ (n : Int) ≤ 2147483647 := fun fits => by simpa [conversion] using (converted n).mpr ⟨rfl, fits⟩
    simp only [reduceCtorEq, false_iff]
    rintro ⟨small, -⟩
    omega
  | some flowSizeKB =>
    obtain ⟨same, -⟩ := (converted flowSizeKB.val).mp (by simp [conversion])
    have ended := loop_eq kernel same.symm (Nat.zero_le n)
    rw [Finset.range_zero, Finset.sum_empty, Nat.cast_zero] at ended
    dsimp only
    rw [ended, Int.toNat_natCast]
    have full := sum_full_iff (fun i => (counts i).2) n
    rw [show SENDER_BUFFER_SIZE = 1024 from rfl] at full ⊢
    split
    · rename_i small
      simp only [SenderEnd.sendEnd.injEq, full, Nat.cast_lt, show (n : Int) ≤ 2147483646 by omega, true_and]
    · rename_i large
      simp only [reduceCtorEq, false_iff]
      rintro ⟨small, -⟩
      omega

/-- Sends that take all they are offered. -/
def fullSends (_ : Nat) : Nat := SENDER_BUFFER_SIZE

theorem transmits_exactly_iff_full :
    run (2 / 1024) (fun i => some (fullSends i)) = .sendEnd (1024 * ((2 / 1024 : Rat) * 1024).floor.toNat) ↔
      ((2 / 1024 : Rat) * 1024).floor ≤ 2147483646 ∧
        ∀ i : Nat, (i : Int) < ((2 / 1024 : Rat) * 1024).floor → fullSends i = SENDER_BUFFER_SIZE :=
  transmits_exactly_iff (by norm_num) fullSends fun _ => ⟨show 1 ≤ SENDER_BUFFER_SIZE by decide, le_rfl⟩

/-- One KB, of which the kernel takes one byte. -/
theorem short_send_is_counted :
    ¬ ∀ (size : Rat) (kernel : Nat → Nat), 0 ≤ size → (∀ i, 1 ≤ kernel i ∧ kernel i ≤ SENDER_BUFFER_SIZE) →
      run size (fun i => some (kernel i)) = .sendEnd (1024 * (size * 1024).floor.toNat) := by
  intro always
  have exact_size := always (1 / 1024) (fun _ => 1) (by norm_num) fun _ => by decide
  have oneKB : flowSizeKB (1 / 1024) = some ⟨1, by decide, by decide⟩ := by decide +kernel
  have one : (⟨1, by decide, by decide⟩ : CInt).val = ((1 : Nat) : Int) := rfl
  have ended := loop_eq (fun _ => 1) one (Nat.zero_le 1)
  rw [Finset.range_zero, Finset.sum_empty, Nat.cast_zero, if_pos (by decide), Finset.sum_range_one] at ended
  rw [run, oneKB] at exact_size
  dsimp only at exact_size
  rw [ended] at exact_size
  exact absurd (SenderEnd.sendEnd.inj exact_size) (by decide +kernel)

end Sender

end CoflowSim
