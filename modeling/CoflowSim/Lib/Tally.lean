import Mathlib.Data.List.Dedup
import Mathlib.Data.Finset.Card
import Mathlib.Data.Finset.Basic

namespace Lib

universe u

/-- The places of the elements that pass a test, numbered from 0. -/
theorem exists_places {α : Type u} (l : List α) (test : α → Bool) : ∃ place : Nat → Nat,
    (∀ j < l.countP test, ∃ a, l[place j]? = some a ∧ test a = true) ∧
      ∀ i < l.countP test, ∀ j < l.countP test, place i = place j → i = j := by
  induction l using List.reverseRecOn with
  | nil => exact ⟨id, by simp, by simp⟩
  | append_singleton l a ih =>
    obtain ⟨place, places, apart⟩ := ih
    have inside {j : Nat} (below : j < l.countP test) : place j < l.length := by
      obtain ⟨b, atJ, -⟩ := places j below
      exact (List.getElem?_eq_some_iff.mp atJ).1
    have count : (l ++ [a]).countP test = l.countP test + if test a then 1 else 0 := by
      rw [List.countP_append, List.countP_singleton]
    have last {j : Nat} (below : j < (l ++ [a]).countP test) (new : ¬ j < l.countP test) :
        j = l.countP test ∧ test a = true := by
      by_cases passes : test a = true
      · rw [count, if_pos passes] at below
        exact ⟨by omega, passes⟩
      · rw [count, if_neg passes] at below
        omega
    refine ⟨fun j => if j < l.countP test then place j else l.length, fun j below => ?_,
      fun i belowI j belowJ same => ?_⟩
    · by_cases old : j < l.countP test
      · obtain ⟨b, atJ, passes⟩ := places j old
        simp only [if_pos old]
        exact ⟨b, (List.getElem?_append_left (inside old)).trans atJ, passes⟩
      · simp only [if_neg old]
        exact ⟨a, by simp, (last below old).2⟩
    · by_cases oldI : i < l.countP test <;> by_cases oldJ : j < l.countP test
      · simp only [if_pos oldI, if_pos oldJ] at same
        exact apart i oldI j oldJ same
      · simp only [if_pos oldI, if_neg oldJ] at same
        exact absurd (inside oldI) (by omega)
      · simp only [if_neg oldI, if_pos oldJ] at same
        exact absurd (inside oldJ) (by omega)
      · exact (last belowI oldI).1.trans (last belowJ oldJ).1.symm

variable {α : Type u} [DecidableEq α]

/-- The reports of a sequence that name something expected. -/
def known (expected reports : List α) : List α := reports.filter (· ∈ expected)

/-- How many of the expected ones have been reported. -/
def reached (expected reports : List α) : Nat := expected.countP (· ∈ reports)

/-- Every expected one has been reported. -/
def Covers (expected reports : List α) : Prop := ∀ k ∈ expected, k ∈ reports

/-- The last report is the one that makes the sequence cover the expected. -/
def Completes (expected before : List α) (report : α) : Prop :=
  Covers expected (before ++ [report]) ∧ ¬ Covers expected before

/-- What a counter of reports takes for the completing one: an expected report
with which the count is at its limit or beyond. -/
def Fires (expected before : List α) (report : α) : Prop :=
  report ∈ expected ∧ expected.length ≤ (known expected before).length + 1

instance (expected reports : List α) : Decidable (Covers expected reports) :=
  inferInstanceAs (Decidable (∀ k ∈ expected, k ∈ reports))

variable {expected reports : List α} {report : α}

theorem mem_known {k : α} : k ∈ known expected reports ↔ k ∈ reports ∧ k ∈ expected := by
  simp [known]

theorem known_append (more : List α) :
    known expected (reports ++ more) = known expected reports ++ known expected more :=
  List.filter_append ..

theorem known_snoc : known expected (reports ++ [report]) =
    known expected reports ++ if report ∈ expected then [report] else [] := by
  rw [known_append]
  congr 1
  by_cases expects : report ∈ expected <;> simp [known, expects]

/-- Distinct expected ones are counted once each, however often they are
reported. -/
theorem reached_eq_card (distinct : expected.Nodup) :
    reached expected reports = (known expected reports).toFinset.card := by
  have same : (known expected reports).toFinset = (expected.filter (· ∈ reports)).toFinset := by
    ext k
    simp only [List.mem_toFinset, mem_known, List.mem_filter, decide_eq_true_eq, and_comm]
  rw [same, List.toFinset_card_of_nodup (distinct.filter _), reached, List.countP_eq_length_filter]

theorem reached_le (distinct : expected.Nodup) : reached expected reports ≤ (known expected reports).length := by
  rw [reached_eq_card distinct]
  exact List.toFinset_card_le _

/-- Counting reports counts the reported ones exactly when none of them is
reported twice. -/
theorem length_known_eq_iff (distinct : expected.Nodup) :
    (known expected reports).length = reached expected reports ↔ (known expected reports).Nodup := by
  rw [reached_eq_card distinct]
  constructor
  · intro same
    exact Multiset.toFinset_card_eq_card_iff_nodup.mp same.symm
  · exact fun once => (List.toFinset_card_of_nodup once).symm

theorem covers_iff_reached : Covers expected reports ↔ reached expected reports = expected.length := by
  rw [reached, List.countP_eq_length]
  simp only [decide_eq_true_eq, Covers]

/-- Without repeated reports, the count says whether everything is covered. -/
theorem covers_iff_length (distinct : expected.Nodup) (once : (known expected reports).Nodup) :
    Covers expected reports ↔ expected.length ≤ (known expected reports).length := by
  have below : reached expected reports ≤ expected.length := List.countP_le_length
  rw [covers_iff_reached, (length_known_eq_iff distinct).mpr once]
  omega

omit [DecidableEq α] in
theorem Covers.mono {more : List α} (covers : Covers expected reports) (kept : ∀ k ∈ reports, k ∈ more) :
    Covers expected more :=
  fun k expects => kept k (covers k expects)

/-- Without repeated reports, the counter fires exactly on the report that
completes. -/
theorem fires_iff_completes (distinct : expected.Nodup) (once : (known expected (reports ++ [report])).Nodup) :
    Fires expected reports report ↔ Completes expected reports report := by
  have before : (known expected reports).Nodup := by
    rw [known_append] at once
    exact once.of_append_left
  have bound : (known expected (reports ++ [report])).length ≤ expected.length := by
    rw [(length_known_eq_iff distinct).mpr once]
    exact List.countP_le_length
  rw [Completes, covers_iff_length distinct once, covers_iff_length distinct before, Fires]
  rw [known_snoc, List.length_append] at bound ⊢
  by_cases expects : report ∈ expected
  · simp only [expects, if_true, List.length_singleton, true_and] at bound ⊢
    omega
  · simp only [expects, if_false, List.length_nil, Nat.add_zero, false_and, false_iff]
    omega

end Lib
