import CoflowSim.Master.CompletionOrder
import CoflowSim.Master.RepeatedReports
import CoflowSim.Master.TraceProducer
import Mathlib.Algebra.BigOperators.Fin

namespace CoflowSim
open Lib

/-- How many flows of the coflows with the ID of `c` bear the ID of a flow of
`c`. -/
def shared (coflows : List Coflow) (c : Coflow) : Nat :=
  ∑ j : Fin coflows.length, if coflows[j].coflowID = c.coflowID then
    (known c.flowIDs coflows[j].flowIDs).length else 0

/-- How often `flowEnd` returns true when every flow of the list is reported
once: for the first coflow with an ID, on every report that it knows from its
last flow on; for the others, never. -/
def endings (coflows : List Coflow) : Nat :=
  ∑ i : Fin coflows.length, if taker coflows coflows[i].coflowID = some i.val then
    shared coflows coflows[i] - (coflows[i].getFlowsNum - 1) else 0

/-- The IDs of every coflow and of its flows. -/
def flowsOf (coflows : List Coflow) : List (CInt × CInt) :=
  coflows.flatMap fun c => c.flowIDs.map fun flowID => (c.coflowID, flowID)

/-- Every flow of every coflow has been reported, once. -/
def AllReported (coflows : List Coflow) (reports : List Report) : Prop :=
  (reports.map fun r => (r.info.coflowID, r.info.flowID)).Perm (flowsOf coflows)

instance (coflows : List Coflow) (reports : List Report) : Decidable (AllReported coflows reports) :=
  inferInstanceAs (Decidable (List.Perm _ _))

theorem taker_lt {coflows : List Coflow} {coflowID : CInt} {i : Nat} (takes : taker coflows coflowID = some i) :
    i < coflows.length := by
  obtain ⟨c, atI, -⟩ := taker_eq_some_iff.mp takes
  exact (List.getElem?_eq_some_iff.mp atI).1

/-- The records that a coflow gets and knows, when every flow is reported once. -/
theorem known_of_allReported {coflows : List Coflow} {reports : List Report} (all : AllReported coflows reports)
    (i : Fin coflows.length) : (known coflows[i].flowIDs (routed coflows i reports)).length =
      if taker coflows coflows[i].coflowID = some i.val then shared coflows coflows[i] else 0 := by
  have counted : (known coflows[i].flowIDs (routed coflows i reports)).length =
      (reports.map fun r => (r.info.coflowID, r.info.flowID)).countP fun p =>
        taker coflows p.1 = some i.val ∧ p.2 ∈ coflows[i].flowIDs := by
    rw [known, routed, List.filter_map, List.length_map, List.filter_filter, ← List.countP_eq_length_filter,
      List.countP_map]
    refine List.countP_congr fun r _ => ?_
    simp [and_comm]
  have perOther (d : Coflow) : (d.flowIDs.map fun flowID => (d.coflowID, flowID)).countP (fun p =>
      taker coflows p.1 = some i.val ∧ p.2 ∈ coflows[i].flowIDs) =
        if taker coflows d.coflowID = some i.val then (known coflows[i].flowIDs d.flowIDs).length else 0 := by
    rw [List.countP_map, known, ← List.countP_eq_length_filter]
    split
    · rename_i takes
      refine List.countP_congr fun flowID _ => ?_
      simp [takes]
    · rename_i others
      simp [others]
  rw [counted, all.countP_eq, flowsOf, List.countP_flatMap]
  simp only [Function.comp_def, perOther]
  rw [← Fin.sum_univ_fun_getElem]
  split
  · rename_i takes
    refine Finset.sum_congr rfl fun j _ => ?_
    obtain ⟨c, atI, -, first⟩ := taker_eq_some_iff.mp takes
    have same : taker coflows coflows[j].coflowID = some i.val ↔ coflows[j].coflowID = coflows[i].coflowID := by
      constructor
      · intro takes'
        obtain ⟨d, atI', ids, -⟩ := taker_eq_some_iff.mp takes'
        rw [← ids]
        have here : coflows[i.val]? = some coflows[i] := List.getElem?_eq_getElem i.isLt
        rw [here] at atI'
        cases atI'
        rfl
      · intro ids
        rw [ids]
        exact takes
    by_cases here : coflows[j].coflowID = coflows[i].coflowID
    · rw [if_pos here]
      exact if_pos (same.mpr here)
    · rw [if_neg here]
      exact if_neg (mt same.mp here)
  · rename_i notFirst
    refine Finset.sum_eq_zero fun j _ => if_neg fun takes => notFirst ?_
    obtain ⟨d, atI, ids, first⟩ := taker_eq_some_iff.mp takes
    have here : coflows[i.val]? = some coflows[i] := List.getElem?_eq_getElem i.isLt
    rw [here] at atI
    cases atI
    rw [ids]
    exact takes

namespace Scheduler

/-- Every line is one of the coflow that takes its record. -/
theorem loggedNum_eq_sum {coflows : List Coflow} {reports : List Report}
    (lines : ∀ before r after, reports = before ++ r :: after →
      (r.line.isSome = true ↔ Closes coflows before r.info)) :
    loggedNum reports = ∑ i : Fin coflows.length,
      reports.countP fun r => taker coflows r.info.coflowID = some i.val ∧ r.line.isSome = true := by
  have taken : ∀ r ∈ reports, r.line.isSome = true → ∃ i, taker coflows r.info.coflowID = some i := by
    intro r member line
    obtain ⟨before, after, split⟩ := List.append_of_mem member
    obtain ⟨i, -, takes, -⟩ := (lines before r after split).mp line
    exact ⟨i, takes⟩
  clear lines
  induction reports with
  | nil => simp [loggedNum]
  | cons r rest ih =>
    have later := ih fun x member => taken x (List.mem_cons_of_mem _ member)
    simp only [loggedNum, List.countP_cons] at later ⊢
    rw [Finset.sum_add_distrib, later]
    congr 1
    by_cases line : r.line.isSome = true
    · obtain ⟨i, takes⟩ := taken r (by simp) line
      have only (j : Fin coflows.length) : (some i = some j.val) ↔ (⟨i, taker_lt takes⟩ : Fin coflows.length) = j := by
        rw [Option.some.injEq, Fin.ext_iff]
      simp [line, takes, only]
    · simp [line]

theorem loggedNum_of_allReported {coflows : List Coflow} {s : Scheduler} (tracks : Tracks coflows s)
    (all : AllReported coflows s.reports) : loggedNum s.reports = endings coflows := by
  rw [loggedNum_eq_sum tracks.lines, endings]
  refine Finset.sum_congr rfl fun i _ => ?_
  have here : coflows[i.val]? = some coflows[i] := List.getElem?_eq_getElem i.isLt
  have flows : coflows[i].flowIDs.length = coflows[i].getFlowsNum := OrderedMap.keys_length _
  rw [countP_lines here tracks.lines, known_of_allReported all i, flows]
  split
  · rfl
  · exact Nat.zero_sub _

/-- The last record with a line. -/
theorem exists_last_logged {reports : List Report} (some_line : 0 < loggedNum reports) :
    ∃ before r after, reports = before ++ r :: after ∧ r.line.isSome = true ∧
      loggedNum (before ++ [r]) = loggedNum reports := by
  induction reports using List.reverseRecOn with
  | nil => simp [loggedNum] at some_line
  | append_singleton earlier r ih =>
    by_cases line : r.line.isSome = true
    · exact ⟨earlier, r, [], rfl, line, rfl⟩
    · have same : loggedNum (earlier ++ [r]) = loggedNum earlier := by
        rw [loggedNum_snoc, if_neg line, Nat.add_zero]
      rw [same] at some_line ⊢
      obtain ⟨before, x, after, split, logged, count⟩ := ih some_line
      exact ⟨before, x, after ++ [r], by rw [split, List.append_assoc, List.cons_append], logged, count⟩

/-- The loop has returned once there are as many lines as coflows. -/
theorem Tracks.returned_iff {coflows : List Coflow} {s : Scheduler} (tracks : Tracks coflows s) :
    s.returned = true ↔ 0 < coflows.length ∧ coflows.length ≤ loggedNum s.reports := by
  rw [tracks.halts]
  constructor
  · rintro ⟨before, r, split, line, enough⟩
    obtain ⟨i, _, takes, -⟩ := (tracks.lines before r [] split).mp line
    exact ⟨lt_of_le_of_lt (Nat.zero_le i) (taker_lt takes), enough⟩
  · rintro ⟨nonempty, enough⟩
    obtain ⟨before, r, after, split, line, count⟩ := exists_last_logged (lt_of_lt_of_le nonempty enough)
    by_cases last : after = []
    · subst last
      exact ⟨before, r, split, line, enough⟩
    · have short := tracks.goes before r after split last line
      omega

end Scheduler

/-- With distinct IDs a coflow ends once if it has a flow, and never if not. -/
theorem endings_of_distinct {coflows : List Coflow} (distinct : (coflows.map fun c => c.coflowID).Nodup) :
    endings coflows = ∑ i : Fin coflows.length, if 0 < coflows[i].getFlowsNum then 1 else 0 := by
  refine Finset.sum_congr rfl fun i _ => ?_
  have here : coflows[i.val]? = some coflows[i] := List.getElem?_eq_getElem i.isLt
  have takes : taker coflows coflows[i].coflowID = some i.val := (taker_of_distinct distinct here _).mpr rfl
  have own : shared coflows coflows[i] = coflows[i].getFlowsNum := by
    rw [shared, Finset.sum_eq_single i]
    · have whole : known coflows[i].flowIDs coflows[i].flowIDs = coflows[i].flowIDs := by
        rw [known, List.filter_eq_self]
        simp
      rw [if_pos rfl, whole]
      exact OrderedMap.keys_length _
    · intro j _ other
      refine if_neg fun same => other (Fin.ext ?_)
      have takes' := (taker_of_distinct distinct (List.getElem?_eq_getElem j.isLt) _).mpr same.symm
      exact Option.some.inj (takes'.symm.trans takes)
    · exact fun absent => absurd (Finset.mem_univ i) absent
  rw [if_pos takes, own]
  split <;> omega

theorem all_end_iff {coflows : List Coflow} (distinct : (coflows.map fun c => c.coflowID).Nodup) :
    coflows.length ≤ endings coflows ↔ ∀ c ∈ coflows, 0 < c.getFlowsNum := by
  rw [endings_of_distinct distinct, ← Finset.card_filter]
  constructor
  · intro enough c member
    have full : Finset.univ.filter (fun i : Fin coflows.length => 0 < coflows[i].getFlowsNum) = Finset.univ := by
      refine Finset.eq_univ_of_card _ (le_antisymm (Finset.card_le_univ _) ?_)
      rwa [Fintype.card_fin]
    obtain ⟨i, inside, rfl⟩ := List.mem_iff_getElem.mp member
    have filtered := full ▸ Finset.mem_univ (⟨i, inside⟩ : Fin coflows.length)
    exact (Finset.mem_filter.mp filtered).2
  · intro flows
    have full : Finset.univ.filter (fun i : Fin coflows.length => 0 < coflows[i].getFlowsNum) = Finset.univ :=
      Finset.filter_true_of_mem fun i _ => flows _ (List.getElem_mem i.isLt)
    rw [full, Finset.card_univ, Fintype.card_fin]

/-- When every flow of a prepared list has been reported once, the loop has
returned exactly if the list is not empty and `flowEnd` has returned true as
often as there are coflows; with distinct IDs, exactly if the list is not empty
and every coflow has a flow. -/
theorem returned_iff_endings {file : List Byte} {ports : CInt} {coflows : List Coflow}
    (prepared : TraceProducer.prepareCoflows file = some (ports, coflows)) {mm : MachineManager} {startTime : Int}
    {rounds : List Round} {s : Scheduler} (ran : (Scheduler.init coflows mm startTime).run rounds = some s)
    (all : AllReported coflows s.reports) :
    (s.returned = true ↔ coflows ≠ [] ∧ coflows.length ≤ endings coflows) ∧
      ((coflows.map fun c => c.coflowID).Nodup →
        (s.returned = true ↔ coflows ≠ [] ∧ ∀ c ∈ coflows, 0 < c.getFlowsNum)) := by
  have fresh : ∀ c ∈ coflows, c.Fresh := fun c member => (TraceProducer.prepareCoflows_built prepared c member).fresh
  have tracks := (Scheduler.tracks_init fresh mm startTime).run ran
  have returned : s.returned = true ↔ coflows ≠ [] ∧ coflows.length ≤ endings coflows := by
    rw [tracks.returned_iff, Scheduler.loggedNum_of_allReported tracks all, List.length_pos_iff]
  exact ⟨returned, fun distinct => by rw [returned, all_end_iff distinct]⟩

/-- `1 1` and `5 0 1 0 1 0:1` -/
def oneLine : List Byte := [49, 32, 49, 10, 53, 32, 48, 32, 49, 32, 48, 32, 49, 32, 48, 58, 49, 10]

/-- `1 1` and `5 0 0 1 0:1` -/
def noMapper : List Byte := [49, 32, 49, 10, 53, 32, 48, 32, 48, 32, 49, 32, 48, 58, 49, 10]

/-- One iteration over the coflows that a file prepares. -/
def oneRound (file : List Byte) (arrivals : List (List FlowEndInfo)) : Option (List Coflow × Scheduler) := do
  let (_, coflows) ← TraceProducer.prepareCoflows file
  let s ← (Scheduler.init coflows twoMachines 0).run [⟨0, fun _ => 9, [.accepted 100], arrivals⟩]
  some (coflows, s)

theorem oneRound_run {file : List Byte} {arrivals : List (List FlowEndInfo)} {coflows : List Coflow} {s : Scheduler}
    (ran : oneRound file arrivals = some (coflows, s)) :
    (∃ ports, TraceProducer.prepareCoflows file = some (ports, coflows)) ∧
      (Scheduler.init coflows twoMachines 0).run [⟨0, fun _ => 9, [.accepted 100], arrivals⟩] = some s := by
  obtain ⟨⟨ports, coflows'⟩, prepared, rest⟩ := Option.bind_eq_some_iff.mp ran
  obtain ⟨s', run, made⟩ := Option.bind_eq_some_iff.mp rest
  cases made
  exact ⟨⟨ports, prepared⟩, run⟩

/-- The run returns on the report of the only flow. -/
theorem returned_iff_endings_one : ∃ (coflows : List Coflow) (s : Scheduler),
    AllReported coflows s.reports ∧ s.returned = true ∧
      (s.returned = true ↔ coflows ≠ [] ∧ coflows.length ≤ endings coflows) := by
  have ran : (oneRound oneLine [[⟨.clamp 5, .clamp 0, .clamp 7⟩]]).any (fun p : List Coflow × Scheduler =>
      decide (AllReported p.1 p.2.reports) && p.2.returned) = true := by decide +kernel
  obtain ⟨⟨coflows, s⟩, run, checked⟩ := (Option.any_eq_true _ _).mp ran
  obtain ⟨⟨ports, prepared⟩, run⟩ := oneRound_run run
  rw [Bool.and_eq_true, decide_eq_true_eq] at checked
  exact ⟨coflows, s, checked.1, checked.2, (returned_iff_endings prepared run checked.1).1⟩

/-- A coflow without mappers has no report, and the loop does not return. -/
theorem empty_coflow_never_ends :
    ¬ ∀ (file : List Byte) (ports : CInt) (coflows : List Coflow) (mm : MachineManager) (startTime : Int)
      (rounds : List Round) (s : Scheduler), TraceProducer.prepareCoflows file = some (ports, coflows) →
      (Scheduler.init coflows mm startTime).run rounds = some s → s.registerIndex = coflows.length →
      (∀ c ∈ s.sCoflows, c.coflowState = .runninged) → AllReported coflows s.reports → s.returned = true := by
  intro always
  have ran : (oneRound noMapper []).any (fun p : List Coflow × Scheduler =>
      decide (p.2.registerIndex = p.1.length) && decide (∀ c ∈ p.2.sCoflows, c.coflowState = .runninged) &&
        decide (AllReported p.1 p.2.reports) && !p.2.returned) = true := by decide +kernel
  obtain ⟨⟨coflows, s⟩, run, checked⟩ := (Option.any_eq_true _ _).mp ran
  obtain ⟨⟨ports, prepared⟩, run⟩ := oneRound_run run
  simp only [Bool.and_eq_true, decide_eq_true_eq, Bool.not_eq_true'] at checked
  obtain ⟨⟨⟨registered, dispatched⟩, all⟩, going⟩ := checked
  have returned := always _ _ _ _ _ _ _ prepared run registered dispatched all
  rw [going] at returned
  cases returned

end CoflowSim
