import CoflowSim.Master.CompletionAccounting

namespace CoflowSim
open Lib

namespace Coflow

/-- After each call the counter agrees with the flags, and the call returns
true exactly if it is the one that completes the coflow. -/
def Accurate (c : Coflow) (calls : List (CInt × CInt)) : Prop :=
  ∀ before flowID endtime after, calls = before ++ (flowID, endtime) :: after →
    ((c.flowEnds before).flowEnd flowID endtime).2.endflowNum =
        ((c.flowEnds before).flowEnd flowID endtime).2.endedFlows ∧
      (((c.flowEnds before).flowEnd flowID endtime).1 = true ↔
        Completes c.flowIDs (before.map Prod.fst) flowID)

theorem Fresh.flowEnds {c : Coflow} (fresh : c.Fresh) (calls : List (CInt × CInt)) :
    Account (calls.map Prod.fst) (c.flowEnds calls) := by
  simpa using Account.flowEnds fresh calls

theorem accurate_iff {c : Coflow} (fresh : c.Fresh) (calls : List (CInt × CInt)) :
    c.Accurate calls ↔ (known c.flowIDs (calls.map Prod.fst)).Nodup := by
  constructor
  · intro accurate
    rcases List.eq_nil_or_concat calls with rfl | ⟨before, ⟨flowID, endtime⟩, rfl⟩
    · exact List.nodup_nil
    · rw [List.concat_eq_append] at accurate ⊢
      obtain ⟨counter, -⟩ := accurate before flowID endtime [] rfl
      have account := fresh.flowEnds (before ++ [(flowID, endtime)])
      rw [← c.flowEnds_snoc before (flowID, endtime), account.counter, account.endedFlows, flowEnds_flowIDs] at counter
      exact (length_known_eq_iff c.flowIDs_nodup).mp counter
  · rintro once before flowID endtime after rfl
    have account := fresh.flowEnds before
    have last := account.flowEnd flowID endtime
    have upTo : (known c.flowIDs (before.map Prod.fst ++ [flowID])).Nodup := by
      rw [List.map_append, List.map_cons, List.append_cons, known_append] at once
      exact once.of_append_left
    constructor
    · rw [last.counter, last.endedFlows, flowEnd_flowIDs, flowEnds_flowIDs,
        (length_known_eq_iff c.flowIDs_nodup).mpr upTo]
    · rw [account.flowEnd_result, flowEnds_flowIDs, fires_iff_completes c.flowIDs_nodup upTo]

end Coflow

namespace Scheduler

/-- No coflow is counted as finished while one of its flows is unreported, and
none is counted twice. -/
def CountsOnce (coflows : List Coflow) (reports : List Report) : Prop :=
  ∀ i c, coflows[i]? = some c →
    (∀ before r after, reports = before ++ r :: after → taker coflows r.info.coflowID = some i →
      r.line.isSome = true → Covers c.flowIDs (routed coflows i (before ++ [r]))) ∧
    reports.countP (fun r => taker coflows r.info.coflowID = some i ∧ r.line.isSome = true) ≤ 1

/-- Every known report from the last flow on is counted. -/
theorem countP_lines {coflows : List Coflow} {i : Nat} {c : Coflow} (atI : coflows[i]? = some c)
    {reports : List Report} (lines : ∀ before r after, reports = before ++ r :: after →
      (r.line.isSome = true ↔ Closes coflows before r.info)) :
    reports.countP (fun r => taker coflows r.info.coflowID = some i ∧ r.line.isSome = true) =
      (known c.flowIDs (routed coflows i reports)).length - (c.flowIDs.length - 1) := by
  induction reports using List.reverseRecOn with
  | nil => simp [routed, known]
  | append_singleton before r ih =>
    have last := lines before r [] rfl
    have earlier := ih fun b x a split => lines b x (a ++ [r]) (by rw [split]; simp)
    rw [List.countP_append, earlier, List.countP_singleton, routed_snoc]
    by_cases takes : taker coflows r.info.coflowID = some i
    · have closes : r.line.isSome = true ↔ Fires c.flowIDs (routed coflows i before) r.info.flowID := by
        rw [last]
        constructor
        · rintro ⟨j, d, takes', atJ, fires⟩
          rw [takes] at takes'
          cases takes'
          rw [atI] at atJ
          cases atJ
          exact fires
        · exact fun fires => ⟨i, c, takes, atI, fires⟩
      simp only [takes, true_and, closes, if_true, known_snoc, List.length_append, decide_eq_true_eq, Fires]
      by_cases knows : r.info.flowID ∈ c.flowIDs
      · have some_flow : 0 < c.flowIDs.length := List.length_pos_of_mem knows
        simp only [knows, true_and, if_true, List.length_singleton]
        split <;> omega
      · simp [knows]
    · simp [takes]

theorem countsOnce_iff {coflows : List Coflow} {s : Scheduler} (tracks : Tracks coflows s) :
    CountsOnce coflows s.reports ↔ ∀ i c, coflows[i]? = some c →
      (known c.flowIDs (routed coflows i s.reports)).length < c.flowIDs.length ∨
        (known c.flowIDs (routed coflows i s.reports)).Nodup := by
  refine forall₃_congr fun i c atI => ?_
  have counted := countP_lines atI tracks.lines
  rw [counted]
  have few : reached c.flowIDs (routed coflows i s.reports) ≤ _ := reached_le c.flowIDs_nodup
  constructor
  · rintro ⟨covered, atMostOne⟩
    by_cases short : (known c.flowIDs (routed coflows i s.reports)).length < c.flowIDs.length
    · exact Or.inl short
    right
    by_cases empty : c.flowIDs = []
    · simp [known, empty]
    have some_flow : 0 < c.flowIDs.length := List.length_pos_iff.mpr empty
    obtain ⟨r, member, counts⟩ := List.countP_pos_iff.mp (show 0 < s.reports.countP _ by rw [counted]; omega)
    obtain ⟨takes, line⟩ : taker coflows r.info.coflowID = some i ∧ r.line.isSome = true := by simpa using counts
    obtain ⟨before, after, split⟩ := List.append_of_mem member
    have covers : Covers c.flowIDs (routed coflows i s.reports) := by
      refine (covered before r after split takes line).mono fun k inside => ?_
      rw [split, List.append_cons, routed_append]
      exact List.mem_append_left _ inside
    refine (length_known_eq_iff c.flowIDs_nodup).mp ?_
    have := covers_iff_reached.mp covers
    omega
  · rintro (short | once)
    · have nothing : s.reports.countP
          (fun r => taker coflows r.info.coflowID = some i ∧ r.line.isSome = true) = 0 := by
        rw [counted]
        omega
      refine ⟨fun before r after split takes line => ?_, by omega⟩
      have := List.countP_eq_zero.mp nothing r (by simp [split])
      simp [takes, line] at this
    · have bound : (known c.flowIDs (routed coflows i s.reports)).length ≤ c.flowIDs.length := by
        rw [(length_known_eq_iff c.flowIDs_nodup).mpr once]
        exact List.countP_le_length
      refine ⟨fun before r after split takes line => ?_, by omega⟩
      obtain ⟨j, d, takes', atJ, fires⟩ := (tracks.lines before r after split).mp line
      rw [takes] at takes'
      cases takes'
      rw [atI] at atJ
      cases atJ
      rw [split, List.append_cons, routed_append, routed_snoc, if_pos takes, known_append] at once
      rw [routed_snoc, if_pos takes]
      exact ((fires_iff_completes c.flowIDs_nodup once.of_append_left).mp fires).1

end Scheduler

/-- Completion accounting is right exactly for reports that do not repeat a
flow: within a coflow, for the counter, the flags and the results of `flowEnd`;
in a run of the scheduler, for every coflow that has as many reports as flows. -/
theorem accounting_iff_unrepeated {c : Coflow} (fresh : c.Fresh) (calls : List (CInt × CInt)) {coflows : List Coflow}
    (allFresh : ∀ c ∈ coflows, c.Fresh) {machines : MachineManager} {startTime : Int} {rounds : List Round}
    {t : Scheduler} (ran : (Scheduler.init coflows machines startTime).run rounds = some t) :
    (c.Accurate calls ↔ (known c.flowIDs (calls.map Prod.fst)).Nodup) ∧
      (Scheduler.CountsOnce coflows t.reports ↔ ∀ i c, coflows[i]? = some c →
        (known c.flowIDs (routed coflows i t.reports)).length < c.flowIDs.length ∨
          (known c.flowIDs (routed coflows i t.reports)).Nodup) :=
  ⟨Coflow.accurate_iff fresh calls,
    Scheduler.countsOnce_iff ((Scheduler.tracks_init allFresh machines startTime).run ran)⟩

/-- A coflow with the flows 0 and 1. -/
def twoFlows : Coflow :=
  ((Coflow.create (.clamp 7) 0).addFlow (.clamp 0) (.clamp 0) (.clamp 0) 2).addFlow (.clamp 1) (.clamp 0) (.clamp 0) 3

theorem twoFlows_fresh : twoFlows.Fresh :=
  (Coflow.fresh_create ..).addFlow .. |>.addFlow ..

/-- A run of one iteration in which one machine reports both flows. -/
def twoReports : Option Scheduler :=
  (Scheduler.init [twoFlows] ((MachineManager.init.setLogicMachineNum 1).addOnePhysicsMachine [49] 80).2 0).run
    [⟨0, fun _ => 9, [.accepted 1024, .eagain], [[⟨.clamp 7, .clamp 0, .clamp 5⟩, ⟨.clamp 7, .clamp 1, .clamp 6⟩]]⟩]

theorem accounting_iff_unrepeated_two :
    (twoFlows.Accurate [(.clamp 0, .clamp 5), (.clamp 1, .clamp 6)] ↔
      (known twoFlows.flowIDs [.clamp 0, .clamp 1]).Nodup) ∧
    (Scheduler.CountsOnce [twoFlows] (twoReports.get (by decide +kernel)).reports ↔
      ∀ i c, [twoFlows][i]? = some c →
        (known c.flowIDs (routed [twoFlows] i (twoReports.get (by decide +kernel)).reports)).length < c.flowIDs.length ∨
          (known c.flowIDs (routed [twoFlows] i (twoReports.get (by decide +kernel)).reports)).Nodup) :=
  accounting_iff_unrepeated twoFlows_fresh [(.clamp 0, .clamp 5), (.clamp 1, .clamp 6)]
    (show ∀ c ∈ [twoFlows], c.Fresh by simpa using twoFlows_fresh) (Option.some_get _).symm

/-- Flow 0 reported twice: the second call returns true while flow 1 is
unreported. -/
theorem repeated_report_completes :
    ¬ ∀ (c : Coflow) (calls : List (CInt × CInt)), c.Fresh → c.flowIDs ≠ [] → c.Accurate calls := by
  intro always
  have accurate := always twoFlows [(.clamp 0, .clamp 5), (.clamp 0, .clamp 6)] twoFlows_fresh (by decide)
  obtain ⟨-, completes⟩ := accurate [(.clamp 0, .clamp 5)] (.clamp 0) (.clamp 6) [] rfl
  have covered := (completes.mp (by decide)).1
  exact absurd covered (by decide)

end CoflowSim
