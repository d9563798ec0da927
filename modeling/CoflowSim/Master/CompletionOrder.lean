import CoflowSim.Master.CompletionAccounting

namespace CoflowSim
open Lib

/-- The IDs of the logged coflows, in the order of their lines. -/
def logged (reports : List Report) : List CInt := reports.filterMap fun r => r.line.map fun line => line.coflowID

/-- The flows that `records` report under the coflow's ID. -/
def reportedFlows (c : Coflow) (records : List FlowEndInfo) : List CInt :=
  (records.filter fun info => info.coflowID = c.coflowID).map fun info => info.flowID

/-- No flow of a coflow of the list is reported more than once. -/
def ReportedOnce (coflows : List Coflow) (records : List FlowEndInfo) : Prop :=
  ∀ c ∈ coflows, ∀ flowID ∈ c.flowIDs,
    records.countP (fun info => info.coflowID = c.coflowID ∧ info.flowID = flowID) ≤ 1

/-- The record reports the last unreported flow of a coflow of the list. -/
def ReportsLast (coflows : List Coflow) (before : List FlowEndInfo) (info : FlowEndInfo) : Prop :=
  ∃ c ∈ coflows, c.coflowID = info.coflowID ∧ Completes c.flowIDs (reportedFlows c before) info.flowID

/-- What the rounds bring to `n` machines, in the order in which they are
polled. -/
def delivered (n : Nat) (rounds : List Round) : List FlowEndInfo :=
  rounds.flatMap fun round => (round.arrivals.take n).flatten

def Scheduler.taken (s : Scheduler) : List FlowEndInfo := s.reports.map fun r => r.info

/-- A run of the scheduler over some rounds, on machines with empty queues,
that brings the given records. -/
def RunsTo (coflows : List Coflow) (records : List FlowEndInfo) (t : Scheduler) : Prop :=
  ∃ machines startTime rounds, (Scheduler.init coflows machines startTime).run rounds = some t ∧
    (∀ m ∈ machines.m_physicsMachines, m.flowsFinishedInfo = []) ∧
    records = delivered machines.m_physicsMachines.length rounds

theorem reportedFlows_append (c : Coflow) (records more : List FlowEndInfo) :
    reportedFlows c (records ++ more) = reportedFlows c records ++ reportedFlows c more := by
  simp [reportedFlows]

theorem reportedFlows_snoc (c : Coflow) (records : List FlowEndInfo) (info : FlowEndInfo) :
    reportedFlows c (records ++ [info]) =
      reportedFlows c records ++ if info.coflowID = c.coflowID then [info.flowID] else [] := by
  rw [reportedFlows_append]
  by_cases same : info.coflowID = c.coflowID <;> simp [reportedFlows, same]

theorem reportedFlows_subset {c : Coflow} {records more : List FlowEndInfo} (kept : ∀ info ∈ records, info ∈ more) :
    ∀ k ∈ reportedFlows c records, k ∈ reportedFlows c more := by
  intro k member
  obtain ⟨info, inside, rfl⟩ := List.mem_map.mp member
  obtain ⟨old, same⟩ := List.mem_filter.mp inside
  exact List.mem_map_of_mem (List.mem_filter.mpr ⟨kept info old, same⟩)

theorem known_nodup {coflows : List Coflow} {records : List FlowEndInfo} (once : ReportedOnce coflows records)
    {c : Coflow} (member : c ∈ coflows) : (known c.flowIDs (reportedFlows c records)).Nodup := by
  rw [List.nodup_iff_count_le_one]
  intro flowID
  by_cases knows : flowID ∈ c.flowIDs
  · have counts : (known c.flowIDs (reportedFlows c records)).count flowID =
        records.countP fun info => info.coflowID = c.coflowID ∧ info.flowID = flowID := by
      rw [known, reportedFlows, List.count_filter (by simpa using knows), List.count, List.countP_map,
        List.countP_filter]
      refine List.countP_congr fun info _ => ?_
      simp [Subtype.val_inj, and_comm]
    rw [counts]
    exact once c member flowID knows
  · rw [List.count_eq_zero.mpr]
    · exact Nat.zero_le 1
    · exact fun inside => knows (mem_known.mp inside).2

theorem ReportedOnce.sublist {coflows : List Coflow} {records more : List FlowEndInfo}
    (once : ReportedOnce coflows more) (fewer : records.Sublist more) : ReportedOnce coflows records :=
  fun c member flowID knows => (fewer.countP_le).trans (once c member flowID knows)

/-- With distinct IDs, a coflow takes all the records under its ID. -/
theorem taker_of_distinct {coflows : List Coflow} (distinct : (coflows.map fun c => c.coflowID).Nodup)
    {i : Nat} {c : Coflow} (atI : coflows[i]? = some c) (coflowID : CInt) :
    taker coflows coflowID = some i ↔ coflowID = c.coflowID := by
  rw [taker_eq_some_iff]
  constructor
  · rintro ⟨d, atI', same, -⟩
    rw [atI] at atI'
    cases atI'
    exact same.symm
  · rintro rfl
    refine ⟨c, atI, rfl, fun j below d atJ same => ?_⟩
    have first : (coflows.map fun c => c.coflowID)[j]? = some c.coflowID := by simp [atJ, same]
    have second : (coflows.map fun c => c.coflowID)[i]? = some c.coflowID := by simp [atI]
    have inside : j < (coflows.map fun c => c.coflowID).length := by
      simpa using (List.getElem?_eq_some_iff.mp atJ).1
    have := (List.getElem?_inj inside distinct).mp (first.trans second.symm)
    omega

theorem routed_of_distinct {coflows : List Coflow} (distinct : (coflows.map fun c => c.coflowID).Nodup)
    {i : Nat} {c : Coflow} (atI : coflows[i]? = some c) (reports : List Report) :
    routed coflows i reports = reportedFlows c (reports.map fun r => r.info) := by
  rw [routed, reportedFlows, List.filter_map, List.map_map]
  congr 1
  refine List.filter_congr fun r _ => ?_
  simp [taker_of_distinct distinct atI]

namespace Scheduler

/-- A record has a line exactly if it reports the last unreported flow of its
coflow. -/
theorem Tracks.lines_iff {coflows : List Coflow} {s : Scheduler} (tracks : Tracks coflows s)
    (distinct : (coflows.map fun c => c.coflowID).Nodup) (once : ReportedOnce coflows s.taken)
    {before after : List Report} {r : Report} (split : s.reports = before ++ r :: after) :
    r.line.isSome = true ↔ ReportsLast coflows (before.map fun r => r.info) r.info := by
  rw [tracks.lines before r after split]
  have upTo : ((before.map fun r => r.info) ++ [r.info]).Sublist s.taken := by
    rw [taken, split]
    simp
  constructor
  · rintro ⟨i, c, takes, atI, fires⟩
    have same := (taker_of_distinct distinct atI _).mp takes
    have member := List.mem_of_getElem? atI
    have unrepeated := known_nodup (once.sublist upTo) member
    rw [reportedFlows_snoc, if_pos same] at unrepeated
    rw [routed_of_distinct distinct atI] at fires
    exact ⟨c, member, same.symm, (fires_iff_completes c.flowIDs_nodup unrepeated).mp fires⟩
  · rintro ⟨c, member, same, completes⟩
    obtain ⟨i, atI⟩ := List.getElem?_of_mem member
    have unrepeated := known_nodup (once.sublist upTo) member
    rw [reportedFlows_snoc, if_pos same.symm] at unrepeated
    refine ⟨i, c, (taker_of_distinct distinct atI _).mpr same.symm, atI, ?_⟩
    rw [routed_of_distinct distinct atI]
    exact (fires_iff_completes c.flowIDs_nodup unrepeated).mpr completes

end Scheduler

/-- The records of a run that are logged as `ReportsLast` says. -/
def LoggedAtLast (coflows : List Coflow) (reports : List Report) : Prop :=
  ∀ before r after, reports = before ++ r :: after →
    (r.line.isSome = true ↔ ReportsLast coflows (before.map fun r => r.info) r.info)

/-- Every line carries the coflow ID of its record. -/
def Named (reports : List Report) : Prop :=
  ∀ r ∈ reports, ∀ line, r.line = some line → line.coflowID = r.info.coflowID

theorem LoggedAtLast.before {coflows : List Coflow} {before : List Report} {r : Report}
    (atLast : LoggedAtLast coflows (before ++ [r])) : LoggedAtLast coflows before :=
  fun b x a split => atLast b x (a ++ [r]) (by rw [split]; simp)

theorem logged_snoc {before : List Report} {r : Report} (named : Named (before ++ [r])) :
    logged (before ++ [r]) = logged before ++ if r.line.isSome = true then [r.info.coflowID] else [] := by
  rw [logged, List.filterMap_append]
  congr 1
  cases line : r.line with
  | none => simp [line]
  | some written => simp [line, named r (by simp) written line]

/-- The logged coflows are those with a flow, all of whose flows have been
reported. -/
theorem mem_logged_iff {coflows : List Coflow} {reports : List Report} (atLast : LoggedAtLast coflows reports)
    (named : Named reports) (coflowID : CInt) :
    coflowID ∈ logged reports ↔ ∃ c ∈ coflows, c.coflowID = coflowID ∧ c.flowIDs ≠ [] ∧
      Covers c.flowIDs (reportedFlows c (reports.map fun r => r.info)) := by
  induction reports using List.reverseRecOn with
  | nil =>
    simp only [logged, List.filterMap_nil, List.not_mem_nil, false_iff]
    rintro ⟨c, -, -, nonempty, covers⟩
    obtain ⟨k, expects⟩ := List.exists_mem_of_ne_nil _ nonempty
    exact (List.not_mem_nil (covers k expects)).elim
  | append_singleton before r ih =>
    have earlier := ih atLast.before fun x member => named x (List.mem_append_left _ member)
    have last := atLast before r [] rfl
    rw [logged_snoc named, List.mem_append, earlier, List.map_append, List.map_singleton]
    constructor
    · rintro (⟨c, member, same, nonempty, covers⟩ | new)
      · refine ⟨c, member, same, nonempty, covers.mono fun k inside => ?_⟩
        rw [reportedFlows_append]
        exact List.mem_append_left _ inside
      · by_cases line : r.line.isSome = true
        · rw [if_pos line, List.mem_singleton] at new
          obtain ⟨c, member, same, completes⟩ := last.mp line
          refine ⟨c, member, same.trans new.symm, ?_, ?_⟩
          · intro empty
            exact completes.2 (by simp [Covers, empty])
          · rw [reportedFlows_snoc, if_pos same.symm]
            exact completes.1
        · simp [line] at new
    · rintro ⟨c, member, same, nonempty, covers⟩
      by_cases already : Covers c.flowIDs (reportedFlows c (before.map fun r => r.info))
      · exact Or.inl ⟨c, member, same, nonempty, already⟩
      · right
        rw [reportedFlows_snoc] at covers
        by_cases here : r.info.coflowID = c.coflowID
        · rw [if_pos here] at covers
          rw [if_pos (last.mpr ⟨c, member, here.symm, covers, already⟩), here, same]
          exact List.mem_singleton_self _
        · rw [if_neg here, List.append_nil] at covers
          exact absurd covers already

theorem logged_nodup {coflows : List Coflow} (distinct : (coflows.map fun c => c.coflowID).Nodup)
    {reports : List Report} (atLast : LoggedAtLast coflows reports) (named : Named reports) :
    (logged reports).Nodup := by
  induction reports using List.reverseRecOn with
  | nil => exact List.nodup_nil
  | append_singleton before r ih =>
    have namedBefore : Named before := fun x member => named x (List.mem_append_left _ member)
    have earlier := ih atLast.before namedBefore
    rw [logged_snoc named]
    by_cases line : r.line.isSome = true
    · rw [if_pos line]
      refine List.nodup_append.mpr ⟨earlier, List.nodup_singleton _, ?_⟩
      rintro coflowID old _ new rfl
      rw [List.mem_singleton] at new
      obtain ⟨c, member, same, -, covers⟩ := (mem_logged_iff atLast.before namedBefore _).mp old
      obtain ⟨d, member', same', completes⟩ := (atLast before r [] rfl).mp line
      have one : d = c := List.inj_on_of_nodup_map distinct member' member (by rw [same', same, new])
      exact completes.2 (one ▸ covers)
    · simpa [line] using earlier

namespace Scheduler

theorem takeReport_taken (s : Scheduler) (ctime : Nat → Int) (info : FlowEndInfo) :
    (s.takeReport ctime info).taken = s.taken ++ [info] := by
  obtain ⟨line, -, -, after⟩ := s.takeReport_spec ctime info
  simp [after, taken]

theorem drainQueue_taken (s : Scheduler) (ctime : Nat → Int) (queue : List FlowEndInfo) :
    (s.drainQueue ctime queue).1.taken ++ (s.drainQueue ctime queue).2 = s.taken ++ queue ∧
      ((s.drainQueue ctime queue).1.returned = false → (s.drainQueue ctime queue).2 = []) := by
  induction queue generalizing s with
  | nil => exact ⟨rfl, fun _ => rfl⟩
  | cons info queue ih =>
    have taken := s.takeReport_taken ctime info
    unfold drainQueue
    dsimp only
    split
    · rename_i stopped
      exact ⟨by simp [taken], fun going => by simp [stopped] at going⟩
    · obtain ⟨balance, empty⟩ := ih (s.takeReport ctime info)
      refine ⟨?_, empty⟩
      rw [balance, taken]
      simp

/-- The records that the machines offer to one polling, in its order. -/
def offered : List (List FlowEndInfo) → List (List FlowEndInfo) → List FlowEndInfo
  | [], _ => []
  | queue :: queues, arrivals => queue ++ arrivals.headD [] ++ offered queues arrivals.tail

theorem offered_empty (n : Nat) (arrivals : List (List FlowEndInfo)) :
    offered (List.replicate n []) arrivals = (arrivals.take n).flatten := by
  induction n generalizing arrivals with
  | zero => simp [offered]
  | succ n ih =>
    rw [List.replicate_succ, offered, ih]
    cases arrivals <;> simp

/-- A polling takes the records in order: all of them, or those up to the one
on which the loop returns. -/
theorem pollMachines_taken (s : Scheduler) (ctime : Nat → Int) (machines : List Machine)
    (arrivals : List (List FlowEndInfo)) :
    (s.pollMachines ctime machines arrivals).1.taken <+:
        s.taken ++ offered (machines.map fun m => m.flowsFinishedInfo) arrivals ∧
      ((s.pollMachines ctime machines arrivals).1.returned = false →
        (s.pollMachines ctime machines arrivals).1.taken =
          s.taken ++ offered (machines.map fun m => m.flowsFinishedInfo) arrivals ∧
        (s.pollMachines ctime machines arrivals).2.map (fun m => m.flowsFinishedInfo) =
          List.replicate machines.length []) := by
  induction machines generalizing s arrivals with
  | nil => simp [pollMachines, offered]
  | cons it machines ih =>
    obtain ⟨balance, empty⟩ := s.drainQueue_taken ctime (it.flowsFinishedInfo ++ arrivals.headD [])
    rw [List.map_cons, offered, ← List.append_assoc, ← balance]
    unfold pollMachines
    dsimp only
    split
    · rename_i stopped
      refine ⟨?_, fun going => absurd (stopped.symm.trans going) (by decide)⟩
      rw [List.append_assoc]
      exact List.prefix_append _ _
    · rename_i goes
      have left := empty (Bool.eq_false_iff.mpr goes)
      obtain ⟨some_of, all_of⟩ := ih (s.drainQueue ctime (it.flowsFinishedInfo ++ arrivals.headD [])).1 arrivals.tail
      rw [left, List.append_nil]
      refine ⟨some_of, fun going => ?_⟩
      obtain ⟨all, queues⟩ := all_of going
      exact ⟨all, by rw [List.map_cons, queues, List.length_cons, List.replicate_succ]⟩

theorem iterate_taken {s t : Scheduler} {round : Round} {n : Nat} (idle : queues s.machines = List.replicate n [])
    (pass : s.iterate round = some t) :
    t.taken <+: s.taken ++ (round.arrivals.take n).flatten ∧
      (t.returned = false → t.taken = s.taken ++ (round.arrivals.take n).flatten ∧
        queues t.machines = List.replicate n []) := by
  obtain ⟨⟨u, rest⟩, dispatched, polled⟩ := Option.bind_eq_some_iff.mp pass
  have before := before_poll_undisturbed dispatched
  have waiting : u.machines.m_physicsMachines.map (fun m => m.flowsFinishedInfo) = List.replicate n [] :=
    before.waiting.trans idle
  have count : u.machines.m_physicsMachines.length = n := by simpa using congrArg List.length waiting
  have taken : u.taken = s.taken := congrArg (List.map fun r : Report => r.info) before.reports
  have polling := u.pollMachines_taken round.ctime u.machines.m_physicsMachines round.arrivals
  rw [waiting, offered_empty, taken, count] at polling
  cases polled
  exact polling

/-- A run takes the records it is brought in order: all of them, or those up
to the one on which it returns. -/
theorem run_taken {s t : Scheduler} {rounds : List Round} {n : Nat} (idle : queues s.machines = List.replicate n [])
    (going : s.returned = false) (ran : s.run rounds = some t) :
    t.taken <+: s.taken ++ delivered n rounds ∧ (t.returned = false → t.taken = s.taken ++ delivered n rounds) := by
  induction rounds generalizing s with
  | nil =>
    cases ran
    simp [delivered]
  | cons round rounds ih =>
    rw [run, if_neg (by simp [going])] at ran
    obtain ⟨u, pass, rest⟩ := Option.bind_eq_some_iff.mp ran
    obtain ⟨some_of, all_of⟩ := iterate_taken idle pass
    rw [delivered, List.flatMap_cons, ← List.append_assoc]
    by_cases stopped : u.returned = true
    · have last : t = u := by
        cases rounds with
        | nil => cases rest; rfl
        | cons other more =>
          rw [run, if_pos stopped] at rest
          cases rest
          rfl
      subst last
      exact ⟨some_of.trans (List.prefix_append _ _), fun goes => by simp [stopped] at goes⟩
    · obtain ⟨all, queues⟩ := all_of (Bool.eq_false_iff.mpr stopped)
      have later := ih queues (Bool.eq_false_iff.mpr stopped) rest
      rwa [all] at later

end Scheduler

theorem RunsTo.tracks {coflows : List Coflow} {records : List FlowEndInfo} {t : Scheduler}
    (fresh : ∀ c ∈ coflows, c.Fresh) (runs : RunsTo coflows records t) : Scheduler.Tracks coflows t := by
  obtain ⟨machines, startTime, rounds, ran, -, -⟩ := runs
  exact (Scheduler.tracks_init fresh machines startTime).run ran

theorem RunsTo.taken {coflows : List Coflow} {records : List FlowEndInfo} {t : Scheduler}
    (runs : RunsTo coflows records t) : t.taken <+: records ∧ (t.returned = false → t.taken = records) := by
  obtain ⟨machines, startTime, rounds, ran, idle, rfl⟩ := runs
  have empty : Scheduler.queues machines = List.replicate machines.m_physicsMachines.length [] := by
    refine List.eq_replicate_iff.mpr ⟨by simp [Scheduler.queues], fun queue member => ?_⟩
    obtain ⟨m, inside, rfl⟩ := List.mem_map.mp member
    exact idle m inside
  exact Scheduler.run_taken (s := Scheduler.init coflows machines startTime) empty rfl ran

theorem RunsTo.once {coflows : List Coflow} {records : List FlowEndInfo} {t : Scheduler}
    (runs : RunsTo coflows records t) (once : ReportedOnce coflows records) : ReportedOnce coflows t.taken :=
  once.sublist runs.taken.1.sublist

theorem loggedNum_eq (reports : List Report) : Scheduler.loggedNum reports = (logged reports).length := by
  induction reports with
  | nil => rfl
  | cons r rest ih =>
    rw [Scheduler.loggedNum, logged] at *
    cases line : r.line <;> simp [line, ih]

theorem logged_subset {coflows : List Coflow} {reports : List Report} (atLast : LoggedAtLast coflows reports)
    (named : Named reports) : logged reports ⊆ coflows.map fun c => c.coflowID := by
  intro coflowID member
  obtain ⟨c, inside, rfl, -⟩ := (mem_logged_iff atLast named coflowID).mp member
  exact List.mem_map_of_mem inside

/-- The loop returns on the record with whose line the number of lines comes
to the number of coflows. -/
theorem returns_iff {coflows : List Coflow} {t : Scheduler} (tracks : Scheduler.Tracks coflows t)
    (bounded : (logged t.reports).length ≤ coflows.length) {before after : List Report} {r : Report}
    (split : t.reports = before ++ r :: after) :
    (after = [] ∧ t.returned = true) ↔
      r.line.isSome = true ∧ (logged (before ++ [r])).length = coflows.length := by
  constructor
  · rintro ⟨rfl, stopped⟩
    obtain ⟨b, x, last, line, reaches⟩ := tracks.halts.mp stopped
    obtain ⟨-, same⟩ := List.append_inj' (split.symm.trans last) rfl
    obtain rfl := List.singleton_inj.mp same
    rw [loggedNum_eq] at reaches
    exact ⟨line, by rw [← split]; omega⟩
  · rintro ⟨line, reaches⟩
    have last : after = [] := by
      by_contra more
      have := tracks.goes before r after split more line
      rw [loggedNum_eq] at this
      omega
    subst last
    refine ⟨rfl, tracks.halts.mpr ⟨before, r, split, line, ?_⟩⟩
    rw [split, loggedNum_eq, reaches]

/-- What is logged depends on the records alone. -/
theorem mem_logged_records {coflows : List Coflow} (distinct : (coflows.map fun c => c.coflowID).Nodup)
    (fresh : ∀ c ∈ coflows, c.Fresh) {records : List FlowEndInfo} {t : Scheduler} (runs : RunsTo coflows records t)
    (once : ReportedOnce coflows records) (coflowID : CInt) :
    coflowID ∈ logged t.reports ↔ ∃ c ∈ coflows, c.coflowID = coflowID ∧ c.flowIDs ≠ [] ∧
      Covers c.flowIDs (reportedFlows c records) := by
  have tracks := runs.tracks fresh
  have atLast : LoggedAtLast coflows t.reports := fun before r after split =>
    tracks.lines_iff distinct (runs.once once) split
  obtain ⟨some_of, all_of⟩ := runs.taken
  rw [mem_logged_iff atLast tracks.named]
  by_cases stopped : t.returned = true
  · constructor
    · rintro ⟨c, member, same, nonempty, covers⟩
      exact ⟨c, member, same, nonempty, covers.mono (reportedFlows_subset fun info inside => some_of.subset inside)⟩
    · rintro ⟨c, member, same, nonempty, -⟩
      obtain ⟨before, r, split, -, reaches⟩ := tracks.halts.mp stopped
      rw [loggedNum_eq] at reaches
      have all : (coflows.map fun c => c.coflowID) ⊆ logged t.reports :=
        ((List.subperm_of_subset (logged_nodup distinct atLast tracks.named)
          (logged_subset atLast tracks.named)).perm_of_length_le (by simpa using reaches)).symm.subset
      exact (mem_logged_iff atLast tracks.named coflowID).mp (all (same ▸ List.mem_map_of_mem member))
  · rw [← all_of (Bool.eq_false_iff.mpr stopped)]
    rfl

/-- With distinct coflow IDs and no flow reported twice, the order of the
completion records does not matter: a run takes the records in order until it
returns, logs a coflow exactly at the record of its last unreported flow and
only once, returns exactly at the record that brings the log to all coflows,
and logs the same coflows for every permutation of the records. -/
theorem run_order_independent {coflows : List Coflow} (distinct : (coflows.map fun c => c.coflowID).Nodup)
    (fresh : ∀ c ∈ coflows, c.Fresh) :
    (∀ records t, RunsTo coflows records t → ReportedOnce coflows records →
      t.taken <+: records ∧ (t.returned = false → t.taken = records) ∧
      (∀ before r after, t.reports = before ++ r :: after →
        (r.line.isSome = true ↔ ReportsLast coflows (before.map fun r => r.info) r.info) ∧
        (∀ line, r.line = some line → line.coflowID = r.info.coflowID) ∧
        (after = [] ∧ t.returned = true ↔
          r.line.isSome = true ∧ (logged (before ++ [r])).length = coflows.length)) ∧
      (t.returned = true → t.reports ≠ []) ∧ (logged t.reports).Nodup) ∧
    ∀ records₁ records₂ t₁ t₂, RunsTo coflows records₁ t₁ → RunsTo coflows records₂ t₂ →
      ReportedOnce coflows records₁ → records₁.Perm records₂ →
      ∀ coflowID, coflowID ∈ logged t₁.reports ↔ coflowID ∈ logged t₂.reports := by
  constructor
  · intro records t runs once
    have tracks := runs.tracks fresh
    have atLast : LoggedAtLast coflows t.reports := fun before r after split =>
      tracks.lines_iff distinct (runs.once once) split
    have nodup := logged_nodup distinct atLast tracks.named
    have bounded : (logged t.reports).length ≤ coflows.length := by
      simpa using (List.subperm_of_subset nodup (logged_subset atLast tracks.named)).length_le
    refine ⟨runs.taken.1, runs.taken.2, fun before r after split => ⟨atLast before r after split, ?_, ?_⟩, ?_, nodup⟩
    · exact tracks.named r (by simp [split])
    · exact returns_iff tracks bounded split
    · intro stopped
      obtain ⟨before, r, split, -⟩ := tracks.halts.mp stopped
      simp [split]
  · intro records₁ records₂ t₁ t₂ runs₁ runs₂ once perm coflowID
    have once₂ : ReportedOnce coflows records₂ := fun c member flowID knows => by
      rw [← perm.countP_eq]
      exact once c member flowID knows
    rw [mem_logged_records distinct fresh runs₁ once, mem_logged_records distinct fresh runs₂ once₂]
    refine exists_congr fun c => and_congr_right fun _ => and_congr_right fun _ => and_congr_right fun _ => ?_
    have same (k : CInt) : k ∈ reportedFlows c records₁ ↔ k ∈ reportedFlows c records₂ :=
      ((perm.filter _).map _).mem_iff
    simp only [Covers, same]

/-- Two coflows with one flow each, on two machines that report one each. -/
def oneFlow (coflowID : Int) : Coflow := (Coflow.create (.clamp coflowID) 0).addFlow (.clamp 0) (.clamp 0) (.clamp 1) 2

def endOf (coflowID : Int) : FlowEndInfo := ⟨.clamp coflowID, .clamp 0, .clamp 9⟩

def runOf (first second : Int) : Option Scheduler :=
  (Scheduler.init [oneFlow 1, oneFlow 2] twoMachines 0).run
    [⟨0, fun _ => 9, [.accepted 1024, .eagain], [[endOf first], [endOf second]]⟩]

theorem runOf_runsTo {first second : Int} (defined : (runOf first second).isSome = true) :
    RunsTo [oneFlow 1, oneFlow 2] [endOf first, endOf second] ((runOf first second).get defined) := by
  refine ⟨twoMachines, 0, _, (Option.some_get _).symm, ?_, by simp [delivered, twoMachines,
    MachineManager.addOnePhysicsMachine, MachineManager.updateLogicMap, MachineManager.setLogicMachineNum,
    MachineManager.init]⟩
  simp [twoMachines, MachineManager.addOnePhysicsMachine, MachineManager.updateLogicMap,
    MachineManager.setLogicMachineNum, MachineManager.init, Machine.create]

theorem run_order_independent_two :
    ((runOf 1 2).get (by decide +kernel)).reports.length = 2 ∧
    (logged ((runOf 1 2).get (by decide +kernel)).reports).Nodup ∧
    ∀ coflowID, coflowID ∈ logged ((runOf 1 2).get (by decide +kernel)).reports ↔
      coflowID ∈ logged ((runOf 2 1).get (by decide +kernel)).reports := by
  have fresh : ∀ c ∈ [oneFlow 1, oneFlow 2], c.Fresh := by
    simpa using ⟨(Coflow.fresh_create ..).addFlow .., (Coflow.fresh_create ..).addFlow ..⟩
  have apart : ([oneFlow 1, oneFlow 2].map fun c => c.coflowID).Nodup := by decide
  have independent := run_order_independent apart fresh
  have flows (coflowID : Int) : (oneFlow coflowID).flowIDs = [.clamp 0] := rfl
  have once : ReportedOnce [oneFlow 1, oneFlow 2] [endOf 1, endOf 2] := by
    simp only [ReportedOnce, List.forall_mem_cons, flows, List.not_mem_nil, false_imp_iff, implies_true, and_true]
    decide
  obtain ⟨-, -, -, -, nodup⟩ := independent.1 _ _ (runOf_runsTo (by decide +kernel)) once
  exact ⟨by decide +kernel, nodup, independent.2 _ _ _ _ (runOf_runsTo _) (runOf_runsTo _) once (by decide)⟩

end CoflowSim
