import CoflowSim.Lib.Run
import CoflowSim.Master.Scheduler

namespace CoflowSim
open Lib

/-- The coflow to which `run` gives the records with this coflow ID: the first
one of the list that has it. -/
def taker (coflows : List Coflow) (coflowID : CInt) : Option Nat :=
  coflows.findIdx? fun co => co.coflowID = coflowID

/-- The flow IDs that the records carry to the coflow at position `i`. -/
def routed (coflows : List Coflow) (i : Nat) (reports : List Report) : List CInt :=
  (reports.filter fun r => taker coflows r.info.coflowID = some i).map fun r => r.info.flowID

theorem routed_append (coflows : List Coflow) (i : Nat) (reports more : List Report) :
    routed coflows i (reports ++ more) = routed coflows i reports ++ routed coflows i more := by
  simp [routed]

theorem routed_snoc (coflows : List Coflow) (i : Nat) (reports : List Report) (r : Report) :
    routed coflows i (reports ++ [r]) =
      routed coflows i reports ++ if taker coflows r.info.coflowID = some i then [r.info.flowID] else [] := by
  rw [routed_append]
  by_cases takes : taker coflows r.info.coflowID = some i <;> simp [routed, takes]

theorem taker_eq_some_iff {coflows : List Coflow} {coflowID : CInt} {i : Nat} :
    taker coflows coflowID = some i ↔
      ∃ c, coflows[i]? = some c ∧ c.coflowID = coflowID ∧
        ∀ j < i, ∀ d, coflows[j]? = some d → d.coflowID ≠ coflowID := by
  rw [taker, List.findIdx?_eq_some_iff_getElem]
  constructor
  · rintro ⟨inside, found, first⟩
    refine ⟨_, List.getElem?_eq_getElem inside, by simpa using found, fun j below d atJ => ?_⟩
    obtain ⟨_, rfl⟩ := List.getElem?_eq_some_iff.mp atJ
    simpa using first j below
  · rintro ⟨c, atI, found, first⟩
    obtain ⟨inside, rfl⟩ := List.getElem?_eq_some_iff.mp atI
    refine ⟨inside, by simpa using found, fun j below => ?_⟩
    simpa using first j below _ (List.getElem?_eq_getElem (by omega))

/-- Where a list with one more element is split at an element: at the new one,
or inside the old list. -/
theorem snoc_split {α : Type} {xs before after : List α} {x a : α} (split : xs ++ [x] = before ++ a :: after) :
    (xs = before ∧ x = a ∧ after = []) ∨ ∃ rest, xs = before ++ a :: rest ∧ after = rest ++ [x] := by
  rcases List.eq_nil_or_concat after with rfl | ⟨rest, last, rfl⟩
  · obtain ⟨same, last⟩ := List.append_inj' split rfl
    exact Or.inl ⟨same, List.singleton_inj.mp last, rfl⟩
  · rw [List.concat_eq_append, ← List.cons_append, ← List.append_assoc] at split
    obtain ⟨same, end_⟩ := List.append_inj' split rfl
    exact Or.inr ⟨rest, same, by rw [List.concat_eq_append, end_]⟩

namespace Scheduler

/-- The inner loop of `run` gives the record to its taker and to nobody else. -/
theorem reportTo_cases (info : FlowEndInfo) (coflows : List Coflow) :
    (taker coflows info.coflowID = none ∧ reportTo info coflows = (coflows, none)) ∨
    ∃ i c, taker coflows info.coflowID = some i ∧ coflows[i]? = some c ∧
      (reportTo info coflows).1 = coflows.set i (c.flowEnd info.flowID info.endTime).2 ∧
      ((reportTo info coflows).2.isSome = true ↔ (c.flowEnd info.flowID info.endTime).1 = true) := by
  induction coflows with
  | nil => exact Or.inl ⟨rfl, rfl⟩
  | cons co rest ih =>
    by_cases same : co.coflowID = info.coflowID
    · refine Or.inr ⟨0, co, by simp [taker, List.findIdx?_cons, same], rfl, ?_, ?_⟩
      · simp [reportTo, same]
      · cases result : (co.flowEnd info.flowID info.endTime).1 <;> simp [reportTo, same, result]
    · rcases ih with ⟨absent, unchanged⟩ | ⟨i, c, takes, atI, updated, result⟩
      · left
        simp only [taker] at absent
        simp [taker, List.findIdx?_cons, same, absent, reportTo, unchanged]
      · refine Or.inr ⟨i + 1, c, ?_, atI, ?_, ?_⟩
        · simp only [taker] at takes
          simp [taker, List.findIdx?_cons, same, takes]
        · simp [reportTo, same, updated]
        · simpa [reportTo, same] using result

/-- The records that the machines' parsers have pushed and `run` has not taken
yet. -/
def queues (machines : MachineManager) : List (List FlowEndInfo) :=
  machines.m_physicsMachines.map fun m => m.flowsFinishedInfo

/-- The parts of the scheduler on which the accounting rests are the same. -/
structure Undisturbed (s t : Scheduler) : Prop where
  waiting : queues t.machines = queues s.machines
  ledgers : t.sCoflows.map Coflow.ledger = s.sCoflows.map Coflow.ledger
  reports : t.reports = s.reports
  counted : t.coflowFinishedNum = s.coflowFinishedNum
  returned : t.returned = s.returned

theorem Undisturbed.refl (s : Scheduler) : Undisturbed s s := ⟨rfl, rfl, rfl, rfl, rfl⟩

theorem Undisturbed.trans {s t u : Scheduler} (first : Undisturbed s t) (second : Undisturbed t u) :
    Undisturbed s u :=
  ⟨second.waiting.trans first.waiting, second.ledgers.trans first.ledgers, second.reports.trans first.reports,
    second.counted.trans first.counted, second.returned.trans first.returned⟩

theorem registerLoop_undisturbed (t : Int) (coflows : Nat) (s : Scheduler) :
    Undisturbed s (registerLoop t coflows s) := by
  induction coflows generalizing s with
  | zero => exact .refl s
  | succ coflows ih =>
    unfold registerLoop
    split
    · exact .refl s
    · rename_i co atIndex
      split
      · refine Undisturbed.trans ?_ (ih _)
        exact ⟨rfl, map_set_same atIndex rfl, rfl, rfl, rfl⟩
      · exact .refl s

theorem select_undisturbed (s : Scheduler) : Undisturbed s s.select :=
  ⟨rfl, s.select_map fun _ _ => rfl, rfl, rfl, rfl⟩

theorem sendTask_queues {mm : MachineManager} {coflowID flowID mapperID reducerID : CInt}
    {flowSizeMB sendSpeedMbs : Rat} {kernel : SendOutcome} {call : TaskCall}
    (called : mm.sendTask coflowID flowID mapperID reducerID flowSizeMB sendSpeedMbs kernel = some call) :
    queues call.machines = queues mm :=
  MachineManager.sendTask_map (fun m => m.flowsFinishedInfo) (fun _ _ => rfl) called

/-- Sending tasks changes the sockets of the machines and adds to the calls,
and nothing else. -/
theorem sendTaskLoop_frame {i : Nat} {co : Coflow} {f : Flow} {s t : Scheduler} {sends rest : List SendOutcome}
    (loop : s.sendTaskLoop i co f sends = some (t, rest)) :
    ∃ machines calls, queues machines = queues s.machines ∧ t = { s with machines, calls } := by
  induction sends generalizing s with
  | nil => cases loop
  | cons kernel sends ih =>
    obtain ⟨call, called, after⟩ := Option.bind_eq_some_iff.mp loop
    dsimp only at after
    split at after
    · cases after
      exact ⟨_, _, sendTask_queues called, rfl⟩
    · obtain ⟨machines, calls, waiting, rfl⟩ := ih after
      exact ⟨machines, calls, waiting.trans (sendTask_queues called), rfl⟩

theorem dispatchCoflow_undisturbed {s t : Scheduler} {sends rest : List SendOutcome} {i : Nat}
    (dispatched : s.dispatchCoflow sends i = some (t, rest)) : Undisturbed s t := by
  obtain ⟨co, atI, ⟨-, rfl⟩ | ⟨-, u, sent, rfl⟩⟩ := dispatchCoflow_cases dispatched
  · exact .refl t
  · obtain ⟨machines, calls, waiting, rfl⟩ :
        ∃ machines calls, queues machines = queues s.machines ∧ u = { s with machines, calls } := by
      refine (Run.of_foldlM sent).invariant
        (I := fun p => ∃ machines calls, queues machines = queues s.machines ∧ p.1 = { s with machines, calls })
        ⟨_, _, rfl, rfl⟩ ?_
      rintro ⟨p, sends⟩ f ⟨q, left⟩ ⟨machines, calls, waiting, rfl⟩ loop
      obtain ⟨machines, calls, kept, rfl⟩ := sendTaskLoop_frame loop
      exact ⟨machines, calls, kept.trans waiting, rfl⟩
    refine ⟨waiting, map_set_same atI ?_, rfl, rfl, rfl⟩
    simp [Coflow.ledger, Coflow.settled, OrderedMap.mapEntries, Flow.setCurrentMbs]

theorem dispatch_undisturbed {s t : Scheduler} {sends rest : List SendOutcome}
    (dispatched : s.dispatch sends = some (t, rest)) : Undisturbed s t := by
  refine (Run.of_foldlM dispatched).invariant (I := fun p => Undisturbed s p.1) (.refl s) ?_
  rintro ⟨p, sends⟩ i ⟨q, left⟩ before step
  exact before.trans (dispatchCoflow_undisturbed step)

/-- A report of `info` after `before` makes `flowEnd` return true. -/
def Closes (coflows : List Coflow) (before : List Report) (info : FlowEndInfo) : Prop :=
  ∃ i c, taker coflows info.coflowID = some i ∧ coflows[i]? = some c ∧
    Fires c.flowIDs (routed coflows i before) info.flowID

def loggedNum (reports : List Report) : Nat := reports.countP fun r => r.line.isSome

/-- The accounting of a scheduler that started with `coflows`, up to where its
loop stands: every coflow holds the account of the records given to it, a
record has a line exactly if it made `flowEnd` return true, the counter counts
the lines, and the loop ends with the line that brings the counter to the
number of coflows. -/
structure Tracks (coflows : List Coflow) (s : Scheduler) : Prop where
  same : s.sCoflows.map (fun c => (c.coflowID, c.flowIDs)) = coflows.map fun c => (c.coflowID, c.flowIDs)
  accounts : ∀ i c, s.sCoflows[i]? = some c → Coflow.Account (routed coflows i s.reports) c
  lines : ∀ before r after, s.reports = before ++ r :: after →
    (r.line.isSome = true ↔ Closes coflows before r.info)
  named : ∀ r ∈ s.reports, ∀ line, r.line = some line → line.coflowID = r.info.coflowID
  counted : s.coflowFinishedNum = loggedNum s.reports
  halts : s.returned = true ↔ ∃ before r, s.reports = before ++ [r] ∧ r.line.isSome = true ∧
    coflows.length ≤ loggedNum s.reports
  goes : ∀ before r after, s.reports = before ++ r :: after → after ≠ [] → r.line.isSome = true →
    loggedNum (before ++ [r]) < coflows.length

theorem Tracks.undisturbed {coflows : List Coflow} {s t : Scheduler} (tracks : Tracks coflows s)
    (undisturbed : Undisturbed s t) : Tracks coflows t := by
  obtain ⟨-, ledgers, reports, counted, returned⟩ := undisturbed
  constructor
  · have ids (cs : List Coflow) : cs.map (fun c => (c.coflowID, c.flowIDs)) =
        (cs.map Coflow.ledger).map fun l => (l.1, l.2.2.map Prod.fst) := by
      simp [Coflow.ledger, Coflow.flowIDs, OrderedMap.keys]
    rw [ids, ledgers, ← ids, tracks.same]
  · intro i c atI
    have ledger : (s.sCoflows.map Coflow.ledger)[i]? = some c.ledger := by
      rw [← ledgers, List.getElem?_map, atI]
      rfl
    rw [List.getElem?_map] at ledger
    obtain ⟨d, atI', same⟩ := Option.map_eq_some_iff.mp ledger
    rw [reports]
    exact (tracks.accounts i d atI').of_ledger same.symm
  · rw [reports]
    exact tracks.lines
  · rw [reports]
    exact tracks.named
  · rw [reports, counted]
    exact tracks.counted
  · rw [reports, returned]
    exact tracks.halts
  · rw [reports]
    exact tracks.goes

theorem loggedNum_snoc (reports : List Report) (r : Report) :
    loggedNum (reports ++ [r]) = loggedNum reports + if r.line.isSome = true then 1 else 0 := by
  simp [loggedNum, List.countP_append, List.countP_singleton]

theorem taker_of_same {coflows updated : List Coflow}
    (same : updated.map (fun c => (c.coflowID, c.flowIDs)) = coflows.map fun c => (c.coflowID, c.flowIDs))
    (coflowID : CInt) : taker updated coflowID = taker coflows coflowID := by
  have ids (cs : List Coflow) : taker cs coflowID =
      (cs.map fun c => (c.coflowID, c.flowIDs)).findIdx? fun id => id.1 = coflowID := by
    rw [List.findIdx?_map]
    rfl
  rw [ids, same, ← ids]

theorem flowIDs_of_same {coflows updated : List Coflow}
    (same : updated.map (fun c => (c.coflowID, c.flowIDs)) = coflows.map fun c => (c.coflowID, c.flowIDs))
    {i : Nat} {c : Coflow} (atI : updated[i]? = some c) :
    ∃ d, coflows[i]? = some d ∧ d.flowIDs = c.flowIDs := by
  have entry := congrArg (fun l => l[i]?) same
  simp only [List.getElem?_map, atI, Option.map_some] at entry
  obtain ⟨d, atI', pair⟩ := Option.map_eq_some_iff.mp entry.symm
  exact ⟨d, atI', (Prod.mk.inj pair).2⟩

/-- A record is closed by its taker's `flowEnd`, on whatever the taker has been
told before. -/
theorem Tracks.closes_iff {coflows : List Coflow} {s : Scheduler} (tracks : Tracks coflows s) (info : FlowEndInfo) :
    (reportTo info s.sCoflows).2.isSome = true ↔ Closes coflows s.reports info := by
  have sameTaker := taker_of_same tracks.same info.coflowID
  rcases reportTo_cases info s.sCoflows with ⟨absent, unchanged⟩ | ⟨i, c, takes, atI, -, result⟩
  · rw [unchanged]
    refine ⟨nofun, ?_⟩
    rintro ⟨i, c, takes, -⟩
    rw [← sameTaker, absent] at takes
    cases takes
  · obtain ⟨d, atI', ids⟩ := flowIDs_of_same tracks.same atI
    rw [result, (tracks.accounts i c atI).flowEnd_result, ← ids]
    constructor
    · exact fun fires => ⟨i, d, sameTaker ▸ takes, atI', fires⟩
    · rintro ⟨j, e, takes', atJ, fires⟩
      rw [← sameTaker, takes] at takes'
      cases takes'
      rw [atI'] at atJ
      cases atJ
      exact fires

theorem Tracks.takeReport {coflows : List Coflow} {s : Scheduler} (tracks : Tracks coflows s)
    (going : s.returned = false) (ctime : Nat → Int) (info : FlowEndInfo) :
    Tracks coflows (s.takeReport ctime info) := by
  obtain ⟨line, logged, named, after⟩ := s.takeReport_spec ctime info
  have closes := tracks.closes_iff info
  have sameTaker := taker_of_same tracks.same info.coflowID
  rw [← logged] at closes
  rw [after]
  have same : (reportTo info s.sCoflows).1.map (fun c => (c.coflowID, c.flowIDs)) =
      coflows.map fun c => (c.coflowID, c.flowIDs) := by
    rw [← tracks.same]
    rcases reportTo_cases info s.sCoflows with ⟨-, unchanged⟩ | ⟨i, c, -, atI, updated, -⟩
    · rw [unchanged]
    · rw [updated]
      exact map_set_same atI (by rw [Coflow.flowEnd_coflowID, Coflow.flowEnd_flowIDs])
  constructor
  · exact same
  · intro j d atJ
    rw [routed_snoc, ← sameTaker]
    rcases reportTo_cases info s.sCoflows with ⟨absent, unchanged⟩ | ⟨i, c, takes, atI, updated, -⟩
    · rw [unchanged] at atJ
      simpa [absent] using tracks.accounts j d atJ
    · dsimp only at atJ
      rw [updated, List.getElem?_set] at atJ
      by_cases here : i = j
      · subst here
        obtain ⟨inside, -⟩ := List.getElem?_eq_some_iff.mp atI
        simp only [if_true, inside, Option.some.injEq] at atJ
        rw [← atJ, takes]
        simpa using (tracks.accounts i c atI).flowEnd info.flowID info.endTime
      · rw [if_neg here] at atJ
        simpa [takes, here] using tracks.accounts j d atJ
  · intro before r rest split
    rcases snoc_split split with ⟨rfl, rfl, -⟩ | ⟨earlier, reports, -⟩
    · exact closes
    · exact tracks.lines before r earlier reports
  · intro r member
    rcases List.mem_append.mp member with earlier | last
    · exact tracks.named r earlier
    · rw [List.mem_singleton.mp last]
      exact named
  · dsimp only
    rw [loggedNum_snoc, tracks.counted]
  · have length : (reportTo info s.sCoflows).1.length = coflows.length := by simpa using congrArg List.length same
    dsimp only
    rw [loggedNum_snoc, ← tracks.counted, length]
    cases line with
    | none =>
      simp only [Option.isSome_none, Bool.false_eq_true, if_false, going, false_iff]
      rintro ⟨before, r, split, line, -⟩
      obtain ⟨-, last⟩ := List.append_inj' split rfl
      cases last
      cases line
    | some written =>
      simp only [Option.isSome_some, if_true, decide_eq_true_eq]
      exact ⟨fun reaches => ⟨s.reports, _, rfl, rfl, reaches⟩, fun ⟨_, _, _, _, reaches⟩ => reaches⟩
  · intro before r rest split more written
    rcases snoc_split split with ⟨-, -, rfl⟩ | ⟨earlier, reports, rfl⟩
    · exact absurd rfl more
    · by_cases last : earlier = []
      · rw [last] at reports
        have notYet := mt tracks.halts.mpr (Bool.eq_false_iff.mp going)
        refine Nat.lt_of_not_le fun reaches => notYet ⟨before, r, reports, written, ?_⟩
        rwa [reports]
      · exact tracks.goes before r earlier reports last written

theorem Tracks.drainQueue {coflows : List Coflow} {s : Scheduler} (tracks : Tracks coflows s)
    (going : s.returned = false) (ctime : Nat → Int) (queue : List FlowEndInfo) :
    Tracks coflows (s.drainQueue ctime queue).1 := by
  induction queue generalizing s with
  | nil => exact tracks
  | cons info queue ih =>
    have after := tracks.takeReport going ctime info
    unfold Scheduler.drainQueue
    dsimp only
    split
    · exact after
    · rename_i goes
      exact ih after (Bool.eq_false_iff.mpr goes)

theorem Tracks.pollMachines {coflows : List Coflow} {s : Scheduler} (tracks : Tracks coflows s)
    (going : s.returned = false) (ctime : Nat → Int) (machines : List Machine) (arrivals : List (List FlowEndInfo)) :
    Tracks coflows (s.pollMachines ctime machines arrivals).1 := by
  induction machines generalizing s arrivals with
  | nil => exact tracks
  | cons it machines ih =>
    have after := tracks.drainQueue going ctime (it.flowsFinishedInfo ++ arrivals.headD [])
    unfold Scheduler.pollMachines
    dsimp only
    split
    · exact after
    · rename_i goes
      exact ih after (Bool.eq_false_iff.mpr goes) arrivals.tail

/-- What comes before the polling in an iteration. -/
theorem before_poll_undisturbed {s t : Scheduler} {now : Int} {sends rest : List SendOutcome}
    (dispatched : (s.registerCoflow now).select.dispatch sends = some (t, rest)) : Undisturbed s t :=
  (registerLoop_undisturbed _ _ s).trans ((select_undisturbed _).trans (dispatch_undisturbed dispatched))

theorem Tracks.iterate {coflows : List Coflow} {s t : Scheduler} {round : Round} (tracks : Tracks coflows s)
    (going : s.returned = false) (pass : s.iterate round = some t) : Tracks coflows t := by
  obtain ⟨⟨u, rest⟩, dispatched, polled⟩ := Option.bind_eq_some_iff.mp pass
  have before := before_poll_undisturbed dispatched
  cases polled
  obtain ⟨same, accounts, lines, named, counted, halts, goes⟩ := (tracks.undisturbed before).pollMachines
    (before.returned.trans going) round.ctime u.machines.m_physicsMachines round.arrivals
  exact ⟨same, accounts, lines, named, counted, halts, goes⟩

theorem Tracks.run {coflows : List Coflow} {s t : Scheduler} {rounds : List Round} (tracks : Tracks coflows s)
    (ran : s.run rounds = some t) : Tracks coflows t :=
  run_keeps (fun _ _ _ here going pass => here.iterate going pass) tracks ran

theorem tracks_init {coflows : List Coflow} (fresh : ∀ c ∈ coflows, c.Fresh) (machines : MachineManager)
    (startTime : Int) : Tracks coflows (init coflows machines startTime) := by
  refine ⟨rfl, fun i c atI => ?_, fun before r after split => ?_, by simp [init], rfl, ?_,
    fun before r after split => ?_⟩
  · exact fresh c (List.mem_of_getElem? atI)
  · simp [init] at split
  · simp [init]
  · simp [init] at split

end Scheduler

end CoflowSim
