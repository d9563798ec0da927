import CoflowSim.Master.Dispatch
import Mathlib.Logic.Relation

namespace CoflowSim
open Lib

/-- The number that stands for the state in the source. -/
def CoflowState.code : CoflowState → Nat
  | .unregister => 0
  | .registed => 1
  | .running => 2
  | .runninged => 3

/-- The arguments of a call of `sendTask` after the coflow ID. -/
abbrev Task := CInt × CInt × CInt × Rat × Rat

/-- What `run` sends for a coflow: its ID, and the tasks of its flows once
their speed is set. -/
def Coflow.order (c : Coflow) : CInt × List Task :=
  (c.coflowID, c.flowCollection.values.map fun f => (f.setCurrentMbs 10).task)

/-- What the first loop of an iteration makes of a registered coflow. -/
def Coflow.selected (c : Coflow) : Coflow :=
  if c.coflowState = .registed then c.setCoflowState .running else c

/-- The coflow a call is for, its arguments, and its result. -/
def Dispatched.summary (d : Dispatched) : Nat × Task × Bool := (d.coflow, d.flow.task, d.call.result)

/-- One call that returns true for every task of the coflow at position `i`. -/
def dueOf (i : Nat) (order : CInt × List Task) : List (Nat × Task × Bool) :=
  order.2.map fun task => (i, task, true)

/-- The calls due to the first coflows of the list, in the order of the list
and of the flow IDs. -/
def dueCalls (orders : List (CInt × List Task)) (coflows : Nat) : List (Nat × Task × Bool) :=
  (List.range coflows).flatMap fun i => (orders[i]?.map (dueOf i)).getD []

theorem dueCalls_succ {orders : List (CInt × List Task)} {i : Nat} {order : CInt × List Task}
    (atI : orders[i]? = some order) : dueCalls orders (i + 1) = dueCalls orders i ++ dueOf i order := by
  rw [dueCalls, List.range_succ, List.flatMap_append, List.flatMap_singleton, atI]
  rfl

/-- A pass over distinct positions of a list that updates each of them. -/
theorem getElem?_foldl_modify {α : Type} (update : α → α) {indices : List Nat} (distinct : indices.Nodup)
    (l : List α) (j : Nat) :
    (indices.foldl (fun l i => l.modify i update) l)[j]? = if j ∈ indices then l[j]?.map update else l[j]? := by
  induction indices generalizing l with
  | nil => rfl
  | cons i rest ih =>
    obtain ⟨absent, distinct⟩ := List.nodup_cons.mp distinct
    rw [List.foldl_cons, ih distinct, List.getElem?_modify]
    by_cases here : i = j
    · subst here
      simp [absent]
    · simp [here, Ne.symm here]

namespace Scheduler

/-- The assignments of the loop of `run`, one at a time. -/
inductive Move : Scheduler → Scheduler → Prop
  | register {s : Scheduler} {co : Coflow} {t : Int} (atIndex : s.sCoflows[s.registerIndex]? = some co)
      (due : co.startTime ≤ t) :
      Move s { s with
        sCoflows := s.sCoflows.set s.registerIndex (co.setCoflowState .registed)
        registerIndex := s.registerIndex + 1 }
  | select {s : Scheduler} {i : Nat} (below : i < s.registerIndex) :
      Move s { s with sCoflows := s.sCoflows.modify i Coflow.selected }
  | send {s : Scheduler} {i : Nat} {co : Coflow} {f : Flow} {kernel : SendOutcome} {call : TaskCall}
      (atI : s.sCoflows[i]? = some co) (running : co.coflowState = .running)
      (called : s.machines.sendTask co.coflowID f.flowID f.mapperID f.reducerID f.flowSizeMB f.currentMbs kernel =
        some call) :
      Move s { s with machines := call.machines, calls := s.calls ++ [⟨i, f, call⟩] }
  | settle {s : Scheduler} {i : Nat} {co : Coflow} (atI : s.sCoflows[i]? = some co)
      (running : co.coflowState = .running) :
      Move s { s with sCoflows := s.sCoflows.set i co.settled }
  | report {s : Scheduler} (ctime : Nat → Int) (info : FlowEndInfo) : Move s (s.takeReport ctime info)
  | queues {s : Scheduler} (m_physicsMachines : List Machine) :
      Move s { s with machines := { s.machines with m_physicsMachines } }

/-- No coflow is lost, and none goes back to an earlier state. -/
structure Forward (s t : Scheduler) : Prop where
  length : t.sCoflows.length = s.sCoflows.length
  codes : ∀ (i : Nat) (c d : Coflow), s.sCoflows[i]? = some c → t.sCoflows[i]? = some d →
    c.coflowState.code ≤ d.coflowState.code

/-- A move that takes no coflow back. -/
def Onward (s t : Scheduler) : Prop := Move s t ∧ Forward s t

theorem Forward.of_same {s t : Scheduler}
    (same : t.sCoflows.map (fun c => c.coflowState) = s.sCoflows.map fun c => c.coflowState) : Forward s t := by
  refine ⟨by simpa using congrArg List.length same, fun i c d atC atD => ?_⟩
  have entry := congrArg (fun l => l[i]?) same
  simp only [List.getElem?_map, atC, atD, Option.map_some, Option.some.injEq] at entry
  rw [entry]

theorem Forward.of_set {s t : Scheduler} {i : Nat} {co co' : Coflow} (atI : s.sCoflows[i]? = some co)
    (after : t.sCoflows = s.sCoflows.set i co') (raised : co.coflowState.code ≤ co'.coflowState.code) :
    Forward s t := by
  refine ⟨by rw [after, List.length_set], fun j c d atC atD => ?_⟩
  rw [after, List.getElem?_set] at atD
  split at atD
  · rename_i here
    subst here
    split at atD
    · cases atD
      rw [atI] at atC
      cases atC
      exact raised
    · cases atD
  · rw [atC] at atD
    cases atD
    exact Nat.le_refl _

theorem Forward.of_modify {s t : Scheduler} {i : Nat} {update : Coflow → Coflow}
    (after : t.sCoflows = s.sCoflows.modify i update)
    (raises : ∀ co, co.coflowState.code ≤ (update co).coflowState.code) : Forward s t := by
  refine ⟨by rw [after, List.length_modify], fun j c d atC atD => ?_⟩
  rw [after, List.getElem?_modify, atC] at atD
  cases atD
  dsimp only
  split
  · exact raises c
  · exact Nat.le_refl _

/-- Where the loop of `run` stands: the first coflows are dispatched, the ones
registered since are all in one state, and no other has been touched. -/
structure Standing (coflows : List Coflow) (pending : CoflowState) (sent : Nat) (s : Scheduler) : Prop where
  orders : s.sCoflows.map Coflow.order = coflows.map Coflow.order
  registered : s.registerIndex ≤ coflows.length
  within : sent ≤ s.registerIndex
  states : ∀ i c, s.sCoflows[i]? = some c →
    c.coflowState = if i < sent then .runninged else if i < s.registerIndex then pending else .unregister
  calls : s.calls.map Dispatched.summary = dueCalls (coflows.map Coflow.order) sent

/-- With every registered coflow dispatched, none is left in between. -/
theorem Standing.of_settled {coflows : List Coflow} {before : CoflowState} {s : Scheduler}
    (standing : Standing coflows before s.registerIndex s) (pending : CoflowState) :
    Standing coflows pending s.registerIndex s := by
  refine ⟨standing.orders, standing.registered, standing.within, fun i c atI => ?_, standing.calls⟩
  rw [standing.states i c atI]
  split <;> rfl

theorem Standing.registerLoop {coflows : List Coflow} {sent : Nat} {s : Scheduler}
    (standing : Standing coflows .registed sent s) (t : Int) (n : Nat) :
    Standing coflows .registed sent (registerLoop t n s) ∧
      Relation.ReflTransGen Onward s (Scheduler.registerLoop t n s) := by
  induction n generalizing s with
  | zero => exact ⟨standing, .refl⟩
  | succ n ih =>
    unfold Scheduler.registerLoop
    split
    · exact ⟨standing, .refl⟩
    · rename_i co atIndex
      split
      · rename_i due
        obtain ⟨inside, -⟩ := List.getElem?_eq_some_iff.mp atIndex
        have length : s.sCoflows.length = coflows.length := by simpa using congrArg List.length standing.orders
        have unregister : co.coflowState = .unregister := by
          have state := standing.states _ co atIndex
          have below : ¬ s.registerIndex < sent := Nat.not_lt.mpr standing.within
          rwa [if_neg below, if_neg (Nat.lt_irrefl _)] at state
        have next : Standing coflows .registed sent { s with
            sCoflows := s.sCoflows.set s.registerIndex (co.setCoflowState .registed)
            registerIndex := s.registerIndex + 1 } := by
          have orders : (s.sCoflows.set s.registerIndex (co.setCoflowState .registed)).map Coflow.order =
              s.sCoflows.map Coflow.order := map_set_same atIndex rfl
          refine ⟨orders.trans standing.orders, length ▸ inside,
            standing.within.trans (Nat.le_succ _), fun i c atI => ?_, standing.calls⟩
          dsimp only at atI ⊢
          rw [List.getElem?_set] at atI
          have within := standing.within
          split at atI
          · rename_i here
            subst here
            cases atI
            rw [if_neg (Nat.not_lt.mpr within), if_pos (Nat.lt_succ_self _)]
            rfl
          · rename_i other
            rw [standing.states i c atI]
            have same : i < s.registerIndex + 1 ↔ i < s.registerIndex := by omega
            simp only [same]
        have raised : co.coflowState.code ≤ (co.setCoflowState .registed).coflowState.code := by
          rw [unregister]
          exact Nat.zero_le _
        obtain ⟨later, path⟩ := ih next
        exact ⟨later, .head ⟨.register atIndex due, .of_set atIndex rfl raised⟩ path⟩
      · exact ⟨standing, .refl⟩

theorem select_onward (s : Scheduler) : Relation.ReflTransGen Onward s s.select := by
  have loop (indices : List Nat) (below : ∀ i ∈ indices, i < s.registerIndex) (coflows : List Coflow) :
      Relation.ReflTransGen Onward { s with sCoflows := coflows } { s with
        sCoflows := indices.foldl (fun coflows i => coflows.modify i Coflow.selected) coflows } := by
    induction indices generalizing coflows with
    | nil => exact .refl
    | cons i rest ih =>
      have move : Move { s with sCoflows := coflows } { s with sCoflows := coflows.modify i Coflow.selected } :=
        .select (below i (by simp))
      refine .head ⟨move, .of_modify rfl fun co => ?_⟩ (ih (fun j member => below j (by simp [member])) _)
      unfold Coflow.selected
      split
      · rename_i registed
        rw [registed]
        exact (by decide : CoflowState.registed.code ≤ CoflowState.running.code)
      · exact Nat.le_refl _
  exact loop _ (fun i member => List.mem_range.mp member) s.sCoflows

theorem Standing.select {coflows : List Coflow} {sent : Nat} {s : Scheduler}
    (standing : Standing coflows .registed sent s) : Standing coflows .running sent s.select := by
  refine ⟨(s.select_map fun _ _ => rfl).trans standing.orders, standing.registered, standing.within,
    fun i c atI => ?_, standing.calls⟩
  unfold Scheduler.select at atI
  dsimp only at atI
  rw [getElem?_foldl_modify _ List.nodup_range] at atI
  split at atI
  · rename_i member
    have below : i < s.registerIndex := List.mem_range.mp member
    obtain ⟨co, atI', rfl⟩ := Option.map_eq_some_iff.mp atI
    have state := standing.states i co atI'
    change _ = if i < sent then CoflowState.runninged else if i < s.registerIndex then .running else .unregister
    rw [if_pos below] at state ⊢
    by_cases dispatched : i < sent
    · rw [if_pos dispatched] at state ⊢
      simp [state]
    · rw [if_neg dispatched] at state ⊢
      simp [state, Coflow.setCoflowState]
  · rename_i outside
    have above : ¬ i < s.registerIndex := fun below => outside (List.mem_range.mpr below)
    have state := standing.states i c atI
    rw [if_neg above] at state
    rw [state]
    exact (if_congr Iff.rfl rfl (if_neg above)).symm

theorem sendTaskLoop_onward {i : Nat} {co : Coflow} {f : Flow} {s t : Scheduler} {sends rest : List SendOutcome}
    (atI : s.sCoflows[i]? = some co) (running : co.coflowState = .running)
    (loop : s.sendTaskLoop i co f sends = some (t, rest)) : Onward s t ∧ t.sCoflows = s.sCoflows := by
  obtain ⟨kernel, call, called, rfl⟩ := sendTaskLoop_called loop
  exact ⟨⟨.send atI running called, .of_same rfl⟩, rfl⟩

theorem sendFlows_onward {i : Nat} {co : Coflow} {fs : List Flow} {s t : Scheduler} {sends rest : List SendOutcome}
    (atI : s.sCoflows[i]? = some co) (running : co.coflowState = .running)
    (sent : fs.foldlM (fun (s, sends) f => s.sendTaskLoop i co (f.setCurrentMbs 10) sends) (s, sends) =
      some (t, rest)) : Relation.ReflTransGen Onward s t := by
  induction fs generalizing s sends with
  | nil =>
    cases sent
    exact .refl
  | cons f fs ih =>
    rw [List.foldlM_cons] at sent
    obtain ⟨⟨u, left⟩, first, later⟩ := Option.bind_eq_some_iff.mp sent
    obtain ⟨move, same⟩ := sendTaskLoop_onward atI running first
    exact .head move (ih (by rw [same]; exact atI) later)

/-- The calls of a coflow are one for each of its flows, all returning true. -/
theorem summaries_of_sent {mm : MachineManager} {i : Nat} {co : Coflow} {more : List Dispatched}
    (flows : more.map (fun d => d.flow) = co.flowCollection.values.map fun f => f.setCurrentMbs 10)
    (all : ∀ d ∈ more, d.coflow = i ∧ d.Sent mm co.coflowID) : more.map Dispatched.summary = dueOf i co.order := by
  have tasks := congrArg (List.map fun f : Flow => (i, f.task, true)) flows
  rw [List.map_map, List.map_map] at tasks
  rw [dueOf, Coflow.order, List.map_map]
  refine Eq.trans (List.map_congr_left fun d member => ?_) tasks
  obtain ⟨here, sent⟩ := all d member
  rw [Dispatched.summary, here, sent.result]
  rfl

/-- A coflow that is already dispatched is passed over; the next one gets its
calls and becomes `RUNNINGED`. -/
theorem Standing.dispatchCoflow {coflows : List Coflow} {sent i : Nat} {s t : Scheduler}
    {sends rest : List SendOutcome} (standing : Standing coflows .running sent s) (upTo : i ≤ sent)
    (below : i < s.registerIndex) (dispatched : s.dispatchCoflow sends i = some (t, rest)) :
    Standing coflows .running (max sent (i + 1)) t ∧ t.registerIndex = s.registerIndex ∧
      Relation.ReflTransGen Onward s t := by
  obtain ⟨co, atI, ⟨passed, rfl⟩ | ⟨running, u, flows, rfl⟩⟩ := dispatchCoflow_cases dispatched
  · have state := standing.states i co atI
    have already : i < sent := by
      by_contra fresh
      rw [if_neg fresh, if_pos below] at state
      exact passed state
    rw [max_eq_left already]
    exact ⟨standing, rfl, .refl⟩
  · have state := standing.states i co atI
    have fresh : ¬ i < sent := by
      intro already
      rw [if_pos already, running] at state
      cases state
    have here : i = sent := le_antisymm upTo (Nat.not_lt.mp fresh)
    subst here
    have sending := sendFlows_onward atI running flows
    obtain ⟨more, after, -, sentFlows, all⟩ := sendFlows_spec flows
    have coflowsKept : u.sCoflows = s.sCoflows := by rw [after]
    have calls : u.calls = s.calls ++ more := by rw [after]
    have index : u.registerIndex = s.registerIndex := by rw [after]
    rw [← coflowsKept] at atI
    obtain ⟨inside, -⟩ := List.getElem?_eq_some_iff.mp atI
    have settledOrder : co.settled.order = co.order := by
      simp [Coflow.settled, Coflow.order, OrderedMap.values, OrderedMap.mapEntries, Flow.setCurrentMbs]
    have orders : (u.sCoflows.set i co.settled).map Coflow.order = coflows.map Coflow.order := by
      rw [map_set_same atI settledOrder, coflowsKept, standing.orders]
    have ordered : (coflows.map Coflow.order)[i]? = some co.order := by
      rw [← standing.orders, ← coflowsKept, List.getElem?_map, atI]
      rfl
    have settle : Onward u { u with sCoflows := u.sCoflows.set i co.settled } := by
      refine ⟨.settle atI running, .of_set atI rfl ?_⟩
      rw [running]
      exact (by decide : CoflowState.running.code ≤ CoflowState.runninged.code)
    rw [max_eq_right (Nat.le_succ i)]
    refine ⟨⟨orders, index ▸ standing.registered, ?_, fun j c atJ => ?_, ?_⟩, index, sending.tail settle⟩
    · exact index ▸ below
    · change (u.sCoflows.set i co.settled)[j]? = some c at atJ
      change _ = if j < i + 1 then CoflowState.runninged else if j < u.registerIndex then .running else .unregister
      rw [List.getElem?_set] at atJ
      rw [index]
      split at atJ
      · rename_i here
        subst here
        cases atJ
        rw [if_pos (Nat.lt_succ_self i)]
        rfl
      · rename_i other
        rw [coflowsKept] at atJ
        rw [standing.states j c atJ]
        have same : j < i + 1 ↔ j < i := by omega
        simp only [same]
    · rw [dueCalls_succ ordered]
      change u.calls.map Dispatched.summary = _
      rw [calls, List.map_append, standing.calls, summaries_of_sent sentFlows all]

theorem Standing.dispatch {coflows : List Coflow} {sent : Nat} {s t : Scheduler} {sends rest : List SendOutcome}
    (standing : Standing coflows .running sent s) (dispatched : s.dispatch sends = some (t, rest)) :
    Standing coflows .running t.registerIndex t ∧ t.registerIndex = s.registerIndex ∧
      Relation.ReflTransGen Onward s t := by
  have loop (k : Nat) (upTo : k ≤ s.registerIndex) (u : Scheduler) (left : List SendOutcome)
      (ran : (List.range k).foldlM (fun (s, sends) i => s.dispatchCoflow sends i) (s, sends) = some (u, left)) :
      Standing coflows .running (max sent k) u ∧ u.registerIndex = s.registerIndex ∧
        Relation.ReflTransGen Onward s u := by
    induction k generalizing u left with
    | zero =>
      cases ran
      rw [max_eq_left (Nat.zero_le sent)]
      exact ⟨standing, rfl, .refl⟩
    | succ k ih =>
      rw [List.range_succ, List.foldlM_append] at ran
      obtain ⟨⟨v, before⟩, first, last⟩ := Option.bind_eq_some_iff.mp ran
      obtain ⟨here, index, path⟩ := ih (Nat.le_of_succ_le upTo) v before first
      simp only [List.foldlM_cons, List.foldlM_nil, bind_pure] at last
      obtain ⟨next, same, step⟩ := here.dispatchCoflow (le_max_right sent k) (index ▸ upTo) last
      rw [max_assoc, max_eq_right (Nat.le_succ k)] at next
      exact ⟨next, same.trans index, path.trans step⟩
  obtain ⟨all, index, path⟩ := loop s.registerIndex (Nat.le_refl _) t rest dispatched
  rw [max_eq_right standing.within, ← index] at all
  exact ⟨all, index, path⟩

theorem flowEnd_state (c : Coflow) (flowID endtime : CInt) :
    (c.flowEnd flowID endtime).2.coflowState = c.coflowState ∧ (c.flowEnd flowID endtime).2.order = c.order := by
  have task (key : CInt) (f : Flow) :
      ((if key = flowID then (f.setFlowState FLOWEND).setEndTime endtime else f).setCurrentMbs 10).task =
        (f.setCurrentMbs 10).task := by
    split <;> rfl
  unfold Coflow.flowEnd
  split
  · dsimp only
    split <;> simp [Coflow.order, OrderedMap.values, OrderedMap.modify, OrderedMap.mapEntries, task]
  · exact ⟨rfl, rfl⟩

/-- Polling gives out reports, one at a time, and leaves the coflows where
they stand. -/
structure Polled (s t : Scheduler) : Prop where
  states : t.sCoflows.map (fun c => c.coflowState) = s.sCoflows.map fun c => c.coflowState
  orders : t.sCoflows.map Coflow.order = s.sCoflows.map Coflow.order
  index : t.registerIndex = s.registerIndex
  calls : t.calls = s.calls
  path : Relation.ReflTransGen Onward s t

theorem Polled.refl (s : Scheduler) : Polled s s := ⟨rfl, rfl, rfl, rfl, .refl⟩

theorem Polled.trans {s t u : Scheduler} (first : Polled s t) (second : Polled t u) : Polled s u :=
  ⟨second.states.trans first.states, second.orders.trans first.orders, second.index.trans first.index,
    second.calls.trans first.calls, first.path.trans second.path⟩

theorem takeReport_polled (s : Scheduler) (ctime : Nat → Int) (info : FlowEndInfo) :
    Polled s (s.takeReport ctime info) := by
  have move : Move s (s.takeReport ctime info) := .report ctime info
  obtain ⟨line, -, -, after⟩ := s.takeReport_spec ctime info
  rw [after] at move ⊢
  have states := reportTo_map (fun c flowID endtime => (flowEnd_state c flowID endtime).1) info s.sCoflows
  have orders := reportTo_map (fun c flowID endtime => (flowEnd_state c flowID endtime).2) info s.sCoflows
  exact ⟨states, orders, rfl, rfl, .single ⟨move, .of_same states⟩⟩

theorem poll_polled (s : Scheduler) (ctime : Nat → Int) (arrivals : List (List FlowEndInfo)) :
    Polled s (s.poll ctime arrivals) := by
  have reports : Polled s (s.pollMachines ctime s.machines.m_physicsMachines arrivals).1 :=
    pollMachines_keeps (fun u info polled => polled.trans (u.takeReport_polled ctime info)) (.refl s) _ _
  exact reports.trans ⟨rfl, rfl, rfl, rfl, .single ⟨.queues _, .of_same rfl⟩⟩

theorem Standing.polled {coflows : List Coflow} {pending : CoflowState} {sent : Nat} {s t : Scheduler}
    (standing : Standing coflows pending sent s) (polled : Polled s t) : Standing coflows pending sent t := by
  refine ⟨polled.orders.trans standing.orders, polled.index ▸ standing.registered, polled.index ▸ standing.within,
    fun i c atI => ?_, ?_⟩
  · have entry := congrArg (fun l => l[i]?) polled.states
    simp only [List.getElem?_map, atI, Option.map_some] at entry
    obtain ⟨d, atI', same⟩ := Option.map_eq_some_iff.mp entry.symm
    rw [← same, polled.index, standing.states i d atI']
  · rw [polled.calls, standing.calls]

/-- An iteration up to the end of its second loop. -/
def dispatchPhase (s : Scheduler) (round : Round) : Option (Scheduler × List SendOutcome) :=
  (s.registerCoflow round.now).select.dispatch round.sends

theorem Dispatches.dispatchPhase {mm : MachineManager} {s t : Scheduler} {round : Round} {rest : List SendOutcome}
    (dispatches : Dispatches mm s) (dispatched : s.dispatchPhase round = some (t, rest)) : Dispatches mm t :=
  ((dispatches.registerLoop _ _).keepsPlan (select_keepsPlan _)).dispatch dispatched

theorem Standing.dispatchPhase {coflows : List Coflow} {pending : CoflowState} {s t : Scheduler} {round : Round}
    {rest : List SendOutcome} (standing : Standing coflows pending s.registerIndex s)
    (dispatched : s.dispatchPhase round = some (t, rest)) :
    Standing coflows .running t.registerIndex t ∧ Relation.ReflTransGen Onward s t := by
  obtain ⟨registered, first⟩ := (standing.of_settled .registed).registerLoop (round.now - s.startTime)
    (s.sCoflows.length - s.registerIndex)
  obtain ⟨settled, -, last⟩ := registered.select.dispatch dispatched
  exact ⟨settled, (first.trans (select_onward _)).trans last⟩

theorem Standing.iterate {coflows : List Coflow} {s t : Scheduler} {round : Round}
    (standing : Standing coflows .running s.registerIndex s) (pass : s.iterate round = some t) :
    Standing coflows .running t.registerIndex t ∧ Relation.ReflTransGen Onward s t := by
  obtain ⟨⟨u, rest⟩, dispatched, polled⟩ := Option.bind_eq_some_iff.mp pass
  obtain ⟨settled, first⟩ := standing.dispatchPhase dispatched
  cases polled
  have quiet := u.poll_polled round.ctime round.arrivals
  exact ⟨quiet.index ▸ settled.polled quiet, first.trans quiet.path⟩

theorem Standing.run {coflows : List Coflow} {s t : Scheduler} {rounds : List Round}
    (standing : Standing coflows .running s.registerIndex s) (ran : s.run rounds = some t) :
    Standing coflows .running t.registerIndex t ∧ Relation.ReflTransGen Onward s t := by
  refine run_keeps (P := fun u => Standing coflows .running u.registerIndex u ∧ Relation.ReflTransGen Onward s u)
    ?_ ⟨standing, .refl⟩ ran
  rintro u v round ⟨here, path⟩ - pass
  obtain ⟨next, step⟩ := here.iterate pass
  exact ⟨next, path.trans step⟩

theorem standing_init {coflows : List Coflow} (built : ∀ c ∈ coflows, c.Built) (mm : MachineManager)
    (startTime : Int) : Standing coflows .running 0 (init coflows mm startTime) :=
  ⟨rfl, Nat.zero_le _, Nat.le_refl _, fun _ _ atI => (built _ (List.mem_of_getElem? atI)).unregister, rfl⟩

end Scheduler

/-- The position of a coflow and the ID of its flow, in the order in which
they are to be sent. -/
def Ascending (d e : Dispatched) : Prop :=
  d.coflow < e.coflow ∨ d.coflow = e.coflow ∧ d.flow.flowID < e.flow.flowID

theorem order_ascending {c : Coflow} (built : c.Built) : c.order.2.Pairwise fun a b => a.1 < b.1 := by
  rw [Coflow.order, OrderedMap.values, List.map_map, List.pairwise_map]
  refine c.flowCollection.ordered.imp_of_mem fun {a b} first second below => ?_
  change a.2.flowID < b.2.flowID
  rw [built.keyed a first, built.keyed b second]
  exact below

theorem position_of_due {orders : List (CInt × List Task)} {i : Nat} {due : Nat × Task × Bool}
    (member : due ∈ (orders[i]?.map (dueOf i)).getD []) : due.1 = i := by
  cases atI : orders[i]? with
  | none => simp [atI] at member
  | some order =>
    rw [atI] at member
    obtain ⟨_, -, rfl⟩ := List.mem_map.mp member
    rfl

theorem dueCalls_ascending {coflows : List Coflow} (built : ∀ c ∈ coflows, c.Built) (n : Nat) :
    (dueCalls (coflows.map Coflow.order) n).Pairwise fun a b => a.1 < b.1 ∨ a.1 = b.1 ∧ a.2.1.1 < b.2.1.1 := by
  refine List.pairwise_flatMap.mpr ⟨fun i _ => ?_, ?_⟩
  · rw [List.getElem?_map]
    cases atI : coflows[i]? with
    | none => exact .nil
    | some c =>
      refine List.pairwise_map.mpr ?_
      exact (order_ascending (built c (List.mem_of_getElem? atI))).imp fun below => Or.inr ⟨rfl, below⟩
  · refine List.pairwise_lt_range.imp fun {i j} below a first b second => Or.inl ?_
    rw [position_of_due first, position_of_due second]
    exact below

/-- Every coflow below `registerIndex` is `RUNNINGED` and has had one call of
`sendTask` for each of its flows; no other has been touched. -/
structure DispatchedOnce (coflows : List Coflow) (mm : MachineManager) (s : Scheduler) : Prop where
  length : s.sCoflows.length = coflows.length
  states : ∀ i c, s.sCoflows[i]? = some c →
    c.coflowState = if i < s.registerIndex then .runninged else .unregister
  calls : s.calls.map Dispatched.summary = dueCalls (coflows.map Coflow.order) s.registerIndex
  ascending : s.calls.Pairwise Ascending
  instructions : ∀ d ∈ s.calls, ∃ c, coflows[d.coflow]? = some c ∧
    mm.instruction c.coflowID d.flow = some (d.call.mapper, d.call.frame)

theorem Scheduler.Standing.dispatchedOnce {coflows : List Coflow} {mm : MachineManager} {s : Scheduler}
    (standing : Scheduler.Standing coflows .running s.registerIndex s) (dispatches : Scheduler.Dispatches mm s)
    (built : ∀ c ∈ coflows, c.Built) : DispatchedOnce coflows mm s := by
  refine ⟨by simpa using congrArg List.length standing.orders, fun i c atI => ?_, standing.calls, ?_,
    fun d member => ?_⟩
  · rw [standing.states i c atI]
    split <;> rfl
  · have ascending := dueCalls_ascending built s.registerIndex
    rw [← standing.calls, List.pairwise_map] at ascending
    exact ascending
  · obtain ⟨c, atC, sent⟩ := dispatches.sent d member
    have entry := congrArg (fun l => l[d.coflow]?) standing.orders
    simp only [List.getElem?_map, atC, Option.map_some] at entry
    obtain ⟨c', atC', same⟩ := Option.map_eq_some_iff.mp entry.symm
    have coflowID : c'.coflowID = c.coflowID := congrArg Prod.fst same
    exact ⟨c', atC', coflowID ▸ sent.instruction⟩

/-- Whatever the clock reads and the machines report, states only move
forward, and after the second loop of every iteration as between iterations
the registered coflows have been dispatched, each flow once. -/
theorem dispatched_once {coflows : List Coflow} (built : ∀ c ∈ coflows, c.Built) {mm : MachineManager}
    {startTime : Int} {rounds : List Round} {s : Scheduler}
    (ran : (Scheduler.init coflows mm startTime).run rounds = some s) :
    Relation.ReflTransGen Scheduler.Onward (Scheduler.init coflows mm startTime) s ∧ DispatchedOnce coflows mm s ∧
      ∀ round t rest, s.dispatchPhase round = some (t, rest) →
        Relation.ReflTransGen Scheduler.Onward s t ∧ DispatchedOnce coflows mm t := by
  have unregistered : ∀ c ∈ coflows, c.coflowState = .unregister := fun c member => (built c member).unregister
  have dispatches := (Scheduler.dispatches_init unregistered mm startTime).run ran
  obtain ⟨standing, path⟩ := (Scheduler.standing_init built mm startTime).run ran
  refine ⟨path, standing.dispatchedOnce dispatches built, fun round t rest phase => ?_⟩
  obtain ⟨settled, onward⟩ := standing.dispatchPhase phase
  exact ⟨onward, settled.dispatchedOnce (dispatches.dispatchPhase phase) built⟩

theorem fanOut_built (flows : Nat) : (fanOut flows).Built := by
  have loop (indices : List Int) : (indices.foldl (fun c k =>
      c.addFlow (.clamp (2147483000 + k)) (.clamp 0) (.clamp 0) 2) (Coflow.create (.clamp 2147483647) 0)).Built := by
    induction indices using List.reverseRecOn with
    | nil => exact .create _ _
    | append_singleton indices k ih =>
      rw [List.foldl_append]
      exact .addFlow ih _ _ _ _
  exact loop _

/-- One coflow with two flows, in one iteration. -/
theorem dispatched_once_two : ∃ s, blockedRun 2 = some s ∧ DispatchedOnce [fanOut 2] oneMachine s := by
  obtain ⟨s, ran⟩ := Option.isSome_iff_exists.mp (show (blockedRun 2).isSome = true by decide +kernel)
  exact ⟨s, ran, (dispatched_once (List.forall_mem_singleton.mpr (fanOut_built 2)) ran).2.1⟩

end CoflowSim
