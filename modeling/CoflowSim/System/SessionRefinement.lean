import CoflowSim.Master.RecordLevel
import CoflowSim.System.SessionProgress

namespace CoflowSim
open Lib

theorem SocketManage.unread_of_sendHalf {s t : SocketManage} (same : s.sendHalf = t.sendHalf) : s.unread = t.unread := by
  obtain ⟨buffer, size⟩ := Prod.mk.inj same
  rw [unread, unread, buffer, size]

/-- At the level of records, a poll puts some records in the queue. -/
theorem Machine.parse_unread {m next : Machine} {chunk : List Byte} {flowEndIndex flowStartIndex : Int}
    (parsed : (m.receive chunk).parseFlowsFinishedInfo flowEndIndex flowStartIndex = some next) :
    ∃ pushed, next.unread = { m.unread with flowsFinishedInfo := m.flowsFinishedInfo ++ pushed } := by
  have received : (m.receive chunk).unread = m.unread := by
    rw [unread, unread, receive, SocketManage.unread_of_sendHalf (SocketManage.recvMsg_sendHalf _ _)]
  unfold parseFlowsFinishedInfo at parsed
  split at parsed
  · cases parsed
    refine ⟨[], ?_⟩
    rw [received, List.append_nil]
    rfl
  · obtain ⟨scan, -, finished⟩ := Option.bind_eq_some_iff.mp parsed
    have taken : (m.receive chunk).takeReceived.unread = m.unread := Eq.trans rfl received
    have queue : (m.receive chunk).takeReceived.flowsFinishedInfo = m.flowsFinishedInfo := rfl
    rw [← taken, ← queue]
    refine ⟨scan.pushed, ?_⟩
    unfold keepUnfinished at finished
    split at finished
    · split at finished
      · cases finished
      · cases finished
        rfl
    · cases finished
      rfl

namespace Scheduler

variable {start : Scheduler}

/-- An iteration of `run` in which the first `i` coflows have been looked at. -/
def SentUpTo (start : Scheduler) (i : Nat) (w : Scheduler) : Prop :=
  ∃ rounds u now sends, start.run rounds = some u ∧ u.returned = false ∧
    w.registerIndex = (u.registerCoflow now).select.registerIndex ∧
    ∀ more, (List.range i).foldlM (fun (s, sends) i => s.dispatchCoflow sends i)
      ((u.registerCoflow now).select, sends ++ more) = some (w, more)

/-- An iteration of `run` whose dispatch is over. -/
def Opened (start v : Scheduler) : Prop :=
  ∃ rounds u now sends, start.run rounds = some u ∧ u.returned = false ∧
    (u.registerCoflow now).select.dispatch sends = some (v, [])

theorem SentUpTo.opened {i : Nat} {w : Scheduler} (sent : SentUpTo start i w) (all : i = w.registerIndex) :
    Opened start w := by
  obtain ⟨rounds, u, now, sends, ran, going, index, first⟩ := sent
  refine ⟨rounds, u, now, sends, ran, going, ?_⟩
  have whole := first []
  rwa [List.append_nil, all, index] at whole

theorem SentUpTo.next {i : Nat} {w x : Scheduler} {used : List SendOutcome} (sent : SentUpTo start i w)
    (index : x.registerIndex = w.registerIndex)
    (dispatched : ∀ more, w.dispatchCoflow (used ++ more) i = some (x, more)) : SentUpTo start (i + 1) x := by
  obtain ⟨rounds, u, now, sends, ran, going, same, first⟩ := sent
  refine ⟨rounds, u, now, sends ++ used, ran, going, index.trans same, fun more => ?_⟩
  rw [List.range_succ, List.foldlM_append, List.append_assoc, first]
  simp only [Option.bind_eq_bind, Option.bind_some, List.foldlM_cons, List.foldlM_nil, dispatched]
  rfl

/-- The iteration ends with its poll. -/
theorem Opened.poll {v t : Scheduler} (opened : Opened start v) {ctime : Nat → Int}
    {arrivals : List (List FlowEndInfo)} {machines : List Machine}
    (polled : v.pollMachines ctime v.machines.m_physicsMachines arrivals = (t, machines)) :
    ∃ rounds, start.run rounds = some { t with machines := { t.machines with m_physicsMachines := machines } } := by
  obtain ⟨rounds, u, now, sends, ran, going, dispatched⟩ := opened
  refine ⟨rounds ++ [⟨now, ctime, sends, arrivals⟩], run_snoc ran going ?_⟩
  refine Option.bind_eq_some_iff.mpr ⟨(v, []), dispatched, ?_⟩
  have last : v.poll ctime arrivals = { t with machines := { t.machines with m_physicsMachines := machines } } := by
    simp only [Scheduler.poll, polled]
  exact congrArg some last

/-- `run` is in the loop over the flows of the coflow at position `i`. -/
inductive SendingAt (start : Scheduler) (i : Nat) (flows : List Flow) (m : Scheduler) : Prop
  | intro {w : Scheduler} {co : Coflow} {done : List Flow} {used : List SendOutcome} (sent : SentUpTo start i w)
      (below : i < w.registerIndex) (here : w.sCoflows[i]? = some co) (running : co.coflowState = .running)
      (values : co.flowCollection.values = done ++ flows)
      (loop : ∀ more, done.foldlM (fun (s, sends) f => s.sendTaskLoop i co (f.setCurrentMbs 10) sends)
        (w, used ++ more) = some (m, more))
      (coflows : m.sCoflows = w.sCoflows) (index : m.registerIndex = w.registerIndex)

/-- `run` has polled the machines before position `p`. The clock has been read
for the lines written so far. -/
inductive PolledUpTo (start : Scheduler) (p : Nat) (m : Scheduler) : Prop
  | intro {v w : Scheduler} {clock : Nat → Int} {first polled rest : List Machine}
      {arrivals : List (List FlowEndInfo)} (opened : Opened start v)
      (machines : v.machines.m_physicsMachines = first ++ rest) (position : polled.length = p)
      (length : first.length = p) (each : arrivals.length = p) (going : w.returned = false)
      (done : ∀ ctime, (∀ k < w.coflowFinishedNum, ctime k = clock k) →
        v.pollMachines ctime first arrivals = (w, polled))
      (here : m = { w with machines := { w.machines with m_physicsMachines := polled ++ rest } })

/-- `run` is in the loop over the records of the machine at position `p`. -/
inductive Draining (start : Scheduler) (p : Nat) (m : Scheduler) : Prop
  | intro {v w x : Scheduler} {clock : Nat → Int} {first polled rest : List Machine} {it : Machine}
      {arrivals : List (List FlowEndInfo)} {pushed seen left : List FlowEndInfo} (opened : Opened start v)
      (machines : v.machines.m_physicsMachines = first ++ it :: rest) (position : polled.length = p)
      (length : first.length = p) (each : arrivals.length = p) (queue : it.flowsFinishedInfo ++ pushed = seen ++ left)
      (before : w.returned = false) (going : x.returned = false)
      (done : ∀ ctime, (∀ k < x.coflowFinishedNum, ctime k = clock k) →
        v.pollMachines ctime first arrivals = (w, polled) ∧ w.drainQueue ctime seen = (x, []))
      (here : m = { x with machines := { x.machines with
        m_physicsMachines := polled ++ { it with flowsFinishedInfo := left } :: rest } })

end Scheduler

namespace Session

/-- Where `run` stands in an iteration at the level of records. -/
def Simulates (start : Scheduler) (s : Session) : Prop :=
  match s.phase with
  | .registering => s.master.returned = false ∧ ∃ rounds, start.run rounds = some s.master.unread
  | .dispatching i => Scheduler.SentUpTo start i s.master.unread ∧ i ≤ s.master.registerIndex
  | .sending i flows => Scheduler.SendingAt start i flows s.master.unread
  | .polling p => Scheduler.PolledUpTo start p s.master.unread
  | .draining p => Scheduler.Draining start p s.master.unread
  | .returned => ∃ rounds, start.run rounds = some s.master.unread

section Steps

variable {start : Scheduler} {s t : Session}

theorem Simulates.registerCoflow (sim : s.Simulates start) (now : Int) (top : s.phase = .registering) :
    Simulates start { s with master := (s.master.registerCoflow now).select, phase := .dispatching 0 } := by
  rw [Simulates, top] at sim
  obtain ⟨going, rounds, ran⟩ := sim
  have same : (s.master.registerCoflow now).select.unread = (s.master.unread.registerCoflow now).select := by
    have loop := Scheduler.registerLoop_unread (now - s.master.startTime)
      (s.master.sCoflows.length - s.master.registerIndex) s.master
    exact (congrArg Scheduler.select loop).symm
  refine ⟨⟨rounds, s.master.unread, now, [], ran, going, congrArg Scheduler.registerIndex same, fun more => ?_⟩,
    Nat.zero_le _⟩
  rw [same]
  rfl

theorem Simulates.enter (sim : s.Simulates start) {i : Nat} {co : Coflow} (at_i : s.phase = .dispatching i)
    (below : i < s.master.registerIndex) (here : s.master.sCoflows[i]? = some co)
    (running : co.coflowState = .running) :
    Simulates start { s with phase := .sending i co.flowCollection.values } := by
  rw [Simulates, at_i] at sim
  have loop (more : List SendOutcome) : ([] : List Flow).foldlM
      (fun (s, sends) f => Scheduler.sendTaskLoop i co (f.setCurrentMbs 10) s sends)
      (s.master.unread, [] ++ more) = some (s.master.unread, more) := rfl
  exact .intro sim.1 below here running (List.nil_append _).symm loop rfl rfl

theorem Simulates.skip (sim : s.Simulates start) {i : Nat} {co : Coflow} (at_i : s.phase = .dispatching i)
    (below : i < s.master.registerIndex) (here : s.master.sCoflows[i]? = some co)
    (other : co.coflowState ≠ .running) : Simulates start { s with phase := .dispatching (i + 1) } := by
  rw [Simulates, at_i] at sim
  have passed (more : List SendOutcome) :
      s.master.unread.dispatchCoflow ([] ++ more) i = some (s.master.unread, more) :=
    Option.bind_eq_some_iff.mpr ⟨co, here, if_neg other⟩
  exact ⟨sim.1.next rfl passed, below⟩

theorem Simulates.dispatched (sim : s.Simulates start) {i : Nat} (at_i : s.phase = .dispatching i)
    (all : s.master.registerIndex ≤ i) (going : s.master.returned = false) :
    Simulates start { s with phase := .polling 0 } := by
  rw [Simulates, at_i] at sim
  obtain ⟨sent, within⟩ := sim
  have whole : s.master.unread.machines.m_physicsMachines = [] ++ s.master.unread.machines.m_physicsMachines := rfl
  have none_yet : ∀ ctime : Nat → Int, (∀ k < s.master.unread.coflowFinishedNum, ctime k = (fun _ => 0) k) →
      s.master.unread.pollMachines ctime [] [] = (s.master.unread, []) := fun _ _ => rfl
  have further : s.master.unread.returned = false := going
  exact .intro (sent.opened (Nat.le_antisymm within all)) whole rfl rfl rfl further none_yet rfl

theorem Simulates.sendTask (sim : s.Simulates start) {i : Nat} {f : Flow} {flows : List Flow} {d : Dispatched}
    {kernel : SendOutcome} (sends : s.phase = .sending i (f :: flows)) (called : s.nextCall kernel = some d)
    (nodes : List Node) :
    Simulates start ⟨.sending i flows, { s.master with machines := d.call.machines, calls := s.master.calls ++ [d] },
      nodes⟩ := by
  rw [Simulates, sends] at sim
  obtain @⟨w, co, done, used, sent, below, here, running, values, loop, coflows, index⟩ := sim
  rw [nextCall, sends] at called
  obtain ⟨co', atI, found⟩ := Option.bind_eq_some_iff.mp called
  obtain ⟨call, sentCall, made⟩ := Option.bind_eq_some_iff.mp found
  cases made
  have known : s.master.unread.sCoflows[i]? = some co' := atI
  rw [coflows, here] at known
  cases known
  have result : call.unread.result = true := by
    obtain ⟨_, _, _, _, -, -, result, -⟩ := MachineManager.sendTask_spec sentCall
    exact result
  let after : Scheduler := { s.master with
    machines := call.machines, calls := s.master.calls ++ [⟨i, f.setCurrentMbs 10, call⟩] }
  have last (more : List SendOutcome) : s.master.unread.sendTaskLoop i co (f.setCurrentMbs 10) (kernel :: more) =
      some (after.unread, more) := by
    refine Option.bind_eq_some_iff.mpr ⟨call.unread, MachineManager.sendTask_unread sentCall, (if_pos result).trans ?_⟩
    simp only [after, Scheduler.unread, List.map_append]
    rfl
  have looped (more : List SendOutcome) : (done ++ [f]).foldlM
      (fun (s, sends) f => Scheduler.sendTaskLoop i co (f.setCurrentMbs 10) s sends) (w, (used ++ [kernel]) ++ more) =
        some (after.unread, more) := by
    rw [List.foldlM_append, List.append_assoc, loop]
    simp only [List.singleton_append, List.foldlM_cons, List.foldlM_nil, Option.bind_eq_bind, Option.bind_some, last]
    rfl
  exact .intro sent below here running (values.trans (List.append_cons _ _ _)) looped coflows index

theorem Simulates.settle (sim : s.Simulates start) {i : Nat} {co : Coflow} (sent : s.phase = .sending i [])
    (here : s.master.sCoflows[i]? = some co) :
    Simulates start { s with
      master := { s.master with sCoflows := s.master.sCoflows.set i co.settled }, phase := .dispatching (i + 1) } := by
  rw [Simulates, sent] at sim
  obtain @⟨w, co', done, used, sent, below, atI, running, values, loop, coflows, index⟩ := sim
  have known : s.master.unread.sCoflows[i]? = some co := here
  rw [coflows, atI] at known
  cases known
  rw [List.append_nil] at values
  have within : i < s.master.registerIndex := below.trans_eq index.symm
  rw [← values] at loop
  exact ⟨sent.next index fun more => Scheduler.dispatchCoflow_of_sent atI running (loop more), within⟩

/-- The machine at the position where two lists meet. -/
theorem getElem?_meet {α : Type} {before after : List α} {a : α} {p : Nat} (length : before.length = p)
    (here : (before ++ after)[p]? = some a) : ∃ rest, after = a :: rest := by
  rw [List.getElem?_append_right length.le, length, Nat.sub_self] at here
  cases after with
  | nil => cases here
  | cons first rest => exact ⟨rest, congrArg (· :: rest) (Option.some.inj here)⟩

theorem set_meet {α : Type} {before rest : List α} {a b : α} {p : Nat} (length : before.length = p) :
    (before ++ a :: rest).set p b = before ++ b :: rest := by
  rw [List.set_append_right _ _ length.le, length, Nat.sub_self, List.set_cons_zero]

theorem setMachine_unread (master : Scheduler) (p : Nat) (m : Machine) :
    (setMachine master p m).unread = setMachine master.unread p m.unread := by
  simp only [setMachine, Scheduler.unread, MachineManager.unread, List.map_set]

theorem machine_unread {p : Nat} {machine : Machine} (here : s.master.machines.m_physicsMachines[p]? = some machine) :
    s.master.unread.machines.m_physicsMachines[p]? = some machine.unread := by
  rw [Scheduler.unread, MachineManager.unread, List.getElem?_map, here]
  rfl

theorem Simulates.poll (sim : s.Simulates start) {p : Nat} {machine next : Machine} {chunk : List Byte}
    {flowEndIndex flowStartIndex : Int} (at_p : s.phase = .polling p)
    (here : s.master.machines.m_physicsMachines[p]? = some machine)
    (parsed : (machine.receive chunk).parseFlowsFinishedInfo flowEndIndex flowStartIndex = some next)
    (nodes : List Node) : Simulates start ⟨.draining p, setMachine s.master p next, nodes⟩ := by
  rw [Simulates, at_p] at sim
  obtain @⟨v, w, clock, first, polled, rest, arrivals, opened, machines, position, length, each, going, done, same⟩ := sim
  have atP : (polled ++ rest)[p]? = some machine.unread := by rw [← machine_unread here, same]
  obtain ⟨others, rfl⟩ := getElem?_meet position atP
  obtain ⟨pushed, after⟩ := Machine.parse_unread parsed
  have queue : machine.unread.flowsFinishedInfo ++ pushed = [] ++ (machine.flowsFinishedInfo ++ pushed) := rfl
  refine .intro opened machines position length each queue going going
    (fun ctime agrees => ⟨done ctime agrees, rfl⟩) ?_
  rw [setMachine_unread, same, setMachine, after]
  simp only [set_meet position]

theorem Simulates.report (sim : s.Simulates start) {p : Nat} {machine next : Machine} {info : FlowEndInfo}
    {ctime : Nat → Int} (drains : s.phase = .draining p)
    (here : s.master.machines.m_physicsMachines[p]? = some machine)
    (first : machine.getOneFlowEndInfo = some (info, next)) (nodes : List Node) :
    Simulates start {
      phase := if (s.master.takeReport ctime info).returned then .returned else .draining p
      master := setMachine (s.master.takeReport ctime info) p next
      nodes } := by
  rw [Simulates, drains] at sim
  obtain @⟨v, w, x, clock, before, polled, rest, it, arrivals, pushed, seen, left, opened, machines, position, length,
    each, queue, going, further, done, same⟩ := sim
  have atP : machine.unread = { it with flowsFinishedInfo := left } := by
    have unread := machine_unread here
    rw [same, List.getElem?_append_right position.le, position, Nat.sub_self] at unread
    exact (Option.some.inj unread).symm
  obtain ⟨left, rfl, after⟩ : ∃ later, left = info :: later ∧ next.unread = { it with flowsFinishedInfo := later } := by
    unfold Machine.getOneFlowEndInfo at first
    split at first
    · cases first
    · rename_i info later holds
      cases first
      have front : left = info :: later := (congrArg Machine.flowsFinishedInfo atP).symm.trans holds
      refine ⟨later, front, ?_⟩
      have kept := congrArg (fun m : Machine => { m with flowsFinishedInfo := later }) atP
      exact kept
  -- the line that the record writes is the next one, so the clock is free there
  let clock' (k : Nat) : Int := if k < x.coflowFinishedNum then clock k else ctime k
  have read : ∀ other : Nat → Int, (∀ k < (x.takeReport ctime info).coflowFinishedNum, other k = clock' k) →
      v.pollMachines other before arrivals = (w, polled) ∧ w.drainQueue other seen = (x, []) ∧
        x.takeReport other info = x.takeReport ctime info := by
    intro other agrees
    have earlier : ∀ k < x.coflowFinishedNum, other k = clock k := fun k below =>
      (agrees k (below.trans_le (x.takeReport_lines ctime info))).trans (if_pos below)
    obtain ⟨polled, drained⟩ := done other earlier
    refine ⟨polled, drained, Scheduler.takeReport_clock fun writes => ?_⟩
    exact (agrees _ writes).trans (if_neg (Nat.lt_irrefl _))
  have result : (setMachine (s.master.takeReport ctime info) p next).unread =
      { x.takeReport ctime info with machines := { (x.takeReport ctime info).machines with
        m_physicsMachines := polled ++ { it with flowsFinishedInfo := left } :: rest } } := by
    rw [setMachine_unread, Scheduler.takeReport_unread, same, Scheduler.takeReport_setMachines, setMachine, after,
      Scheduler.takeReport_machines]
    simp only [set_meet position]
  have flag := congrArg Scheduler.returned result
  change (s.master.takeReport ctime info).returned = (x.takeReport ctime info).returned at flag
  by_cases returned : (x.takeReport ctime info).returned = true
  · rw [if_pos (flag.trans returned)]
    obtain ⟨soFar, drained, written⟩ := read clock' fun _ _ => rfl
    have whole : w.drainQueue clock' (it.flowsFinishedInfo ++ pushed) = (x.takeReport ctime info, left) := by
      rw [queue, Scheduler.drainQueue_append drained further, Scheduler.drainQueue, written, if_pos returned]
    have last : v.pollMachines clock' v.machines.m_physicsMachines (arrivals ++ [pushed]) =
        (x.takeReport ctime info, polled ++ { it with flowsFinishedInfo := left } :: rest) := by
      rw [machines, Scheduler.pollMachines_append soFar going (each.trans length.symm),
        Scheduler.pollMachines_cons whole, if_pos returned]
    obtain ⟨rounds, ran⟩ := opened.poll last
    exact ⟨rounds, ran.trans (congrArg some result.symm)⟩
  · have goes : (x.takeReport ctime info).returned = false := Bool.eq_false_iff.mpr returned
    have later : it.flowsFinishedInfo ++ pushed = (seen ++ [info]) ++ left := queue.trans (List.append_cons _ _ _)
    rw [if_neg (flag ▸ returned)]
    have drains : ∀ other : Nat → Int, (∀ k < (x.takeReport ctime info).coflowFinishedNum, other k = clock' k) →
        v.pollMachines other before arrivals = (w, polled) ∧
          w.drainQueue other (seen ++ [info]) = (x.takeReport ctime info, []) := by
      intro other agrees
      obtain ⟨soFar, drained, written⟩ := read other agrees
      refine ⟨soFar, ?_⟩
      rw [Scheduler.drainQueue_append drained further, Scheduler.drainQueue, Scheduler.drainQueue, ite_self, written]
    exact .intro opened machines position length each later going goes drains result

theorem Simulates.drained (sim : s.Simulates start) {p : Nat} {machine : Machine} (drains : s.phase = .draining p)
    (here : s.master.machines.m_physicsMachines[p]? = some machine) (empty : machine.getOneFlowEndInfo = none) :
    Simulates start { s with phase := .polling (p + 1) } := by
  rw [Simulates, drains] at sim
  obtain @⟨v, w, x, clock, before, polled, rest, it, arrivals, pushed, seen, left, opened, machines, position, length,
    each, queue, going, further, done, same⟩ := sim
  have atP : machine.unread = { it with flowsFinishedInfo := left } := by
    have unread := machine_unread here
    rw [same, List.getElem?_append_right position.le, position, Nat.sub_self] at unread
    exact (Option.some.inj unread).symm
  obtain rfl : left = [] := by
    unfold Machine.getOneFlowEndInfo at empty
    split at empty
    · rename_i holds
      exact (congrArg Machine.flowsFinishedInfo atP).symm.trans holds
    · cases empty
  rw [List.append_nil] at queue
  have split : v.machines.m_physicsMachines = (before ++ [it]) ++ rest := machines.trans (List.append_cons _ _ _)
  have polls : ∀ other : Nat → Int, (∀ k < x.coflowFinishedNum, other k = clock k) →
      v.pollMachines other (before ++ [it]) (arrivals ++ [pushed]) =
        (x, polled ++ [{ it with flowsFinishedInfo := [] }]) := by
    intro other agrees
    obtain ⟨soFar, drained⟩ := done other agrees
    have whole : w.drainQueue other (it.flowsFinishedInfo ++ pushed) = (x, []) := by rw [queue, drained]
    rw [Scheduler.pollMachines_append soFar going (each.trans length.symm), Scheduler.pollMachines_cons whole,
      further]
    rfl
  refine .intro opened split (by simp [position]) (by simp [length]) (by simp [each]) further polls ?_
  rw [← List.append_cons]
  exact same

theorem Simulates.polled (sim : s.Simulates start) {p : Nat} (at_p : s.phase = .polling p)
    (all : s.master.machines.m_physicsMachines.length ≤ p) : Simulates start { s with phase := .registering } := by
  rw [Simulates, at_p] at sim
  obtain @⟨v, w, clock, first, polled, rest, arrivals, opened, machines, position, length, each, going, done, same⟩ := sim
  have size : s.master.machines.m_physicsMachines.length = (polled ++ rest).length := by
    have whole : s.master.unread.machines.m_physicsMachines.length = (polled ++ rest).length := by rw [same]
    rwa [Scheduler.unread, MachineManager.unread, List.length_map] at whole
  obtain rfl : rest = [] := by
    rw [size, List.length_append, position] at all
    exact List.length_eq_zero_iff.mp (by omega)
  rw [List.append_nil] at machines
  obtain ⟨rounds, ran⟩ := opened.poll (machines ▸ done clock fun _ _ => rfl)
  rw [List.append_nil] at same
  have further : s.master.unread.returned = false := by rw [same]; exact going
  exact ⟨further, rounds, ran.trans (congrArg some same.symm)⟩

/-- `run` has returned where the phase says so. -/
theorem Step.returned_iff {a : SessionAction} (step : Step s a t)
    (flag : s.master.returned = true ↔ s.phase = .returned) : t.master.returned = true ↔ t.phase = .returned := by
  cases step with
  | registerCoflow now top =>
    obtain ⟨sCoflows, registerIndex, after⟩ := registerLoop_frame (now - s.master.startTime)
      (s.master.sCoflows.length - s.master.registerIndex) s.master
    have kept : (s.master.registerCoflow now).select.returned = s.master.returned := by
      rw [Scheduler.select, Scheduler.registerCoflow, after]
    simpa [kept, top] using flag
  | enter at_i => simpa [at_i] using flag
  | skip at_i => simpa [at_i] using flag
  | dispatched at_i => simpa [at_i] using flag
  | sendTask _ sends => simpa [sends] using flag
  | settle sent => simpa [sent] using flag
  | poll at_p => simpa [at_p, setMachine] using flag
  | polled at_p => simpa [at_p] using flag
  | report ctime =>
    simp only [setMachine]
    split
    · rename_i returned
      exact iff_of_true returned rfl
    · rename_i further
      exact iff_of_false further (by simp)
  | drained drains => simpa [drains] using flag
  | receive | client => exact flag

theorem Simulates.step {a : SessionAction} (sim : s.Simulates start)
    (flag : s.master.returned = true ↔ s.phase = .returned) (step : Step s a t) : t.Simulates start := by
  cases step with
  | registerCoflow now top => exact sim.registerCoflow now top
  | enter at_i below here running => exact sim.enter at_i below here running
  | skip at_i below here other => exact sim.skip at_i below here other
  | dispatched at_i all =>
    refine sim.dispatched at_i all (Bool.eq_false_iff.mpr fun returned => ?_)
    rw [flag, at_i] at returned
    cases returned
  | sendTask kernel sends called => exact sim.sendTask sends called _
  | settle sent here => exact sim.settle sent here
  | poll at_p here client arrives fits parsed => exact sim.poll at_p here parsed _
  | polled at_p all => exact sim.polled at_p all
  | report ctime drains here client first => exact sim.report drains here first _
  | drained drains here empty => exact sim.drained drains here empty
  | receive | client => exact sim

end Steps

/-- Whatever the bytes do on the way, the master is at the top of its loop, or
behind its `return`, only where some iterations of `run` over whole records lead. -/
theorem session_refines_run {coflows : List Coflow} {mm : MachineManager} {startTime : Int}
    {pools : List (ThreadPool Caller Job)} {acts : List SessionAction} {s : Session}
    (run : Run Step (init (Scheduler.init coflows mm startTime) pools) acts s)
    (between : s.phase = .registering ∨ s.phase = .returned) :
    ∃ rounds, (Scheduler.init coflows mm startTime).unread.run rounds = some s.master.unread := by
  obtain ⟨sim, -⟩ := run.invariant
    (I := fun s => s.Simulates (Scheduler.init coflows mm startTime).unread ∧
      (s.master.returned = true ↔ s.phase = .returned))
    ⟨⟨rfl, [], rfl⟩, iff_of_false nofun nofun⟩
    fun _ _ _ held last => ⟨held.1.step held.2 last, last.returned_iff held.2⟩
  cases between with
  | inl top =>
    rw [Simulates, top] at sim
    exact sim.2
  | inr returned =>
    rw [Simulates, returned] at sim
    exact sim

theorem session_refines_run_one : ∃ (s : Session) (rounds : List Round), s.master.taken ≠ [] ∧
    (Scheduler.init [fanOut 1] oneMachine 0).unread.run rounds = some s.master.unread := by
  obtain ⟨f, call, single⟩ := one_single
  obtain ⟨pool, acts, s, info, co, -, run, -, -, taken, -, -, between⟩ := single.flow_ends
  obtain ⟨rounds, ran⟩ := session_refines_run run.unguarded between
  exact ⟨s, rounds, List.ne_nil_of_mem taken, ran⟩

end Session

end CoflowSim
