import CoflowSim.Lib.FormattedInput
import CoflowSim.Lib.OrderedMap
import CoflowSim.Lib.Tally
import Mathlib.Data.Rat.Defs
import Mathlib.Algebra.Order.Ring.Rat

namespace CoflowSim
open Lib

def FLOWNOEND : Bool := false
def FLOWEND : Bool := true

/-- The `double` fields are rationals. -/
structure Flow where
  flowID : CInt
  mapperID : CInt
  reducerID : CInt
  flowSizeMB : Rat
  currentMbs : Rat
  flowState : Bool
  endTime : CInt
deriving DecidableEq

namespace Flow

def create (flowID mapperID reducerID : CInt) (flowSizeMB : Rat) : Flow :=
  { flowID, mapperID, reducerID, flowSizeMB, currentMbs := 0, flowState := FLOWNOEND, endTime := CInt.zero }

def setFlowState (f : Flow) (flowState : Bool) : Flow := { f with flowState }

def setEndTime (f : Flow) (endTime : CInt) : Flow := { f with endTime }

def setCurrentMbs (f : Flow) (currentMbs : Rat) : Flow := { f with currentMbs }

end Flow

inductive CoflowState
  | unregister
  | registed
  | running
  | runninged
deriving DecidableEq

/-- `endtime` has no value until the coflow ends. -/
structure Coflow where
  coflowID : CInt
  startTime : Rat
  coflowState : CoflowState
  flowCollection : OrderedMap CInt Flow
  endflowNum : Nat
  endtime : Option CInt
deriving DecidableEq

namespace Coflow

def create (coflowID : CInt) (startTime : Rat) : Coflow :=
  { coflowID, startTime, coflowState := .unregister, flowCollection := .empty, endflowNum := 0, endtime := none }

def addFlow (c : Coflow) (flowID mapperID reducerID : CInt) (flowSizeMB : Rat) : Coflow :=
  { c with flowCollection :=
      c.flowCollection.insert flowID (.create flowID mapperID reducerID flowSizeMB) }

def getFlowsNum (c : Coflow) : Nat := c.flowCollection.size

def setCoflowState (c : Coflow) (coflowState : CoflowState) : Coflow := { c with coflowState }

def flowEnd (c : Coflow) (flowID endtime : CInt) : Bool × Coflow :=
  if flowID ∈ c.flowCollection.keys then
    let c := { c with
      flowCollection := c.flowCollection.modify flowID fun f => (f.setFlowState FLOWEND).setEndTime endtime
      endflowNum := c.endflowNum + 1 }
    if c.flowCollection.size ≤ c.endflowNum then (true, { c with endtime := some endtime }) else (false, c)
  else (false, c)

/-- The keys of `flowCollection`. -/
def flowIDs (c : Coflow) : List CInt := c.flowCollection.keys

/-- How many flows of the coflow are in the state `FLOWEND`. -/
def endedFlows (c : Coflow) : Nat := c.flowCollection.values.countP fun f => f.flowState == FLOWEND

/-- A sequence of `flowEnd` calls. -/
def flowEnds (c : Coflow) (calls : List (CInt × CInt)) : Coflow :=
  calls.foldl (fun c call => (c.flowEnd call.1 call.2).2) c

/-- What the counter and the flags of a coflow hold after a sequence of
reports: the counter counts reports, a flag says that there was one. -/
structure Account (reports : List CInt) (c : Coflow) : Prop where
  counter : c.endflowNum = (known c.flowIDs reports).length
  flags : ∀ e ∈ c.flowCollection.entries, e.2.flowState = FLOWEND ↔ e.1 ∈ reports

/-- A coflow none of whose flows has been reported. -/
def Fresh (c : Coflow) : Prop := Account [] c

theorem flowIDs_nodup (c : Coflow) : c.flowIDs.Nodup := c.flowCollection.keys_nodup

theorem fresh_create (coflowID : CInt) (startTime : Rat) : (create coflowID startTime).Fresh :=
  ⟨rfl, fun _ member => (List.not_mem_nil member).elim⟩

theorem Fresh.addFlow {c : Coflow} (fresh : c.Fresh) (flowID mapperID reducerID : CInt) (flowSizeMB : Rat) :
    (c.addFlow flowID mapperID reducerID flowSizeMB).Fresh := by
  refine ⟨fresh.counter, fun e member => ?_⟩
  rcases OrderedMap.mem_insertEntry member with rfl | old
  · simp [Flow.create, FLOWNOEND, FLOWEND]
  · exact fresh.flags e old

/-- The coflows that the constructor and `addFlow` make. -/
inductive Built : Coflow → Prop
  | create (coflowID : CInt) (startTime : Rat) : Built (create coflowID startTime)
  | addFlow {c : Coflow} (built : Built c) (flowID mapperID reducerID : CInt) (flowSizeMB : Rat) :
      Built (c.addFlow flowID mapperID reducerID flowSizeMB)

theorem Built.unregister {c : Coflow} (built : c.Built) : c.coflowState = .unregister := by
  induction built with
  | create => rfl
  | addFlow _ _ _ _ _ ih => exact ih

theorem Built.fresh {c : Coflow} (built : c.Built) : c.Fresh := by
  induction built with
  | create coflowID startTime => exact fresh_create coflowID startTime
  | addFlow _ flowID mapperID reducerID flowSizeMB ih => exact ih.addFlow flowID mapperID reducerID flowSizeMB

/-- Every flow stands under its own ID. -/
theorem Built.keyed {c : Coflow} (built : c.Built) : ∀ e ∈ c.flowCollection.entries, e.2.flowID = e.1 := by
  induction built with
  | create => exact fun _ member => (List.not_mem_nil member).elim
  | addFlow _ _ _ _ _ ih =>
    intro e member
    rcases OrderedMap.mem_insertEntry member with rfl | old
    · rfl
    · exact ih e old

@[simp] theorem flowEnd_flowIDs (c : Coflow) (flowID endtime : CInt) :
    (c.flowEnd flowID endtime).2.flowIDs = c.flowIDs := by
  unfold flowEnd
  split
  · dsimp only
    split <;> exact c.flowCollection.keys_modify _ _
  · rfl

@[simp] theorem flowEnd_coflowID (c : Coflow) (flowID endtime : CInt) :
    (c.flowEnd flowID endtime).2.coflowID = c.coflowID := by
  unfold flowEnd
  split
  · dsimp only
    split <;> rfl
  · rfl

@[simp] theorem flowEnds_flowIDs (c : Coflow) (calls : List (CInt × CInt)) :
    (c.flowEnds calls).flowIDs = c.flowIDs := by
  induction calls generalizing c with
  | nil => rfl
  | cons call rest ih => exact (ih _).trans (c.flowEnd_flowIDs ..)

theorem flowEnds_snoc (c : Coflow) (calls : List (CInt × CInt)) (call : CInt × CInt) :
    c.flowEnds (calls ++ [call]) = ((c.flowEnds calls).flowEnd call.1 call.2).2 := by
  simp only [flowEnds, List.foldl_append, List.foldl_cons, List.foldl_nil]

/-- A report of a known flow sets its flag and always adds one to the counter;
any other report changes nothing. -/
theorem Account.flowEnd {c : Coflow} {reports : List CInt} (account : Account reports c) (flowID endtime : CInt) :
    Account (reports ++ [flowID]) (c.flowEnd flowID endtime).2 := by
  constructor
  · rw [flowEnd_flowIDs, known_snoc, List.length_append, ← account.counter]
    unfold Coflow.flowEnd
    by_cases knows : flowID ∈ c.flowCollection.keys
    · rw [if_pos knows, if_pos (show flowID ∈ c.flowIDs from knows)]
      dsimp only
      split <;> rfl
    · rw [if_neg knows, if_neg (show flowID ∉ c.flowIDs from knows)]
      rfl
  · intro e member
    by_cases knows : flowID ∈ c.flowCollection.keys
    · obtain ⟨old, inside, rfl⟩ : ∃ old ∈ c.flowCollection.entries, e = (old.1,
          if old.1 = flowID then (old.2.setFlowState FLOWEND).setEndTime endtime else old.2) := by
        have modified : e ∈ (c.flowCollection.modify flowID fun f =>
            (f.setFlowState FLOWEND).setEndTime endtime).entries := by
          simp only [Coflow.flowEnd, knows, if_true] at member
          split at member <;> exact member
        obtain ⟨old, inside, same⟩ := List.mem_map.mp modified
        exact ⟨old, inside, same.symm⟩
      by_cases this_one : old.1 = flowID
      · simp [this_one, Flow.setFlowState, Flow.setEndTime]
      · simpa [this_one] using account.flags old inside
    · have unchanged : e ∈ c.flowCollection.entries := by
        simpa only [Coflow.flowEnd, knows, if_false] using member
      have other : e.1 ≠ flowID := by
        rintro rfl
        exact knows (List.mem_map_of_mem unchanged)
      simpa [other] using account.flags e unchanged

theorem Account.flowEnds {c : Coflow} {reports : List CInt} (account : Account reports c)
    (calls : List (CInt × CInt)) : Account (reports ++ calls.map Prod.fst) (c.flowEnds calls) := by
  induction calls generalizing c reports with
  | nil => simpa [Coflow.flowEnds] using account
  | cons call rest ih => simpa [Coflow.flowEnds] using ih (account.flowEnd call.1 call.2)

/-- `flowEnd` returns true on a known flow once the counter has reached the
number of flows, on this report or on an earlier one. -/
theorem Account.flowEnd_result {c : Coflow} {reports : List CInt} (account : Account reports c)
    (flowID endtime : CInt) :
    (c.flowEnd flowID endtime).1 = true ↔ Fires c.flowIDs reports flowID := by
  have size : (c.flowCollection.modify flowID fun f => (f.setFlowState FLOWEND).setEndTime endtime).size =
      c.flowIDs.length := by
    rw [← OrderedMap.keys_length, OrderedMap.keys_modify]
    rfl
  unfold Coflow.flowEnd Fires
  by_cases knows : flowID ∈ c.flowCollection.keys
  · rw [if_pos knows, ← account.counter]
    simp only [size, show flowID ∈ c.flowIDs from knows, true_and]
    split <;> simp_all
  · simp only [knows, if_false, Bool.false_eq_true, show flowID ∉ c.flowIDs from knows, false_and]

theorem Account.endedFlows {c : Coflow} {reports : List CInt} (account : Account reports c) :
    c.endedFlows = reached c.flowIDs reports :=
  c.flowCollection.countP_values fun e member => by simpa using account.flags e member

/-- What the counter and the flags depend on, under the coflow's ID. -/
def ledger (c : Coflow) : CInt × Nat × List (CInt × Bool) :=
  (c.coflowID, c.endflowNum, c.flowCollection.entries.map fun e => (e.1, e.2.flowState))

theorem ledger_flowIDs (c : Coflow) : c.flowIDs = c.ledger.2.2.map Prod.fst := by
  simp [ledger, flowIDs, OrderedMap.keys]

theorem Account.of_ledger {c d : Coflow} {reports : List CInt} (account : Account reports c)
    (same : d.ledger = c.ledger) : Account reports d := by
  have ids : d.flowIDs = c.flowIDs := by rw [ledger_flowIDs, ledger_flowIDs, same]
  have counter : d.endflowNum = c.endflowNum := congrArg (fun l => l.2.1) same
  have flows : d.flowCollection.entries.map (fun e => (e.1, e.2.flowState)) =
      c.flowCollection.entries.map fun e => (e.1, e.2.flowState) := congrArg (fun l => l.2.2) same
  refine ⟨by rw [ids, counter, account.counter], fun e member => ?_⟩
  have inside : (e.1, e.2.flowState) ∈ c.flowCollection.entries.map fun e => (e.1, e.2.flowState) :=
    flows ▸ List.mem_map_of_mem member
  obtain ⟨old, known, pair⟩ := List.mem_map.mp inside
  obtain ⟨key, state⟩ := Prod.mk.inj pair
  rw [← key, ← state]
  exact account.flags old known

end Coflow

end CoflowSim
