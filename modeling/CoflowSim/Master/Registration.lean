import CoflowSim.Master.Scheduler

namespace CoflowSim
open Lib

namespace Scheduler

/-- The positions that the loop of `registerCoflow` sets to `REGISTED`. -/
def registerSets (t : Int) : Nat → Scheduler → List Nat
  | 0, _ => []
  | coflows + 1, s =>
    match s.sCoflows[s.registerIndex]? with
    | none => []
    | some co =>
      if co.startTime ≤ t then
        s.registerIndex :: registerSets t coflows { s with
          sCoflows := s.sCoflows.set s.registerIndex (co.setCoflowState .registed)
          registerIndex := s.registerIndex + 1 }
      else []

/-- A sequence of `registerCoflow` calls. -/
def registerCalls (s : Scheduler) (nows : List Int) : Scheduler := nows.foldl registerCoflow s

/-- What each of these calls sets to `REGISTED`. -/
def registered (s : Scheduler) : List Int → List (List Nat)
  | [] => []
  | now :: nows =>
    registerSets (now - s.startTime) (s.sCoflows.length - s.registerIndex) s :: (s.registerCoflow now).registered nows

/-- The coflows that are due, up to the first that is not. -/
def duePrefix (coflows : List Coflow) (t : Int) : List Coflow := coflows.takeWhile fun co => decide (co.startTime ≤ t)

/-- The time has reached the start of this coflow and of all before it. -/
def DueUpTo (coflows : List Coflow) (i : Nat) (t : Int) : Prop :=
  i < coflows.length ∧ ∀ co ∈ coflows.take (i + 1), co.startTime ≤ t

instance (coflows : List Coflow) (i : Nat) (t : Int) : Decidable (DueUpTo coflows i t) :=
  inferInstanceAs (Decidable (_ ∧ _))

/-- The scheduler once the first `k` coflows have been registered, and nothing
else has been done. -/
def registeredUpTo (s : Scheduler) (k : Nat) : Scheduler :=
  { s with
    sCoflows := s.sCoflows.mapIdx fun i co => if i < k then co.setCoflowState .registed else co
    registerIndex := k }

/-- The assignments of the loop are those of its sets, and no others. -/
theorem registerLoop_sets (t : Int) (n : Nat) (s : Scheduler) :
    (registerLoop t n s).sCoflows =
      (registerSets t n s).foldl (fun coflows i => coflows.modify i (·.setCoflowState .registed)) s.sCoflows := by
  induction n generalizing s with
  | zero => rfl
  | succ n ih =>
    unfold registerLoop registerSets
    cases here : s.sCoflows[s.registerIndex]? with
    | none => rfl
    | some co =>
      by_cases due : co.startTime ≤ t
      · have written : s.sCoflows.modify s.registerIndex (·.setCoflowState .registed) =
            s.sCoflows.set s.registerIndex (co.setCoflowState .registed) := by
          rw [List.modify_eq_set_getElem?, here]
          rfl
        simp only [due, if_true, List.foldl_cons, written]
        exact ih _
      · simp only [due, if_false, List.foldl_nil]

theorem duePrefix_cons (co : Coflow) (coflows : List Coflow) (t : Int) :
    duePrefix (co :: coflows) t = if co.startTime ≤ t then co :: duePrefix coflows t else [] := by
  simp [duePrefix, List.takeWhile_cons]

theorem dueUpTo_iff (coflows : List Coflow) (i : Nat) (t : Int) :
    DueUpTo coflows i t ↔ i < (duePrefix coflows t).length := by
  unfold DueUpTo
  induction coflows generalizing i with
  | nil => simp [duePrefix]
  | cons co coflows ih =>
    by_cases due : co.startTime ≤ t
    · cases i with
      | zero => simp [duePrefix_cons, due]
      | succ i => simpa [duePrefix_cons, due] using ih i
    · simp [duePrefix_cons, due]

/-- Where the start times ascend, the coflow's own decides. -/
theorem dueUpTo_of_sorted {coflows : List Coflow} (sorted : coflows.Pairwise (·.startTime ≤ ·.startTime)) {i : Nat}
    (inside : i < coflows.length) {t : Int} : DueUpTo coflows i t ↔ coflows[i].startTime ≤ t := by
  constructor
  · rintro ⟨-, due⟩
    exact due _ (List.mem_take_iff_getElem.mpr ⟨i, by omega, rfl⟩)
  · intro due
    refine ⟨inside, fun other member => ?_⟩
    obtain ⟨j, below, rfl⟩ := List.mem_take_iff_getElem.mp member
    rcases Nat.lt_or_eq_of_le (show j ≤ i by omega) with before | rfl
    · exact (List.pairwise_iff_getElem.mp sorted j i (by omega) inside before).trans due
    · exact due

/-- The due coflows behind a prefix all of which is due. -/
theorem duePrefix_length {coflows : List Coflow} {t : Int} {k : Nat} (reached : k ≤ (duePrefix coflows t).length) :
    (duePrefix coflows t).length = k + (duePrefix (coflows.drop k) t).length := by
  induction coflows generalizing k with
  | nil =>
    have none_due : k = 0 := Nat.le_zero.mp reached
    simp [none_due]
  | cons co coflows ih =>
    cases k with
    | zero => simp
    | succ k =>
      by_cases due : co.startTime ≤ t
      · simp only [duePrefix_cons, due, if_true, List.length_cons, List.drop_succ_cons] at reached ⊢
        rw [ih (Nat.le_of_succ_le_succ reached)]
        omega
      · simp [duePrefix_cons, due] at reached

/-- A later time has a longer prefix. -/
theorem duePrefix_mono (coflows : List Coflow) {t u : Int} (later : t ≤ u) :
    (duePrefix coflows t).length ≤ (duePrefix coflows u).length := by
  by_contra longer
  obtain ⟨inside, due⟩ := (dueUpTo_iff coflows _ t).mpr (Nat.lt_of_not_le longer)
  have due' : DueUpTo coflows (duePrefix coflows u).length u :=
    ⟨inside, fun co member => (due co member).trans (Int.cast_le.mpr later)⟩
  exact absurd ((dueUpTo_iff coflows _ u).mp due') (Nat.lt_irrefl _)

theorem registeredUpTo_zero {s : Scheduler} (fresh : s.registerIndex = 0) : s.registeredUpTo 0 = s := by
  have same : s.sCoflows.mapIdx (fun i co => if i < 0 then co.setCoflowState .registed else co) = s.sCoflows := by
    refine List.ext_getElem? fun i => ?_
    simp [List.getElem?_mapIdx]
  rw [registeredUpTo, same, ← fresh]

theorem registeredUpTo_getElem? (s : Scheduler) (k i : Nat) :
    (s.registeredUpTo k).sCoflows[i]? =
      s.sCoflows[i]?.map fun co => if i < k then co.setCoflowState .registed else co := by
  rw [registeredUpTo, List.getElem?_mapIdx]

/-- One more coflow is registered. -/
theorem registeredUpTo_succ {s : Scheduler} {k : Nat} {co : Coflow} (here : s.sCoflows[k]? = some co) :
    { s.registeredUpTo k with
      sCoflows := (s.registeredUpTo k).sCoflows.set k (co.setCoflowState .registed)
      registerIndex := k + 1 } = s.registeredUpTo (k + 1) := by
  have written : (s.registeredUpTo k).sCoflows.set k (co.setCoflowState .registed) =
      (s.registeredUpTo (k + 1)).sCoflows := by
    refine List.ext_getElem? fun i => ?_
    rw [List.getElem?_set, registeredUpTo_getElem?, registeredUpTo_getElem?]
    by_cases this_one : k = i
    · subst this_one
      have inside : k < (s.registeredUpTo k).sCoflows.length := by
        simpa [registeredUpTo] using (List.getElem?_eq_some_iff.mp here).1
      simp [inside, here]
    · have same : (i < k + 1) = (i < k) := propext (by omega)
      simp only [this_one, if_false, same]
  rw [written]
  rfl

/-- The loop goes on through the coflows that are due, and registers each. -/
theorem registerLoop_registeredUpTo (t : Int) {s : Scheduler} {k n : Nat} (left : k + n = s.sCoflows.length) :
    registerLoop t n (s.registeredUpTo k) = s.registeredUpTo (k + (duePrefix (s.sCoflows.drop k) t).length) ∧
      registerSets t n (s.registeredUpTo k) = List.range' k (duePrefix (s.sCoflows.drop k) t).length := by
  induction n generalizing k with
  | zero =>
    have done : s.sCoflows.drop k = [] := List.drop_eq_nil_iff.mpr (by omega)
    rw [done]
    exact ⟨rfl, rfl⟩
  | succ n ih =>
    have inside : k < s.sCoflows.length := by omega
    have here : s.sCoflows[k]? = some s.sCoflows[k] := List.getElem?_eq_getElem inside
    have read : (s.registeredUpTo k).sCoflows[(s.registeredUpTo k).registerIndex]? = some s.sCoflows[k] := by
      simp [registeredUpTo]
    have next := registeredUpTo_succ here
    obtain ⟨later, sets⟩ := ih (k := k + 1) (by omega)
    rw [List.drop_eq_getElem_cons inside]
    unfold registerLoop registerSets
    simp only [read]
    by_cases due : s.sCoflows[k].startTime ≤ t
    · simp only [duePrefix_cons, due, if_true, List.length_cons, List.range'_succ]
      refine ⟨(congrArg (registerLoop t n) next).trans ?_,
        congrArg (k :: ·) ((congrArg (registerSets t n) next).trans sets)⟩
      rw [later, Nat.add_right_comm, Nat.add_assoc]
    · simp only [duePrefix_cons, due, if_false]
      exact ⟨rfl, rfl⟩

/-- A call when all that is registered was due. -/
theorem registerCoflow_registeredUpTo (s : Scheduler) {k : Nat} {now : Int}
    (reached : k ≤ (duePrefix s.sCoflows (now - s.startTime)).length) :
    (s.registeredUpTo k).registerCoflow now =
      s.registeredUpTo (duePrefix s.sCoflows (now - s.startTime)).length ∧
    registerSets (now - s.startTime) ((s.registeredUpTo k).sCoflows.length - k) (s.registeredUpTo k) =
      List.range' k ((duePrefix s.sCoflows (now - s.startTime)).length - k) := by
  have whole : (s.registeredUpTo k).sCoflows.length = s.sCoflows.length := List.length_mapIdx
  have within : (duePrefix s.sCoflows (now - s.startTime)).length ≤ s.sCoflows.length :=
    (List.takeWhile_prefix _).length_le
  have split := duePrefix_length reached
  obtain ⟨last, sets⟩ := registerLoop_registeredUpTo (now - s.startTime)
    (show k + (s.sCoflows.length - k) = s.sCoflows.length by omega)
  rw [← split] at last
  refine ⟨?_, ?_⟩
  · rw [registerCoflow, whole]
    exact last
  · rw [whole, sets, split, Nat.add_sub_cancel_left]

/-- The calls of a sequence of times that never goes back. -/
theorem registerCalls_registeredUpTo (s : Scheduler) {k : Nat} {nows : List Int} {now : Int}
    (ordered : (nows ++ [now]).Pairwise (· ≤ ·))
    (reached : ∀ t ∈ nows ++ [now], k ≤ (duePrefix s.sCoflows (t - s.startTime)).length) :
    (s.registeredUpTo k).registerCalls (nows ++ [now]) =
      s.registeredUpTo (duePrefix s.sCoflows (now - s.startTime)).length := by
  induction nows generalizing k with
  | nil => exact (s.registerCoflow_registeredUpTo (reached now (by simp))).1
  | cons first nows ih =>
    obtain ⟨earlier, ordered⟩ := List.pairwise_cons.mp ordered
    rw [registerCalls, List.cons_append, List.foldl_cons,
      (s.registerCoflow_registeredUpTo (reached first (by simp))).1]
    exact ih ordered fun t member => duePrefix_mono _ (Int.sub_le_sub_right (earlier t member) _)

/-- A call sets the coflows that become due in it: those that are due up to,
and were not at any earlier call. -/
theorem registered_count (s : Scheduler) {k : Nat} {nows : List Int} (ordered : nows.Pairwise (· ≤ ·))
    (reached : ∀ t ∈ nows, k ≤ (duePrefix s.sCoflows (t - s.startTime)).length) {j : Nat} {now : Int}
    (called : nows[j]? = some now) :
    ∃ sets, ((s.registeredUpTo k).registered nows)[j]? = some sets ∧ ∀ i, sets.count i =
      if k ≤ i ∧ DueUpTo s.sCoflows i (now - s.startTime) ∧
        ∀ t ∈ nows.take j, ¬ DueUpTo s.sCoflows i (t - s.startTime) then 1 else 0 := by
  induction nows generalizing k j with
  | nil => simp at called
  | cons first nows ih =>
    obtain ⟨earlier, later⟩ := List.pairwise_cons.mp ordered
    obtain ⟨next, sets⟩ := s.registerCoflow_registeredUpTo (reached first (by simp))
    cases j with
    | zero =>
      cases called
      refine ⟨_, congrArg some sets, fun i => ?_⟩
      rw [List.count_range_1']
      have reach := reached now (by simp)
      simp only [dueUpTo_iff, List.take_zero, List.not_mem_nil, false_implies, implies_true,
        and_true]
      rw [Nat.add_sub_cancel' reach]
    | succ j =>
      have before := reached first (by simp)
      obtain ⟨sets', atJ, counts⟩ := ih later
        (fun t member => duePrefix_mono _ (Int.sub_le_sub_right (earlier t member) _)) called
      refine ⟨sets', ?_, fun i => ?_⟩
      · rw [registered, next]
        exact atJ
      · rw [counts i]
        congr 1
        simp only [List.take_succ_cons, List.forall_mem_cons, dueUpTo_iff, eq_iff_iff]
        constructor
        · rintro ⟨new, due, others⟩
          exact ⟨before.trans new, due, Nat.not_lt.mpr new, others⟩
        · rintro ⟨-, due, new, others⟩
          exact ⟨Nat.le_of_not_lt new, due, others⟩

/-- What a sequence of calls, the last of them at `now`, leaves of a scheduler
that has registered nothing. -/
structure AdmitsDuePrefix (coflows : List Coflow) (startTime : Int) (nows : List Int) (now : Int) (s t : Scheduler) :
    Prop where
  index : t.registerIndex = (duePrefix coflows (now - startTime)).length
  others : ∀ i, t.registerIndex ≤ i → t.sCoflows[i]? = coflows[i]?
  state : ∀ i, i < t.registerIndex → t.sCoflows[i]? = coflows[i]?.map (·.setCoflowState .registed)
  /-- Each is set once, by the call that first reaches it and all before it. -/
  once : ∀ j u, (nows ++ [now])[j]? = some u → ∃ sets, (s.registered (nows ++ [now]))[j]? = some sets ∧
    ∀ i, sets.count i = if DueUpTo coflows i (u - startTime) ∧
      ∀ v ∈ (nows ++ [now]).take j, ¬ DueUpTo coflows i (v - startTime) then 1 else 0
  sorted : coflows.Pairwise (·.startTime ≤ ·.startTime) →
    ∀ (i : Nat) co, coflows[i]? = some co → (i < t.registerIndex ↔ co.startTime ≤ ↑(now - startTime))
  last : t = s.registerCoflow now

/-- Registration admits the prefix of due coflows. -/
theorem admits_due_prefix (coflows : List Coflow) (machines : MachineManager) (startTime : Int) (nows : List Int)
    (now : Int) (ordered : (nows ++ [now]).Pairwise (· ≤ ·)) :
    AdmitsDuePrefix coflows startTime nows now (init coflows machines startTime)
      ((init coflows machines startTime).registerCalls (nows ++ [now])) := by
  let s := init coflows machines startTime
  have start : s.registeredUpTo 0 = s := registeredUpTo_zero rfl
  have all : s.registerCalls (nows ++ [now]) = s.registeredUpTo (duePrefix coflows (now - startTime)).length := by
    have calls := s.registerCalls_registeredUpTo (k := 0) ordered fun _ _ => Nat.zero_le _
    rwa [start] at calls
  have last : s.registerCoflow now = s.registeredUpTo (duePrefix coflows (now - startTime)).length := by
    have call := (s.registerCoflow_registeredUpTo (Nat.zero_le (duePrefix coflows (now - startTime)).length)).1
    rwa [start] at call
  have coflow (i : Nat) := s.registeredUpTo_getElem? (duePrefix coflows (now - startTime)).length i
  rw [all]
  constructor
  case index => rfl
  case others =>
    intro i past
    have past' : ¬ i < (duePrefix coflows (now - startTime)).length := Nat.not_lt.mpr past
    rw [coflow i]
    simp only [past', if_false, Option.map_id']
    rfl
  case state =>
    intro i below
    have below' : i < (duePrefix coflows (now - startTime)).length := below
    rw [coflow i]
    simp only [below', if_true]
    rfl
  case once =>
    intro j u called
    obtain ⟨sets, atJ, counts⟩ := s.registered_count ordered (k := 0) (fun _ _ => Nat.zero_le _) called
    rw [start] at atJ
    refine ⟨sets, atJ, fun i => (counts i).trans ?_⟩
    simp only [Nat.zero_le, true_and]
    rfl
  case sorted =>
    intro sorted i co atI
    obtain ⟨inside, rfl⟩ := List.getElem?_eq_some_iff.mp atI
    rw [← dueUpTo_of_sorted sorted inside, dueUpTo_iff]
    rfl
  case last => exact last.symm

/-- Three coflows, the last of which is due before the second. -/
def outOfOrder : Scheduler :=
  init [.create CInt.zero 0, .create (.clamp 1) 5, .create (.clamp 2) 3] ⟨.empty, [], 0, 0⟩ 0

/-- Two calls register the first of them only. -/
theorem admits_due_prefix_three :
    AdmitsDuePrefix outOfOrder.sCoflows 0 [1] 4 outOfOrder (outOfOrder.registerCalls [1, 4]) :=
  admits_due_prefix outOfOrder.sCoflows outOfOrder.machines 0 [1] 4 (by decide)

end Scheduler

end CoflowSim
