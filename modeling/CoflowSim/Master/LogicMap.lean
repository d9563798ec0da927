import Mathlib.Data.Int.CardIntervalMod
import CoflowSim.Master.MachineManager

namespace CoflowSim
open Lib

namespace MachineManager

/-- The position of the first machine with this ID; `none` is the null pointer. -/
def getPhyMachineByMachineID (mm : MachineManager) (machineID : CInt) : Option Nat :=
  mm.m_physicsMachines.findIdx? fun it => (it.machineID : Int) == machineID.val

/-- Calls of `addOnePhysicsMachine` one after another, with the IDs that they
return. -/
def addPhysicsMachines (mm : MachineManager) : List (List Byte × Int) → List Nat × MachineManager
  | [] => ([], mm)
  | (sockip, sockport) :: calls =>
    let (id, mm) := mm.addOnePhysicsMachine sockip sockport
    let (ids, mm) := mm.addPhysicsMachines calls
    (id :: ids, mm)

/-- `num` logical machines, spread over `n` physical ones. -/
structure Spread (num : CInt) (n : Nat) (mm : MachineManager) : Prop where
  machines : mm.m_physicsMachines.length = n
  keys : mm.m_logicMap.keys.map Subtype.val = (List.range num.val.toNat).map Nat.cast
  points : ∀ i : CInt, 0 ≤ i.val → i.val < num.val → mm.m_logicMap.find? i = some (i.val.toNat % n)
  even : ∀ p < n, mm.m_logicMap.values.count p = num.val.toNat / n ∨
    mm.m_logicMap.values.count p = (num.val.toNat + n - 1) / n
  found : ∀ k : CInt, mm.getPhyMachineByMachineID k = if 0 ≤ k.val ∧ k.val < n then some k.val.toNat else none

/-- After `n` additions: the machines have their positions for IDs, and the map
has the logical machines for keys once there is a physical one. -/
structure Added (num : CInt) (n : Nat) (mm : MachineManager) : Prop where
  number : mm.m_logicMachineNum = num.val
  next : mm.m_physicsMachinesNum = n
  ids : mm.m_physicsMachines.map Machine.machineID = List.range n
  points : ∀ id : CInt, mm.m_logicMap.find? id =
    if 0 ≤ id.val ∧ id.val < num.val ∧ 0 < n then some (id.val.toNat % n) else none

variable {num : CInt} {n : Nat} {mm : MachineManager}

theorem added_init (num : CInt) : (init.setLogicMachineNum num.val).Added num 0 :=
  ⟨rfl, rfl, rfl, fun _ => (if_neg fun all => Nat.lt_irrefl 0 all.2.2).symm⟩

theorem Added.length (added : mm.Added num n) : mm.m_physicsMachines.length = n := by
  rw [← List.length_map, added.ids, List.length_range]

/-- Every logical machine is assigned anew, so none is left on an old machine. -/
theorem Added.addOnePhysicsMachine (added : mm.Added num n) (sockip : List Byte) (sockport : Int) :
    (mm.addOnePhysicsMachine sockip sockport).1 = n ∧
      (mm.addOnePhysicsMachine sockip sockport).2.Added num (n + 1) := by
  have small : mm.m_logicMachineNum ≤ 2147483648 := by
    have := num.property.2
    rw [added.number]
    omega
  obtain ⟨one, same, number, next, pushed, assigned⟩ := addOnePhysicsMachine_spec small sockip sockport
  rw [same]
  refine ⟨added.next, number.trans added.number, next.trans (congrArg Nat.succ added.next), ?_, fun id => ?_⟩
  · rw [pushed, List.map_append, added.ids, List.range_succ, added.next]
    rfl
  · rw [assigned id, added.number, added.length]
    by_cases inside : 0 ≤ id.val ∧ id.val < num.val
    · rw [if_pos inside, if_pos ⟨inside.1, inside.2, Nat.succ_pos n⟩]
    · rw [if_neg inside, if_neg fun all => inside ⟨all.1, all.2.1⟩, added.points id,
        if_neg fun all => inside ⟨all.1, all.2.1⟩]

theorem Added.addPhysicsMachines (added : mm.Added num n) (calls : List (List Byte × Int)) :
    (mm.addPhysicsMachines calls).1 = List.range' n calls.length ∧
      (mm.addPhysicsMachines calls).2.Added num (n + calls.length) := by
  induction calls generalizing mm n with
  | nil => exact ⟨rfl, added⟩
  | cons call calls ih =>
    obtain ⟨id, next⟩ := added.addOnePhysicsMachine call.1 call.2
    obtain ⟨ids, last⟩ := ih next
    rw [List.length_cons, List.range'_succ, Nat.add_comm calls.length 1, ← Nat.add_assoc]
    exact ⟨congrArg₂ List.cons id ids, last⟩

/-- A machine is found under its position. -/
theorem Added.getPhyMachineByMachineID (added : mm.Added num n) (k : CInt) :
    mm.getPhyMachineByMachineID k = if 0 ≤ k.val ∧ k.val < n then some k.val.toNat else none := by
  have search : mm.getPhyMachineByMachineID k = (List.range n).findIdx? fun id : Nat => (id : Int) == k.val := by
    rw [← added.ids, List.findIdx?_map]
    rfl
  rw [search]
  split
  · rename_i inside
    rw [List.findIdx?_eq_some_iff_getElem]
    refine ⟨by rw [List.length_range]; omega, ?_, fun j before => ?_⟩
    · simp only [List.getElem_range, beq_iff_eq]
      omega
    · simp only [List.getElem_range, beq_iff_eq]
      omega
  · rename_i outside
    rw [List.findIdx?_eq_none_iff]
    intro id member
    have below := List.mem_range.mp member
    simp only [beq_eq_false_iff_ne, ne_eq]
    omega

theorem Added.keys (added : mm.Added num n) (some_machine : 0 < n) :
    mm.m_logicMap.keys = (List.range num.val.toNat).map fun i : Nat => CInt.clamp i := by
  have bound := num.property.2
  refine OrderedMap.keys_eq ?_ fun id => ?_
  · rw [List.pairwise_map]
    refine List.pairwise_lt_range.imp_of_mem fun {a b} _ member below => ?_
    have small := List.mem_range.mp member
    exact CInt.clamp_lt below (by omega)
  · rw [added.points id, List.mem_map]
    by_cases inside : 0 ≤ id.val ∧ id.val < num.val ∧ 0 < n
    · rw [if_pos inside]
      refine iff_of_true rfl ⟨id.val.toNat, List.mem_range.mpr (by omega), ?_⟩
      rw [Int.toNat_of_nonneg inside.1]
      exact CInt.clamp_val id
    · rw [if_neg inside]
      refine iff_of_false nofun ?_
      rintro ⟨i, member, rfl⟩
      have small := List.mem_range.mp member
      have value := CInt.val_clamp (z := i) (by omega) (by omega)
      exact inside ⟨by omega, by omega, some_machine⟩

/-- Each entry follows from its key. -/
theorem Added.values (added : mm.Added num n) (some_machine : 0 < n) :
    mm.m_logicMap.values = (List.range num.val.toNat).map (· % n) := by
  have bound := num.property.2
  have entry : ∀ e ∈ mm.m_logicMap.entries, e.2 = e.1.val.toNat % n := by
    intro e member
    have found := added.points e.1
    rw [OrderedMap.find?_of_mem (show (e.1, e.2) ∈ mm.m_logicMap.entries from member)] at found
    split at found
    · exact Option.some.inj found
    · cases found
  have values : mm.m_logicMap.values = mm.m_logicMap.keys.map fun id => id.val.toNat % n := by
    rw [OrderedMap.values, OrderedMap.keys, List.map_map]
    exact List.map_congr_left entry
  rw [values, added.keys some_machine, List.map_map]
  refine List.map_congr_left fun i member => ?_
  have small := List.mem_range.mp member
  have value := CInt.val_clamp (z := i) (by omega) (by omega)
  simp only [Function.comp_apply, value, Int.toNat_natCast]

/-- The residues of the first numbers are spread evenly. -/
theorem count_residues (num : Nat) {n p : Nat} (residue : p < n) :
    ((List.range num).map (· % n)).count p = num / n + if p < num % n then 1 else 0 := by
  have counted := Nat.count_modEq_card num (by omega : 0 < n) p
  rw [Nat.mod_eq_of_lt residue] at counted
  rw [← counted, List.count, List.countP_map, Nat.count]
  refine List.countP_congr fun i _ => ?_
  simp only [Function.comp_apply, beq_iff_eq, decide_eq_true_eq, Nat.ModEq, Nat.mod_eq_of_lt residue]

theorem Added.even (added : mm.Added num n) {p : Nat} (position : p < n) :
    mm.m_logicMap.values.count p = num.val.toNat / n ∨
      mm.m_logicMap.values.count p = (num.val.toNat + n - 1) / n := by
  rw [added.values (by omega), count_residues _ position]
  split
  · rename_i below
    refine Or.inr (Eq.symm ?_)
    have split := Nat.div_add_mod num.val.toNat n
    rw [Nat.div_eq_iff (by omega), Nat.add_mul, Nat.mul_comm]
    have remainder := Nat.mod_lt num.val.toNat (by omega : n > 0)
    omega
  · exact Or.inl rfl

theorem Added.spread (added : mm.Added num n) (some_machine : 0 < n) : mm.Spread num n := by
  refine ⟨added.length, ?_, fun i low high => ?_, fun p => added.even, added.getPhyMachineByMachineID⟩
  · have bound := num.property.2
    rw [added.keys some_machine, List.map_map]
    refine List.map_congr_left fun i member => ?_
    have small := List.mem_range.mp member
    exact CInt.val_clamp (by omega) (by omega)
  · rw [added.points i, if_pos ⟨low, high, some_machine⟩]

/-- Whatever machines are added, the logical ones are spread evenly after each
addition, and the additions return the IDs in order. -/
theorem spreads_evenly {num : CInt} {calls : List (List Byte × Int)} (some_call : calls ≠ []) :
    ((init.setLogicMachineNum num.val).addPhysicsMachines calls).1 = List.range calls.length ∧
      ((init.setLogicMachineNum num.val).addPhysicsMachines calls).2.Spread num calls.length := by
  obtain ⟨ids, added⟩ := (added_init num).addPhysicsMachines calls
  rw [Nat.zero_add] at added
  exact ⟨ids.trans List.range_eq_range'.symm, added.spread (List.length_pos_iff.mpr some_call)⟩

/-- Five logical machines on two physical ones. -/
theorem spreads_evenly_five :
    ((init.setLogicMachineNum (CInt.clamp 5).val).addPhysicsMachines [([49], 80), ([50], 81)]).2.Spread
      (.clamp 5) 2 :=
  (spreads_evenly (List.cons_ne_nil ([49], 80) [([50], 81)])).2

end MachineManager

end CoflowSim
