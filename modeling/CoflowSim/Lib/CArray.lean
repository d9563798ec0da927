import Mathlib.Data.List.Basic
import Mathlib.Order.Nat
import Mathlib.Tactic.Common

namespace Lib

universe u

/-- A C array of `n` cells. `overrun` records whether an access has strayed
past the last cell; such an access leaves the cells themselves alone. -/
structure CArray (α : Type u) (n : Nat) where
  cells : List α
  size_eq : cells.length = n
  overrun : Bool
deriving DecidableEq

namespace CArray

variable {α : Type u} {n : Nat}

/-- `memset` over the whole array. -/
def filled (x : α) (overrun : Bool) : CArray α n := ⟨List.replicate n x, List.length_replicate, overrun⟩

def load [Inhabited α] (a : CArray α n) (i : Nat) : α := a.cells.getD i default

def store (a : CArray α n) (i : Nat) (x : α) : CArray α n :=
  ⟨a.cells.set i x, by rw [List.length_set, a.size_eq], a.overrun || decide (n ≤ i)⟩

/-- The C string that starts at a pointer into the array: `none` when the
pointer is outside it, or no NUL follows inside it. -/
def cString [DecidableEq α] (a : CArray α n) (nul : α) (start : Int) : Option (List α) :=
  if 0 ≤ start ∧ start < n ∧ nul ∈ a.cells.drop start.toNat then
    some ((a.cells.drop start.toNat).takeWhile (· ≠ nul))
  else none

/-- Stores at consecutive indices from `i` on. -/
def storeAll (a : CArray α n) (i : Nat) : List α → CArray α n
  | [] => a
  | x :: xs => (a.store i x).storeAll (i + 1) xs

/-- The forward copy `a[dst++] = a[src++]`, taken `count` times. -/
def copyDown [Inhabited α] (a : CArray α n) (dst src : Nat) : Nat → CArray α n
  | 0 => a
  | count + 1 => ((a.store dst (a.load src)).copyDown (dst + 1) (src + 1) count)

/-- The cells with indices in `[start, stop)`. -/
def slice (a : CArray α n) (start stop : Nat) : List α := (a.cells.take stop).drop start

theorem slice_length (a : CArray α n) {start stop : Nat} (room : stop ≤ n) :
    (a.slice start stop).length = stop - start := by
  have size := a.size_eq
  simp only [slice, List.length_drop, List.length_take]
  omega

@[simp] theorem slice_self (a : CArray α n) (i : Nat) : a.slice i i = [] := by
  simp [slice]

theorem slice_eq_drop (a : CArray α n) (start stop : Nat) : a.slice start stop = (a.slice 0 stop).drop start := by
  simp [slice]

theorem slice_append (a : CArray α n) {start middle stop : Nat} (lower : start ≤ middle)
    (upper : middle ≤ stop) : a.slice start middle ++ a.slice middle stop = a.slice start stop := by
  simp only [slice, List.drop_take]
  have width : stop - start = (middle - start) + (stop - middle) := by omega
  have shift : middle = start + (middle - start) := by omega
  rw [width, List.take_add, List.drop_drop, ← shift]

theorem slice_succ [Inhabited α] (a : CArray α n) {start i : Nat} (lower : start ≤ i) (room : i < n) :
    a.slice start (i + 1) = a.slice start i ++ [a.load i] := by
  have inside : i < a.cells.length := by rw [a.size_eq]; exact room
  rw [← a.slice_append lower (Nat.le_succ i)]
  congr 1
  simp [slice, load, List.drop_take, List.take_one, List.getElem?_eq_getElem inside]

theorem slice_eq_cons [Inhabited α] (a : CArray α n) {start stop : Nat} (lower : start < stop)
    (room : stop ≤ n) : a.slice start stop = a.load start :: a.slice (start + 1) stop := by
  rw [← a.slice_append (Nat.le_succ start) lower, a.slice_succ le_rfl (by omega), slice_self]
  rfl

theorem slice_eq_append_cons [Inhabited α] (a : CArray α n) {stop : Nat} {front back : List α} {x : α}
    (room : stop ≤ n) (whole : a.slice 0 stop = front ++ x :: back) :
    a.slice 0 front.length = front ∧ a.load front.length = x := by
  have width := congrArg List.length whole
  rw [a.slice_length room, List.length_append, List.length_cons] at width
  rw [← a.slice_append (Nat.zero_le front.length) (by omega), a.slice_eq_cons (by omega) room] at whole
  obtain ⟨same, rest⟩ := List.append_inj whole (a.slice_length (by omega))
  exact ⟨same, (List.cons.inj rest).1⟩

theorem load_store_ne [Inhabited α] (a : CArray α n) {i j : Nat} (x : α) (other : i ≠ j) :
    (a.store i x).load j = a.load j := by
  simp [load, store, List.getElem?_set_ne other]

theorem getElem?_store_self (a : CArray α n) {i : Nat} (x : α) (room : i < n) :
    (a.store i x).cells[i]? = some x := by
  simp [store, show i < a.cells.length by rw [a.size_eq]; exact room]

theorem overrun_store (a : CArray α n) {i : Nat} (x : α) (room : i < n) : (a.store i x).overrun = a.overrun := by
  simp only [store, decide_eq_false (Nat.not_le.mpr room), Bool.or_false]

/-- Frame of a store: a slice that misses the index is unchanged. -/
theorem slice_store_outside (a : CArray α n) {i start stop : Nat} (x : α)
    (outside : i < start ∨ stop ≤ i) : (a.store i x).slice start stop = a.slice start stop := by
  apply List.ext_getElem?
  intro lane
  simp only [slice, store, List.getElem?_drop, List.getElem?_take]
  split
  · exact List.getElem?_set_ne (by omega)
  · rfl

theorem slice_store_last (a : CArray α n) {start i : Nat} (x : α) (lower : start ≤ i) (room : i < n) :
    (a.store i x).slice start (i + 1) = a.slice start i ++ [x] := by
  have inside : i < a.cells.length := by rw [a.size_eq]; exact room
  rw [← (a.store i x).slice_append lower (Nat.le_succ i), a.slice_store_outside x (Or.inr le_rfl)]
  congr 1
  simp [slice, store, List.drop_take, List.take_one, inside]

/-- Consecutive stores append their values to the slice that ends where they
begin. -/
theorem slice_storeAll (a : CArray α n) {start i : Nat} (xs : List α) (lower : start ≤ i)
    (room : i + xs.length ≤ n) :
    (a.storeAll i xs).slice start (i + xs.length) = a.slice start i ++ xs := by
  induction xs generalizing a i with
  | nil => simp [storeAll]
  | cons x xs ih =>
    simp only [List.length_cons] at room ⊢
    have width : i + (xs.length + 1) = i + 1 + xs.length := by omega
    rw [storeAll, width, ih _ (by omega) (by omega), slice_store_last _ _ lower (by omega),
      List.append_assoc, List.singleton_append]

theorem overrun_storeAll (a : CArray α n) {i : Nat} (xs : List α) (room : i + xs.length ≤ n) :
    (a.storeAll i xs).overrun = a.overrun := by
  induction xs generalizing a i with
  | nil => rfl
  | cons x xs ih =>
    simp only [List.length_cons] at room
    rw [storeAll, ih _ (by omega), overrun_store _ _ (by omega)]

/-- An access past the last cell is never forgotten. -/
theorem overrun_storeAll_of_overrun {a : CArray α n} (strayed : a.overrun = true) (i : Nat) (xs : List α) :
    (a.storeAll i xs).overrun = true := by
  induction xs generalizing a i with
  | nil => exact strayed
  | cons x xs ih => exact ih (by simp [store, strayed]) _

/-- Frame of consecutive stores: the cells behind them are unchanged. -/
theorem getElem?_storeAll_behind (a : CArray α n) {i j : Nat} (xs : List α) (behind : i + xs.length ≤ j) :
    (a.storeAll i xs).cells[j]? = a.cells[j]? := by
  induction xs generalizing a i with
  | nil => rfl
  | cons x xs ih =>
    simp only [List.length_cons] at behind
    rw [storeAll, ih _ (by omega), store, List.getElem?_set_ne (by omega)]

theorem mem_cells_of_mem_slice {a : CArray α n} {x : α} {start stop : Nat} (member : x ∈ a.slice start stop) :
    x ∈ a.cells :=
  List.mem_of_mem_take (List.mem_of_mem_drop member)

/-- The whole array as a slice. -/
theorem slice_all (a : CArray α n) : a.slice 0 n = a.cells := by
  rw [slice, List.drop_zero, List.take_of_length_le (Nat.le_of_eq a.size_eq)]

theorem cString_eq [DecidableEq α] (a : CArray α n) {nul : α} {start i : Nat} {text : List α}
    (content : a.slice start i = text) (clean : nul ∉ text) (lower : start ≤ i)
    (ends : a.cells[i]? = some nul) : a.cString nul start = some text := by
  obtain ⟨inside, _⟩ := List.getElem?_eq_some_iff.mp ends
  have size := a.size_eq
  have split : a.cells.drop start = text ++ nul :: a.cells.drop (i + 1) := by
    have atI : a.cells.drop i = nul :: a.cells.drop (i + 1) := by
      rw [List.drop_eq_getElem_cons inside]
      congr 1
    have reach : i = start + (i - start) := by omega
    rw [← content, ← atI, slice, List.drop_take]
    conv_rhs => rw [reach, ← List.drop_drop]
    rw [Nat.add_sub_cancel_left, List.take_append_drop]
  have inArray : (0 : Int) ≤ start ∧ (start : Int) < n ∧ nul ∈ a.cells.drop (start : Int).toNat := by
    refine ⟨Int.natCast_nonneg _, by omega, ?_⟩
    simp [split]
  rw [cString, if_pos inArray, Int.toNat_natCast, split]
  have before : ∀ x ∈ text, decide (x ≠ nul) = true := by
    intro x member
    exact decide_eq_true fun same => clean (same ▸ member)
  rw [List.takeWhile_append_of_pos before]
  simp

/-- From any place before a NUL of the array a C string can be read. -/
theorem cString_isSome [DecidableEq α] (a : CArray α n) {nul : α} {start i : Nat} (lower : start ≤ i)
    (ends : a.cells[i]? = some nul) : ∃ text, a.cString nul start = some text := by
  have inside := (List.getElem?_eq_some_iff.mp ends).1
  have size := a.size_eq
  have behind : nul ∈ a.cells.drop start := by
    have reach : (a.cells.drop start)[i - start]? = some nul := by
      rw [List.getElem?_drop, Nat.add_sub_cancel' lower, ends]
    exact List.mem_of_getElem? reach
  have inArray : (0 : Int) ≤ start ∧ (start : Int) < n ∧ nul ∈ a.cells.drop (start : Int).toNat :=
    ⟨Int.natCast_nonneg _, by omega, by rwa [Int.toNat_natCast]⟩
  exact ⟨_, by rw [cString, if_pos inArray]⟩

variable [Inhabited α]

theorem slice_copyDown_below (a : CArray α n) {dst src start stop count : Nat} (below : stop ≤ dst) :
    (a.copyDown dst src count).slice start stop = a.slice start stop := by
  induction count generalizing a dst src with
  | zero => rfl
  | succ count ih =>
    rw [copyDown, ih _ (by omega), slice_store_outside _ _ (Or.inr below)]

/-- A forward copy to a lower or equal index is right even where source and
target overlap: every cell is read before it is overwritten. -/
theorem slice_copyDown (a : CArray α n) {dst src : Nat} (count : Nat) (down : dst ≤ src)
    (room : src + count ≤ n) :
    (a.copyDown dst src count).slice dst (dst + count) = a.slice src (src + count) := by
  induction count generalizing a dst src with
  | zero => simp
  | succ count ih =>
    let next := (a.store dst (a.load src)).copyDown (dst + 1) (src + 1) count
    have front : next.slice dst (dst + 1) = [a.load src] := by
      rw [slice_copyDown_below _ le_rfl, slice_store_last _ _ le_rfl (by omega), slice_self]
      rfl
    have back : next.slice (dst + 1) (dst + 1 + count) = a.slice (src + 1) (src + 1 + count) := by
      rw [ih _ (by omega) (by omega), slice_store_outside _ _ (Or.inl (by omega))]
    have width (i : Nat) : i + (count + 1) = i + 1 + count := by omega
    rw [copyDown, width, width, ← next.slice_append (Nat.le_succ dst) (by omega), front, back,
      a.slice_eq_cons (by omega : src < src + 1 + count) (by omega)]
    rfl

theorem overrun_copyDown (a : CArray α n) {dst src count : Nat} (room : dst + count ≤ n) :
    (a.copyDown dst src count).overrun = a.overrun := by
  induction count generalizing a dst src with
  | zero => rfl
  | succ count ih =>
    rw [copyDown, ih _ (by omega), overrun_store _ _ (by omega)]

/-- What stands from `start` on moved to the front, behind one element and with
a NUL after it. -/
theorem slice_moveFront (a : CArray α n) {start stop : Nat} (first nul : α) (positive : 0 < start)
    (within : start ≤ stop) (room : stop < n) :
    let moved := ((a.store 0 first).copyDown 1 start (stop - start)).store (1 + (stop - start)) nul
    moved.slice 0 (1 + (stop - start)) = first :: a.slice start stop ∧ moved.overrun = a.overrun := by
  have copied := (a.store 0 first).slice_copyDown (stop - start) positive (by omega)
  rw [Nat.add_sub_cancel' within, a.slice_store_outside _ (Or.inl positive)] at copied
  constructor
  · rw [slice_store_outside _ _ (Or.inr le_rfl), ← slice_append _ (Nat.zero_le 1) (Nat.le_add_right 1 _), copied,
      slice_copyDown_below _ le_rfl, a.slice_store_last _ le_rfl (by omega), slice_self]
    rfl
  · rw [overrun_store _ _ (by omega), overrun_copyDown _ (by omega), overrun_store _ _ (by omega)]

end CArray

end Lib
