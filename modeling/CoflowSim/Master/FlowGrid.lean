import CoflowSim.Master.TraceFormat
import Mathlib.Algebra.BigOperators.Group.List.Basic
import Mathlib.Algebra.Order.Field.Rat

namespace CoflowSim
open Lib

/-- The grid of flows that a line describes: from each mapper to each reducer,
with its share of the reducer's megabytes. -/
structure FlowGrid (line : TraceLine) (coflow : Coflow) : Prop where
  coflowID : coflow.coflowID = line.coflowID
  startTime : coflow.startTime = line.arrival.value
  keys : coflow.flowIDs.map (·.val) = (List.range (line.mappers.length * line.reducers.length)).map Int.ofNat
  flows : ∀ i j mapper reducer, line.mappers[i]? = some mapper → line.reducers[j]? = some reducer →
    ∃ f, coflow.flowCollection.find? f.flowID = some f ∧ f.flowID.val = ↑(j * line.mappers.length + i) ∧
      f.mapperID = mapper ∧ f.reducerID = reducer.1 ∧ f.flowSizeMB = reducer.2.value / line.mappers.length
  total : 0 < line.mappers.length →
    (coflow.flowCollection.values.map Flow.flowSizeMB).sum = (line.reducers.map fun r => r.2.value).sum
  /-- What goes to a location is what all its pairs list. -/
  received : 0 < line.mappers.length → ∀ location,
    ((coflow.flowCollection.values.filter fun f => f.reducerID = location).map Flow.flowSizeMB).sum =
      ((line.reducers.filter fun r => r.1 = location).map fun r => r.2.value).sum

namespace TraceLine

theorem specs_exact (line : TraceLine) : line.specs = line.reducers.flatMap fun r =>
    line.mappers.map fun m => (m, r.1, r.2.value / (line.mappers.length : Rat)) := rfl

/-- The specification of the flow from the i-th mapper to the j-th reducer. -/
theorem specs_getElem? (line : TraceLine) {i j : Nat} {mapper : CInt} {reducer : CInt × Decimal}
    (atI : line.mappers[i]? = some mapper) (atJ : line.reducers[j]? = some reducer) :
    line.specs[j * line.mappers.length + i]? = some (mapper, reducer.1, reducer.2.value / line.mappers.length) := by
  have below : i < line.mappers.length := (List.getElem?_eq_some_iff.mp atI).1
  rw [specs_exact]
  generalize line.reducers = reducers at atJ
  induction reducers generalizing j with
  | nil => simp at atJ
  | cons r reducers ih =>
    rw [List.flatMap_cons]
    cases j with
    | zero =>
      cases atJ
      rw [Nat.zero_mul, Nat.zero_add, List.getElem?_append_left (by simpa using below), List.getElem?_map, atI]
      rfl
    | succ j =>
      have row : (line.mappers.map fun m => (m, r.1, r.2.value / line.mappers.length)).length = line.mappers.length :=
        List.length_map _
      have past : (j + 1) * line.mappers.length + i = line.mappers.length + (j * line.mappers.length + i) := by
        rw [Nat.succ_mul]
        omega
      rw [List.getElem?_append_right (by omega), row, past, Nat.add_sub_cancel_left]
      exact ih atJ

/-- The shares of one reducer add up to what it lists. -/
theorem shares_sum (mappers : List CInt) (some_mappers : 0 < mappers.length) (r : CInt × Decimal) :
    ((mappers.map fun m => (m, r.1, r.2.value / mappers.length)).map fun spec => spec.2.2).sum = r.2.value := by
  have nonzero : (mappers.length : Rat) ≠ 0 := Nat.cast_ne_zero.mpr (Nat.ne_of_gt some_mappers)
  calc ((mappers.map fun m => (m, r.1, r.2.value / mappers.length)).map fun spec => spec.2.2).sum
    _ = (mappers.map fun _ => r.2.value / (mappers.length : Rat)).sum := by rw [List.map_map]; rfl
    _ = mappers.length * (r.2.value / mappers.length) := by
      rw [List.map_const', List.sum_replicate, nsmul_eq_mul]
    _ = r.2.value := mul_div_cancel₀ _ nonzero

/-- So do those of all the reducers at the locations that pass a test. -/
theorem specs_sum (line : TraceLine) (some_mappers : 0 < line.mappers.length) (test : CInt → Bool) :
    ((line.specs.filter fun spec => test spec.2.1).map fun spec => spec.2.2).sum =
      ((line.reducers.filter fun r => test r.1).map fun r => r.2.value).sum := by
  rw [specs_exact]
  generalize line.reducers = reducers
  induction reducers with
  | nil => rfl
  | cons r reducers ih =>
    rw [List.flatMap_cons, List.filter_append, List.map_append, List.sum_append, ih]
    cases passes : test r.1 with
    | true =>
      have row : (line.mappers.map fun m => (m, r.1, r.2.value / line.mappers.length)).filter
          (fun spec => test spec.2.1) = line.mappers.map fun m => (m, r.1, r.2.value / line.mappers.length) := by
        refine List.filter_eq_self.mpr fun spec member => ?_
        obtain ⟨m, -, rfl⟩ := List.mem_map.mp member
        exact passes
      rw [row, shares_sum line.mappers some_mappers r]
      simp only [List.filter_cons, passes, if_true, List.map_cons, List.sum_cons]
    | false =>
      have row : (line.mappers.map fun m => (m, r.1, r.2.value / line.mappers.length)).filter
          (fun spec => test spec.2.1) = [] := by
        refine List.filter_eq_nil_iff.mpr fun spec member => ?_
        obtain ⟨m, -, rfl⟩ := List.mem_map.mp member
        simp [passes]
      simp only [row, List.map_nil, List.sum_nil, zero_add, List.filter_cons, passes, Bool.false_eq_true, if_false]

/-- Where the flows of the coflow go, and what is to be sent there. -/
theorem coflow_shares (line : TraceLine) (few : line.specs.length ≤ 2147483648) :
    line.coflow.flowCollection.values.map (fun f => (f.reducerID, f.flowSizeMB)) = line.specs.map Prod.snd := by
  have specs : line.specs.zipIdx.map Prod.fst = line.specs := List.zipIdx_map_fst 0 line.specs
  rw [OrderedMap.values, line.coflow_entries few, ← congrArg (List.map Prod.snd) specs]
  simp only [List.map_map]
  rfl

theorem received_sum (line : TraceLine) (few : line.specs.length ≤ 2147483648)
    (some_mappers : 0 < line.mappers.length) (test : CInt → Bool) :
    ((line.coflow.flowCollection.values.filter fun f => test f.reducerID).map Flow.flowSizeMB).sum =
      ((line.reducers.filter fun r => test r.1).map fun r => r.2.value).sum := by
  have shares := congrArg (fun pairs => ((pairs.filter fun p : CInt × Rat => test p.1).map Prod.snd).sum)
    (line.coflow_shares few)
  simp only [List.filter_map, List.map_map] at shares
  exact shares.trans (line.specs_sum some_mappers test)

end TraceLine

/-- The coflow of a line is its grid, once its flows can be numbered. -/
theorem flowGrid_coflow (line : TraceLine) (few : line.mappers.length * line.reducers.length ≤ 2147483648) :
    FlowGrid line line.coflow := by
  have fewSpecs : line.specs.length ≤ 2147483648 := by
    rwa [line.specs_length, Nat.mul_comm]
  have identity : line.coflow.coflowID = line.coflowID ∧ line.coflow.startTime = line.arrival.value :=
    TraceProducer.addFlows_keeps (P := fun c => c.coflowID = line.coflowID ∧ c.startTime = line.arrival.value)
      (fun _ _ _ _ _ here => here) ⟨rfl, rfl⟩ _ _
  have entries : line.coflow.flowCollection.entries = line.specs.zipIdx.map TraceLine.entry :=
    line.coflow_entries fewSpecs
  have number {k : Nat} (below : k < line.specs.length) : (CInt.clamp k).val = k :=
    CInt.val_clamp (by omega) (by omega)
  constructor
  case coflowID => exact identity.1
  case startTime => exact identity.2
  case keys =>
    have numbers : line.specs.zipIdx.map Prod.snd = List.range (line.mappers.length * line.reducers.length) := by
      rw [List.zipIdx_map_snd, line.specs_length, Nat.mul_comm, List.range_eq_range']
    rw [Coflow.flowIDs, OrderedMap.keys, entries, ← numbers, List.map_map, List.map_map, List.map_map]
    refine List.map_congr_left fun spec member => number ?_
    simpa using List.snd_lt_of_mem_zipIdx member
  case flows =>
    intro i j mapper reducer atI atJ
    have spec := line.specs_getElem? atI atJ
    have below := (List.getElem?_eq_some_iff.mp spec).1
    let f := (TraceLine.entry ((mapper, reducer.1, reducer.2.value / (line.mappers.length : Rat)),
      j * line.mappers.length + i)).2
    have member : (f.flowID, f) ∈ line.coflow.flowCollection.entries := by
      rw [entries]
      exact List.mem_map_of_mem (List.mk_mem_zipIdx_iff_getElem?.mpr spec)
    exact ⟨f, OrderedMap.find?_of_mem member, number below, rfl, rfl, rfl⟩
  case total =>
    intro some_mappers
    have all := line.received_sum fewSpecs some_mappers fun _ => true
    rwa [List.filter_true, List.filter_true] at all
  case received => exact fun some_mappers location => line.received_sum fewSpecs some_mappers fun r => r = location

namespace TraceProducer

/-- One line becomes its grid of flows when the counts and the flow IDs fit
their `int`s. -/
theorem prepareOneCoflow_flowGrid {line : TraceLine} {text : List Byte} (separated : Separated line.words text)
    (tokens : ∀ r ∈ line.reducers, (TraceLine.reducerWord r).length < TOKEN_BUFFER)
    (mappers : line.mappers.length ≤ 2147483647) (reducers : line.reducers.length ≤ 2147483647)
    (few : line.mappers.length * line.reducers.length ≤ 2147483648) :
    ∃ coflow, prepareOneCoflow text = some coflow ∧ FlowGrid line coflow :=
  ⟨line.coflow, prepareOneCoflow_words line.reads_exact separated mappers reducers tokens, flowGrid_coflow line few⟩

/-- Two mappers, one of them the place of both reducers. -/
def twoByTwo : TraceLine where
  coflowID := .clamp 7
  arrival := .ofNat 5
  mappers := [.clamp 3, .clamp 4]
  reducers := [(.clamp 3, .ofNat 8), (.clamp 3, .ofNat 9)]

theorem prepareOneCoflow_flowGrid_two :
    ∃ coflow, prepareOneCoflow (spaced twoByTwo.words) = some coflow ∧ FlowGrid twoByTwo coflow :=
  prepareOneCoflow_flowGrid (separated_spaced _) (by decide +kernel) (by decide) (by decide) (by decide)

/-- 65536 mappers and 65536 reducers. -/
def square : TraceLine where
  coflowID := CInt.zero
  arrival := .ofNat 0
  mappers := List.replicate 65536 CInt.zero
  reducers := List.replicate 65536 (CInt.zero, .ofNat 1)

/-- Their flows have more IDs than there are `int`s. -/
theorem square_is_no_grid :
    ¬ ∀ (line : TraceLine) (text : List Byte), Separated line.words text →
      (∀ r ∈ line.reducers, (TraceLine.reducerWord r).length < TOKEN_BUFFER) →
      ∃ coflow, prepareOneCoflow text = some coflow ∧ FlowGrid line coflow := by
  intro always
  have tokens : ∀ r ∈ square.reducers, (TraceLine.reducerWord r).length < TOKEN_BUFFER := by
    intro r member
    rw [List.eq_of_mem_replicate member]
    decide +kernel
  obtain ⟨coflow, -, grid⟩ := always square (spaced square.words) (separated_spaced _) tokens
  have atI : square.mappers[65535]? = some CInt.zero := List.getElem?_replicate_of_lt (by decide)
  have atJ : square.reducers[65535]? = some (CInt.zero, .ofNat 1) :=
    List.getElem?_replicate_of_lt (by decide)
  obtain ⟨f, -, number, -⟩ := grid.flows 65535 65535 _ _ atI atJ
  have many : square.mappers.length = 65536 := List.length_replicate
  have fits := f.flowID.property.2
  rw [many] at number
  omega

end TraceProducer

end CoflowSim
