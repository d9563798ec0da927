import CoflowSim.Lib.FormattedOutput
import Mathlib.Tactic.Ring
import Mathlib.Tactic.Linarith
import Mathlib.Tactic.FieldSimp

namespace Lib

def smallE : UInt8 := 101
def capitalE : UInt8 := 69

/-- The sign and the digits behind an `e`, and what follows them. Without an
`e` the exponent is 0; an `e` without digits spoils the number. -/
def readExponent (text : List UInt8) : Option Int × List UInt8 :=
  if text.head? = some smallE ∨ text.head? = some capitalE then
    let text := text.tail
    let negative := text.head? == some minus
    let body := if negative || text.head? == some plus then text.tail else text
    let digits := body.takeWhile isDigit
    let rest := body.dropWhile isDigit
    if digits.isEmpty then (none, rest)
    else (some (if negative then -digitsValue digits else digitsValue digits), rest)
  else (some 0, text)

/-- The number with these digits before and behind its point. -/
def decimalValue (whole fraction : List UInt8) (exponent : Int) : Rat :=
  digitsValue (whole ++ fraction) * (10 : Rat) ^ (exponent - fraction.length)

/-- `stream >> double`, in the manner of `readInt`. -/
def IStream.readDouble (s : IStream) : Option Rat × IStream :=
  let text := s.rest.dropWhile isSpace
  if s.fail then (none, s)
  else if text.isEmpty then (none, ⟨[], true⟩)
  else
    let negative := text.head? == some minus
    let body := if negative || text.head? == some plus then text.tail else text
    let whole := body.takeWhile isDigit
    let behind := body.dropWhile isDigit
    let pointed := behind.head? == some point
    let fraction := if pointed then behind.tail.takeWhile isDigit else []
    let rest := if pointed then behind.tail.dropWhile isDigit else behind
    if (whole ++ fraction).isEmpty then (some 0, ⟨rest, true⟩)
    else
      match readExponent rest with
      | (none, rest) => (some 0, ⟨rest, true⟩)
      | (some exponent, rest) =>
        let value := decimalValue whole fraction exponent
        (some (if negative then -value else value), ⟨rest, false⟩)

/-- Digits behind a point, without the point if there are none. -/
def pointed (fraction : List UInt8) : List UInt8 := if fraction.isEmpty then [] else point :: fraction

theorem showFraction_eq (digits : List UInt8) :
    showFraction digits = pointed (digits.rdropWhile (· == digitZero)) := rfl

theorem digitsValue_append (front back : List UInt8) :
    digitsValue (front ++ back) = digitsValue front * 10 ^ back.length + digitsValue back := by
  have fold (digits : List UInt8) (value : Nat) :
      digits.foldl (fun value d => 10 * value + (d.toNat - 48)) value =
        value * 10 ^ digits.length + digitsValue digits := by
    induction digits generalizing value with
    | nil => simp [digitsValue]
    | cons d digits ih =>
      rw [digitsValue, List.foldl_cons, List.foldl_cons, ih, ih (10 * 0 + _), List.length_cons]
      ring
  rw [digitsValue, List.foldl_append, fold]
  rfl

theorem digitsValue_lt {digits : List UInt8} (valid : ∀ b ∈ digits, isDigit b = true) :
    digitsValue digits < 10 ^ digits.length := by
  induction digits using List.reverseRecOn with
  | nil => simp [digitsValue]
  | append_singleton digits d ih =>
    have before := ih fun b member => valid b (List.mem_append_left _ member)
    have last : d.toNat ≤ 57 := by
      have digit := valid d (by simp)
      simp only [isDigit, Bool.and_eq_true, decide_eq_true_eq, UInt8.le_iff_toNat_le] at digit
      exact digit.2
    have one : digitsValue [d] = d.toNat - 48 := by simp [digitsValue]
    rw [digitsValue_append, one, List.length_append, List.length_singleton, pow_one, pow_succ]
    omega

theorem digitsValue_zeros (n : Nat) : digitsValue (List.replicate n digitZero) = 0 := by
  induction n with
  | zero => rfl
  | succ n ih =>
    rw [List.replicate_succ, ← List.singleton_append, digitsValue_append, ih]
    simp [digitsValue, digitZero]

/-- Zeros at the end of the fraction do not count. -/
theorem decimalValue_rdropWhile (whole fraction : List UInt8) (exponent : Int) :
    decimalValue whole (fraction.rdropWhile (· == digitZero)) exponent = decimalValue whole fraction exponent := by
  have zeros : fraction.rtakeWhile (· == digitZero) =
      List.replicate (fraction.rtakeWhile (· == digitZero)).length digitZero := by
    refine List.eq_replicate_iff.mpr ⟨rfl, fun b member => ?_⟩
    simpa using List.mem_rtakeWhile_imp member
  have split : fraction = fraction.rdropWhile (· == digitZero) ++
      List.replicate (fraction.rtakeWhile (· == digitZero)).length digitZero := by
    rw [← zeros, List.rdropWhile_append_rtakeWhile]
  generalize (fraction.rtakeWhile (· == digitZero)).length = n at split
  generalize fraction.rdropWhile (· == digitZero) = kept at split
  subst split
  rw [decimalValue, decimalValue, ← List.append_assoc, digitsValue_append _ (List.replicate n digitZero),
    digitsValue_zeros, List.length_append, List.length_replicate]
  push_cast
  have power : (10 : Rat) ^ (exponent - kept.length) = 10 ^ n * (10 : Rat) ^ (exponent - (kept.length + n)) := by
    rw [← zpow_natCast, ← zpow_add₀ (by norm_num)]
    congr 1
    ring
  rw [power]
  ring

/-- What stands behind a number does not go on with it. -/
def EndsDouble (tail : List UInt8) : Prop :=
  ∀ b, tail.head? = some b → isDigit b = false ∧ b ≠ point ∧ b ≠ smallE ∧ b ≠ capitalE

theorem EndsDouble.nil : EndsDouble [] := by
  intro b first
  cases first

theorem EndsDouble.endsNumber {tail : List UInt8} (ends : EndsDouble tail) : EndsNumber tail :=
  fun b first => (ends b first).1

theorem readExponent_none {tail : List UInt8} (ends : EndsDouble tail) : readExponent tail = (some 0, tail) := by
  have absent : ¬ (tail.head? = some smallE ∨ tail.head? = some capitalE) := by
    rintro (first | first)
    · exact (ends _ first).2.2.1 rfl
    · exact (ends _ first).2.2.2 rfl
  rw [readExponent, if_neg absent]

theorem readExponent_signed {digits tail : List UInt8} (negative : Bool) (nonempty : digits ≠ [])
    (valid : ∀ b ∈ digits, isDigit b = true) (ends : EndsNumber tail) :
    readExponent (smallE :: (if negative then minus else plus) :: (digits ++ tail)) =
      (some (if negative then -(digitsValue digits : Int) else digitsValue digits), tail) := by
  obtain ⟨taken, dropped⟩ := split_digits valid ends
  have some_digits : digits.isEmpty = false := by simpa using nonempty
  unfold readExponent
  cases negative
  · simp [taken, dropped, some_digits, minus, plus, smallE]
  · simp [taken, dropped, some_digits]

/-- Reading the digits of a number, behind any white space. -/
theorem readDouble_pointed {spaces whole fraction behind tail : List UInt8} {exponent : Int}
    (blank : ∀ b ∈ spaces, isSpace b = true) (nonempty : whole ≠ [])
    (wholeDigits : ∀ b ∈ whole, isDigit b = true) (fractionDigits : ∀ b ∈ fraction, isDigit b = true)
    (ends : EndsNumber behind) (noPoint : behind.head? ≠ some point)
    (scaled : readExponent behind = (some exponent, tail)) :
    (IStream.mk (spaces ++ (whole ++ (pointed fraction ++ behind))) false).readDouble =
      (some (decimalValue whole fraction exponent), ⟨tail, false⟩) := by
  obtain ⟨d, digits, rfl⟩ := List.exists_cons_of_ne_nil nonempty
  have first : isDigit d = true := wholeDigits d (by simp)
  have text : (spaces ++ (d :: digits ++ (pointed fraction ++ behind))).dropWhile isSpace =
      d :: digits ++ (pointed fraction ++ behind) := by
    rw [List.dropWhile_append_of_pos blank, List.cons_append,
      List.dropWhile_cons_of_neg (by simp [isDigit_not_space first])]
  have unsigned : ((some d == some minus) = false) ∧ ((some d == some plus) = false) := by
    simpa using isDigit_not_sign first
  have pointEnds : EndsNumber (pointed fraction ++ behind) := by
    unfold pointed
    split
    · exact ends
    · intro b head
      cases head
      decide
  obtain ⟨taken, dropped⟩ := split_digits wholeDigits pointEnds
  have afterPoint : (if ((pointed fraction ++ behind).head? == some point) = true then
      (pointed fraction ++ behind).tail.takeWhile isDigit else []) = fraction ∧
      (if ((pointed fraction ++ behind).head? == some point) = true then
        (pointed fraction ++ behind).tail.dropWhile isDigit else pointed fraction ++ behind) = behind := by
    cases fraction with
    | nil => simp [pointed, noPoint]
    | cons b rest =>
      obtain ⟨inside, outside⟩ := split_digits fractionDigits ends
      simp only [List.cons_append] at inside outside
      simp [pointed, inside, outside]
  simp only [IStream.readDouble, text, Bool.false_eq_true, if_false]
  simp only [List.cons_append] at taken dropped
  simp only [List.cons_append, List.isEmpty_cons, Bool.false_eq_true, if_false, List.head?_cons, unsigned.1,
    unsigned.2, Bool.or_self, taken, dropped, afterPoint.1, afterPoint.2, scaled]

/-- A positive number rounded to six significant digits. -/
def sixDigits (q : Rat) : Rat := (significantDigits q).1 * (10 : Rat) ^ ((significantDigits q).2 - 5)

theorem roundHalfEven_bounds {q : Rat} {low high : Int} (above : (low : Rat) ≤ q) (below : q < high) :
    low ≤ roundHalfEven q ∧ roundHalfEven q ≤ high := by
  have floorAbove : low ≤ q.floor := Rat.le_floor_iff.mpr above
  have floorBelow : q.floor < high := Rat.floor_lt_iff.mpr below
  unfold roundHalfEven
  dsimp only
  split_ifs <;> omega

/-- Scaling by the exponent brings a positive number between 10^5 and 10^6. -/
theorem scaled_range {q : Rat} (positive : 0 < q) :
    (100000 : Rat) ≤ q * (10 : Rat) ^ (5 - Int.log 10 q) ∧ q * (10 : Rat) ^ (5 - Int.log 10 q) < 1000000 := by
  have lower := Int.zpow_log_le_self (b := 10) (by decide) positive
  have upper := Int.lt_zpow_succ_log_self (b := 10) (by decide) q
  have scale : (0 : Rat) < (10 : Rat) ^ (5 - Int.log 10 q) := zpow_pos (by norm_num) _
  constructor
  · calc (100000 : Rat) = (10 : Rat) ^ Int.log 10 q * (10 : Rat) ^ (5 - Int.log 10 q) := by
          rw [← zpow_add₀ (by norm_num), add_sub_cancel]
          norm_num
      _ ≤ q * (10 : Rat) ^ (5 - Int.log 10 q) := mul_le_mul_of_nonneg_right (by exact_mod_cast lower) scale.le
  · calc q * (10 : Rat) ^ (5 - Int.log 10 q)
        < (10 : Rat) ^ (Int.log 10 q + 1) * (10 : Rat) ^ (5 - Int.log 10 q) :=
          mul_lt_mul_of_pos_right (by exact_mod_cast upper) scale
      _ = (1000000 : Rat) := by
          rw [← zpow_add₀ (by norm_num), show Int.log 10 q + 1 + (5 - Int.log 10 q) = 6 by ring]
          norm_num

theorem rounded_range {q : Rat} (positive : 0 < q) :
    (100000 : Int) ≤ roundHalfEven (q * (10 : Rat) ^ (5 - Int.log 10 q)) ∧
      roundHalfEven (q * (10 : Rat) ^ (5 - Int.log 10 q)) ≤ 1000000 := by
  obtain ⟨above, below⟩ := scaled_range positive
  exact roundHalfEven_bounds (by exact_mod_cast above) (by exact_mod_cast below)

/-- There are six digits, and the first is not zero. -/
theorem significantDigits_range {q : Rat} (positive : 0 < q) :
    100000 ≤ (significantDigits q).1 ∧ (significantDigits q).1 < 1000000 := by
  have bounds := rounded_range positive
  unfold significantDigits
  dsimp only
  split
  · exact ⟨Nat.le_refl _, (by decide : 100000 < 1000000)⟩
  · dsimp only
    omega

theorem roundHalfEven_natCast (n : Nat) : roundHalfEven n = n := by
  have whole : (n : Rat).floor = n := Rat.floor_intCast n
  simp [roundHalfEven, whole]

/-- The numbers that six digits write exactly. -/
theorem sixDigits_eq_self_iff {q : Rat} (positive : 0 < q) :
    sixDigits q = q ↔ ∃ (digits : Nat) (exponent : Int), digits < 1000000 ∧ q = digits * (10 : Rat) ^ exponent := by
  constructor
  · intro exact_digits
    exact ⟨_, _, (significantDigits_range positive).2, exact_digits.symm⟩
  · rintro ⟨digits, exponent, few, written⟩
    obtain ⟨-, below⟩ := scaled_range positive
    have lower := Int.zpow_log_le_self (b := 10) (by decide) positive
    rw [sixDigits, significantDigits]
    generalize Int.log 10 q = magnitude at below lower
    have ten : (1 : Rat) < 10 := by norm_num
    have small : magnitude < exponent + 6 := by
      refine (zpow_lt_zpow_iff_right₀ ten).mp (lt_of_le_of_lt (by exact_mod_cast lower) ?_)
      rw [written, zpow_add₀ (by norm_num), mul_comm]
      refine mul_lt_mul_of_pos_left ?_ (zpow_pos (by norm_num) _)
      calc (digits : Rat) < (1000000 : Nat) := by exact_mod_cast few
        _ = (10 : Rat) ^ (6 : Int) := by norm_num
    have whole : q * (10 : Rat) ^ (5 - magnitude) = ((digits * 10 ^ (exponent + 5 - magnitude).toNat : Nat) : Rat) := by
      have power : (((exponent + 5 - magnitude).toNat : Nat) : Int) = exponent + (5 - magnitude) := by omega
      push_cast
      rw [written, mul_assoc, ← zpow_add₀ (by norm_num), ← zpow_natCast, power]
    rw [whole, roundHalfEven_natCast, Int.toNat_natCast]
    rw [whole] at below
    have notMore : digits * 10 ^ (exponent + 5 - magnitude).toNat ≠ 1000000 := by
      intro same
      rw [same] at below
      norm_num at below
    rw [if_neg notMore, ← whole, mul_assoc, ← zpow_add₀ (by norm_num)]
    simp

theorem sixDigits_pos {q : Rat} (positive : 0 < q) : 0 < sixDigits q := by
  have low := (significantDigits_range positive).1
  have some_digit : (0 : Rat) < (significantDigits q).1 := by exact_mod_cast Nat.lt_of_lt_of_le (by decide) low
  exact mul_pos some_digit (zpow_pos (by norm_num) _)

/-- Six digits of six digits are the same. -/
theorem sixDigits_sixDigits {q : Rat} (positive : 0 < q) : sixDigits (sixDigits q) = sixDigits q :=
  (sixDigits_eq_self_iff (sixDigits_pos positive)).mpr ⟨_, _, (significantDigits_range positive).2, rfl⟩

theorem showNat_length_six {n : Nat} (low : 100000 ≤ n) (high : n < 1000000) : (showNat n).length = 6 := by
  have upper : (showNat n).length ≤ 6 := (showNat_length_le_iff (by decide)).mpr high
  have lower : ¬ (showNat n).length ≤ 5 := mt (showNat_length_le_iff (by decide)).mp (by omega)
  omega

theorem showNat_split {n : Nat} (k : Nat) (exponent : Int) (length : (showNat n).length = 6) (within : k ≤ 6) :
    decimalValue ((showNat n).take k) ((showNat n).drop k) exponent = n * (10 : Rat) ^ (exponent - (6 - k : Int)) := by
  rw [decimalValue, List.take_append_drop, digitsValue_showNat, List.length_drop, length]
  push_cast [within]
  rfl

theorem pointed_rdropWhile_digits {digits : List UInt8} (valid : ∀ b ∈ digits, isDigit b = true) :
    ∀ b ∈ digits.rdropWhile (· == digitZero), isDigit b = true :=
  fun b member => valid b ((List.rdropWhile_prefix _ digits).mem member)

/-- What a number is written with. -/
def isNumeric (b : UInt8) : Bool := isDigit b || b == point || b == smallE || b == minus || b == plus

theorem isNumeric_not_space {b : UInt8} (numeric : isNumeric b = true) : isSpace b = false := by
  simp only [isNumeric, Bool.or_eq_true, beq_iff_eq] at numeric
  rcases numeric with (((digit | rfl) | rfl) | rfl) | rfl
  · exact isDigit_not_space digit
  all_goals decide

theorem showDouble_numeric {q : Rat} (positive : 0 < q) :
    showDouble q ≠ [] ∧ ∀ b ∈ showDouble q, isNumeric b = true := by
  have digit {b : UInt8} (isDigit : isDigit b = true) : isNumeric b = true := by simp [isNumeric, isDigit]
  have nat (n : Nat) : ∀ b ∈ showNat n, isNumeric b = true := fun b member => digit (showNat_digits n b member)
  have zero : isNumeric digitZero = true := by decide
  have fraction {digits : List UInt8} (valid : ∀ b ∈ digits, isNumeric b = true) :
      ∀ b ∈ showFraction digits, isNumeric b = true := by
    intro b member
    rw [showFraction_eq, pointed] at member
    split at member
    · exact (List.not_mem_nil member).elim
    · rcases List.mem_cons.mp member with rfl | inside
      · decide
      · exact valid b ((List.rdropWhile_prefix _ digits).mem inside)
  have shown : showDouble q = showPositive q := by
    rw [showDouble, if_neg positive.ne', if_neg (not_lt.mpr positive.le)]
  have nonempty (k : Nat) : (showNat (significantDigits q).1).take (k + 1) ≠ [] := by
    simp [List.take_eq_nil_iff, showNat_ne_nil]
  rw [shown, showPositive]
  dsimp only
  split
  · constructor
    · exact List.append_ne_nil_of_left_ne_nil (List.append_ne_nil_of_left_ne_nil
        (List.append_ne_nil_of_left_ne_nil (nonempty 0) _) _) _
    · intro b member
      simp only [List.mem_append, List.mem_cons, List.not_mem_nil, or_false] at member
      rcases member with ((inWhole | inFraction) | rfl | rfl) | inExponent
      · exact nat _ b (List.mem_of_mem_take inWhole)
      · exact fraction (fun c inside => nat _ c (List.mem_of_mem_drop inside)) b inFraction
      · decide
      · split <;> decide
      · split at inExponent
        · rcases List.mem_cons.mp inExponent with rfl | inside
          · exact zero
          · exact nat _ b inside
        · exact nat _ b inExponent
  · split
    · refine ⟨List.cons_ne_nil _ _, fun b member => ?_⟩
      rcases List.mem_cons.mp member with rfl | inside
      · exact zero
      · refine fraction (fun c inFraction => ?_) b inside
        rcases List.mem_append.mp inFraction with zeros | digits
        · rw [List.eq_of_mem_replicate zeros]
          exact zero
        · exact nat _ c digits
    · refine ⟨List.append_ne_nil_of_left_ne_nil (nonempty _) _, fun b member => ?_⟩
      rcases List.mem_append.mp member with inWhole | inFraction
      · exact nat _ b (List.mem_of_mem_take inWhole)
      · exact fraction (fun c inside => nat _ c (List.mem_of_mem_drop inside)) b inFraction

/-- An exponent is written with two digits at least. -/
theorem padded_digits (n : Nat) :
    let padded := if (showNat n).length < 2 then digitZero :: showNat n else showNat n
    padded ≠ [] ∧ (∀ b ∈ padded, isDigit b = true) ∧ digitsValue padded = n := by
  have valid := showNat_digits n
  dsimp only
  split
  · refine ⟨List.cons_ne_nil _ _, fun b member => ?_, ?_⟩
    · rcases List.mem_cons.mp member with rfl | inside
      · decide
      · exact valid b inside
    · rw [← List.singleton_append, digitsValue_append, digitsValue_showNat]
      simp [digitsValue, digitZero]
  · exact ⟨showNat_ne_nil n, valid, digitsValue_showNat n⟩

theorem sixDigits_split {value k : Nat} (length : (showNat value).length = 6) (positive : 0 < k) (within : k ≤ 6) :
    (showNat value).take k ≠ [] ∧ (∀ b ∈ (showNat value).take k, isDigit b = true) ∧
      ∀ b ∈ (showNat value).drop k, isDigit b = true := by
  have valid := showNat_digits value
  refine ⟨fun empty => ?_, fun b member => valid b (List.mem_of_mem_take member),
    fun b member => valid b (List.mem_of_mem_drop member)⟩
  have taken := congrArg List.length empty
  rw [List.length_take, length, List.length_nil] at taken
  omega

section Notations

variable {spaces tail : List UInt8} {value : Nat}

/-- Fixed notation from 1 on, with `k` digits before the point. -/
theorem readDouble_fixed {k : Nat} (blank : ∀ b ∈ spaces, isSpace b = true) (length : (showNat value).length = 6)
    (positive : 0 < k) (within : k ≤ 6) (ends : EndsDouble tail) :
    (IStream.mk (spaces ++ ((showNat value).take k ++ showFraction ((showNat value).drop k) ++ tail))
      false).readDouble =
      (some (value * (10 : Rat) ^ ((k : Int) - 6)), ⟨tail, false⟩) := by
  have noPoint : tail.head? ≠ some point := fun first => (ends point first).2.1 rfl
  obtain ⟨nonempty, wholeDigits, fractionDigits⟩ := sixDigits_split length positive within
  have read := readDouble_pointed blank nonempty wholeDigits (pointed_rdropWhile_digits fractionDigits)
    ends.endsNumber noPoint (readExponent_none ends)
  have scale : (0 : Int) - (6 - (k : Int)) = k - 6 := by omega
  rw [decimalValue_rdropWhile, showNat_split _ _ length within, scale] at read
  rw [showFraction_eq]
  simpa using read

/-- Fixed notation below 1, with zeros behind the point. -/
theorem readDouble_small {zeros : Nat} (blank : ∀ b ∈ spaces, isSpace b = true)
    (length : (showNat value).length = 6) (ends : EndsDouble tail) :
    (IStream.mk (spaces ++ (digitZero :: showFraction (List.replicate zeros digitZero ++ showNat value) ++ tail))
      false).readDouble = (some (value * (10 : Rat) ^ (-((zeros + 6 : Nat) : Int))), ⟨tail, false⟩) := by
  have noPoint : tail.head? ≠ some point := fun first => (ends point first).2.1 rfl
  have zeroDigit : ∀ b ∈ [digitZero], isDigit b = true := List.forall_mem_singleton.mpr (by decide)
  have fractionDigits : ∀ b ∈ List.replicate zeros digitZero ++ showNat value, isDigit b = true := by
    intro b member
    rcases List.mem_append.mp member with zero | digit
    · rw [List.eq_of_mem_replicate zero]
      decide
    · exact showNat_digits value b digit
  have read := readDouble_pointed blank (List.cons_ne_nil digitZero []) zeroDigit
    (pointed_rdropWhile_digits fractionDigits) ends.endsNumber noPoint (readExponent_none ends)
  have decimal : decimalValue [digitZero] (List.replicate zeros digitZero ++ showNat value) 0 =
      value * (10 : Rat) ^ (-((zeros + 6 : Nat) : Int)) := by
    rw [decimalValue, ← List.append_assoc, digitsValue_append, digitsValue_append, digitsValue_zeros,
      digitsValue_showNat, List.length_append, List.length_replicate, length, zero_sub]
    simp [digitsValue, digitZero]
  rw [decimalValue_rdropWhile, decimal] at read
  rw [showFraction_eq]
  simpa using read

/-- Scientific notation. -/
theorem readDouble_scientific {exponent : Int} (blank : ∀ b ∈ spaces, isSpace b = true)
    (length : (showNat value).length = 6) (ends : EndsDouble tail) :
    (IStream.mk (spaces ++ ((showNat value).take 1 ++ showFraction ((showNat value).drop 1) ++
      [101, if exponent < 0 then minus else plus] ++
      (if (showNat exponent.natAbs).length < 2 then digitZero :: showNat exponent.natAbs
        else showNat exponent.natAbs) ++ tail)) false).readDouble =
      (some (value * (10 : Rat) ^ (exponent - 5)), ⟨tail, false⟩) := by
  obtain ⟨nonempty, wholeDigits, fractionDigits⟩ := sixDigits_split length Nat.one_pos (by decide)
  obtain ⟨some_digits, padded, magnitude⟩ := padded_digits exponent.natAbs
  have scaled := readExponent_signed (decide (exponent < 0)) some_digits padded ends.endsNumber
  have read := readDouble_pointed blank nonempty wholeDigits (pointed_rdropWhile_digits fractionDigits)
    (show EndsNumber (smallE :: _) from fun b first => by cases first; decide)
    (show (smallE :: _).head? ≠ some point by simp [smallE, point]) scaled
  have same : (if decide (exponent < 0) = true then -(exponent.natAbs : Int) else exponent.natAbs) = exponent := by
    by_cases negative : exponent < 0
    · rw [if_pos (by simpa using negative)]
      omega
    · rw [if_neg (by simpa using negative)]
      omega
  rw [magnitude, same, decimalValue_rdropWhile, showNat_split 1 _ length (by decide)] at read
  rw [showFraction_eq]
  simpa [smallE] using read

end Notations

/-- Reading back what `stream << double` writes gives the six digits. -/
theorem readDouble_showDouble {spaces tail : List UInt8} {q : Rat} (blank : ∀ b ∈ spaces, isSpace b = true)
    (positive : 0 < q) (ends : EndsDouble tail) :
    (IStream.mk (spaces ++ (showDouble q ++ tail)) false).readDouble = (some (sixDigits q), ⟨tail, false⟩) := by
  obtain ⟨low, high⟩ := significantDigits_range positive
  have length := showNat_length_six low high
  have shown : showDouble q = showPositive q := by
    rw [showDouble, if_neg positive.ne', if_neg (not_lt.mpr positive.le)]
  rw [shown, showPositive, sixDigits]
  generalize significantDigits q = digits at *
  obtain ⟨value, exponent⟩ := digits
  dsimp only at *
  by_cases scientific : exponent < -4 ∨ 6 ≤ exponent
  · rw [if_pos scientific]
    exact readDouble_scientific blank length ends
  · rw [if_neg scientific]
    by_cases negative : exponent < 0
    · rw [if_pos negative, readDouble_small blank length ends]
      have scale : -((exponent.natAbs - 1 + 6 : Nat) : Int) = exponent - 5 := by omega
      rw [scale]
    · rw [if_neg negative, readDouble_fixed blank length (by omega) (by omega) ends]
      have scale : ((exponent.toNat + 1 : Nat) : Int) - 6 = exponent - 5 := by omega
      rw [scale]

end Lib
