import CoflowSim.Lib.TextInput

namespace Lib

/-- The exponent of the last of the 53 binary digits of a double at `q`. -/
def lastExponent (q : Rat) : Int := max (Int.log 2 |q| - 52) (-1074)

/-- The double nearest to `q`, halves going to the even one. The exponents have
no bound above. -/
def nearestDouble (q : Rat) : Rat := roundHalfEven (q * (2 : Rat) ^ (-lastExponent q)) * (2 : Rat) ^ lastExponent q

def maxDouble : Rat := (2 ^ 53 - 1) * 2 ^ 971

/-- `stream >> double` with the double that it leaves in its variable. A number
beyond the doubles is set to the last of them, and fails the stream. -/
def IStream.readNearest (s : IStream) : Option Rat × IStream :=
  match s.readDouble with
  | (none, s) => (none, s)
  | (some q, s) =>
    if maxDouble < |nearestDouble q| then (some (if q < 0 then -maxDouble else maxDouble), { s with fail := true })
    else (some (nearestDouble q), s)

/-- The double for `10.00395` is below it, and loses the tie that its digits have. -/
example : showDouble (10.00395 : Rat) = [49, 48, 46, 48, 48, 52] ∧
    showDouble (nearestDouble 10.00395) = [49, 48, 46, 48, 48, 51, 57] := by decide +kernel

theorem nearestDouble_zero : nearestDouble 0 = 0 := by decide +kernel

/-- A power of two is a whole number of the last digits below it. -/
theorem zpow_scaled {e last : Int} (within : last ≤ e) :
    ((2 ^ (e - last).toNat : Int) : Rat) = (2 : Rat) ^ e * (2 : Rat) ^ (-last) := by
  have power : ((e - last).toNat : Int) = e + -last := by omega
  push_cast
  rw [← zpow_natCast, power, zpow_add₀ (by norm_num)]

theorem unscaled (q : Rat) (last : Int) : q * (2 : Rat) ^ (-last) * (2 : Rat) ^ last = q := by
  rw [mul_assoc, ← zpow_add₀ (by norm_num), neg_add_cancel, zpow_zero, mul_one]

/-- Rounding does not pass a power of two from below. -/
theorem nearestDouble_le {q : Rat} {e : Int} (positive : 0 < q) (normal : -1074 ≤ e) (below : q < (2 : Rat) ^ e) :
    0 ≤ nearestDouble q ∧ nearestDouble q ≤ (2 : Rat) ^ e := by
  have magnitude : Int.log 2 q < e := (Int.lt_zpow_iff_log_lt (by decide) positive).mp (by exact_mod_cast below)
  have last : lastExponent q ≤ e := by
    rw [lastExponent, abs_of_pos positive]
    omega
  have ulp : (0 : Rat) < (2 : Rat) ^ lastExponent q := zpow_pos (by norm_num) _
  have scale : (0 : Rat) < (2 : Rat) ^ (-lastExponent q) := zpow_pos (by norm_num) _
  have inside : q * (2 : Rat) ^ (-lastExponent q) < ((2 ^ (e - lastExponent q).toNat : Int) : Rat) := by
    rw [zpow_scaled last]
    exact mul_lt_mul_of_pos_right below scale
  obtain ⟨low, high⟩ := roundHalfEven_bounds (by exact_mod_cast (mul_pos positive scale).le) inside
  refine ⟨mul_nonneg (by exact_mod_cast low) ulp.le, ?_⟩
  calc nearestDouble q
      ≤ ((2 ^ (e - lastExponent q).toNat : Int) : Rat) * (2 : Rat) ^ lastExponent q :=
        mul_le_mul_of_nonneg_right (by exact_mod_cast high) ulp.le
    _ = (2 : Rat) ^ e := by rw [zpow_scaled last, unscaled]

/-- Nor does it from above. -/
theorem le_nearestDouble {q : Rat} {e : Int} (normal : -1074 ≤ e) (above : (2 : Rat) ^ e ≤ q) :
    (2 : Rat) ^ e ≤ nearestDouble q := by
  have positive : 0 < q := lt_of_lt_of_le (zpow_pos (by norm_num) _) above
  have magnitude : e ≤ Int.log 2 q := (Int.zpow_le_iff_le_log (by decide) positive).mp (by exact_mod_cast above)
  have binade : (2 : Rat) ^ Int.log 2 q ≤ q := by exact_mod_cast Int.zpow_log_le_self (b := 2) (by decide) positive
  have last : lastExponent q ≤ Int.log 2 q := by
    rw [lastExponent, abs_of_pos positive]
    omega
  have ulp : (0 : Rat) < (2 : Rat) ^ lastExponent q := zpow_pos (by norm_num) _
  have scale : (0 : Rat) < (2 : Rat) ^ (-lastExponent q) := zpow_pos (by norm_num) _
  have inside : ((2 ^ (Int.log 2 q - lastExponent q).toNat : Int) : Rat) ≤ q * (2 : Rat) ^ (-lastExponent q) := by
    rw [zpow_scaled last]
    exact mul_le_mul_of_nonneg_right binade scale.le
  obtain ⟨low, -⟩ := roundHalfEven_bounds inside (Rat.floor_lt_iff.mp (Int.lt_succ _))
  calc (2 : Rat) ^ e ≤ (2 : Rat) ^ Int.log 2 q := zpow_le_zpow_right₀ (by norm_num) magnitude
    _ = ((2 ^ (Int.log 2 q - lastExponent q).toNat : Int) : Rat) * (2 : Rat) ^ lastExponent q := by
        rw [zpow_scaled last, unscaled]
    _ ≤ nearestDouble q := mul_le_mul_of_nonneg_right (by exact_mod_cast low) ulp.le

/-- Between two powers of two, a number stays there. -/
theorem nearestDouble_between {q : Rat} {e f : Int} (normal : -1074 ≤ e) (above : (2 : Rat) ^ e ≤ q)
    (below : q < (2 : Rat) ^ f) : (2 : Rat) ^ e ≤ nearestDouble q ∧ nearestDouble q ≤ (2 : Rat) ^ f := by
  have positive : 0 < q := lt_of_lt_of_le (zpow_pos (by norm_num) _) above
  have order : e < f := (zpow_lt_zpow_iff_right₀ (by norm_num)).mp (above.trans_lt below)
  exact ⟨le_nearestDouble normal above, (nearestDouble_le positive (by omega) below).2⟩

/-- What a program keeps of the numbers it computes with: of one in a text, and
of the result of an operation. -/
structure Precision where
  read : IStream → Option Rat × IStream
  keep : Rat → Rat

namespace Precision

/-- The numbers themselves. -/
def exact : Precision := ⟨IStream.readDouble, id⟩

def double : Precision := ⟨IStream.readNearest, nearestDouble⟩

/-- Wherever it stands, the text is read as what is kept of the number. -/
def Reads (precision : Precision) (text : List UInt8) (q : Rat) : Prop :=
  ∀ spaces tail, (∀ b ∈ spaces, isSpace b = true) → EndsDouble tail →
    precision.read ⟨spaces ++ (text ++ tail), false⟩ = (some (precision.keep q), ⟨tail, false⟩)

theorem reads_decimal (d : Decimal) : exact.Reads d.text d.value :=
  fun _ _ blank ends => d.read blank ends

theorem reads_showDouble {q : Rat} (positive : 0 < q) : exact.Reads (showDouble q) (sixDigits q) :=
  fun _ _ blank ends => readDouble_showDouble blank positive ends

variable {precision : Precision} {text : List UInt8} {q : Rat}

theorem Reads.double (reads : exact.Reads text q) (nonneg : 0 ≤ q) (small : q < 2 ^ 1023) :
    double.Reads text q := by
  intro spaces tail blank ends
  have within : |nearestDouble q| ≤ maxDouble := by
    rcases nonneg.eq_or_lt with rfl | positive
    · rw [nearestDouble_zero]
      decide +kernel
    · obtain ⟨low, high⟩ := nearestDouble_le positive (e := 1023) (by decide) (by exact_mod_cast small)
      rw [abs_of_nonneg low]
      exact high.trans (by decide +kernel)
  have read : (IStream.mk (spaces ++ (text ++ tail)) false).readDouble = (some q, ⟨tail, false⟩) :=
    reads spaces tail blank ends
  change (IStream.mk (spaces ++ (text ++ tail)) false).readNearest = (some (nearestDouble q), ⟨tail, false⟩)
  rw [IStream.readNearest, read]
  dsimp only
  rw [if_neg (not_lt.mpr within)]

/-- The first word of a text. -/
theorem Reads.word (reads : precision.Reads text q) {words : List (List UInt8)} {line : List UInt8}
    (separated : Separated (text :: words) line) :
    ∃ rest, precision.read ⟨line, false⟩ = (some (precision.keep q), ⟨rest, false⟩) ∧ Separated words rest := by
  cases separated with
  | @word _ _ _ rest blank later apart => exact ⟨rest, reads _ _ blank (EndsDouble.of_space apart), later⟩

/-- A text with nothing around it. -/
theorem Reads.alone (reads : precision.Reads text q) :
    precision.read ⟨text, false⟩ = (some (precision.keep q), ⟨[], false⟩) := by
  have read := reads [] [] (by simp) EndsDouble.nil
  rwa [List.nil_append, List.append_nil] at read

end Precision

end Lib
