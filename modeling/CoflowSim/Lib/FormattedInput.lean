import Mathlib.Order.Interval.Set.ProjIcc
import Mathlib.Order.Lattice.Nat
import Mathlib.Data.Int.Order.Basic
import Mathlib.Data.Int.ConditionallyCompleteOrder
import Mathlib.Tactic.Common

namespace Lib

/-- The values of a 32-bit `int`. -/
abbrev CInt : Type := Set.Icc (-2147483648 : Int) 2147483647

namespace CInt

def zero : CInt := ⟨0, by decide, by decide⟩

/-- What an `int` is set to when the number read does not fit. -/
def clamp (z : Int) : CInt := Set.projIcc (-2147483648) 2147483647 (by decide) z

theorem clamp_val (z : CInt) : clamp z.val = z := Set.projIcc_val _ z

theorem val_clamp {z : Int} (low : -2147483648 ≤ z) (high : z ≤ 2147483647) : (clamp z).val = z := by
  simp only [clamp, Set.projIcc_of_mem (by decide : (-2147483648 : Int) ≤ 2147483647) ⟨low, high⟩]

theorem clamp_lt {a b : Nat} (below : a < b) (fits : b ≤ 2147483647) : clamp a < clamp b := by
  have low := val_clamp (z := a) (by omega) (by omega)
  have high := val_clamp (z := b) (by omega) (by omega)
  have strict : (clamp a).val < (clamp b).val := by omega
  exact strict

end CInt

def isSpace (b : UInt8) : Bool := b == 32 || (9 ≤ b && b ≤ 13)
def isDigit (b : UInt8) : Bool := 48 ≤ b && b ≤ 57
def minus : UInt8 := 45
def plus : UInt8 := 43

/-- Decimal digits of a natural number, as `%d` prints them. -/
def showNat (n : Nat) : List UInt8 := (Nat.toDigits 10 n).map Char.toUInt8

def showInt : Int → List UInt8
  | .ofNat n => showNat n
  | .negSucc n => minus :: showNat (n + 1)

def digitsValue (digits : List UInt8) : Nat := digits.foldl (fun value d => 10 * value + (d.toNat - 48)) 0

/-- A formatted input stream: what is still to be read, and its `failbit`. -/
structure IStream where
  rest : List UInt8
  fail : Bool
deriving DecidableEq

/-- `stream >> int`. The first component is what the variable is set to, if it
is set at all: a failed or exhausted stream leaves it alone, a text without
digits sets it to 0, and a number out of range to the nearest `int`. -/
def IStream.readInt (s : IStream) : Option CInt × IStream :=
  let text := s.rest.dropWhile isSpace
  if s.fail then (none, s)
  else if text.isEmpty then (none, ⟨[], true⟩)
  else
    let negative := text.head? == some minus
    let body := if negative || text.head? == some plus then text.tail else text
    let digits := body.takeWhile isDigit
    let rest := body.dropWhile isDigit
    if digits.isEmpty then (some CInt.zero, ⟨rest, true⟩)
    else
      let value : Int := if negative then -digitsValue digits else digitsValue digits
      (some (CInt.clamp value), ⟨rest, (CInt.clamp value).val != value⟩)

/-- `stream >> char *`: the bytes up to the next white space. A stream with
nothing left to read fails and gives none. -/
def IStream.readToken (s : IStream) : List UInt8 × IStream :=
  let text := s.rest.dropWhile isSpace
  if s.fail then ([], s)
  else if text.isEmpty then ([], ⟨[], true⟩)
  else (text.takeWhile (!isSpace ·), ⟨text.dropWhile (!isSpace ·), false⟩)

theorem toUInt8_of_isDigit {c : Char} (digit : c.isDigit = true) :
    isDigit c.toUInt8 = true ∧ c.toUInt8.toNat = c.toNat := by
  simp only [Char.isDigit, Bool.and_eq_true, decide_eq_true_eq, ge_iff_le, UInt32.le_iff_toNat_le] at digit
  have low : 48 ≤ c.toNat := digit.1
  have high : c.toNat ≤ 57 := digit.2
  have same : c.toUInt8.toNat = c.toNat := by
    simp only [Char.toUInt8, UInt32.toNat_toUInt8]
    exact Nat.mod_eq_of_lt (show c.toNat < 256 by omega)
  refine ⟨?_, same⟩
  simp only [isDigit, Bool.and_eq_true, decide_eq_true_eq, UInt8.le_iff_toNat_le, same]
  exact ⟨low, high⟩

theorem showNat_digits (n : Nat) : ∀ b ∈ showNat n, isDigit b = true := by
  intro b member
  obtain ⟨c, inside, rfl⟩ := List.mem_map.mp member
  exact (toUInt8_of_isDigit (Nat.isDigit_of_mem_toDigits (by decide) (by decide) inside)).1

theorem showNat_ne_nil (n : Nat) : showNat n ≠ [] := by
  simp [showNat]

theorem showNat_length_le_iff {n k : Nat} (positive : 0 < k) : (showNat n).length ≤ k ↔ n < 10 ^ k := by
  rw [showNat, List.length_map]
  exact Nat.length_toDigits_le_iff (by decide) positive

theorem digitsValue_showNat (n : Nat) : digitsValue (showNat n) = n := by
  have digits : ∀ c ∈ Nat.toDigits 10 n, c.isDigit = true := fun c member =>
    Nat.isDigit_of_mem_toDigits (by decide) (by decide) member
  have fold (cs : List Char) (valid : ∀ c ∈ cs, c.isDigit = true) (value : Nat) :
      (cs.map Char.toUInt8).foldl (fun value d => 10 * value + (d.toNat - 48)) value =
        Nat.ofDigitChars 10 cs value := by
    induction cs generalizing value with
    | nil => rfl
    | cons c cs ih =>
      rw [List.map_cons, List.foldl_cons, Nat.ofDigitChars_cons, (toUInt8_of_isDigit (valid c (by simp))).2]
      exact ih (fun d member => valid d (by simp [member])) _
  rw [digitsValue, showNat, fold _ digits, Nat.ofDigitChars_ten_toDigits]

theorem showInt_bytes {z : Int} : ∀ b ∈ showInt z, isDigit b = true ∨ b = minus := by
  intro b member
  cases z with
  | ofNat n => exact Or.inl (showNat_digits n b member)
  | negSucc n =>
    rcases List.mem_cons.mp member with same | inside
    · exact Or.inr same
    · exact Or.inl (showNat_digits _ b inside)

theorem showInt_ne_nil (z : Int) : showInt z ≠ [] := by
  cases z with
  | ofNat n => exact showNat_ne_nil n
  | negSucc n => exact List.cons_ne_nil _ _

theorem isDigit_not_space {b : UInt8} (digit : isDigit b = true) : isSpace b = false := by
  simp only [isDigit, isSpace, Bool.and_eq_true, decide_eq_true_eq, Bool.or_eq_false_iff, beq_eq_false_iff_ne,
    Bool.and_eq_false_iff, decide_eq_false_iff_not, UInt8.le_iff_toNat_le, ne_eq, ← UInt8.toNat_inj] at *
  have low : 48 ≤ b.toNat := digit.1
  exact ⟨show b.toNat ≠ 32 by omega, Or.inr (show ¬ b.toNat ≤ 13 by omega)⟩

theorem isDigit_not_sign {b : UInt8} (digit : isDigit b = true) : b ≠ minus ∧ b ≠ plus := by
  simp only [isDigit, Bool.and_eq_true, decide_eq_true_eq, UInt8.le_iff_toNat_le, ne_eq, ← UInt8.toNat_inj] at *
  have low : 48 ≤ b.toNat := digit.1
  exact ⟨show b.toNat ≠ 45 by omega, show b.toNat ≠ 43 by omega⟩

/-- The tail of a number does not go on with digits. -/
def EndsNumber (tail : List UInt8) : Prop := ∀ b, tail.head? = some b → isDigit b = false

theorem split_digits {digits tail : List UInt8} (valid : ∀ b ∈ digits, isDigit b = true)
    (ends : EndsNumber tail) :
    (digits ++ tail).takeWhile isDigit = digits ∧ (digits ++ tail).dropWhile isDigit = tail := by
  induction digits with
  | nil =>
    cases tail with
    | nil => exact ⟨rfl, rfl⟩
    | cons b rest => simp [ends b rfl]
  | cons d digits ih =>
    obtain ⟨taken, dropped⟩ := ih fun b member => valid b (by simp [member])
    simp [valid d (by simp), taken, dropped]

/-- Reading a word back, behind any white space. -/
theorem readToken_word {spaces word tail : List UInt8} (blank : ∀ b ∈ spaces, isSpace b = true) (nonempty : word ≠ [])
    (solid : ∀ b ∈ word, isSpace b = false) (ends : ∀ b, tail.head? = some b → isSpace b = true) :
    (IStream.mk (spaces ++ (word ++ tail)) false).readToken = (word, ⟨tail, false⟩) := by
  obtain ⟨b, rest, rfl⟩ := List.exists_cons_of_ne_nil nonempty
  have text : (spaces ++ (b :: rest ++ tail)).dropWhile isSpace = b :: rest ++ tail := by
    rw [List.dropWhile_append_of_pos blank, List.cons_append, List.dropWhile_cons_of_neg (by simp [solid b])]
  have all : ∀ c ∈ b :: rest, (!isSpace c) = true := fun c member => by simp [solid c member]
  have stops : tail.takeWhile (!isSpace ·) = [] ∧ tail.dropWhile (!isSpace ·) = tail := by
    cases tail with
    | nil => exact ⟨rfl, rfl⟩
    | cons c tail => simp [ends c rfl]
  have split : (b :: rest ++ tail).takeWhile (!isSpace ·) = b :: rest ∧
      (b :: rest ++ tail).dropWhile (!isSpace ·) = tail := by
    rw [List.takeWhile_append_of_pos all, List.dropWhile_append_of_pos all, stops.1, stops.2, List.append_nil]
    exact ⟨rfl, rfl⟩
  have some_text : (b :: rest ++ tail).isEmpty = false := rfl
  simp only [IStream.readToken, text, some_text, split.1, split.2, Bool.false_eq_true, if_false]

/-- Reading a printed number, behind any white space: the nearest `int`, and a
failure if that is another number. -/
theorem readInt_showInt_clamp {spaces tail : List UInt8} (blank : ∀ b ∈ spaces, isSpace b = true) (z : Int)
    (ends : EndsNumber tail) :
    (IStream.mk (spaces ++ showInt z ++ tail) false).readInt =
      (some (CInt.clamp z), ⟨tail, (CInt.clamp z).val != z⟩) := by
  have skip (text : List UInt8) (starts : ∀ b, text.head? = some b → isSpace b = false) :
      (spaces ++ text).dropWhile isSpace = text := by
    rw [List.dropWhile_append_of_pos blank]
    cases text with
    | nil => rfl
    | cons b rest => simp [starts b rfl]
  cases z with
  | ofNat n =>
    obtain ⟨d, digits, printed⟩ := List.exists_cons_of_ne_nil (showNat_ne_nil n)
    have valid := showNat_digits n
    have first : isDigit d = true := valid d (by simp [printed])
    obtain ⟨taken, dropped⟩ := split_digits valid ends
    have number := digitsValue_showNat n
    have text := skip (showNat n ++ tail) (by simp [printed, isDigit_not_space first])
    rw [printed] at taken dropped number text
    simp only [showInt, IStream.readInt, List.append_assoc, printed, text]
    simp only [List.cons_append] at taken dropped
    simp only [List.cons_append, List.isEmpty_cons, List.head?_cons, Bool.false_eq_true, if_false,
      beq_eq_false_iff_ne.mpr (show some d ≠ some minus by simpa using (isDigit_not_sign first).1),
      beq_eq_false_iff_ne.mpr (show some d ≠ some plus by simpa using (isDigit_not_sign first).2),
      Bool.or_self, taken, dropped, number]
    rfl
  | negSucc n =>
    obtain ⟨taken, dropped⟩ := split_digits (showNat_digits (n + 1)) ends
    have number := digitsValue_showNat (n + 1)
    have nonempty : (showNat (n + 1)).isEmpty = false := by simp [showNat_ne_nil]
    have text := skip (minus :: (showNat (n + 1) ++ tail)) (by simp [show isSpace minus = false by decide])
    simp only [showInt, IStream.readInt, List.append_assoc, List.cons_append, text, List.isEmpty_cons,
      List.head?_cons, Bool.false_eq_true, if_false, beq_self_eq_true, Bool.true_or, if_true, List.tail_cons,
      taken, dropped, number, nonempty]
    rfl

/-- Reading a printed `int` back, behind any white space. -/
theorem readInt_showInt {spaces tail : List UInt8} (blank : ∀ b ∈ spaces, isSpace b = true) (z : CInt)
    (ends : EndsNumber tail) :
    (IStream.mk (spaces ++ showInt z.val ++ tail) false).readInt = (some z, ⟨tail, false⟩) := by
  rw [readInt_showInt_clamp blank z.val ends, CInt.clamp_val, bne_self_eq_false]

end Lib
