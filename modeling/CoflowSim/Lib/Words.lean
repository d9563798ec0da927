import Mathlib.Data.List.TakeWhile
import CoflowSim.Lib.FormattedInput

namespace Lib

/-- A text of white space only. -/
def Blank (text : List UInt8) : Prop := ∀ b ∈ text, isSpace b = true

/-- A text without white space. -/
def Solid (text : List UInt8) : Prop := ∀ b ∈ text, isSpace b = false

instance (text : List UInt8) : Decidable (Blank text) := inferInstanceAs (Decidable (∀ b ∈ text, isSpace b = true))

instance (text : List UInt8) : Decidable (Solid text) := inferInstanceAs (Decidable (∀ b ∈ text, isSpace b = false))

/-- What `stream >> char *` finds in a text. -/
def firstWord (text : List UInt8) : List UInt8 := (text.dropWhile isSpace).takeWhile (!isSpace ·)

/-- What it leaves of the text. -/
def afterWord (text : List UInt8) : List UInt8 := (text.dropWhile isSpace).dropWhile (!isSpace ·)

section Words

variable {front text word tail : List UInt8}

theorem blank_nil : Blank [] := fun _ member => (List.not_mem_nil member).elim

theorem readToken_eq (text : List UInt8) : (IStream.mk text false).readToken.1 = firstWord text ∧
    (IStream.mk text false).readToken.2.rest = afterWord text := by
  unfold IStream.readToken firstWord afterWord
  cases text.dropWhile isSpace with
  | nil => exact ⟨rfl, rfl⟩
  | cons b rest => exact ⟨rfl, rfl⟩

theorem solid_firstWord (text : List UInt8) : Solid (firstWord text) := by
  intro b member
  simpa using List.mem_takeWhile_imp member

theorem afterWord_apart (text : List UInt8) : ∀ b, (afterWord text).head? = some b → isSpace b = true := by
  intro b first
  have stops := List.head?_dropWhile_not (!isSpace ·) (text.dropWhile isSpace)
  unfold afterWord at first
  rw [first] at stops
  simpa using stops

theorem exists_split (text : List UInt8) :
    ∃ blanks, Blank blanks ∧ text = blanks ++ (firstWord text ++ afterWord text) := by
  refine ⟨text.takeWhile isSpace, fun b member => List.mem_takeWhile_imp member, ?_⟩
  rw [firstWord, afterWord, List.takeWhile_append_dropWhile, List.takeWhile_append_dropWhile]

theorem firstWord_subset (text : List UInt8) : firstWord text ⊆ text :=
  fun _ member => (List.dropWhile_suffix _).subset ((List.takeWhile_prefix _).subset member)

theorem firstWord_length_le (text : List UInt8) : (firstWord text).length ≤ text.length :=
  (List.takeWhile_prefix _).length_le.trans (List.dropWhile_suffix _).length_le

theorem afterWord_within (text : List UInt8) : afterWord text <:+ text :=
  (List.dropWhile_suffix _).trans (List.dropWhile_suffix _)

theorem Blank.words (blank : Blank text) : firstWord text = [] ∧ afterWord text = [] := by
  rw [firstWord, afterWord, List.dropWhile_eq_nil_iff.mpr blank]
  exact ⟨rfl, rfl⟩

theorem firstWord_ne_nil (some_byte : ¬ Blank text) : firstWord text ≠ [] := by
  intro none
  have left : text.dropWhile isSpace ≠ [] := fun all => some_byte (List.dropWhile_eq_nil_iff.mp all)
  have stops := List.head_dropWhile_not isSpace left
  obtain ⟨b, rest, same⟩ := List.exists_cons_of_ne_nil left
  simp only [same, List.head_cons] at stops
  simp [firstWord, same, stops] at none

/-- White space in front changes no word. -/
theorem words_append_blank (blank : Blank front) (text : List UInt8) :
    firstWord (front ++ text) = firstWord text ∧ afterWord (front ++ text) = afterWord text := by
  unfold firstWord afterWord
  rw [List.dropWhile_append_of_pos blank]
  exact ⟨rfl, rfl⟩

theorem words_append (solid : Solid word) (nonempty : word ≠ [])
    (apart : ∀ b, tail.head? = some b → isSpace b = true) :
    firstWord (word ++ tail) = word ∧ afterWord (word ++ tail) = tail := by
  have read := readToken_word blank_nil nonempty solid apart
  obtain ⟨first, later⟩ := readToken_eq (word ++ tail)
  rw [List.nil_append] at read
  rw [read] at first later
  exact ⟨first.symm, later.symm⟩

theorem Solid.words (solid : Solid text) : firstWord text = text ∧ afterWord text = [] := by
  by_cases nonempty : text = []
  · subst nonempty
    exact ⟨rfl, rfl⟩
  · have whole := words_append solid nonempty (show ∀ b, [].head? = some b → isSpace b = true by simp)
    rwa [List.append_nil] at whole

/-- A text goes on behind its first word. -/
theorem words_append_later (later : afterWord front ≠ []) (text : List UInt8) :
    firstWord (front ++ text) = firstWord front ∧ afterWord (front ++ text) = afterWord front ++ text := by
  obtain ⟨blanks, blank, split⟩ := exists_split front
  have nonempty : firstWord front ≠ [] := firstWord_ne_nil fun all => later all.words.2
  have apart : ∀ b, (afterWord front ++ text).head? = some b → isSpace b = true := by
    rw [List.head?_append_of_ne_nil _ later]
    exact afterWord_apart front
  have whole : front ++ text = blanks ++ (firstWord front ++ (afterWord front ++ text)) := by
    conv_lhs => rw [split]
    simp
  rw [whole, (words_append_blank blank _).1, (words_append_blank blank _).2]
  exact words_append (solid_firstWord front) nonempty apart

/-- A text that is a single word takes in what follows it. -/
theorem words_append_last (some_byte : ¬ Blank front) (last : afterWord front = []) (text : List UInt8) :
    firstWord (front ++ text) = firstWord front ++ text.takeWhile (!isSpace ·) ∧
      afterWord (front ++ text) = text.dropWhile (!isSpace ·) := by
  obtain ⟨blanks, blank, split⟩ := exists_split front
  have nonempty := firstWord_ne_nil some_byte
  have word : ∀ b ∈ firstWord front, (!isSpace b) = true := fun b member => by simp [solid_firstWord front b member]
  have starts : (firstWord front ++ text).dropWhile isSpace = firstWord front ++ text := by
    obtain ⟨b, rest, same⟩ := List.exists_cons_of_ne_nil nonempty
    have solid : isSpace b = false := solid_firstWord front b (by simp [same])
    rw [same, List.cons_append, List.dropWhile_cons_of_neg (by simp [solid])]
  have whole : front ++ text = blanks ++ (firstWord front ++ text) := by
    conv_lhs => rw [split, last]
    simp
  rw [whole, (words_append_blank blank _).1, (words_append_blank blank _).2, ← List.takeWhile_append_of_pos word,
    ← List.dropWhile_append_of_pos word]
  exact ⟨congrArg (List.takeWhile _) starts, congrArg (List.dropWhile _) starts⟩

/-- What a text leaves behind its first word is left behind any other text. -/
theorem afterWord_suffix (front text : List UInt8) : afterWord text <:+ afterWord (front ++ text) := by
  by_cases blank : Blank front
  · rw [(words_append_blank blank text).2]
  by_cases last : afterWord front = []
  · rw [(words_append_last blank last text).2]
    cases text with
    | nil => exact List.suffix_refl _
    | cons b rest =>
      cases space : isSpace b with
      | true =>
        rw [List.dropWhile_cons_of_neg (by simp [space])]
        exact afterWord_within _
      | false =>
        rw [afterWord, List.dropWhile_cons_of_neg (by simp [space])]
  · rw [(words_append_later last text).2]
    exact (afterWord_within text).trans (List.suffix_append _ _)

/-- A word that is read in front of its own text is a word of what stands there,
and the text is left. -/
theorem word_in_front (some_byte : ¬ Blank front) (again : firstWord (front ++ text) = text) :
    text = firstWord front ∧ ¬ Blank (afterWord (front ++ text)) := by
  have solid : Solid text := again ▸ solid_firstWord _
  have nonempty := firstWord_ne_nil some_byte
  by_cases last : afterWord front = []
  · have all : text.takeWhile (!isSpace ·) = text :=
      List.takeWhile_eq_self_iff.mpr fun b member => by simp [solid b member]
    have longer := congrArg List.length again
    rw [(words_append_last some_byte last text).1, all, List.length_append] at longer
    exact absurd (List.length_eq_zero_iff.mp (by omega)) nonempty
  · obtain ⟨first, later⟩ := words_append_later last text
    have same : text = firstWord front := again.symm.trans first
    refine ⟨same, fun blank => ?_⟩
    rw [later] at blank
    obtain ⟨b, rest, word⟩ := List.exists_cons_of_ne_nil (same ▸ nonempty)
    have member : b ∈ text := by simp [word]
    exact absurd (blank b (List.mem_append_right _ member)) (by simp [solid b member])

end Words

section Numbers

variable {front text : List UInt8}

/-- The first byte of a text decides the sign of the number that is read. -/
theorem readInt_sign {b : UInt8} {rest : List UInt8} (starts : text.dropWhile isSpace = b :: rest) :
    ∃ z : CInt, (IStream.mk text false).readInt.1 = some z ∧ (b = minus → z.val ≤ 0) ∧ (b ≠ minus → 0 ≤ z.val) := by
  have clamped (z : Int) : (CInt.clamp z).val = max (-2147483648) (min 2147483647 z) := Set.coe_projIcc ..
  unfold IStream.readInt
  simp only [starts, List.isEmpty_cons, Bool.false_eq_true, if_false, List.head?_cons]
  generalize (if (some b == some minus || some b == some plus) = true then (b :: rest).tail else b :: rest) = body
  by_cases none : (body.takeWhile isDigit).isEmpty = true
  · rw [if_pos none]
    exact ⟨CInt.zero, rfl, fun _ => Int.le_refl 0, fun _ => Int.le_refl 0⟩
  · rw [if_neg none]
    refine ⟨_, rfl, fun negative => ?_, fun positive => ?_⟩
    · rw [clamped, if_pos (by simp [negative])]
      omega
    · rw [clamped, if_neg (by simp [positive])]
      omega

theorem readInt_blank (blank : Blank front) (z : CInt) :
    (IStream.mk (front ++ showInt z.val) false).readInt = (some z, ⟨[], false⟩) := by
  have read := readInt_showInt blank z (by simp [EndsNumber] : EndsNumber [])
  rwa [List.append_nil] at read

/-- Only behind white space is every number read back as it is. -/
theorem blank_of_reads (old : CInt)
    (reads : ∀ z : CInt, (IStream.mk (front ++ showInt z.val) false).readInt.1.getD old = z) : Blank front := by
  by_contra some_byte
  have left : front.dropWhile isSpace ≠ [] := fun all => some_byte (List.dropWhile_eq_nil_iff.mp all)
  obtain ⟨b, rest, same⟩ := List.exists_cons_of_ne_nil left
  have starts (z : Int) : (front ++ showInt z).dropWhile isSpace = b :: (rest ++ showInt z) := by
    rw [List.dropWhile_append, same]
    rfl
  let one : CInt := ⟨1, by decide, by decide⟩
  let minusOne : CInt := ⟨-1, by decide, by decide⟩
  by_cases negative : b = minus
  · obtain ⟨z, read, sign, -⟩ := readInt_sign (starts one.val)
    have same := reads one
    rw [read, Option.getD_some] at same
    exact absurd (same ▸ sign negative) (by decide)
  · obtain ⟨z, read, -, sign⟩ := readInt_sign (starts minusOne.val)
    have same := reads minusOne
    rw [read, Option.getD_some] at same
    exact absurd (same ▸ sign negative) (by decide)

end Numbers

end Lib
