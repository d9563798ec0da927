import CoflowSim.Lib.DoubleText

namespace Lib

def newline : UInt8 := 10

/-- A file stream between two extractions, with its `eofbit`. -/
structure FileStream where
  rest : List UInt8
  eof : Bool
  fail : Bool
deriving DecidableEq

/-- `stream.getline(buffer, limit, '\n')`: the string in the buffer. A line
that does not fit is cut and fails the stream. -/
def FileStream.getline (limit : Nat) (f : FileStream) : List UInt8 × FileStream :=
  let line := f.rest.takeWhile (· != newline)
  if f.eof || f.fail then ([], { f with fail := true })
  else if limit ≤ line.length then (line.take (limit - 1), ⟨f.rest.drop (limit - 1), false, true⟩)
  else
    match f.rest.dropWhile (· != newline) with
    | [] => (line, ⟨[], true, line.isEmpty⟩)
    | _ :: rest => (line, ⟨rest, false, false⟩)

/-- `strtok` with one delimiter: the token, and where the next call goes on. -/
def strtok (delimiter : UInt8) (text : List UInt8) : Option (List UInt8 × List UInt8) :=
  let text := text.dropWhile (· == delimiter)
  if text.isEmpty then none
  else some (text.takeWhile (· != delimiter), (text.dropWhile (· != delimiter)).tail)

/-- Words with white space between them, and perhaps before and behind. -/
inductive Separated : List (List UInt8) → List UInt8 → Prop
  | done {blanks} (blank : ∀ b ∈ blanks, isSpace b = true) : Separated [] blanks
  | word {blanks word words text} (blank : ∀ b ∈ blanks, isSpace b = true) (rest : Separated words text)
      (apart : ∀ b, text.head? = some b → isSpace b = true) : Separated (word :: words) (blanks ++ (word ++ text))

/-- The text with one blank before each word. -/
def spaced (words : List (List UInt8)) : List UInt8 := words.flatMap (32 :: ·)

theorem separated_spaced (words : List (List UInt8)) : Separated words (spaced words) := by
  induction words with
  | nil => exact .done (fun _ member => (List.not_mem_nil member).elim)
  | cons word words ih =>
    have blank : ∀ b ∈ [(32 : UInt8)], isSpace b = true := List.forall_mem_singleton.mpr rfl
    have apart : ∀ b, (spaced words).head? = some b → isSpace b = true := by
      intro b first
      cases words with
      | nil => cases first
      | cons =>
        cases first
        rfl
    exact .word blank ih apart

theorem newline_not_mem_spaced {words : List (List UInt8)}
    (solid : ∀ word ∈ words, ∀ b ∈ word, isSpace b = false) : newline ∉ spaced words := by
  intro member
  obtain ⟨word, inside, within⟩ := List.mem_flatMap.mp member
  rcases List.mem_cons.mp within with same | within
  · exact absurd same (by decide)
  · exact absurd (solid word inside newline within) (by decide)

theorem EndsNumber.of_space {text : List UInt8} (apart : ∀ b, text.head? = some b → isSpace b = true) :
    EndsNumber text := by
  intro b first
  cases digit : isDigit b with
  | false => rfl
  | true => exact absurd (apart b first) (by simp [isDigit_not_space digit])

theorem EndsDouble.of_space {text : List UInt8} (apart : ∀ b, text.head? = some b → isSpace b = true) :
    EndsDouble text := by
  intro b first
  refine ⟨EndsNumber.of_space apart b first, ?_, ?_, ?_⟩ <;>
    · rintro rfl
      exact absurd (apart _ first) (by decide)

namespace Separated

variable {words : List (List UInt8)} {text : List UInt8}

/-- Reading the first word, whatever stands behind the text. -/
theorem readInt_append {z : CInt} (separated : Separated (showInt z.val :: words) text) {tail : List UInt8}
    (apart : ∀ b, tail.head? = some b → isSpace b = true) :
    ∃ rest, (IStream.mk (text ++ tail) false).readInt = (some z, ⟨rest ++ tail, false⟩) ∧ rest <:+ text ∧
      Separated words rest := by
  cases separated with
  | @word _ _ _ rest blank later within =>
    have apart' : ∀ b, (rest ++ tail).head? = some b → isSpace b = true := by
      intro b first
      cases rest with
      | nil => exact apart b first
      | cons c rest => exact within b first
    have read := readInt_showInt blank z (EndsNumber.of_space apart')
    refine ⟨rest, ?_, ?_, later⟩
    · simpa only [List.append_assoc] using read
    · exact (List.suffix_append _ _).trans (List.suffix_append _ _)

theorem readInt {z : CInt} (separated : Separated (showInt z.val :: words) text) :
    ∃ rest, (IStream.mk text false).readInt = (some z, ⟨rest, false⟩) ∧ Separated words rest := by
  have apart : ∀ b, ([] : List UInt8).head? = some b → isSpace b = true := by simp
  obtain ⟨rest, read, -, later⟩ := separated.readInt_append apart
  rw [List.append_nil, List.append_nil] at read
  exact ⟨rest, read, later⟩

/-- No byte is in the text that is neither in a word nor white space. -/
theorem not_mem {b : UInt8} (separated : Separated words text) (clean : ∀ word ∈ words, b ∉ word)
    (solid : isSpace b = false) : b ∉ text := by
  induction separated with
  | done blank =>
    intro member
    rw [blank b member] at solid
    cases solid
  | @word blanks word words text blank later apart ih =>
    intro member
    rcases List.mem_append.mp member with inBlanks | member
    · rw [blank b inBlanks] at solid
      cases solid
    · rcases List.mem_append.mp member with inWord | inRest
      · exact clean word (by simp) inWord
      · exact ih (fun other inside => clean other (by simp [inside])) inRest

theorem readToken {word : List UInt8} (separated : Separated (word :: words) text) (nonempty : word ≠ [])
    (solid : ∀ b ∈ word, isSpace b = false) :
    ∃ rest, (IStream.mk text false).readToken = (word, ⟨rest, false⟩) ∧ Separated words rest := by
  cases separated with
  | @word _ _ _ rest blank later apart => exact ⟨rest, readToken_word blank nonempty solid apart, later⟩

/-- A text has at least as many bytes as words. -/
theorem words_le (separated : Separated words text) (nonempty : ∀ word ∈ words, word ≠ []) :
    words.length ≤ text.length := by
  induction separated with
  | done => exact Nat.zero_le _
  | @word blanks word words text blank later apart ih =>
    have rest := ih fun other member => nonempty other (by simp [member])
    have first : 0 < word.length := List.length_pos_iff.mpr (nonempty word (by simp))
    simp only [List.length_cons, List.length_append]
    omega

end Separated

/-- A line ends where the file or a new line does. -/
theorem split_line {line rest : List UInt8} (whole : newline ∉ line) (ended : ∀ b, rest.head? = some b → b = newline) :
    (line ++ rest).takeWhile (· != newline) = line ∧ (line ++ rest).dropWhile (· != newline) = rest := by
  have inside : ∀ b ∈ line, (b != newline) = true := by
    intro b member
    simp only [bne_iff_ne, ne_eq]
    rintro rfl
    exact whole member
  have stops : rest.takeWhile (· != newline) = [] ∧ rest.dropWhile (· != newline) = rest := by
    cases rest with
    | nil => exact ⟨rfl, rfl⟩
    | cons b rest => simp [ended b rfl]
  rw [List.takeWhile_append_of_pos inside, List.dropWhile_append_of_pos inside, stops.1, List.append_nil]
  exact ⟨rfl, stops.2⟩

/-- A line that fits, with the end of the file or a new line behind it. -/
theorem getline_line {limit : Nat} {line rest : List UInt8} (whole : newline ∉ line) (fits : line.length < limit)
    (ended : ∀ b, rest.head? = some b → b = newline) :
    FileStream.getline limit ⟨line ++ rest, false, false⟩ =
      (line, ⟨rest.tail, rest.isEmpty, rest.isEmpty && line.isEmpty⟩) := by
  obtain ⟨taken, dropped⟩ := split_line whole ended
  simp only [FileStream.getline, taken, dropped, Bool.or_self, Bool.false_eq_true, if_false, Nat.not_le.mpr fits]
  cases rest with
  | nil => simp
  | cons b rest => simp

/-- A line that does not fit is cut, and nothing more can be read. -/
theorem getline_long {limit : Nat} {line rest : List UInt8} (whole : newline ∉ line) (long : limit ≤ line.length)
    (ended : ∀ b, rest.head? = some b → b = newline) :
    FileStream.getline limit ⟨line ++ rest, false, false⟩ =
      (line.take (limit - 1), ⟨(line ++ rest).drop (limit - 1), false, true⟩) := by
  obtain ⟨taken, -⟩ := split_line whole ended
  simp only [FileStream.getline, taken, Bool.or_self, Bool.false_eq_true, if_false, long, if_true]

/-- A non-negative number in decimal notation. -/
structure Decimal where
  whole : List UInt8
  fraction : List UInt8
  nonempty : whole ≠ []
  digits : ∀ b ∈ whole ++ fraction, isDigit b = true

namespace Decimal

/-- A whole number. -/
def ofNat (n : Nat) : Decimal := ⟨showNat n, [], showNat_ne_nil n, by simpa using showNat_digits n⟩

def text (d : Decimal) : List UInt8 := d.whole ++ pointed d.fraction

def value (d : Decimal) : Rat := decimalValue d.whole d.fraction 0

theorem text_ne_nil (d : Decimal) : d.text ≠ [] := List.append_ne_nil_of_left_ne_nil d.nonempty _

theorem text_bytes (d : Decimal) : ∀ b ∈ d.text, isDigit b = true ∨ b = point := by
  intro b member
  rcases List.mem_append.mp member with inWhole | inFraction
  · exact Or.inl (d.digits b (List.mem_append_left _ inWhole))
  · unfold pointed at inFraction
    split at inFraction
    · exact (List.not_mem_nil inFraction).elim
    · rcases List.mem_cons.mp inFraction with rfl | inside
      · exact Or.inr rfl
      · exact Or.inl (d.digits b (List.mem_append_right _ inside))

theorem value_nonneg (d : Decimal) : 0 ≤ d.value :=
  mul_nonneg (Nat.cast_nonneg _) (zpow_pos (by norm_num) _).le

theorem value_lt (d : Decimal) : d.value < (10 : Rat) ^ d.whole.length := by
  have digits : (digitsValue (d.whole ++ d.fraction) : Rat) < 10 ^ (d.whole ++ d.fraction).length := by
    exact_mod_cast digitsValue_lt d.digits
  have scale : (0 : Rat) < (10 : Rat) ^ (0 - d.fraction.length : Int) := zpow_pos (by norm_num) _
  refine (mul_lt_mul_of_pos_right digits scale).trans_eq ?_
  rw [← zpow_natCast, ← zpow_natCast, ← zpow_add₀ (by norm_num), List.length_append]
  congr 1
  push_cast
  ring

/-- A number with a digit other than 0 is not small. -/
theorem le_value (d : Decimal) (positive : 0 < d.value) : (10 : Rat) ^ (-d.fraction.length : Int) ≤ d.value := by
  have scale : (0 : Rat) < (10 : Rat) ^ (0 - d.fraction.length : Int) := zpow_pos (by norm_num) _
  have some_digit : (1 : Rat) ≤ digitsValue (d.whole ++ d.fraction) := by
    exact_mod_cast Nat.one_le_iff_ne_zero.mpr fun zero => by simp [value, decimalValue, zero] at positive
  rw [← zero_sub]
  exact le_mul_of_one_le_left scale.le some_digit

theorem read (d : Decimal) {spaces tail : List UInt8} (blank : ∀ b ∈ spaces, isSpace b = true)
    (ends : EndsDouble tail) :
    (IStream.mk (spaces ++ (d.text ++ tail)) false).readDouble = (some d.value, ⟨tail, false⟩) := by
  have wholeDigits : ∀ b ∈ d.whole, isDigit b = true := fun b member => d.digits b (List.mem_append_left _ member)
  have fractionDigits : ∀ b ∈ d.fraction, isDigit b = true :=
    fun b member => d.digits b (List.mem_append_right _ member)
  have noPoint : tail.head? ≠ some point := fun first => (ends point first).2.1 rfl
  have read := readDouble_pointed blank d.nonempty wholeDigits fractionDigits ends.endsNumber noPoint
    (readExponent_none ends)
  rw [text, List.append_assoc]
  exact read

end Decimal

/-- The two tokens of a pair, none of which holds the delimiter. -/
theorem strtok_pair {delimiter : UInt8} {first second : List UInt8} (nonempty : first ≠ []) (nonempty' : second ≠ [])
    (clean : ∀ b ∈ first ++ second, b ≠ delimiter) :
    ∃ rest, strtok delimiter (first ++ delimiter :: second) = some (first, rest) ∧
      strtok delimiter rest = some (second, []) := by
  have token {text : List UInt8} (nonempty : text ≠ []) (clean : ∀ b ∈ text, b ≠ delimiter) (tail : List UInt8) :
      (text ++ tail).dropWhile (· == delimiter) = text ++ tail := by
    obtain ⟨b, rest, rfl⟩ := List.exists_cons_of_ne_nil nonempty
    rw [List.cons_append, List.dropWhile_cons_of_neg (by simpa using clean b (by simp))]
  have inFirst : ∀ b ∈ first, b ≠ delimiter := fun b member => clean b (List.mem_append_left _ member)
  have inSecond : ∀ b ∈ second, b ≠ delimiter := fun b member => clean b (List.mem_append_right _ member)
  have taken : ∀ b ∈ first, (b != delimiter) = true := fun b member => by simpa using inFirst b member
  have taken' : ∀ b ∈ second, (b != delimiter) = true := fun b member => by simpa using inSecond b member
  refine ⟨second, ?_, ?_⟩
  · rw [strtok, token nonempty inFirst, List.takeWhile_append_of_pos taken, List.dropWhile_append_of_pos taken]
    simp [nonempty]
  · have whole := token nonempty' inSecond []
    rw [List.append_nil] at whole
    rw [strtok, whole, List.takeWhile_eq_self_iff.mpr taken', List.dropWhile_eq_nil_iff.mpr taken']
    simp [nonempty']

end Lib
