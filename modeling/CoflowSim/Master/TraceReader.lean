import CoflowSim.Master.TraceFormat

namespace CoflowSim
open Lib

/-- The lines of a file behind its first, and what ends the last of them. -/
def linesBehind (texts : List (List Byte)) (tail : List Byte) : List Byte := texts.flatMap (newline :: ·) ++ tail

/-- A trace whose first line promises `coflowNum` coflows, which may be more or
fewer than it has lines. -/
structure TraceText where
  ports : CInt
  coflowNum : Nat
  gap : List Byte
  texts : List (List Byte)
  tail : List Byte
  separates : gap ≠ []
  blank : ∀ b ∈ gap, isSpace b = true
  unbroken : ∀ text ∈ texts, newline ∉ text
  decodes : ∀ text ∈ texts, (TraceProducer.prepareOneCoflow text).isSome = true
  ended : tail = [] ∨ tail = [newline]

namespace TraceText

def text (file : TraceText) : List Byte :=
  showInt file.ports.val ++ (file.gap ++ (showInt file.coflowNum ++ linesBehind file.texts file.tail))

/-- One coflow for each line that is to be read, decoded from all of it. -/
def Yields (file : TraceText) : Prop :=
  ∃ coflows, TraceProducer.prepareCoflows file.text = some (file.ports, coflows) ∧
    coflows.length = min file.coflowNum file.texts.length ∧
    coflows.map some = (file.texts.take file.coflowNum).map TraceProducer.prepareOneCoflow

end TraceText

/-- A line that is read whole, or the last of `n` and the same without the part
that is cut off. -/
def LineRead (n i : Nat) (text : List Byte) : Prop :=
  text.length < LINE_BUFFER ∨ (i + 1 = n ∧
    TraceProducer.prepareOneCoflow (text.take (LINE_BUFFER - 1)) = TraceProducer.prepareOneCoflow text)

theorem lineRead_succ_iff {n i : Nat} {text : List Byte} : LineRead (n + 1) (i + 1) text ↔ LineRead n i text := by
  rw [LineRead, LineRead, Nat.add_right_cancel_iff]

/-- The count is an `int`, a file that has fewer lines does not end with a new
line, and the lines to read are read whole. -/
structure TraceText.Readable (file : TraceText) : Prop where
  count : file.coflowNum ≤ 2147483647 ∨ (file.texts = [] ∧ file.tail = [])
  enough : file.coflowNum ≤ file.texts.length ∨ file.tail = []
  lines : ∀ i text, file.texts[i]? = some text → i < file.coflowNum → LineRead file.coflowNum i text

theorem linesBehind_head {texts : List (List Byte)} {tail : List Byte} (ended : tail = [] ∨ tail = [newline]) :
    ∀ b, (linesBehind texts tail).head? = some b → b = newline := by
  intro b first
  cases texts with
  | nil =>
    rcases ended with rfl | rfl
    · cases first
    · exact (Option.some.inj first).symm
  | cons text texts => exact (Option.some.inj first).symm

theorem forall_getElem?_cons {α : Type} {P : Nat → α → Prop} {b : α} {l : List α} :
    (∀ i a, (b :: l)[i]? = some a → P i a) ↔ P 0 b ∧ ∀ i a, l[i]? = some a → P (i + 1) a := by
  constructor
  · exact fun all => ⟨all 0 b rfl, fun i a atI => all (i + 1) a atI⟩
  · rintro ⟨first, others⟩ i a atI
    cases i with
    | zero => exact Option.some.inj atI ▸ first
    | succ i => exact others i a atI

namespace TraceProducer

theorem prepareOneCoflow_nil : prepareOneCoflow [] = none := rfl

/-- The stream when a line has been read, with what is left behind it. -/
def resume (left : List Byte) : FileStream := ⟨left.tail, left.isEmpty, false⟩

/-- A failed stream gives an empty line, which has no coflow. -/
theorem prepareLoop_failed (n : Nat) (left : List Byte) : prepareLoop (n + 1) ⟨left, false, true⟩ = none := by
  have got : FileStream.getline LINE_BUFFER ⟨left, false, true⟩ = ([], ⟨left, false, true⟩) := by
    simp [FileStream.getline]
  rw [prepareLoop_next got, prepareOneCoflow_nil, Option.bind_none]

/-- So does a stream with nothing left that has not noticed it yet. -/
theorem prepareLoop_exhausted (n : Nat) : prepareLoop (n + 1) ⟨[], false, false⟩ = none := by
  have got : FileStream.getline LINE_BUFFER ⟨[], false, false⟩ = ([], ⟨[], true, true⟩) := by
    simp [FileStream.getline, LINE_BUFFER]
  rw [prepareLoop_next got, prepareOneCoflow_nil, Option.bind_none]

/-- What the loop gives for `texts` when it is to read `n` more coflows. -/
def LoopYields (n : Nat) (CBfin : FileStream) (texts : List (List Byte)) : Prop :=
  ∃ coflows, prepareLoop n CBfin = some coflows ∧ coflows.map some = (texts.take n).map prepareOneCoflow

theorem loopYields_zero (CBfin : FileStream) (texts : List (List Byte)) : LoopYields 0 CBfin texts :=
  ⟨[], rfl, rfl⟩

theorem not_loopYields {n : Nat} {CBfin : FileStream} (none : prepareLoop n CBfin = none) (texts : List (List Byte)) :
    ¬ LoopYields n CBfin texts := by
  rintro ⟨coflows, run, -⟩
  rw [none] at run
  cases run

/-- A line that is read whole gives its coflow, and the others are left. -/
theorem loopYields_line {n : Nat} {text left : List Byte} {texts : List (List Byte)}
    (got : FileStream.getline LINE_BUFFER ⟨text ++ left, false, false⟩ = (text, resume left))
    (decodes : (prepareOneCoflow text).isSome = true) :
    LoopYields (n + 1) ⟨text ++ left, false, false⟩ (text :: texts) ↔ LoopYields n (resume left) texts := by
  obtain ⟨coflow, decoded⟩ := Option.isSome_iff_exists.mp decodes
  have loop : prepareLoop (n + 1) ⟨text ++ left, false, false⟩ =
      (prepareLoop n (resume left)).map fun rest => coflow :: rest := by
    rw [prepareLoop_next got, decoded, Option.bind_some]
  rw [LoopYields, loop]
  constructor
  · rintro ⟨coflows, run, same⟩
    obtain ⟨rest, later, rfl⟩ := Option.map_eq_some_iff.mp run
    rw [List.take_succ_cons, List.map_cons, List.map_cons] at same
    exact ⟨rest, later, (List.cons.inj same).2⟩
  · rintro ⟨rest, later, same⟩
    refine ⟨coflow :: rest, by rw [later, Option.map_some], ?_⟩
    rw [List.take_succ_cons, List.map_cons, List.map_cons, same, decoded]

/-- A line that is cut gives what its beginning says, and there is no next. -/
theorem loopYields_cut {n : Nat} {text left : List Byte} {texts : List (List Byte)} (whole : newline ∉ text)
    (long : LINE_BUFFER ≤ text.length) (endsLine : ∀ b, left.head? = some b → b = newline)
    (decodes : (prepareOneCoflow text).isSome = true) :
    LoopYields (n + 1) ⟨text ++ left, false, false⟩ (text :: texts) ↔ LineRead (n + 1) 0 text := by
  have notShort : ¬ text.length < LINE_BUFFER := Nat.not_lt.mpr long
  have loop : prepareLoop (n + 1) ⟨text ++ left, false, false⟩ = _ := prepareLoop_next (getline_long whole long endsLine)
  cases n with
  | zero =>
    obtain ⟨coflow, decoded⟩ := Option.isSome_iff_exists.mp decodes
    have result : prepareLoop 1 ⟨text ++ left, false, false⟩ =
        (prepareOneCoflow (text.take (LINE_BUFFER - 1))).map fun coflow => [coflow] := by
      rw [loop, Option.map_eq_bind]
      rfl
    rw [LoopYields, result, LineRead]
    simp only [notShort, false_or, Nat.zero_add, true_and, List.take_succ_cons, List.take_zero, List.map_cons,
      List.map_nil, decoded]
    constructor
    · rintro ⟨coflows, run, same⟩
      obtain ⟨cut, begun, rfl⟩ := Option.map_eq_some_iff.mp run
      rw [begun]
      exact (List.cons.inj same).1
    · intro begun
      exact ⟨[coflow], by rw [begun, Option.map_some], rfl⟩
  | succ n =>
    have none : prepareLoop (n + 2) ⟨text ++ left, false, false⟩ = none := by
      rw [loop, prepareLoop_failed]
      exact Option.bind_fun_none _
    refine iff_of_false (not_loopYields none _) ?_
    rintro (short | ⟨last, -⟩)
    · exact notShort short
    · omega

/-- The loop over the lines that are left gives a coflow for each of the next
`n` if and only if it can read them. -/
theorem loopYields_iff {texts : List (List Byte)} {tail : List Byte} (unbroken : ∀ text ∈ texts, newline ∉ text)
    (decodes : ∀ text ∈ texts, (prepareOneCoflow text).isSome = true) (ended : tail = [] ∨ tail = [newline]) (n : Nat) :
    LoopYields n (resume (linesBehind texts tail)) texts ↔
      (n ≤ texts.length ∨ tail = []) ∧ ∀ i text, texts[i]? = some text → i < n → LineRead n i text := by
  induction texts generalizing n with
  | nil =>
    cases n with
    | zero => exact iff_of_true (loopYields_zero _ _) ⟨Or.inl le_rfl, fun i text atI => by simp at atI⟩
    | succ n =>
      rcases ended with rfl | rfl
      · exact iff_of_true ⟨[], rfl, rfl⟩ ⟨Or.inr rfl, fun i text atI => by simp at atI⟩
      · exact iff_of_false (not_loopYields (prepareLoop_exhausted n) _) (by simp)
  | cons text texts ih =>
    cases n with
    | zero => exact iff_of_true (loopYields_zero _ _) ⟨Or.inl (Nat.zero_le _), fun i text _ below => by omega⟩
    | succ n =>
      obtain ⟨whole, unbroken⟩ := List.forall_mem_cons.mp unbroken
      obtain ⟨decoded, decodes⟩ := List.forall_mem_cons.mp decodes
      have endsLine : ∀ b, (linesBehind texts tail).head? = some b → b = newline := linesBehind_head ended
      have stream : resume (linesBehind (text :: texts) tail) = ⟨text ++ linesBehind texts tail, false, false⟩ := by
        simp [resume, linesBehind]
      rw [stream, forall_getElem?_cons]
      by_cases short : text.length < LINE_BUFFER
      · have nonempty : text ≠ [] := by
          rintro rfl
          rw [prepareOneCoflow_nil] at decoded
          cases decoded
        have got := getline_line whole short endsLine
        rw [List.isEmpty_eq_false_iff.mpr nonempty, Bool.and_false] at got
        have here : LineRead (n + 1) 0 text := Or.inl short
        rw [loopYields_line got decoded, ih unbroken decodes n]
        simp only [here, Nat.succ_pos, forall_const, true_and, List.length_cons, Nat.add_le_add_iff_right,
          Nat.add_lt_add_iff_right, lineRead_succ_iff]
      · rw [loopYields_cut whole (Nat.not_lt.mp short) endsLine decoded]
        constructor
        · intro here
          obtain ⟨last, -⟩ := here.resolve_left short
          refine ⟨Or.inl ?_, fun _ => here, fun i text _ below => ?_⟩
          · rw [List.length_cons]
            omega
          · omega
        · exact fun all => all.2.1 (Nat.succ_pos n)

theorem linesBehind_eq_nil_iff {texts : List (List Byte)} {tail : List Byte} :
    linesBehind texts tail = [] ↔ texts = [] ∧ tail = [] := by
  rw [linesBehind, List.append_eq_nil_iff, List.flatMap_eq_nil_iff]
  refine and_congr_left fun _ => ⟨fun none => ?_, fun none => by simp [none]⟩
  exact List.eq_nil_iff_forall_not_mem.mpr fun text member => absurd (none text member) (List.cons_ne_nil _ _)

/-- What `prepareCoflows` does behind the two numbers of the first line. -/
theorem prepareCoflows_text (file : TraceText) :
    prepareCoflows file.text = (prepareLoop (CInt.clamp file.coflowNum).val.toNat
      (FileStream.getline LINE_BUFFER ⟨linesBehind file.texts file.tail, (linesBehind file.texts file.tail).isEmpty,
        (CInt.clamp file.coflowNum).val != (file.coflowNum : Int)⟩).2).map fun coflows => (file.ports, coflows) := by
  have none_before : ∀ b ∈ ([] : List Byte), isSpace b = true := by simp
  have endsPorts : EndsNumber (file.gap ++ (showInt file.coflowNum ++ linesBehind file.texts file.tail)) := by
    refine EndsNumber.of_space fun b first => ?_
    obtain ⟨c, gap, split⟩ := List.exists_cons_of_ne_nil file.separates
    rw [split] at first
    have same : c = b := Option.some.inj first
    exact file.blank b (by rw [split, same]; exact List.mem_cons_self)
  have endsCount : EndsNumber (linesBehind file.texts file.tail) := by
    refine EndsNumber.of_space fun b first => ?_
    rw [linesBehind_head file.ended b first]
    decide
  have readPorts := readInt_showInt none_before file.ports endsPorts
  have readCount := readInt_showInt_clamp file.blank file.coflowNum endsCount
  rw [List.nil_append] at readPorts
  rw [List.append_assoc] at readCount
  rw [prepareCoflows, TraceText.text, readPorts]
  simp only [readCount, Option.bind_eq_bind, Option.bind_some, Option.getD_some, Option.map_eq_bind]
  rfl

/-- A file that ends with its first line has no coflows. -/
theorem yields_of_no_lines {file : TraceText} (nothing : linesBehind file.texts file.tail = []) : file.Yields := by
  have ended (n : Nat) (fail : Bool) :
      prepareLoop n (FileStream.getline LINE_BUFFER ⟨[], true, fail⟩).2 = some [] := by
    cases n <;> rfl
  obtain ⟨noLines, -⟩ := linesBehind_eq_nil_iff.mp nothing
  refine ⟨[], ?_, ?_, ?_⟩
  · rw [prepareCoflows_text, nothing, List.isEmpty_nil, ended, Option.map_some]
  · rw [noLines]
    exact (Nat.min_zero _).symm
  · rw [noLines, List.take_nil]
    rfl

/-- A count that is no `int` fails the stream, and the first line is lost. -/
theorem not_yields_of_large {file : TraceText} (some_lines : linesBehind file.texts file.tail ≠ [])
    (large : ¬ file.coflowNum ≤ 2147483647) : ¬ file.Yields := by
  have clamped : (CInt.clamp file.coflowNum).val = 2147483647 := by
    rw [CInt.clamp, Set.projIcc_of_right_le _ (by omega)]
  have failed : ((2147483647 : Int) != (file.coflowNum : Int)) = true := bne_iff_ne.mpr (by omega)
  rintro ⟨coflows, run, -⟩
  rw [prepareCoflows_text, clamped, failed, List.isEmpty_eq_false_iff.mpr some_lines] at run
  have got : (FileStream.getline LINE_BUFFER ⟨linesBehind file.texts file.tail, false, true⟩).2 =
      ⟨linesBehind file.texts file.tail, false, true⟩ := by
    simp [FileStream.getline]
  have rounds : (2147483647 : Int).toNat = 2147483646 + 1 := rfl
  rw [got, rounds, prepareLoop_failed] at run
  cases run

/-- Otherwise the rest of the first line is empty, and the loop begins. -/
theorem yields_iff_loop {file : TraceText} (some_lines : linesBehind file.texts file.tail ≠ [])
    (small : file.coflowNum ≤ 2147483647) :
    file.Yields ↔ LoopYields file.coflowNum (resume (linesBehind file.texts file.tail)) file.texts := by
  have same : (CInt.clamp file.coflowNum).val = file.coflowNum := CInt.val_clamp (by omega) (by omega)
  have notEmpty := List.isEmpty_eq_false_iff.mpr some_lines
  have ends : ∀ b, (linesBehind file.texts file.tail).head? = some b → b = newline := linesBehind_head file.ended
  have got := getline_line List.not_mem_nil (by decide : ([] : List Byte).length < LINE_BUFFER) ends
  rw [List.nil_append, notEmpty, Bool.false_and] at got
  have begins : resume (linesBehind file.texts file.tail) =
      ⟨(linesBehind file.texts file.tail).tail, false, false⟩ := by
    rw [resume, notEmpty]
  have run : prepareCoflows file.text = (prepareLoop file.coflowNum (resume (linesBehind file.texts file.tail))).map
      fun coflows => (file.ports, coflows) := by
    rw [prepareCoflows_text, same, Int.toNat_natCast, notEmpty, bne_self_eq_false, got, begins]
  rw [TraceText.Yields, LoopYields, run]
  constructor
  · rintro ⟨coflows, given, -, each⟩
    obtain ⟨made, loop, both⟩ := Option.map_eq_some_iff.mp given
    obtain ⟨-, rfl⟩ := Prod.mk.inj both
    exact ⟨made, loop, each⟩
  · rintro ⟨coflows, loop, each⟩
    refine ⟨coflows, by rw [loop, Option.map_some], ?_, each⟩
    have length := congrArg List.length each
    rwa [List.length_map, List.length_map, List.length_take] at length

/-- One coflow for each line to read, and no more, is what the reader gives if
and only if it can read them. -/
theorem yields_iff_readable (file : TraceText) : file.Yields ↔ file.Readable := by
  by_cases nothing : linesBehind file.texts file.tail = []
  · obtain ⟨noLines, noTail⟩ := linesBehind_eq_nil_iff.mp nothing
    refine iff_of_true (yields_of_no_lines nothing) ⟨Or.inr ⟨noLines, noTail⟩, Or.inr noTail, fun i text atI => ?_⟩
    rw [noLines] at atI
    cases atI
  by_cases small : file.coflowNum ≤ 2147483647
  · rw [yields_iff_loop nothing small, loopYields_iff file.unbroken file.decodes file.ended]
    exact ⟨fun ⟨enough, lines⟩ => ⟨Or.inl small, enough, lines⟩, fun readable => ⟨readable.enough, readable.lines⟩⟩
  · refine iff_of_false (not_yields_of_large nothing small) fun readable => ?_
    rcases readable.count with fits | ⟨noLines, noTail⟩
    · exact small fits
    · exact nothing (linesBehind_eq_nil_iff.mpr ⟨noLines, noTail⟩)

/-- Lines in the format of the README can be decoded when their counts are
`int`s and their tokens fit `buf`. -/
theorem decodes_of_written {lines : List TraceLine} {texts : List (List Byte)}
    (written : List.Forall₂ (fun line text => Separated line.words text) lines texts)
    (counts : ∀ line ∈ lines, line.mappers.length ≤ 2147483647 ∧ line.reducers.length ≤ 2147483647)
    (tokens : ∀ line ∈ lines, ∀ r ∈ line.reducers, (TraceLine.reducerWord r).length < TOKEN_BUFFER) :
    ∀ text ∈ texts, (prepareOneCoflow text).isSome = true := by
  induction written with
  | nil => simp
  | @cons line text lines texts separated _ ih =>
    obtain ⟨⟨mappers, reducers⟩, counts⟩ := List.forall_mem_cons.mp counts
    obtain ⟨token, tokens⟩ := List.forall_mem_cons.mp tokens
    refine List.forall_mem_cons.mpr ⟨?_, ih counts tokens⟩
    rw [prepareOneCoflow_words line.reads_exact separated mappers reducers token, Option.isSome_some]

end TraceProducer

/-- A coflow without mappers and reducers. -/
def emptyLine : TraceLine := ⟨.zero, .ofNat 0, [], []⟩

/-- Two coflows are promised, one is there, and its line ends with a new line. -/
def onePromised : TraceText where
  ports := .clamp 1
  coflowNum := 2
  gap := [32]
  texts := [spaced emptyLine.words]
  tail := [newline]
  separates := List.cons_ne_nil _ _
  blank := List.forall_mem_singleton.mpr rfl
  unbroken := List.forall_mem_singleton.mpr <| newline_not_mem_spaced fun word inside b within =>
    ((TraceProducer.words_solid word inside).2 b within).1
  decodes := TraceProducer.decodes_of_written (.cons (separated_spaced emptyLine.words) .nil)
    (List.forall_mem_singleton.mpr ⟨Nat.zero_le _, Nat.zero_le _⟩) (List.forall_mem_singleton.mpr (by simp [emptyLine]))
  ended := Or.inr rfl

/-- The empty line at the end is taken for the second coflow. -/
theorem missing_line_is_read : ¬ ∀ file : TraceText, file.Yields := by
  intro always
  have some_lines : linesBehind onePromised.texts onePromised.tail ≠ [] := List.cons_ne_nil _ _
  have loop := (TraceProducer.yields_iff_loop some_lines (by decide)).mp (always onePromised)
  obtain ⟨enough, -⟩ :=
    (TraceProducer.loopYields_iff onePromised.unbroken onePromised.decodes onePromised.ended _).mp loop
  exact absurd enough (by decide)

end CoflowSim
