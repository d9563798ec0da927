import CoflowSim.Master.TraceProducer

namespace CoflowSim
open Lib

/-- A line of a trace behind the first: a coflow, the locations of its mappers,
and those of its reducers with their megabytes. -/
structure TraceLine where
  coflowID : CInt
  arrival : Decimal
  mappers : List CInt
  reducers : List (CInt × Decimal)

namespace TraceLine

/-- `location:megabytes` -/
def reducerWord (r : CInt × Decimal) : List Byte := showInt r.1.val ++ colon :: r.2.text

def words (line : TraceLine) : List (List Byte) :=
  showInt line.coflowID.val :: line.arrival.text :: showInt line.mappers.length ::
    (line.mappers.map (fun m => showInt m.val) ++ showInt line.reducers.length :: line.reducers.map reducerWord)

/-- The coflow that the line describes, with what is kept of its numbers. -/
def coflow (line : TraceLine) (precision : Precision := .exact) : Coflow :=
  (TraceProducer.addFlows (.create line.coflowID (precision.keep line.arrival.value)) line.mappers
    (line.reducers.map fun r => (r.1, precision.keep r.2.value)) precision).1

/-- The numbers of the line are read as what is kept of them. -/
structure Reads (line : TraceLine) (precision : Precision) : Prop where
  arrival : precision.Reads line.arrival.text line.arrival.value
  sizes : ∀ r ∈ line.reducers, precision.Reads r.2.text r.2.value

theorem reads_exact (line : TraceLine) : line.Reads .exact :=
  ⟨Precision.reads_decimal _, fun r _ => Precision.reads_decimal r.2⟩

end TraceLine

/-- A file in the format of the README, with the text of its lines. -/
structure TraceFile where
  ports : CInt
  lines : List TraceLine
  header : List Byte
  texts : List (List Byte)
  tail : List Byte
  writtenHeader : Separated [showInt ports.val, showInt lines.length] header
  written : List.Forall₂ (fun line text => Separated line.words text) lines texts
  unbroken : ∀ text ∈ header :: texts, newline ∉ text
  ended : ∀ b, tail.head? = some b → b = newline

namespace TraceFile

def text (file : TraceFile) : List Byte := file.header ++ (file.texts.flatMap (newline :: ·) ++ file.tail)

/-- What `prepareCoflows` reads the file with is large enough for it. -/
structure Fits (file : TraceFile) : Prop where
  count : file.lines.length ≤ 2147483647
  lines : ∀ text ∈ file.header :: file.texts, text.length < LINE_BUFFER
  words : ∀ line ∈ file.lines, ∀ r ∈ line.reducers, (TraceLine.reducerWord r).length < TOKEN_BUFFER

end TraceFile

theorem showInt_solid {z : Int} : ∀ b ∈ showInt z, isSpace b = false ∧ b ≠ colon ∧ b ≠ 0 := by
  intro b member
  rcases showInt_bytes b member with digit | rfl
  · refine ⟨isDigit_not_space digit, ?_, ?_⟩ <;>
      · rintro rfl
        exact absurd digit (by decide)
  · decide

theorem decimal_solid (d : Decimal) : ∀ b ∈ d.text, isSpace b = false ∧ b ≠ colon ∧ b ≠ 0 := by
  intro b member
  rcases d.text_bytes b member with digit | rfl
  · refine ⟨isDigit_not_space digit, ?_, ?_⟩ <;>
      · rintro rfl
        exact absurd digit (by decide)
  · decide

namespace TraceProducer

variable {precision : Precision}

/-- A loop of extractions over the words it expects. -/
theorem readMany_words {α β : Type} (read : IStream → Option (α × IStream)) {word : β → List Byte} (value : β → α)
    {items : List β} (each : ∀ item ∈ items, ∀ words text, Separated (word item :: words) text →
      ∃ rest, read ⟨text, false⟩ = some (value item, ⟨rest, false⟩) ∧ Separated words rest)
    {words : List (List Byte)} {text : List Byte} (separated : Separated (items.map word ++ words) text) :
    ∃ rest, readMany read items.length ⟨text, false⟩ = some (items.map value, ⟨rest, false⟩) ∧
      Separated words rest := by
  induction items generalizing text with
  | nil => exact ⟨text, rfl, separated⟩
  | cons item items ih =>
    obtain ⟨rest, first, later⟩ := each item (by simp) _ _ separated
    obtain ⟨rest', others, left⟩ := ih (fun other member => each other (by simp [member])) later
    refine ⟨rest', ?_, left⟩
    simp only [List.length_cons, readMany, first, Option.bind_eq_bind, Option.bind_some, others, List.map_cons]

theorem readMapper_word {m : CInt} {words : List (List Byte)} {text : List Byte}
    (separated : Separated (showInt m.val :: words) text) :
    ∃ rest, readMapper ⟨text, false⟩ = some (m, ⟨rest, false⟩) ∧ Separated words rest := by
  obtain ⟨rest, read, later⟩ := separated.readInt
  exact ⟨rest, by rw [readMapper, read]; rfl, later⟩

theorem readReducer_word {r : CInt × Decimal} (reads : precision.Reads r.2.text r.2.value)
    (fits : (TraceLine.reducerWord r).length < TOKEN_BUFFER) {words : List (List Byte)} {text : List Byte}
    (separated : Separated (TraceLine.reducerWord r :: words) text) :
    ∃ rest, readReducer ⟨text, false⟩ precision = some ((r.1, precision.keep r.2.value), ⟨rest, false⟩) ∧
      Separated words rest := by
  have solid : ∀ b ∈ TraceLine.reducerWord r, isSpace b = false := by
    intro b member
    rcases List.mem_append.mp member with inLocation | member
    · exact (showInt_solid b inLocation).1
    · rcases List.mem_cons.mp member with rfl | inSize
      · decide
      · exact (decimal_solid r.2 b inSize).1
  have clean : ∀ b ∈ showInt r.1.val ++ r.2.text, b ≠ colon := by
    intro b member
    rcases List.mem_append.mp member with inLocation | inSize
    · exact (showInt_solid b inLocation).2.1
    · exact (decimal_solid r.2 b inSize).2.1
  obtain ⟨rest, read, later⟩ := separated.readToken
    (List.append_ne_nil_of_left_ne_nil (showInt_ne_nil r.1.val) _) solid
  obtain ⟨more, first, second⟩ := strtok_pair (showInt_ne_nil r.1.val) r.2.text_ne_nil clean
  have none_before : ∀ b ∈ ([] : List Byte), isSpace b = true := by simp
  have atEnd : EndsNumber [] := EndsDouble.nil.endsNumber
  have location := readInt_showInt none_before r.1 atEnd
  simp only [List.nil_append, List.append_nil] at location
  refine ⟨rest, ?_, later⟩
  rw [readReducer, read]
  dsimp only
  rw [if_neg (Nat.not_le.mpr fits), TraceLine.reducerWord, first]
  simp only [Option.bind_eq_bind, Option.bind_some, second, location, reads.alone]

/-- A count that fits an `int`, as its number of words. -/
theorem count_word {n : Nat} (fits : n ≤ 2147483647) : ∃ z : CInt, z.val = n :=
  ⟨⟨n, by omega, by omega⟩, rfl⟩

theorem words_solid {line : TraceLine} :
    ∀ word ∈ line.words, word ≠ [] ∧ ∀ b ∈ word, isSpace b = false ∧ b ≠ 0 := by
  have int (z : Int) : showInt z ≠ [] ∧ ∀ b ∈ showInt z, isSpace b = false ∧ b ≠ 0 :=
    ⟨showInt_ne_nil z, fun b member => ⟨(showInt_solid b member).1, (showInt_solid b member).2.2⟩⟩
  have decimal (d : Decimal) : ∀ b ∈ d.text, isSpace b = false ∧ b ≠ 0 :=
    fun b member => ⟨(decimal_solid d b member).1, (decimal_solid d b member).2.2⟩
  intro word member
  simp only [TraceLine.words, List.mem_cons, List.mem_append, List.mem_map] at member
  rcases member with rfl | rfl | rfl | ⟨m, -, rfl⟩ | rfl | ⟨r, -, rfl⟩
  · exact int _
  · exact ⟨line.arrival.text_ne_nil, decimal _⟩
  · exact int _
  · exact int _
  · exact int _
  · refine ⟨List.append_ne_nil_of_left_ne_nil (showInt_ne_nil _) _, fun b member => ?_⟩
    rcases List.mem_append.mp member with inLocation | member
    · exact (int _).2 b inLocation
    · rcases List.mem_cons.mp member with rfl | inSize
      · decide
      · exact decimal _ b inSize

/-- A line whose counts fit an `int`, however long it is. -/
theorem prepareOneCoflow_words {line : TraceLine} {text : List Byte} (reads : line.Reads precision)
    (separated : Separated line.words text)
    (mappers : line.mappers.length ≤ 2147483647) (reducers : line.reducers.length ≤ 2147483647)
    (fits : ∀ r ∈ line.reducers, (TraceLine.reducerWord r).length < TOKEN_BUFFER) :
    prepareOneCoflow text precision = some (line.coflow precision) := by
  have noNul : text.takeWhile (· != 0) = text := by
    refine List.takeWhile_eq_self_iff.mpr fun b member => ?_
    have absent := separated.not_mem (fun word inside zero => ((words_solid word inside).2 0 zero).2 rfl)
      (by decide : isSpace 0 = false)
    simp only [bne_iff_ne, ne_eq]
    rintro rfl
    exact absent member
  obtain ⟨mapperNum, mappers⟩ := count_word mappers
  obtain ⟨reducerNum, reducers⟩ := count_word reducers
  unfold TraceLine.words at separated
  rw [← mappers, ← reducers] at separated
  obtain ⟨rest, coflowID, separated⟩ := separated.readInt
  obtain ⟨rest, startTime, separated⟩ := reads.arrival.word separated
  obtain ⟨rest, mapperCount, separated⟩ := separated.readInt
  obtain ⟨rest, mapperIDs, separated⟩ := readMany_words readMapper id
    (fun m _ words text => readMapper_word) separated
  obtain ⟨rest, reducerCount, separated⟩ := separated.readInt
  rw [← List.append_nil (line.reducers.map _)] at separated
  obtain ⟨rest, reducer_sizeMB, -⟩ := readMany_words (readReducer · precision)
    (fun r : CInt × Decimal => (r.1, precision.keep r.2.value))
    (fun r member words text => readReducer_word (reads.sizes r member) (fits r member)) separated
  have nonnegative : ¬ mapperNum.val < 0 := by omega
  have mapperNat : mapperNum.val.toNat = line.mappers.length := by omega
  have reducerNat : reducerNum.val.toNat = line.reducers.length := by omega
  rw [prepareOneCoflow, noNul, coflowID]
  simp only [Option.bind_eq_bind, Option.bind_some, startTime, mapperCount, nonnegative, if_false, mapperNat,
    mapperIDs, reducerCount, reducerNat, reducer_sizeMB, List.map_id]
  rfl

/-- The buffer has no room for many mappers and reducers. -/
theorem counts_of_short {line : TraceLine} {text : List Byte} (separated : Separated line.words text)
    (short : text.length < LINE_BUFFER) : line.mappers.length + line.reducers.length ≤ 4095 := by
  have counts := separated.words_le fun word inside => (words_solid word inside).1
  simp only [TraceLine.words, List.length_cons, List.length_append, List.length_map] at counts
  unfold LINE_BUFFER at short
  omega

theorem prepareOneCoflow_line {line : TraceLine} {text : List Byte} (reads : line.Reads precision)
    (separated : Separated line.words text) (short : text.length < LINE_BUFFER)
    (fits : ∀ r ∈ line.reducers, (TraceLine.reducerWord r).length < TOKEN_BUFFER) :
    prepareOneCoflow text precision = some (line.coflow precision) := by
  have counts := counts_of_short separated short
  exact prepareOneCoflow_words reads separated (by omega) (by omega) fits

/-- The loop over the lines that are left, the first of which is next in the
stream. -/
theorem prepareLoop_lines {line : TraceLine} {text : List Byte} {lines : List TraceLine} {texts : List (List Byte)}
    {tail : List Byte} (reads : ∀ l ∈ line :: lines, l.Reads precision) (separated : Separated line.words text)
    (written : List.Forall₂ (fun line text => Separated line.words text) lines texts)
    (unbroken : ∀ t ∈ text :: texts, newline ∉ t) (short : ∀ t ∈ text :: texts, t.length < LINE_BUFFER)
    (fits : ∀ l ∈ line :: lines, ∀ r ∈ l.reducers, (TraceLine.reducerWord r).length < TOKEN_BUFFER)
    (ended : ∀ b, tail.head? = some b → b = newline) :
    prepareLoop (lines.length + 1) ⟨text ++ (texts.flatMap (newline :: ·) ++ tail), false, false⟩ precision =
      some ((line :: lines).map fun line => line.coflow precision) := by
  induction written generalizing line text with
  | nil =>
    have got := getline_line (unbroken text (by simp)) (short text (by simp)) ended
    have coflow := prepareOneCoflow_line (reads line (by simp)) separated (short text (by simp)) (fits line (by simp))
    rw [List.flatMap_nil, List.nil_append, List.length_nil, prepareLoop_next got, coflow]
    rfl
  | @cons next nextText lines texts nextSeparated written ih =>
    have endsLine : ∀ b, ((nextText :: texts).flatMap (newline :: ·) ++ tail).head? = some b → b = newline := by
      intro b first
      cases first
      rfl
    have got := getline_line (unbroken text (by simp)) (short text (by simp)) endsLine
    have coflow := prepareOneCoflow_line (reads line (by simp)) separated (short text (by simp)) (fits line (by simp))
    have later := ih (fun l member => reads l (by simp [member])) nextSeparated (fun t member => unbroken t (by simp [member]))
      (fun t member => short t (by simp [member])) fun l member => fits l (by simp [member])
    rw [List.length_cons, prepareLoop_next got, coflow, Option.bind_some]
    simp only [List.flatMap_cons, List.cons_append, List.tail_cons, List.isEmpty_cons, Bool.false_and,
      List.append_assoc, later, List.map_cons, Option.map_some]

/-- A file that fits is read as it is written. -/
theorem prepareCoflows_lines (file : TraceFile) (fits : file.Fits)
    (reads : ∀ line ∈ file.lines, line.Reads precision) : prepareCoflows file.text precision =
      some (file.ports, file.lines.map fun line => line.coflow precision) := by
  obtain ⟨ports, lines, header, texts, tail, writtenHeader, written, unbroken, ended⟩ := file
  obtain ⟨count, short, words⟩ := fits
  dsimp only at *
  obtain ⟨coflowNum, number⟩ := count_word count
  have body : ∀ b, (texts.flatMap (newline :: ·) ++ tail).head? = some b → b = newline := by
    intro b first
    cases texts with
    | nil => exact ended b first
    | cons text texts =>
      cases first
      rfl
  have blank : ∀ b, (texts.flatMap (newline :: ·) ++ tail).head? = some b → isSpace b = true := by
    intro b first
    rw [body b first]
    decide
  rw [← number] at writtenHeader
  obtain ⟨rest, readPorts, inside, separated⟩ := writtenHeader.readInt_append blank
  obtain ⟨rest', readCount, inside', -⟩ := separated.readInt_append blank
  have coflows : coflowNum.val.toNat = lines.length := by omega
  rw [prepareCoflows, TraceFile.text, readPorts]
  simp only [readCount, Option.bind_eq_bind, Option.bind_some, Option.getD_some, coflows]
  cases written with
  | nil => rfl
  | @cons line text lines texts separated written =>
    have whole : newline ∉ rest' := fun member => unbroken header (by simp) ((inside'.trans inside).mem member)
    have few : rest'.length < LINE_BUFFER :=
      lt_of_le_of_lt (inside'.trans inside).length_le (short header (by simp))
    have got := getline_line whole few body
    have loop := prepareLoop_lines reads separated written (fun t member => unbroken t (by simp [member]))
      (fun t member => short t (by simp [member])) words ended
    have some_left : (rest' ++ ((text :: texts).flatMap (newline :: ·) ++ tail)).isEmpty = false := by simp
    rw [some_left, got]
    simp only [List.flatMap_cons, List.cons_append, List.tail_cons, List.isEmpty_cons, Bool.false_and,
      List.append_assoc, List.length_cons, loop, Option.bind_some]

theorem prepareCoflows_file (file : TraceFile) (fits : file.Fits) :
    prepareCoflows file.text = some (file.ports, file.lines.map fun line => line.coflow) :=
  prepareCoflows_lines file fits fun line _ => line.reads_exact

end TraceProducer

namespace TraceLine

variable {precision : Precision}

/-- The mapper, the reducer and the size of each flow, by flow ID. -/
def specs (line : TraceLine) (precision : Precision := .exact) : List (CInt × CInt × Rat) :=
  line.reducers.flatMap fun r => line.mappers.map fun m =>
    (m, r.1, precision.keep (precision.keep r.2.value / line.mappers.length))

/-- What `addFlow` inserts for the specification with this number. -/
def entry (spec : (CInt × CInt × Rat) × Nat) : CInt × Flow :=
  (.clamp spec.2, .create (.clamp spec.2) spec.1.1 spec.1.2.1 spec.1.2.2)

theorem foldl_entries (specs : List (CInt × CInt × Rat)) (few : specs.length ≤ 2147483648) (coflow : Coflow)
    (empty : coflow.flowCollection.entries = []) :
    let added := specs.foldl (fun (acc : Coflow × Nat) spec =>
      (acc.1.addFlow (.clamp acc.2) spec.1 spec.2.1 spec.2.2, acc.2 + 1)) (coflow, 0)
    added.1.flowCollection.entries = specs.zipIdx.map entry ∧ added.2 = specs.length := by
  induction specs using List.reverseRecOn with
  | nil => exact ⟨empty, rfl⟩
  | append_singleton specs spec ih =>
    rw [List.length_append, List.length_singleton] at few
    obtain ⟨entries, number⟩ := ih (by omega)
    dsimp only at entries number ⊢
    rw [List.foldl_append, List.foldl_cons, List.foldl_nil, List.zipIdx_append, List.map_append]
    have last : ∀ e ∈ specs.zipIdx.map entry, e.1 < CInt.clamp specs.length := by
      intro e member
      obtain ⟨⟨old, k⟩, inside, rfl⟩ := List.mem_map.mp member
      exact CInt.clamp_lt (by simpa using List.snd_lt_of_mem_zipIdx inside) (by omega)
    refine ⟨?_, by simp [number]⟩
    change OrderedMap.insertEntry _ _ (Coflow.flowCollection (Prod.fst _)).entries = _
    rw [entries, number, OrderedMap.insertEntry_last _ last]
    simp [entry]

theorem specs_length (line : TraceLine) :
    (line.specs precision).length = line.reducers.length * line.mappers.length := by
  simp [specs, List.length_flatMap]

/-- The flows of the coflow are those of its specifications, one each. -/
theorem coflow_entries (line : TraceLine) (few : line.specs.length ≤ 2147483648) :
    (line.coflow precision).flowCollection.entries = (line.specs precision).zipIdx.map entry := by
  have nested : line.coflow precision = ((line.specs precision).foldl (fun (acc : Coflow × Nat) spec =>
      (acc.1.addFlow (.clamp acc.2) spec.1 spec.2.1 spec.2.2, acc.2 + 1))
        (Coflow.create line.coflowID (precision.keep line.arrival.value), 0)).1 := by
    rw [coflow, TraceProducer.addFlows, specs, List.foldl_flatMap, List.foldl_map]
    simp only [List.foldl_map]
  rw [nested]
  exact (foldl_entries (line.specs precision) (line.specs_length.trans_le (line.specs_length.ge.trans few)) _ rfl).1

/-- A flow goes from a mapper of the line to a reducer of the line, and there
is one for every such pair. -/
theorem mem_flows_iff (line : TraceLine) (few : line.specs.length ≤ 2147483648) (m r : CInt) :
    (∃ f ∈ line.coflow.flowCollection.values, f.mapperID = m ∧ f.reducerID = r) ↔
      m ∈ line.mappers ∧ r ∈ line.reducers.map Prod.fst := by
  rw [OrderedMap.values, line.coflow_entries few, List.map_map]
  constructor
  · rintro ⟨f, member, rfl, rfl⟩
    obtain ⟨⟨spec, k⟩, inside, rfl⟩ := List.mem_map.mp member
    obtain ⟨r, atR, inside⟩ := List.mem_flatMap.mp (List.fst_mem_of_mem_zipIdx inside)
    obtain ⟨m, atM, rfl⟩ := List.mem_map.mp inside
    exact ⟨atM, List.mem_map_of_mem atR⟩
  · rintro ⟨atM, atR⟩
    obtain ⟨pair, inside, rfl⟩ := List.mem_map.mp atR
    have spec : (m, pair.1, pair.2.value / line.mappers.length) ∈ line.specs :=
      List.mem_flatMap.mpr ⟨pair, inside, List.mem_map_of_mem atM⟩
    obtain ⟨k, atK⟩ := List.mem_iff_getElem?.mp spec
    exact ⟨_, List.mem_map_of_mem (List.mk_mem_zipIdx_iff_getElem?.mpr atK), rfl, rfl⟩

end TraceLine

namespace TraceFile.Fits

variable {file : TraceFile}

theorem counts (fits : file.Fits) : ∀ line ∈ file.lines, line.mappers.length + line.reducers.length ≤ 4095 := by
  obtain ⟨-, short, -⟩ := fits
  have loop {lines : List TraceLine} {texts : List (List Byte)}
      (written : List.Forall₂ (fun line text => Separated line.words text) lines texts)
      (short : ∀ text ∈ texts, text.length < LINE_BUFFER) :
      ∀ line ∈ lines, line.mappers.length + line.reducers.length ≤ 4095 := by
    induction written with
    | nil => simp
    | cons separated _ ih =>
      refine List.forall_mem_cons.mpr
        ⟨TraceProducer.counts_of_short separated (short _ (by simp)), ih fun text member => ?_⟩
      exact short text (by simp [member])
  exact loop file.written fun text member => short text (by simp [member])

/-- A line of a file that fits has few enough flows to number them. -/
theorem few (fits : file.Fits) : ∀ line ∈ file.lines, line.specs.length ≤ 2147483648 := by
  intro line member
  have counts := fits.counts line member
  have product := Nat.mul_le_mul (show line.reducers.length ≤ 4095 by omega) (show line.mappers.length ≤ 4095 by omega)
  rw [TraceLine.specs_length]
  omega

end TraceFile.Fits

/-- The file with one blank before each word. -/
def TraceFile.spaced (ports : CInt) (lines : List TraceLine) : TraceFile where
  ports := ports
  lines := lines
  header := Lib.spaced [showInt ports.val, showInt lines.length]
  texts := lines.map fun line => Lib.spaced line.words
  tail := [newline]
  writtenHeader := separated_spaced _
  written := by
    induction lines with
    | nil => exact .nil
    | cons line lines ih => exact .cons (separated_spaced line.words) ih
  unbroken := by
    intro text member
    rcases List.mem_cons.mp member with rfl | member
    · refine newline_not_mem_spaced fun word inside b within => ?_
      rcases List.mem_cons.mp inside with rfl | inside
      · exact (showInt_solid b within).1
      · rw [List.mem_singleton.mp inside] at within
        exact (showInt_solid b within).1
    · obtain ⟨line, -, rfl⟩ := List.mem_map.mp member
      exact newline_not_mem_spaced fun word inside b within =>
        ((TraceProducer.words_solid word inside).2 b within).1
  ended := by
    intro b first
    exact (Option.some.inj first).symm

end CoflowSim
