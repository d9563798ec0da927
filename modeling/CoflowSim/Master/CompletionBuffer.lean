import CoflowSim.Client.InstructionBuffer
import CoflowSim.Master.CompletionStream

namespace CoflowSim
open Lib Lib.Framing

/-- What a poll keeps of the text in `tmprecv`: its unfinished frame, unless it
has no closing bracket and `flowEndIndex` happens not to lie before it. -/
def keptText (flowEndIndex : CInt) (text : List Byte) : List Byte :=
  if rparen ∈ text ∨ flowEndIndex.val < (text.length - (since lparen text).length : Nat) then carry lparen rparen text
  else []

/-- What is kept after one poll for each chunk. -/
def keptAll (ends : Nat → CInt) (chunks : List (List Byte)) : List Byte :=
  chunks.zipIdx.foldl (fun kept (chunk, k) => keptText (ends k) (kept ++ chunk)) []

theorem keptAll_concat (ends : Nat → CInt) (front : List (List Byte)) (chunk : List Byte) :
    keptAll ends (front ++ [chunk]) = keptText (ends front.length) (keptAll ends front ++ chunk) := by
  rw [keptAll, List.zipIdx_append, List.foldl_append]
  simp only [keptAll, List.zipIdx_cons, List.zipIdx_nil, Nat.zero_add, List.foldl_cons, List.foldl_nil]

namespace Machine

/-- Between two polls the machine keeps `kept`, and has written nothing outside
`tmprecv`. -/
structure Keeps (m : Machine) (kept : List Byte) : Prop where
  holds : m.Holds kept
  inBounds : m.tmprecv.overrun = false

theorem create_keeps (machineID : Nat) (sockip : List Byte) (sockport : Int) :
    (create machineID sockip sockport).Keeps [] :=
  ⟨create_holds machineID sockip sockport, rfl⟩

/-- The index counts the chunk, whether `tmprecv` has room for it or not. -/
theorem Holds.takeReceived_length {m : Machine} {kept chunk : List Byte} (holds : m.Holds kept)
    (fits : chunk.length ≤ MAX_RECV_BUFFER_SIZE) :
    (m.receive chunk).takeReceived.tmprecvIndex = kept.length + chunk.length := by
  obtain ⟨size, -⟩ := SocketManage.recvMsg_ofChunk holds.handedOver fits
  have bounded : (m.recvMsg (RecvOutcome.ofChunk chunk)).recvIdx ≤ MAX_RECV_BUFFER_SIZE := by omega
  rw [← holds.length, ← size]
  exact SocketManage.getRecvBuf_length _ m.tmprecv m.tmprecvIndex bounded

theorem Keeps.takeReceived {m : Machine} {kept chunk : List Byte} (keeps : m.Keeps kept)
    (fits : chunk.length ≤ MAX_RECV_BUFFER_SIZE) (room : kept.length + chunk.length < TMORECV_MAX_SIZE) :
    (m.receive chunk).takeReceived.Keeps (kept ++ chunk) := by
  obtain ⟨size, -⟩ := SocketManage.recvMsg_ofChunk keeps.holds.handedOver fits
  have length := keeps.holds.length
  obtain ⟨-, -, overrun, -⟩ := SocketManage.getRecvBuf_spec
    (m.recvMsg (RecvOutcome.ofChunk chunk)) m.tmprecv m.tmprecvIndex (by omega) (by omega)
  exact ⟨keeps.holds.takeReceived fits room, overrun.trans keeps.inBounds⟩

/-- Neither branch behind the loop writes outside. -/
theorem keepUnfinished_overrun {m next : Machine} {scan : FinishedScan} {infos : List FlowEndInfo}
    (kept : (m.keepUnfinished scan).bind (fun next =>
      some (next.flowsFinishedInfo, { next with flowsFinishedInfo := [] })) = some (infos, next))
    (room : m.tmprecvIndex < TMORECV_MAX_SIZE) (positive : 0 < scan.flowStartIndex)
    (within : scan.flowStartIndex.toNat ≤ m.tmprecvIndex) (inBounds : scan.tmprecv.overrun = false) :
    next.tmprecv.overrun = false := by
  unfold Machine.keepUnfinished at kept
  dsimp only at kept
  split at kept
  · rw [if_neg (by omega), Option.bind_some, Option.some.injEq, Prod.mk.injEq] at kept
    obtain ⟨-, rfl⟩ := kept
    obtain ⟨-, overrun⟩ := scan.tmprecv.slice_moveFront lparen 0 (by omega) within room
    exact overrun.trans inBounds
  · rw [Option.bind_some, Option.some.injEq, Prod.mk.injEq] at kept
    obtain ⟨-, rfl⟩ := kept
    exact (CArray.overrun_store _ _ (by decide)).trans inBounds

/-- A poll that finds an opening bracket first stays in bounds, whatever its
two locals held before. -/
theorem Keeps.poll {m : Machine} {kept chunk : List Byte} (keeps : m.Keeps kept) (nonempty : chunk ≠ [])
    (fits : chunk.length ≤ MAX_RECV_BUFFER_SIZE) (room : kept.length + chunk.length < TMORECV_MAX_SIZE)
    (opens : OpensFirst lparen rparen (kept ++ chunk)) (flowEndIndex flowStartIndex : CInt) :
    ∃ infos next, m.poll chunk flowEndIndex flowStartIndex = some (infos, next) ∧
      next.Keeps (keptText flowEndIndex (kept ++ chunk)) := by
  have filled := keeps.takeReceived fits room
  have length := filled.holds.length
  have buffer := filled.holds.buffer
  rw [← List.length_append] at room
  rw [length] at buffer
  generalize kept ++ chunk = text at opens filled length buffer room ⊢
  obtain ⟨scan, run, located, -⟩ := scan_located (m.receive chunk).takeReceived.tmprecv flowEndIndex.val
    flowStartIndex.val (Nat.le_of_lt room) (by rw [buffer]; exact opens.begun lparen_ne_rparen)
  obtain ⟨-, started, content, before, after, inBounds⟩ := located
  rw [buffer] at started content before after
  obtain ⟨start, startIndex, width⟩ := started opens.mem
  have shorter := since_lt_length opens.mem
  have positive : 0 < start := by omega
  -- what is done behind the loop depends on the two indices alone
  have order : (scan.flowEndIndex < scan.flowStartIndex ∧ Open lparen rparen text ∧
        keptText flowEndIndex text = carry lparen rparen text) ∨
      (¬ scan.flowEndIndex < scan.flowStartIndex ∧ keptText flowEndIndex text = []) := by
    by_cases someClose : rparen ∈ text
    · have whole : keptText flowEndIndex text = carry lparen rparen text := if_pos (Or.inl someClose)
      rw [whole, (after someClose).2]
      by_cases opened : Open lparen rparen text
      · exact Or.inl ⟨opened, opened, rfl⟩
      · exact Or.inr ⟨opened, if_neg opened⟩
    · have opened := open_of_no_close opens.mem someClose
      have same := before someClose
      by_cases below : flowEndIndex.val < (text.length - (since lparen text).length : Nat)
      · exact Or.inl ⟨by omega, opened, if_pos (Or.inr below)⟩
      · exact Or.inr ⟨by omega, if_neg (not_or.mpr ⟨someClose, below⟩)⟩
  have ran : (m.receive chunk).takeReceived.scanFinished flowEndIndex.val flowStartIndex.val = some scan := by
    rw [scanFinished, length]
    exact run
  rw [poll_eq keeps.holds nonempty fits, ran, Option.bind_some]
  have result : ∃ next, ((m.receive chunk).takeReceived.keepUnfinished scan).bind (fun next =>
        some (next.flowsFinishedInfo, { next with flowsFinishedInfo := [] })) = some (scan.pushed, next) ∧
      next.Holds (keptText flowEndIndex text) := by
    rcases order with ⟨below, opened, kept⟩ | ⟨notBelow, kept⟩
    · rw [kept, carry, if_pos opened, ← content opened start startIndex]
      exact filled.holds.keepUnfinished room startIndex below positive (by omega)
    · rw [kept]
      exact filled.holds.discard notBelow
  obtain ⟨next, done, holds⟩ := result
  refine ⟨scan.pushed, next, done, holds, ?_⟩
  exact keepUnfinished_overrun done (by omega) (by omega) (by omega) (inBounds.trans filled.inBounds)

/-- A poll that finds no opening bracket first reads outside for some values of
its two locals. -/
theorem Keeps.poll_strays {m : Machine} {kept chunk : List Byte} (keeps : m.Keeps kept) (nonempty : chunk ≠ [])
    (fits : chunk.length ≤ MAX_RECV_BUFFER_SIZE) (room : kept.length + chunk.length < TMORECV_MAX_SIZE)
    (strays : ¬ OpensFirst lparen rparen (kept ++ chunk)) :
    m.poll chunk (CInt.clamp (-2)) (CInt.clamp (-1)) = none := by
  rcases first_bracket lparen rparen (kept ++ chunk) with clean | opens | ⟨run, rest, split, clean⟩
  · have filled := keeps.holds.takeReceived fits room
    have length := filled.length
    have buffer := filled.buffer
    rw [← List.length_append] at room
    rw [length] at buffer
    rw [poll_eq keeps.holds nonempty fits, scanFinished, length,
      scan_quiet (Nat.le_of_lt room) (by rw [buffer]; exact clean), Option.bind_some]
    rfl
  · exact absurd opens strays
  · exact keeps.holds.poll_stray nonempty fits room split clean _ (by decide)

/-- The last chunk has no closing bracket. -/
def Unclosed (chunks : List (List Byte)) : Prop := ∃ front chunk, chunks = front ++ [chunk] ∧ rparen ∉ chunk

/-- Each chunk fits behind the frame that the bytes before it leave open, and
where that frame may be missing the chunk begins one before it closes any. -/
def Fitting : List (List Byte) → Prop :=
  Along fun front chunk =>
    (carry lparen rparen front.flatten).length + chunk.length < TMORECV_MAX_SIZE ∧
      (carry lparen rparen front.flatten = [] ∨ Unclosed front → OpensFirst lparen rparen chunk)

/-- Every poll of a received chunk stays inside `tmprecv`, whatever its two
locals held before. -/
def InBounds (machineID : Nat) (sockip : List Byte) (sockport : Int) : List (List Byte) → Prop :=
  Along fun front chunk => ∀ ends starts : Nat → CInt,
    (∃ infos m, (create machineID sockip sockport).pollAll ends starts front = some (infos, m) ∧
      (m.receive chunk).takeReceived.tmprecvIndex + 1 ≤ TMORECV_MAX_SIZE) ∧
    ∃ infos m, (create machineID sockip sockport).pollAll ends starts (front ++ [chunk]) = some (infos, m) ∧
      m.tmprecv.overrun = false

/-- The two texts that the machine can hold. -/
theorem Fitting.keptAll_cases {chunks : List (List Byte)} (fitting : Fitting chunks) (ends : Nat → CInt) :
    keptAll ends chunks = carry lparen rparen chunks.flatten ∨ Unclosed chunks ∧ keptAll ends chunks = [] := by
  induction chunks using List.reverseRecOn with
  | nil => exact Or.inl rfl
  | append_singleton front chunk ih =>
    obtain ⟨before, -, opens⟩ := along_concat_iff.mp fitting
    have carried : carry lparen rparen (keptAll ends front ++ chunk) =
        carry lparen rparen (front ++ [chunk]).flatten := by
      rw [List.flatten_append, List.flatten_singleton]
      rcases ih before with same | ⟨unclosed, nothing⟩
      · rw [same, carry_carry lparen_ne_rparen]
      · rw [nothing, List.nil_append, carry_append_of_mem lparen_ne_rparen _ (opens (Or.inr unclosed)).mem]
    rw [keptAll_concat, keptText, ← carried]
    split
    · exact Or.inl rfl
    · rename_i dropped
      have noClose : rparen ∉ chunk := fun member => dropped (Or.inl (List.mem_append_right _ member))
      exact Or.inr ⟨⟨front, chunk, rfl, noClose⟩, rfl⟩

theorem Fitting.keptAll_opens {front : List (List Byte)} {chunk : List Byte} (fitting : Fitting (front ++ [chunk]))
    (ends : Nat → CInt) : (keptAll ends front).length + chunk.length < TMORECV_MAX_SIZE ∧
      OpensFirst lparen rparen (keptAll ends front ++ chunk) := by
  obtain ⟨before, room, opens⟩ := along_concat_iff.mp fitting
  rcases Fitting.keptAll_cases before ends with same | ⟨unclosed, nothing⟩
  · rw [same]
    refine ⟨room, ?_⟩
    by_cases closed : carry lparen rparen front.flatten = []
    · rw [closed]
      exact opens (Or.inl closed)
    · have frame : carry lparen rparen front.flatten = lparen :: since lparen front.flatten := by
        rw [carry] at closed ⊢
        exact if_pos (by_contra fun notOpen => closed (if_neg notOpen))
      rw [frame]
      exact ⟨[], _, rfl, by simp⟩
  · rw [nothing]
    exact ⟨by rw [List.length_nil]; omega, opens (Or.inr unclosed)⟩

theorem Fitting.pollAll {m : Machine} (keeps : m.Keeps []) {chunks : List (List Byte)}
    (sizes : ∀ chunk ∈ chunks, chunk ≠ [] ∧ chunk.length ≤ MAX_RECV_BUFFER_SIZE) (fitting : Fitting chunks)
    (ends starts : Nat → CInt) :
    ∃ infos last, m.pollAll ends starts chunks = some (infos, last) ∧ last.Keeps (keptAll ends chunks) := by
  induction chunks using List.reverseRecOn with
  | nil => exact ⟨[], m, rfl, keeps⟩
  | append_singleton front chunk ih =>
    obtain ⟨nonempty, fits⟩ := sizes chunk (by simp)
    obtain ⟨infos, before, run, kept⟩ := ih (fun c member => sizes c (by simp [member])) (along_concat_iff.mp fitting).1
    obtain ⟨room, opens⟩ := fitting.keptAll_opens ends
    obtain ⟨more, last, polled, keptLast⟩ :=
      kept.poll nonempty fits room opens (ends front.length) (starts front.length)
    rw [keptAll_concat]
    exact ⟨_, last, by rw [pollAll_concat, run, Option.bind_some, polled, Option.bind_some], keptLast⟩

/-- Values of `flowEndIndex` for which the frame left open by the first `n`
chunks is dropped, and no other. -/
def dropsAt (n k : Nat) : CInt := if k + 1 = n then CInt.clamp 2147483647 else CInt.clamp (-2)

theorem keptAll_negative {ends : Nat → CInt} {chunks : List (List Byte)}
    (negative : ∀ k, k < chunks.length → (ends k).val < 0) :
    keptAll ends chunks = carry lparen rparen chunks.flatten := by
  induction chunks using List.reverseRecOn with
  | nil => rfl
  | append_singleton front chunk ih =>
    have earlier := ih fun k below => negative k (by rw [List.length_append]; omega)
    have last := negative front.length (by simp)
    rw [keptAll_concat, earlier, keptText, if_pos (Or.inr (by omega)), carry_carry lparen_ne_rparen,
      List.flatten_append, List.flatten_singleton]

theorem Fitting.keptAll_dropped {chunks : List (List Byte)} (fitting : Fitting chunks) (unclosed : Unclosed chunks)
    {ends : Nat → CInt} (large : ∀ k, k + 1 = chunks.length → (ends k).val = 2147483647) :
    keptAll ends chunks = [] := by
  obtain ⟨front, chunk, rfl, noClose⟩ := unclosed
  obtain ⟨room, -⟩ := fitting.keptAll_opens ends
  have frame : rparen ∉ keptAll ends front := by
    rcases Fitting.keptAll_cases (along_concat_iff.mp fitting).1 ends with same | ⟨-, same⟩
    · rw [same]
      exact fun member => carry_no_close lparen_ne_rparen _ rparen member rfl
    · rw [same]
      exact List.not_mem_nil
  have last := large front.length (by simp)
  rw [keptAll_concat, keptText, if_neg]
  rw [last, List.mem_append, List.length_append]
  simp only [TMORECV_MAX_SIZE] at room
  rintro ((inFrame | inChunk) | below)
  · exact frame inFrame
  · exact noClose inChunk
  · omega

/-- The machine stays in bounds for all initial values of its two locals if and
only if the chunks fit. -/
theorem inBounds_iff_fitting (machineID : Nat) (sockip : List Byte) (sockport : Int) {chunks : List (List Byte)}
    (sizes : ∀ chunk ∈ chunks, chunk ≠ [] ∧ chunk.length ≤ MAX_RECV_BUFFER_SIZE) :
    InBounds machineID sockip sockport chunks ↔ Fitting chunks := by
  have keeps := create_keeps machineID sockip sockport
  refine along_congr fun front chunk within fitting => ?_
  have members (c : List Byte) (member : c ∈ front ++ [chunk]) := sizes c (within.mem member)
  have earlier (c : List Byte) (member : c ∈ front) := members c (List.mem_append_left _ member)
  obtain ⟨nonempty, fits⟩ := members chunk (by simp)
  -- the values of `ends` decide what is held, those of `starts` are all before the array
  let below (_ : Nat) : CInt := CInt.clamp (-1)
  have held (ends : Nat → CInt) := Fitting.pollAll keeps earlier fitting ends below
  constructor
  · intro inBounds
    have room : (carry lparen rparen front.flatten).length + chunk.length < TMORECV_MAX_SIZE := by
      obtain ⟨⟨infos, m, run, counted⟩, -⟩ := inBounds (fun _ => CInt.clamp (-2)) below
      obtain ⟨_, _, run', kept⟩ := held fun _ => CInt.clamp (-2)
      rw [run] at run'
      cases run'
      rw [kept.holds.takeReceived_length fits, keptAll_negative fun _ _ => by decide] at counted
      exact counted
    refine ⟨room, fun missing => ?_⟩
    have nothing : keptAll (dropsAt front.length) front = [] := by
      rcases missing with closed | unclosed
      · rcases Fitting.keptAll_cases fitting (dropsAt front.length) with same | ⟨-, same⟩
        · rw [same, closed]
        · exact same
      · exact Fitting.keptAll_dropped fitting unclosed fun k last => by rw [dropsAt, if_pos last]; rfl
    have negative : dropsAt front.length front.length = CInt.clamp (-2) := if_neg (Nat.succ_ne_self _)
    by_contra strays
    obtain ⟨-, infos, m, run, -⟩ := inBounds (dropsAt front.length) below
    obtain ⟨_, last, run', kept⟩ := held (dropsAt front.length)
    rw [nothing] at kept
    have outside := kept.poll_strays nonempty fits (by rw [List.length_nil]; omega) strays
    rw [pollAll_concat, run', Option.bind_some, negative, outside] at run
    cases run
  · rintro ⟨room, opens⟩ ends starts
    have whole : Fitting (front ++ [chunk]) := along_concat_iff.mpr ⟨fitting, room, opens⟩
    obtain ⟨infos, m, run, kept⟩ := Fitting.pollAll keeps earlier fitting ends starts
    obtain ⟨infos', m', run', kept'⟩ := Fitting.pollAll keeps members whole ends starts
    refine ⟨⟨infos, m, run, ?_⟩, infos', m', run', kept'.inBounds⟩
    rw [kept.holds.takeReceived_length fits]
    exact (whole.keptAll_opens ends).1

end Machine

/-- The client's buffer and the machine's stay in bounds for exactly the chunks
that fit them. -/
theorem accumulators_inBounds_iff {chunks : List (List Byte)} (machineID : Nat) (sockip : List Byte) (sockport : Int)
    (sizes : ∀ chunk ∈ chunks, chunk ≠ [] ∧ chunk.length ≤ MAX_RECV_BUFFER_SIZE) :
    (EventLoop.InBounds chunks ↔ EventLoop.Fitting chunks) ∧
      (Machine.InBounds machineID sockip sockport chunks ↔ Machine.Fitting chunks) :=
  ⟨EventLoop.inBounds_iff_fitting fun chunk member => (sizes chunk member).2,
    Machine.inBounds_iff_fitting machineID sockip sockport sizes⟩

theorem accumulators_inBounds_iff_cut :
    (EventLoop.InBounds [[40, 49], [41]] ↔ EventLoop.Fitting [[40, 49], [41]]) ∧
      (Machine.InBounds 0 [] 0 [[40, 49], [41]] ↔ Machine.Fitting [[40, 49], [41]]) :=
  accumulators_inBounds_iff 0 [] 0 (by decide)

/-- A hundred bytes and a closing bracket are too many for `ins_tmp`; a closing
bracket alone is read from before `tmprecv`. -/
theorem stray_brackets_stray :
    ¬ (∀ chunks : List (List Byte), (∀ chunk ∈ chunks, chunk ≠ [] ∧ chunk.length ≤ MAX_RECV_BUFFER_SIZE) →
      EventLoop.InBounds chunks) ∧
    ¬ ∀ chunks : List (List Byte), (∀ chunk ∈ chunks, chunk ≠ [] ∧ chunk.length ≤ MAX_RECV_BUFFER_SIZE) →
      Machine.InBounds 0 [] 0 chunks := by
  constructor
  · intro always
    have size : (List.replicate 100 48 ++ [rparen]).length ≤ MAX_RECV_BUFFER_SIZE := by decide
    have inBounds := always [List.replicate 100 48 ++ [rparen]] (List.forall_mem_singleton.mpr ⟨by decide, size⟩)
    have fitting := (EventLoop.inBounds_iff_fitting (List.forall_mem_singleton.mpr size)).mp inBounds
    obtain ⟨-, short⟩ := fitting [] _ (List.prefix_refl _)
    exact absurd short (by decide +kernel)
  · intro always
    have sizes : ∀ chunk ∈ [[rparen]], chunk ≠ [] ∧ chunk.length ≤ MAX_RECV_BUFFER_SIZE := by decide
    have fitting := (Machine.inBounds_iff_fitting 0 [] 0 sizes).mp (always [[rparen]] sizes)
    obtain ⟨-, opens⟩ := fitting [] [rparen] (List.prefix_refl _)
    have begins : lparen ∈ [rparen] := (opens (Or.inl rfl)).mem
    exact lparen_ne_rparen (List.mem_singleton.mp begins)

end CoflowSim
