import CoflowSim.Master.Machine
import CoflowSim.Lib.Framing

namespace CoflowSim
open Lib Lib.Framing

/-- What `"(%d %d %ld)"` prints between its brackets. -/
def replyBody (coflow_id flow_id : CInt) (end_time : Int) : List Byte :=
  showInt coflow_id.val ++ (space :: showInt flow_id.val ++ (space :: showInt end_time))

theorem replyBody_bytes (coflow_id flow_id : CInt) (end_time : Int) :
    ∀ b ∈ replyBody coflow_id flow_id end_time, b ≠ lparen ∧ b ≠ rparen ∧ b ≠ 0 := by
  have digit (b : Byte) (valid : isDigit b = true ∨ b = minus) : b ≠ lparen ∧ b ≠ rparen ∧ b ≠ 0 := by
    refine ⟨?_, ?_, ?_⟩ <;> rintro rfl <;> revert valid <;> decide
  have blank : space ≠ lparen ∧ space ≠ rparen ∧ space ≠ 0 := by decide
  intro b member
  simp only [replyBody, List.mem_append, List.cons_append, List.mem_cons] at member
  rcases member with inFirst | rfl | inSecond | rfl | inThird
  · exact digit b (showInt_bytes b inFirst)
  · exact blank
  · exact digit b (showInt_bytes b inSecond)
  · exact blank
  · exact digit b (showInt_bytes b inThird)

namespace FlowEndInfo

/-- What stands between the brackets of `(%d %d %d)`. -/
def body (info : FlowEndInfo) : List Byte :=
  showInt info.coflowID.val ++ (space :: showInt info.flowID.val ++ (space :: showInt info.endTime.val))

/-- The frame of a completion record. -/
def print (info : FlowEndInfo) : List Byte := wrap lparen rparen info.body

/-- A printed time comes back as the nearest `int`. -/
theorem parse_replyBody (coflow_id flow_id : CInt) (end_time : Int) :
    parse (replyBody coflow_id flow_id end_time) = ⟨coflow_id, flow_id, CInt.clamp end_time⟩ := by
  have blank : ∀ b ∈ [space], isSpace b = true := List.forall_mem_singleton.mpr (by decide)
  have ends (rest : List Byte) : EndsNumber (space :: rest) := by
    intro b first
    cases first
    decide
  have noSpace : ∀ b ∈ ([] : List Byte), isSpace b = true := by simp
  have atEnd : EndsNumber ([] : List Byte) := nofun
  have first := readInt_showInt noSpace coflow_id (ends (showInt flow_id.val ++ (space :: showInt end_time)))
  have second := readInt_showInt blank flow_id (ends (showInt end_time))
  have third := readInt_showInt_clamp blank end_time atEnd
  simp only [List.nil_append, List.append_nil, List.cons_append] at first second third
  simp only [parse, replyBody, List.cons_append, first, second, third, Option.getD_some]

theorem parse_body (info : FlowEndInfo) : parse info.body = info := by
  rw [show info.body = replyBody info.coflowID info.flowID info.endTime.val from rfl, parse_replyBody, CInt.clamp_val]

theorem body_bytes (info : FlowEndInfo) : ∀ b ∈ info.body, b ≠ lparen ∧ b ≠ rparen ∧ b ≠ 0 :=
  replyBody_bytes info.coflowID info.flowID info.endTime.val

theorem showInt_length (z : CInt) : (showInt z.val).length ≤ 11 := by
  obtain ⟨z, low, high⟩ := z
  cases z with
  | ofNat n =>
    have small : n < 10 ^ 10 := by simp only [Int.ofNat_eq_natCast] at high; omega
    exact Nat.le_succ_of_le ((showNat_length_le_iff (by decide)).mpr small)
  | negSucc n =>
    have small : n + 1 < 10 ^ 10 := by simp only [Int.negSucc_eq] at low; omega
    exact Nat.succ_le_succ ((showNat_length_le_iff (by decide)).mpr small)

theorem body_length (info : FlowEndInfo) : info.body.length ≤ 35 := by
  have first := showInt_length info.coflowID
  have second := showInt_length info.flowID
  have third := showInt_length info.endTime
  simp only [body, List.length_append, List.length_cons]
  omega

end FlowEndInfo

/-- The completion stream of a list of records. -/
def completions (infos : List FlowEndInfo) : List Byte := infos.flatMap FlowEndInfo.print

theorem completions_packed (infos : List FlowEndInfo) :
    Packed lparen rparen (completions infos) ∧ ¬ Open lparen rparen (completions infos) ∧
      frames lparen rparen [] (completions infos) = infos.map FlowEndInfo.body := by
  have clean : ∀ run ∈ infos.map FlowEndInfo.body, ∀ b ∈ run, b ≠ lparen ∧ b ≠ rparen := by
    intro run member b inside
    obtain ⟨info, _, rfl⟩ := List.mem_map.mp member
    exact ⟨(info.body_bytes b inside).1, (info.body_bytes b inside).2.1⟩
  have stream : completions infos = (infos.map FlowEndInfo.body).flatMap (wrap lparen rparen) := by
    rw [List.flatMap_map]
    rfl
  rw [stream]
  exact packed_flatMap lparen_ne_rparen clean

theorem completions_no_nul (infos : List FlowEndInfo) : 0 ∉ completions infos := by
  intro member
  obtain ⟨info, _, inside⟩ := List.mem_flatMap.mp member
  simp only [FlowEndInfo.print, wrap, List.cons_append, List.mem_cons, List.mem_append, List.not_mem_nil,
    or_false] at inside
  rcases inside with same | inBody | same
  · exact absurd same (by decide)
  · exact (info.body_bytes 0 inBody).2.2 rfl
  · exact absurd same (by decide)

/-- Where the loop over `tmprecv` stands after `i` bytes of the text it found
there. The open frame is still in the buffer; `flowEndIndex` holds its initial
value until the first closing bracket. -/
structure FinishedScan.At (buf : CArray Byte TMORECV_MAX_SIZE) (flowEndIndex : Int) (i : Nat)
    (scan : FinishedScan) : Prop where
  pushed : scan.pushed = (frames lparen rparen [] (buf.slice 0 i)).map FlowEndInfo.parse
  ahead : ∀ j, i ≤ j → scan.tmprecv.load j = buf.load j
  opened : Open lparen rparen (buf.slice 0 i) → ∃ start : Nat, scan.flowStartIndex = start ∧
    start + (since lparen (buf.slice 0 i)).length = i ∧
    scan.tmprecv.slice start i = since lparen (buf.slice 0 i)
  before : rparen ∉ buf.slice 0 i → scan.flowEndIndex = flowEndIndex
  after : rparen ∈ buf.slice 0 i → scan.flowEndIndex < i ∧
    (scan.flowEndIndex < scan.flowStartIndex ↔ Open lparen rparen (buf.slice 0 i))

/-- What the loop keeps on any text with an opening bracket before its first
closing one, well formed or not. -/
structure FinishedScan.Located (buf : CArray Byte TMORECV_MAX_SIZE) (flowEndIndex : Int) (i : Nat)
    (scan : FinishedScan) : Prop where
  ahead : ∀ j, i ≤ j → scan.tmprecv.load j = buf.load j
  started : lparen ∈ buf.slice 0 i → ∃ start : Nat, scan.flowStartIndex = start ∧
    start + (since lparen (buf.slice 0 i)).length = i
  content : Open lparen rparen (buf.slice 0 i) → ∀ start : Nat, scan.flowStartIndex = start →
    scan.tmprecv.slice start i = since lparen (buf.slice 0 i)
  before : rparen ∉ buf.slice 0 i → scan.flowEndIndex = flowEndIndex
  after : rparen ∈ buf.slice 0 i → scan.flowEndIndex < i ∧
    (scan.flowEndIndex < scan.flowStartIndex ↔ Open lparen rparen (buf.slice 0 i))
  inBounds : scan.tmprecv.overrun = buf.overrun

theorem FinishedScan.Located.at {buf : CArray Byte TMORECV_MAX_SIZE} {flowEndIndex : Int} {i : Nat}
    {scan : FinishedScan} (located : scan.Located buf flowEndIndex i)
    (pushed : scan.pushed = (frames lparen rparen [] (buf.slice 0 i)).map FlowEndInfo.parse) :
    scan.At buf flowEndIndex i := by
  refine ⟨pushed, located.ahead, fun opened => ?_, located.before, located.after⟩
  obtain ⟨start, startIndex, width⟩ := located.started opened.mem
  exact ⟨start, startIndex, width, located.content opened start startIndex⟩

section
variable {buf : CArray Byte TMORECV_MAX_SIZE} {flowEndIndex : Int} {i : Nat} {scan : FinishedScan}

theorem FinishedScan.Located.byte_open (located : scan.Located buf flowEndIndex i) (room : i < TMORECV_MAX_SIZE)
    (isOpen : buf.load i = lparen) : { scan with flowStartIndex := i + 1 }.Located buf flowEndIndex (i + 1) := by
  have text : buf.slice 0 (i + 1) = buf.slice 0 i ++ [lparen] := isOpen ▸ buf.slice_succ (Nat.zero_le i) room
  have nothing : since lparen (buf.slice 0 (i + 1)) = [] := by rw [text, since_concat, if_pos rfl]
  refine ⟨fun j later => located.ahead j (by omega), ?_, ?_, ?_, ?_, located.inBounds⟩
  · intro _
    refine ⟨i + 1, by push_cast; rfl, ?_⟩
    rw [nothing, List.length_nil]
  · intro _ start startIndex
    have same : start = i + 1 := by
      have both : ((i : Int) + 1) = start := startIndex
      omega
    rw [same, nothing, CArray.slice_self]
  · intro noClose
    rw [text, List.mem_append, not_or] at noClose
    exact located.before noClose.1
  · intro someClose
    rw [text, List.mem_append, List.mem_singleton] at someClose
    obtain ⟨below, -⟩ := located.after (someClose.resolve_right lparen_ne_rparen.symm)
    rw [text]
    refine ⟨by push_cast; omega, iff_of_true ?_ (open_concat_open lparen_ne_rparen _)⟩
    exact (show scan.flowEndIndex < (i : Int) + 1 by omega)

/-- The NUL that ends the record is behind everything that is still to be read. -/
theorem FinishedScan.Located.byte_close (located : scan.Located buf flowEndIndex i) (room : i < TMORECV_MAX_SIZE)
    (isClose : buf.load i = rparen) (begun : lparen ∈ buf.slice 0 i) (pushed : List FlowEndInfo) :
    { scan with tmprecv := scan.tmprecv.store i 0, flowEndIndex := i, pushed }.Located buf flowEndIndex (i + 1) := by
  have text : buf.slice 0 (i + 1) = buf.slice 0 i ++ [rparen] := isClose ▸ buf.slice_succ (Nat.zero_le i) room
  obtain ⟨start, startIndex, width⟩ := located.started begun
  have grown : since lparen (buf.slice 0 (i + 1)) = since lparen (buf.slice 0 i) ++ [rparen] := by
    rw [text, since_concat, if_neg lparen_ne_rparen.symm]
  have closed : ¬ Open lparen rparen (buf.slice 0 (i + 1)) := by
    rw [text]
    exact not_open_concat_close _
  refine ⟨?_, ?_, fun opened => absurd opened closed, ?_, ?_, ?_⟩
  · intro j later
    exact (scan.tmprecv.load_store_ne 0 (by omega)).trans (located.ahead j (by omega))
  · intro _
    refine ⟨start, startIndex, ?_⟩
    rw [grown, List.length_append, List.length_singleton]
    omega
  · intro noClose
    rw [text] at noClose
    simp at noClose
  · intro _
    refine ⟨by push_cast; exact Int.lt_succ _, iff_of_false ?_ closed⟩
    exact (show ¬ (i : Int) < scan.flowStartIndex by omega)
  · exact (scan.tmprecv.overrun_store 0 room).trans located.inBounds

theorem FinishedScan.Located.byte_other (located : scan.Located buf flowEndIndex i) (room : i < TMORECV_MAX_SIZE)
    (notOpen : buf.load i ≠ lparen) (notClose : buf.load i ≠ rparen) : scan.Located buf flowEndIndex (i + 1) := by
  have text : buf.slice 0 (i + 1) = buf.slice 0 i ++ [buf.load i] := buf.slice_succ (Nat.zero_le i) room
  have agree := open_concat_other (buf.slice 0 i) notOpen notClose
  have grown : since lparen (buf.slice 0 (i + 1)) = since lparen (buf.slice 0 i) ++ [buf.load i] := by
    rw [text, since_concat, if_neg notOpen]
  refine ⟨fun j later => located.ahead j (by omega), ?_, ?_, ?_, ?_, located.inBounds⟩
  · intro begun
    rw [text, List.mem_append, List.mem_singleton] at begun
    obtain ⟨start, startIndex, width⟩ := located.started (begun.resolve_right fun same => notOpen same.symm)
    refine ⟨start, startIndex, ?_⟩
    rw [grown, List.length_append, List.length_singleton]
    omega
  · intro opened start startIndex
    rw [text] at opened
    obtain ⟨start', startIndex', width⟩ := located.started (agree.mp opened).mem
    have content := located.content (agree.mp opened) start startIndex
    rw [grown, scan.tmprecv.slice_succ (by omega) room, content, located.ahead i le_rfl]
  · intro noClose
    rw [text, List.mem_append, not_or] at noClose
    exact located.before noClose.1
  · intro someClose
    rw [text, List.mem_append, List.mem_singleton] at someClose
    obtain ⟨below, order⟩ := located.after (someClose.resolve_right fun same => notClose same.symm)
    rw [text]
    exact ⟨by push_cast; omega, order.trans agree.symm⟩

/-- One byte; a closing bracket pushes the record of an open frame without a
NUL. -/
theorem FinishedScan.Located.byte (located : scan.Located buf flowEndIndex i) (room : i < TMORECV_MAX_SIZE)
    (begun : buf.load i = rparen → lparen ∈ buf.slice 0 i) :
    ∃ next, scan.byte i = some next ∧ next.Located buf flowEndIndex (i + 1) ∧
      ((buf.load i = rparen → Open lparen rparen (buf.slice 0 i)) → 0 ∉ buf.slice 0 i →
        next.pushed = scan.pushed ++
          if buf.load i = rparen then [FlowEndInfo.parse (since lparen (buf.slice 0 i))] else []) := by
  have here : scan.tmprecv.load i = buf.load i := located.ahead i le_rfl
  by_cases isOpen : buf.load i = lparen
  · have notClose : buf.load i ≠ rparen := by rw [isOpen]; exact lparen_ne_rparen
    refine ⟨_, ?_, located.byte_open room isOpen, fun _ _ => by rw [if_neg notClose, List.append_nil]⟩
    simp only [FinishedScan.byte, here, isOpen, lparen_ne_rparen, if_true, if_false]
  by_cases isClose : buf.load i = rparen
  · obtain ⟨start, startIndex, width⟩ := located.started (begun isClose)
    have nul := scan.tmprecv.getElem?_store_self 0 room
    obtain ⟨body, read⟩ : ∃ body, (scan.tmprecv.store i 0).cString 0 scan.flowStartIndex = some body := by
      rw [startIndex]
      exact CArray.cString_isSome _ (show start ≤ i by omega) nul
    refine ⟨_, ?_, located.byte_close room isClose (begun isClose) (scan.pushed ++ [FlowEndInfo.parse body]), ?_⟩
    · simp only [FinishedScan.byte, here, isClose, lparen_ne_rparen.symm, if_true, if_false, read, Option.map_some]
    · intro opened clean
      have content := located.content (opened isClose) start startIndex
      have whole := CArray.cString_eq _ ((scan.tmprecv.slice_store_outside _ (Or.inr le_rfl)).trans content)
        (fun member => clean ((List.rtakeWhile_suffix _ _).mem member)) (by omega) nul
      rw [startIndex] at read
      rw [if_pos isClose, Option.some.inj (read.symm.trans whole)]
  · refine ⟨scan, ?_, located.byte_other room isOpen isClose, fun _ _ => by rw [if_neg isClose, List.append_nil]⟩
    simp only [FinishedScan.byte, here, isOpen, isClose, if_false]

end

/-- The loop over a buffer with an opening bracket before its first closing
one, whatever the two locals held before. -/
theorem scan_located (buf : CArray Byte TMORECV_MAX_SIZE) (flowEndIndex flowStartIndex : Int) {len : Nat}
    (room : len ≤ TMORECV_MAX_SIZE) (begun : Begun lparen rparen (buf.slice 0 len)) :
    ∃ scan, (List.range len).foldlM FinishedScan.byte ⟨buf, flowEndIndex, flowStartIndex, []⟩ = some scan ∧
      scan.Located buf flowEndIndex len ∧
      (Closes lparen rparen (buf.slice 0 len) → 0 ∉ buf.slice 0 len →
        scan.pushed = (frames lparen rparen [] (buf.slice 0 len)).map FlowEndInfo.parse) := by
  induction len with
  | zero =>
    refine ⟨_, rfl, ⟨fun _ _ => rfl, ?_, ?_, fun _ => rfl, ?_, rfl⟩, fun _ _ => by simp [frames]⟩
    · simp
    · simp [Open, since]
    · simp
  | succ i ih =>
    have text : buf.slice 0 (i + 1) = buf.slice 0 i ++ [buf.load i] := buf.slice_succ (Nat.zero_le i) (by omega)
    rw [text] at begun
    obtain ⟨scan, run, located, decoded⟩ := ih (by omega) begun.prefix
    obtain ⟨next, step, at_next, pushed⟩ := located.byte (by omega)
      fun isClose => begun _ ⟨[], by rw [isClose, List.append_nil]⟩
    refine ⟨next, ?_, at_next, fun closes clean => ?_⟩
    · rw [List.range_succ, List.foldlM_append, run]
      simpa using step
    · rw [text] at closes clean
      have earlier : 0 ∉ buf.slice 0 i := fun member => clean (List.mem_append_left _ member)
      rw [pushed (fun isClose => closes _ ⟨[], by rw [isClose, List.append_nil]⟩) earlier,
        decoded closes.prefix earlier, text, frames_concat, List.nil_append, List.map_append]
      split <;> rfl

/-- The loop over a buffer whose brackets close reads every frame of it,
whatever the two locals held before. -/
theorem scan_at (buf : CArray Byte TMORECV_MAX_SIZE) (flowEndIndex flowStartIndex : Int) {len : Nat}
    (room : len ≤ TMORECV_MAX_SIZE) (closes : Closes lparen rparen (buf.slice 0 len)) (clean : 0 ∉ buf.slice 0 len) :
    ∃ scan, (List.range len).foldlM FinishedScan.byte ⟨buf, flowEndIndex, flowStartIndex, []⟩ = some scan ∧
      scan.At buf flowEndIndex len := by
  obtain ⟨scan, run, located, pushed⟩ := scan_located buf flowEndIndex flowStartIndex room closes.begun
  exact ⟨scan, run, located.at (pushed closes clean)⟩

namespace Machine

theorem drain_eq (m : Machine) : m.drain = (m.flowsFinishedInfo, { m with flowsFinishedInfo := [] }) := by
  generalize queue : m.flowsFinishedInfo = infos
  induction infos generalizing m with
  | nil =>
    rw [drain]
    split
    · rw [← queue]
    · rename_i taken
      simp [getOneFlowEndInfo, queue] at taken
  | cons info infos ih =>
    rw [drain]
    split
    · rename_i taken
      simp [getOneFlowEndInfo, queue] at taken
    · rename_i taken
      simp only [getOneFlowEndInfo, queue, Option.some.injEq, Prod.mk.injEq] at taken
      obtain ⟨rfl, rfl⟩ := taken
      rw [ih _ rfl]

/-- Between two polls the machine keeps `kept` in `tmprecv` and nothing else. -/
structure Holds (m : Machine) (kept : List Byte) : Prop where
  handedOver : m.recvIdx = 0
  length : m.tmprecvIndex = kept.length
  buffer : m.tmprecv.slice 0 m.tmprecvIndex = kept
  drained : m.flowsFinishedInfo = []

theorem create_holds (machineID : Nat) (sockip : List Byte) (sockport : Int) :
    (create machineID sockip sockport).Holds [] :=
  ⟨rfl, rfl, by simp [create], rfl⟩

/-- `recvMsg` and `getRecvBuf` put the chunk behind what was kept. -/
theorem Holds.takeReceived {m : Machine} {kept chunk : List Byte} (holds : m.Holds kept)
    (fits : chunk.length ≤ MAX_RECV_BUFFER_SIZE) (room : kept.length + chunk.length < TMORECV_MAX_SIZE) :
    (m.receive chunk).takeReceived.Holds (kept ++ chunk) := by
  obtain ⟨size, received⟩ := SocketManage.recvMsg_ofChunk holds.handedOver fits
  have length := holds.length
  obtain ⟨empty, slice, -, newLength⟩ := SocketManage.getRecvBuf_spec
    (m.recvMsg (RecvOutcome.ofChunk chunk)) m.tmprecv m.tmprecvIndex (by omega) (by omega)
  rw [received, holds.buffer] at slice
  refine ⟨empty, ?_, ?_, holds.drained⟩
  · rw [List.length_append, ← length, ← size]
    exact newLength
  · rw [← slice, ← newLength]
    rfl

/-- A poll with something to parse is the loop, what is done after it, and
taking the records. -/
theorem poll_eq {m : Machine} {kept chunk : List Byte} (holds : m.Holds kept) (nonempty : chunk ≠ [])
    (fits : chunk.length ≤ MAX_RECV_BUFFER_SIZE) (flowEndIndex flowStartIndex : CInt) :
    m.poll chunk flowEndIndex flowStartIndex =
      ((m.receive chunk).takeReceived.scanFinished flowEndIndex.val flowStartIndex.val).bind fun scan =>
        ((m.receive chunk).takeReceived.keepUnfinished scan).bind fun next =>
          some (next.flowsFinishedInfo, { next with flowsFinishedInfo := [] }) := by
  obtain ⟨size, -⟩ := SocketManage.recvMsg_ofChunk holds.handedOver fits
  have waiting : (m.receive chunk).recvIdx ≠ 0 := by
    rw [receive, size]
    exact fun zero => nonempty (List.length_eq_zero_iff.mp zero)
  simp only [poll, parseFlowsFinishedInfo, waiting, if_false, bind, Option.bind_assoc, drain_eq]

/-- Where the loop saw an open frame after the last closed one, the frame is
kept. -/
theorem Holds.keepUnfinished {m : Machine} {text : List Byte} (holds : m.Holds text) {scan : FinishedScan} {start : Nat}
    (room : text.length < TMORECV_MAX_SIZE) (startIndex : scan.flowStartIndex = start)
    (order : scan.flowEndIndex < scan.flowStartIndex) (positive : 0 < start) (within : start ≤ text.length) :
    ∃ next, (m.keepUnfinished scan).bind (fun next =>
        some (next.flowsFinishedInfo, { next with flowsFinishedInfo := [] })) = some (scan.pushed, next) ∧
      next.Holds (lparen :: scan.tmprecv.slice start text.length) := by
  have length := holds.length
  have nonneg : ¬ scan.flowStartIndex < 0 := by omega
  obtain ⟨moved, -⟩ := scan.tmprecv.slice_moveFront lparen 0 positive within room
  simp only [Machine.keepUnfinished, if_pos order, if_neg nonneg, Option.bind_some, holds.drained,
    List.nil_append]
  simp only [startIndex, Int.toNat_natCast, length]
  refine ⟨_, rfl, holds.handedOver, ?_, moved, rfl⟩
  rw [List.length_cons, scan.tmprecv.slice_length (Nat.le_of_lt room)]
  exact (show 1 + (text.length - start) = text.length - start + 1 by omega)

/-- Everywhere else the buffer is emptied. -/
theorem Holds.discard {m : Machine} {text : List Byte} (holds : m.Holds text) {scan : FinishedScan}
    (order : ¬ scan.flowEndIndex < scan.flowStartIndex) :
    ∃ next, (m.keepUnfinished scan).bind (fun next =>
        some (next.flowsFinishedInfo, { next with flowsFinishedInfo := [] })) = some (scan.pushed, next) ∧
      next.Holds [] := by
  simp only [Machine.keepUnfinished, order, if_false, Option.bind_some, holds.drained, List.nil_append]
  exact ⟨_, rfl, holds.handedOver, rfl, CArray.slice_self _ _, rfl⟩

/-- A chunk in its place in a completion stream. -/
structure InStream (text chunk rest : List Byte) : Prop where
  packed : Packed lparen rparen (text ++ (chunk ++ rest))
  done : ¬ Open lparen rparen (text ++ (chunk ++ rest))
  noNul : 0 ∉ text ++ (chunk ++ rest)
  bodies : ∀ body ∈ frames lparen rparen [] (text ++ (chunk ++ rest)), body.length ≤ 35
  nonempty : chunk ≠ []
  fits : chunk.length ≤ MAX_RECV_BUFFER_SIZE

theorem InStream.room {text chunk rest : List Byte} (place : InStream text chunk rest) :
    (carry lparen rparen text).length + chunk.length < TMORECV_MAX_SIZE := by
  have carried : (carry lparen rparen text).length ≤ 36 := by
    unfold carry
    split
    · rename_i opened
      obtain ⟨body, member, start⟩ := place.packed.carried_in_frame opened place.done
      have := start.length_le
      have := place.bodies body member
      rw [List.length_cons]
      omega
    · simp
  have := place.fits
  simp only [MAX_RECV_BUFFER_SIZE, TMORECV_MAX_SIZE] at *
  omega

theorem InStream.packed_here {text chunk rest : List Byte} (place : InStream text chunk rest) :
    Packed lparen rparen (text ++ chunk) := by
  have packed := place.packed
  rw [← List.append_assoc] at packed
  exact packed.prefix

theorem InStream.buffer_noNul {text chunk rest : List Byte} (place : InStream text chunk rest) :
    0 ∉ carry lparen rparen text ++ chunk := by
  have clean := place.noNul
  simp only [List.mem_append, not_or] at clean ⊢
  refine ⟨fun member => ?_, clean.2.1⟩
  unfold carry at member
  split at member
  · rcases List.mem_cons.mp member with same | inside
    · exact absurd same (by decide)
    · exact clean.1 ((List.rtakeWhile_suffix _ _).mem inside)
  · simp at member

/-- The loop of a poll in the stream, over the carried text and the chunk. -/
theorem Holds.scanned {m : Machine} {text chunk rest : List Byte} (holds : m.Holds (carry lparen rparen text))
    (place : InStream text chunk rest) (flowEndIndex flowStartIndex : Int) :
    ∃ buf scan, buf.slice 0 (carry lparen rparen text ++ chunk).length = carry lparen rparen text ++ chunk ∧
      (m.receive chunk).takeReceived.scanFinished flowEndIndex flowStartIndex = some scan ∧
      scan.At buf flowEndIndex (carry lparen rparen text ++ chunk).length ∧
      scan.pushed = (frames lparen rparen text chunk).map FlowEndInfo.parse := by
  have filled := holds.takeReceived place.fits place.room
  have length := filled.length
  have buffer := filled.buffer
  have closes := place.packed_here.closes lparen_ne_rparen
  have room : (carry lparen rparen text ++ chunk).length ≤ TMORECV_MAX_SIZE := by
    rw [List.length_append]
    exact Nat.le_of_lt place.room
  rw [length] at buffer
  obtain ⟨scan, run, scanned⟩ := scan_at (m.receive chunk).takeReceived.tmprecv flowEndIndex flowStartIndex
    room (by rw [buffer]; exact closes.carry_append lparen_ne_rparen) (by rw [buffer]; exact place.buffer_noNul)
  refine ⟨_, scan, buffer, ?_, scanned, ?_⟩
  · rw [scanFinished, length]
    exact run
  · rw [scanned.pushed, buffer, frames_carry_append lparen_ne_rparen closes]

theorem mem_carry_append_iff {text chunk : List Byte} :
    rparen ∈ carry lparen rparen text ++ chunk ↔ rparen ∈ chunk := by
  rw [List.mem_append, or_iff_right]
  exact fun member => carry_no_close lparen_ne_rparen text rparen member rfl

theorem InStream.buffer_single {text chunk rest : List Byte} (place : InStream text chunk rest)
    (noClose : rparen ∉ chunk) :
    Open lparen rparen (carry lparen rparen text ++ chunk) ∧
      carry lparen rparen text ++ chunk = lparen :: since lparen (carry lparen rparen text ++ chunk) :=
  (place.packed_here.carry_append lparen_ne_rparen).single (by simp [place.nonempty])
    (fun member => noClose (mem_carry_append_iff.mp member))

/-- A poll that finds a closing bracket, or whose `flowEndIndex` happens not to
be positive, keeps the unfinished frame and reads the others. -/
theorem Holds.poll_keeps {m : Machine} {text chunk rest : List Byte} (holds : m.Holds (carry lparen rparen text))
    (place : InStream text chunk rest) {flowEndIndex : CInt} (flowStartIndex : CInt)
    (good : rparen ∉ chunk → flowEndIndex.val ≤ 0) :
    ∃ next, m.poll chunk flowEndIndex flowStartIndex =
        some ((frames lparen rparen text chunk).map FlowEndInfo.parse, next) ∧
      next.Holds (carry lparen rparen (text ++ chunk)) := by
  obtain ⟨buf, scan, buffer, run, scanned, pushed⟩ := holds.scanned place flowEndIndex.val flowStartIndex.val
  have filled := holds.takeReceived place.fits place.room
  have room := place.room
  rw [← List.length_append] at room
  rw [poll_eq holds place.nonempty place.fits, run, Option.bind_some, ← pushed,
    ← carry_carry lparen_ne_rparen]
  by_cases opened : Open lparen rparen (carry lparen rparen text ++ chunk)
  · obtain ⟨start, startIndex, width, content⟩ := scanned.opened (by rw [buffer]; exact opened)
    rw [buffer] at width content
    have order : scan.flowEndIndex < scan.flowStartIndex := by
      by_cases noClose : rparen ∈ chunk
      · refine (scanned.after ?_).2.mpr (by rw [buffer]; exact opened)
        rw [buffer]
        exact mem_carry_append_iff.mpr noClose
      · have same := scanned.before (by rw [buffer]; exact fun member => noClose (mem_carry_append_iff.mp member))
        have single := congrArg List.length (place.buffer_single noClose).2
        rw [List.length_cons] at single
        have := good noClose
        omega
    have shorter := since_lt_length opened.mem
    have positive : 0 < start := by omega
    obtain ⟨next, kept, nextHolds⟩ := filled.keepUnfinished room startIndex order positive (by omega)
    rw [content] at nextHolds
    rw [carry, if_pos opened]
    exact ⟨next, kept, nextHolds⟩
  · have someClose : rparen ∈ chunk := by
      by_contra noClose
      exact opened (place.buffer_single noClose).1
    have order : ¬ scan.flowEndIndex < scan.flowStartIndex := by
      intro below
      have := (scanned.after (by rw [buffer]; exact mem_carry_append_iff.mpr someClose)).2.mp below
      rw [buffer] at this
      exact opened this
    rw [carry, if_neg opened]
    exact filled.discard order

/-- A poll without a closing bracket whose `flowEndIndex` happens to be
positive throws the unfinished frame away. -/
theorem Holds.poll_drops {m : Machine} {text chunk rest : List Byte} (holds : m.Holds (carry lparen rparen text))
    (place : InStream text chunk rest) {flowEndIndex : CInt} (flowStartIndex : CInt)
    (noClose : rparen ∉ chunk) (bad : 0 < flowEndIndex.val) :
    Open lparen rparen (text ++ chunk) ∧
      ∃ infos next, m.poll chunk flowEndIndex flowStartIndex = some (infos, next) ∧ next.Holds [] := by
  obtain ⟨buf, scan, buffer, run, scanned, pushed⟩ := holds.scanned place flowEndIndex.val flowStartIndex.val
  have filled := holds.takeReceived place.fits place.room
  obtain ⟨opened, single⟩ := place.buffer_single noClose
  refine ⟨((carry_resumes lparen_ne_rparen text).append lparen_ne_rparen chunk).1.mpr opened, scan.pushed, ?_⟩
  rw [poll_eq holds place.nonempty place.fits, run, Option.bind_some]
  refine filled.discard ?_
  have same := scanned.before (by rw [buffer]; exact fun member => noClose (mem_carry_append_iff.mp member))
  obtain ⟨start, startIndex, width, -⟩ := scanned.opened (by rw [buffer]; exact opened)
  rw [buffer] at width
  have length := congrArg List.length single
  rw [List.length_cons] at length
  omega

theorem scan_quiet {buf : CArray Byte TMORECV_MAX_SIZE} {flowEndIndex flowStartIndex : Int} {i : Nat}
    (room : i ≤ TMORECV_MAX_SIZE) (clean : ∀ b ∈ buf.slice 0 i, b ≠ lparen ∧ b ≠ rparen) :
    (List.range i).foldlM FinishedScan.byte ⟨buf, flowEndIndex, flowStartIndex, []⟩ =
      some ⟨buf, flowEndIndex, flowStartIndex, []⟩ := by
  induction i with
  | zero => rfl
  | succ i ih =>
    have text : buf.slice 0 (i + 1) = buf.slice 0 i ++ [buf.load i] := buf.slice_succ (Nat.zero_le i) (by omega)
    rw [text] at clean
    obtain ⟨notOpen, notClose⟩ := clean (buf.load i) (by simp)
    rw [List.range_succ, List.foldlM_append, ih (by omega) fun b member => clean b (List.mem_append_left _ member)]
    simp [FinishedScan.byte, notOpen, notClose]

/-- A closing bracket before any opening one, with `flowStartIndex` before the
array, reads outside it. -/
theorem scan_stray {buf : CArray Byte TMORECV_MAX_SIZE} {flowEndIndex flowStartIndex : Int} {i more : Nat}
    (room : i < TMORECV_MAX_SIZE) (clean : ∀ b ∈ buf.slice 0 i, b ≠ lparen ∧ b ≠ rparen)
    (stray : buf.load i = rparen) (negative : flowStartIndex < 0) :
    (List.range (i + 1 + more)).foldlM FinishedScan.byte ⟨buf, flowEndIndex, flowStartIndex, []⟩ = none := by
  have outside : (buf.store i 0).cString 0 flowStartIndex = none := by
    rw [CArray.cString, if_neg fun inside => absurd inside.1 (Int.not_le.mpr negative)]
  rw [List.range_add, List.foldlM_append, List.range_succ, List.foldlM_append, scan_quiet (Nat.le_of_lt room) clean]
  simp [FinishedScan.byte, stray, lparen_ne_rparen.symm, outside]

theorem Holds.poll_stray {m : Machine} {kept chunk run rest : List Byte} (holds : m.Holds kept) (nonempty : chunk ≠ [])
    (fits : chunk.length ≤ MAX_RECV_BUFFER_SIZE) (room : kept.length + chunk.length < TMORECV_MAX_SIZE)
    (split : kept ++ chunk = run ++ rparen :: rest) (clean : ∀ b ∈ run, b ≠ lparen ∧ b ≠ rparen)
    (flowEndIndex : CInt) {flowStartIndex : CInt} (negative : flowStartIndex.val < 0) :
    m.poll chunk flowEndIndex flowStartIndex = none := by
  have filled := holds.takeReceived fits room
  have length := filled.length
  have buffer := filled.buffer
  rw [← List.length_append] at room
  rw [length] at buffer
  obtain ⟨front, stray⟩ := CArray.slice_eq_append_cons _ (Nat.le_of_lt room) (buffer.trans split)
  have width : (kept ++ chunk).length = run.length + 1 + rest.length := by
    rw [split, List.length_append, List.length_cons]
    omega
  rw [poll_eq holds nonempty fits, scanFinished, length, width,
    scan_stray (by omega) (by rw [front]; exact clean) stray negative, Option.bind_none]

/-- An initial `flowStartIndex` before the array and not above `flowEndIndex`. -/
def outside (flowEndIndex : CInt) : CInt := CInt.clamp (min flowEndIndex.val (-1))

theorem outside_val (flowEndIndex : CInt) : (outside flowEndIndex).val = min flowEndIndex.val (-1) := by
  have low := flowEndIndex.property.1
  exact CInt.val_clamp (by omega) (by omega)

/-- Once the beginning of a frame is gone, the rest of it is lost as well, or
it is read from outside the array. -/
theorem Holds.poll_lost {m : Machine} {text chunk rest : List Byte} (holds : m.Holds [])
    (place : InStream text chunk rest) (opened : Open lparen rparen text) (flowEndIndex : CInt) :
    m.poll chunk flowEndIndex (outside flowEndIndex) = none ∨
      (Open lparen rparen (text ++ chunk) ∧
        ∃ infos next, m.poll chunk flowEndIndex (outside flowEndIndex) = some (infos, next) ∧ next.Holds []) := by
  have room : ([] : List Byte).length + chunk.length < TMORECV_MAX_SIZE := by
    have := place.room
    rw [List.length_nil]
    omega
  have start := outside_val flowEndIndex
  rcases place.packed.open_chunk opened place.done with clean | ⟨run, inside, split, clean⟩
  · have filled := holds.takeReceived place.fits room
    have buffer := filled.buffer
    have length := filled.length
    rw [List.nil_append] at length buffer
    rw [length] at buffer
    rw [List.length_nil, Nat.zero_add] at room
    right
    refine ⟨open_append_clean clean opened, [], ?_⟩
    rw [poll_eq holds place.nonempty place.fits, scanFinished, length,
      scan_quiet (Nat.le_of_lt room) (by rw [buffer]; exact clean), Option.bind_some]
    exact filled.discard (show ¬ flowEndIndex.val < (outside flowEndIndex).val by omega)
  · exact Or.inl (holds.poll_stray place.nonempty place.fits room split clean flowEndIndex (by omega))

theorem pollAll_concat (m : Machine) (ends starts : Nat → CInt) (front : List (List Byte)) (chunk : List Byte) :
    m.pollAll ends starts (front ++ [chunk]) =
      (m.pollAll ends starts front).bind fun state =>
        (state.2.poll chunk (ends front.length) (starts front.length)).bind fun more =>
          some (state.1 ++ more.1, more.2) := by
  rw [pollAll, List.zipIdx_append, List.foldlM_append]
  simp only [pollAll, List.zipIdx_cons, List.zipIdx_nil, Nat.zero_add, List.foldlM_cons, List.foldlM_nil, bind,
    Option.bind_some, pure, Option.bind_assoc]

/-- A cut of a completion stream up to some chunk, as the machine sees it. -/
theorem inStream {infos : List FlowEndInfo} {front : List (List Byte)} {chunk rest : List Byte}
    (cut : (front ++ [chunk]).flatten ++ rest = completions infos) (nonempty : chunk ≠ [])
    (fits : chunk.length ≤ MAX_RECV_BUFFER_SIZE) : InStream front.flatten chunk rest := by
  rw [List.flatten_append, List.flatten_singleton, List.append_assoc] at cut
  obtain ⟨packed, done, bodies⟩ := completions_packed infos
  refine ⟨cut ▸ packed, cut ▸ done, cut ▸ completions_no_nul infos, ?_, nonempty, fits⟩
  rw [cut, bodies]
  intro body member
  obtain ⟨info, _, rfl⟩ := List.mem_map.mp member
  exact info.body_length

/-- Every poll keeps its unfinished frame, so every frame is read once it is
complete. -/
theorem Holds.pollAll_keeps {m : Machine} (holds : m.Holds []) {infos : List FlowEndInfo} {chunks : List (List Byte)}
    {rest : List Byte} {ends : Nat → CInt} (starts : Nat → CInt) (cut : chunks.flatten ++ rest = completions infos)
    (sizes : ∀ chunk ∈ chunks, chunk ≠ [] ∧ chunk.length ≤ MAX_RECV_BUFFER_SIZE)
    (good : ∀ k chunk, chunks[k]? = some chunk → rparen ∉ chunk → (ends k).val ≤ 0) :
    ∃ last, m.pollAll ends starts chunks =
        some ((frames lparen rparen [] chunks.flatten).map FlowEndInfo.parse, last) ∧
      last.Holds (carry lparen rparen chunks.flatten) := by
  induction chunks using List.reverseRecOn generalizing rest with
  | nil => exact ⟨m, rfl, by simpa [carry, not_open_nil] using holds⟩
  | append_singleton front chunk ih =>
    obtain ⟨nonempty, fits⟩ := sizes chunk (by simp)
    have place := inStream cut nonempty fits
    obtain ⟨before, run, kept⟩ := ih
      (show front.flatten ++ (chunk ++ rest) = completions infos by simpa using cut)
      (fun c member => sizes c (by simp [member]))
      (fun k c atK => good k c (List.getElem?_append_left (List.getElem?_eq_some_iff.mp atK).1 ▸ atK))
    have noClose : rparen ∉ chunk → (ends front.length).val ≤ 0 := good front.length chunk (by simp)
    obtain ⟨last, polled, keptLast⟩ := kept.poll_keeps place (starts front.length) noClose
    rw [List.flatten_append, List.flatten_singleton]
    refine ⟨last, ?_, keptLast⟩
    rw [pollAll_concat, run, Option.bind_some, polled, Option.bind_some, frames_append, List.map_append,
      List.nil_append]

/-- Three outcomes of a part of the stream when every initial
`flowStartIndex` lies before the array: no poll has dropped a frame, or one has
been lost and not yet ended, or it has been read from outside. -/
theorem Holds.pollAll_outside {m : Machine} (holds : m.Holds []) {infos : List FlowEndInfo}
    {chunks : List (List Byte)} {rest : List Byte} (ends : Nat → CInt)
    (cut : chunks.flatten ++ rest = completions infos)
    (sizes : ∀ chunk ∈ chunks, chunk ≠ [] ∧ chunk.length ≤ MAX_RECV_BUFFER_SIZE) :
    (∀ k chunk, chunks[k]? = some chunk → rparen ∉ chunk → (ends k).val ≤ 0) ∨
      m.pollAll ends (fun k => outside (ends k)) chunks = none ∨
      (Open lparen rparen chunks.flatten ∧
        ∃ infos next, m.pollAll ends (fun k => outside (ends k)) chunks = some (infos, next) ∧ next.Holds []) := by
  induction chunks using List.reverseRecOn generalizing rest with
  | nil => exact Or.inl fun k chunk atK => by simp at atK
  | append_singleton front chunk ih =>
    obtain ⟨nonempty, fits⟩ := sizes chunk (by simp)
    have place := inStream cut nonempty fits
    have earlier : front.flatten ++ (chunk ++ rest) = completions infos := by simpa using cut
    have earlierSizes := fun c (member : c ∈ front) => sizes c (by simp [member])
    rw [pollAll_concat, List.flatten_append, List.flatten_singleton]
    rcases ih earlier earlierSizes with good | none | ⟨opened, read, next, run, nextHolds⟩
    · obtain ⟨before, run, kept⟩ := holds.pollAll_keeps (fun k => outside (ends k)) earlier earlierSizes good
      by_cases last : rparen ∉ chunk → (ends front.length).val ≤ 0
      · left
        intro k c atK noClose
        rcases Nat.lt_or_ge k front.length with old | new
        · exact good k c (by rwa [List.getElem?_append_left old] at atK) noClose
        · rw [List.getElem?_append_right new] at atK
          obtain ⟨zero, rfl⟩ : k - front.length = 0 ∧ chunk = c := by
            simpa [List.getElem?_singleton, and_comm] using atK
          rw [show k = front.length by omega]
          exact last noClose
      · right; right
        obtain ⟨noClose, positive⟩ := Classical.not_imp.mp last
        obtain ⟨opened, more, next, polled, nextHolds⟩ :=
          kept.poll_drops place (outside (ends front.length)) noClose (Int.not_le.mp positive)
        exact ⟨opened, _, next, by rw [run, Option.bind_some, polled, Option.bind_some], nextHolds⟩
    · exact Or.inr (Or.inl (by rw [none, Option.bind_none]))
    · right
      rcases nextHolds.poll_lost place opened (ends front.length) with none | ⟨opened', more, last, polled, lastHolds⟩
      · exact Or.inl (by rw [run, Option.bind_some, none, Option.bind_none])
      · exact Or.inr ⟨opened', _, last, by rw [run, Option.bind_some, polled, Option.bind_some], lastHolds⟩

/-- The records come out of the stream as they went in, for every initial value
of `flowStartIndex`, exactly when `flowEndIndex` starts at zero or below in
every call whose chunk has no closing bracket. -/
theorem pollAll_recovers_iff {machineID : Nat} {sockip : List Byte} {sockport : Int} {infos : List FlowEndInfo}
    {chunks : List (List Byte)} {ends : Nat → CInt} (cut : chunks.flatten = completions infos)
    (sizes : ∀ chunk ∈ chunks, chunk ≠ [] ∧ chunk.length ≤ MAX_RECV_BUFFER_SIZE) :
    (∀ starts : Nat → CInt, ∃ last,
        (create machineID sockip sockport).pollAll ends starts chunks = some (infos, last)) ↔
      ∀ k chunk, chunks[k]? = some chunk → rparen ∉ chunk → (ends k).val ≤ 0 := by
  have holds := create_holds machineID sockip sockport
  have cut' : chunks.flatten ++ [] = completions infos := by rw [List.append_nil, cut]
  constructor
  · intro recovers
    obtain ⟨last, run⟩ := recovers fun k => outside (ends k)
    rcases holds.pollAll_outside ends cut' sizes with good | none | ⟨opened, -⟩
    · exact good
    · rw [none] at run
      cases run
    · rw [cut] at opened
      exact absurd opened (completions_packed infos).2.1
  · intro good starts
    obtain ⟨last, run, -⟩ := holds.pollAll_keeps starts cut' sizes good
    rw [cut, (completions_packed infos).2.2, List.map_map] at run
    refine ⟨last, ?_⟩
    rw [run, show FlowEndInfo.parse ∘ FlowEndInfo.body = id from funext FlowEndInfo.parse_body, List.map_id]

/-- The record `(1 2 3)`. -/
def one_two_three : FlowEndInfo := ⟨CInt.clamp 1, CInt.clamp 2, CInt.clamp 3⟩

theorem completions_one_two_three : completions [one_two_three] = [40, 49, 32, 50, 32, 51, 41] := by decide

theorem pollAll_recovers_iff_cut :
    (∀ starts : Nat → CInt, ∃ last, (create 0 [] 4003).pollAll (fun _ => CInt.zero) starts
        [[40, 49, 32, 50], [32, 51, 41]] = some ([one_two_three], last)) ↔
      ∀ k chunk, [[40, 49, 32, 50], [32, 51, 41]][k]? = some chunk → rparen ∉ chunk →
        ((fun _ => CInt.zero : Nat → CInt) k).val ≤ 0 :=
  pollAll_recovers_iff completions_one_two_three.symm (by decide)

/-- The first chunk ends inside the frame while `flowEndIndex` holds 1. -/
theorem garbage_drops_frame :
    ¬ ∀ (infos : List FlowEndInfo) (chunks : List (List Byte)) (ends starts : Nat → CInt),
      chunks.flatten = completions infos →
      (∀ chunk ∈ chunks, chunk ≠ [] ∧ chunk.length ≤ MAX_RECV_BUFFER_SIZE) →
      ∃ last, (create 0 [] 4003).pollAll ends starts chunks = some (infos, last) := by
  intro recovers
  let chunks : List (List Byte) := [[40, 49, 32, 50], [32, 51, 41]]
  let ends : Nat → CInt := fun _ => CInt.clamp 1
  have cut : chunks.flatten = completions [one_two_three] := completions_one_two_three.symm
  have sizes : ∀ chunk ∈ chunks, chunk ≠ [] ∧ chunk.length ≤ MAX_RECV_BUFFER_SIZE := by decide
  obtain ⟨last, run⟩ := recovers _ chunks ends (fun k => outside (ends k)) cut sizes
  rcases (create_holds 0 [] 4003).pollAll_outside ends
    (show chunks.flatten ++ [] = completions [one_two_three] by rw [List.append_nil, cut]) sizes with
    good | none | ⟨opened, -⟩
  · exact absurd (good 0 _ rfl (by decide)) (by decide)
  · rw [none] at run
    cases run
  · rw [cut] at opened
    exact (completions_packed _).2.1 opened

end Machine

end CoflowSim
