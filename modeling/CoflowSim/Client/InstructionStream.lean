import CoflowSim.Client.EventLoop

namespace CoflowSim
open Lib Lib.Framing

/-- Where the scan stands after the first `i` bytes of the buffer. The two
indices say whether a frame is open: the open frame starts at `insstart`. -/
structure InsScan.At (recvbuf : CArray Byte RECVBUF_SIZE) (i : Nat) (scan : InsScan) : Prop where
  calls : scan.calls = frames lparen rparen [] (recvbuf.slice 0 i)
  behind : scan.insend ≤ i
  opened : Open lparen rparen (recvbuf.slice 0 i) →
    scan.insstart + (since lparen (recvbuf.slice 0 i)).length = i ∧ scan.insend < scan.insstart
  closed : ¬ Open lparen rparen (recvbuf.slice 0 i) → scan.insstart ≤ scan.insend

/-- The last opening bracket, or the start of the buffer, is where `insstart`
points, so a closing bracket ends an instruction from there. -/
theorem InsScan.At.byte {recvbuf : CArray Byte RECVBUF_SIZE} {i : Nat} {scan : InsScan}
    (at_i : scan.At recvbuf i) (width : scan.insstart + (since lparen (recvbuf.slice 0 i)).length = i)
    (room : i < RECVBUF_SIZE) :
    (scan.byte recvbuf i).At recvbuf (i + 1) ∧
      (scan.byte recvbuf i).insstart + (since lparen (recvbuf.slice 0 (i + 1))).length = i + 1 := by
  have text : recvbuf.slice 0 (i + 1) = recvbuf.slice 0 i ++ [recvbuf.load i] :=
    recvbuf.slice_succ (Nat.zero_le i) room
  have length : (recvbuf.slice 0 i).length = i := recvbuf.slice_length (Nat.le_of_lt room)
  by_cases isOpen : recvbuf.load i = lparen
  · have notClose : recvbuf.load i ≠ rparen := by rw [isOpen]; exact lparen_ne_rparen
    simp only [InsScan.byte, isOpen, lparen_ne_rparen, if_true, if_false]
    have moved : i + 1 + (since lparen (recvbuf.slice 0 (i + 1))).length = i + 1 := by
      rw [text, isOpen, since_concat, if_pos rfl, List.length_nil]
    refine ⟨⟨?_, Nat.le_succ_of_le at_i.behind, fun _ => ⟨moved, Nat.lt_succ_of_le at_i.behind⟩, ?_⟩, moved⟩
    · rw [text, frames_concat, if_neg notClose, List.append_nil, at_i.calls]
    · intro closed
      rw [text, isOpen] at closed
      exact absurd (open_concat_open lparen_ne_rparen _) closed
  have grown : scan.insstart + (since lparen (recvbuf.slice 0 (i + 1))).length = i + 1 := by
    rw [text, since_concat, if_neg isOpen, List.length_append, List.length_singleton]
    omega
  by_cases isClose : recvbuf.load i = rparen
  · have instruction : recvbuf.slice scan.insstart i = since lparen (recvbuf.slice 0 i) := by
      rw [recvbuf.slice_eq_drop, drop_since _ _ (by rw [width, length])]
    simp only [InsScan.byte, isClose, lparen_ne_rparen.symm, if_true, if_false]
    refine ⟨⟨?_, Nat.le_succ i, ?_, fun _ => ?_⟩, grown⟩
    · rw [text, frames_concat, if_pos isClose, at_i.calls, instruction, List.nil_append]
    · intro opened
      rw [text, isClose] at opened
      exact absurd opened (not_open_concat_close _)
    · exact (show scan.insstart ≤ i by omega)
  · simp only [InsScan.byte, isOpen, isClose, if_false]
    have agree := open_concat_other (recvbuf.slice 0 i) isOpen isClose
    refine ⟨⟨?_, Nat.le_succ_of_le at_i.behind, ?_, ?_⟩, grown⟩
    · rw [text, frames_concat, if_neg isClose, List.append_nil, at_i.calls]
    · intro opened
      refine ⟨grown, (at_i.opened (agree.mp ?_)).2⟩
      rwa [← text]
    · intro closed
      rw [text] at closed
      exact at_i.closed fun opened => closed (agree.mpr opened)

/-- The scan of a whole buffer. -/
theorem scanBuf_at {recvbuf : CArray Byte RECVBUF_SIZE} {len : Nat} (room : len ≤ RECVBUF_SIZE) :
    (scanBuf recvbuf len).At recvbuf len ∧
      (scanBuf recvbuf len).insstart + (since lparen (recvbuf.slice 0 len)).length = len := by
  induction len with
  | zero =>
    have empty : recvbuf.slice 0 0 = [] := recvbuf.slice_self 0
    refine ⟨⟨rfl, le_rfl, fun opened => ?_, fun _ => le_rfl⟩, by simp [scanBuf, since]⟩
    rw [empty] at opened
    exact absurd opened not_open_nil
  | succ i ih =>
    obtain ⟨before, width⟩ := ih (by omega)
    rw [scanBuf, List.range_succ, List.foldl_append]
    exact before.byte width (by omega)

namespace EventLoop

/-- The loop between two events, once `text` has been received: the buffer
holds the unfinished frame, and every finished one has been appended. -/
structure Consumed (loop : EventLoop) (text : List Byte) : Prop where
  handedOver : loop.masterSockManger.recvIdx = 0
  length : loop.recvbuflen = (carry lparen rparen text).length
  buffer : loop.recvbuf.slice 0 loop.recvbuflen = carry lparen rparen text
  inBounds : loop.recvbuf.overrun = false
  calls : loop.appended = frames lparen rparen [] text

theorem init_consumed : init.Consumed [] := ⟨rfl, rfl, by simp [init, carry, Open, since], rfl, rfl⟩

/-- The buffer holds `kept`, and nothing has been written outside it. -/
structure Holds (loop : EventLoop) (kept : List Byte) : Prop where
  handedOver : loop.masterSockManger.recvIdx = 0
  length : loop.recvbuflen = kept.length
  buffer : loop.recvbuf.slice 0 loop.recvbuflen = kept
  inBounds : loop.recvbuf.overrun = false

theorem Consumed.holds {loop : EventLoop} {text : List Byte} (consumed : loop.Consumed text) :
    loop.Holds (carry lparen rparen text) :=
  ⟨consumed.handedOver, consumed.length, consumed.buffer, consumed.inBounds⟩

/-- The length counts the chunk, whether the buffer has room for it or not. -/
theorem Holds.fill_length {loop : EventLoop} {kept chunk : List Byte} (holds : loop.Holds kept)
    (fits : chunk.length ≤ MAX_RECV_BUFFER_SIZE) :
    (loop.fill (RecvOutcome.ofChunk chunk)).recvbuflen = kept.length + chunk.length := by
  obtain ⟨size, -⟩ := SocketManage.recvMsg_ofChunk holds.handedOver fits
  have bounded : (loop.masterSockManger.recvMsg (RecvOutcome.ofChunk chunk)).recvIdx ≤ MAX_RECV_BUFFER_SIZE := by omega
  rw [← holds.length, ← size]
  exact SocketManage.getRecvBuf_length _ loop.recvbuf loop.recvbuflen bounded

/-- `getRecvBuf` puts the chunk behind the unfinished frame. -/
theorem Holds.fill {loop : EventLoop} {kept chunk : List Byte} (holds : loop.Holds kept)
    (fits : chunk.length ≤ MAX_RECV_BUFFER_SIZE) (room : kept.length + chunk.length < RECVBUF_SIZE) :
    (loop.fill (RecvOutcome.ofChunk chunk)).Holds (kept ++ chunk) := by
  obtain ⟨size, received⟩ := SocketManage.recvMsg_ofChunk holds.handedOver fits
  have length := holds.length
  obtain ⟨empty, slice, overrun, newLength⟩ := SocketManage.getRecvBuf_spec
    (loop.masterSockManger.recvMsg (RecvOutcome.ofChunk chunk)) loop.recvbuf loop.recvbuflen (by omega) (by omega)
  rw [received, holds.buffer] at slice
  refine ⟨empty, ?_, ?_, overrun.trans holds.inBounds⟩
  · rw [List.length_append]
    exact holds.fill_length fits
  · rw [← slice, ← newLength]
    rfl

/-- The rewritten buffer is the unfinished frame of what was scanned. -/
theorem Holds.decode {loop : EventLoop} {text : List Byte} (holds : loop.Holds text)
    (room : text.length < RECVBUF_SIZE) :
    loop.decode.Holds (carry lparen rparen text) ∧
      loop.decode.appended = loop.appended ++ frames lparen rparen [] text := by
  obtain ⟨handedOver, length, buffer, inBounds⟩ := holds
  rw [← length] at room
  obtain ⟨scanned, -⟩ := scanBuf_at (Nat.le_of_lt room)
  have socket : loop.decode.masterSockManger.recvIdx = 0 := by rw [decode_socket, handedOver]
  by_cases opened : Open lparen rparen (loop.recvbuf.slice 0 loop.recvbuflen)
  · obtain ⟨start, below⟩ := scanned.opened opened
    generalize scan_eq : scanBuf loop.recvbuf loop.recvbuflen = scan at scanned start below
    have positive : 0 < scan.insstart := by omega
    have frame : loop.recvbuf.slice scan.insstart loop.recvbuflen =
        since lparen (loop.recvbuf.slice 0 loop.recvbuflen) := by
      have size : (loop.recvbuf.slice 0 loop.recvbuflen).length = loop.recvbuflen - 0 :=
        loop.recvbuf.slice_length (Nat.le_of_lt room)
      rw [loop.recvbuf.slice_eq_drop, drop_since lparen _ (by omega)]
    obtain ⟨moved, overrun⟩ := loop.recvbuf.slice_moveFront lparen 0 positive (by omega) room
    rw [frame] at moved
    rw [← buffer]
    refine ⟨⟨socket, ?_, ?_, ?_⟩, ?_⟩
    · simp only [EventLoop.decode, scan_eq, below, if_true]
      rw [carry, if_pos opened, List.length_cons]
      omega
    · simp only [EventLoop.decode, scan_eq, below, if_true]
      rw [carry, if_pos opened]
      exact moved
    · simp only [EventLoop.decode, scan_eq, below, if_true]
      exact overrun.trans inBounds
    · simp only [EventLoop.decode, scan_eq, below, if_true, scanned.calls]
  · have order := Nat.not_lt.mpr (scanned.closed opened)
    rw [← buffer]
    refine ⟨⟨socket, ?_, ?_, ?_⟩, ?_⟩
    · simp only [EventLoop.decode, order, if_false, carry, if_neg opened, List.length_nil]
    · simp only [EventLoop.decode, order, if_false, carry, if_neg opened, CArray.slice_self]
    · simp only [EventLoop.decode, order, if_false]
      rw [CArray.overrun_store _ _ (by decide), inBounds]
    · simp only [EventLoop.decode, order, if_false, scanned.calls]

/-- A pass over any chunk that there is room for. -/
theorem Holds.pass {loop : EventLoop} {kept chunk : List Byte} (holds : loop.Holds kept)
    (fits : chunk.length ≤ MAX_RECV_BUFFER_SIZE) (room : kept.length + chunk.length < RECVBUF_SIZE) :
    (loop.pass (RecvOutcome.ofChunk chunk)).Holds (carry lparen rparen (kept ++ chunk)) ∧
      (loop.pass (RecvOutcome.ofChunk chunk)).appended =
        loop.appended ++ frames lparen rparen [] (kept ++ chunk) :=
  (holds.fill fits room).decode (by rwa [List.length_append])

theorem Consumed.pass {loop : EventLoop} {text chunk : List Byte} (consumed : loop.Consumed text)
    (fits : chunk.length ≤ MAX_RECV_BUFFER_SIZE)
    (room : (carry lparen rparen text).length + chunk.length < RECVBUF_SIZE)
    (closes : Closes lparen rparen (text ++ chunk)) :
    (loop.pass (RecvOutcome.ofChunk chunk)).Consumed (text ++ chunk) := by
  obtain ⟨passed, appended⟩ := consumed.holds.pass fits room
  rw [carry_carry lparen_ne_rparen] at passed
  refine ⟨passed.handedOver, passed.length, passed.buffer, passed.inBounds, ?_⟩
  rw [appended, frames_carry_append lparen_ne_rparen closes, consumed.calls, frames_append, List.nil_append]

/-- Frames are at most this long between their brackets. -/
def INS_MAX : Nat := 98

theorem carried_room {text chunk : List Byte} (short : Short lparen rparen INS_MAX text)
    (fits : chunk.length ≤ MAX_RECV_BUFFER_SIZE) :
    (carry lparen rparen text).length + chunk.length + 1 ≤ RECVBUF_SIZE := by
  have carried := short.carry_length
  simp only [INS_MAX, MAX_RECV_BUFFER_SIZE, RECVBUF_SIZE] at *
  omega

theorem receive_consumed {chunks : List (List Byte)} (fits : ∀ chunk ∈ chunks, chunk.length ≤ MAX_RECV_BUFFER_SIZE)
    (closes : Closes lparen rparen chunks.flatten) (short : Short lparen rparen INS_MAX chunks.flatten) :
    (init.receive chunks).Consumed chunks.flatten := by
  induction chunks using List.reverseRecOn with
  | nil => exact init_consumed
  | append_singleton chunks chunk ih =>
    rw [List.flatten_append, List.flatten_singleton] at closes short ⊢
    have before := ih (fun c member => fits c (by simp [member])) closes.prefix short.prefix
    have size := fits chunk (by simp)
    rw [receive, List.foldl_append]
    exact before.pass size (carried_room short.prefix size) closes

/-- However the instruction stream is cut into chunks, the loop appends each
frame once and in order, and never fills its buffer past the last byte. -/
theorem receive_decodes {chunks : List (List Byte)} (fits : ∀ chunk ∈ chunks, chunk.length ≤ MAX_RECV_BUFFER_SIZE)
    (closes : Closes lparen rparen chunks.flatten) (short : Short lparen rparen INS_MAX chunks.flatten) :
    (init.receive chunks).appended = frames lparen rparen [] chunks.flatten ∧
      (init.receive chunks).recvbuf.overrun = false ∧
      ∀ front chunk, front ++ [chunk] <+: chunks →
        ((init.receive front).fill (RecvOutcome.ofChunk chunk)).recvbuflen + 1 ≤ RECVBUF_SIZE := by
  have consumed := receive_consumed fits closes short
  refine ⟨consumed.calls, consumed.inBounds, ?_⟩
  rintro front chunk ⟨rest, rfl⟩
  simp only [List.append_assoc, List.flatten_append] at closes short
  have before := receive_consumed (fun c member => fits c (by simp [member])) closes.prefix short.prefix
  have size := fits chunk (by simp)
  have room := carried_room short.prefix size
  rw [before.holds.fill_length size]
  exact room

/-- One frame cut into two chunks. -/
theorem receive_decodes_cut :
    (init.receive [[40, 49], [41]]).appended = frames lparen rparen [] [[40, 49], [41]].flatten ∧
      (init.receive [[40, 49], [41]]).recvbuf.overrun = false ∧
      ∀ front chunk, front ++ [chunk] <+: [[40, 49], [41]] →
        ((init.receive front).fill (RecvOutcome.ofChunk chunk)).recvbuflen + 1 ≤ RECVBUF_SIZE := by
  refine receive_decodes (by decide) ?_ ?_
  · have begun : Closes lparen rparen [40, 49] := closes_of_no_close (by simp [rparen])
    exact closes_concat begun fun _ => by decide
  · intro before run within _
    have length := within.length_le
    simp only [List.length_append, List.length_cons, List.flatten_cons, List.flatten_nil,
      List.length_nil] at length
    exact (show run.length ≤ 98 by omega)

end EventLoop

end CoflowSim
