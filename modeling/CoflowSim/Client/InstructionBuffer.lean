import CoflowSim.Client.InstructionStream

namespace CoflowSim
open Lib Lib.Framing

namespace EventLoop

/-- What `ins_tmp` holds besides its NUL. -/
def INS_TMP_MAX : Nat := 99

/-- Every pass over a received chunk stays inside `recvbuf`, and every
instruction that it appends fits `ins_tmp`. -/
def InBounds : List (List Byte) → Prop :=
  Along fun front chunk =>
    ((init.receive front).fill (RecvOutcome.ofChunk chunk)).recvbuflen + 1 ≤ RECVBUF_SIZE ∧
      (init.receive (front ++ [chunk])).recvbuf.overrun = false ∧
      ∀ ins ∈ (init.receive (front ++ [chunk])).appended, ins.length ≤ INS_TMP_MAX

/-- Each chunk fits behind the frame that the bytes before it leave open, and
what lies between a closing bracket and the last opening one before it, or the
beginning of the two, is short. -/
def Fitting : List (List Byte) → Prop :=
  Along fun front chunk =>
    (carry lparen rparen front.flatten).length + chunk.length < RECVBUF_SIZE ∧
      ∀ ins ∈ frames lparen rparen (carry lparen rparen front.flatten) chunk, ins.length ≤ INS_TMP_MAX

theorem receive_concat (loop : EventLoop) (front : List (List Byte)) (chunk : List Byte) :
    loop.receive (front ++ [chunk]) = (loop.receive front).pass (RecvOutcome.ofChunk chunk) := by
  rw [receive, List.foldl_append]
  rfl

/-- As long as the chunks fit, the loop keeps what they leave open. -/
theorem Fitting.holds {chunks : List (List Byte)} (fits : ∀ chunk ∈ chunks, chunk.length ≤ MAX_RECV_BUFFER_SIZE)
    (fitting : Fitting chunks) :
    (init.receive chunks).Holds (carry lparen rparen chunks.flatten) ∧
      ∀ ins ∈ (init.receive chunks).appended, ins.length ≤ INS_TMP_MAX := by
  induction chunks using List.reverseRecOn with
  | nil => exact ⟨init_consumed.holds, fun ins member => absurd member List.not_mem_nil⟩
  | append_singleton chunks chunk ih =>
    obtain ⟨before, room, short⟩ := along_concat_iff.mp fitting
    obtain ⟨holds, earlier⟩ := ih (fun c member => fits c (by simp [member])) before
    obtain ⟨passed, appended⟩ := holds.pass (fits chunk (by simp)) room
    rw [carry_carry lparen_ne_rparen] at passed
    rw [receive_concat, List.flatten_append, List.flatten_singleton]
    refine ⟨passed, fun ins member => ?_⟩
    rw [appended, frames_carry lparen_ne_rparen] at member
    rcases List.mem_append.mp member with old | new
    · exact earlier ins old
    · exact short ins new

/-- The client loop stays in bounds if and only if the chunks fit. -/
theorem inBounds_iff_fitting {chunks : List (List Byte)}
    (fits : ∀ chunk ∈ chunks, chunk.length ≤ MAX_RECV_BUFFER_SIZE) : InBounds chunks ↔ Fitting chunks := by
  refine along_congr fun front chunk within fitting => ?_
  have members (c : List Byte) (member : c ∈ front ++ [chunk]) : c.length ≤ MAX_RECV_BUFFER_SIZE :=
    fits c (within.mem member)
  have size := members chunk (by simp)
  obtain ⟨holds, earlier⟩ := Fitting.holds (fun c member => members c (by simp [member])) fitting
  rw [holds.fill_length size]
  constructor
  · rintro ⟨room, -, short⟩
    obtain ⟨-, appended⟩ := holds.pass size room
    refine ⟨room, fun ins member => short ins ?_⟩
    rw [receive_concat, appended, frames_carry lparen_ne_rparen]
    exact List.mem_append_right _ member
  · rintro ⟨room, short⟩
    obtain ⟨passed, appended⟩ := holds.pass size room
    rw [receive_concat, appended, frames_carry lparen_ne_rparen]
    refine ⟨room, passed.inBounds, fun ins member => ?_⟩
    rcases List.mem_append.mp member with old | new
    · exact earlier ins old
    · exact short ins new

end EventLoop

end CoflowSim
