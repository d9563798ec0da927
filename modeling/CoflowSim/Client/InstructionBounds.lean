import CoflowSim.Client.TaskCodec

namespace CoflowSim
open Lib Lib.Framing

/-- A frame fits `ch`, and the one payload that the client finds in it fits
what `appendTask` copies it to. -/
def InstructionFits (frame : List Byte) : Prop :=
  frame.length < TASK_BUFFER ∧ ∃ payload, frames lparen rparen [] frame = [payload] ∧ SendTask.Fits payload

theorem showDouble_ten : showDouble 10 = [49, 48] := by decide +kernel

theorem showInt_port_length {port : CInt} (low : 0 ≤ port.val) (high : port.val ≤ 65535) :
    (showInt port.val).length ≤ 5 := by
  obtain ⟨n, value⟩ := Int.eq_ofNat_of_zero_le low
  rw [value]
  exact (showNat_length_le_iff (by decide)).mpr (by omega)

section
variable {coflowID flowID port : CInt} {socketip : List Byte} {flowSizeMB : Rat}

/-- The speed that the scheduler sets takes two characters. -/
theorem taskFileName_length (coflowID flowID : CInt) (flowSizeMB : Rat) :
    (taskFileName coflowID flowID flowSizeMB 10).length =
      (showInt coflowID.val).length + (showInt flowID.val).length + (showDouble flowSizeMB).length + 9 := by
  simp only [taskFileName, showDouble_ten, dotTxt, List.length_append, List.length_cons, List.length_nil]
  omega

theorem taskBody_length (coflowID flowID port : CInt) (socketip : List Byte) (flowSizeMB : Rat) :
    (taskBody coflowID flowID socketip port.val flowSizeMB 10).length =
      2 * ((showInt coflowID.val).length + (showInt flowID.val).length + (showDouble flowSizeMB).length) +
        socketip.length + (showInt port.val).length + 17 := by
  simp only [taskBody, taskFileName_length, showDouble_ten, List.length_append, List.length_cons, List.length_nil]
  omega

/-- The words of the payload are the address and the file name. -/
theorem fits_taskBody_iff (address : Plain socketip) (size : 0 < flowSizeMB) :
    SendTask.Fits (taskBody coflowID flowID socketip port.val flowSizeMB 10) ↔
      (taskBody coflowID flowID socketip port.val flowSizeMB 10).length < 100 ∧ socketip.length < 64 ∧
        (taskFileName coflowID flowID flowSizeMB 10).length < 32 := by
  have words (ins : List Byte) : SendTask.Fits ins ↔ ins.length < 100 ∧
      (TaskFields.parse ins unsetFields).destination_ip.length < 64 ∧
        (TaskFields.parse ins unsetFields).file_name.length < 32 := Iff.rfl
  rw [words, parse_taskBody address size (by norm_num : (0 : Rat) < 10)]

end

/-- An instruction fits every array on its way if and only if its two IDs and
its size are printed with at most 22 characters. -/
theorem instructionFits_iff {coflowID flowID port : CInt} {socketip : List Byte} {flowSizeMB : Rat}
    (address : Plain socketip) (dotted : socketip.length ≤ 15) (low : 0 ≤ port.val) (high : port.val ≤ 65535)
    (size : 0 < flowSizeMB) :
    InstructionFits (taskFrame coflowID flowID socketip port.val flowSizeMB 10) ↔
      (showInt coflowID.val).length + (showInt flowID.val).length + (showDouble flowSizeMB).length ≤ 22 := by
  have speed : (0 : Rat) < 10 := by norm_num
  have portDigits := showInt_port_length low high
  have nameLength := taskFileName_length coflowID flowID flowSizeMB
  have bodyLength := taskBody_length coflowID flowID port socketip flowSizeMB
  constructor
  · rintro ⟨-, payload, one, fits⟩
    rw [frames_taskFrame address size speed] at one
    obtain ⟨rfl, -⟩ := List.cons.inj one
    obtain ⟨-, -, nameFits⟩ := (fits_taskBody_iff address size).mp fits
    omega
  · intro few
    refine ⟨?_, _, frames_taskFrame address size speed, (fits_taskBody_iff address size).mpr ⟨?_, ?_, ?_⟩⟩
    · rw [taskFrame_eq address size speed, wrap, List.length_append, List.length_cons, List.length_singleton]
      exact (show _ < 100 by omega)
    · omega
    · omega
    · omega

/-- Two MB from the longest address. -/
theorem instructionFits_iff_two :
    InstructionFits (taskFrame (.clamp 1) .zero oneReducer.socketip (CInt.clamp 65535).val 2 10) ↔
      (showInt (CInt.clamp 1).val).length + (showInt CInt.zero.val).length + (showDouble 2).length ≤ 22 :=
  instructionFits_iff plain_oneReducer (by decide) (by decide) (by decide) (by norm_num)

/-- Half a MB between the largest IDs: the file name takes 32 characters. -/
theorem largest_ids_overrun :
    ¬ ∀ (coflowID flowID port : CInt) (socketip : List Byte) (flowSizeMB : Rat), 0 ≤ coflowID.val → 0 ≤ flowID.val →
      Plain socketip → socketip.length ≤ 15 → 0 ≤ port.val → port.val ≤ 65535 → 0 < flowSizeMB →
      InstructionFits (taskFrame coflowID flowID socketip port.val flowSizeMB 10) := by
  intro always
  have size : (0 : Rat) < 1 / 2 := by norm_num
  obtain ⟨-, payload, one, fits⟩ := always (.clamp 2147483647) (.clamp 2147483647) (.clamp 65535) oneReducer.socketip
    (1 / 2) (by decide) (by decide) plain_oneReducer (by decide) (by decide) (by decide) size
  rw [frames_taskFrame plain_oneReducer size (by norm_num)] at one
  obtain ⟨rfl, -⟩ := List.cons.inj one
  obtain ⟨-, -, name⟩ := (fits_taskBody_iff plain_oneReducer size).mp fits
  exact absurd name (by decide +kernel)

end CoflowSim
