import CoflowSim.Client.SendManager
import CoflowSim.Lib.Double
import CoflowSim.Lib.Framing
import CoflowSim.Master.Dispatch

namespace CoflowSim
open Lib Lib.Framing

/-- The fields of a `SendTask` that `appendTask` reads. -/
structure TaskFields where
  coflow_id : CInt
  flow_id : CInt
  destination_ip : List Byte
  destination_port : CInt
  file_name : List Byte
  flow_size_MB : Rat
  speed_Mbs : Rat
deriving DecidableEq

/-- The extractions of `appendTask`. `malloc` leaves `unset` in a field that
is not set. The numbers are kept as `precision` says. -/
def TaskFields.parse (ins : List Byte) (unset : TaskFields) (precision : Precision := .exact) : TaskFields :=
  let (coflow_id, ss) := (IStream.mk (ins.takeWhile (· != 0)) false).readInt
  let (flow_id, ss) := ss.readInt
  let (destination_ip, ss) := ss.readToken
  let (destination_port, ss) := ss.readInt
  let (file_name, ss) := ss.readToken
  let (flow_size_MB, ss) := precision.read ss
  let (speed_Mbs, _) := precision.read ss
  { coflow_id := coflow_id.getD unset.coflow_id
    flow_id := flow_id.getD unset.flow_id
    destination_ip
    destination_port := destination_port.getD unset.destination_port
    file_name
    flow_size_MB := flow_size_MB.getD unset.flow_size_MB
    speed_Mbs := speed_Mbs.getD unset.speed_Mbs }

/-- `static_cast<int>(flow_size_MB * 1024)` in `Sender::run`. `none` is a
product that no `int` holds, for which the conversion is undefined. -/
def flowSizeKB (flow_size_MB : Rat) : Option CInt :=
  let product := flow_size_MB * 1024
  let whole := if 0 ≤ product then product.floor else product.ceil
  if fits : -2147483648 ≤ whole ∧ whole ≤ 2147483647 then some ⟨whole, fits⟩ else none

/-- The task of an instruction has the IDs that `SendTask.parse` reads. -/
theorem TaskFields.parse_ids (ins : List Byte) (unset : TaskFields) :
    (SendTask.parse ins (unset.coflow_id, unset.flow_id)).coflow_id = (TaskFields.parse ins unset).coflow_id ∧
      (SendTask.parse ins (unset.coflow_id, unset.flow_id)).flow_id = (TaskFields.parse ins unset).flow_id :=
  ⟨rfl, rfl⟩

/-- An address that passes through the stream and the scan for brackets. -/
def Plain (text : List Byte) : Prop :=
  text ≠ [] ∧ ∀ b ∈ text, isSpace b = false ∧ b ≠ lparen ∧ b ≠ rparen ∧ b ≠ 0

instance (text : List Byte) : Decidable (Plain text) := inferInstanceAs (Decidable (_ ∧ _))

theorem Plain.append {text more : List Byte} (first : Plain text) (second : Plain more) : Plain (text ++ more) := by
  refine ⟨List.append_ne_nil_of_left_ne_nil first.1 _, fun b member => ?_⟩
  rcases List.mem_append.mp member with inFirst | inSecond
  · exact first.2 b inFirst
  · exact second.2 b inSecond

theorem plain_underscore : Plain [underscore] := ⟨by simp, List.forall_mem_singleton.mpr (by decide)⟩

theorem plain_dotTxt : Plain dotTxt := by
  simp [Plain, dotTxt, isSpace, lparen, rparen]

theorem plain_numeric {text : List Byte} (nonempty : text ≠ []) (numeric : ∀ b ∈ text, isNumeric b = true) :
    Plain text := by
  refine ⟨nonempty, fun b member => ⟨isNumeric_not_space (numeric b member), ?_, ?_, ?_⟩⟩ <;>
    · rintro rfl
      exact absurd (numeric _ member) (by decide)

theorem plain_showInt (z : Int) : Plain (showInt z) := by
  refine plain_numeric (showInt_ne_nil z) fun b member => ?_
  rcases showInt_bytes b member with digit | rfl
  · simp [isNumeric, digit]
  · decide

theorem plain_showDouble {q : Rat} (positive : 0 < q) : Plain (showDouble q) :=
  plain_numeric (showDouble_numeric positive).1 (showDouble_numeric positive).2

/-- A plain field goes to `ch` whole, and leaves nothing in the stream. -/
theorem TaskText.put_plain {ch field : List Byte} (plain : Plain field) (closing : Byte) :
    TaskText.put ⟨ch, []⟩ field closing = ⟨ch ++ field ++ [closing], []⟩ := by
  have blank : ∀ b ∈ ([] : List Byte), isSpace b = true := by simp
  have atEnd : ∀ b, ([] : List Byte).head? = some b → isSpace b = true := by simp
  have read := readToken_word blank plain.1 (fun b member => (plain.2 b member).1) atEnd
  simp only [List.nil_append, List.append_nil] at read
  simp only [TaskText.put, List.nil_append, read]

/-- `coflowID_flowID_flowSizeMB_sendSpeedMbs.txt` -/
def taskFileName (coflowID flowID : CInt) (flowSizeMB sendSpeedMbs : Rat) : List Byte :=
  showInt coflowID.val ++ [underscore] ++ showInt flowID.val ++ [underscore] ++
    showDouble flowSizeMB ++ [underscore] ++ showDouble sendSpeedMbs ++ dotTxt

/-- What stands between the brackets of an instruction. -/
def taskBody (coflowID flowID : CInt) (socketip : List Byte) (socketport : Int) (flowSizeMB sendSpeedMbs : Rat) :
    List Byte :=
  showInt coflowID.val ++ (space :: (showInt flowID.val ++ (space :: (socketip ++ (space :: (showInt socketport ++
    (space :: (taskFileName coflowID flowID flowSizeMB sendSpeedMbs ++
      (space :: (showDouble flowSizeMB ++ (space :: showDouble sendSpeedMbs)))))))))))

section
variable {coflowID flowID : CInt} {socketip : List Byte} {socketport : Int} {flowSizeMB sendSpeedMbs : Rat}

theorem plain_taskFileName (coflowID flowID : CInt) (size : 0 < flowSizeMB) (speed : 0 < sendSpeedMbs) :
    Plain (taskFileName coflowID flowID flowSizeMB sendSpeedMbs) := by
  have first := ((plain_showInt coflowID.val).append plain_underscore).append (plain_showInt flowID.val)
  have second := (first.append plain_underscore).append (plain_showDouble size)
  exact ((second.append plain_underscore).append (plain_showDouble speed)).append plain_dotTxt

/-- The instruction is one frame around its fields. -/
theorem taskFrame_eq (address : Plain socketip) (size : 0 < flowSizeMB) (speed : 0 < sendSpeedMbs) :
    taskFrame coflowID flowID socketip socketport flowSizeMB sendSpeedMbs =
      wrap lparen rparen (taskBody coflowID flowID socketip socketport flowSizeMB sendSpeedMbs) := by
  have fileName := plain_taskFileName coflowID flowID size speed
  unfold taskFileName at fileName
  simp only [taskFrame, TaskText.put_plain (plain_showInt _), TaskText.put_plain address,
    TaskText.put_plain fileName, TaskText.put_plain (plain_showDouble size),
    TaskText.put_plain (plain_showDouble speed)]
  simp [wrap, taskBody, taskFileName]

theorem taskBody_bytes (address : Plain socketip) (size : 0 < flowSizeMB) (speed : 0 < sendSpeedMbs) :
    ∀ b ∈ taskBody coflowID flowID socketip socketport flowSizeMB sendSpeedMbs, b ≠ lparen ∧ b ≠ rparen ∧ b ≠ 0 := by
  have plain {text : List Byte} (plain : Plain text) {b : Byte} (member : b ∈ text) :
      b ≠ lparen ∧ b ≠ rparen ∧ b ≠ 0 := (plain.2 b member).2
  have blank : space ≠ lparen ∧ space ≠ rparen ∧ space ≠ 0 := by decide
  intro b member
  simp only [taskBody, List.mem_append, List.mem_cons] at member
  rcases member with inID | rfl | inFlow | rfl | inAddress | rfl | inPort | rfl | inName | rfl | inSize | rfl | inSpeed
  · exact plain (plain_showInt _) inID
  · exact blank
  · exact plain (plain_showInt _) inFlow
  · exact blank
  · exact plain address inAddress
  · exact blank
  · exact plain (plain_showInt _) inPort
  · exact blank
  · exact plain (plain_taskFileName _ _ size speed) inName
  · exact blank
  · exact plain (plain_showDouble size) inSize
  · exact blank
  · exact plain (plain_showDouble speed) inSpeed

/-- A scan for frames finds the fields, and nothing else. -/
theorem frames_taskFrame (address : Plain socketip) (size : 0 < flowSizeMB) (speed : 0 < sendSpeedMbs) :
    frames lparen rparen [] (taskFrame coflowID flowID socketip socketport flowSizeMB sendSpeedMbs) =
      [taskBody coflowID flowID socketip socketport flowSizeMB sendSpeedMbs] := by
  have clean : ∀ run ∈ [taskBody coflowID flowID socketip socketport flowSizeMB sendSpeedMbs], ∀ b ∈ run,
      b ≠ lparen ∧ b ≠ rparen :=
    List.forall_mem_singleton.mpr fun b member =>
      ⟨(taskBody_bytes address size speed b member).1, (taskBody_bytes address size speed b member).2.1⟩
  have decoded := (packed_flatMap lparen_ne_rparen clean).2.2
  rwa [List.flatMap_singleton, ← taskFrame_eq address size speed] at decoded

/-- Every field but the two numbers comes back as it was; these come back as what
is kept of their six digits. -/
theorem parse_taskBody_reads (address : Plain socketip) {port : CInt} (size : 0 < flowSizeMB)
    (speed : 0 < sendSpeedMbs) {precision : Precision}
    (readsSize : precision.Reads (showDouble flowSizeMB) (sixDigits flowSizeMB))
    (readsSpeed : precision.Reads (showDouble sendSpeedMbs) (sixDigits sendSpeedMbs)) (unset : TaskFields) :
    TaskFields.parse (taskBody coflowID flowID socketip port.val flowSizeMB sendSpeedMbs) unset precision =
      { coflow_id := coflowID
        flow_id := flowID
        destination_ip := socketip
        destination_port := port
        file_name := taskFileName coflowID flowID flowSizeMB sendSpeedMbs
        flow_size_MB := precision.keep (sixDigits flowSizeMB)
        speed_Mbs := precision.keep (sixDigits sendSpeedMbs) } := by
  have noNul : (taskBody coflowID flowID socketip port.val flowSizeMB sendSpeedMbs).takeWhile (· != 0) =
      taskBody coflowID flowID socketip port.val flowSizeMB sendSpeedMbs :=
    List.takeWhile_eq_self_iff.mpr fun b member => by simpa using (taskBody_bytes address size speed b member).2.2
  have blank : ∀ b ∈ [space], isSpace b = true := List.forall_mem_singleton.mpr (by decide)
  have none_before : ∀ b ∈ ([] : List Byte), isSpace b = true := by simp
  have endsInt (rest : List Byte) : EndsNumber (space :: rest) := by
    intro b first
    cases first
    decide
  have endsWord (rest : List Byte) : ∀ b, (space :: rest).head? = some b → isSpace b = true := by
    intro b first
    cases first
    decide
  have endsDouble (rest : List Byte) : EndsDouble (space :: rest) := by
    intro b first
    cases first
    decide
  have solid {text : List Byte} (plain : Plain text) : ∀ b ∈ text, isSpace b = false :=
    fun b member => (plain.2 b member).1
  have name := plain_taskFileName coflowID flowID size speed
  have readID (rest : List Byte) := readInt_showInt none_before coflowID (endsInt rest)
  have readFlow (rest : List Byte) := readInt_showInt blank flowID (endsInt rest)
  have readAddress (rest : List Byte) := readToken_word blank address.1 (solid address) (endsWord rest)
  have readPort (rest : List Byte) := readInt_showInt blank port (endsInt rest)
  have readName (rest : List Byte) := readToken_word blank name.1 (solid name) (endsWord rest)
  have readSize (rest : List Byte) := readsSize [space] (space :: rest) blank (endsDouble rest)
  have readSpeed := readsSpeed [space] [] blank EndsDouble.nil
  simp only [List.nil_append, List.cons_append, List.append_nil]
    at readID readFlow readAddress readPort readName readSize readSpeed
  rw [TaskFields.parse, noNul, taskBody, readID]
  simp only [readFlow, readAddress, readPort, readName, readSize, readSpeed, Option.getD_some]

theorem parse_taskBody (address : Plain socketip) {port : CInt} (size : 0 < flowSizeMB) (speed : 0 < sendSpeedMbs)
    (unset : TaskFields) :
    TaskFields.parse (taskBody coflowID flowID socketip port.val flowSizeMB sendSpeedMbs) unset =
      { coflow_id := coflowID
        flow_id := flowID
        destination_ip := socketip
        destination_port := port
        file_name := taskFileName coflowID flowID flowSizeMB sendSpeedMbs
        flow_size_MB := sixDigits flowSizeMB
        speed_Mbs := sixDigits sendSpeedMbs } :=
  parse_taskBody_reads address size speed (Precision.reads_showDouble size) (Precision.reads_showDouble speed) unset

end

/-- The instruction of a call comes back at the client: its one frame is read
as the coflow, the flow, the reducer's address and the speed it was sent with,
and as a size that gives as many KB. -/
def Preserved (call : TaskCall) (coflowID flowID : CInt) (r : Machine) (flowSizeMB sendSpeedMbs : Rat)
    (unset : TaskFields) : Prop :=
  ∃ payload, frames lparen rparen [] call.frame = [payload] ∧
    (TaskFields.parse payload unset).coflow_id = coflowID ∧ (TaskFields.parse payload unset).flow_id = flowID ∧
    (TaskFields.parse payload unset).destination_ip = r.socketip ∧
    (TaskFields.parse payload unset).destination_port.val = r.socketport ∧
    (TaskFields.parse payload unset).speed_Mbs = sendSpeedMbs ∧
    (flowSizeKB (TaskFields.parse payload unset).flow_size_MB).map (fun size => size.val) =
      some (flowSizeMB * 1024).floor

/-- What `Sender::run` makes of a size. -/
theorem flowSizeKB_eq_iff {size : Rat} (nonneg : 0 ≤ size) (whole : Int) :
    (flowSizeKB size).map (fun size => size.val) = some whole ↔ (size * 1024).floor = whole ∧ whole ≤ 2147483647 := by
  have product : 0 ≤ size * 1024 := by positivity
  have nonnegative : 0 ≤ (size * 1024).floor := Rat.le_floor_iff.mpr (by exact_mod_cast product)
  unfold flowSizeKB
  dsimp only
  rw [if_pos product]
  split
  · rename_i fits
    simp only [Option.map_some, Option.some.injEq]
    refine ⟨?_, fun both => both.1⟩
    rintro rfl
    exact ⟨rfl, fits.2⟩
  · rename_i outside
    simp only [Option.map_none, reduceCtorEq, false_iff]
    rintro ⟨rfl, high⟩
    exact outside ⟨by omega, high⟩

/-- The frame of a call is its instruction, and nothing else. -/
theorem frames_of_called {mm : MachineManager} {coflowID flowID mapperID reducerID : CInt}
    {flowSizeMB sendSpeedMbs : Rat} {kernel : SendOutcome} {call : TaskCall} {position : Nat} {r : Machine}
    {port : CInt} (size : 0 < flowSizeMB) (speed : 0 < sendSpeedMbs)
    (called : mm.sendTask coflowID flowID mapperID reducerID flowSizeMB sendSpeedMbs kernel = some call)
    (atReducer : mm.machineOf reducerID = some (position, r)) (address : Plain r.socketip)
    (isPort : r.socketport = port.val) : frames lparen rparen [] call.frame =
      [taskBody coflowID flowID r.socketip port.val flowSizeMB sendSpeedMbs] := by
  obtain ⟨_, _, r', _, -, atReducer', -, frame, -⟩ := MachineManager.sendTask_spec called
  rw [atReducer] at atReducer'
  cases atReducer'
  rw [frame, isPort, frames_taskFrame address size speed]

/-- The instruction of a call of `sendTask` comes back as it was exactly when
its speed has at most six significant digits, and its size gives as many KB
with six, no more than an `int` can count. -/
theorem instruction_preserved_iff {mm : MachineManager} {coflowID flowID mapperID reducerID : CInt}
    {flowSizeMB sendSpeedMbs : Rat} {kernel : SendOutcome} {call : TaskCall} {position : Nat} {r : Machine}
    {port : CInt} (size : 0 < flowSizeMB) (speed : 0 < sendSpeedMbs)
    (called : mm.sendTask coflowID flowID mapperID reducerID flowSizeMB sendSpeedMbs kernel = some call)
    (atReducer : mm.machineOf reducerID = some (position, r)) (address : Plain r.socketip)
    (isPort : r.socketport = port.val) (unset : TaskFields) :
    Preserved call coflowID flowID r flowSizeMB sendSpeedMbs unset ↔
      (∃ (digits : Nat) (exponent : Int), digits < 1000000 ∧ sendSpeedMbs = digits * (10 : Rat) ^ exponent) ∧
        (sixDigits flowSizeMB * 1024).floor = (flowSizeMB * 1024).floor ∧ (flowSizeMB * 1024).floor ≤ 2147483647 := by
  have framed := frames_of_called size speed called atReducer address isPort
  rw [← sixDigits_eq_self_iff speed, ← flowSizeKB_eq_iff (sixDigits_pos size).le]
  constructor
  · rintro ⟨payload, one, -, -, -, -, sameSpeed, sameSize⟩
    rw [framed] at one
    cases one
    rw [parse_taskBody address size speed] at sameSpeed sameSize
    exact ⟨sameSpeed, sameSize⟩
  · rintro ⟨sameSpeed, sameSize⟩
    refine ⟨_, framed, ?_⟩
    rw [parse_taskBody address size speed]
    exact ⟨rfl, rfl, rfl, isPort.symm, sameSpeed, sameSize⟩

/-- A call for flow 0 of coflow 1, in a network of one machine. -/
def oneTask (flowSizeMB sendSpeedMbs : Rat) : Option TaskCall :=
  oneMachine.sendTask (.clamp 1) .zero .zero .zero flowSizeMB sendSpeedMbs .eagain

def oneReducer : Machine := Machine.create 0 [49, 48, 48, 46, 49, 48, 48, 46, 49, 48, 48, 46, 49, 48, 48] 65535

theorem plain_oneReducer : Plain oneReducer.socketip := by
  simp [Plain, oneReducer, Machine.create, isSpace, lparen, rparen]

/-- What `malloc` has left in the task. -/
def unsetFields : TaskFields := ⟨.zero, .zero, [], .zero, [], 0, 0⟩

theorem instruction_preserved_iff_two :
    Preserved ((oneTask 2 10).get (by decide +kernel)) (.clamp 1) .zero oneReducer 2 10 unsetFields ↔
      (∃ (digits : Nat) (exponent : Int), digits < 1000000 ∧ (10 : Rat) = digits * (10 : Rat) ^ exponent) ∧
        (sixDigits 2 * 1024).floor = ((2 : Rat) * 1024).floor ∧ ((2 : Rat) * 1024).floor ≤ 2147483647 :=
  instruction_preserved_iff (by norm_num) (by norm_num) (Option.some_get _).symm rfl plain_oneReducer
    (show oneReducer.socketport = (CInt.clamp 65535).val from rfl) unsetFields

/-- A third of 3703.701 MB goes out as `1234.57`, three KB too many. -/
theorem seventh_digit_lost :
    ¬ ∀ (mm : MachineManager) (coflowID flowID mapperID reducerID : CInt) (flowSizeMB sendSpeedMbs : Rat)
      (kernel : SendOutcome) (call : TaskCall) (position : Nat) (r : Machine) (port : CInt) (unset : TaskFields),
      0 ≤ coflowID.val → 0 ≤ flowID.val → 0 < flowSizeMB → 0 < sendSpeedMbs →
      mm.sendTask coflowID flowID mapperID reducerID flowSizeMB sendSpeedMbs kernel = some call →
      mm.machineOf reducerID = some (position, r) → Plain r.socketip → r.socketport = port.val →
      SendTask.Fits (call.frame.tail.dropLast) → Preserved call coflowID flowID r flowSizeMB sendSpeedMbs unset := by
  intro always
  have sent : (oneTask (3703701 / 1000 / 3) 10).isSome = true := by decide +kernel
  have fits : SendTask.Fits ((oneTask (3703701 / 1000 / 3) 10).get (by decide +kernel)).frame.tail.dropLast := by
    decide +kernel
  have size : (0 : Rat) < 3703701 / 1000 / 3 := by norm_num
  have isPort : oneReducer.socketport = (CInt.clamp 65535).val := rfl
  have called : oneMachine.sendTask (.clamp 1) .zero .zero .zero (3703701 / 1000 / 3) 10 .eagain =
      some ((oneTask (3703701 / 1000 / 3) 10).get (by decide +kernel)) := (Option.some_get sent).symm
  have atReducer : oneMachine.machineOf .zero = some (0, oneReducer) := rfl
  obtain ⟨payload, one, -, -, -, -, -, same⟩ := always oneMachine (.clamp 1) .zero .zero .zero (3703701 / 1000 / 3) 10
    .eagain _ 0 oneReducer (.clamp 65535) unsetFields (by decide) (by decide) size (by norm_num) called atReducer
    plain_oneReducer isPort fits
  rw [frames_of_called size (by norm_num) called atReducer plain_oneReducer isPort] at one
  cases one
  rw [parse_taskBody plain_oneReducer size (by norm_num)] at same
  have exactly := (flowSizeKB_eq_iff (sixDigits_pos size).le _).mp same
  exact absurd exactly.1 (by decide +kernel)

end CoflowSim
