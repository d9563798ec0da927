import CoflowSim.Client.InstructionBounds
import CoflowSim.Master.LogicMap
import CoflowSim.Master.StartUp

namespace CoflowSim
open Lib

/-- The two files of a deployment: a trace whose reducers receive something and
whose arrival times are not beyond the doubles, and a machine definition with
addresses that an instruction can carry. -/
structure Deployment where
  trace : TraceFile
  define : MachineDefine
  fits : trace.Fits
  master : Plain define.master_ip
  clients : ∀ client ∈ define.clients, Plain client.ip
  sized : ∀ line ∈ trace.lines, ∀ r ∈ line.reducers, 0 < r.2.value
  timed : ∀ line ∈ trace.lines, line.arrival.value < 2 ^ 1023

theorem readAddress_plain {ip : List Byte} (plain : Plain ip) (port unset : CInt) :
    readAddress [] ip port unset = if ADDRESS_BUFFER ≤ ip.length then none else some ((ip, port), []) := by
  have none_before : ∀ b ∈ ([] : List Byte), isSpace b = true := by simp
  have atEnd : EndsNumber [] := EndsDouble.nil.endsNumber
  have ends : ∀ b, ([] : List Byte).head? = some b → isSpace b = true := by simp
  have address := readToken_word none_before plain.1 (fun b member => (plain.2 b member).1) ends
  have number := readInt_showInt none_before port atEnd
  simp only [List.nil_append, List.append_nil] at address number
  simp only [readAddress, List.nil_append, address, number, Option.getD_some]

theorem TraceLine.coflow_identity (line : TraceLine) (precision : Precision) :
    (line.coflow precision).coflowID = line.coflowID ∧
      (line.coflow precision).startTime = precision.keep line.arrival.value :=
  TraceProducer.addFlows_keeps
    (P := fun c => c.coflowID = line.coflowID ∧ c.startTime = precision.keep line.arrival.value)
    (fun _ _ _ _ _ same => same) ⟨rfl, rfl⟩ _ _

/-- The machines that are added for the clients. -/
def additions (clients : List ClientEntry) : List (List Byte × Int) :=
  clients.map fun client => (client.ip, client.port.val)

/-- A plain address is read as it stands, so each client is added as it is defined. -/
theorem addClients_plain {unset : CInt} {clients : List ClientEntry} (plain : ∀ client ∈ clients, Plain client.ip)
    {mm added : MachineManager} (made : addClients unset clients mm [] = some added) :
    added = (mm.addPhysicsMachines (additions clients)).2 := by
  induction clients generalizing mm with
  | nil => exact (Option.some.inj made).symm
  | cons client clients ih =>
    obtain ⟨⟨_, ss⟩, address, later⟩ := Option.bind_eq_some_iff.mp made
    rw [readAddress_plain (plain client List.mem_cons_self)] at address
    split at address
    · cases address
    · cases address
      exact ih (fun other member => plain other (List.mem_cons_of_mem client member)) later

theorem parseMachineDefine_plain {define : MachineDefine} (master : Plain define.master_ip)
    (clients : ∀ client ∈ define.clients, Plain client.ip) {unset : CInt} {mm added : MachineManager}
    (parsed : parseMachineDefine define unset mm = some added) :
    added = (mm.addPhysicsMachines (additions define.clients)).2 := by
  obtain ⟨⟨_, ss⟩, address, later⟩ := Option.bind_eq_some_iff.mp parsed
  rw [readAddress_plain master] at address
  split at address
  · cases address
  · cases address
    exact addClients_plain clients later

namespace MachineManager

theorem addPhysicsMachines_machines (mm : MachineManager) (calls : List (List Byte × Int)) :
    (mm.addPhysicsMachines calls).2.m_physicsMachines = mm.m_physicsMachines ++
      (calls.zipIdx mm.m_physicsMachinesNum).map fun call => Machine.create call.2 call.1.1 call.1.2 := by
  induction calls generalizing mm with
  | nil => exact (List.append_nil _).symm
  | cons call calls ih =>
    refine (ih (mm.addOnePhysicsMachine call.1 call.2).2).trans ?_
    rw [List.zipIdx_cons, List.map_cons, List.append_cons]
    rfl

/-- The logic machines are spread over one machine for each client. -/
structure Deployed (clients : List ClientEntry) (mm : MachineManager) : Prop where
  covers : mm.Covers
  machines : mm.m_physicsMachines =
    clients.zipIdx.map fun client => Machine.create client.2 client.1.ip client.1.port.val

variable {clients : List ClientEntry} {mm : MachineManager}

theorem Deployed.length (deployed : mm.Deployed clients) : mm.m_physicsMachines.length = clients.length := by
  rw [deployed.machines, List.length_map, List.length_zipIdx]

/-- A location stands on the client that its number gives. -/
theorem Deployed.machineOf (deployed : mm.Deployed clients) {id : CInt} {position : Nat} {m : Machine}
    (found : mm.machineOf id = some (position, m)) :
    position = id.val.toNat % clients.length ∧ ∃ client, clients[position]? = some client ∧
      m = Machine.create position client.ip client.port.val := by
  obtain ⟨atKey, inside⟩ := machineOf_position found
  rw [deployed.covers.keys id, deployed.length] at atKey
  split at atKey
  · rw [deployed.machines, List.getElem?_map, List.getElem?_zipIdx, Option.map_map] at inside
    obtain ⟨client, here, rfl⟩ := Option.map_eq_some_iff.mp inside
    refine ⟨(Option.some.inj atKey).symm, client, here, ?_⟩
    simp
  · cases atKey

/-- The sockets of new machines are set up as they are. -/
theorem startConn_created (created : ∀ m ∈ mm.m_physicsMachines, ∃ (machineID : Nat) (sockip : List Byte)
    (sockport : Int), m = Machine.create machineID sockip sockport) : mm.startConn = mm := by
  have same : mm.m_physicsMachines.map (fun it => { it with toSocketManage := SocketManage.initSocket }) =
      mm.m_physicsMachines.map id := by
    refine List.map_congr_left fun m member => ?_
    obtain ⟨machineID, sockip, sockport, rfl⟩ := created m member
    rfl
  rw [startConn, same, List.map_id]

end MachineManager

namespace Deployment

variable (d : Deployment) {unset : CInt} {startTime : Int} {master : Scheduler}

/-- The coflows of the trace, with the doubles that the program keeps. -/
def coflows : List Coflow := d.trace.lines.map fun line => line.coflow .double

/-- The megabytes of a reducer have fewer than 50 digits. -/
theorem size_range {line : TraceLine} (member : line ∈ d.trace.lines) {r : CInt × Decimal} (atR : r ∈ line.reducers) :
    (2 : Rat) ^ (-163 : Int) ≤ r.2.value ∧ r.2.value < (2 : Rat) ^ (163 : Int) := by
  have word := d.fits.words line member r atR
  have location : 0 < (showInt r.1.val).length := List.length_pos_iff.mpr (showInt_ne_nil _)
  have whole : 0 < r.2.whole.length := List.length_pos_iff.mpr r.2.nonempty
  have digits : r.2.whole.length ≤ 49 ∧ r.2.fraction.length ≤ 49 := by
    simp only [TraceLine.reducerWord, Decimal.text, List.length_append, List.length_cons, TOKEN_BUFFER] at word
    have fraction : r.2.fraction.length ≤ (pointed r.2.fraction).length := by
      unfold pointed
      split
      · simp_all
      · simp
    omega
  constructor
  · calc (2 : Rat) ^ (-163 : Int) ≤ (10 : Rat) ^ (-49 : Int) := by norm_num
      _ ≤ (10 : Rat) ^ (-r.2.fraction.length : Int) := zpow_le_zpow_right₀ (by norm_num) (by omega)
      _ ≤ r.2.value := r.2.le_value (d.sized line member r atR)
  · calc r.2.value < (10 : Rat) ^ r.2.whole.length := r.2.value_lt
      _ ≤ (10 : Rat) ^ 49 := pow_le_pow_right₀ (by norm_num) digits.1
      _ ≤ (2 : Rat) ^ (163 : Int) := by norm_num

/-- The numbers of the trace are read as doubles. -/
theorem reads {line : TraceLine} (member : line ∈ d.trace.lines) : line.Reads .double := by
  refine ⟨(Precision.reads_decimal _).double line.arrival.value_nonneg (d.timed line member), fun r atR => ?_⟩
  have small : (2 : Rat) ^ (163 : Int) < 2 ^ 1023 := by decide +kernel
  exact (Precision.reads_decimal _).double r.2.value_nonneg ((d.size_range member atR).2.trans small)

/-- What `run` is given: the coflows of the trace, and a machine for each client. -/
theorem started (started : coflowSimMaster d.trace.text d.define unset startTime .double = some master) :
    ∃ mm : MachineManager, mm.Deployed d.define.clients ∧ master = Scheduler.init d.coflows mm startTime := by
  obtain ⟨⟨ports, coflows⟩, prepared, rest⟩ := Option.bind_eq_some_iff.mp started
  cases (TraceProducer.prepareCoflows_lines d.trace d.fits fun _ => d.reads).symm.trans prepared
  obtain ⟨added, parsed, made⟩ := Option.bind_eq_some_iff.mp rest
  cases made
  obtain ⟨_, -, clients⟩ := Option.bind_eq_some_iff.mp parsed
  have covers := (MachineManager.covers_init.addClients clients).1
  have machines : added.m_physicsMachines =
      d.define.clients.zipIdx.map fun client => Machine.create client.2 client.1.ip client.1.port.val := by
    rw [parseMachineDefine_plain d.master d.clients parsed, MachineManager.addPhysicsMachines_machines, additions,
      List.zipIdx_map, List.map_map]
    rfl
  have same : added.startConn = added := by
    refine MachineManager.startConn_created fun m member => ?_
    rw [machines] at member
    obtain ⟨client, -, rfl⟩ := List.mem_map.mp member
    exact ⟨_, _, _, rfl⟩
  exact ⟨added, ⟨covers, machines⟩, congrArg (Scheduler.init _ · startTime) same⟩

theorem built : ∀ c ∈ d.coflows, c.Built :=
  TraceProducer.prepareCoflows_built (TraceProducer.prepareCoflows_lines d.trace d.fits fun _ => d.reads)

/-- The flows of a line that the trace describes. -/
theorem values {line : TraceLine} (member : line ∈ d.trace.lines) :
    (line.coflow .double).flowCollection.values = (line.specs .double).zipIdx.map fun spec =>
      (TraceLine.entry spec).2 := by
  rw [OrderedMap.values, line.coflow_entries (d.fits.few line member), List.map_map]
  rfl

/-- The share of a mapper does not vanish when it is rounded. -/
theorem spec_sized {line : TraceLine} (member : line ∈ d.trace.lines) {spec : CInt × CInt × Rat}
    (inside : spec ∈ line.specs .double) : 0 < spec.2.2 ∧ spec.2.2 ≤ (2 : Rat) ^ (164 : Int) := by
  obtain ⟨r, atR, inside⟩ := List.mem_flatMap.mp inside
  obtain ⟨m, atM, rfl⟩ := List.mem_map.mp inside
  obtain ⟨above, below⟩ := d.size_range member atR
  obtain ⟨above, below⟩ := nearestDouble_between (by decide) above below
  have counts := d.fits.counts line member
  have some_mapper : (1 : Rat) ≤ line.mappers.length := by exact_mod_cast List.length_pos_of_mem atM
  have few : (line.mappers.length : Rat) ≤ 2 ^ 12 := by exact_mod_cast (show line.mappers.length ≤ 4096 by omega)
  have mappers : (0 : Rat) < line.mappers.length := by linarith
  have low : (2 : Rat) ^ (-175 : Int) ≤ nearestDouble r.2.value / line.mappers.length := by
    rw [le_div_iff₀ mappers]
    calc (2 : Rat) ^ (-175 : Int) * line.mappers.length ≤ (2 : Rat) ^ (-175 : Int) * 2 ^ 12 := by gcongr
      _ = (2 : Rat) ^ (-163 : Int) := by norm_num
      _ ≤ nearestDouble r.2.value := above
  have high : nearestDouble r.2.value / line.mappers.length < (2 : Rat) ^ (164 : Int) := by
    rw [div_lt_iff₀ mappers]
    calc nearestDouble r.2.value ≤ (2 : Rat) ^ (163 : Int) := below
      _ < (2 : Rat) ^ (164 : Int) * 1 := by norm_num
      _ ≤ (2 : Rat) ^ (164 : Int) * line.mappers.length := by gcongr
  obtain ⟨above, below⟩ := nearestDouble_between (by decide) low high
  exact ⟨lt_of_lt_of_le (zpow_pos (by norm_num) _) above, below⟩

theorem flow_sized {c : Coflow} (coflow : c ∈ d.coflows) {f : Flow} (flow : f ∈ c.flowCollection.values) :
    0 < f.flowSizeMB ∧ f.flowSizeMB ≤ (2 : Rat) ^ (164 : Int) := by
  obtain ⟨line, member, rfl⟩ := List.mem_map.mp coflow
  rw [d.values member] at flow
  obtain ⟨spec, inside, rfl⟩ := List.mem_map.mp flow
  exact d.spec_sized member (List.fst_mem_of_mem_zipIdx inside)

end Deployment

end CoflowSim
