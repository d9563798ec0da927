import CoflowSim.System.TraceSafety

namespace CoflowSim
open Lib Lib.Framing

/-- What `appendTask` reads from an instruction, whatever `malloc` has left. -/
def Reads (ins : List Byte) (fields : TaskFields) : Prop := ∀ unset, TaskFields.parse ins unset .double = fields

/-- A flow of the trace: its coflow, its number there, and what its line says,
with the double that is kept of the size. -/
structure TraceFlow where
  coflowID : CInt
  flowID : CInt
  mapperID : CInt
  reducerID : CInt
  flowSizeMB : Rat

/-- What the client of its mapper reads for a flow to the client `r`. -/
def TraceFlow.fields (f : TraceFlow) (r : ClientEntry) : TaskFields where
  coflow_id := f.coflowID
  flow_id := f.flowID
  destination_ip := r.ip
  destination_port := r.port
  file_name := taskFileName f.coflowID f.flowID f.flowSizeMB 10
  flow_size_MB := nearestDouble (sixDigits f.flowSizeMB)
  speed_Mbs := 10

/-- The flow that a task of a coflow is for. -/
def taskFlow (coflowID : CInt) (task : Task) : TraceFlow := ⟨coflowID, task.1, task.2.1, task.2.2.1, task.2.2.2.1⟩

namespace Deployment

variable (d : Deployment)

/-- The flows of the trace, in the order of the lines, their reducers and their mappers. -/
def flows : List TraceFlow :=
  d.trace.lines.flatMap fun line => (line.specs .double).zipIdx.map fun spec =>
    ⟨line.coflowID, .clamp spec.2, spec.1.1, spec.1.2.1, spec.1.2.2⟩

/-- The position of the client that a location stands on. -/
def clientOf (id : CInt) : Nat := id.val.toNat % d.define.clients.length

/-- What the client of its mapper is to read for a flow. -/
def orderOf (f : TraceFlow) : Option TaskFields := d.define.clients[d.clientOf f.reducerID]?.map f.fields

/-- What the client at position `p` is to read in all: its share of the trace. -/
def plan (p : Nat) : List TaskFields :=
  (d.flows.filter fun f => d.clientOf f.mapperID = p).filterMap d.orderOf

variable {d} {mm : MachineManager}

/-- The order of a call that is due, if its mapper stands on the client at position `p`. -/
def routed (d : Deployment) (p : Nat) (due : Nat × Task × Bool) : Option TaskFields :=
  d.coflows[due.1]?.bind fun c =>
    if d.clientOf (taskFlow c.coflowID due.2.1).mapperID = p then d.orderOf (taskFlow c.coflowID due.2.1) else none

end Deployment

namespace Session

variable {coflows : List Coflow} {mm : MachineManager} {s : Session}

/-- There is a client for each machine that `run` was given. -/
theorem Sound.nodes_length (sound : s.Sound coflows mm) : s.nodes.length = mm.m_physicsMachines.length := by
  have machines := congrArg List.length (congrArg Prod.snd sound.position.coflows_routes.2)
  rw [MachineManager.routes, MachineManager.routes, List.length_map, List.length_map] at machines
  exact sound.sites.trans machines

section Results

variable {d : Deployment} {unset : CInt} {startTime : Int} {master : Scheduler}
  {pools : List (ThreadPool Caller Job)} {acts : List SessionAction}

end Results

end Session

end CoflowSim
