import CoflowSim.Client.ClusterDeadlock
import CoflowSim.Common.PoolWork

namespace CoflowSim
open Lib

def StartUp.work : StartUp → Nat
  | .recvManager => 26
  | .sendManager => 13
  | .eventLoop => 0

/-- The bytes that have still to be moved twice or once, and the tasks that have
still to be appended. -/
def Connection.work {n : Nat} (k : Connection n) : Nat :=
  2 * k.unsent + k.buffered + (if k.appended then 0 else 13) + (if k.accepted then 0 else 1) + if k.given then 0 else 13

/-- An instruction becomes a connection. -/
def instructionWork {n : Nat} (instruction : Fin n × Nat) : Nat := 2 * (instruction.2 * SENDER_BUFFER_SIZE) + 29

def Client.work {n : Nat} (client : Client n) : Nat :=
  client.startup.work + client.pool.work + (client.instructions.map instructionWork).sum +
    if client.connecting.isSome then 1 else 0

namespace Cluster

variable {n threads tasks capacity : Nat} {s t : Cluster n} {a : ClusterAction n}

/-- A bound of the steps that are left when no more instructions come. -/
def work (s : Cluster n) : Nat := ∑ i, (s.clients i).work + (s.connections.map Connection.work).sum

/-- No more instructions come, no event of a connection is lost, and the pools
are patient. -/
def Patient (s : Cluster n) : ClusterAction n → Prop
  | .instruct _ => False
  | .lose _ => False
  | .pool i a => (s.pool i).Patient a
  | _ => True

theorem Patient.gives (patient : s.Patient a) : s.Gives a := by
  cases a with
  | lose => exact patient
  | _ => exact trivial

/-- Every instruction is a connection, every connection is accepted, and what
its `Sender` was given to send has been sent and read to the end. -/
structure Delivered (s : Cluster n) : Prop where
  instructed : ∀ i, .executing .sendManager ∈ (s.pool i).workers →
    (s.clients i).instructions = [] ∧ (s.clients i).connecting = none
  accepted : ∀ k ∈ s.connections, k.accepted = true
  sent : ∀ k ∈ s.connections, k.appended = true → k.unsent = 0 ∧ k.closed = true
  received : ∀ k ∈ s.connections, k.appended = true → k.buffered = 0 ∧ k.drained = true

section Results

variable {task_num : Int} {pool : ThreadPool Caller Job} {acts more : List (ClusterAction n)}

end Results

end Cluster

end CoflowSim
