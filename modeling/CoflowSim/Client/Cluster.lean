import Mathlib.Data.Fintype.Defs
import CoflowSim.Client.RecvManager
import CoflowSim.Client.SendManager
import CoflowSim.Common.PoolProgress

namespace CoflowSim
open Lib

instance : Fintype Caller := ⟨{.eventLoop, .recvManager, .sendManager}, fun c => by cases c <;> simp⟩

/-- The manager that `coflowSimClient` appends next, and where it is after that. -/
def StartUp.turn : StartUp → Option (Job × StartUp)
  | .recvManager => some (.recvManager, .sendManager)
  | .sendManager => some (.sendManager, .eventLoop)
  | .eventLoop => none

/-- A connection between two of the `n` clients: the bytes that its `Sender` has
still to send, those in its buffer, whether its `Sender` is in a pool or has
closed it, and whether the destination has accepted it, has called `append`
with it, and has read its end. -/
structure Connection (n : Nat) where
  source : Fin n
  destination : Fin n
  unsent : Nat
  buffered : Nat
  appended : Bool
  closed : Bool
  accepted : Bool
  given : Bool
  drained : Bool

/-- The parts of a client that use its pool. An instruction is a destination with
the number of KBs to send there; `connecting` is the connection for
which `SendManager::run` is about to call `append`. -/
structure Client (n : Nat) where
  startup : StartUp
  pool : ThreadPool Caller Job
  instructions : List (Fin n × Nat)
  connecting : Option Nat

/-- The clients, with every connection that was ever made between them. -/
structure Cluster (n : Nat) where
  clients : Fin n → Client n
  connections : List (Connection n)

inductive ClusterAction (n : Nat)
  | startUp (i : Fin n)
  | instruct (i : Fin n)
  | connect (i : Fin n)
  | append (i : Fin n)
  | send (c : Nat)
  | close (c : Nat)
  | accept (c : Nat)
  | give (c : Nat)
  | lose (c : Nat)
  | recv (c : Nat)
  | eof (c : Nat)
  | pool (i : Fin n) (action : PoolAction Caller)

/-- The steps of the main threads that start their clients up. -/
def ClusterAction.ByMain {n : Nat} : ClusterAction n → Prop
  | .startUp _ => True
  | .pool _ action => action.caller? = some .eventLoop
  | _ => False

/-- The steps of the workers of the pools. -/
def ClusterAction.ByWorker {n : Nat} : ClusterAction n → Prop
  | .startUp _ => False
  | .instruct _ => False
  | .pool _ action => action.caller? ≠ some .eventLoop
  | _ => True

/-- What a `Sender` sends at a time. -/
def SENDER_BUFFER_SIZE : Nat := 1024

/-- `connect` has returned; nobody has been told of the connection yet. -/
def Connection.make {n : Nat} (source destination : Fin n) (flowSizeKB : Nat) : Connection n :=
  ⟨source, destination, flowSizeKB * SENDER_BUFFER_SIZE, 0, false, false, false, false, false⟩

namespace Cluster

variable {n : Nat}

/-- Every client has created its pool. -/
def init (n : Nat) (pool : ThreadPool Caller Job) : Cluster n := ⟨fun _ => ⟨.recvManager, pool, [], none⟩, []⟩

def pool (s : Cluster n) (i : Fin n) : ThreadPool Caller Job := (s.clients i).pool

def setClient (s : Cluster n) (i : Fin n) (client : Client n) : Cluster n :=
  { s with clients := Function.update s.clients i client }

def setConnection (s : Cluster n) (c : Nat) (change : Connection n → Connection n) : Cluster n :=
  { s with connections := s.connections.modify c change }

/-- The steps with connections of `capacity` bytes. -/
inductive Step (capacity : Nat) : Cluster n → ClusterAction n → Cluster n → Prop
  | startUp {s i job next pool} (turn : (s.clients i).startup.turn = some (job, next))
      (returned : (s.pool i).calls .eventLoop = .idle) (pushed : (s.pool i).push .eventLoop job = some pool) :
      Step capacity s (.startUp i) (s.setClient i { s.clients i with pool, startup := next })
  | refuseManager {s i job next} (turn : (s.clients i).startup.turn = some (job, next))
      (returned : (s.pool i).calls .eventLoop = .idle) (full : (s.pool i).push .eventLoop job = none) :
      Step capacity s (.startUp i) (s.setClient i { s.clients i with startup := next })
  | instruct {s i} (destination : Fin n) (flowSizeKB : Nat) (listens : (s.clients i).startup = .eventLoop)
      (returned : (s.pool i).calls .eventLoop = .idle) :
      Step capacity s (.instruct i) (s.setClient i { s.clients i with
        instructions := (s.clients i).instructions ++ [(destination, flowSizeKB)] })
  | connect {s i destination flowSizeKB rest} (executes : .executing .sendManager ∈ (s.pool i).workers)
      (returned : (s.pool i).calls .sendManager = .idle) (free : (s.clients i).connecting = none)
      (front : (s.clients i).instructions = (destination, flowSizeKB) :: rest) :
      Step capacity s (.connect i) { s.setClient i { s.clients i with
          instructions := rest, connecting := some s.connections.length } with
        connections := s.connections ++ [.make i destination flowSizeKB] }
  -- the result of `pool->append` is dropped
  | refuse {s i c} (executes : .executing .sendManager ∈ (s.pool i).workers)
      (holds : (s.clients i).connecting = some c) (full : (s.pool i).push .sendManager (.sender c) = none) :
      Step capacity s (.append i) (s.setClient i { s.clients i with connecting := none })
  | append {s i c pool} (executes : .executing .sendManager ∈ (s.pool i).workers)
      (holds : (s.clients i).connecting = some c) (returned : (s.pool i).calls .sendManager = .idle)
      (pushed : (s.pool i).push .sendManager (.sender c) = some pool) :
      Step capacity s (.append i) ((s.setClient i { s.clients i with pool, connecting := none }).setConnection c
        fun k => { k with appended := true })
  | send {s c k} (count : Nat) (here : s.connections[c]? = some k)
      (executes : .executing (.sender c) ∈ (s.pool k.source).workers) (some_bytes : 0 < count)
      (left : count ≤ k.unsent) (room : k.buffered + count ≤ capacity) :
      Step capacity s (.send c) (s.setConnection c
        fun k => { k with unsent := k.unsent - count, buffered := k.buffered + count })
  | close {s c k w} (here : s.connections[c]? = some k)
      (executes : (s.pool k.source).workers[w]? = some (.executing (.sender c))) (done : k.unsent = 0) :
      Step capacity s (.close c) ((s.setClient k.source { s.clients k.source with
        pool := (s.pool k.source).finish w }).setConnection c fun k => { k with closed := true })
  | accept {s c k} (here : s.connections[c]? = some k)
      (executes : .executing .recvManager ∈ (s.pool k.destination).workers)
      (returned : (s.pool k.destination).calls .recvManager = .idle) (waits : k.accepted = false) :
      Step capacity s (.accept c) (s.setConnection c fun k => { k with accepted := true })
  | give {s c k pool} (here : s.connections[c]? = some k)
      (executes : .executing .recvManager ∈ (s.pool k.destination).workers)
      (returned : (s.pool k.destination).calls .recvManager = .idle) (accepted : k.accepted = true)
      (fresh : k.given = false) (event : 0 < k.buffered ∨ k.closed = true)
      (pushed : (s.pool k.destination).push .recvManager (.receFile c) = some pool) :
      Step capacity s (.give c) ((s.setClient k.destination { s.clients k.destination with pool }).setConnection c
        fun k => { k with given := true })
  | lose {s c k} (here : s.connections[c]? = some k)
      (executes : .executing .recvManager ∈ (s.pool k.destination).workers)
      (returned : (s.pool k.destination).calls .recvManager = .idle) (accepted : k.accepted = true)
      (fresh : k.given = false) (event : 0 < k.buffered ∨ k.closed = true)
      (full : (s.pool k.destination).push .recvManager (.receFile c) = none) :
      Step capacity s (.lose c) (s.setConnection c fun k => { k with given := true })
  | recv {s c k} (count : Nat) (here : s.connections[c]? = some k)
      (executes : .executing (.receFile c) ∈ (s.pool k.destination).workers) (some_bytes : 0 < count)
      (asked : count ≤ RECEFILE_BUFFER_SIZE) (there : count ≤ k.buffered) :
      Step capacity s (.recv c) (s.setConnection c fun k => { k with buffered := k.buffered - count })
  | eof {s c k w} (here : s.connections[c]? = some k)
      (executes : (s.pool k.destination).workers[w]? = some (.executing (.receFile c))) (empty : k.buffered = 0)
      (closed : k.closed = true) :
      Step capacity s (.eof c) ((s.setClient k.destination { s.clients k.destination with
        pool := (s.pool k.destination).finish w }).setConnection c fun k => { k with drained := true })
  | pool {s i a pool} (step : (s.pool i).Step a pool) :
      Step capacity s (.pool i a) (s.setClient i { s.clients i with pool })

/-- Every connection with an event is given to the pool: the queue has room. -/
def Gives (_ : Cluster n) : ClusterAction n → Prop
  | .lose _ => False
  | _ => True

/-- Every client is in its event loop. -/
def Started (s : Cluster n) : Prop :=
  ∀ i, (s.clients i).startup = .eventLoop ∧ (s.pool i).calls .eventLoop = .idle

/-- Some task that sends or receives bytes has been appended to a pool, and its
`run` has not returned. -/
def Unfinished (s : Cluster n) : Prop := ∃ i c, (s.pool i).Holds (.sender c) ∨ (s.pool i).Holds (.receFile c)

/-- Some worker can take a step. While some client starts up, the step may be
that of a main thread. -/
def Progresses (capacity : Nat) (s : Cluster n) : Prop :=
  ∃ a t, Step capacity s a t ∧ (a.ByWorker ∨ ¬ s.Started ∧ a.ByMain)

end Cluster

/-- The pools cannot deadlock: whatever the number of clients, the capacity of a
connection and the flows, an unfinished task leaves a step to take. -/
def DeadlockFree (pool : ThreadPool Caller Job) : Prop :=
  ∀ n capacity acts (s : Cluster n), 0 < capacity →
    Run (Where (Cluster.Step capacity) Cluster.Gives) (.init n pool) acts s → s.Unfinished → s.Progresses capacity

end CoflowSim
