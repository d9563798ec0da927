import CoflowSim.Common.SocketManage
import CoflowSim.Common.ThreadPool
import CoflowSim.Lib.FormattedInput

namespace CoflowSim
open Lib

/-- `SEND_WAIT`, `SEND_RUNNING`, `SEND_END` and `TASK_END`. -/
inductive SendState
  | wait
  | running
  | ended
  | taskEnd
deriving DecidableEq

/-- How far `Sender::run` is: it sends, it has set `end_time`, it has set
`SEND_END`, it has closed `sockfd`, it has returned. -/
inductive SenderStage
  | sending
  | timed
  | signalled
  | closed
  | returned
deriving DecidableEq

/-- The fields of a task that decide what becomes of it, with the progress of
its `Sender`. -/
structure SendTask where
  coflow_id : CInt
  flow_id : CInt
  send_state : SendState
  end_time : Int
  sender : SenderStage
deriving DecidableEq

/-- The task that `appendTask` reads from an instruction. `malloc` leaves
`unset` in the two fields. -/
def SendTask.parse (ins : List Byte) (unset : CInt × CInt) : SendTask :=
  let (coflow_id, ss) := (IStream.mk (ins.takeWhile (· != 0)) false).readInt
  let (flow_id, _) := ss.readInt
  ⟨coflow_id.getD unset.1, flow_id.getD unset.2, .wait, 0, .sending⟩

def SendTask.setState (state : SendState) (task : SendTask) : SendTask := { task with send_state := state }

/-- What `Sender::run` does with its task when it has sent all its bytes. -/
def SendTask.setEndTime (time : Int) (task : SendTask) : SendTask := { task with end_time := time, sender := .timed }
def SendTask.setSendEnd (task : SendTask) : SendTask := { task with send_state := .ended, sender := .signalled }

/-- The last two steps of `Sender::run`, which leave the task alone. -/
def SendTask.setStage (stage : SenderStage) (task : SendTask) : SendTask := { task with sender := stage }

/-- The arrays that `appendTask` fills have room for the instruction and for
its address and file name, each with a NUL. Without it the call is undefined. -/
def SendTask.Fits (ins : List Byte) : Prop :=
  let ids := (IStream.mk (ins.takeWhile (· != 0)) false).readInt.2.readInt.2
  let destination_ip := ids.readToken
  let file_name := destination_ip.2.readInt.2.readToken
  ins.length < 100 ∧ destination_ip.1.length < 64 ∧ file_name.1.length < 32

instance (ins : List Byte) : Decidable (SendTask.Fits ins) :=
  inferInstanceAs (Decidable (_ ∧ _ ∧ _))

/-- `"(%d %d %ld)"` -/
def SendTask.reply (task : SendTask) : List Byte :=
  [lparen] ++ showInt task.coflow_id.val ++ [space] ++ showInt task.flow_id.val ++ [space] ++
    showInt task.end_time ++ [rparen]

/-- What the client gives to its pool. A `Sender` is named by its task. -/
inductive Job
  | recvManager
  | sendManager
  | receFile (connfd : Nat)
  | sender (task : Nat)
deriving DecidableEq

/-- The threads of the client that call `ThreadPool::append`. -/
inductive Caller
  | eventLoop
  | recvManager
  | sendManager
deriving DecidableEq

/-- How far `coflowSimClient` is: the manager that it appends next, or its
event loop. -/
inductive StartUp
  | recvManager
  | sendManager
  | eventLoop
deriving DecidableEq

/-- Where `SendManager::run` stands. -/
inductive ManagerPhase
  | waiting
  | woken
  | connecting (task : Nat)
  | appending (task : Nat)
  | appended (task : Nat)
  | marked (task : Nat)
  | scanning (rest : List Nat)
  | replying (task : Nat) (reply : List Byte) (rest : List Nat)
  | sending (task : Nat) (rest : List Nat)
  | deleting
deriving DecidableEq

/-- The client's sending side. A pointer to a task is its position in `tasks`,
where every `appendTask` puts one. `posting` says that the event loop stands
between the push and the post of `appendTask`. `replies` are the replies that
`setSendMsg` has taken, with their tasks. -/
structure SendManager where
  startup : StartUp
  tasks : List SendTask
  max_task_number : Nat
  send_task_wait_queue : List Nat
  wait_queue_sem : Nat
  posting : Bool
  send_task_running_queue : List Nat
  phase : ManagerPhase
  pool : ThreadPool Caller Job
  masterSockManger : SocketManage
  replies : List (Nat × List Byte)

/-- The atomic steps: those of `coflowSimClient` at its start and in
`appendTask`, those of `SendManager::run`, those of the pool, of the
`RecvManager` and of a `ReceFile`, and those of `Sender::run`. -/
inductive ClientAction
  | startUp
  | appendTask (ins : List Byte) (unset : CInt × CInt)
  | post
  | wait
  | pop
  | append (task : Nat)
  | appendReturns (task : Nat)
  | mark (task : Nat)
  | push (task : Nat)
  | scan
  | setSendMsg (task : Nat)
  | sendMsg (task : Nat) (kernel : SendOutcome)
  | delete
  | pool (action : PoolAction Caller)
  | appendReceFile (connfd : Nat)
  | receFileReturns (connfd : Nat)
  | setEndTime (task : Nat) (time : Int)
  | setSendEnd (task : Nat)
  | close (task : Nat)
  | senderReturns (task : Nat)

namespace SendManager

/-- The client when it has created its pool; 65536 is the limit of tasks that it
leaves in place. -/
def init (pool : ThreadPool Caller Job) : SendManager :=
  { startup := .recvManager, tasks := [], max_task_number := 65536, send_task_wait_queue := [], wait_queue_sem := 0
    posting := false, send_task_running_queue := [], phase := .waiting, pool, masterSockManger := .initSocket
    replies := [] }

def setTask (s : SendManager) (t : Nat) (change : SendTask → SendTask) : SendManager :=
  { s with tasks := s.tasks.modify t change }

/-- The state of a task. -/
def stateOf (s : SendManager) (t : Nat) : Option SendState := s.tasks[t]?.map fun task => task.send_state

/-- How far the `Sender` of a task is. -/
def stageOf (s : SendManager) (t : Nat) : Option SenderStage := s.tasks[t]?.map fun task => task.sender

/-- The event loop runs, and is not inside a call. -/
def Listening (s : SendManager) : Prop :=
  s.startup = .eventLoop ∧ s.pool.calls .eventLoop = .idle ∧ s.posting = false

inductive Step : SendManager → ClientAction → SendManager → Prop
  | startRecv {s pool} (first : s.startup = .recvManager) (pushed : s.pool.push .eventLoop .recvManager = some pool) :
      Step s .startUp { s with pool, startup := .sendManager }
  | startSend {s pool} (second : s.startup = .sendManager) (returned : s.pool.calls .eventLoop = .idle)
      (pushed : s.pool.push .eventLoop .sendManager = some pool) :
      Step s .startUp { s with pool, startup := .eventLoop }
  | refuseTask {s ins unset} (listens : s.Listening) (fits : SendTask.Fits ins)
      (full : s.max_task_number < s.send_task_wait_queue.length) :
      Step s (.appendTask ins unset) { s with tasks := s.tasks ++ [.parse ins unset] }
  | appendTask {s ins unset} (listens : s.Listening) (fits : SendTask.Fits ins)
      (room : s.send_task_wait_queue.length ≤ s.max_task_number) :
      Step s (.appendTask ins unset) { s with
        tasks := s.tasks ++ [.parse ins unset]
        send_task_wait_queue := s.send_task_wait_queue ++ [s.tasks.length], posting := true }
  | post {s} (pushed : s.posting = true) :
      Step s .post { s with wait_queue_sem := s.wait_queue_sem + 1, posting := false }
  | wait {s} (executes : .executing .sendManager ∈ s.pool.workers) (waits : s.phase = .waiting)
      (posted : 0 < s.wait_queue_sem) :
      Step s .wait { s with wait_queue_sem := s.wait_queue_sem - 1, phase := .woken }
  | popNone {s} (wakes : s.phase = .woken) (empty : s.send_task_wait_queue = []) :
      Step s .pop { s with phase := .waiting }
  | pop {s t rest} (wakes : s.phase = .woken) (front : s.send_task_wait_queue = t :: rest) :
      Step s .pop { s with send_task_wait_queue := rest, phase := .connecting t }
  -- the result of `pool->append` is dropped
  | refuseSender {s t} (holds : s.phase = .connecting t) (full : s.pool.push .sendManager (.sender t) = none) :
      Step s (.append t) { s with phase := .appended t }
  | append {s t pool} (holds : s.phase = .connecting t) (pushed : s.pool.push .sendManager (.sender t) = some pool) :
      Step s (.append t) { s with pool, phase := .appending t }
  | appendReturns {s t} (appends : s.phase = .appending t) (returned : s.pool.calls .sendManager = .idle) :
      Step s (.appendReturns t) { s with phase := .appended t }
  | mark {s t} (appended : s.phase = .appended t) :
      Step s (.mark t) { s.setTask t (.setState .running) with phase := .marked t }
  | push {s t} (marked : s.phase = .marked t) :
      Step s (.push t) { s with
        send_task_running_queue := s.send_task_running_queue ++ [t]
        phase := .scanning (s.send_task_running_queue ++ [t]) }
  | pass {s t rest} (scans : s.phase = .scanning (t :: rest)) (other : s.stateOf t ≠ some .ended) :
      Step s .scan { s with phase := .scanning rest }
  | find {s t rest task} (scans : s.phase = .scanning (t :: rest)) (here : s.tasks[t]? = some task)
      (ended : task.send_state = .ended) : Step s .scan { s with phase := .replying t task.reply rest }
  | scanned {s} (scans : s.phase = .scanning []) : Step s .scan { s with phase := .deleting }
  | refuseReply {s t reply rest} (replies : s.phase = .replying t reply rest)
      (refused : (s.masterSockManger.setSendMsg reply).result = false) :
      Step s (.setSendMsg t) { s with masterSockManger := (s.masterSockManger.setSendMsg reply).socket }
  | takeReply {s t reply rest} (replies : s.phase = .replying t reply rest)
      (taken : (s.masterSockManger.setSendMsg reply).result = true) :
      Step s (.setSendMsg t) { s with
        masterSockManger := (s.masterSockManger.setSendMsg reply).socket
        replies := s.replies ++ [(t, reply)], phase := .sending t rest }
  | sendMsg {s t rest} (kernel : SendOutcome) (sends : s.phase = .sending t rest) :
      Step s (.sendMsg t kernel) { s.setTask t (.setState .taskEnd) with
        masterSockManger := (s.masterSockManger.sendMsg kernel).socket, phase := .scanning rest }
  | delete {s} (deletes : s.phase = .deleting) :
      Step s .delete { s with
        send_task_running_queue := s.send_task_running_queue.filter fun t => s.stateOf t ≠ some .taskEnd
        phase := .waiting }
  | pool {s a pool} (step : s.pool.Step a pool) : Step s (.pool a) { s with pool }
  | refuseReceFile {s connfd} (executes : .executing .recvManager ∈ s.pool.workers)
      (returned : s.pool.calls .recvManager = .idle) (full : s.pool.push .recvManager (.receFile connfd) = none) :
      Step s (.appendReceFile connfd) s
  | appendReceFile {s connfd pool} (executes : .executing .recvManager ∈ s.pool.workers)
      (returned : s.pool.calls .recvManager = .idle)
      (pushed : s.pool.push .recvManager (.receFile connfd) = some pool) :
      Step s (.appendReceFile connfd) { s with pool }
  | receFileReturns {s connfd i} (executes : s.pool.workers[i]? = some (.executing (.receFile connfd))) :
      Step s (.receFileReturns connfd) { s with pool := s.pool.finish i }
  | setEndTime {s t} (time : Int) (executes : .executing (.sender t) ∈ s.pool.workers)
      (sends : s.stageOf t = some .sending) :
      Step s (.setEndTime t time) (s.setTask t (.setEndTime time))
  | setSendEnd {s t} (executes : .executing (.sender t) ∈ s.pool.workers) (timed : s.stageOf t = some .timed) :
      Step s (.setSendEnd t) (s.setTask t .setSendEnd)
  | close {s t} (executes : .executing (.sender t) ∈ s.pool.workers) (signalled : s.stageOf t = some .signalled) :
      Step s (.close t) (s.setTask t (.setStage .closed))
  | senderReturns {s t i} (executes : s.pool.workers[i]? = some (.executing (.sender t)))
      (closed : s.stageOf t = some .closed) :
      Step s (.senderReturns t) { s.setTask t (.setStage .returned) with pool := s.pool.finish i }

end SendManager

end CoflowSim
