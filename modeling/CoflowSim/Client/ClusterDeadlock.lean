import CoflowSim.Client.ClusterProgress

namespace CoflowSim
open Lib

/-- A connection of the only client to itself, for one KB: its `Sender` is in the
pool, it is accepted, it is full with one byte, its `ReceFile` is in the pool. -/
def Connection.handed : Connection 1 := { Connection.make 0 0 1 with appended := true }
def Connection.waiting : Connection 1 := { Connection.handed with accepted := true }
def Connection.full : Connection 1 := { Connection.waiting with unsent := SENDER_BUFFER_SIZE - 1, buffered := 1 }
def Connection.queued : Connection 1 := { Connection.full with given := true }

namespace Cluster

section Lone

variable {capacity threads tasks : Nat} {p q : ThreadPool Caller Job} {jobs queued : List Job}
  {cs before after : List (Connection 1)} {acts : List (PoolAction Caller)}

/-- The only client, in its event loop. -/
def lone (p : ThreadPool Caller Job) (instructions : List (Fin 1 × Nat)) (connecting : Option Nat)
    (cs : List (Connection 1)) : Cluster 1 :=
  ⟨fun _ => ⟨.eventLoop, p, instructions, connecting⟩, cs⟩

theorem setClient_one (s : Cluster 1) (i : Fin 1) (client : Client 1) :
    s.setClient i client = ⟨fun _ => client, s.connections⟩ := by
  have same : Function.update s.clients i client = fun _ => client := by
    funext j
    rw [Subsingleton.elim j i, Function.update_self]
  rw [setClient, same]

theorem modify_middle {α : Type} (before : List α) (x : α) (after : List α) (change : α → α) :
    (before ++ x :: after).modify before.length change = before ++ change x :: after := by
  induction before with
  | nil => rfl
  | cons y before ih => rw [List.cons_append, List.length_cons, List.modify_succ_cons, ih, List.cons_append]

theorem pool_run (capacity : Nat) (startup : StartUp) (run : Run ThreadPool.Step p acts q) :
    Run (Where (Step capacity) Gives) ⟨fun _ => ⟨startup, p, [], none⟩, cs⟩ (acts.map (.pool 0))
      ⟨fun _ => ⟨startup, q, [], none⟩, cs⟩ := by
  induction run with
  | start => exact .start
  | @next acts p a q _ last ih =>
    have taken : Step capacity ⟨fun _ => ⟨startup, p, [], none⟩, cs⟩ (.pool 0 a) _ := .pool last
    rw [setClient_one] at taken
    rw [List.map_append]
    exact ih.next ⟨trivial, taken⟩

theorem lone_pool_run (capacity : Nat) (run : Run ThreadPool.Step p acts q) :
    Run (Where (Step capacity) Gives) (lone p [] none cs) (acts.map (.pool 0)) (lone q [] none cs) :=
  pool_run capacity .eventLoop run

/-- A flow of one KB, up to the call of `append` with its `Sender`. -/
theorem hands (capacity : Nat) (idle : ∀ c, p.calls c = .idle) (send : .executing .sendManager ∈ p.workers)
    (pushed : p.push .sendManager (.sender cs.length) = some q) :
    Run (Where (Step capacity) Gives) (lone p [] none cs) [.instruct 0, .connect 0, .append 0]
      (lone q [] none (cs ++ [.handed])) := by
  have instruct : Step capacity (lone p [] none cs) (.instruct 0) _ := .instruct 0 1 rfl (idle _)
  rw [setClient_one] at instruct
  have connect : Step capacity (lone p [(0, 1)] none cs) (.connect 0) _ := .connect send (idle _) rfl rfl
  rw [setClient_one] at connect
  have append : Step capacity (lone p [] (some cs.length) (cs ++ [.make 0 0 1])) (.append 0) _ :=
    .append send rfl (idle _) pushed
  rw [setClient_one, setConnection] at append
  simp only [lone, modify_middle] at append
  exact ((Run.start.next ⟨trivial, instruct⟩).next ⟨trivial, connect⟩).next ⟨trivial, append⟩

theorem accepts (capacity : Nat) (idle : ∀ c, p.calls c = .idle) (recv : .executing .recvManager ∈ p.workers) :
    Step capacity (lone p [] none (before ++ .handed :: after)) (.accept before.length)
      (lone p [] none (before ++ .waiting :: after)) := by
  have here : (before ++ Connection.handed :: after)[before.length]? = some .handed := by simp
  have accept : Step capacity (lone p [] none (before ++ .handed :: after)) (.accept before.length) _ :=
    .accept here recv (idle _) rfl
  rw [setConnection] at accept
  simp only [lone, modify_middle] at accept
  exact accept

theorem fills (executes : .executing (.sender before.length) ∈ p.workers) :
    Step 1 (lone p [] none (before ++ .waiting :: after)) (.send before.length)
      (lone p [] none (before ++ .full :: after)) := by
  have here : (before ++ Connection.waiting :: after)[before.length]? = some .waiting := by simp
  have fill : Step 1 (lone p [] none (before ++ .waiting :: after)) (.send before.length) _ :=
    .send 1 here executes Nat.one_pos (by decide) (by decide)
  rw [setConnection] at fill
  simp only [lone, modify_middle] at fill
  exact fill

/-- A `Sender` that gets a thread fills its connection. -/
theorem launches (cs : List (Connection 1)) (occupied : p.Occupied threads tasks jobs []) (send : .sendManager ∈ jobs)
    (recv : .recvManager ∈ jobs) (room : jobs.length < threads) :
    ∃ acts q, q.Occupied threads tasks (jobs ++ [.sender cs.length]) [] ∧
      Run (Where (Step 1) Gives) (lone p [] none cs) acts (lone q [] none (cs ++ [.full])) := by
  obtain ⟨q, more, r, pushed, spawning, occupied'⟩ := occupied.append (Or.inr room) .sendManager (.sender cs.length)
  have sendManager : .executing .sendManager ∈ p.workers := by simpa [occupied.workers] using send
  have recvManager : .executing .recvManager ∈ r.workers := by simp [occupied'.workers, recv]
  have sender : .executing (.sender cs.length) ∈ r.workers := by simp [occupied'.workers]
  have run := (hands 1 occupied.idle sendManager pushed).trans (lone_pool_run 1 spawning)
  have run := run.next (a := ClusterAction.accept cs.length) ⟨trivial, accepts 1 occupied'.idle recvManager⟩
  exact ⟨_, r, occupied', run.next (a := ClusterAction.send cs.length) ⟨trivial, fills sender⟩⟩

/-- At the limit of threads, a `Sender` stays in the queue. -/
theorem queues (cs : List (Connection 1)) (occupied : p.Occupied threads tasks jobs []) (send : .sendManager ∈ jobs)
    (recv : .recvManager ∈ jobs) (full : 0 < threads ∧ threads ≤ jobs.length) :
    ∃ acts q, q.Occupied threads tasks jobs [.sender cs.length] ∧
      Run (Where (Step capacity) Gives) (lone p [] none cs) acts (lone q [] none (cs ++ [.waiting])) := by
  obtain ⟨q, more, r, pushed, posting, occupied'⟩ :=
    occupied.enqueue full (Nat.zero_le _) .sendManager (.sender cs.length)
  have sendManager : .executing .sendManager ∈ p.workers := by simpa [occupied.workers] using send
  have recvManager : .executing .recvManager ∈ r.workers := by simpa [occupied'.workers] using recv
  have run := (hands capacity occupied.idle sendManager pushed).trans (lone_pool_run capacity posting)
  exact ⟨_, r, occupied', run.next (a := ClusterAction.accept cs.length)
    ⟨trivial, accepts capacity occupied'.idle recvManager⟩⟩

/-- At the limit of threads, a `ReceFile` stays in the queue. -/
theorem gives (before after : List (Connection 1)) (occupied : p.Occupied threads tasks jobs queued)
    (recv : .recvManager ∈ jobs) (full : 0 < threads ∧ threads ≤ jobs.length) (room : queued.length ≤ tasks) :
    ∃ acts q, q.Occupied threads tasks jobs (queued ++ [.receFile before.length]) ∧
      Run (Where (Step capacity) Gives) (lone p [] none (before ++ .full :: after)) acts
        (lone q [] none (before ++ .queued :: after)) := by
  obtain ⟨q, more, r, pushed, posting, occupied'⟩ :=
    occupied.enqueue full room .recvManager (.receFile before.length)
  have recvManager : .executing .recvManager ∈ p.workers := by simpa [occupied.workers] using recv
  have here : (before ++ Connection.full :: after)[before.length]? = some .full := by simp
  have give : Step capacity (lone p [] none (before ++ .full :: after)) (.give before.length) _ :=
    .give here recvManager (occupied.idle _) rfl rfl (Or.inl Nat.one_pos) pushed
  rw [setClient_one, setConnection] at give
  simp only [lone, modify_middle] at give
  have giving : Where (Step capacity) Gives (lone p [] none (before ++ .full :: after)) (.give before.length)
      (lone q [] none (before ++ .queued :: after)) := ⟨trivial, give⟩
  exact ⟨_, r, occupied', (Run.single giving).trans (lone_pool_run capacity posting)⟩

/-- The managers and `m` Senders. -/
def launched (m : Nat) : List Job := [.recvManager, .sendManager] ++ (List.range m).map .sender

/-- With two threads or more, both managers get one. -/
theorem starts (capacity : Nat) {thread_num task_num : Int} (created : ThreadPool.create thread_num task_num = some p)
    (two : 2 ≤ thread_num) : ∃ acts q, q.Occupied thread_num.toNat task_num.toNat (launched 0) [] ∧
      Run (Where (Step capacity) Gives) (init 1 p) acts (lone q [] none []) := by
  have empty : p.Occupied thread_num.toNat task_num.toNat [] [] := by
    obtain ⟨-, rfl⟩ := ThreadPool.create_eq created
    exact ⟨rfl, rfl, rfl, rfl, fun _ => rfl, rfl, rfl⟩
  have one : ([] : List Job).length < thread_num.toNat := by
    rw [List.length_nil]
    omega
  have next : [Job.recvManager].length < thread_num.toNat := by
    rw [List.length_singleton]
    omega
  obtain ⟨r, first, q, pushed, spawning, occupied⟩ := empty.append (Or.inr one) .eventLoop .recvManager
  obtain ⟨r', second, q', pushed', spawning', occupied'⟩ := occupied.append (Or.inr next) .eventLoop .sendManager
  have startRecv : Step capacity (init 1 p) (.startUp 0) _ := .startUp rfl (empty.idle _) pushed
  rw [setClient_one] at startRecv
  have startSend : Step capacity (⟨fun _ => ⟨.sendManager, q, [], none⟩, []⟩ : Cluster 1) (.startUp 0) _ :=
    .startUp rfl (occupied.idle _) pushed'
  rw [setClient_one] at startSend
  have run := (Run.single (a := ClusterAction.startUp (0 : Fin 1)) (And.intro trivial startRecv)).trans
    (pool_run capacity .sendManager spawning)
  have run := run.next (a := ClusterAction.startUp (0 : Fin 1)) ⟨trivial, startSend⟩
  exact ⟨_, q', occupied', run.trans (pool_run capacity .eventLoop spawning')⟩

theorem launch_all (occupied : p.Occupied threads tasks (launched 0) []) (m : Nat) (room : m + 2 ≤ threads) :
    ∃ acts q, q.Occupied threads tasks (launched m) [] ∧
      Run (Where (Step 1) Gives) (lone p [] none []) acts (lone q [] none (List.replicate m .full)) := by
  induction m with
  | zero => exact ⟨[], p, occupied, .start⟩
  | succ m ih =>
    obtain ⟨acts, q, occupied', run⟩ := ih (by omega)
    obtain ⟨more, r, occupied'', launching⟩ :=
      launches (List.replicate m .full) occupied' (by simp [launched]) (by simp [launched]) (by simp [launched]; omega)
    rw [List.length_replicate] at occupied''
    rw [← List.replicate_succ'] at launching
    refine ⟨_, r, ?_, run.trans launching⟩
    rwa [launched, List.range_succ, List.map_append, ← List.append_assoc]

theorem give_all (occupied : p.Occupied threads tasks jobs []) (recv : .recvManager ∈ jobs)
    (full : 0 < threads ∧ threads ≤ jobs.length) (g rest : Nat) (room : g ≤ tasks + 1) :
    ∃ acts q, q.Occupied threads tasks jobs ((List.range g).map .receFile) ∧
      Run (Where (Step capacity) Gives) (lone p [] none (List.replicate (g + rest) .full)) acts
        (lone q [] none (List.replicate g .queued ++ List.replicate rest .full)) := by
  induction g generalizing rest with
  | zero =>
    rw [Nat.zero_add]
    exact ⟨[], p, occupied, .start⟩
  | succ g ih =>
    obtain ⟨acts, q, occupied', run⟩ := ih (rest + 1) (by omega)
    rw [List.replicate_succ, ← Nat.add_assoc, Nat.add_right_comm] at run
    obtain ⟨more, r, occupied'', giving⟩ :=
      gives (List.replicate g .queued) (List.replicate rest .full) occupied' recv full (by simp; omega)
    rw [List.length_replicate] at occupied''
    have grown : List.replicate g Connection.queued ++ .queued :: List.replicate rest .full =
        List.replicate (g + 1) .queued ++ List.replicate rest .full := by
      rw [List.replicate_succ', List.append_assoc]
      rfl
    rw [grown] at giving
    refine ⟨_, r, ?_, run.trans giving⟩
    rwa [List.range_succ, List.map_append]

/-- Every `Sender` with a thread is blocked, no `ReceFile` has one, and the
`RecvManager` has handled every event. -/
theorem jammed (occupied : p.Occupied threads tasks jobs queued)
    (senders : ∀ c k, .sender c ∈ jobs → cs[c]? = some k → 0 < k.unsent ∧ capacity ≤ k.buffered)
    (receFiles : ∀ c, .receFile c ∉ jobs)
    (seen : ∀ k ∈ cs, k.accepted = true ∧ (k.given = true ∨ k.buffered = 0 ∧ k.closed = false)) :
    ¬ (lone p [] none cs).Progresses capacity := by
  have executing {job : Job} (executes : .executing job ∈ p.workers) : job ∈ jobs := by
    simpa [occupied.workers] using executes
  rintro ⟨a, t, step, mover⟩
  cases step with
  | startUp turn | refuseManager turn => cases turn
  | instruct => rcases mover with worker | ⟨-, main⟩ <;> trivial
  | connect _ _ _ front => cases front
  | refuse _ holds | append _ holds => cases holds
  | send count here executes some_bytes left room =>
    have full := (senders _ _ (executing executes) here).2
    omega
  | close here executes done =>
    have unsent := (senders _ _ (executing (List.mem_of_getElem? executes)) here).1
    omega
  | accept here _ _ waits =>
    have accepted := (seen _ (List.mem_of_getElem? here)).1
    rw [waits] at accepted
    cases accepted
  | give here _ _ _ fresh event | lose here _ _ _ fresh event =>
    rcases (seen _ (List.mem_of_getElem? here)).2 with given | ⟨empty, unclosed⟩
    · rw [fresh] at given
      cases given
    · rw [empty, unclosed] at event
      simp at event
  | recv _ _ executes => exact receFiles _ (executing executes)
  | eof _ executes => exact receFiles _ (executing (List.mem_of_getElem? executes))
  | pool step => exact occupied.no_step step

end Lone

/-- With two threads or more, that the managers and blocked tasks can occupy
while the tasks they wait for fit in the queue, the pools deadlock. -/
theorem deadlocks {thread_num task_num : Int} {pool : ThreadPool Caller Job}
    (created : ThreadPool.create thread_num task_num = some pool) (two : 2 ≤ thread_num)
    (few : thread_num ≤ task_num + 3) : ¬ DeadlockFree pool := by
  intro free
  obtain ⟨m, threads⟩ : ∃ m, thread_num.toNat = m + 2 := ⟨thread_num.toNat - 2, by omega⟩
  obtain ⟨acts, p, occupied, starting⟩ := starts 1 created two
  obtain ⟨more, q, occupied, launching⟩ := launch_all occupied m (Nat.le_of_eq threads.symm)
  have full : 0 < thread_num.toNat ∧ thread_num.toNat ≤ (launched m).length := by
    simp [launched]
    omega
  have run := starting.trans launching
  cases m with
  | zero =>
    obtain ⟨last, r, occupied, queueing⟩ := queues [] occupied (by simp [launched]) (by simp [launched]) full
    have unfinished : r.Holds (.sender 0) := Or.inl (by simp [occupied.queue])
    refine jammed occupied (fun c k member => ?_) (by simp [launched]) (fun k member => ?_)
      (free 1 1 _ _ Nat.one_pos (run.trans queueing) ⟨0, 0, Or.inl unfinished⟩)
    · simp [launched] at member
    · rw [List.mem_singleton.mp member]
      exact ⟨rfl, Or.inr ⟨rfl, rfl⟩⟩
  | succ m =>
    obtain ⟨last, r, occupied, giving⟩ := give_all occupied (by simp [launched]) full (m + 1) 0 (by omega)
    have unfinished : r.Holds (.sender 0) := Or.inr (by simp [occupied.workers, launched])
    have same (k : Connection 1) (member : k ∈ List.replicate (m + 1) .queued ++ List.replicate 0 .full) :
        k = .queued := by simpa using member
    refine jammed occupied (fun c k _ here => ?_) (by simp [launched]) (fun k member => ?_)
      (free 1 1 _ _ Nat.one_pos (run.trans giving) ⟨0, 0, Or.inl unfinished⟩)
    · rw [same k (List.mem_of_getElem? here)]
      decide
    · rw [same k member]
      exact ⟨rfl, Or.inl rfl⟩

end Cluster

/-- The pools of the clients cannot deadlock exactly without a limit of threads,
with one thread, which the `RecvManager` keeps, or with more threads than the
managers and as many blocked tasks as a queue can make up for. -/
theorem deadlock_free_iff {thread_num : Int} {pool : ThreadPool Caller Job}
    (created : ThreadPool.create thread_num 10000 = some pool) :
    DeadlockFree pool ↔ thread_num = 0 ∨ thread_num = 1 ∨ 10003 < thread_num := by
  have positive := (ThreadPool.create_eq created).1
  constructor
  · intro free
    by_contra limited
    exact Cluster.deadlocks created (by omega) (by omega) free
  · rintro limit n capacity acts s some_bytes run unfinished
    by_cases one : thread_num = 1
    · exact absurd unfinished (Cluster.single_finished (one ▸ created) run)
    · exact (Cluster.sound_run created run).progresses some_bytes (by omega) unfinished

theorem deadlock_free_unlimited : ∃ pool, ThreadPool.create 0 10000 = some pool ∧ DeadlockFree pool := by
  obtain ⟨pool, created⟩ : ∃ pool : ThreadPool Caller Job, ThreadPool.create 0 10000 = some pool := ⟨_, rfl⟩
  exact ⟨pool, created, (deadlock_free_iff created).mpr (Or.inl rfl)⟩

theorem two_threads_deadlock : ∃ pool, ThreadPool.create 2 10000 = some pool ∧ ¬ DeadlockFree pool := by
  obtain ⟨pool, created⟩ : ∃ pool : ThreadPool Caller Job, ThreadPool.create 2 10000 = some pool := ⟨_, rfl⟩
  exact ⟨pool, created, Cluster.deadlocks created (by decide) (by decide)⟩

end CoflowSim
