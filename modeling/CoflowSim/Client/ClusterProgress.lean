import Mathlib.Algebra.Order.BigOperators.Group.Finset
import CoflowSim.Client.ClusterInvariant

namespace CoflowSim
open Lib

/-- The task at the other end of the connection. -/
def Job.peer : Job → Job
  | .sender c => .receFile c
  | .receFile c => .sender c
  | job => job

theorem Job.peer_injective : Function.Injective Job.peer := by
  intro job other same
  cases job <;> cases other <;> simp_all [Job.peer]

namespace Cluster

variable {n threads tasks capacity : Nat} {s : Cluster n}

theorem Sound.held_nodup (sound : Sound threads tasks s) (i : Fin n) : (s.pool i).held.Nodup := by
  have once (at_ : Connection n → Fin n) (test : Connection n → Bool) (c : Nat) :
      expected s.connections at_ test i c ≤ 1 := by
    unfold expected
    split
    · split <;> omega
    · omega
  refine List.nodup_iff_count_le_one.mpr fun job => ?_
  cases job with
  | recvManager => exact (sound.managed i).recvManager
  | sendManager =>
    have bound := (sound.managed i).sendManager
    split at bound <;> omega
  | sender c => exact (sound.senders i c).trans_le (once ..)
  | receFile c => exact (sound.receFiles i c).trans_le (once ..)

/-- The tasks of a client's workers, apart from its managers. -/
def busy (s : Cluster n) (i : Fin n) : Finset Job :=
  ((s.pool i).workers.filterMap Worker.task?).toFinset \ {.recvManager, .sendManager}

theorem mem_busy {i : Fin n} {job : Job} :
    job ∈ s.busy i ↔ .executing job ∈ (s.pool i).workers ∧ job ≠ .recvManager ∧ job ≠ .sendManager := by
  simp [busy, ThreadPool.mem_tasks, -List.mem_filterMap]

/-- Only one client has a task of a connection. -/
theorem Sound.busy_disjoint (sound : Sound threads tasks s) {i j : Fin n} (apart : i ≠ j) :
    Disjoint (s.busy i) (s.busy j) := by
  rw [Finset.disjoint_left]
  intro job here there
  obtain ⟨executes, recv, send⟩ := mem_busy.mp here
  obtain ⟨executes', -, -⟩ := mem_busy.mp there
  cases job with
  | recvManager => exact recv rfl
  | sendManager => exact send rfl
  | sender c =>
    obtain ⟨k, atC, rfl, -⟩ := sound.sends_of_held (Or.inr executes)
    obtain ⟨l, atC', rfl, -⟩ := sound.sends_of_held (Or.inr executes')
    cases atC.symm.trans atC'
    exact apart rfl
  | receFile c =>
    obtain ⟨k, atC, rfl, -⟩ := sound.receives_of_held (Or.inr executes)
    obtain ⟨l, atC', rfl, -⟩ := sound.receives_of_held (Or.inr executes')
    cases atC.symm.trans atC'
    exact apart rfl

/-- All but two threads of a full pool are at a task of a connection. -/
theorem Sound.threads_le_busy (sound : Sound threads tasks s) {i : Fin n} (full : (s.pool i).Full)
    (executing : ∀ w ∈ (s.pool i).workers, ∃ task, w = .executing task) : threads ≤ (s.busy i).card + 2 := by
  have nodup : ((s.pool i).workers.filterMap Worker.task?).Nodup :=
    (sound.held_nodup i).sublist (List.sublist_append_right _ _)
  have length : ((s.pool i).workers.filterMap Worker.task?).length = (s.pool i).workers.length := by
    rw [List.length_filterMap_eq_countP, List.countP_eq_length]
    intro w member
    obtain ⟨task, rfl⟩ := executing w member
    rfl
  have managers : ({.recvManager, .sendManager} : Finset Job).card ≤ 2 := Finset.card_le_two
  have rest := Finset.le_card_sdiff {.recvManager, .sendManager} ((s.pool i).workers.filterMap Worker.task?).toFinset
  rw [List.toFinset_card_of_nodup nodup, length] at rest
  have limit := (sound.managed i).ready.threads
  have most := full.2
  unfold busy
  omega

/-! What holds in a state in which no worker can take a step. -/

section Stuck

variable (sound : Sound threads tasks s) (stuck : ¬ s.Progresses capacity)

include stuck

theorem unstarted_main {i : Fin n} {a : ClusterAction n} {t : Cluster n} (step : Step capacity s a t) (main : a.ByMain)
    (other : (s.clients i).startup = .eventLoop → (s.pool i).calls .eventLoop ≠ .idle) : False :=
  stuck ⟨a, t, step, Or.inr ⟨fun started => other (started i).1 (started i).2, main⟩⟩

theorem idle_of_stuck (i : Fin n) (c : Caller) : (s.pool i).calls c = .idle := by
  by_contra active
  obtain ⟨a, q, caller, step⟩ := ThreadPool.call_steps active
  by_cases main : c = .eventLoop
  · subst main
    exact unstarted_main stuck (.pool step) caller fun _ => active
  · exact stuck ⟨.pool i a, _, .pool step, Or.inl (by simpa [ClusterAction.ByWorker, caller] using main)⟩

include sound

theorem full_of_stuck {i : Fin n} (queued : (s.pool i).task_queue_ ≠ []) :
    (s.pool i).Full ∧ ∀ w ∈ (s.pool i).workers, ∃ task, w = .executing task := by
  rcases ThreadPool.worker_steps (sound.managed i).ready (idle_of_stuck stuck i) queued with ⟨a, q, caller, step⟩ | full
  · exact (stuck ⟨.pool i a, _, .pool step, Or.inl (by simp [ClusterAction.ByWorker, caller])⟩).elim
  · exact full

theorem manager_of_stuck (i : Fin n) : .executing .recvManager ∈ (s.pool i).workers := by
  by_cases queued : (s.pool i).task_queue_ = []
  · rcases (sound.managed i).led with ⟨first, -⟩ | ⟨-, leads⟩
    · have room : ¬ (s.pool i).max_task_num_ < (s.pool i).task_queue_.length := by simp [queued]
      have turn : (s.clients i).startup.turn = some (.recvManager, .sendManager) := by rw [first]; rfl
      obtain ⟨pool, pushed⟩ : ∃ pool, (s.pool i).push .eventLoop .recvManager = some pool :=
        ⟨_, by rw [ThreadPool.push, if_neg room]⟩
      have unstarted : (s.clients i).startup ≠ .eventLoop := by simp [first]
      exact (unstarted_main stuck (.startUp turn (idle_of_stuck stuck i _) pushed) (i := i) (a := .startUp i)
        trivial fun started => absurd started unstarted).elim
    · exact leads.resolve_right fun waits => by simp [queued] at waits
  · obtain ⟨full, tasks⟩ := full_of_stuck sound stuck queued
    obtain ⟨w, member⟩ := List.exists_mem_of_length_pos (full.1.trans_le full.2)
    obtain ⟨task, rfl⟩ := tasks w member
    exact ((sound.managed i).leads (Or.inr member)).executes member

/-- A `Sender` at its task waits for a `ReceFile` that waits in a queue. -/
theorem receFile_of_stuck (positive : 0 < capacity) {i : Fin n} {c : Nat}
    (executes : .executing (.sender c) ∈ (s.pool i).workers) : ∃ j, .receFile c ∈ (s.pool j).task_queue_ := by
  obtain ⟨k, here, rfl, -⟩ := sound.sends_of_held (Or.inr executes)
  have manager := manager_of_stuck sound stuck k.destination
  have returned := idle_of_stuck stuck k.destination .recvManager
  have unsent : 0 < k.unsent := by
    by_contra done
    obtain ⟨w, atW⟩ := List.getElem?_of_mem executes
    exact stuck ⟨.close c, _, .close here atW (by omega), Or.inl trivial⟩
  have filled : 0 < k.buffered := by
    by_contra empty
    exact stuck ⟨.send c, _, .send 1 here executes Nat.one_pos unsent (by omega), Or.inl trivial⟩
  have accepted : k.accepted = true := by
    by_contra waits
    exact stuck ⟨.accept c, _, .accept here manager returned (by simpa using waits), Or.inl trivial⟩
  have given : k.given = true := by
    by_contra fresh
    have fresh : k.given = false := by simpa using fresh
    cases pushed : (s.pool k.destination).push .recvManager (.receFile c) with
    | none =>
      exact stuck ⟨.lose c, _, .lose here manager returned accepted fresh (Or.inl filled) pushed, Or.inl trivial⟩
    | some =>
      exact stuck ⟨.give c, _, .give here manager returned accepted fresh (Or.inl filled) pushed, Or.inl trivial⟩
  have unread : k.drained = false := by
    by_contra read
    obtain ⟨-, -, -, drained⟩ := sound.sane k (List.mem_of_getElem? here)
    have empty := (drained (by simpa using read)).2.1
    omega
  refine ⟨k.destination, (sound.held_of_receives here (by simp [Connection.receives, given, unread])).resolve_right
    fun reads => stuck ?_⟩
  exact ⟨.recv c, _, .recv 1 here reads Nat.one_pos (by decide) filled, Or.inl trivial⟩

/-- A `ReceFile` at its task waits for a `Sender` that waits in a queue. -/
theorem sender_of_stuck (positive : 0 < capacity) {i : Fin n} {c : Nat}
    (executes : .executing (.receFile c) ∈ (s.pool i).workers) : ∃ j, .sender c ∈ (s.pool j).task_queue_ := by
  obtain ⟨k, here, rfl, receives⟩ := sound.receives_of_held (Or.inr executes)
  obtain ⟨-, -, given, -⟩ := sound.sane k (List.mem_of_getElem? here)
  have empty : k.buffered = 0 := by
    by_contra filled
    exact stuck ⟨.recv c, _, .recv 1 here executes Nat.one_pos (by decide) (by omega), Or.inl trivial⟩
  have unclosed : k.closed = false := by
    by_contra closed
    obtain ⟨w, atW⟩ := List.getElem?_of_mem executes
    exact stuck ⟨.eof c, _, .eof here atW empty (by simpa using closed), Or.inl trivial⟩
  have appended := given (Bool.and_eq_true_iff.mp receives).1
  refine ⟨k.source, (sound.held_of_sends here (by simp [Connection.sends, appended, unclosed])).resolve_right
    fun sends => stuck ?_⟩
  by_cases done : k.unsent = 0
  · obtain ⟨w, atW⟩ := List.getElem?_of_mem sends
    exact ⟨.close c, _, .close here atW done, Or.inl trivial⟩
  · exact ⟨.send c, _, .send 1 here sends Nat.one_pos (by omega) (by omega), Or.inl trivial⟩

theorem peer_of_stuck (positive : 0 < capacity) {i : Fin n} {job : Job} (member : job ∈ s.busy i) :
    ∃ j, job.peer ∈ (s.pool j).task_queue_ := by
  obtain ⟨executes, recv, send⟩ := mem_busy.mp member
  cases job with
  | recvManager => exact absurd rfl recv
  | sendManager => exact absurd rfl send
  | sender c => exact receFile_of_stuck sound stuck positive executes
  | receFile c => exact sender_of_stuck sound stuck positive executes

/-- No more tasks are blocked than wait in the queues. -/
theorem sum_busy_le (positive : 0 < capacity) :
    ∑ i, (s.busy i).card ≤ ∑ i, (s.pool i).task_queue_.length := by
  have disjoint : ((Finset.univ : Finset (Fin n)) : Set (Fin n)).PairwiseDisjoint s.busy :=
    fun i _ j _ apart => sound.busy_disjoint apart
  have waiting : (Finset.univ.biUnion s.busy).image Job.peer ⊆
      Finset.univ.biUnion fun i => (s.pool i).task_queue_.toFinset := by
    intro job member
    obtain ⟨other, blocked, rfl⟩ := Finset.mem_image.mp member
    obtain ⟨i, -, executes⟩ := Finset.mem_biUnion.mp blocked
    obtain ⟨j, queued⟩ := peer_of_stuck sound stuck positive executes
    exact Finset.mem_biUnion.mpr ⟨j, Finset.mem_univ j, List.mem_toFinset.mpr queued⟩
  calc ∑ i, (s.busy i).card
      = (Finset.univ.biUnion s.busy).card := (Finset.card_biUnion disjoint).symm
    _ = ((Finset.univ.biUnion s.busy).image Job.peer).card :=
        (Finset.card_image_of_injective _ Job.peer_injective).symm
    _ ≤ (Finset.univ.biUnion fun i => (s.pool i).task_queue_.toFinset).card := Finset.card_le_card waiting
    _ ≤ ∑ i, (s.pool i).task_queue_.toFinset.card := Finset.card_biUnion_le
    _ ≤ ∑ i, (s.pool i).task_queue_.length := Finset.sum_le_sum fun i _ => List.toFinset_card_le _

/-- With more threads than the managers and a full queue account for, all
queues are empty. -/
theorem queue_of_stuck (positive : 0 < capacity) (many : threads = 0 ∨ tasks + 3 < threads) (i : Fin n) :
    (s.pool i).task_queue_ = [] := by
  by_contra queued
  have blocked (j : Fin n) (waits : (s.pool j).task_queue_ ≠ []) :
      (s.pool j).task_queue_.length < (s.busy j).card := by
    obtain ⟨full, executing⟩ := full_of_stuck sound stuck waits
    have most := sound.threads_le_busy full executing
    have bounded := (sound.managed j).ready.bounded
    have limit := (sound.managed j).ready.threads
    have some_limit := full.1
    omega
  have fewer : ∑ j, (s.pool j).task_queue_.length < ∑ j, (s.busy j).card := by
    refine Finset.sum_lt_sum (fun j _ => ?_) ⟨i, Finset.mem_univ i, blocked i queued⟩
    by_cases waits : (s.pool j).task_queue_ = []
    · simp [waits]
    · exact (blocked j waits).le
  exact absurd (sum_busy_le sound stuck positive) (Nat.not_le.mpr fewer)

end Stuck

/-- Without a limit of threads, or with more of them than tasks fit in a queue,
the pools do not deadlock. -/
theorem Sound.progresses (sound : Sound threads tasks s) (positive : 0 < capacity)
    (many : threads = 0 ∨ tasks + 3 < threads) (unfinished : s.Unfinished) : s.Progresses capacity := by
  by_contra stuck
  have empty := queue_of_stuck sound stuck positive many
  have executes {i : Fin n} {job : Job} (holds : (s.pool i).Holds job) : .executing job ∈ (s.pool i).workers :=
    holds.resolve_left (by simp [empty])
  obtain ⟨i, c, sender | receFile⟩ := unfinished
  · obtain ⟨j, queued⟩ := receFile_of_stuck sound stuck positive (executes sender)
    simp [empty] at queued
  · obtain ⟨j, queued⟩ := sender_of_stuck sound stuck positive (executes receFile)
    simp [empty] at queued

/-- With one thread, which the `RecvManager` keeps, no connection is ever made. -/
structure Alone (s : Cluster n) : Prop where
  single : ∀ i, (s.pool i).Single .eventLoop
  connecting : ∀ i, (s.clients i).connecting = none
  connections : s.connections = []

theorem Sound.no_sendManager (sound : Sound threads tasks s) {i : Fin n} (single : (s.pool i).Single .eventLoop) :
    .executing .sendManager ∉ (s.pool i).workers := by
  intro send
  have recv := ((sound.managed i).leads (Or.inr send)).executes send
  obtain ⟨w, only⟩ : ∃ w, ∀ v ∈ (s.pool i).workers, v = w := by
    have length := single.workers
    match workers : (s.pool i).workers with
    | [] => exact ⟨.starting, nofun⟩
    | [w] => exact ⟨w, fun v member => List.mem_singleton.mp member⟩
    | _ :: _ :: _ =>
      rw [workers] at length
      simp at length
  cases (only _ recv).trans (only _ send).symm

theorem Alone.client (alone : Alone s) {i : Fin n} {client : Client n} (single : client.pool.Single .eventLoop)
    (connecting : client.connecting = none) : Alone (s.setClient i client) := by
  refine ⟨fun j => ?_, fun j => ?_, alone.connections⟩
  · rw [pool_setClient]
    split
    · exact single
    · exact alone.single j
  · rw [clients_setClient]
    split
    · exact connecting
    · exact alone.connecting j

theorem Alone.step {t : Cluster n} {a : ClusterAction n} (alone : Alone s) (sound : Sound 1 tasks s)
    (step : Step capacity s a t) : Alone t := by
  have none_made {c : Nat} {k : Connection n} : s.connections[c]? ≠ some k := by
    rw [alone.connections]
    nofun
  cases step with
  | @startUp i job next pool turn returned pushed =>
    exact alone.client ((alone.single i).push pushed) (alone.connecting i)
  | @refuseManager i => exact alone.client (alone.single i) (alone.connecting i)
  | @instruct i => exact alone.client (alone.single i) (alone.connecting i)
  | connect executes => exact absurd executes (sound.no_sendManager (alone.single _))
  | refuse executes => exact absurd executes (sound.no_sendManager (alone.single _))
  | append executes => exact absurd executes (sound.no_sendManager (alone.single _))
  | send _ here | close here | accept here | give here | lose here | recv _ here | eof here =>
    exact absurd here none_made
  | @pool i a pool step =>
    exact alone.client ((alone.single i).step (sound.managed i).ready step) (alone.connecting i)

theorem alone_init {task_num : Int} {pool : ThreadPool Caller Job}
    (created : ThreadPool.create 1 task_num = some pool) : Alone (init n pool) := by
  obtain ⟨-, rfl⟩ := ThreadPool.create_eq created
  exact ⟨fun _ => ⟨fun _ _ => rfl, fun _ => rfl, Nat.zero_le _⟩, fun _ => rfl, rfl⟩

theorem Alone.finished (alone : Alone s) (sound : Sound threads tasks s) : ¬ s.Unfinished := by
  rintro ⟨i, c, sender | receFile⟩
  · obtain ⟨k, here, -⟩ := sound.sends_of_held sender
    simp [alone.connections] at here
  · obtain ⟨k, here, -⟩ := sound.receives_of_held receFile
    simp [alone.connections] at here

theorem single_finished {task_num : Int} {pool : ThreadPool Caller Job} {acts : List (ClusterAction n)}
    (created : ThreadPool.create 1 task_num = some pool)
    (run : Run (Where (Step capacity) Gives) (init n pool) acts s) : ¬ s.Unfinished := by
  have start : Sound 1 task_num.toNat (init n pool) ∧ Alone (init n pool) := ⟨sound_init created, alone_init created⟩
  have both : Sound 1 task_num.toNat s ∧ Alone s :=
    run.invariant (I := fun s => Sound 1 task_num.toNat s ∧ Alone s) start
      fun _ _ _ both taken => ⟨both.1.step taken.1 taken.2, both.2.step both.1 taken.2⟩
  exact both.2.finished both.1

end Cluster

end CoflowSim
