import CoflowSim.Client.Cluster

namespace CoflowSim
open Lib

namespace Connection

variable {n : Nat}

/-- A pool has its `Sender`. -/
def sends (k : Connection n) : Bool := k.appended && !k.closed

/-- A pool has its `ReceFile`. -/
def receives (k : Connection n) : Bool := k.given && !k.drained

/-- A connection ends when its `Sender` has sent all its bytes, and its
`ReceFile` has read them. -/
structure Sane (k : Connection n) : Prop where
  filled : 0 < k.buffered → k.appended = true
  closed : k.closed = true → k.unsent = 0 ∧ k.appended = true
  given : k.given = true → k.appended = true
  drained : k.drained = true → k.closed = true ∧ k.buffered = 0 ∧ k.given = true

theorem sane_make (source destination : Fin n) (flowSizeKB : Nat) : (make source destination flowSizeKB).Sane :=
  ⟨nofun, nofun, nofun, nofun⟩

end Connection

/-- A client's pool, as far as its managers go. -/
structure Managed (threads tasks : Nat) (startup : StartUp) (pool : ThreadPool Caller Job) : Prop where
  ready : pool.Ready threads tasks
  led : startup = .recvManager ∧ pool.held = [] ∨ startup ≠ .recvManager ∧ pool.Leads .recvManager
  recvManager : pool.held.count .recvManager ≤ 1
  sendManager : pool.held.count .sendManager ≤ if startup = .eventLoop then 1 else 0

namespace Managed

variable {threads tasks : Nat} {startup next : StartUp} {p q : ThreadPool Caller Job} {job : Job}

theorem leads (managed : Managed threads tasks startup p) (holds : p.Holds job) : p.Leads .recvManager := by
  rcases managed.led with ⟨-, empty⟩ | ⟨-, leads⟩
  · have member := ThreadPool.mem_held.mpr holds
    rw [empty] at member
    cases member
  · exact leads

theorem step (managed : Managed threads tasks startup p) {a : PoolAction Caller} (step : p.Step a q) :
    Managed threads tasks startup q := by
  refine ⟨managed.ready.step step, ?_, ?_, ?_⟩
  · refine managed.led.imp (fun ⟨first, empty⟩ => ⟨first, ?_⟩) fun ⟨later, leads⟩ => ⟨later, leads.step step⟩
    exact List.perm_nil.mp (empty ▸ step.held_perm)
  · exact (step.held_count _).trans_le managed.recvManager
  · exact (step.held_count _).trans_le managed.sendManager

/-- One of the managers hands a task to the pool. -/
theorem push (managed : Managed threads tasks startup p) {manager : Job} (executes : .executing manager ∈ p.workers)
    {c : Caller} (returned : p.calls c = .idle) (pushed : p.push c job = some q) (recv : job ≠ .recvManager)
    (send : job ≠ .sendManager) : Managed threads tasks startup q := by
  have counts {other : Job} (apart : job ≠ other) : q.held.count other = p.held.count other := by
    rw [ThreadPool.push_count pushed, if_neg apart, Nat.add_zero]
  have leads := managed.leads (Or.inr executes)
  have later : startup ≠ .recvManager := by
    rcases managed.led with ⟨-, empty⟩ | ⟨later, -⟩
    · have member := ThreadPool.mem_held.mpr (Or.inr executes)
      rw [empty] at member
      cases member
    · exact later
  exact ⟨managed.ready.push returned pushed, Or.inr ⟨later, leads.push pushed⟩,
    (counts recv).trans_le managed.recvManager, (counts send).trans_le managed.sendManager⟩

theorem finish (managed : Managed threads tasks startup p) {w : Nat}
    (executes : p.workers[w]? = some (.executing job)) (recv : job ≠ .recvManager) :
    Managed threads tasks startup (p.finish w) := by
  have counts (other : Job) : (p.finish w).held.count other ≤ p.held.count other := by
    rw [ThreadPool.finish_count executes]
    exact Nat.le_add_right _ _
  refine ⟨managed.ready.finish executes, ?_, (counts _).trans managed.recvManager, (counts _).trans managed.sendManager⟩
  refine managed.led.imp (fun ⟨first, empty⟩ => ⟨first, ?_⟩)
    fun ⟨later, leads⟩ => ⟨later, leads.finish executes recv.symm⟩
  have member := ThreadPool.mem_held.mpr (Or.inr (List.mem_of_getElem? executes))
  rw [empty] at member
  cases member

theorem startUp (managed : Managed threads tasks startup p) (turn : startup.turn = some (job, next))
    (returned : p.calls .eventLoop = .idle) (pushed : p.push .eventLoop job = some q) :
    Managed threads tasks next q := by
  have ready := managed.ready.push returned pushed
  have recvCount := ThreadPool.push_count pushed .recvManager
  have sendCount := ThreadPool.push_count pushed .sendManager
  have sendBefore := managed.sendManager
  cases startup with
  | recvManager =>
    cases turn
    obtain ⟨-, empty⟩ := managed.led.resolve_right fun later => later.1 rfl
    simp only [empty, List.count_nil, if_true] at recvCount
    rw [if_neg nofun] at sendCount sendBefore
    exact ⟨ready, Or.inr ⟨nofun, .of_push empty pushed⟩, by omega, by rw [if_neg nofun]; omega⟩
  | sendManager =>
    cases turn
    obtain ⟨-, leads⟩ := managed.led.resolve_left nofun
    have recvBefore := managed.recvManager
    rw [if_neg nofun] at recvCount sendBefore
    rw [if_pos rfl] at sendCount
    exact ⟨ready, Or.inr ⟨nofun, leads.push pushed⟩, by omega, by rw [if_pos rfl]; omega⟩
  | eventLoop => cases turn

/-- The first manager is not refused. -/
theorem refuse (managed : Managed threads tasks startup p) (turn : startup.turn = some (job, next))
    (full : p.push .eventLoop job = none) : Managed threads tasks next p := by
  cases startup with
  | recvManager =>
    obtain ⟨-, empty⟩ := managed.led.resolve_right fun later => later.1 rfl
    have room : ¬ p.max_task_num_ < p.task_queue_.length := by simp [(List.append_eq_nil_iff.mp empty).1]
    simp [ThreadPool.push, room] at full
  | sendManager =>
    cases turn
    obtain ⟨-, leads⟩ := managed.led.resolve_left (by simp)
    have sendBefore := managed.sendManager
    rw [if_neg (by simp)] at sendBefore
    exact ⟨managed.ready, Or.inr ⟨by simp, leads⟩, managed.recvManager, by rw [if_pos rfl]; omega⟩
  | eventLoop => cases turn

end Managed

namespace Cluster

variable {n threads tasks : Nat} {s : Cluster n}

@[simp] theorem pool_setConnection (s : Cluster n) (c : Nat) (change : Connection n → Connection n) (i : Fin n) :
    (s.setConnection c change).pool i = s.pool i := rfl

@[simp] theorem clients_setConnection (s : Cluster n) (c : Nat) (change : Connection n → Connection n) :
    (s.setConnection c change).clients = s.clients := rfl

@[simp] theorem connections_setClient (s : Cluster n) (i : Fin n) (client : Client n) :
    (s.setClient i client).connections = s.connections := rfl

theorem clients_setClient (s : Cluster n) (i j : Fin n) (client : Client n) :
    (s.setClient i client).clients j = if j = i then client else s.clients j := by
  simp only [setClient, Function.update_apply]

theorem pool_setClient (s : Cluster n) (i j : Fin n) (client : Client n) :
    (s.setClient i client).pool j = if j = i then client.pool else s.pool j := by
  rw [pool, clients_setClient]
  split <;> rfl

/-- How often a pool has the task of a connection that a test admits at one of
its ends. -/
def expected (connections : List (Connection n)) (at_ : Connection n → Fin n) (test : Connection n → Bool) (i : Fin n)
    (c : Nat) : Nat :=
  match connections[c]? with
  | some k => if at_ k = i ∧ test k = true then 1 else 0
  | none => 0

theorem expected_modify {connections : List (Connection n)} (at_ : Connection n → Fin n) (test : Connection n → Bool)
    {c : Nat} {k : Connection n} (here : connections[c]? = some k) (change : Connection n → Connection n)
    (kept : at_ (change k) = at_ k) (i : Fin n) (d : Nat) :
    expected (connections.modify c change) at_ test i d + (if d = c ∧ at_ k = i ∧ test k = true then 1 else 0) =
      expected connections at_ test i d + if d = c ∧ at_ k = i ∧ test (change k) = true then 1 else 0 := by
  by_cases same : d = c
  · subst same
    have changed : (connections.modify d change)[d]? = some (change k) := by simp [here]
    simp only [expected, changed, here, kept, true_and]
    omega
  · have other : (connections.modify c change)[d]? = connections[d]? := by simp [Ne.symm same]
    simp only [expected, other, same, false_and, if_false]

theorem expected_append (connections : List (Connection n)) (at_ : Connection n → Fin n) (test : Connection n → Bool)
    {k : Connection n} (fresh : test k = false) (i : Fin n) (c : Nat) :
    expected (connections ++ [k]) at_ test i c = expected connections at_ test i c := by
  unfold expected
  rcases Nat.lt_trichotomy c connections.length with below | same | above
  · rw [List.getElem?_append_left below]
  · simp [same, fresh]
  · rw [List.getElem?_eq_none (by simp; omega), List.getElem?_eq_none (by omega)]

/-- What the pools and the connections have in common in every state. -/
structure Sound (threads tasks : Nat) (s : Cluster n) : Prop where
  managed : ∀ i, Managed threads tasks (s.clients i).startup (s.pool i)
  senders : ∀ i c, (s.pool i).held.count (.sender c) = expected s.connections Connection.source Connection.sends i c
  receFiles : ∀ i c, (s.pool i).held.count (.receFile c) =
    expected s.connections Connection.destination Connection.receives i c
  sane : ∀ k ∈ s.connections, k.Sane
  connecting : ∀ i c, (s.clients i).connecting = some c →
    ∃ k, s.connections[c]? = some k ∧ k.source = i ∧ k.appended = false

namespace Sound

/-- A step of one client that hands no `Sender` and no `ReceFile` over. -/
theorem client (sound : Sound threads tasks s) {i : Fin n} {client : Client n}
    (managed : Managed threads tasks client.startup client.pool)
    (senders : ∀ c, client.pool.held.count (.sender c) = (s.pool i).held.count (.sender c))
    (receFiles : ∀ c, client.pool.held.count (.receFile c) = (s.pool i).held.count (.receFile c))
    (connecting : ∀ c, client.connecting = some c →
      ∃ k, s.connections[c]? = some k ∧ k.source = i ∧ k.appended = false) :
    Sound threads tasks (s.setClient i client) := by
  refine ⟨fun j => ?_, fun j c => ?_, fun j c => ?_, sound.sane, fun j c => ?_⟩
  all_goals simp only [pool_setClient, clients_setClient, connections_setClient]
  all_goals split
  · exact managed
  · exact sound.managed j
  · rename_i same
    rw [senders, same, sound.senders]
  · exact sound.senders j c
  · rename_i same
    rw [receFiles, same, sound.receFiles]
  · exact sound.receFiles j c
  · rename_i same
    exact same ▸ connecting c
  · exact sound.connecting j c

/-- A step of one client and of one connection, whose tasks change in step. -/
theorem handover (sound : Sound threads tasks s) {i : Fin n} {client : Client n} {c : Nat} {k : Connection n}
    (here : s.connections[c]? = some k) {change : Connection n → Connection n}
    (managed : Managed threads tasks client.startup client.pool)
    (senders : ∀ d, client.pool.held.count (.sender d) + (if d = c ∧ k.source = i ∧ k.sends = true then 1 else 0) =
      (s.pool i).held.count (.sender d) + if d = c ∧ k.source = i ∧ (change k).sends = true then 1 else 0)
    (sent : k.source = i ∨ (change k).sends = k.sends)
    (receFiles : ∀ d, client.pool.held.count (.receFile d) +
      (if d = c ∧ k.destination = i ∧ k.receives = true then 1 else 0) = (s.pool i).held.count (.receFile d) +
      if d = c ∧ k.destination = i ∧ (change k).receives = true then 1 else 0)
    (received : k.destination = i ∨ (change k).receives = k.receives)
    (source : (change k).source = k.source) (destination : (change k).destination = k.destination)
    (sane : (change k).Sane)
    (connecting : ∀ j d, ((s.setClient i client).clients j).connecting = some d →
      (s.clients j).connecting = some d ∧ (d = c → (change k).appended = k.appended)) :
    Sound threads tasks ((s.setClient i client).setConnection c change) := by
  refine ⟨fun j => ?_, fun j d => ?_, fun j d => ?_, fun other member => ?_, fun j d waits => ?_⟩
  · simp only [clients_setConnection, pool_setConnection, clients_setClient, pool_setClient]
    split
    · exact managed
    · exact sound.managed j
  · have moved := expected_modify Connection.source Connection.sends here change source j d
    have before := sound.senders j d
    show ((s.setClient i client).pool j).held.count (.sender d) =
      expected (s.connections.modify c change) Connection.source Connection.sends j d
    rw [pool_setClient]
    split
    · rename_i same
      subst same
      have tasks := senders d
      omega
    · rename_i other
      rcases sent with rfl | kept
      · simp only [Ne.symm other, false_and, and_false, if_false] at moved
        omega
      · rw [kept] at moved
        omega
  · have moved := expected_modify Connection.destination Connection.receives here change destination j d
    have before := sound.receFiles j d
    show ((s.setClient i client).pool j).held.count (.receFile d) =
      expected (s.connections.modify c change) Connection.destination Connection.receives j d
    rw [pool_setClient]
    split
    · rename_i same
      subst same
      have tasks := receFiles d
      omega
    · rename_i other
      rcases received with rfl | kept
      · simp only [Ne.symm other, false_and, and_false, if_false] at moved
        omega
      · rw [kept] at moved
        omega
  · obtain ⟨d, atD⟩ := List.getElem?_of_mem member
    by_cases same : d = c
    · have changed : (s.connections.modify c change)[c]? = some (change k) := by simp [here]
      rw [same] at atD
      exact Option.some.inj (changed.symm.trans atD) ▸ sane
    · have kept : (s.connections.modify c change)[d]? = s.connections[d]? := by simp [Ne.symm same]
      exact sound.sane other (List.mem_of_getElem? (kept.symm.trans atD))
  · obtain ⟨waits, appended⟩ := connecting j d waits
    obtain ⟨l, there, at_j, fresh⟩ := sound.connecting j d waits
    by_cases same : d = c
    · have changed : (s.connections.modify c change)[c]? = some (change k) := by simp [here]
      rw [same] at there ⊢
      cases here.symm.trans there
      exact ⟨_, changed, source.trans at_j, (appended same).trans fresh⟩
    · have kept : (s.connections.modify c change)[d]? = s.connections[d]? := by simp [Ne.symm same]
      exact ⟨l, kept.trans there, at_j, fresh⟩

theorem setClient_self (s : Cluster n) (i : Fin n) : s.setClient i (s.clients i) = s := by
  rw [setClient, Function.update_eq_self]

/-- A step that only moves bytes, or accepts a connection. -/
theorem connection (sound : Sound threads tasks s) {c : Nat} {k : Connection n} (here : s.connections[c]? = some k)
    {change : Connection n → Connection n} (source : (change k).source = k.source)
    (destination : (change k).destination = k.destination) (sends : (change k).sends = k.sends)
    (receives : (change k).receives = k.receives) (sane : (change k).Sane)
    (appended : (change k).appended = k.appended) : Sound threads tasks (s.setConnection c change) := by
  have same := setClient_self s k.source
  have moved : Sound threads tasks ((s.setClient k.source (s.clients k.source)).setConnection c change) := by
    refine sound.handover here (sound.managed _) (fun d => by rw [sends]; rfl)
      (Or.inr sends) (fun d => by rw [receives]; rfl) (Or.inr receives) source destination sane fun j d waits => ?_
    rw [same] at waits
    exact ⟨waits, fun _ => appended⟩
  rwa [same] at moved

theorem startUp (sound : Sound threads tasks s) {i : Fin n} {job : Job} {next : StartUp} {pool : ThreadPool Caller Job}
    (turn : (s.clients i).startup.turn = some (job, next)) (returned : (s.pool i).calls .eventLoop = .idle)
    (pushed : (s.pool i).push .eventLoop job = some pool) :
    Sound threads tasks (s.setClient i { s.clients i with pool, startup := next }) := by
  have counts {other : Job} (apart : job ≠ other) : pool.held.count other = (s.pool i).held.count other := by
    rw [ThreadPool.push_count pushed, if_neg apart, Nat.add_zero]
  obtain ⟨sender, receFile⟩ : (∀ c, job ≠ .sender c) ∧ ∀ c, job ≠ .receFile c := by
    cases startup : (s.clients i).startup with
    | recvManager | sendManager =>
      rw [startup] at turn
      cases turn
      exact ⟨nofun, nofun⟩
    | eventLoop =>
      rw [startup] at turn
      cases turn
  exact sound.client ((sound.managed i).startUp turn returned pushed) (fun c => counts (sender c))
    (fun c => counts (receFile c)) (sound.connecting i)

theorem make (sound : Sound threads tasks s) (source destination : Fin n) (flowSizeKB : Nat) :
    Sound threads tasks { s with connections := s.connections ++ [.make source destination flowSizeKB] } := by
  refine { sound with
    senders := fun j c => ?_, receFiles := fun j c => ?_, sane := ?_, connecting := fun j c waits => ?_ }
  · rw [expected_append _ _ _ rfl]
    exact sound.senders j c
  · rw [expected_append _ _ _ rfl]
    exact sound.receFiles j c
  · intro k member
    rcases List.mem_append.mp member with old | new
    · exact sound.sane k old
    · exact List.mem_singleton.mp new ▸ Connection.sane_make ..
  · obtain ⟨k, here, at_j, fresh⟩ := sound.connecting j c waits
    exact ⟨k, (List.getElem?_append_left (List.getElem?_eq_some_iff.mp here).1).trans here, at_j, fresh⟩

theorem connect (sound : Sound threads tasks s) (i destination : Fin n) (flowSizeKB : Nat)
    (rest : List (Fin n × Nat)) : Sound threads tasks { s.setClient i { s.clients i with
        instructions := rest, connecting := some s.connections.length } with
      connections := s.connections ++ [.make i destination flowSizeKB] } := by
  have made := sound.make i destination flowSizeKB
  have own (c : Nat) (waits : some s.connections.length = some c) :
      ∃ k, (s.connections ++ [Connection.make i destination flowSizeKB])[c]? = some k ∧ k.source = i ∧
        k.appended = false := by
    cases waits
    exact ⟨_, List.getElem?_concat_length, rfl, rfl⟩
  exact made.client (made.managed i) (fun _ => rfl) (fun _ => rfl) own

theorem append (sound : Sound threads tasks s) {i : Fin n} {c : Nat} {pool : ThreadPool Caller Job}
    (executes : .executing .sendManager ∈ (s.pool i).workers) (holds : (s.clients i).connecting = some c)
    (returned : (s.pool i).calls .sendManager = .idle) (pushed : (s.pool i).push .sendManager (.sender c) = some pool) :
    Sound threads tasks ((s.setClient i { s.clients i with pool, connecting := none }).setConnection c
      fun k => { k with appended := true }) := by
  obtain ⟨k, here, source, fresh⟩ := sound.connecting i c holds
  obtain ⟨filled, closed, given, drained⟩ := sound.sane k (List.mem_of_getElem? here)
  have unclosed : k.closed = false := by
    by_contra done
    simp [(closed (by simpa using done)).2] at fresh
  refine sound.handover here ((sound.managed i).push executes returned pushed nofun nofun) (fun d => ?_) (Or.inl source)
    (fun d => ?_) (Or.inr rfl) rfl rfl ⟨fun _ => rfl, fun done => ⟨(closed done).1, rfl⟩, fun _ => rfl, drained⟩
    fun j d waits => ?_
  · simp [Connection.sends, fresh, unclosed, source, ThreadPool.push_count pushed, eq_comm]
  · rw [ThreadPool.push_count pushed, if_neg nofun, Nat.add_zero]
    rfl
  · rw [clients_setClient] at waits
    split at waits
    · cases waits
    · rename_i other
      refine ⟨waits, fun same => ?_⟩
      obtain ⟨l, there, at_j, -⟩ := sound.connecting j d waits
      rw [same, here] at there
      cases there
      exact absurd (at_j.symm.trans source) other

theorem kept_connecting {client : Client n} {i j : Fin n} {d : Nat}
    (waits : ((s.setClient i client).clients j).connecting = some d)
    (kept : client.connecting = (s.clients i).connecting) : (s.clients j).connecting = some d := by
  rw [clients_setClient] at waits
  split at waits
  · rename_i same
    rw [same, ← kept, waits]
  · exact waits

theorem sends_of_held (sound : Sound threads tasks s) {i : Fin n} {c : Nat} (holds : (s.pool i).Holds (.sender c)) :
    ∃ k, s.connections[c]? = some k ∧ k.source = i ∧ k.sends = true := by
  have some_copy : 0 < (s.pool i).held.count (.sender c) := List.count_pos_iff.mpr (ThreadPool.mem_held.mpr holds)
  rw [sound.senders, expected] at some_copy
  split at some_copy
  · rename_i k here
    exact ⟨k, here, by_contra fun other => by simp [other] at some_copy⟩
  · cases some_copy

theorem receives_of_held (sound : Sound threads tasks s) {i : Fin n} {c : Nat}
    (holds : (s.pool i).Holds (.receFile c)) :
    ∃ k, s.connections[c]? = some k ∧ k.destination = i ∧ k.receives = true := by
  have some_copy : 0 < (s.pool i).held.count (.receFile c) := List.count_pos_iff.mpr (ThreadPool.mem_held.mpr holds)
  rw [sound.receFiles, expected] at some_copy
  split at some_copy
  · rename_i k here
    exact ⟨k, here, by_contra fun other => by simp [other] at some_copy⟩
  · cases some_copy

theorem held_of_sends (sound : Sound threads tasks s) {c : Nat} {k : Connection n} (here : s.connections[c]? = some k)
    (sends : k.sends = true) : (s.pool k.source).Holds (.sender c) := by
  have copies := sound.senders k.source c
  simp only [expected, here, sends, and_self, if_true] at copies
  exact ThreadPool.mem_held.mp (List.count_pos_iff.mp (by omega))

theorem held_of_receives (sound : Sound threads tasks s) {c : Nat} {k : Connection n}
    (here : s.connections[c]? = some k) (receives : k.receives = true) :
    (s.pool k.destination).Holds (.receFile c) := by
  have copies := sound.receFiles k.destination c
  simp only [expected, here, receives, and_self, if_true] at copies
  exact ThreadPool.mem_held.mp (List.count_pos_iff.mp (by omega))

theorem close (sound : Sound threads tasks s) {c w : Nat} {k : Connection n} (here : s.connections[c]? = some k)
    (executes : (s.pool k.source).workers[w]? = some (.executing (.sender c))) (done : k.unsent = 0) :
    Sound threads tasks ((s.setClient k.source { s.clients k.source with
      pool := (s.pool k.source).finish w }).setConnection c fun k => { k with closed := true }) := by
  obtain ⟨l, there, -, sends⟩ := sound.sends_of_held (Or.inr (List.mem_of_getElem? executes))
  cases here.symm.trans there
  obtain ⟨appended, open_⟩ := (Bool.and_eq_true_iff.mp sends)
  obtain ⟨filled, closed, given, drained⟩ := sound.sane k (List.mem_of_getElem? here)
  refine sound.handover here ((sound.managed _).finish executes nofun) (fun d => ?_) (Or.inl rfl) (fun d => ?_)
    (Or.inr rfl) rfl rfl ⟨filled, fun _ => ⟨done, appended⟩, given, fun read => ⟨rfl, (drained read).2⟩⟩
    fun j d waits => ⟨kept_connecting waits rfl, fun _ => rfl⟩
  · rw [ThreadPool.finish_count executes]
    simp [Connection.sends, appended, Bool.not_eq_true' _ |>.mp open_, eq_comm]
  · have kept := ThreadPool.finish_count executes (.receFile d)
    rw [if_neg nofun, Nat.add_zero] at kept
    rw [kept]
    rfl

theorem give (sound : Sound threads tasks s) {c : Nat} {k : Connection n} {pool : ThreadPool Caller Job}
    (here : s.connections[c]? = some k) (executes : .executing .recvManager ∈ (s.pool k.destination).workers)
    (returned : (s.pool k.destination).calls .recvManager = .idle) (fresh : k.given = false)
    (event : 0 < k.buffered ∨ k.closed = true)
    (pushed : (s.pool k.destination).push .recvManager (.receFile c) = some pool) :
    Sound threads tasks ((s.setClient k.destination { s.clients k.destination with pool }).setConnection c
      fun k => { k with given := true }) := by
  obtain ⟨filled, closed, given, drained⟩ := sound.sane k (List.mem_of_getElem? here)
  have appended : k.appended = true := by
    rcases event with some_bytes | ended
    · exact filled some_bytes
    · exact (closed ended).2
  have unread : k.drained = false := by
    by_contra read
    simp [(drained (by simpa using read)).2.2] at fresh
  refine sound.handover here ((sound.managed _).push executes returned pushed nofun nofun) (fun d => ?_) (Or.inr rfl)
    (fun d => ?_) (Or.inl rfl) rfl rfl ⟨filled, closed, fun _ => appended, fun read => ?_⟩
    fun j d waits => ⟨kept_connecting waits rfl, fun _ => rfl⟩
  · rw [ThreadPool.push_count pushed, if_neg nofun, Nat.add_zero]
    rfl
  · simp [Connection.receives, fresh, unread, ThreadPool.push_count pushed, eq_comm]
  · exact ⟨(drained read).1, (drained read).2.1, rfl⟩

theorem eof (sound : Sound threads tasks s) {c w : Nat} {k : Connection n} (here : s.connections[c]? = some k)
    (executes : (s.pool k.destination).workers[w]? = some (.executing (.receFile c))) (empty : k.buffered = 0)
    (ended : k.closed = true) :
    Sound threads tasks ((s.setClient k.destination { s.clients k.destination with
      pool := (s.pool k.destination).finish w }).setConnection c fun k => { k with drained := true }) := by
  obtain ⟨l, there, -, receives⟩ := sound.receives_of_held (Or.inr (List.mem_of_getElem? executes))
  cases here.symm.trans there
  obtain ⟨handed, unread⟩ := (Bool.and_eq_true_iff.mp receives)
  obtain ⟨filled, closed, given, -⟩ := sound.sane k (List.mem_of_getElem? here)
  refine sound.handover here ((sound.managed _).finish executes nofun) (fun d => ?_) (Or.inr rfl) (fun d => ?_)
    (Or.inl rfl) rfl rfl ⟨filled, closed, given, fun _ => ⟨ended, empty, handed⟩⟩
    fun j d waits => ⟨kept_connecting waits rfl, fun _ => rfl⟩
  · have kept := ThreadPool.finish_count executes (.sender d)
    rw [if_neg nofun, Nat.add_zero] at kept
    rw [kept]
    rfl
  · rw [ThreadPool.finish_count executes]
    simp [Connection.receives, handed, Bool.not_eq_true' _ |>.mp unread, eq_comm]


end Sound

theorem Sound.step {t : Cluster n} {capacity : Nat} {a : ClusterAction n} (sound : Sound threads tasks s)
    (gives : s.Gives a) (step : Step capacity s a t) : Sound threads tasks t := by
  cases step with
  | startUp turn returned pushed => exact sound.startUp turn returned pushed
  | @refuseManager i job next turn returned full =>
    exact sound.client ((sound.managed i).refuse turn full) (fun _ => rfl) (fun _ => rfl) (sound.connecting i)
  | @instruct i => exact sound.client (sound.managed i) (fun _ => rfl) (fun _ => rfl) (sound.connecting i)
  | connect => exact sound.connect ..
  | @refuse i => exact sound.client (sound.managed i) (fun _ => rfl) (fun _ => rfl) nofun
  | append executes holds returned pushed => exact sound.append executes holds returned pushed
  | @send c k count here executes some_bytes left room =>
    obtain ⟨l, there, -, sends⟩ := sound.sends_of_held (Or.inr executes)
    cases here.symm.trans there
    obtain ⟨appended, open_⟩ := Bool.and_eq_true_iff.mp sends
    obtain ⟨-, closed, given, drained⟩ := sound.sane k (List.mem_of_getElem? here)
    have unclosed : k.closed ≠ true := by simpa using open_
    exact sound.connection here rfl rfl rfl rfl ⟨fun _ => appended, fun done => absurd done unclosed, given,
      fun read => absurd (drained read).1 unclosed⟩ rfl
  | close here executes done => exact sound.close here executes done
  | @accept c k here =>
    obtain ⟨filled, closed, given, drained⟩ := sound.sane k (List.mem_of_getElem? here)
    exact sound.connection here rfl rfl rfl rfl ⟨filled, closed, given, drained⟩ rfl
  | give here executes returned accepted fresh event pushed =>
    exact sound.give here executes returned fresh event pushed
  | lose => exact gives.elim
  | @recv c k count here executes some_bytes asked there =>
    obtain ⟨filled, closed, given, drained⟩ := sound.sane k (List.mem_of_getElem? here)
    refine sound.connection here rfl rfl rfl rfl ⟨fun rest => filled (by simp only at rest; omega), closed, given,
      fun read => ⟨(drained read).1, ?_, (drained read).2.2⟩⟩ rfl
    have empty := (drained read).2.1
    simp only
    omega
  | eof here executes empty closed => exact sound.eof here executes empty closed
  | @pool i action pool step =>
    exact sound.client ((sound.managed i).step step) (fun _ => step.held_count _) (fun _ => step.held_count _)
      (sound.connecting i)

theorem sound_init {thread_num task_num : Int} {pool : ThreadPool Caller Job}
    (created : ThreadPool.create thread_num task_num = some pool) :
    Sound thread_num.toNat task_num.toNat (init n pool) := by
  have ready := ThreadPool.Ready.create created
  obtain ⟨-, rfl⟩ := ThreadPool.create_eq created
  exact ⟨fun _ => ⟨ready, Or.inl ⟨rfl, rfl⟩, Nat.zero_le _, Nat.zero_le _⟩, fun _ _ => rfl, fun _ _ => rfl, nofun,
    nofun⟩

theorem sound_run {thread_num task_num : Int} {pool : ThreadPool Caller Job} {capacity : Nat}
    {acts : List (ClusterAction n)} (created : ThreadPool.create thread_num task_num = some pool)
    (run : Run (Where (Step capacity) Gives) (init n pool) acts s) : Sound thread_num.toNat task_num.toNat s :=
  run.invariant (sound_init created) fun _ _ _ sound taken => sound.step taken.1 taken.2

end Cluster

end CoflowSim
