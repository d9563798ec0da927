import CoflowSim.Client.AcceptBacklog

namespace CoflowSim
open Lib

namespace RecvManager

/-- No event of a connection comes with its FIN, the pool takes every `ReceFile`,
and a worker that clears `m_Sockfd` finds no later connection there. -/
def Unbroken (s : RecvManager) : RecvAction → Prop
  | .collect (.connection c) => ∀ x, s.connections[c]? = some x → x.fin = false
  | .dispatch tasks => tasks ≤ MAX_TASK_NUM
  | .clear c => ∀ x (d : Nat) y, s.connections[c]? = some x → s.connections[d]? = some y → y.state = .opened →
      y.fd = x.fd → s.phase = .accepted d
  | _ => True

/-- No event of the connection is in `events`. -/
def Unseen (s : RecvManager) (c : Nat) : Prop := ∀ e ∈ s.events, e.source ≠ .connection c

/-- Where a connection stands on its way to the end. -/
inductive Stage (s : RecvManager) (c : Nat) (x : DataConnection) : Prop
  | queued (state : x.state = .queued) (free : x.registration = none) (run : x.run = .absent)
  | accepted (phase : s.phase = .accepted c) (state : x.state = .opened) (free : x.registration = none)
      (run : x.run = .absent)
  | initialised (phase : s.phase = .initialised c) (state : x.state = .opened) (free : x.registration = none)
      (run : x.run = .absent) (file : s.receFiles x.fd = some x.fd)
  | watched (r : Registration) (state : x.state = .opened) (watches : x.registration = some r)
      (run : x.run = .absent) (file : s.receFiles x.fd = some x.fd) (armed : r.Watches .epollIn ∧ r.oneShot = true)
      (pends : x.readable = true → r.ready = true) (unseen : s.Unseen c)
  | delivered (r : Registration) (state : x.state = .opened) (watches : x.registration = some r)
      (run : x.run = .absent) (file : s.receFiles x.fd = some x.fd) (spent : r.Spent)
      (event : ⟨.connection c, false⟩ ∈ s.events)
  | running (r : Registration) (state : x.state = .opened) (watches : x.registration = some r)
      (run : x.run = .queued ∨ x.run = .looping ∨ x.run = .receiving (some c) ∨ x.run = .atEof ∧ x.eof = true)
      (file : s.receFiles x.fd = some x.fd) (spent : r.Spent) (unseen : s.Unseen c)
  | closed (state : x.state = .closed) (free : x.registration = none) (run : x.run = .closing ∨ x.run = .returned)
      (eof : x.eof = true)

/-- Every connection is on its way, with a descriptor and an event of its own. -/
structure Kept (s : RecvManager) : Prop where
  stages : ∀ (c : Nat) x, s.connections[c]? = some x → Stage s c x
  distinct : ∀ (c d : Nat) x y, s.connections[c]? = some x → s.connections[d]? = some y → x.state = .opened →
    y.state = .opened → x.fd = y.fd → c = d
  shown : ∀ e ∈ s.events, ∀ c, e.source = .connection c →
    e.rdhup = false ∧ ∃ x, s.connections[c]? = some x ∧ x.registration.isSome = true
  once : (s.events.map Event.source).Nodup
  held : ∀ c, s.phase = .accepted c ∨ s.phase = .initialised c →
    ∃ x, s.connections[c]? = some x ∧ x.state = .opened ∧ x.registration = none

section Stages

variable {s s' : RecvManager} {a : RecvAction} {c : Nat} {x : DataConnection}

/-- What a connection's stage rests on outside of the connection. -/
structure Apart (s s' : RecvManager) (c : Nat) (x : DataConnection) : Prop where
  phase : s.phase = .accepted c ∨ s.phase = .initialised c → s'.phase = s.phase
  file : x.state = .opened → x.registration.isSome = true ∨ s.phase = .initialised c →
    s'.receFiles x.fd = s.receFiles x.fd
  events : ∀ e : Event, e.source = .connection c → (e ∈ s'.events ↔ e ∈ s.events)

theorem Apart.unseen (apart : Apart s s' c x) (unseen : s.Unseen c) : s'.Unseen c :=
  fun e member same => unseen e ((apart.events e same).mp member) same

theorem Stage.apart (stage : Stage s c x) (apart : Apart s s' c x) : Stage s' c x := by
  have file (open_ : x.state = .opened) {r : Registration} (watches : x.registration = some r)
      (file : s.receFiles x.fd = some x.fd) : s'.receFiles x.fd = some x.fd :=
    (apart.file open_ (Or.inl (by rw [watches]; rfl))).trans file
  cases stage with
  | queued state free run => exact .queued state free run
  | accepted phase state free run => exact .accepted ((apart.phase (Or.inl phase)).trans phase) state free run
  | initialised phase state free run here =>
    exact .initialised ((apart.phase (Or.inr phase)).trans phase) state free run
      ((apart.file state (Or.inr phase)).trans here)
  | watched r state watches run here armed pends unseen =>
    exact .watched r state watches run (file state watches here) armed pends (apart.unseen unseen)
  | delivered r state watches run here spent event =>
    exact .delivered r state watches run (file state watches here) spent ((apart.events _ rfl).mpr event)
  | running r state watches run here spent unseen =>
    exact .running r state watches run (file state watches here) spent (apart.unseen unseen)
  | closed state free run eof => exact .closed state free run eof

/-- A step that changes one connection, and touches nothing that the stages of the
others rest on. -/
theorem Kept.moved (kept : Kept s) {change : DataConnection → DataConnection}
    (connections : s'.connections = (s.setConn c change).connections)
    (stage : ∀ x, s.connections[c]? = some x → Stage s' c (change x))
    (apart : ∀ d ≠ c, ∀ y, s.connections[d]? = some y → Apart s s' d y)
    (fds : ∀ x, s.connections[c]? = some x → (change x).state = .opened →
      (x.state = .opened ∧ (change x).fd = x.fd) ∨
        ∀ d ≠ c, ∀ y, s.connections[d]? = some y → y.state = .opened → y.fd ≠ (change x).fd)
    (shown : ∀ e ∈ s'.events, ∀ d, e.source = .connection d →
      e.rdhup = false ∧ ∃ y, s'.connections[d]? = some y ∧ y.registration.isSome = true)
    (once : (s'.events.map Event.source).Nodup)
    (held : ∀ d, s'.phase = .accepted d ∨ s'.phase = .initialised d →
      ∃ y, s'.connections[d]? = some y ∧ y.state = .opened ∧ y.registration = none) : Kept s' := by
  refine ⟨fun d y there => ?_, fun d e y z there thereE openY openZ same => ?_, shown, once, held⟩
  · rcases of_setConn (connections ▸ there) with ⟨other, there⟩ | ⟨rfl, x, here, rfl⟩
    · exact (kept.stages d y there).apart (apart d other y there)
    · exact stage x here
  · rcases of_setConn (connections ▸ there) with ⟨otherD, there⟩ | ⟨rfl, x, here, rfl⟩ <;>
      rcases of_setConn (connections ▸ thereE) with ⟨otherE, thereE⟩ | ⟨rfl, w, hereE, rfl⟩
    · exact kept.distinct d e y z there thereE openY openZ same
    · rcases fds w hereE openZ with ⟨before, keeps⟩ | free
      · exact kept.distinct d e y w there hereE openY before (same.trans keeps)
      · exact absurd same (free d otherD y there openY)
    · rcases fds x here openY with ⟨before, keeps⟩ | free
      · exact kept.distinct d e x z here thereE before openZ (keeps.symm.trans same)
      · exact absurd same.symm (free e otherE z thereE openZ)
    · rfl

theorem Apart.setConn (s : RecvManager) (d : Nat) (change : DataConnection → DataConnection) (c : Nat)
    (x : DataConnection) : Apart s (s.setConn d change) c x :=
  ⟨fun _ => rfl, fun _ _ => rfl, fun _ _ => Iff.rfl⟩

/-- A step on one connection that leaves the descriptors and the registrations. -/
theorem Kept.local (kept : Kept s) {change : DataConnection → DataConnection}
    (stage : ∀ x, s.connections[c]? = some x → Stage s c x → Stage s c (change x))
    (state : ∀ x, (change x).state = x.state) (fd : ∀ x, (change x).fd = x.fd)
    (registration : ∀ x, (change x).registration.isSome = x.registration.isSome) : Kept (s.setConn c change) := by
  refine kept.moved rfl (fun x here => (stage x here (kept.stages c x here)).apart (.setConn s c change c _))
    (fun d _ y _ => .setConn s c change d y) (fun x _ opened => Or.inl ⟨state x ▸ opened, fd x⟩)
    (fun e member d same => ?_) kept.once fun d phase => ?_
  · obtain ⟨plain, y, there, registered⟩ := kept.shown e member d same
    refine ⟨plain, ?_⟩
    by_cases mine : d = c
    · subst mine
      exact ⟨_, setConn_self there, (registration y).trans registered⟩
    · exact ⟨y, (setConn_other mine).trans there, registered⟩
  · obtain ⟨y, there, opened, free⟩ := kept.held d phase
    by_cases mine : d = c
    · subst mine
      refine ⟨_, setConn_self there, (state y).trans opened, ?_⟩
      have none := registration y
      rw [free, Option.isSome_none] at none
      exact Option.isNone_iff_eq_none.mp (by simpa using none)
    · exact ⟨y, (setConn_other mine).trans there, opened, free⟩

/-- A step that changes no connection. -/
theorem Kept.same (kept : Kept s) (connections : s'.connections = s.connections)
    (apart : ∀ (d : Nat) y, s.connections[d]? = some y → Apart s s' d y)
    (shown : ∀ e ∈ s'.events, ∀ d, e.source = .connection d → e ∈ s.events)
    (once : (s'.events.map Event.source).Nodup)
    (held : ∀ d, s'.phase = .accepted d ∨ s'.phase = .initialised d →
      s.phase = .accepted d ∨ s.phase = .initialised d) : Kept s' := by
  refine ⟨fun d y there => ?_, fun c d x y here there => ?_, fun e member d same => ?_, once, fun d phase => ?_⟩
  · rw [connections] at there
    exact (kept.stages d y there).apart (apart d y there)
  · rw [connections] at here there
    exact kept.distinct c d x y here there
  · rw [connections]
    exact kept.shown e (shown e member d same) d same
  · rw [connections]
    exact kept.held d (held d phase)

/-- The peer's bytes or its end raise the event of a registered connection. -/
theorem Stage.arrives (stage : Stage s c x) {y : DataConnection} (state : y.state = x.state) (fd : y.fd = x.fd)
    (registration : y.registration = x.registration) (run : y.run = x.run) (eof : y.eof = x.eof) :
    Stage s c y.notify := by
  have files (file : s.receFiles x.fd = some x.fd) : s.receFiles y.notify.fd = some y.notify.fd := by
    rw [show y.notify.fd = x.fd from fd]
    exact file
  have none (free : x.registration = none) : y.notify.registration = none := by
    rw [DataConnection.notify, registration, free]
    rfl
  have spent {r : Registration} (watches : x.registration = some r) (spent : r.Spent) :
      y.notify.registration = some r := by
    rw [DataConnection.notify, registration, watches, Option.map_some, Registration.notify_spent spent]
  cases stage with
  | queued before free absent => exact .queued (state.trans before) (none free) (run.trans absent)
  | accepted phase before free absent => exact .accepted phase (state.trans before) (none free) (run.trans absent)
  | initialised phase before free absent file =>
    exact .initialised phase (state.trans before) (none free) (run.trans absent) (files file)
  | watched r before watches absent file armed pends unseen =>
    have notified : y.notify.registration = some { r with ready := true } := by
      rw [DataConnection.notify, registration, watches, Option.map_some, Registration.notify, if_pos armed.1]
    exact .watched _ (state.trans before) notified (run.trans absent) (files file) armed (fun _ => rfl) unseen
  | delivered r before watches absent file ends event =>
    exact .delivered r (state.trans before) (spent watches ends) (run.trans absent) (files file) ends event
  | running r before watches runs file ends unseen =>
    refine .running r (state.trans before) (spent watches ends) ?_ (files file) ends unseen
    rw [show y.notify.run = x.run from run, show y.notify.eof = x.eof from eof]
    exact runs
  | closed before free runs read =>
    refine .closed (state.trans before) (none free) ?_ (eof.trans read)
    rw [show y.notify.run = x.run from run]
    exact runs

theorem Kept.arrives (kept : Kept s) {change : DataConnection → DataConnection}
    (state : ∀ x, (change x).state = x.state) (fd : ∀ x, (change x).fd = x.fd)
    (registration : ∀ x, (change x).registration = x.registration) (run : ∀ x, (change x).run = x.run)
    (eof : ∀ x, (change x).eof = x.eof) : Kept (s.setConn c fun x => (change x).notify) := by
  refine kept.local (fun x _ stage => stage.arrives (state x) (fd x) (registration x) (run x) (eof x)) state fd
    fun x => ?_
  simp [DataConnection.notify, registration x]

theorem Kept.connect (kept : Kept s) {backlog : List Nat} {listening : Option Registration} :
    Kept { s with connections := s.connections ++ [.fresh], backlog, listening } := by
  have cases_of {d : Nat} {y : DataConnection} (there : (s.connections ++ [.fresh])[d]? = some y) :
      s.connections[d]? = some y ∨ d = s.connections.length ∧ y = .fresh := by
    rcases Nat.lt_or_ge d s.connections.length with old | new
    · exact Or.inl ((List.getElem?_append_left old).symm.trans there)
    · rw [List.getElem?_append_right new, List.getElem?_singleton] at there
      split at there
      · cases there
        exact Or.inr ⟨by omega, rfl⟩
      · cases there
  have older {d : Nat} {y : DataConnection} (there : s.connections[d]? = some y) :
      (s.connections ++ [.fresh])[d]? = some y :=
    (List.getElem?_append_left (List.getElem?_eq_some_iff.mp there).1).trans there
  refine ⟨fun d y there => ?_, fun c d x y here there openX openY same => ?_, fun e member d same => ?_, kept.once,
    fun d phase => ?_⟩
  · rcases cases_of there with there | ⟨rfl, rfl⟩
    · exact (kept.stages d y there).apart ⟨fun _ => rfl, fun _ _ => rfl, fun _ _ => Iff.rfl⟩
    · exact .queued rfl rfl rfl
  · rcases cases_of here with here | ⟨-, rfl⟩
    · rcases cases_of there with there | ⟨-, rfl⟩
      · exact kept.distinct c d x y here there openX openY same
      · cases openY
    · cases openX
  · obtain ⟨plain, y, there, registered⟩ := kept.shown e member d same
    exact ⟨plain, y, older there, registered⟩
  · obtain ⟨y, there, opened, free⟩ := kept.held d phase
    exact ⟨y, older there, opened, free⟩

/-- The run of a `ReceFile` that has not closed its connection yet. -/
theorem Stage.active (stage : Stage s c x) (begun : x.run ≠ .absent) (open_ : x.run ≠ .closing)
    (live : x.run ≠ .returned) : ∃ r : Registration, x.state = .opened ∧ x.registration = some r ∧
      s.receFiles x.fd = some x.fd ∧ r.Spent ∧ s.Unseen c ∧
      (x.run = .queued ∨ x.run = .looping ∨ x.run = .receiving (some c) ∨ x.run = .atEof ∧ x.eof = true) := by
  cases stage with
  | queued _ _ run | accepted _ _ _ run | initialised _ _ _ run | watched _ _ _ run | delivered _ _ _ run =>
    exact absurd run begun
  | running r state watches run file spent unseen => exact ⟨r, state, watches, file, spent, unseen, run⟩
  | closed _ _ run =>
    rcases run with closing | returned
    · exact absurd closing open_
    · exact absurd returned live

/-- The descriptor of an open connection means that connection. -/
theorem Kept.owner_eq (kept : Kept s) (here : s.connections[c]? = some x) (opened : x.state = .opened) :
    s.owner x.fd = some c := by
  obtain ⟨d, means⟩ := owner_isSome here opened
  obtain ⟨y, there, openY, same⟩ := owner_some means
  rw [means, kept.distinct c d x y here there opened openY same.symm]

theorem Kept.take (kept : Kept s) (here : s.connections[c]? = some x) (queued : x.run = .queued) :
    Kept (s.setConn c fun x => { x with run := .looping }) := by
  refine kept.local (fun y there stage => ?_) (fun _ => rfl) (fun _ => rfl) fun _ => rfl
  obtain rfl : x = y := Option.some.inj (here.symm.trans there)
  obtain ⟨r, state, watches, file, spent, unseen, -⟩ :=
    stage.active (by simp [queued]) (by simp [queued]) (by simp [queued])
  exact .running r state watches (Or.inr (Or.inl rfl)) file spent unseen

theorem Kept.recv (kept : Kept s) (here : s.connections[c]? = some x) (loops : x.run = .looping) :
    Kept (s.setConn c fun x => { x with run := .receiving ((s.receFiles x.fd).bind s.owner) }) := by
  refine kept.local (fun y there stage => ?_) (fun _ => rfl) (fun _ => rfl) fun _ => rfl
  obtain rfl : x = y := Option.some.inj (here.symm.trans there)
  obtain ⟨r, state, watches, file, spent, unseen, -⟩ :=
    stage.active (by simp [loops]) (by simp [loops]) (by simp [loops])
  refine .running r state watches (Or.inr (Or.inr (Or.inl ?_))) file spent unseen
  rw [file, Option.bind_some, kept.owner_eq here state]

/-- A `ReceFile` receives from its own connection. -/
theorem Kept.source (kept : Kept s) (here : s.connections[c]? = some x) {source : Option Nat}
    (receives : x.run = .receiving source) : source = some c := by
  obtain ⟨-, -, -, -, -, -, run⟩ :=
    (kept.stages c x here).active (by simp [receives]) (by simp [receives]) (by simp [receives])
  simpa [receives] using run

theorem Kept.read (kept : Kept s) (here : s.connections[c]? = some x) (receives : x.run = .receiving (some c))
    {change : DataConnection → DataConnection} (state : ∀ x, (change x).state = x.state)
    (fd : ∀ x, (change x).fd = x.fd) (registration : ∀ x, (change x).registration = x.registration)
    (run : (change x).run = .looping ∨ (change x).run = .atEof ∧ (change x).eof = true) :
    Kept (s.setConn c change) := by
  refine kept.local (fun y there stage => ?_) state fd fun x => by rw [registration]
  obtain rfl : x = y := Option.some.inj (here.symm.trans there)
  obtain ⟨r, opened, watches, file, spent, unseen, -⟩ :=
    stage.active (by simp [receives]) (by simp [receives]) (by simp [receives])
  exact .running r ((state x).trans opened) ((registration x).trans watches)
    (Or.inr (run.imp_right Or.inr)) (by rw [fd]; exact file) spent unseen

theorem setConn_twice (s : RecvManager) (c : Nat) (first second : DataConnection → DataConnection) :
    (s.setConn c first).setConn c second = s.setConn c fun x => second (first x) := by
  simp only [RecvManager.setConn, List.modify_modify_eq]
  rfl

/-- A connection whose event is pending waits for nothing else. -/
theorem Stage.ready (stage : Stage s c x) {r : Registration} (watches : x.registration = some r)
    (ready : r.ready = true) : x.state = .opened ∧ x.run = .absent ∧ s.receFiles x.fd = some x.fd ∧
      (r.Watches .epollIn ∧ r.oneShot = true) := by
  have unspent {q : Registration} (there : x.registration = some q) (spent : q.Spent) : False := by
    rw [watches, Option.some.injEq] at there
    simp [there ▸ spent.2] at ready
  cases stage with
  | queued _ free | accepted _ _ free | initialised _ _ free | closed _ free => simp [watches] at free
  | watched q state there run file armed =>
    rw [watches, Option.some.injEq] at there
    exact ⟨state, run, file, there ▸ armed⟩
  | delivered q _ there _ _ spent | running q _ there _ _ spent => exact (unspent there spent).elim

theorem Kept.collect (kept : Kept s) {r : Registration} (waits : s.phase = .waiting) (fresh : s.Unseen c)
    (here : s.connections[c]? = some x) (watches : x.registration = some r) (ready : r.ready = true)
    (goes : x.fin = false) :
    Kept { s.setConn c fun x => { x with registration := some (r.collect x.readable).2 } with
      events := if (r.collect x.readable).1 then s.events ++ [⟨.connection c, x.fin⟩] else s.events } := by
  obtain ⟨state, run, file, armed⟩ := (kept.stages c x here).ready watches ready
  have new (e : Event) (member : e ∈ if (r.collect x.readable).1 then s.events ++ [⟨.connection c, x.fin⟩]
      else s.events) : e ∈ s.events ∨ e = ⟨.connection c, false⟩ := by
    split at member
    · rw [goes] at member
      exact (List.mem_append.mp member).imp_right List.mem_singleton.mp
    · exact Or.inl member
  refine kept.moved rfl (fun y there => ?_) (fun d other y there => ⟨fun _ => rfl, fun _ _ => rfl, fun e same => ?_⟩)
    (fun _ _ opened => Or.inl ⟨opened, rfl⟩) (fun e member d same => ?_) ?_ fun d phase => ?_
  · obtain rfl : x = y := Option.some.inj (here.symm.trans there)
    by_cases event : (r.collect x.readable).1 = true
    · refine .delivered _ state rfl run file (Registration.collect_spent armed.2 event) ?_
      simp [event, goes]
    · obtain ⟨silent, watching, lasting⟩ := Registration.collect_silent armed.1 (Bool.eq_false_iff.mpr event)
      refine .watched _ state rfl run file ⟨watching, lasting.trans armed.2⟩ (fun readable => ?_) ?_
      · exact absurd (readable.symm.trans silent) (by simp)
      · simp only [event]
        exact fresh
  · refine ⟨fun member => (new e member).resolve_right fun mine => ?_, fun member => ?_⟩
    · rw [mine] at same
      exact other (Source.connection.inj same).symm
    · simp only
      split
      · exact List.mem_append_left _ member
      · exact member
  · rcases new e member with old | rfl
    · obtain ⟨plain, y, there, registered⟩ := kept.shown e old d same
      have apart : d ≠ c := fun mine => fresh e old (mine ▸ same)
      exact ⟨plain, y, (setConn_other apart).trans there, registered⟩
    · cases same
      exact ⟨rfl, _, setConn_self here, rfl⟩
  · simp only
    split
    · rw [List.map_append]
      refine kept.once.append (List.nodup_singleton _) ?_
      simpa using fun e member same => fresh e member same
    · exact kept.once
  · rcases phase with phase | phase <;> simp [setConn, waits] at phase

theorem Kept.tail (kept : Kept s) {e : Event} {rest : List Event} (front : s.events = e :: rest) :
    (rest.map Event.source).Nodup ∧ e.source ∉ rest.map Event.source := by
  have once := kept.once
  rw [front, List.map_cons, List.nodup_cons] at once
  exact ⟨once.2, once.1⟩

/-- The events of the others stay when the first one has been handled. -/
theorem mem_tail {e f : Event} {rest : List Event} (front : s.events = e :: rest) (other : f.source ≠ e.source) :
    f ∈ rest ↔ f ∈ s.events := by
  rw [front, List.mem_cons, or_iff_right]
  rintro rfl
  exact other rfl

theorem Kept.accept (kept : Kept s) (filed : Filed s) {rdhup : Bool} {rest : List Event} {queue : List Nat} {fd : Nat}
    (handles : s.phase = .handling) (front : s.events = ⟨.listening, rdhup⟩ :: rest) (first : s.backlog = c :: queue)
    (free : s.Free fd) :
    Kept { s.setConn c fun x => { x with state := .opened, fd } with
      backlog := queue, events := rest, phase := .accepted c } := by
  have waiting {x : DataConnection} (here : s.connections[c]? = some x) : x.state = .queued :=
    (filed.queued c x here).mpr (by simp [first])
  have untouched {x : DataConnection} (here : s.connections[c]? = some x) :
      x.registration = none ∧ x.run = .absent := by
    have state := waiting here
    cases kept.stages c x here with
    | queued _ none run => exact ⟨none, run⟩
    | accepted _ opened | initialised _ opened | watched _ opened | delivered _ opened | running _ opened
    | closed opened => simp [state] at opened
  have stays {e : Event} {d : Nat} (same : e.source = .connection d) : e ∈ rest ↔ e ∈ s.events :=
    mem_tail front (by simp [same])
  refine kept.moved rfl (fun x here => .accepted rfl rfl (untouched here).1 (untouched here).2)
    (fun d other y there => ⟨fun phase => by simp [handles] at phase, fun _ _ => rfl, fun e => stays⟩)
    (fun x here _ => Or.inr fun d _ y there opened => free d y there opened) (fun e member d same => ?_)
    (kept.tail front).1 fun d phase => ?_
  · obtain ⟨plain, y, there, registered⟩ := kept.shown e ((stays same).mp member) d same
    have apart : d ≠ c := fun mine => by
      subst mine
      simp [(untouched there).1] at registered
    exact ⟨plain, y, (setConn_other apart).trans there, registered⟩
  · obtain rfl : c = d := by simpa using phase
    have here := List.getElem?_eq_getElem (filed.inside c (by simp [first]))
    exact ⟨_, setConn_self here, rfl, (untouched here).1⟩

theorem Kept.initSocket (kept : Kept s) (accepted : s.phase = .accepted c) (here : s.connections[c]? = some x) :
    Kept { s with receFiles := Function.update s.receFiles x.fd (some x.fd), phase := .initialised c } := by
  obtain ⟨y, there, opened, free⟩ := kept.held c (Or.inl accepted)
  obtain rfl : x = y := Option.some.inj (here.symm.trans there)
  refine ⟨fun d y there => ?_, kept.distinct, kept.shown, kept.once, fun d phase => ?_⟩
  · by_cases mine : d = c
    · subst mine
      obtain rfl : x = y := Option.some.inj (here.symm.trans there)
      refine .initialised rfl opened free ?_ (Function.update_self ..)
      cases kept.stages d x here with
      | queued _ _ run => exact run
      | accepted _ _ _ run | initialised _ _ _ run | watched _ _ _ run | delivered _ _ _ run => exact run
      | running _ _ watches => simp [free] at watches
      | closed closed => simp [opened] at closed
    · refine (kept.stages d y there).apart ⟨fun phase => ?_, fun openY _ => ?_, fun _ _ => Iff.rfl⟩
      · simp [accepted, Ne.symm mine] at phase
      · exact Function.update_of_ne (fun same => mine (kept.distinct d c y x there here openY opened same)) ..
  · obtain rfl : c = d := by simpa using phase
    exact ⟨x, here, opened, free⟩

theorem Kept.addConnfd (kept : Kept s) (initialised : s.phase = .initialised c) (silent : s.Unseen c) :
    Kept { s.setConn c fun x => { x with registration := some (addfd true x.readable) } with phase := .handling } := by
  obtain ⟨x, here, opened, free⟩ := kept.held c (Or.inr initialised)
  obtain ⟨run, file⟩ : x.run = .absent ∧ s.receFiles x.fd = some x.fd := by
    cases kept.stages c x here with
    | queued state => simp [opened] at state
    | accepted phase => simp [initialised] at phase
    | initialised _ _ _ run file => exact ⟨run, file⟩
    | watched _ _ watches | delivered _ _ watches | running _ _ watches => simp [free] at watches
    | closed state => simp [opened] at state
  refine kept.moved rfl (fun y there => ?_)
    (fun d other y there => ⟨fun phase => by simp [initialised, Ne.symm other] at phase, fun _ _ => rfl,
      fun _ _ => Iff.rfl⟩)
    (fun _ _ openY => Or.inl ⟨openY, rfl⟩) (fun e member d same => ?_) kept.once fun d phase => by simp at phase
  · obtain rfl : x = y := Option.some.inj (here.symm.trans there)
    exact .watched (addfd true x.readable) opened rfl run file ⟨⟨rfl, rfl⟩, rfl⟩ id silent
  · obtain ⟨plain, y, there, registered⟩ := kept.shown e member d same
    by_cases mine : d = c
    · subst mine
      exact ⟨plain, _, setConn_self there, rfl⟩
    · exact ⟨plain, y, (setConn_other mine).trans there, registered⟩

/-- The event of a connection starts the run of its `ReceFile`. -/
theorem Kept.append (kept : Kept s) {rest : List Event} (handles : s.phase = .handling)
    (front : s.events = ⟨.connection c, false⟩ :: rest) :
    Kept { s.setConn c fun x => { x with run := .queued } with events := rest } := by
  obtain ⟨-, x, here, registered⟩ := kept.shown _ (by rw [front]; exact List.mem_cons_self) c rfl
  have seen (unseen : s.Unseen c) : False := unseen _ (by rw [front]; exact List.mem_cons_self) rfl
  have others {e : Event} {d : Nat} (other : d ≠ c) (same : e.source = .connection d) : e ∈ rest ↔ e ∈ s.events :=
    mem_tail front (by simpa [same] using other)
  have later {e : Event} (member : e ∈ rest) : e.source ≠ .connection c := fun same => by
    have inside := List.mem_map_of_mem (f := Event.source) member
    rw [same] at inside
    exact (kept.tail front).2 inside
  refine kept.moved rfl (fun y there => ?_)
    (fun d other y there => ⟨fun _ => rfl, fun _ _ => rfl, fun e => others other⟩)
    (fun _ _ openY => Or.inl ⟨openY, rfl⟩) (fun e member d same => ?_) (kept.tail front).1
    fun d phase => by simp [setConn, handles] at phase
  · obtain rfl : x = y := Option.some.inj (here.symm.trans there)
    cases kept.stages c x here with
    | queued _ free | accepted _ _ free | initialised _ _ free | closed _ free => simp [free] at registered
    | watched _ _ _ _ _ _ _ unseen | running _ _ _ _ _ _ unseen => exact (seen unseen).elim
    | delivered r state watches run file spent =>
      exact .running r state watches (Or.inl rfl) file spent fun e member => later member
  · have apart : d ≠ c := fun mine => later member (mine ▸ same)
    obtain ⟨plain, y, there, known⟩ := kept.shown e ((others apart same).mp member) d same
    exact ⟨plain, y, (setConn_other apart).trans there, known⟩

/-- A `ReceFile` closes the connection that it has read. -/
theorem Kept.closeConn (kept : Kept s) {fd : Nat} (here : s.connections[c]? = some x) (ended : x.run = .atEof)
    (means : s.receFiles x.fd = some fd) : Kept ((s.removefd fd).setConn c fun x => { x with run := .closing }) := by
  obtain ⟨r, state, watches, file, spent, unseen, run⟩ :=
    (kept.stages c x here).active (by simp [ended]) (by simp [ended]) (by simp [ended])
  have read : x.eof = true := by simpa [ended] using run
  obtain rfl : fd = x.fd := Option.some.inj (means.symm.trans file)
  have removed : s.removefd x.fd = s.setConn c fun y => { y with state := .closed, registration := none } := by
    rw [removefd, kept.owner_eq here state]
  rw [removed, setConn_twice]
  refine kept.moved rfl (fun y there => ?_) (fun d _ y _ => .setConn s c _ d y)
    (fun _ _ opened => by cases opened) (fun e member d same => ?_) kept.once fun d phase => ?_
  · obtain rfl : x = y := Option.some.inj (here.symm.trans there)
    exact .closed rfl rfl (Or.inl rfl) read
  · obtain ⟨plain, y, there, known⟩ := kept.shown e member d same
    have apart : d ≠ c := fun mine => unseen e member (mine ▸ same)
    exact ⟨plain, y, (setConn_other apart).trans there, known⟩
  · obtain ⟨y, there, opened, free⟩ := kept.held d phase
    have apart : d ≠ c := fun mine => by
      subst mine
      obtain rfl : x = y := Option.some.inj (here.symm.trans there)
      simp [watches] at free
    exact ⟨y, (setConn_other apart).trans there, opened, free⟩

/-- The clearing of `m_Sockfd` meets no later connection. -/
theorem Kept.clear (kept : Kept s) (here : s.connections[c]? = some x) (closes : x.run = .closing)
    (free : ∀ (d : Nat) y, s.connections[d]? = some y → y.state = .opened → y.fd = x.fd → s.phase = .accepted d) :
    Kept { s.setConn c fun x => { x with run := .returned } with
      receFiles := Function.update s.receFiles x.fd none } := by
  have ended : x.state = .closed ∧ x.registration = none ∧ x.eof = true := by
    cases kept.stages c x here with
    | queued _ _ run | accepted _ _ _ run | initialised _ _ _ run | watched _ _ _ run | delivered _ _ _ run
    | running _ _ _ run => simp [closes] at run
    | closed state none _ read => exact ⟨state, none, read⟩
  refine kept.moved rfl (fun y there => ?_)
    (fun d _ y there => ⟨fun _ => rfl, fun opened busy => ?_, fun _ _ => Iff.rfl⟩)
    (fun y there opened => ?_) (fun e member d same => ?_) kept.once fun d phase => ?_
  · obtain rfl : x = y := Option.some.inj (here.symm.trans there)
    exact .closed ended.1 ended.2.1 (Or.inr rfl) ended.2.2
  · refine Function.update_of_ne (fun same => ?_) ..
    have accepted := free d y there opened same
    obtain ⟨z, thereZ, -, none⟩ := kept.held d (Or.inl accepted)
    obtain rfl : y = z := Option.some.inj (there.symm.trans thereZ)
    simp [none, accepted] at busy
  · obtain rfl : x = y := Option.some.inj (here.symm.trans there)
    exact Or.inl ⟨opened, rfl⟩
  · obtain ⟨plain, y, there, known⟩ := kept.shown e member d same
    by_cases mine : d = c
    · subst mine
      exact ⟨plain, _, setConn_self there, known⟩
    · exact ⟨plain, y, (setConn_other mine).trans there, known⟩
  · obtain ⟨y, there, opened, none⟩ := kept.held d phase
    by_cases mine : d = c
    · subst mine
      exact ⟨_, setConn_self there, opened, none⟩
    · exact ⟨y, (setConn_other mine).trans there, opened, none⟩

theorem Kept.step (kept : Kept s) (filed : Filed s) (unbroken : s.Unbroken a) (step : Step s a s') : Kept s' := by
  have unchanged {d : Nat} {y : DataConnection} : Apart s s d y := ⟨fun _ => rfl, fun _ _ => rfl, fun _ _ => Iff.rfl⟩
  cases step with
  | connect => exact kept.connect
  | send =>
    exact kept.arrives (fun _ => rfl) (fun _ => rfl) (fun _ => rfl) (fun _ => rfl) fun _ => rfl
  | finish => exact kept.arrives (fun _ => rfl) (fun _ => rfl) (fun _ => rfl) (fun _ => rfl) fun _ => rfl
  | start starts =>
    refine kept.same rfl (fun d y _ => ⟨fun phase => by simp [starts] at phase, fun _ _ => rfl, fun _ _ => Iff.rfl⟩)
      (fun _ member _ _ => member) kept.once fun d phase => by simp at phase
  | @collectListening r waits fresh listens ready =>
    have old {e : Event} (other : e.source ≠ .listening) : e ∈ (if (r.collect !s.backlog.isEmpty).1 then
        s.events ++ [⟨.listening, false⟩] else s.events) ↔ e ∈ s.events := by
      split
      · refine ⟨fun member => (List.mem_append.mp member).resolve_right fun mine => ?_, List.mem_append_left _⟩
        exact other (by rw [List.mem_singleton.mp mine])
      · exact Iff.rfl
    refine kept.same rfl (fun d y _ => ⟨fun _ => rfl, fun _ _ => rfl, fun e same => old (by simp [same])⟩)
      (fun e member d same => (old (by simp [same])).mp member) ?_ fun _ => id
    simp only
    split
    · rw [List.map_append]
      refine kept.once.append (List.nodup_singleton _) ?_
      simpa using fresh
    · exact kept.once
  | collectConnection waits fresh here watches ready =>
    exact kept.collect waits fresh here watches ready (unbroken _ here)
  | wake waits =>
    exact kept.same rfl (fun d y _ => ⟨fun phase => by simp [waits] at phase, fun _ _ => rfl, fun _ _ => Iff.rfl⟩)
      (fun _ member _ _ => member) kept.once fun d phase => by simp at phase
  | acceptNone fd handles front =>
    have stays {e : Event} {d : Nat} (same : e.source = .connection d) := mem_tail (f := e) front (by simp [same])
    exact kept.same rfl (fun d y _ => ⟨fun _ => rfl, fun _ _ => rfl, fun e => stays⟩)
      (fun e member d same => (stays same).mp member) (kept.tail front).1 fun _ => id
  | accept handles front first inside free => exact kept.accept filed handles front first free
  | initSocket accepted here => exact kept.initSocket accepted here
  | @addConnfd c initialised =>
    refine kept.addConnfd initialised fun e member same => ?_
    obtain ⟨-, x, here, registered⟩ := kept.shown e member c same
    obtain ⟨y, there, -, free⟩ := kept.held c (Or.inr initialised)
    obtain rfl : x = y := Option.some.inj (here.symm.trans there)
    simp [free] at registered
  | hangUp tasks handles front =>
    have plain := (kept.shown _ (by rw [front]; exact List.mem_cons_self) _ rfl).1
    cases plain
  | refuse handles front full => exact absurd unbroken (Nat.not_le.mpr full)
  | append handles front room => exact kept.append handles front
  | wait handles =>
    exact kept.same rfl (fun d y _ => ⟨fun phase => by simp [handles] at phase, fun _ _ => rfl, fun _ _ => Iff.rfl⟩)
      (fun _ member _ _ => member) kept.once fun d phase => by simp at phase
  | take here queued => exact kept.take here queued
  | recv here loops => exact kept.recv here loops
  | recvFails count here receives => cases kept.source here receives
  | @recvBytes c x d y count here receives =>
    cases kept.source here receives
    rw [setConn_twice]
    exact kept.read here receives (fun _ => rfl) (fun _ => rfl) (fun _ => rfl) (Or.inl rfl)
  | @recvEnd c x d y here receives =>
    cases kept.source here receives
    rw [setConn_twice]
    exact kept.read here receives (fun _ => rfl) (fun _ => rfl) (fun _ => rfl) (Or.inr ⟨rfl, rfl⟩)
  | closeNone here ended cleared =>
    obtain ⟨-, -, -, file, -⟩ :=
      (kept.stages _ _ here).active (by simp [ended]) (by simp [ended]) (by simp [ended])
    simp [cleared] at file
  | closeConn here ended means => exact kept.closeConn here ended means
  | clear here closes =>
    exact kept.clear here closes fun d y there opened same => unbroken _ d y here there opened same

theorem kept_init : Kept init :=
  ⟨fun c x here => by simp [init] at here, fun c d x y here => by simp [init] at here,
    fun e member => by simp [init] at member, by simp [init], fun c phase => by simp [init] at phase⟩

/-- No worker runs a `ReceFile`, and none is in the pool's queue. -/
def Idle (s : RecvManager) : Prop :=
  ∀ (c : Nat) x, s.connections[c]? = some x → x.run = .absent ∨ x.run = .returned

/-- Every accepted connection whose peer has closed has been read to its end and
closed. -/
def ReadToEnd (s : RecvManager) : Prop :=
  ∀ (c : Nat) x, s.connections[c]? = some x → x.state ≠ .queued → x.fin = true → x.eof = true ∧ x.state = .closed

/-- At rest, a connection with its FIN can only be where it has been closed. -/
theorem Stage.at_rest (stage : Stage s c x) (blocked : s.Blocked) (here : s.connections[c]? = some x)
    (idle : x.run = .absent ∨ x.run = .returned) (accepted : x.state ≠ .queued) (ended : x.fin = true) :
    x.eof = true ∧ x.state = .closed := by
  cases stage with
  | queued state => exact absurd state accepted
  | accepted phase | initialised phase => simp [blocked.waits] at phase
  | watched r _ watches _ _ _ pends =>
    have silent := blocked.connections c x r here watches
    rw [pends (by simp [DataConnection.readable, ended])] at silent
    cases silent
  | delivered _ _ _ _ _ _ event => simp [blocked.none] at event
  | running _ _ _ run => rcases idle with run' | run' <;> simp [run'] at run
  | closed state _ _ read => exact ⟨read, state⟩

theorem kept_run {acts : List RecvAction} (run : Run (Where Step Unbroken) init acts s) : Kept s :=
  (run.invariant (I := fun s => Kept s ∧ Filed s) ⟨kept_init, filed_init⟩ fun _ _ _ kept taken =>
    ⟨kept.1.step kept.2 taken.1 taken.2, kept.2.step taken.2⟩).1

/-- In a run in which no event comes with a FIN, no `ReceFile` is refused and no
reused descriptor is cleared, every accepted connection ends closed. -/
theorem read_to_end {acts : List RecvAction} (run : Run (Where Step Unbroken) init acts s) (blocked : s.Blocked)
    (idle : s.Idle) : s.ReadToEnd :=
  fun c x here accepted ended => ((kept_run run).stages c x here).at_rest blocked here (idle c x here) accepted ended

end Stages

/-- `RecvManager::run` with the one connection that it has accepted as descriptor 7. -/
def serving (x : DataConnection) (events : List Event) (phase : RecvPhase) : RecvManager :=
  ⟨[x], [], some ⟨.epollIn, false, true, false⟩, events, phase, Function.update (fun _ => none) 7 (some 7)⟩

/-- The connection with its registration and the run of its `ReceFile`. -/
def taken (pending : Nat) (fin armed ready : Bool) (run : ReceStage) (eof : Bool) : DataConnection :=
  ⟨pending, fin, .opened, 7, some ⟨.epollIn, true, armed, ready⟩, run, eof⟩

theorem serves_one {guard : RecvManager → RecvAction → Prop}
    (plain : ∀ s a, (∀ c, a ≠ .collect (.connection c)) → (∀ n, a ≠ .dispatch n) → (∀ c, a ≠ .clear c) → guard s a) :
    ∃ acts, Run (Where Step guard) init acts (serving (taken 0 false true false .absent false) [] .waiting) := by
  have begun : Step init .start ⟨[], [], some ⟨.epollIn, false, true, false⟩, [], .waiting, fun _ => none⟩ := .start rfl
  have comes : Step ⟨[], [], some ⟨.epollIn, false, true, false⟩, [], .waiting, fun _ => none⟩ .connect
      ⟨[.fresh], [0], some ⟨.epollIn, false, true, true⟩, [], .waiting, fun _ => none⟩ := .connect
  have free (d : Nat) y (here : [DataConnection.fresh][d]? = some y) (opened : y.state = .opened) : y.fd ≠ 7 := by
    rw [eq_of_singleton here] at opened
    cases opened
  obtain ⟨acts, pass⟩ := accepts plain [] (fun _ => none) (c := 0) (x := .fresh) rfl
    (show 7 < RECV_FILE_NUM by decide) free
  have run := Run.start.next (a := RecvAction.start)
    (show Where Step guard _ _ _ from ⟨plain _ _ nofun nofun nofun, begun⟩)
  have run := run.next (a := RecvAction.connect) ⟨plain _ _ nofun nofun nofun, comes⟩
  exact ⟨_, run.trans pass⟩

theorem serving_blocked {x : DataConnection} (silent : ∀ r, x.registration = some r → r.ready = false) :
    (serving x [] .waiting).Blocked := by
  refine ⟨rfl, rfl, fun r same => by cases same; rfl, fun d y r here watches => ?_⟩
  rw [eq_of_singleton here] at watches
  exact silent r watches

theorem unbroken_plain (s : RecvManager) (a : RecvAction) (source : ∀ c, a ≠ .collect (.connection c))
    (tasks : ∀ n, a ≠ .dispatch n) (clears : ∀ c, a ≠ .clear c) : s.Unbroken a := by
  cases a with
  | collect w =>
    cases w with
    | listening => trivial
    | connection c => exact absurd rfl (source c)
  | dispatch n => exact absurd rfl (tasks n)
  | clear c => exact absurd rfl (clears c)
  | connect | send | finish | start | wake | accept | initSocket | addConnfd | wait | take | recv | recvReturns
  | closeConn => trivial

/-- The peer sends five bytes, and closes when the `ReceFile` has read them. -/
theorem read_to_end_one : ∃ acts s, Run (Where Step Unbroken) init acts s ∧ s.Blocked ∧ s.Idle ∧
    s.connections.length = 1 ∧ s.ReadToEnd := by
  obtain ⟨acts, run⟩ := serves_one unbroken_plain
  have sends : Step (serving (taken 0 false true false .absent false) [] .waiting) (.send 0 5)
      (serving (taken 5 false true true .absent false) [] .waiting) :=
    .send (x := taken 0 false true false .absent false) rfl (by decide) rfl (by simp [taken])
  have collects : Step (serving (taken 5 false true true .absent false) [] .waiting) (.collect (.connection 0))
      (serving (taken 5 false false false .absent false) [⟨.connection 0, false⟩] .waiting) :=
    .collectConnection (x := taken 5 false true true .absent false) rfl (fun _ member => by cases member) rfl rfl rfl
  have wakes : Step (serving (taken 5 false false false .absent false) [⟨.connection 0, false⟩] .waiting) .wake
      (serving (taken 5 false false false .absent false) [⟨.connection 0, false⟩] .handling) :=
    .wake rfl (by simp [serving])
  have appends : Step (serving (taken 5 false false false .absent false) [⟨.connection 0, false⟩] .handling)
      (.dispatch 0) (serving (taken 5 false false false .queued false) [] .handling) :=
    .append (s := serving (taken 5 false false false .absent false) [⟨.connection 0, false⟩] .handling) rfl rfl
      (Nat.zero_le _)
  have waits : Step (serving (taken 5 false false false .queued false) [] .handling) .wait
      (serving (taken 5 false false false .queued false) [] .waiting) := .wait rfl rfl
  have takes : Step (serving (taken 5 false false false .queued false) [] .waiting) (.take 0)
      (serving (taken 5 false false false .looping false) [] .waiting) :=
    .take (x := taken 5 false false false .queued false) rfl rfl
  have receives (pending : Nat) (fin : Bool) :
      Step (serving (taken pending fin false false .looping false) [] .waiting) (.recv 0)
        (serving (taken pending fin false false (.receiving (some 0)) false) [] .waiting) :=
    .recv (x := taken pending fin false false .looping false) rfl rfl
  have reads : Step (serving (taken 5 false false false (.receiving (some 0)) false) [] .waiting) (.recvReturns 0 5)
      (serving (taken 0 false false false .looping false) [] .waiting) :=
    .recvBytes (x := taken 5 false false false (.receiving (some 0)) false)
      (y := taken 5 false false false (.receiving (some 0)) false) rfl rfl rfl (by decide) (Nat.le_refl _) (by decide)
  have finishes : Step (serving (taken 0 false false false .looping false) [] .waiting) (.finish 0)
      (serving (taken 0 true false false .looping false) [] .waiting) :=
    .finish (x := taken 0 false false false .looping false) rfl rfl
  have ends : Step (serving (taken 0 true false false (.receiving (some 0)) false) [] .waiting) (.recvReturns 0 0)
      (serving (taken 0 true false false .atEof true) [] .waiting) :=
    .recvEnd (x := taken 0 true false false (.receiving (some 0)) false)
      (y := taken 0 true false false (.receiving (some 0)) false) rfl rfl rfl rfl rfl
  have closes : Step (serving (taken 0 true false false .atEof true) [] .waiting) (.closeConn 0)
      (serving ⟨0, true, .closed, 7, none, .closing, true⟩ [] .waiting) :=
    .closeConn (s := serving (taken 0 true false false .atEof true) [] .waiting)
      (x := taken 0 true false false .atEof true) rfl rfl rfl
  have clears : Step (serving ⟨0, true, .closed, 7, none, .closing, true⟩ [] .waiting) (.clear 0)
      { serving ⟨0, true, .closed, 7, none, .returned, true⟩ [] .waiting with
        receFiles := Function.update (Function.update (fun _ => none) 7 (some 7)) 7 none } :=
    .clear (x := ⟨0, true, .closed, 7, none, .closing, true⟩) rfl rfl
  have event : (serving (taken 5 false true true .absent false) [] .waiting).Unbroken (.collect (.connection 0)) := by
    intro x here
    rw [eq_of_singleton here]
    rfl
  have unused : (serving ⟨0, true, .closed, 7, none, .closing, true⟩ [] .waiting).Unbroken (.clear 0) := by
    intro x d y _ there opened
    rw [eq_of_singleton there] at opened
    cases opened
  have run := run.next (a := RecvAction.send 0 5) ⟨trivial, sends⟩
  have run := run.next (a := RecvAction.collect (.connection 0)) ⟨event, collects⟩
  have run := run.next (a := RecvAction.wake) ⟨trivial, wakes⟩
  have run := run.next (a := RecvAction.dispatch 0) ⟨Nat.zero_le _, appends⟩
  have run := run.next (a := RecvAction.wait) ⟨trivial, waits⟩
  have run := run.next (a := RecvAction.take 0) ⟨trivial, takes⟩
  have run := run.next (a := RecvAction.recv 0) ⟨trivial, receives 5 false⟩
  have run := run.next (a := RecvAction.recvReturns 0 5) ⟨trivial, reads⟩
  have run := run.next (a := RecvAction.finish 0) ⟨trivial, finishes⟩
  have run := run.next (a := RecvAction.recv 0) ⟨trivial, receives 0 true⟩
  have run := run.next (a := RecvAction.recvReturns 0 0) ⟨trivial, ends⟩
  have run := run.next (a := RecvAction.closeConn 0) ⟨trivial, closes⟩
  have run := run.next (a := RecvAction.clear 0) ⟨unused, clears⟩
  have blocked : RecvManager.Blocked { serving ⟨0, true, .closed, 7, none, .returned, true⟩ [] .waiting with
      receFiles := Function.update (Function.update (fun _ => none) 7 (some 7)) 7 none } :=
    ⟨rfl, rfl, fun r same => by cases same; rfl, fun d y r here watches => by
      rw [eq_of_singleton here] at watches
      cases watches⟩
  have idle : RecvManager.Idle { serving ⟨0, true, .closed, 7, none, .returned, true⟩ [] .waiting with
      receFiles := Function.update (Function.update (fun _ => none) 7 (some 7)) 7 none } := fun c x here => by
    rw [eq_of_singleton here]
    exact Or.inr rfl
  exact ⟨_, _, run, blocked, idle, rfl, read_to_end run blocked idle⟩

/-- The peer sends one byte and closes before the event is taken: it comes with
`EPOLLRDHUP`, and nobody reads the connection. -/
theorem hang_up_is_not_read : ∃ acts s, Run Step init acts s ∧ s.Blocked ∧ s.Idle ∧
    s.connections = [taken 1 true false false .absent false] ∧ ¬ s.ReadToEnd := by
  obtain ⟨acts, run⟩ := serves_one (fun _ _ _ _ _ => trivial)
  have sends : Step (serving (taken 0 false true false .absent false) [] .waiting) (.send 0 1)
      (serving (taken 1 false true true .absent false) [] .waiting) :=
    .send (x := taken 0 false true false .absent false) rfl (by decide) rfl (by simp [taken])
  have finishes : Step (serving (taken 1 false true true .absent false) [] .waiting) (.finish 0)
      (serving (taken 1 true true true .absent false) [] .waiting) :=
    .finish (x := taken 1 false true true .absent false) rfl rfl
  have collects : Step (serving (taken 1 true true true .absent false) [] .waiting) (.collect (.connection 0))
      (serving (taken 1 true false false .absent false) [⟨.connection 0, true⟩] .waiting) :=
    .collectConnection (x := taken 1 true true true .absent false) rfl (fun _ member => by cases member) rfl rfl rfl
  have wakes : Step (serving (taken 1 true false false .absent false) [⟨.connection 0, true⟩] .waiting) .wake
      (serving (taken 1 true false false .absent false) [⟨.connection 0, true⟩] .handling) :=
    .wake rfl (by simp [serving])
  have hangsUp : Step (serving (taken 1 true false false .absent false) [⟨.connection 0, true⟩] .handling)
      (.dispatch 0) (serving (taken 1 true false false .absent false) [] .handling) := .hangUp 0 rfl rfl
  have waits : Step (serving (taken 1 true false false .absent false) [] .handling) .wait
      (serving (taken 1 true false false .absent false) [] .waiting) := .wait rfl rfl
  have run := run.unguarded.next sends |>.next finishes |>.next collects |>.next wakes |>.next hangsUp |>.next waits
  refine ⟨_, _, run, serving_blocked fun r watches => ?_, fun c x here => ?_, rfl, fun done => ?_⟩
  · cases watches
    rfl
  · rw [eq_of_singleton here]
    exact Or.inl rfl
  · have closed := (done 0 (taken 1 true false false .absent false) rfl (by simp [taken]) rfl).2
    cases closed

end RecvManager

end CoflowSim
