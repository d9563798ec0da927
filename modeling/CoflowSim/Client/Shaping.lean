import CoflowSim.Client.SenderLifetime
import CoflowSim.Client.TaskCodec
import CoflowSim.Client.TrafficControl

namespace CoflowSim
open Lib

/-- A port that `SendManager::run` draws, from `min_port` to `max_port`. -/
abbrev LocalPort : Type := Set.Icc 1001 65535

/-- The socket of a task: there is none, it is connected from a local port, and
the bandwidth of that port is set. -/
inductive LocalSocket
  | absent
  | connected (local_port : LocalPort)
  | limited (local_port : LocalPort)

def LocalSocket.number : LocalSocket → Nat
  | .absent => 0
  | .connected local_port => local_port
  | .limited local_port => local_port

/-- What `SendManager::run` does for the connection of a task before it appends
the `Sender`: all that the instructions say, the sockets of the tasks, and the
traffic control of the card. -/
structure Shaping where
  fields : List TaskFields
  sockets : Nat → LocalSocket
  tc_manager : TrafficControlManager

inductive ShapingAction
  | connect (task : Nat) (local_port : LocalPort)
  | setIpPortBandwidth (task : Nat)

namespace Shaping

def init (net_card_bandwidth_MBs : Rat) : Shaping := ⟨[], fun _ => .absent, .create net_card_bandwidth_MBs⟩

/-- A socket has its port until the `Sender` of its task closes it. -/
def Open (s : Shaping) (manager : SendManager) (t : Nat) (local_port : LocalPort) : Prop :=
  s.sockets t = .connected local_port ∨
    s.sockets t = .limited local_port ∧ ∀ task, manager.tasks[t]? = some task → ¬ task.sender.Released

/-- The two steps while `SendManager::run` is about to append a `Sender`. Ports
are drawn until `bind` finds one that no open socket has, the client's own
listening socket among them; `socket` and `connect` do not fail. -/
inductive Step (listen_port : Nat) (manager : SendManager) : Shaping → ShapingAction → Shaping → Prop
  | connect {s t local_port fields} (holds : manager.phase = .connecting t) (absent : s.sockets t = .absent)
      (here : s.fields[t]? = some fields) (free : ∀ u, ¬ s.Open manager u local_port)
      (other : local_port.val ≠ listen_port) :
      Step listen_port manager s (.connect t local_port)
        { s with sockets := Function.update s.sockets t (.connected local_port) }
  | setIpPortBandwidth {s t local_port fields} (holds : manager.phase = .connecting t)
      (connected : s.sockets t = .connected local_port) (here : s.fields[t]? = some fields) :
      Step listen_port manager s (.setIpPortBandwidth t) { s with
        sockets := Function.update s.sockets t (.limited local_port)
        tc_manager := (s.tc_manager.setIpPortBandwidth local_port fields.speed_Mbs).2 }

/-- `new Sender` comes after the bandwidth. -/
def Ready (s : Shaping) : ClientAction → Prop
  | .append t => ∃ local_port, s.sockets t = .limited local_port
  | _ => True

/-- What a step of the client adds. `malloc` leaves `left` in a new task. -/
def note (s : Shaping) (left : TaskFields) : ClientAction → Shaping
  | .appendTask ins _ => { s with fields := s.fields ++ [.parse ins left .double] }
  | _ => s

end Shaping

namespace SendManager

variable {s s' : SendManager} {a : ClientAction}

/-- A `Sender` is with the pool only since it was appended. -/
theorem Step.holds_sender (step : Step s a s') {t : Nat} (holds : s'.pool.Holds (.sender t)) :
    s.pool.Holds (.sender t) ∨ a = .append t := by
  cases step with
  | startRecv _ pushed => exact Or.inl (((ThreadPool.push_holds_iff pushed _).mp holds).resolve_left nofun)
  | startSend _ _ pushed => exact Or.inl (((ThreadPool.push_holds_iff pushed _).mp holds).resolve_left nofun)
  | @append u pool _ pushed =>
    rcases (ThreadPool.push_holds_iff pushed _).mp holds with same | before
    · cases same
      exact Or.inr rfl
    · exact Or.inl before
  | pool step => exact Or.inl ((step.holds_iff _).mp holds)
  | appendReceFile _ _ pushed => exact Or.inl (((ThreadPool.push_holds_iff pushed _).mp holds).resolve_left nofun)
  | receFileReturns executes => exact Or.inl (ThreadPool.holds_of_finish executes holds)
  | senderReturns executes => exact Or.inl (ThreadPool.holds_of_finish executes holds)
  | _ => exact Or.inl holds

/-- The tasks that `SendManager::run` is to take up, or has, are there. -/
structure Pointed (s : SendManager) : Prop where
  queued : ∀ t ∈ s.send_task_wait_queue, t < s.tasks.length
  held : ∀ t, s.phase.holds = some t → t < s.tasks.length

theorem Pointed.step (pointed : s.Pointed) (step : Step s a s') : s'.Pointed := by
  have longer := step.keeps_tasks
  have held {t : Nat} (holds : s.phase.holds = some t) : t < s'.tasks.length :=
    Nat.lt_of_lt_of_le (pointed.held t holds) longer
  have queued {t : Nat} (inside : t ∈ s.send_task_wait_queue) : t < s'.tasks.length :=
    Nat.lt_of_lt_of_le (pointed.queued t inside) longer
  cases step with
  | appendTask =>
    refine ⟨fun t inside => ?_, fun t => held⟩
    rcases List.mem_append.mp inside with before | last
    · exact queued before
    · rw [List.mem_singleton.mp last]
      simp
  | @pop t rest wakes front =>
    have first : t ∈ s.send_task_wait_queue := front ▸ List.mem_cons_self
    refine ⟨fun u inside => queued (front ▸ List.mem_cons_of_mem t inside), fun u holds => ?_⟩
    cases holds
    exact queued first
  | refuseSender holds | append holds => exact ⟨fun _ => queued, fun u same => held (by rw [holds]; exact same)⟩
  | appendReturns holds | mark holds => exact ⟨fun _ => queued, fun u same => held (by rw [holds]; exact same)⟩
  | wait | popNone | push | pass | find | scanned | takeReply | sendMsg | delete => exact ⟨fun _ => queued, nofun⟩
  | _ => exact ⟨fun _ => queued, fun _ => held⟩

theorem pointed_init (pool : ThreadPool Caller Job) : (init pool).Pointed := ⟨nofun, nofun⟩

/-- A socket that is closed stays closed. -/
theorem Step.released (step : Step s a s') {t : Nat} {task : SendTask} (here : s.tasks[t]? = some task)
    (released : task.sender.Released) : ∃ task', s'.tasks[t]? = some task' ∧ task'.sender.Released := by
  obtain ⟨task', after, move⟩ := step.moves here
  refine ⟨task', after, ?_⟩
  cases move with
  | stays | marked | reported => exact released
  | timed time sends => simp [SenderStage.Released, sends] at released
  | ended timed => simp [SenderStage.Released, timed] at released
  | closed => exact Or.inl rfl
  | returned => exact Or.inr rfl

end SendManager

/-- A call for a port leaves the other ports and classes alone, whatever its bandwidth. -/
theorem TrafficControlManager.setIpPortBandwidth_others {m : TrafficControlManager} (filed : m.tc.Filed) (ip_port : Nat)
    (bandwidth : Rat) :
    let m' := (m.setIpPortBandwidth ip_port bandwidth).2
    m'.tc.Filed ∧ m'.tc.defcls = m.tc.defcls ∧ ∀ n, n ≠ ip_port →
      m'.tc.matching n = m.tc.matching n ∧ m'.tc.classes.find? n = m.tc.classes.find? n := by
  by_cases positive : 0 < bandwidth
  · obtain ⟨filed, default, matching, classes⟩ := setIpPortBandwidth_spec filed ip_port positive
    exact ⟨filed, default, fun n apart => ⟨(matching n).trans (if_neg apart), (classes n).trans (if_neg apart)⟩⟩
  · rw [setIpPortBandwidth, if_pos (not_lt.mp positive)]
    exact ⟨filed, rfl, fun _ _ => ⟨rfl, rfl⟩⟩

namespace Shaping

open TrafficControlManager

variable {listen_port : Nat} {manager manager' : SendManager} {s t : Shaping} {a : ShapingAction} {b : ClientAction}

/-- Each open socket has a port of its own, and once the bandwidth is set its
packets go to a class of that bandwidth. What leaves from the listening port
goes to the default class. -/
structure Sound (listen_port : Nat) (manager : SendManager) (s : Shaping) : Prop where
  filed : s.tc_manager.tc.Filed
  default : s.tc_manager.tc.defcls = DEFAULT_CLASS
  slow : s.tc_manager.tc.classes.find? DEFAULT_CLASS = some 1
  length : s.fields.length = manager.tasks.length
  known : ∀ t, s.fields.length ≤ t → s.sockets t = .absent
  apart : ∀ t u local_port, s.Open manager t local_port → s.Open manager u local_port → t = u
  other : ∀ t local_port, s.sockets t = .connected local_port → local_port.val ≠ listen_port
  unmatched : s.tc_manager.tc.matching listen_port = []
  limited : ∀ t local_port fields, s.sockets t = .limited local_port → s.Open manager t local_port →
    s.fields[t]? = some fields → 0 < fields.speed_Mbs →
      s.tc_manager.tc.matching local_port = [⟨local_port, local_port, local_port⟩] ∧
      s.tc_manager.tc.classes.find? local_port = some (sixDigits fields.speed_Mbs)
  launched : ∀ t, manager.pool.Holds (.sender t) → ∃ local_port, s.sockets t = .limited local_port

theorem sixDigits_one : sixDigits 1 = 1 :=
  (sixDigits_eq_self_iff (by norm_num)).mpr ⟨1, 0, by norm_num, by norm_num⟩

theorem sound_init (net_card_bandwidth_MBs : Rat) {pool : ThreadPool Caller Job}
    (empty : ∀ t, ¬ pool.Holds (.sender t)) :
    (init net_card_bandwidth_MBs).Sound listen_port (.init pool) where
  filed := fun _ member => (List.not_mem_nil member).elim
  default := rfl
  slow := by
    have set : (init net_card_bandwidth_MBs).tc_manager.tc.classes.find? DEFAULT_CLASS =
        some (readRate (rateText 1)) := (OrderedMap.find?_insert ..).trans (if_pos rfl)
    rw [set, readRate_rateText one_pos, sixDigits_one]
  length := rfl
  known := fun _ _ => rfl
  apart := fun _ _ _ opened => by rcases opened with opened | ⟨opened, -⟩ <;> cases opened
  other := fun _ _ connected => by cases connected
  unmatched := rfl
  limited := fun _ _ _ limited => by cases limited
  launched := fun t holds => absurd holds (empty t)

/-- A step of the client opens no socket. -/
theorem Open.before (step : SendManager.Step manager b manager') {local_port : LocalPort} {u : Nat}
    (opened : s.Open manager' u local_port) : s.Open manager u local_port := by
  rcases opened with connected | ⟨limited, kept⟩
  · exact Or.inl connected
  · refine Or.inr ⟨limited, fun task here released => ?_⟩
    obtain ⟨task', after, released⟩ := step.released here released
    exact kept task' after released

theorem fields_of_note {left : TaskFields} {u : Nat} {fields : TaskFields} (inside : u < s.fields.length)
    (here : (s.note left b).fields[u]? = some fields) : s.fields[u]? = some fields := by
  cases b with
  | appendTask => exact (List.getElem?_append_left inside).symm.trans here
  | _ => exact here

theorem note_kept (s : Shaping) (left : TaskFields) (b : ClientAction) :
    (s.note left b).sockets = s.sockets ∧ (s.note left b).tc_manager = s.tc_manager ∧
      s.fields.length ≤ (s.note left b).fields.length := by
  cases b with
  | appendTask => exact ⟨rfl, rfl, by simp [note]⟩
  | _ => exact ⟨rfl, rfl, Nat.le_refl _⟩

theorem Sound.length_note (sound : s.Sound listen_port manager) (step : SendManager.Step manager b manager')
    (left : TaskFields) : (s.note left b).fields.length = manager'.tasks.length := by
  have length := sound.length
  cases step with
  | refuseTask | appendTask => simp [note, length]
  | mark | sendMsg | setEndTime | setSendEnd | close | senderReturns => simpa [note, SendManager.setTask] using length
  | _ => exact length

/-- A step of the client keeps the connections as they are. -/
theorem Sound.client (sound : s.Sound listen_port manager) (ready : s.Ready b)
    (step : SendManager.Step manager b manager') (left : TaskFields) :
    (s.note left b).Sound listen_port manager' := by
  obtain ⟨sockets, tc, longer⟩ := s.note_kept left b
  have opens {u : Nat} {local_port : LocalPort} (opened : (s.note left b).Open manager' u local_port) :
      s.Open manager u local_port := by
    rw [Open, sockets] at opened
    exact Open.before step opened
  refine ⟨tc ▸ sound.filed, tc ▸ sound.default, tc ▸ sound.slow, sound.length_note step left, fun u beyond => ?_,
    fun u v local_port first second => sound.apart u v local_port (opens first) (opens second), ?_, ?_, ?_, ?_⟩
  · rw [sockets]
    exact sound.known u (longer.trans beyond)
  · rw [sockets]
    exact sound.other
  · rw [tc]
    exact sound.unmatched
  · intro u local_port fields limited opened here positive
    rw [sockets] at limited
    rw [tc]
    have inside : u < s.fields.length := by
      by_contra beyond
      rw [sound.known u (Nat.not_lt.mp beyond)] at limited
      cases limited
    exact sound.limited u local_port fields limited (opens opened) (fields_of_note inside here) positive
  · intro u holds
    rw [sockets]
    rcases step.holds_sender holds with before | rfl
    · exact sound.launched u before
    · exact ready

/-- Opening or limiting the socket of one task leaves the others open as they were. -/
theorem open_update {t : Nat} {socket : LocalSocket} {tc_manager : TrafficControlManager} {u : Nat}
    {local_port : LocalPort} (other : u ≠ t) :
    Open { s with sockets := Function.update s.sockets t socket, tc_manager } manager u local_port ↔
      s.Open manager u local_port := by
  simp only [Open, Function.update_of_ne other]

theorem Sound.connect (sound : s.Sound listen_port manager) {t : Nat} {local_port : LocalPort} {fields : TaskFields}
    (absent : s.sockets t = .absent) (here : s.fields[t]? = some fields)
    (free : ∀ u, ¬ s.Open manager u local_port) (other : local_port.val ≠ listen_port) :
    Sound listen_port manager { s with sockets := Function.update s.sockets t (.connected local_port) } := by
  have itself {q : LocalPort}
      (opened : Open { s with sockets := Function.update s.sockets t (.connected local_port) } manager t q) :
      q = local_port := by
    simp only [Open, Function.update_self] at opened
    rcases opened with connected | ⟨limited, -⟩
    · cases connected
      rfl
    · cases limited
  refine { sound with known := fun u beyond => ?_, apart := fun u v q first second => ?_, other := fun u q => ?_,
                      limited := fun u q fields limited opened => ?_, launched := fun u holds => ?_ }
  · have inside := (List.getElem?_eq_some_iff.mp here).1
    have beyond : s.fields.length ≤ u := beyond
    have isU : u ≠ t := by omega
    exact (Function.update_of_ne isU ..).trans (sound.known u beyond)
  · by_cases isU : u = t
    · by_cases isV : v = t
      · rw [isU, isV]
      · subst isU
        cases itself first
        exact absurd ((open_update isV).mp second) (free v)
    · by_cases isV : v = t
      · subst isV
        cases itself second
        exact absurd ((open_update isU).mp first) (free u)
      · exact sound.apart u v q ((open_update isU).mp first) ((open_update isV).mp second)
  · by_cases isU : u = t
    · subst isU
      simp only [Function.update_self]
      rintro ⟨⟩
      exact other
    · simp only [Function.update_of_ne isU]
      exact sound.other u q
  · by_cases isU : u = t
    · subst isU
      simp only [Function.update_self] at limited
      cases limited
    · simp only [Function.update_of_ne isU] at limited
      exact sound.limited u q fields limited ((open_update isU).mp opened)
  · obtain ⟨q, limited⟩ := sound.launched u holds
    have isU : u ≠ t := by
      rintro rfl
      cases absent.symm.trans limited
    exact ⟨q, (Function.update_of_ne isU ..).trans limited⟩

theorem Sound.setIpPortBandwidth (sound : s.Sound listen_port manager) {t : Nat} {local_port : LocalPort}
    {fields : TaskFields} (connected : s.sockets t = .connected local_port) (here : s.fields[t]? = some fields) :
    Sound listen_port manager { s with
      sockets := Function.update s.sockets t (.limited local_port)
      tc_manager := (s.tc_manager.setIpPortBandwidth local_port fields.speed_Mbs).2 } := by
  have own : s.Open manager t local_port := Or.inl connected
  obtain ⟨filed, default, others⟩ := setIpPortBandwidth_others sound.filed local_port fields.speed_Mbs
  have low := local_port.property.1
  have opens {u : Nat} {q : LocalPort} (opened : Open { s with
      sockets := Function.update s.sockets t (.limited local_port)
      tc_manager := (s.tc_manager.setIpPortBandwidth local_port fields.speed_Mbs).2 } manager u q) :
      s.Open manager u q := by
    by_cases isU : u = t
    · subst isU
      simp only [Open, Function.update_self] at opened
      rcases opened with connected | ⟨limited, -⟩
      · cases connected
      · cases limited
        exact own
    · exact (open_update isU).mp opened
  refine ⟨filed, default.trans sound.default, ?_, sound.length, fun u beyond => ?_,
    fun u v q first second => sound.apart u v q (opens first) (opens second), fun u q => ?_, ?_,
    fun u q fields' limited opened at_u positive => ?_, fun u holds => ?_⟩
  · have apart : DEFAULT_CLASS ≠ local_port.val := by
      unfold DEFAULT_CLASS
      omega
    exact (others _ apart).2.trans sound.slow
  · have inside := (List.getElem?_eq_some_iff.mp here).1
    have beyond : s.fields.length ≤ u := beyond
    have isU : u ≠ t := by omega
    exact (Function.update_of_ne isU ..).trans (sound.known u beyond)
  · by_cases isU : u = t
    · subst isU
      simp only [Function.update_self]
      rintro ⟨⟩
    · simp only [Function.update_of_ne isU]
      exact sound.other u q
  · exact (others _ (sound.other t local_port connected).symm).1.trans sound.unmatched
  · by_cases isU : u = t
    · subst isU
      simp only [Function.update_self] at limited
      cases limited
      cases here.symm.trans at_u
      obtain ⟨-, -, matched, set⟩ := setIpPortBandwidth_spec sound.filed local_port positive
      exact ⟨(matched _).trans (if_pos rfl),
        ((set _).trans (if_pos rfl)).trans (congrArg some (readRate_rateText positive))⟩
    · simp only [Function.update_of_ne isU] at limited
      have apart : q.val ≠ local_port := by
        intro same
        have same : q = local_port := Subtype.ext same
        exact isU (sound.apart u t local_port (same ▸ opens opened) own)
      obtain ⟨matching, classes⟩ := others q apart
      obtain ⟨matched, set⟩ := sound.limited u q fields' limited (opens opened) at_u positive
      exact ⟨matching.trans matched, classes.trans set⟩
  · by_cases isU : u = t
    · exact ⟨local_port, isU ▸ Function.update_self ..⟩
    · obtain ⟨q, limited⟩ := sound.launched u holds
      exact ⟨q, (Function.update_of_ne isU ..).trans limited⟩

theorem Sound.step (sound : s.Sound listen_port manager) (step : Step listen_port manager s a t) :
    t.Sound listen_port manager := by
  cases step with
  | connect holds absent here free other => exact sound.connect absent here free other
  | setIpPortBandwidth holds connected here => exact sound.setIpPortBandwidth connected here

/-- The packets of an open socket whose bandwidth is set go to a class of that
bandwidth. -/
theorem Sound.classify (sound : s.Sound listen_port manager) {t : Nat} {local_port : LocalPort} {fields : TaskFields}
    (limited : s.sockets t = .limited local_port) (opened : s.Open manager t local_port)
    (here : s.fields[t]? = some fields) (positive : 0 < fields.speed_Mbs) :
    s.tc_manager.tc.classify local_port = local_port ∧
      s.tc_manager.tc.classes.find? local_port = some (sixDigits fields.speed_Mbs) := by
  obtain ⟨matching, set⟩ := sound.limited t local_port fields limited opened here positive
  refine ⟨?_, set⟩
  rw [Tc.classify_eq, matching]
  simp [set]

end Shaping

end CoflowSim
