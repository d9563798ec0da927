import CoflowSim.Client.Shaping
import CoflowSim.System.TracePlan

namespace CoflowSim
open Lib

/-- The master and its clients, with what each client does for its connections. -/
structure ShapedSession where
  session : Session
  shapings : List Shaping

inductive ShapedAction
  | session (a : SessionAction) (left : TaskFields)
  | shaping (p : Nat) (a : ShapingAction)

namespace Session

/-- What a step of the session does at a node: it is one of the node's client,
or it leaves the client and its instructions alone. -/
theorem Step.site {s t : Session} {a : SessionAction} (step : Step s a t) {p : Nat} {next : Node}
    (here : t.nodes[p]? = some next) : ∃ node, s.nodes[p]? = some node ∧
      ((∀ b, a ≠ .client p b) ∧ next.manager = node.manager ∧ node.loop.appended <+: next.loop.appended ∨
        ∃ b, a = .client p b ∧ node.Scanned b ∧ node.manager.Step b next.manager ∧ next.loop = node.loop) := by
  have kept {q : Nat} {node changed : Node} (client : s.nodes[q]? = some node)
      (there : (s.nodes.set q changed)[p]? = some next) (other : ∀ b, a ≠ .client p b)
      (same : changed.manager = node.manager) (more : node.loop.appended <+: changed.loop.appended) :
      ∃ node, s.nodes[p]? = some node ∧
        ((∀ b, a ≠ .client p b) ∧ next.manager = node.manager ∧ node.loop.appended <+: next.loop.appended ∨
          ∃ b, a = .client p b ∧ node.Scanned b ∧ node.manager.Step b next.manager ∧ next.loop = node.loop) := by
    rw [List.getElem?_set] at there
    split at there
    · rename_i equal
      split at there
      · cases there
        exact ⟨node, equal ▸ client, Or.inl ⟨other, same, more⟩⟩
      · cases there
    · exact ⟨next, there, Or.inl ⟨other, rfl, List.prefix_refl _⟩⟩
  cases step with
  | registerCoflow | enter | skip | dispatched | settle | polled | drained =>
    exact ⟨next, here, Or.inl ⟨by rintro b ⟨⟩, rfl, List.prefix_refl _⟩⟩
  | sendTask kernel sends called =>
    rw [List.getElem?_modify] at here
    obtain ⟨node, before, rfl⟩ := Option.map_eq_some_iff.mp here
    refine ⟨node, before, Or.inl ⟨by rintro b ⟨⟩, ?_⟩⟩
    split
    · exact ⟨rfl, List.prefix_refl _⟩
    · exact ⟨rfl, List.prefix_refl _⟩
  | poll _ _ client => exact kept client here (by rintro b ⟨⟩) rfl (List.prefix_refl _)
  | report _ _ _ client => exact kept client here (by rintro b ⟨⟩) rfl (List.prefix_refl _)
  | @receive q node chunk rest client =>
    have more : node.loop.appended <+: (node.loop.pass (RecvOutcome.ofChunk chunk)).appended := by
      unfold EventLoop.pass EventLoop.decode
      dsimp only
      split
      · exact List.prefix_append _ _
      · exact List.prefix_append _ _
    exact kept client here (by rintro b ⟨⟩) rfl more
  | @client q node b manager client scanned own =>
    by_cases equal : q = p
    · subst equal
      rw [List.getElem?_set, if_pos rfl] at here
      split at here
      · cases here
        exact ⟨node, client, Or.inr ⟨b, rfl, scanned, own, rfl⟩⟩
      · cases here
    · rw [List.getElem?_set, if_neg equal] at here
      refine ⟨next, here, Or.inl ⟨?_, rfl, List.prefix_refl _⟩⟩
      rintro c same
      cases same
      exact equal rfl

theorem Step.nodes_length {s t : Session} {a : SessionAction} (step : Step s a t) :
    t.nodes.length = s.nodes.length := by
  cases step <;> simp

end Session

namespace ShapedSession

def init (master : Scheduler) (pools : List (ThreadPool Caller Job)) (bandwidths : List Rat) : ShapedSession :=
  ⟨.init master pools, bandwidths.map Shaping.init⟩

/-- A step of a client adds to its own connections only. -/
def noted (shapings : List Shaping) (left : TaskFields) : SessionAction → List Shaping
  | .client p b => shapings.modify p fun shaping => shaping.note left b
  | _ => shapings

def Ready (s : ShapedSession) (a : SessionAction) : Prop :=
  ∀ (p : Nat) (b : ClientAction) (shaping : Shaping), a = .client p b → s.shapings[p]? = some shaping → shaping.Ready b

/-- The client at position `p` listens at the port `listen p`. -/
inductive Step (listen : Nat → Nat) : ShapedSession → ShapedAction → ShapedSession → Prop
  | session {s a t left} (step : s.session.Step a t) (ready : s.Ready a) :
      Step listen s (.session a left) ⟨t, noted s.shapings left a⟩
  | shaping {s p a node shaping next} (client : s.session.nodes[p]? = some node)
      (here : s.shapings[p]? = some shaping) (step : shaping.Step (listen p) node.manager a next) :
      Step listen s (.shaping p a) { s with shapings := s.shapings.set p next }

/-- A guard on the steps of the session. -/
def Guarded (guard : Session → SessionAction → Prop) (s : ShapedSession) : ShapedAction → Prop
  | .session a _ => guard s.session a
  | .shaping .. => True

variable {listen : Nat → Nat} {guard : Session → SessionAction → Prop} {s t : ShapedSession} {a : ShapedAction}
  {master : Scheduler} {pools : List (ThreadPool Caller Job)} {bandwidths : List Rat}

/-- At each client the connections are sound, and its tasks are read from
instructions that the event loop has cut out. -/
structure Sound (listen : Nat → Nat) (s : ShapedSession) : Prop where
  lengths : s.shapings.length = s.session.nodes.length
  sites : ∀ (p : Nat) (node : Node) (shaping : Shaping), s.session.nodes[p]? = some node → s.shapings[p]? = some shaping →
    shaping.Sound (listen p) node.manager ∧ node.manager.Pointed ∧
      ∀ fields ∈ shaping.fields, ∃ ins ∈ node.loop.appended, ∃ left, fields = TaskFields.parse ins left .double

theorem sound_init (created : ∀ pool ∈ pools, ∃ thread_num, ThreadPool.create thread_num 10000 = some pool)
    (cards : bandwidths.length = pools.length) : Sound listen (init master pools bandwidths) := by
  refine ⟨by simp [init, Session.init, cards], fun p node shaping here there => ?_⟩
  obtain ⟨pool, atPool, rfl⟩ := Option.map_eq_some_iff.mp ((List.getElem?_map ..).symm.trans here)
  obtain ⟨bandwidth, -, rfl⟩ := Option.map_eq_some_iff.mp ((List.getElem?_map ..).symm.trans there)
  obtain ⟨thread_num, create⟩ := created pool (List.mem_of_getElem? atPool)
  obtain ⟨-, rfl⟩ := ThreadPool.create_eq create
  refine ⟨Shaping.sound_init bandwidth fun t holds => ?_, SendManager.pointed_init _,
    fun _ member => absurd member List.not_mem_nil⟩
  rcases holds with queued | executes
  · cases queued
  · cases executes

theorem Sound.session (sound : s.Sound listen) {a : SessionAction} {u : Session} (step : s.session.Step a u)
    (ready : s.Ready a) (left : TaskFields) : Sound listen ⟨u, noted s.shapings left a⟩ := by
  have lengths : (noted s.shapings left a).length = s.shapings.length := by
    unfold noted
    split
    · exact List.length_modify ..
    · rfl
  refine ⟨lengths.trans (sound.lengths.trans step.nodes_length.symm), fun p next shaping here there => ?_⟩
  obtain ⟨node, before, ⟨other, same, more⟩ | ⟨b, rfl, scanned, own, loop⟩⟩ := step.site here
  · have kept : (noted s.shapings left a)[p]? = s.shapings[p]? := by
      unfold noted
      split
      · rename_i q b
        have apart : q ≠ p := by
          rintro rfl
          exact other b rfl
        simp [apart]
      · rfl
    obtain ⟨shaped, pointed, read⟩ := sound.sites p node shaping before (kept.symm.trans there)
    rw [same]
    refine ⟨shaped, pointed, fun fields member => ?_⟩
    obtain ⟨ins, handed, from_⟩ := read fields member
    exact ⟨ins, more.subset handed, from_⟩
  · obtain ⟨old, atOld, rfl⟩ := Option.map_eq_some_iff.mp ((List.getElem?_modify ..).symm.trans there)
    simp only [if_true]
    obtain ⟨shaped, pointed, read⟩ := sound.sites p node old before atOld
    refine ⟨shaped.client (ready p b old rfl atOld) own left, pointed.step own, ?_⟩
    rw [loop]
    cases b with
    | appendTask ins unset =>
      intro fields member
      rcases List.mem_append.mp member with earlier | last
      · exact read fields earlier
      · exact ⟨ins, List.mem_of_getElem? scanned, left, List.mem_singleton.mp last⟩
    | _ => exact read

theorem Sound.shaping (sound : s.Sound listen) {p : Nat} {b : ShapingAction} {node : Node} {shaping next : Shaping}
    (client : s.session.nodes[p]? = some node) (here : s.shapings[p]? = some shaping)
    (step : shaping.Step (listen p) node.manager b next) :
    Sound listen { s with shapings := s.shapings.set p next } := by
  refine ⟨(List.length_set ..).trans sound.lengths, fun q other' after atQ there => ?_⟩
  by_cases equal : p = q
  · subst equal
    cases client.symm.trans atQ
    rw [List.getElem?_set, if_pos rfl] at there
    split at there
    · cases there
      obtain ⟨shaped, pointed, read⟩ := sound.sites p node shaping client here
      refine ⟨shaped.step step, pointed, ?_⟩
      cases step with
      | connect => exact read
      | setIpPortBandwidth => exact read
    · cases there
  · rw [List.getElem?_set, if_neg equal] at there
    exact sound.sites q other' after atQ there

theorem Sound.step (sound : s.Sound listen) (step : Step listen s a t) : t.Sound listen := by
  cases step with
  | session step ready => exact sound.session step ready _
  | shaping client here step => exact sound.shaping client here step

theorem sound_run (created : ∀ pool ∈ pools, ∃ thread_num, ThreadPool.create thread_num 10000 = some pool)
    (cards : bandwidths.length = pools.length) {acts : List ShapedAction}
    (run : Run (Where (Step listen) (Guarded guard)) (init master pools bandwidths) acts s) : s.Sound listen :=
  run.invariant (sound_init created cards) fun _ _ _ sound taken => sound.step taken.2

end ShapedSession

namespace Shaping

variable {listen_port : Nat} {manager : SendManager} {s : Shaping}

end Shaping

namespace ShapedSession

variable {listen : Nat → Nat} {guard : Session → SessionAction → Prop} {master : Scheduler}
  {pools : List (ThreadPool Caller Job)} {bandwidths : List Rat}

end ShapedSession

end CoflowSim
