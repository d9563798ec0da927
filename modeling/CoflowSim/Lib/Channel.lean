import CoflowSim.Lib.Framing
import Mathlib.Logic.Relation

namespace Lib

universe u v w

/-- A FIFO channel, by what has been put into it and what has been taken out. -/
structure Fifo (μ : Type u) where
  put : List μ
  got : List μ

namespace Fifo

variable {μ : Type u} {c d : Fifo μ}

def empty : Fifo μ := ⟨[], []⟩

/-- A message goes in, or the first one that is still inside comes out. -/
inductive Step : Fifo μ → Fifo μ → Prop
  | put {c : Fifo μ} (m : μ) : Step c { c with put := c.put ++ [m] }
  | get {c : Fifo μ} {m : μ} (next : c.put[c.got.length]? = some m) : Step c { c with got := c.got ++ [m] }

/-- Nothing has come out that was not put in, nor twice, nor out of order. -/
def InOrder (c : Fifo μ) : Prop := c.got <+: c.put

theorem Step.inOrder (step : Step c d) (before : c.InOrder) : d.InOrder := by
  cases step with
  | put m => exact before.trans (List.prefix_append _ _)
  | @get m next =>
    obtain ⟨rest, whole⟩ := before
    rw [← whole, List.getElem?_append_right (Nat.le_refl _), Nat.sub_self] at next
    cases rest with
    | nil => cases next
    | cons first rest =>
      cases next
      exact ⟨rest, by rw [← whole]; simp⟩

theorem gets {ms : List μ} (within : c.got ++ ms <+: c.put) :
    Relation.ReflTransGen Step c { c with got := c.got ++ ms } := by
  induction ms using List.reverseRecOn with
  | nil => simpa only [List.append_nil] using .refl
  | append_singleton ms m ih =>
    rw [← List.append_assoc] at within ⊢
    obtain ⟨rest, whole⟩ := within
    refine (ih ((List.prefix_append _ _).trans ⟨rest, whole⟩)).tail (.get ?_)
    dsimp only
    rw [← whole, List.append_assoc, List.getElem?_append_right (Nat.le_refl _), Nat.sub_self]
    rfl

end Fifo

/-- The rule of refinement: along a run with an invariant each step is matched
by steps of the specification, between the values of the abstraction. -/
theorem Run.refines {σ : Type u} {α : Type v} {τ : Type w} {step : σ → α → σ → Prop} {spec : τ → τ → Prop}
    {I : σ → Prop} {abs : σ → τ} {initial t : σ} {acts : List α} (run : Run step initial acts t) (base : I initial)
    (matched : ∀ s a t, I s → step s a t → I t ∧ Relation.ReflTransGen spec (abs s) (abs t)) :
    I t ∧ Relation.ReflTransGen spec (abs initial) (abs t) := by
  induction run with
  | start => exact ⟨base, .refl⟩
  | next _ last ih =>
    obtain ⟨kept, more⟩ := matched _ _ _ ih.1 last
    exact ⟨kept, ih.2.trans more⟩

namespace Framing

variable {α : Type u} [DecidableEq α] {op cl : α}

omit [DecidableEq α] in
/-- The frames of some messages, cut into what has been read and what has not. -/
structure Cut (op cl : α) (messages : List (List α)) (text rest : List α) : Prop where
  clean : ∀ m ∈ messages, ∀ b ∈ m, b ≠ op ∧ b ≠ cl
  whole : text ++ rest = messages.flatMap (wrap op cl)

namespace Cut

variable {messages : List (List α)} {text rest : List α}

omit [DecidableEq α] in
theorem nil : Cut op cl [] [] [] := ⟨by simp, rfl⟩

omit [DecidableEq α] in
theorem put (cut : Cut op cl messages text rest) {m : List α} (clean : ∀ b ∈ m, b ≠ op ∧ b ≠ cl) :
    Cut op cl (messages ++ [m]) text (rest ++ wrap op cl m) := by
  refine ⟨fun other member => ?_, ?_⟩
  · rcases List.mem_append.mp member with old | new
    · exact cut.clean other old
    · rwa [List.mem_singleton.mp new]
  · rw [List.flatMap_append, List.flatMap_singleton, ← cut.whole, List.append_assoc]

omit [DecidableEq α] in
theorem read {chunk : List α} (cut : Cut op cl messages text (chunk ++ rest)) :
    Cut op cl messages (text ++ chunk) rest :=
  ⟨cut.clean, by rw [List.append_assoc, cut.whole]⟩

theorem packed (distinct : op ≠ cl) (cut : Cut op cl messages text rest) :
    Packed op cl (text ++ rest) ∧ ¬ Open op cl (text ++ rest) ∧ frames op cl [] (text ++ rest) = messages := by
  rw [cut.whole]
  exact packed_flatMap distinct cut.clean

/-- The messages are those that have been read, and those that have not. -/
theorem frames_eq (distinct : op ≠ cl) (cut : Cut op cl messages text rest) :
    frames op cl [] text ++ frames op cl text rest = messages := by
  rw [← (cut.packed distinct).2.2, frames_append, List.nil_append]

theorem all_read (distinct : op ≠ cl) (cut : Cut op cl messages text []) : frames op cl [] text = messages := by
  rw [← cut.frames_eq distinct]
  simp [frames]

theorem closes (distinct : op ≠ cl) (cut : Cut op cl messages text rest) : Closes op cl text := by
  have whole := (cut.packed distinct).1.closes distinct
  exact whole.prefix

theorem since_of_clean (before : List α) {run : List α} (clean : ∀ b ∈ run, b ≠ op) :
    since op (before ++ op :: run) = run := by
  induction run using List.reverseRecOn with
  | nil => rw [since_concat, if_pos rfl]
  | append_singleton run b ih =>
    rw [← List.cons_append, ← List.append_assoc, since_concat, if_neg (clean b (by simp)),
      ih fun c member => clean c (by simp [member])]

/-- The unfinished frame is the beginning of a message. -/
theorem short (distinct : op ≠ cl) (cut : Cut op cl messages text rest) {limit : Nat}
    (lengths : ∀ m ∈ messages, m.length ≤ limit) : Short op cl limit text := by
  rintro before run ⟨more, rfl⟩ clean
  obtain ⟨packed, done, decoded⟩ := cut.packed distinct
  rw [List.append_assoc] at packed done decoded
  have opened : Open op cl (before ++ op :: run) := by
    rw [List.append_cons]
    exact open_append_clean clean (open_concat_open distinct before)
  obtain ⟨m, member, within⟩ := packed.carried_in_frame opened done
  rw [since_of_clean before fun b inside => (clean b inside).1] at within
  rw [decoded] at member
  exact within.length_le.trans (lengths m member)

end Cut

end Framing

end Lib
