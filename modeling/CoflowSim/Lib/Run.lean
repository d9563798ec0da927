import Mathlib.Data.List.Basic
import Mathlib.Data.List.Infix

namespace Lib

universe u v
variable {σ : Type u} {α : Type v}

/-- The finite runs of a labelled step relation, with the labels of their
steps in order. -/
inductive Run (step : σ → α → σ → Prop) (initial : σ) : List α → σ → Prop
  | start : Run step initial [] initial
  | next {acts s a t} : Run step initial acts s → step s a t → Run step initial (acts ++ [a]) t

/-- The steps of a relation that are taken from a state meeting a guard. -/
def Where (step : σ → α → σ → Prop) (guard : σ → α → Prop) (s : σ) (a : α) (t : σ) : Prop :=
  guard s a ∧ step s a t

/-- The steps of a relation that lead to a state with a property. -/
def Into (step : σ → α → σ → Prop) (P : σ → Prop) (s : σ) (a : α) (t : σ) : Prop := step s a t ∧ P t

/-- A step function that may refuse a label, seen as a step relation. -/
def Steps (f : σ → α → Option σ) (s : σ) (a : α) (t : σ) : Prop := f s a = some t

/-- A step function that also refuses the labels that break a guard. -/
def guarded (f : σ → α → Option σ) (guard : σ → α → Prop) [∀ s a, Decidable (guard s a)] (s : σ) (a : α) : Option σ :=
  if guard s a then f s a else none

/-- A condition on each element of a list and on those before it. -/
def Along (P : List α → α → Prop) (l : List α) : Prop := ∀ front a, front ++ [a] <+: l → P front a

theorem Along.of_prefix {P : List α → α → Prop} {front l : List α} (along : Along P l) (within : front <+: l) :
    Along P front :=
  fun earlier a before => along earlier a (before.trans within)

theorem along_nil (P : List α → α → Prop) : Along P [] :=
  fun front a within =>
    absurd (List.prefix_nil.mp within) (List.append_ne_nil_of_right_ne_nil front (List.cons_ne_nil a []))

theorem along_concat_iff {P : List α → α → Prop} {l : List α} {a : α} : Along P (l ++ [a]) ↔ Along P l ∧ P l a := by
  constructor
  · exact fun along => ⟨along.of_prefix (List.prefix_append _ _), along l a (List.prefix_refl _)⟩
  · rintro ⟨before, last⟩ front b within
    rcases List.prefix_concat_iff.mp within with whole | earlier
    · obtain ⟨rfl, same⟩ := List.append_inj' whole rfl
      rwa [List.singleton_inj.mp same]
    · exact before front b earlier

/-- Two conditions hold along the same lists when they agree as long as the
second has held. -/
theorem along_congr {P Q : List α → α → Prop} {l : List α}
    (agree : ∀ front a, front ++ [a] <+: l → Along Q front → (P front a ↔ Q front a)) : Along P l ↔ Along Q l := by
  induction l using List.reverseRecOn with
  | nil => exact iff_of_true (along_nil P) (along_nil Q)
  | append_singleton l a ih =>
    have earlier := ih fun front b within => agree front b (within.trans (List.prefix_append _ _))
    rw [along_concat_iff, along_concat_iff, earlier]
    exact and_congr_right fun held => agree l a (List.prefix_refl _) held

namespace Run

variable {step : σ → α → σ → Prop} {initial s t : σ} {acts more : List α}

/-- What holds at the start and survives every step holds along every run. -/
theorem invariant {I : σ → Prop} (run : Run step initial acts t) (base : I initial)
    (preserved : ∀ s a t, I s → step s a t → I t) : I t := by
  induction run with
  | start => exact base
  | next _ last ih => exact preserved _ _ _ ih last

theorem trans (first : Run step initial acts s) (rest : Run step s more t) :
    Run step initial (acts ++ more) t := by
  induction rest with
  | start => simpa using first
  | next _ last ih => rw [← List.append_assoc]; exact ih.next last

theorem single {a : α} (last : step s a t) : Run step s [a] t := Run.start.next last

theorem mono {step' : σ → α → σ → Prop} (run : Run step initial acts t)
    (weaker : ∀ s a t, step s a t → step' s a t) : Run step' initial acts t := by
  induction run with
  | start => exact .start
  | next _ last ih => exact ih.next (weaker _ _ _ last)

theorem unguarded {guard : σ → α → Prop} (run : Run (Where step guard) initial acts t) :
    Run step initial acts t :=
  run.mono fun _ _ _ last => last.2

/-- A run either meets the guard at every step, or has a first step that
breaks it. -/
theorem guarded_or_breaks (run : Run step initial acts t) (guard : σ → α → Prop) :
    Run (Where step guard) initial acts t ∨
      ∃ before a after s s', acts = before ++ a :: after ∧ Run (Where step guard) initial before s ∧
        ¬ guard s a ∧ step s a s' ∧ Run step s' after t := by
  induction run with
  | start => exact Or.inl .start
  | @next acts s a t _ last ih =>
    rcases ih with clean | ⟨before, b, after, u, u', split, clean, broken, bad, rest⟩
    · by_cases good : guard s a
      · exact Or.inl (clean.next ⟨good, last⟩)
      · exact Or.inr ⟨acts, a, [], s, t, rfl, clean, good, last, .start⟩
    · refine Or.inr ⟨before, b, after ++ [a], u, u', ?_, clean, broken, bad, rest.next last⟩
      rw [split, List.append_assoc, List.cons_append]

/-- A guard that says of each step whether a property survives it says of each
run whether the property holds in all its states. -/
theorem guarded_iff_into {guard : σ → α → Prop} {I P : σ → Prop} (base : I initial) (start : P initial)
    (preserved : ∀ s a t, I s → step s a t → I t)
    (decided : ∀ s a t, I s → P s → step s a t → (guard s a ↔ P t)) :
    Run (Where step guard) initial acts t ↔ Run (Into step P) initial acts t := by
  constructor
  · intro run
    have kept : Run (Into step P) initial acts t ∧ I t ∧ P t := by
      induction run with
      | start => exact ⟨.start, base, start⟩
      | @next acts s a t _ last ih =>
        obtain ⟨before, holds, safe⟩ := ih
        have next := (decided s a t holds safe last.2).mp last.1
        exact ⟨before.next ⟨last.2, next⟩, preserved s a t holds last.2, next⟩
    exact kept.1
  · intro run
    have kept : Run (Where step guard) initial acts t ∧ I t ∧ P t := by
      induction run with
      | start => exact ⟨.start, base, start⟩
      | @next acts s a t _ last ih =>
        obtain ⟨before, holds, safe⟩ := ih
        have meets := (decided s a t holds safe last.1).mpr last.2
        exact ⟨before.next ⟨meets, last.1⟩, preserved s a t holds last.1, last.2⟩
    exact kept.1

/-- A concrete schedule is a run once its step function accepts it. -/
theorem of_foldlM {f : σ → α → Option σ} (run : acts.foldlM f initial = some t) :
    Run (Steps f) initial acts t := by
  induction acts generalizing initial with
  | nil => cases run; exact .start
  | cons a rest ih =>
    rw [List.foldlM_cons] at run
    obtain ⟨middle, first, later⟩ := Option.bind_eq_some_iff.mp run
    have head : Run (Steps f) initial [a] middle := .single first
    exact head.trans (ih later)

theorem of_foldlM_any (f : σ → α → Option σ) (initial : σ) (acts : List α) {p : σ → Bool}
    (run : (acts.foldlM f initial).any p = true) : ∃ t, Run (Steps f) initial acts t ∧ p t = true := by
  cases last : acts.foldlM f initial with
  | none => simp [last] at run
  | some t => exact ⟨t, of_foldlM last, by simpa [last] using run⟩

theorem of_guarded {f : σ → α → Option σ} {guard : σ → α → Prop} [∀ s a, Decidable (guard s a)]
    (run : Run (Steps (guarded f guard)) initial acts t) : Run (Where (Steps f) guard) initial acts t :=
  run.mono fun _ _ _ last => Option.ite_none_right_eq_some.mp last

end Run

end Lib
