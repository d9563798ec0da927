import CoflowSim.Lib.Run
import Mathlib.Data.List.DropRight

namespace Lib.Framing

universe u
variable {α : Type u} [DecidableEq α]

/-- What follows the last `x` of a text, or all of it when there is none. -/
def since (x : α) (text : List α) : List α := text.rtakeWhile (· ≠ x)

/-- An opening bracket stands after the last closing one. -/
def Open (op cl : α) (text : List α) : Prop := op ∈ since cl text

instance (op cl : α) (text : List α) : Decidable (Open op cl text) :=
  inferInstanceAs (Decidable (_ ∈ _))

/-- For each closing bracket of a text that comes after `before`, in order,
what lies between the last opening bracket and it. -/
def frames (op cl : α) (before : List α) : List α → List (List α)
  | [] => []
  | b :: rest =>
    if b = cl then since op before :: frames op cl (before ++ [b]) rest
    else frames op cl (before ++ [b]) rest

/-- Every closing bracket closes one opened after the previous closing one. -/
def Closes (op cl : α) (text : List α) : Prop :=
  ∀ before, before ++ [cl] <+: text → Open op cl before

/-- An opening bracket stands somewhere before every closing one. -/
def Begun (op cl : α) (text : List α) : Prop := ∀ before, before ++ [cl] <+: text → op ∈ before

/-- The first bracket of a text is an opening one. -/
def OpensFirst (op cl : α) (text : List α) : Prop :=
  ∃ run rest, text = run ++ op :: rest ∧ ∀ b ∈ run, b ≠ op ∧ b ≠ cl

/-- No opening bracket is followed by more than `limit` bytes before the next
bracket, or before the end of the text. -/
def Short (op cl : α) (limit : Nat) (text : List α) : Prop :=
  ∀ before run, before ++ op :: run <+: text → (∀ b ∈ run, b ≠ op ∧ b ≠ cl) → run.length ≤ limit

/-- Outside a frame nothing but an opening bracket stands, and inside a frame
none does. -/
def Packed (op cl : α) (text : List α) : Prop :=
  ∀ before b, before ++ [b] <+: text → (b = op ↔ ¬ Open op cl before)

/-- The unfinished frame at the end of a text, with its opening bracket. -/
def carry (op cl : α) (text : List α) : List α := if Open op cl text then op :: since op text else []

theorem since_concat (x b : α) (text : List α) :
    since x (text ++ [b]) = if b = x then [] else since x text ++ [b] := by
  simp only [since, List.rtakeWhile_concat, decide_not, Bool.not_eq_true', decide_eq_false_iff_not]
  split <;> simp_all

theorem not_mem_since (x : α) (text : List α) : x ∉ since x text := by
  intro member
  simpa using List.mem_rtakeWhile_imp member

theorem drop_since (x : α) (text : List α) {start : Nat}
    (width : start + (since x text).length = text.length) : text.drop start = since x text := by
  obtain ⟨front, split⟩ : since x text <:+ text := List.rtakeWhile_suffix _ _
  have length := congrArg List.length split
  rw [List.length_append] at length
  conv_lhs => rw [← split]
  exact List.drop_left' (by omega)

variable {op cl : α}

theorem open_concat_open (distinct : op ≠ cl) (text : List α) : Open op cl (text ++ [op]) := by
  simp [Open, since_concat, distinct]

theorem not_open_concat_close (text : List α) : ¬ Open op cl (text ++ [cl]) := by
  simp [Open, since_concat]

theorem open_concat_other {b : α} (text : List α) (notOp : b ≠ op) (notCl : b ≠ cl) :
    Open op cl (text ++ [b]) ↔ Open op cl text := by
  simp [Open, since_concat, notCl, notOp.symm]

theorem frames_append (before text more : List α) :
    frames op cl before (text ++ more) = frames op cl before text ++ frames op cl (before ++ text) more := by
  induction text generalizing before with
  | nil => simp [frames]
  | cons b rest ih =>
    simp only [List.cons_append, frames]
    split <;> simp [ih]

theorem frames_concat (before text : List α) (b : α) :
    frames op cl before (text ++ [b]) =
      frames op cl before text ++ if b = cl then [since op (before ++ text)] else [] := by
  rw [frames_append]
  simp only [frames]

theorem closes_of_no_close {text : List α} (noClose : ∀ b ∈ text, b ≠ cl) : Closes op cl text :=
  fun _ within => absurd rfl (noClose cl (within.mem (by simp)))

theorem closes_concat {text : List α} {b : α} (closes : Closes op cl text) (last : b = cl → Open op cl text) :
    Closes op cl (text ++ [b]) := by
  have along : Along (fun before c => c = cl → Open op cl before) (text ++ [b]) :=
    along_concat_iff.mpr ⟨fun before c within same => closes before (same ▸ within), last⟩
  exact fun before within => along before cl within rfl

theorem Closes.prefix {text more : List α} (closes : Closes op cl (text ++ more)) : Closes op cl text :=
  fun before within => closes before (within.trans (List.prefix_append _ _))

theorem Open.mem {text : List α} (opened : Open op cl text) : op ∈ text := (List.rtakeWhile_suffix _ _).mem opened

omit [DecidableEq α] in
theorem Begun.prefix {text more : List α} (begun : Begun op cl (text ++ more)) : Begun op cl text :=
  fun before within => begun before (within.trans (List.prefix_append _ _))

theorem Closes.begun {text : List α} (closes : Closes op cl text) : Begun op cl text :=
  fun before within => (closes before within).mem

omit [DecidableEq α] in
theorem OpensFirst.mem {text : List α} (opens : OpensFirst op cl text) : op ∈ text := by
  obtain ⟨run, rest, rfl, -⟩ := opens
  exact List.mem_append_right run List.mem_cons_self

omit [DecidableEq α] in
theorem OpensFirst.begun (distinct : op ≠ cl) {text : List α} (opens : OpensFirst op cl text) : Begun op cl text := by
  obtain ⟨run, rest, rfl, clean⟩ := opens
  intro before within
  have opening : run ++ [op] <+: run ++ op :: rest := ⟨rest, by rw [List.append_assoc, List.singleton_append]⟩
  rcases List.prefix_or_prefix_of_prefix within opening with early | late
  · have inside : cl ∈ run ++ [op] := early.mem (List.mem_append_right before (List.mem_singleton_self cl))
    rcases List.mem_append.mp inside with inRun | same
    · exact absurd rfl (clean cl inRun).2
    · exact absurd (List.mem_singleton.mp same).symm distinct
  · have inside : op ∈ before ++ [cl] := late.mem (List.mem_append_right run (List.mem_singleton_self op))
    exact (List.mem_append.mp inside).resolve_right fun same => distinct (List.mem_singleton.mp same)

/-- A text has no bracket, or one of the two comes first. -/
theorem first_bracket (op cl : α) (text : List α) :
    (∀ b ∈ text, b ≠ op ∧ b ≠ cl) ∨ OpensFirst op cl text ∨
      ∃ run rest, text = run ++ cl :: rest ∧ ∀ b ∈ run, b ≠ op ∧ b ≠ cl := by
  induction text with
  | nil => exact Or.inl fun b member => absurd member List.not_mem_nil
  | cons b text ih =>
    by_cases isOp : b = op
    · exact Or.inr (Or.inl ⟨[], text, by rw [isOp]; rfl, by simp⟩)
    by_cases isCl : b = cl
    · exact Or.inr (Or.inr ⟨[], text, by rw [isCl]; rfl, by simp⟩)
    have clean {run : List α} (rest : ∀ c ∈ run, c ≠ op ∧ c ≠ cl) : ∀ c ∈ b :: run, c ≠ op ∧ c ≠ cl :=
      List.forall_mem_cons.mpr ⟨⟨isOp, isCl⟩, rest⟩
    rcases ih with none | ⟨run, rest, rfl, before⟩ | ⟨run, rest, rfl, before⟩
    · exact Or.inl (clean none)
    · exact Or.inr (Or.inl ⟨b :: run, rest, rfl, clean before⟩)
    · exact Or.inr (Or.inr ⟨b :: run, rest, rfl, clean before⟩)

omit [DecidableEq α] in
theorem Short.prefix {limit : Nat} {text more : List α} (short : Short op cl limit (text ++ more)) :
    Short op cl limit text :=
  fun before run within => short before run (within.trans (List.prefix_append _ _))

/-- An open text ends with an opening bracket and a run without brackets. -/
theorem open_split {text : List α} (opened : Open op cl text) :
    ∃ before, text = before ++ op :: since op text ∧ ∀ b ∈ since op text, b ≠ op ∧ b ≠ cl := by
  induction text using List.reverseRecOn with
  | nil => simp [Open, since] at opened
  | append_singleton text b ih =>
    by_cases isCl : b = cl
    · subst isCl
      exact absurd opened (not_open_concat_close text)
    by_cases isOp : b = op
    · subst isOp
      exact ⟨text, by simp [since_concat], by simp [since_concat]⟩
    obtain ⟨before, split, clean⟩ := ih ((open_concat_other text isOp isCl).mp opened)
    refine ⟨before, ?_, ?_⟩
    · rw [since_concat, if_neg isOp]
      conv_lhs => rw [split]
      simp
    · intro c member
      rw [since_concat, if_neg isOp] at member
      rcases List.mem_append.mp member with old | new
      · exact clean c old
      · cases List.mem_singleton.mp new
        exact ⟨isOp, isCl⟩

/-- Two texts that no continuation can tell apart: they agree on the
unfinished frame at their end. -/
def Resumes (op cl : α) (text kept : List α) : Prop :=
  (Open op cl text ↔ Open op cl kept) ∧ (Open op cl text → since op text = since op kept)

theorem Resumes.concat (distinct : op ≠ cl) {text kept : List α} (same : Resumes op cl text kept) (b : α) :
    Resumes op cl (text ++ [b]) (kept ++ [b]) := by
  by_cases isCl : b = cl
  · subst isCl
    exact ⟨iff_of_false (not_open_concat_close _) (not_open_concat_close _),
      fun opened => absurd opened (not_open_concat_close _)⟩
  by_cases isOp : b = op
  · subst isOp
    exact ⟨iff_of_true (open_concat_open distinct _) (open_concat_open distinct _),
      fun _ => by simp [since_concat]⟩
  refine ⟨by simpa only [open_concat_other _ isOp isCl] using same.1, fun opened => ?_⟩
  have before := same.2 ((open_concat_other _ isOp isCl).mp opened)
  rw [since_concat, since_concat, if_neg isOp, if_neg isOp, before]

theorem Resumes.append (distinct : op ≠ cl) {text kept : List α} (same : Resumes op cl text kept)
    (more : List α) : Resumes op cl (text ++ more) (kept ++ more) := by
  induction more using List.reverseRecOn with
  | nil => simpa using same
  | append_singleton more b ih =>
    rw [← List.append_assoc, ← List.append_assoc]
    exact ih.concat distinct b

theorem open_cons (distinct : op ≠ cl) {run : List α} (clean : ∀ b ∈ run, b ≠ op ∧ b ≠ cl) :
    Open op cl (op :: run) ∧ since op (op :: run) = run := by
  induction run using List.reverseRecOn with
  | nil => exact ⟨open_concat_open distinct [], by simp [since]⟩
  | append_singleton run b ih =>
    obtain ⟨opened, same⟩ := ih fun c member => clean c (by simp [member])
    obtain ⟨notOp, notCl⟩ := clean b (by simp)
    rw [← List.cons_append]
    refine ⟨(open_concat_other _ notOp notCl).mpr opened, ?_⟩
    rw [since_concat, if_neg notOp, same]

/-- The carried text stands for everything consumed before it. -/
theorem carry_resumes (distinct : op ≠ cl) (text : List α) : Resumes op cl text (carry op cl text) := by
  unfold carry
  split
  · rename_i opened
    obtain ⟨_, _, clean⟩ := open_split opened
    obtain ⟨reopened, same⟩ := open_cons distinct clean
    exact ⟨iff_of_true opened reopened, fun _ => same.symm⟩
  · rename_i closed
    exact ⟨iff_of_false closed (by simp [Open, since]), fun opened => absurd opened closed⟩

theorem frames_of_no_close {run : List α} (before : List α) (noClose : ∀ b ∈ run, b ≠ cl) :
    frames op cl before run = [] := by
  induction run generalizing before with
  | nil => rfl
  | cons b rest ih =>
    rw [frames, if_neg (noClose b (by simp))]
    exact ih _ fun c member => noClose c (by simp [member])

theorem carry_no_close (distinct : op ≠ cl) (text : List α) : ∀ b ∈ carry op cl text, b ≠ cl := by
  intro b member
  unfold carry at member
  split at member
  · rename_i opened
    obtain ⟨_, _, clean⟩ := open_split opened
    rcases List.mem_cons.mp member with rfl | inside
    · exact distinct
    · exact (clean b inside).2
  · simp at member

/-- The carried text closes no frame of its own. -/
theorem frames_carry (distinct : op ≠ cl) (text chunk : List α) :
    frames op cl [] (carry op cl text ++ chunk) = frames op cl (carry op cl text) chunk := by
  rw [frames_append, frames_of_no_close [] (carry_no_close distinct text), List.nil_append, List.nil_append]

theorem Short.carry_length {limit : Nat} {text : List α} (short : Short op cl limit text) :
    (carry op cl text).length ≤ limit + 1 := by
  unfold carry
  split
  · rename_i opened
    obtain ⟨before, split, clean⟩ := open_split opened
    have bound := short before _ (by rw [← split]) clean
    simpa using bound
  · simp

/-- Behind the carried text a chunk is as well formed as in the whole stream. -/
theorem Closes.carry_append (distinct : op ≠ cl) {text chunk : List α}
    (closes : Closes op cl (text ++ chunk)) : Closes op cl (carry op cl text ++ chunk) := by
  induction chunk using List.reverseRecOn with
  | nil =>
    rw [List.append_nil]
    exact closes_of_no_close (carry_no_close distinct text)
  | append_singleton chunk b ih =>
    rw [← List.append_assoc] at closes ⊢
    refine closes_concat (ih closes.prefix) fun isCl => ?_
    subst isCl
    exact ((carry_resumes distinct text).append distinct chunk).1.mp (closes _ (List.prefix_refl _))

/-- Decoding a chunk behind the carried text gives the frames that the chunk
closes in the whole stream. -/
theorem frames_carry_append (distinct : op ≠ cl) {text chunk : List α}
    (closes : Closes op cl (text ++ chunk)) :
    frames op cl [] (carry op cl text ++ chunk) = frames op cl text chunk := by
  induction chunk using List.reverseRecOn with
  | nil =>
    rw [List.append_nil]
    exact frames_of_no_close [] (carry_no_close distinct text)
  | append_singleton chunk b ih =>
    rw [← List.append_assoc] at closes
    rw [← List.append_assoc, frames_concat, frames_concat, ih closes.prefix]
    congr 1
    split
    · rename_i isCl
      subst isCl
      have opened : Open op b (text ++ chunk) := closes _ (List.prefix_refl _)
      rw [List.nil_append, ((carry_resumes distinct text).append distinct chunk).2 opened]
    · rfl

theorem Resumes.carry_eq {text kept : List α} (same : Resumes op cl text kept) :
    carry op cl text = carry op cl kept := by
  by_cases opened : Open op cl text
  · rw [carry, if_pos opened, carry, if_pos (same.1.mp opened), same.2 opened]
  · rw [carry, if_neg opened, carry, if_neg fun other => opened (same.1.mpr other)]

theorem carry_carry (distinct : op ≠ cl) (text chunk : List α) :
    carry op cl (carry op cl text ++ chunk) = carry op cl (text ++ chunk) :=
  ((carry_resumes distinct text).append distinct chunk).carry_eq.symm

/-- What stands before an opening bracket does not matter behind it. -/
theorem carry_append_of_mem (distinct : op ≠ cl) (text : List α) {chunk : List α} (begins : op ∈ chunk) :
    carry op cl (text ++ chunk) = carry op cl chunk := by
  obtain ⟨front, back, rfl⟩ := List.append_of_mem begins
  have same : Resumes op cl (text ++ front ++ [op]) (front ++ [op]) :=
    ⟨iff_of_true (open_concat_open distinct _) (open_concat_open distinct _),
      fun _ => by rw [since_concat, since_concat, if_pos rfl, if_pos rfl]⟩
  have carried := (same.append distinct back).carry_eq
  simpa using carried

theorem open_of_no_close {text : List α} (begins : op ∈ text) (noClose : cl ∉ text) : Open op cl text := by
  have whole : since cl text = text :=
    List.rtakeWhile_eq_self_iff.mpr fun b member => decide_eq_true fun same => noClose (same ▸ member)
  rwa [Open, whole]

theorem since_lt_length {text : List α} (begins : op ∈ text) : (since op text).length < text.length := by
  refine Nat.lt_of_le_of_ne (List.rtakeWhile_suffix _ _).length_le fun same => ?_
  have whole : since op text = text := (List.rtakeWhile_suffix _ text).eq_of_length same
  have absent := not_mem_since op text
  rw [whole] at absent
  exact absent begins

theorem Packed.prefix {text more : List α} (packed : Packed op cl (text ++ more)) : Packed op cl text :=
  Along.of_prefix packed (List.prefix_append _ _)

theorem packed_concat {text : List α} {b : α} (packed : Packed op cl text) (next : b = op ↔ ¬ Open op cl text) :
    Packed op cl (text ++ [b]) :=
  along_concat_iff.mpr ⟨packed, next⟩

theorem Packed.closes (distinct : op ≠ cl) {text : List α} (packed : Packed op cl text) : Closes op cl text :=
  fun before within => by_contra fun closed => distinct ((packed before cl within).mpr closed).symm

/-- Before its first closing bracket a packed text is one open frame. -/
theorem Packed.single {text : List α} (packed : Packed op cl text) (nonempty : text ≠ []) (noClose : cl ∉ text) :
    Open op cl text ∧ text = op :: since op text := by
  have opens (part more : List α) (split : part ++ more = text) (some_bytes : part ≠ []) : Open op cl part := by
    obtain ⟨b, rest, rfl⟩ := List.exists_cons_of_ne_nil some_bytes
    have first : b = op := (packed [] b ⟨rest ++ more, by simpa using split⟩).mpr (by simp [Open, since])
    refine open_of_no_close (first ▸ List.mem_cons_self) fun member => noClose ?_
    exact split ▸ List.mem_append_left _ member
  have opened := opens text [] (by simp) nonempty
  obtain ⟨before, split, _⟩ := open_split opened
  refine ⟨opened, ?_⟩
  cases before with
  | nil => exact split
  | cons b rest =>
    have inner := opens (b :: rest) _ split.symm (by simp)
    have next := packed (b :: rest) op ⟨since op text, by rw [List.append_assoc]; exact split.symm⟩
    exact absurd inner (next.mp rfl)

/-- Inside a frame the text goes on without brackets to the closing one. -/
theorem Packed.open_closes {text rest : List α} (packed : Packed op cl (text ++ rest)) (opened : Open op cl text)
    (done : ¬ Open op cl (text ++ rest)) :
    ∃ run more, rest = run ++ cl :: more ∧ (∀ b ∈ run, b ≠ op ∧ b ≠ cl) ∧
      since op (text ++ run) = since op text ++ run := by
  induction rest generalizing text with
  | nil => exact absurd opened (by simpa using done)
  | cons b rest ih =>
    have notOp : b ≠ op := fun same =>
      (packed text b ⟨rest, by simp⟩).mp same opened
    by_cases isCl : b = cl
    · exact ⟨[], rest, by simp [isCl], by simp, by simp⟩
    rw [List.append_cons] at packed done
    obtain ⟨run, more, split, clean, grown⟩ := ih packed ((open_concat_other text notOp isCl).mpr opened) done
    refine ⟨b :: run, more, by simp [split], ?_, ?_⟩
    · intro c member
      rcases List.mem_cons.mp member with rfl | inside
      · exact ⟨notOp, isCl⟩
      · exact clean c inside
    · rw [List.append_cons, grown, since_concat, if_neg notOp]
      simp

theorem Packed.open_chunk {text chunk rest : List α} (packed : Packed op cl (text ++ (chunk ++ rest)))
    (opened : Open op cl text) (done : ¬ Open op cl (text ++ (chunk ++ rest))) :
    (∀ b ∈ chunk, b ≠ op ∧ b ≠ cl) ∨ ∃ run inside, chunk = run ++ cl :: inside ∧ ∀ b ∈ run, b ≠ op ∧ b ≠ cl := by
  obtain ⟨run, more, split, clean, -⟩ := packed.open_closes opened done
  rcases List.append_eq_append_iff.mp split with ⟨later, rfl, -⟩ | ⟨inside, rfl, rest_eq⟩
  · exact Or.inl fun b member => clean b (List.mem_append_left _ member)
  · cases inside with
    | nil => exact Or.inl (by simpa using clean)
    | cons b inside =>
      obtain ⟨rfl, -⟩ := List.cons.inj rest_eq
      exact Or.inr ⟨run, inside, rfl, clean⟩

/-- What is carried is the beginning of a frame of the whole stream. -/
theorem Packed.carried_in_frame {text rest : List α} (packed : Packed op cl (text ++ rest)) (opened : Open op cl text)
    (done : ¬ Open op cl (text ++ rest)) : ∃ w ∈ frames op cl [] (text ++ rest), since op text <+: w := by
  obtain ⟨run, more, split, _, grown⟩ := packed.open_closes opened done
  refine ⟨since op text ++ run, ?_, List.prefix_append _ _⟩
  rw [split, ← List.append_assoc, frames_append, frames, if_pos rfl, List.nil_append, grown]
  simp

/-- A frame with its brackets. -/
def wrap (op cl : α) (text : List α) : List α := op :: text ++ [cl]

/-- A frame begun after a closed text. -/
theorem packed_begun (distinct : op ≠ cl) {text run : List α} (packed : Packed op cl text) (closed : ¬ Open op cl text)
    (clean : ∀ b ∈ run, b ≠ op ∧ b ≠ cl) :
    Packed op cl (text ++ op :: run) ∧ Open op cl (text ++ op :: run) ∧ since op (text ++ op :: run) = run ∧
      frames op cl [] (text ++ op :: run) = frames op cl [] text := by
  induction run using List.reverseRecOn with
  | nil =>
    refine ⟨packed_concat packed (by simpa using closed), open_concat_open distinct _, by simp [since_concat], ?_⟩
    rw [frames_concat, if_neg distinct, List.append_nil]
  | append_singleton run b ih =>
    obtain ⟨notOp, notCl⟩ := clean b (by simp)
    obtain ⟨packedRun, opened, same, earlier⟩ := ih fun c member => clean c (by simp [member])
    rw [show text ++ op :: (run ++ [b]) = (text ++ op :: run) ++ [b] by simp]
    refine ⟨packed_concat packedRun (iff_of_false notOp (not_not.mpr opened)),
      (open_concat_other _ notOp notCl).mpr opened, ?_, ?_⟩
    · rw [since_concat, if_neg notOp, same]
    · rw [frames_concat, if_neg notCl, earlier, List.append_nil]

theorem packed_nil : Packed op cl [] := by
  intro before b within
  simp at within

theorem not_open_nil : ¬ Open op cl [] := by simp [Open, since]

theorem packed_wrap (distinct : op ≠ cl) {text run : List α} (packed : Packed op cl text) (closed : ¬ Open op cl text)
    (clean : ∀ b ∈ run, b ≠ op ∧ b ≠ cl) :
    Packed op cl (text ++ wrap op cl run) ∧ ¬ Open op cl (text ++ wrap op cl run) ∧
      frames op cl [] (text ++ wrap op cl run) = frames op cl [] text ++ [run] := by
  obtain ⟨packedRun, opened, same, earlier⟩ := packed_begun distinct packed closed clean
  rw [show text ++ wrap op cl run = (text ++ op :: run) ++ [cl] by simp [wrap]]
  refine ⟨packed_concat packedRun (iff_of_false distinct.symm (not_not.mpr opened)), not_open_concat_close _, ?_⟩
  rw [frames_concat, if_pos rfl, List.nil_append, earlier, same]

theorem Packed.carry_append (distinct : op ≠ cl) {text chunk : List α} (packed : Packed op cl (text ++ chunk)) :
    Packed op cl (carry op cl text ++ chunk) := by
  induction chunk using List.reverseRecOn with
  | nil =>
    rw [List.append_nil, carry]
    split
    · rename_i opened
      obtain ⟨_, _, clean⟩ := open_split opened
      exact (packed_begun distinct packed_nil not_open_nil clean).1
    · exact packed_nil
  | append_singleton chunk b ih =>
    rw [← List.append_assoc] at packed ⊢
    refine packed_concat (ih packed.prefix) ?_
    rw [packed _ b (List.prefix_refl _), ((carry_resumes distinct text).append distinct chunk).1]

theorem open_append_clean {text run : List α} (clean : ∀ b ∈ run, b ≠ op ∧ b ≠ cl) (opened : Open op cl text) :
    Open op cl (text ++ run) := by
  induction run using List.reverseRecOn with
  | nil => simpa using opened
  | append_singleton run b ih =>
    obtain ⟨notOp, notCl⟩ := clean b (by simp)
    rw [← List.append_assoc]
    exact (open_concat_other _ notOp notCl).mpr (ih fun c member => clean c (by simp [member]))

/-- A list of frames back to back is packed, and decodes to that list. -/
theorem packed_flatMap (distinct : op ≠ cl) {runs : List (List α)}
    (clean : ∀ run ∈ runs, ∀ b ∈ run, b ≠ op ∧ b ≠ cl) :
    Packed op cl (runs.flatMap (wrap op cl)) ∧ ¬ Open op cl (runs.flatMap (wrap op cl)) ∧
      frames op cl [] (runs.flatMap (wrap op cl)) = runs := by
  induction runs using List.reverseRecOn with
  | nil => exact ⟨packed_nil, not_open_nil, rfl⟩
  | append_singleton runs run ih =>
    obtain ⟨packed, closed, decoded⟩ := ih fun other member => clean other (by simp [member])
    obtain ⟨packed', closed', decoded'⟩ := packed_wrap distinct packed closed (clean run (by simp))
    rw [List.flatMap_append, List.flatMap_singleton]
    exact ⟨packed', closed', by rw [decoded', decoded]⟩

end Lib.Framing
