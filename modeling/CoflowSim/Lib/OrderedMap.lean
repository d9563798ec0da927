import Mathlib.Data.List.Basic
import Mathlib.Data.List.Sort
import Mathlib.Order.Lattice

namespace Lib

universe u v

/-- A `std::map`: its entries, in ascending order of their keys. -/
structure OrderedMap (κ : Type u) (β : Type v) [LinearOrder κ] where
  entries : List (κ × β)
  ordered : entries.Pairwise fun a b => a.1 < b.1
deriving DecidableEq

namespace OrderedMap

variable {κ : Type u} {β : Type v} [LinearOrder κ]

def empty : OrderedMap κ β := ⟨[], .nil⟩

def keys (m : OrderedMap κ β) : List κ := m.entries.map Prod.fst

def values (m : OrderedMap κ β) : List β := m.entries.map Prod.snd

def size (m : OrderedMap κ β) : Nat := m.entries.length

/-- The value that `find(k)` points to. -/
def find? (m : OrderedMap κ β) (k : κ) : Option β := (m.entries.find? (·.1 == k)).map Prod.snd

/-- `m[k] = v` on the entries: the one with this key is replaced, and a new one
goes to its place in the order. -/
def insertEntry (k : κ) (v : β) : List (κ × β) → List (κ × β)
  | [] => [(k, v)]
  | e :: rest =>
    if k < e.1 then (k, v) :: e :: rest
    else if k = e.1 then (k, v) :: rest
    else e :: insertEntry k v rest

theorem mem_insertEntry {k : κ} {v : β} {a : κ × β} {entries : List (κ × β)}
    (member : a ∈ insertEntry k v entries) : a = (k, v) ∨ a ∈ entries := by
  induction entries with
  | nil => simpa [insertEntry] using member
  | cons e rest ih =>
    unfold insertEntry at member
    split at member
    · simpa using member
    · split at member
      · rcases List.mem_cons.mp member with new | old
        · exact Or.inl new
        · exact Or.inr (List.mem_cons_of_mem _ old)
      · rcases List.mem_cons.mp member with first | later
        · exact Or.inr (by simp [first])
        · exact (ih later).imp_right (List.mem_cons_of_mem _)

theorem insertEntry_ordered (k : κ) (v : β) {entries : List (κ × β)}
    (ordered : entries.Pairwise fun a b => a.1 < b.1) :
    (insertEntry k v entries).Pairwise fun a b => a.1 < b.1 := by
  induction entries with
  | nil => simp [insertEntry]
  | cons e rest ih =>
    obtain ⟨first, later⟩ := List.pairwise_cons.mp ordered
    unfold insertEntry
    split
    · rename_i below
      refine List.pairwise_cons.mpr ⟨fun a member => ?_, ordered⟩
      rcases List.mem_cons.mp member with rfl | member
      · exact below
      · exact lt_trans below (first a member)
    · rename_i notBelow
      split
      · rename_i same
        exact List.pairwise_cons.mpr ⟨fun a member => by simpa only [same] using first a member, later⟩
      · rename_i other
        refine List.pairwise_cons.mpr ⟨fun a member => ?_, ih later⟩
        rcases mem_insertEntry member with rfl | member
        · exact lt_of_le_of_ne (not_lt.mp notBelow) (Ne.symm other)
        · exact first a member

def insert (m : OrderedMap κ β) (k : κ) (v : β) : OrderedMap κ β :=
  ⟨insertEntry k v m.entries, insertEntry_ordered k v m.ordered⟩

/-- A key behind all others goes to the end. -/
theorem insertEntry_last {k : κ} (v : β) {entries : List (κ × β)} (last : ∀ e ∈ entries, e.1 < k) :
    insertEntry k v entries = entries ++ [(k, v)] := by
  induction entries with
  | nil => rfl
  | cons e rest ih =>
    have first : e.1 < k := last e (by simp)
    rw [insertEntry, if_neg (lt_asymm first), if_neg (ne_of_gt first), ih fun a member => last a (by simp [member])]
    rfl

theorem find?_insert (m : OrderedMap κ β) (k : κ) (v : β) (k' : κ) :
    (m.insert k v).find? k' = if k' = k then some v else m.find? k' := by
  obtain ⟨entries, ordered⟩ := m
  have search (entries : List (κ × β)) (ordered : entries.Pairwise fun a b => a.1 < b.1) :
      ((insertEntry k v entries).find? (·.1 == k')).map Prod.snd =
        if k' = k then some v else (entries.find? (·.1 == k')).map Prod.snd := by
    induction entries with
    | nil =>
      by_cases here : k' = k
      · simp [insertEntry, here]
      · simp [insertEntry, here, Ne.symm here]
    | cons e rest ih =>
      obtain ⟨-, later⟩ := List.pairwise_cons.mp ordered
      unfold insertEntry
      split
      · by_cases here : k' = k
        · simp [here]
        · simp [List.find?_cons, here, Ne.symm here]
      · split
        · rename_i same
          by_cases here : k' = k
          · simp [here]
          · simp [← same, here, Ne.symm here]
        · rename_i other
          by_cases first : e.1 = k'
          · have apart : k' ≠ k := by
              rw [← first]
              exact Ne.symm other
            simp [first, apart]
          · rw [List.find?_cons_of_neg (by simpa using first), List.find?_cons_of_neg (by simpa using first)]
            exact ih later
  exact search entries ordered

/-- A change of the values that leaves every key where it is. -/
def mapEntries (m : OrderedMap κ β) (f : κ → β → β) : OrderedMap κ β :=
  ⟨m.entries.map fun e => (e.1, f e.1 e.2), by
    rw [List.pairwise_map]
    exact m.ordered⟩

/-- A change made through the pointer that `find(k)` returns. -/
def modify (m : OrderedMap κ β) (k : κ) (f : β → β) : OrderedMap κ β :=
  m.mapEntries fun key v => if key = k then f v else v

theorem keys_nodup (m : OrderedMap κ β) : m.keys.Nodup := by
  rw [keys, List.nodup_iff_pairwise_ne, List.pairwise_map]
  exact m.ordered.imp ne_of_lt

/-- An entry is found under its key. -/
theorem find?_of_mem {m : OrderedMap κ β} {k : κ} {v : β} (member : (k, v) ∈ m.entries) : m.find? k = some v := by
  obtain ⟨entries, ordered⟩ := m
  dsimp only at member
  induction entries with
  | nil => cases member
  | cons e rest ih =>
    obtain ⟨first, later⟩ := List.pairwise_cons.mp ordered
    rcases List.mem_cons.mp member with rfl | member
    · simp [find?]
    · have other : ¬ e.1 = k := ne_of_lt (first (k, v) member)
      rw [find?, List.find?_cons_of_neg (by simpa using other)]
      exact ih later member

theorem find?_isSome_iff {m : OrderedMap κ β} {k : κ} : (m.find? k).isSome = true ↔ k ∈ m.keys := by
  constructor
  · intro found
    rw [find?, Option.isSome_map, List.find?_isSome] at found
    obtain ⟨e, member, same⟩ := found
    exact List.mem_map.mpr ⟨e, member, by simpa using same⟩
  · intro member
    obtain ⟨e, inside, rfl⟩ := List.mem_map.mp member
    rw [find?_of_mem (show (e.1, e.2) ∈ m.entries from inside)]
    rfl

/-- The keys of a map are an ascending list once they are its elements. -/
theorem keys_eq {m : OrderedMap κ β} {l : List κ} (ascending : l.Pairwise (· < ·))
    (same : ∀ k, (m.find? k).isSome = true ↔ k ∈ l) : m.keys = l := by
  have ordered : m.keys.Pairwise (· < ·) := by
    rw [keys, List.pairwise_map]
    exact m.ordered
  exact ordered.eq_of_mem_iff ascending fun k => find?_isSome_iff.symm.trans (same k)

@[simp] theorem keys_length (m : OrderedMap κ β) : m.keys.length = m.size := by
  simp [keys, size]

@[simp] theorem keys_mapEntries (m : OrderedMap κ β) (f : κ → β → β) : (m.mapEntries f).keys = m.keys := by
  simp [keys, mapEntries]

@[simp] theorem keys_modify (m : OrderedMap κ β) (k : κ) (f : β → β) : (m.modify k f).keys = m.keys :=
  m.keys_mapEntries _

/-- Counting values by a property that their keys decide. -/
theorem countP_values (m : OrderedMap κ β) {p : β → Bool} {q : κ → Bool}
    (decided : ∀ e ∈ m.entries, p e.2 = true ↔ q e.1 = true) : m.values.countP p = m.keys.countP q := by
  rw [values, keys, List.countP_map, List.countP_map]
  exact List.countP_congr decided

end OrderedMap

end Lib
