import Mathlib.Order.Lattice
import Mathlib.Data.List.Pairwise
import Mathlib.Order.RelClasses
import Mathlib.Tactic.Common

/-! # Maps in the order of their keys

The pattern `std::map<K, V>`: one value for each key, and an iteration that begins
at the least key.  The entries are a list in strictly increasing order; that they
are is part of the type.
-/

theorem OrderedMap.sorted_nil {K V : Type} [LinearOrder K] :
    ([] : List (K × V)).Pairwise fun a b => a.1 < b.1 := List.Pairwise.nil

/-- A map whose entries are in the order of their keys. -/
structure OrderedMap (K V : Type) [LinearOrder K] where
  entries : List (K × V) := []
  sorted : entries.Pairwise fun a b => a.1 < b.1 := by exact OrderedMap.sorted_nil

namespace OrderedMap
variable {K V : Type} [LinearOrder K]

/-- Insert into the entries, or replace the entry of the key. -/
def insertEntry (k : K) (v : V) : List (K × V) → List (K × V)
  | [] => [(k, v)]
  | e :: es =>
    if k < e.1 then (k, v) :: e :: es
    else if k = e.1 then (k, v) :: es
    else e :: insertEntry k v es

theorem mem_insertEntry {k : K} {v : V} {es : List (K × V)} {x : K × V}
    (h : x ∈ insertEntry k v es) : x = (k, v) ∨ x ∈ es := by
  induction es with
  | nil => exact Or.inl (List.mem_singleton.mp h)
  | cons e es ih =>
    unfold insertEntry at h
    split_ifs at h
    · exact List.mem_cons.mp h
    · exact (List.mem_cons.mp h).imp_right (List.mem_cons_of_mem _)
    · rcases List.mem_cons.mp h with rfl | h
      · exact Or.inr (List.mem_cons_self ..)
      · exact (ih h).imp_right (List.mem_cons_of_mem _)

theorem sorted_insertEntry (k : K) (v : V) {es : List (K × V)}
    (h : es.Pairwise fun a b => a.1 < b.1) : (insertEntry k v es).Pairwise fun a b => a.1 < b.1 := by
  induction es with
  | nil => simp [insertEntry]
  | cons e es ih =>
    rw [List.pairwise_cons] at h
    unfold insertEntry
    split_ifs with hlt heq
    · refine List.pairwise_cons.mpr ⟨fun x hx => ?_, List.pairwise_cons.mpr h⟩
      rcases List.mem_cons.mp hx with rfl | hx
      · exact hlt
      · exact lt_trans hlt (h.1 x hx)
    · exact List.pairwise_cons.mpr ⟨fun x hx => by rw [heq]; exact h.1 x hx, h.2⟩
    · refine List.pairwise_cons.mpr ⟨fun x hx => ?_, ih h.2⟩
      rcases mem_insertEntry hx with rfl | hx
      · exact lt_of_le_of_ne (not_lt.mp hlt) (Ne.symm heq)
      · exact h.1 x hx

/-- `m[k] = v`. -/
def insert (m : OrderedMap K V) (k : K) (v : V) : OrderedMap K V where
  entries := insertEntry k v m.entries
  sorted := sorted_insertEntry k v m.sorted

/-- `m.find(k)`. -/
def find (m : OrderedMap K V) (k : K) : Option V :=
  (m.entries.find? fun e => e.1 == k).map (·.2)

/-- `m.erase(k)`. -/
def erase (m : OrderedMap K V) (k : K) : OrderedMap K V where
  entries := m.entries.filter fun e => e.1 != k
  sorted := m.sorted.filter _

/-- `m.size()`. -/
def size (m : OrderedMap K V) : Nat := m.entries.length

/-- `*m.begin()`: the entry of the least key. -/
def first (m : OrderedMap K V) : Option (K × V) := m.entries.head?

@[simp] theorem find_empty (k : K) : ({} : OrderedMap K V).find k = none := rfl

theorem find?_insertEntry (k k' : K) (v : V) (es : List (K × V)) :
    ((insertEntry k v es).find? fun e => e.1 == k').map (·.2) =
      if k' = k then some v else (es.find? fun e => e.1 == k').map (·.2) := by
  induction es with
  | nil =>
    by_cases hk : k' = k
    · simp [insertEntry, hk]
    · simp [insertEntry, hk, Ne.symm hk]
  | cons e es ih =>
    unfold insertEntry
    by_cases hk : k' = k
    · subst hk
      rw [if_pos rfl] at ih ⊢
      split_ifs with hlt heq
      · simp
      · simp
      · rw [List.find?_cons_of_neg (by simpa using Ne.symm heq), ih]
    · rw [if_neg hk] at ih ⊢
      split_ifs with hlt heq
      · rw [List.find?_cons_of_neg (by simpa using Ne.symm hk)]
      · rw [List.find?_cons_of_neg (by simpa using Ne.symm hk),
          List.find?_cons_of_neg (by simpa [← heq] using Ne.symm hk)]
      · by_cases he : e.1 = k'
        · simp [he]
        · rw [List.find?_cons_of_neg (by simpa using he), ih,
            List.find?_cons_of_neg (by simpa using he)]

/-- **A lookup after an insertion.** -/
theorem find_insert (m : OrderedMap K V) (k k' : K) (v : V) :
    (m.insert k v).find k' = if k' = k then some v else m.find k' :=
  find?_insertEntry k k' v m.entries

/-- **A lookup after an erasure.** -/
theorem find_erase (m : OrderedMap K V) (k k' : K) :
    (m.erase k).find k' = if k' = k then none else m.find k' := by
  unfold find erase
  rw [List.find?_filter]
  by_cases hk : k' = k
  · subst hk
    rw [if_pos rfl, List.find?_eq_none.mpr (by simp)]
    rfl
  · have hsame : (fun e : K × V => decide ((e.1 != k) = true ∧ (e.1 == k') = true)) =
        fun e => e.1 == k' := by
      funext e
      by_cases he : e.1 = k'
      · simp [he, hk]
      · simp [he]
    rw [if_neg hk, hsame]

/-- A value that a lookup gives is in an entry. -/
theorem mem_of_find {m : OrderedMap K V} {k : K} {v : V} (h : m.find k = some v) :
    (k, v) ∈ m.entries := by
  obtain ⟨e, he, rfl⟩ := Option.map_eq_some_iff.mp h
  have hkey : e.1 = k := by simpa using List.find?_some he
  subst hkey
  exact List.mem_of_find?_eq_some he

/-- What comes first is in the map. -/
theorem find_first {m : OrderedMap K V} {k : K} {v : V} (h : m.first = some (k, v)) :
    m.find k = some v := by
  obtain ⟨es, he⟩ := List.head?_eq_some_iff.mp h
  simp [find, he]

end OrderedMap
