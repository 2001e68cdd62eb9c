import Mathlib.Algebra.Ring.Nat
import Mathlib.Logic.Function.Basic
import Mathlib.Data.List.Nodup
import Mathlib.Tactic.Common

/-! # A vector of records with a key index

The pattern `std::vector<V> items; std::unordered_map<K, std::size_t> index;`:
records are appended to the vector, and the index maps a record's key to its
position.  Lookups go through the index only, so a record that was appended
without being indexed is stored but never found again.

`Sound key t` says the index only points at records with the key asked for;
`Indexed key t` says in addition that every record is indexed, which makes keys
unique and turns `find` into membership (`find_eq_some_iff`).
-/

/-- A vector of records and an index from keys to positions. -/
structure IndexedVec (K V : Type) where
  items : List V := []
  index : K → Option Nat := fun _ => none

namespace IndexedVec
variable {K V : Type} [DecidableEq K] (key : V → K)

/-- Lookup through the index. -/
def find (t : IndexedVec K V) (k : K) : Option V := (t.index k).bind fun i => t.items[i]?

/-- Append a record and index it under `k`. -/
def push (t : IndexedVec K V) (k : K) (v : V) : IndexedVec K V where
  items := t.items ++ [v]
  index := Function.update t.index k (some t.items.length)

/-- Append a record without indexing it. -/
def pushUnindexed (t : IndexedVec K V) (v : V) : IndexedVec K V :=
  { t with items := t.items ++ [v] }

/-- Update the record found under `k`, if any, in place. -/
def modify (t : IndexedVec K V) (k : K) (f : V → V) : IndexedVec K V :=
  match t.index k with
  | some i => { t with items := t.items.modify i f }
  | none => t

/-- Rebuild the index over a given vector. -/
def ofItems (items : List V) : IndexedVec K V :=
  items.foldl (fun t v => t.push (key v) v) {}

/-- The index points at records with the key asked for. -/
def Sound (t : IndexedVec K V) : Prop :=
  ∀ k i, t.index k = some i → ∃ v, t.items[i]? = some v ∧ key v = k

/-- The index is exact: position `i` is indexed under `k` iff its record has
key `k`. -/
def Indexed (t : IndexedVec K V) : Prop :=
  ∀ k i, t.index k = some i ↔ ∃ v, t.items[i]? = some v ∧ key v = k

variable {key} {t : IndexedVec K V}

omit [DecidableEq K] in
theorem Indexed.sound (h : Indexed key t) : Sound key t := fun k i hi => (h k i).mp hi

omit [DecidableEq K] in
theorem indexed_empty : Indexed key ({} : IndexedVec K V) := by
  intro k i
  simp

omit [DecidableEq K] in
theorem find_of_index {k : K} {i : Nat} (h : t.index k = some i) : t.find k = t.items[i]? := by
  simp [find, h]

omit [DecidableEq K] in
theorem mem_of_find {k : K} {v : V} (h : t.find k = some v) : v ∈ t.items := by
  obtain ⟨i, _, hi⟩ := Option.bind_eq_some_iff.mp h
  exact List.mem_of_getElem? hi

omit [DecidableEq K] in
theorem Sound.key_of_find (hs : Sound key t) {k : K} {v : V} (h : t.find k = some v) :
    key v = k := by
  obtain ⟨i, hi, hv⟩ := Option.bind_eq_some_iff.mp h
  obtain ⟨w, hw, hk⟩ := hs k i hi
  rw [hv] at hw
  exact Option.some.inj hw ▸ hk

omit [DecidableEq K] in
/-- In an exactly indexed vector, lookup is membership by key. -/
theorem Indexed.find_eq_some_iff (h : Indexed key t) {k : K} {v : V} :
    t.find k = some v ↔ v ∈ t.items ∧ key v = k := by
  constructor
  · intro hf
    exact ⟨mem_of_find hf, h.sound.key_of_find hf⟩
  · rintro ⟨hm, hk⟩
    obtain ⟨i, hi⟩ := List.mem_iff_getElem?.mp hm
    rw [find_of_index ((h k i).mpr ⟨v, hi, hk⟩), hi]

omit [DecidableEq K] in
theorem Indexed.find_eq_none_iff (h : Indexed key t) {k : K} :
    t.find k = none ↔ ∀ v ∈ t.items, key v ≠ k := by
  constructor
  · intro hf v hv hk
    rw [h.find_eq_some_iff.mpr ⟨hv, hk⟩] at hf
    cases hf
  · intro hall
    cases hf : t.find k with
    | none => rfl
    | some v => exact absurd (h.sound.key_of_find hf) (hall v (mem_of_find hf))

omit [DecidableEq K] in
/-- Distinct positions of an exactly indexed vector hold distinct keys. -/
theorem Indexed.nodup (h : Indexed key t) : (t.items.map key).Nodup := by
  refine List.pairwise_map.mpr (List.pairwise_iff_getElem.mpr ?_)
  intro i j hi hj hlt hk
  have ei := (h _ i).mpr ⟨_, List.getElem?_eq_getElem hi, rfl⟩
  have ej := (h _ j).mpr ⟨_, List.getElem?_eq_getElem hj, rfl⟩
  rw [hk, ej] at ei
  have := Option.some.inj ei
  omega

/-! ## Appending -/

@[simp] theorem push_items (k : K) (v : V) : (t.push k v).items = t.items ++ [v] := rfl

/-- Appending a record with a new key under that key keeps the index exact. -/
theorem Indexed.push (h : Indexed key t) {k : K} {v : V} (hf : t.find k = none)
    (hk : key v = k) : Indexed key (t.push k v) := by
  intro k' i
  have hfresh := h.find_eq_none_iff.mp hf
  simp only [IndexedVec.push, Function.update_apply]
  -- the new key is indexed at the new position only; the other keys as before
  by_cases hkk : k' = k
  · subst hkk
    simp only [ite_true, Option.some.injEq]
    constructor
    · rintro rfl
      exact ⟨v, by simp, hk⟩
    · rintro ⟨w, hw, hwk⟩
      rcases Nat.lt_trichotomy i t.items.length with hlt | heq | hgt
      · rw [List.getElem?_append_left hlt] at hw
        exact absurd hwk (hfresh w (List.mem_of_getElem? hw))
      · exact heq.symm
      · rw [List.getElem?_eq_none (by simp; omega)] at hw
        cases hw
  · simp only [hkk, ite_false]
    rw [h k' i]
    constructor
    · rintro ⟨w, hw, hwk⟩
      have hlt : i < t.items.length := (List.getElem?_eq_some_iff.mp hw).1
      exact ⟨w, by rw [List.getElem?_append_left hlt]; exact hw, hwk⟩
    · rintro ⟨w, hw, hwk⟩
      rcases Nat.lt_or_ge i t.items.length with hlt | hge
      · rw [List.getElem?_append_left hlt] at hw
        exact ⟨w, hw, hwk⟩
      · rw [List.getElem?_append_right hge] at hw
        have hv : w ∈ [v] := List.mem_of_getElem? hw
        rw [List.mem_singleton] at hv
        subst hv
        exact absurd (hwk.symm.trans hk) hkk

/-- Appending and indexing keeps the index sound, also for a key that is taken. -/
theorem Sound.push (hs : Sound key t) {k : K} {v : V} (hk : key v = k) :
    Sound key (t.push k v) := by
  intro k' i hi
  simp only [IndexedVec.push, Function.update_apply] at hi ⊢
  split at hi
  · rename_i hkk
    cases hi
    exact ⟨v, by simp, hk.trans hkk.symm⟩
  · obtain ⟨w, hw, hwk⟩ := hs k' i hi
    exact ⟨w, by rw [List.getElem?_append_left (List.getElem?_eq_some_iff.mp hw).1]; exact hw, hwk⟩

/-- What is appended is found. -/
theorem find_push_self (k : K) (v : V) : (t.push k v).find k = some v := by
  simp only [find, push, Function.update_self, Option.bind_some, List.getElem?_concat_length]

theorem find_push (k k' : K) (v : V) (hs : Sound key t) :
    (t.push k v).find k' = if k' = k then some v else t.find k' := by
  simp only [find, push, Function.update_apply]
  by_cases hkk : k' = k
  · simp [hkk]
  · simp only [hkk, ite_false]
    cases hi : t.index k' with
    | none => rfl
    | some i =>
      obtain ⟨w, hw, _⟩ := hs k' i hi
      simp only [Option.bind_some]
      rw [List.getElem?_append_left (List.getElem?_eq_some_iff.mp hw).1]

/-! ## Updating in place -/

omit [DecidableEq K] in
/-- A record that is not indexed is not found. -/
theorem find_pushUnindexed (hs : Sound key t) (k : K) (v : V) :
    (t.pushUnindexed v).find k = t.find k := by
  unfold find pushUnindexed
  cases hi : t.index k with
  | none => rfl
  | some i =>
    obtain ⟨w, hw, -⟩ := hs k i hi
    have hlt : i < t.items.length := (List.getElem?_eq_some_iff.mp hw).1
    simp only [Option.bind_some]
    rw [List.getElem?_append_left hlt]

omit [DecidableEq K] in
theorem Sound.pushUnindexed (hs : Sound key t) (v : V) : Sound key (t.pushUnindexed v) := by
  intro k i hi
  obtain ⟨w, hw, hk⟩ := hs k i hi
  exact ⟨w, by rw [IndexedVec.pushUnindexed, List.getElem?_append_left
    (List.getElem?_eq_some_iff.mp hw).1, hw], hk⟩

omit [DecidableEq K] in
@[simp] theorem modify_index (k : K) (f : V → V) : (t.modify k f).index = t.index := by
  unfold modify
  split <;> rfl

omit [DecidableEq K] in
/-- What in-place update stores: position `i` of the updated vector. -/
theorem modify_getElem? (k : K) (f : V → V) (i : Nat) :
    (t.modify k f).items[i]? = t.items[i]?.map fun v => if t.index k = some i then f v else v := by
  unfold modify
  split
  · rename_i j hj
    rw [List.getElem?_modify]
    cases t.items[i]? with
    | none => rfl
    | some v => simp [hj]
  · rename_i hj
    simp [hj]

theorem find_modify (hs : Sound key t) (k k' : K) (f : V → V) :
    (t.modify k f).find k' = if k' = k then (t.find k).map f else t.find k' := by
  simp only [find, modify_index]
  cases hi : t.index k' with
  | none =>
    by_cases hkk : k' = k
    · subst hkk; simp [hi]
    · simp [hkk]
  | some i =>
    simp only [Option.bind_some]
    rw [modify_getElem?]
    by_cases hkk : k' = k
    · subst hkk
      simp [hi]
    -- a sound index never maps two keys to one position
    · obtain ⟨v, hv, hvk⟩ := hs k' i hi
      have hne : t.index k ≠ some i := by
        intro hk
        obtain ⟨w, hw, hwk⟩ := hs k i hk
        rw [hv] at hw
        exact hkk (hvk.symm.trans (Option.some.inj hw ▸ hwk))
      simp [hkk, hne]

omit [DecidableEq K] in
theorem Sound.modify (hs : Sound key t) (k : K) {f : V → V} (hf : ∀ v, key (f v) = key v) :
    Sound key (t.modify k f) := by
  intro k' i hi
  rw [modify_index] at hi
  obtain ⟨v, hv, hvk⟩ := hs k' i hi
  refine ⟨_, by rw [modify_getElem?, hv]; rfl, ?_⟩
  split
  · rw [hf, hvk]
  · exact hvk

omit [DecidableEq K] in
/-- In-place update by a key-preserving function keeps the index exact. -/
theorem Indexed.modify (h : Indexed key t) (k : K) {f : V → V} (hf : ∀ v, key (f v) = key v) :
    Indexed key (t.modify k f) := by
  intro k' i
  constructor
  · exact h.sound.modify k hf k' i
  · rintro ⟨w, hw, hwk⟩
    rw [modify_index, h k' i]
    rw [modify_getElem?] at hw
    obtain ⟨v, hv, rfl⟩ := Option.map_eq_some_iff.mp hw
    refine ⟨v, hv, ?_⟩
    split at hwk
    · rw [← hf, hwk]
    · exact hwk

omit [DecidableEq K] in
/-- The records of an updated vector: the untouched ones, and the updated one. -/
theorem mem_modify {k : K} {f : V → V} {w : V} (h : w ∈ (t.modify k f).items) :
    (w ∈ t.items) ∨ ∃ v, t.find k = some v ∧ w = f v := by
  obtain ⟨i, hi⟩ := List.mem_iff_getElem?.mp h
  rw [modify_getElem?] at hi
  obtain ⟨v, hv, rfl⟩ := Option.map_eq_some_iff.mp hi
  split
  · rename_i hk
    exact Or.inr ⟨v, by rw [find_of_index hk, hv], rfl⟩
  · exact Or.inl (List.mem_of_getElem? hv)

omit [DecidableEq K] in
/-- A function that an update of the found record does not change has the same
values. -/
theorem map_modify {β : Type} {g : V → β} {k : K} {f : V → V}
    (h : ∀ v, t.find k = some v → g (f v) = g v) : (t.modify k f).items.map g = t.items.map g := by
  refine List.ext_getElem? fun i => ?_
  rw [List.getElem?_map, List.getElem?_map, modify_getElem?]
  cases hi : t.items[i]? with
  | none => rfl
  | some v =>
    simp only [Option.map_some, Option.some.injEq]
    split
    · rename_i hk
      exact h v (by rw [find_of_index hk, hi])
    · rfl

omit [DecidableEq K] in
theorem length_modify (t : IndexedVec K V) (k : K) (f : V → V) :
    (t.modify k f).items.length = t.items.length := by
  unfold modify
  split
  · exact List.length_modify ..
  · rfl

/-! ## Updating every record -/

omit [DecidableEq K] in
/-- A key-preserving update of every record keeps the index exact. -/
theorem Indexed.map (h : Indexed key t) {f : V → V} (hf : ∀ v, key (f v) = key v) :
    Indexed key { t with items := t.items.map f } := by
  intro k i
  simp only [List.getElem?_map]
  rw [h k i]
  constructor
  · rintro ⟨v, hv, hk⟩
    exact ⟨f v, by rw [hv]; rfl, (hf v).trans hk⟩
  · rintro ⟨w, hw, hk⟩
    obtain ⟨v, hv, rfl⟩ := Option.map_eq_some_iff.mp hw
    exact ⟨v, hv, (hf v).symm.trans hk⟩

omit [DecidableEq K] in
theorem find_map (f : V → V) (k : K) :
    find { t with items := t.items.map f } k = (t.find k).map f := by
  simp only [find, List.getElem?_map]
  cases t.index k <;> rfl

/-- At most one record has a given key. -/
theorem Indexed.filter_length (h : Indexed key t) (k : K) :
    (t.items.filter fun v => key v == k).length ≤ 1 := by
  have hsub : ((t.items.filter fun v => key v == k).map key).Sublist (t.items.map key) :=
    List.filter_sublist.map key
  have hrep : (t.items.filter fun v => key v == k).map key =
      List.replicate (t.items.filter fun v => key v == k).length k := by
    refine List.eq_replicate_iff.mpr ⟨by simp, fun b hb => ?_⟩
    obtain ⟨v, hv, rfl⟩ := List.mem_map.mp hb
    exact eq_of_beq (List.mem_filter.mp hv).2
  -- the filtered keys are copies of one key, and keys are distinct
  have hnd := hsub.nodup h.nodup
  rw [hrep] at hnd
  exact List.nodup_replicate.mp hnd

/-- The records with a given key are the one that lookups find. -/
theorem Indexed.filter_key (h : Indexed key t) (k : K) :
    (t.items.filter fun v => key v == k) = (t.find k).toList := by
  cases hf : t.find k with
  | none =>
    refine List.filter_eq_nil_iff.mpr fun v hv => ?_
    simpa using h.find_eq_none_iff.mp hf v hv
  | some v =>
    obtain ⟨hv, hk⟩ := h.find_eq_some_iff.mp hf
    have hmem : v ∈ t.items.filter fun v => key v == k := List.mem_filter.mpr ⟨hv, by simpa using hk⟩
    have hlen := h.filter_length k
    match hl : t.items.filter fun v => key v == k with
    | [] =>
      rw [hl] at hmem
      cases hmem
    | [w] =>
      rw [hl, List.mem_singleton] at hmem
      rw [hmem]
      rfl
    | _ :: _ :: _ =>
      rw [hl] at hlen
      simp at hlen

/-! ## Sums over the records -/

/-- An update that adds at most `c` to a record adds at most `c` to the whole. -/
theorem sum_listModify_le (g : V → Nat) {f : V → V} {c : Nat} (hf : ∀ v, g (f v) ≤ g v + c)
    (items : List V) (i : Nat) : ((items.modify i f).map g).sum ≤ (items.map g).sum + c := by
  induction items generalizing i with
  | nil => simp
  | cons v items ih =>
    cases i with
    | zero =>
      have := hf v
      simp only [List.modify_zero_cons, List.map_cons, List.sum_cons]
      omega
    | succ i =>
      have := ih i
      simp only [List.modify_succ_cons, List.map_cons, List.sum_cons]
      omega

omit [DecidableEq K] in
theorem sum_modify_le (g : V → Nat) (k : K) {f : V → V} {c : Nat} (hf : ∀ v, g (f v) ≤ g v + c) :
    ((t.modify k f).items.map g).sum ≤ (t.items.map g).sum + c := by
  unfold modify
  split
  · exact sum_listModify_le g hf t.items _
  · exact Nat.le_add_right _ _

/-! ## Lists of positions

A second index, from a property of the records to the positions that have it. -/

theorem range_filterMap_getElem? {β : Type} (items : List V) (g : V → Option β) :
    ((List.range items.length).filterMap fun i => items[i]?.bind g) = items.filterMap g := by
  have hall : (List.range items.length).map (fun i => items[i]?) = items.map some := by
    refine List.ext_getElem? fun i => ?_
    rw [List.getElem?_map, List.getElem?_map]
    rcases Nat.lt_or_ge i items.length with hlt | hge
    · rw [List.getElem?_range hlt, List.getElem?_eq_getElem hlt]
      simp
    · rw [List.getElem?_eq_none (by simpa using hge), List.getElem?_eq_none hge]
      rfl
  calc ((List.range items.length).filterMap fun i => items[i]?.bind g)
    _ = ((List.range items.length).map fun i => items[i]?).filterMap fun o => o.bind g := by
      rw [List.filterMap_map]
      rfl
    _ = (items.map some).filterMap fun o => o.bind g := by rw [hall]
    _ = items.filterMap g := by
      rw [List.filterMap_map]
      rfl

/-- **Reading through a list of positions is a scan.**  A list that has the
positions of the records with a property, each once, reads off what a scan for the
property would. -/
theorem filterMap_positions_perm {β : Type} {items : List V} {positions : List Nat} {q : V → Bool}
    (hnodup : positions.Nodup)
    (hmem : ∀ i, i ∈ positions ↔ ∃ v, items[i]? = some v ∧ q v = true) (g : V → Option β) :
    (positions.filterMap fun i => items[i]?.bind g).Perm ((items.filter q).filterMap g) := by
  let scanned := (List.range items.length).filter fun i => items[i]?.any q
  have hscanned : positions.Perm scanned := by
    refine (List.perm_ext_iff_of_nodup hnodup (List.nodup_range.filter _)).mpr fun i => ?_
    rw [hmem, List.mem_filter, List.mem_range, Option.any_eq_true]
    constructor
    · rintro ⟨v, hv, hq⟩
      exact ⟨(List.getElem?_eq_some_iff.mp hv).1, v, hv, hq⟩
    · rintro ⟨-, v, hv, hq⟩
      exact ⟨v, hv, hq⟩
  have hread : (scanned.filterMap fun i => items[i]?.bind g) = (items.filter q).filterMap g := by
    rw [List.filterMap_filter, List.filterMap_filter,
      ← range_filterMap_getElem? items fun v => if q v = true then g v else none]
    refine List.filterMap_congr fun i _ => ?_
    cases items[i]? <;> rfl
  rw [← hread]
  exact hscanned.filterMap _

/-! ## Rebuilding -/

theorem ofItems_items (items : List V) : (ofItems key items).items = items := by
  have hfold : ∀ (xs : List V) (t : IndexedVec K V),
      (xs.foldl (fun t v => t.push (key v) v) t).items = t.items ++ xs := by
    intro xs
    induction xs with
    | nil => simp
    | cons v xs ih =>
      intro t
      rw [List.foldl_cons, ih, push_items, List.append_assoc]
      rfl
  rw [ofItems, hfold]
  rfl

/-- Rebuilding goes record by record. -/
theorem ofItems_append (items : List V) (v : V) :
    ofItems key (items ++ [v]) = (ofItems key items).push (key v) v := by
  rw [ofItems, List.foldl_append]
  rfl

theorem sound_ofItems (items : List V) : Sound key (ofItems key items) := by
  have hfold : ∀ (xs : List V) (t : IndexedVec K V), Sound key t →
      Sound key (xs.foldl (fun t v => t.push (key v) v) t) := by
    intro xs
    induction xs with
    | nil => exact fun t h => h
    | cons v xs ih => exact fun t h => ih _ (h.push rfl)
  exact hfold items {} indexed_empty.sound

omit [DecidableEq K] in
/-- The record that the index points at, between the others. -/
theorem Sound.split (hs : Sound key t) {k : K} {i : Nat} (hi : t.index k = some i) :
    ∃ v, t.find k = some v ∧ key v = k ∧
      t.items = t.items.take i ++ v :: t.items.drop (i + 1) := by
  obtain ⟨v, hv, hk⟩ := hs k i hi
  obtain ⟨hlt, rfl⟩ := List.getElem?_eq_some_iff.mp hv
  refine ⟨_, by rw [find_of_index hi, hv], hk, ?_⟩
  rw [List.getElem_cons_drop, List.take_append_drop]

end IndexedVec
