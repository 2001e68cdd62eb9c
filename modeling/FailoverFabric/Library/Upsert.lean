import Mathlib.Data.List.Dedup
import Mathlib.Data.List.Nodup
import Mathlib.Tactic.Common

/-! # Update in place or append

The loop `for (e : v) if (match(e)) { e = f(e); return; } v.push_back(x);` over a
vector whose records are meant to have distinct keys.
-/
namespace List
variable {α κ : Type}

/-- Replace the first element satisfying `p` by `f` of it, or append `x` when
there is none. -/
def upsert (p : α → Bool) (x : α) (f : α → α) : List α → List α
  | [] => [x]
  | y :: ys => if p y then f y :: ys else y :: upsert p x f ys

variable {p : α → Bool} {x : α} {f : α → α} {xs : List α}

theorem mem_upsert {y : α} (h : y ∈ upsert p x f xs) :
    y = x ∨ y ∈ xs ∨ ∃ z ∈ xs, p z = true ∧ y = f z := by
  induction xs with
  | nil => exact Or.inl (List.mem_singleton.mp h)
  | cons z zs ih =>
    unfold upsert at h
    split at h
    · rename_i hp
      rcases List.mem_cons.mp h with rfl | h
      · exact Or.inr (Or.inr ⟨z, List.mem_cons_self .., hp, rfl⟩)
      · exact Or.inr (Or.inl (List.mem_cons_of_mem _ h))
    · rcases List.mem_cons.mp h with rfl | h
      · exact Or.inr (Or.inl (List.mem_cons_self ..))
      · rcases ih h with h | h | ⟨w, hw, hp, he⟩
        · exact Or.inl h
        · exact Or.inr (Or.inl (List.mem_cons_of_mem _ h))
        · exact Or.inr (Or.inr ⟨w, List.mem_cons_of_mem _ hw, hp, he⟩)

/-- Without a match, `upsert` appends. -/
theorem upsert_of_forall (h : ∀ y ∈ xs, p y = false) : upsert p x f xs = xs ++ [x] := by
  induction xs with
  | nil => rfl
  | cons y ys ih =>
    rw [upsert, h y (List.mem_cons_self ..), ih fun z hz => h z (List.mem_cons_of_mem _ hz)]
    rfl

variable {key : α → κ}

/-- The keys after an update that keeps keys: the same, or one more at the end. -/
theorem upsert_keys [DecidableEq κ] (hp : ∀ y, p y = true ↔ key y = key x)
    (hf : ∀ y, p y = true → key (f y) = key y) :
    (upsert p x f xs).map key =
      if key x ∈ xs.map key then xs.map key else xs.map key ++ [key x] := by
  induction xs with
  | nil => simp [upsert]
  | cons y ys ih =>
    -- either the head is updated, and its key is `key x`, or the tail is
    by_cases hy : p y = true
    · rw [upsert, if_pos hy]
      simp [hf y hy, (hp y).mp hy]
    · have hne : key x ≠ key y := fun h => hy ((hp y).mpr h.symm)
      rw [upsert, if_neg hy, List.map_cons, ih]
      simp only [List.map_cons, List.mem_cons, hne, false_or]
      split <;> rfl

/-- **An update that keeps keys, inverted**: the key is there, or it is new. -/
theorem upsert_keys_cases [DecidableEq κ] (hp : ∀ y, p y = true ↔ key y = key x)
    (hf : ∀ y, p y = true → key (f y) = key y) :
    key x ∈ xs.map key ∧ (upsert p x f xs).map key = xs.map key ∨
      key x ∉ xs.map key ∧ (upsert p x f xs).map key = xs.map key ++ [key x] := by
  rw [upsert_keys hp hf]
  by_cases h : key x ∈ xs.map key
  · rw [if_pos h]
    exact Or.inl ⟨h, rfl⟩
  · rw [if_neg h]
    exact Or.inr ⟨h, rfl⟩

theorem upsert_keys_nodup [DecidableEq κ] (hp : ∀ y, p y = true ↔ key y = key x)
    (hf : ∀ y, p y = true → key (f y) = key y) (hn : (xs.map key).Nodup) :
    ((upsert p x f xs).map key).Nodup := by
  rcases upsert_keys_cases hp hf with ⟨-, hold⟩ | ⟨hfresh, hnew⟩
  · rw [hold]
    exact hn
  · rw [hnew, ← List.concat_eq_append]
    exact hn.concat hfresh

theorem length_upsert : (upsert p x f xs).length = xs.length + (!xs.any p).toNat := by
  induction xs with
  | nil => rfl
  | cons y ys ih =>
    rw [upsert, List.any_cons]
    split
    · rename_i hp
      rw [hp, Bool.true_or]
      rfl
    · rename_i hp
      rw [Bool.eq_false_iff.mpr hp, Bool.false_or, List.length_cons, List.length_cons, ih]
      omega

/-- Looking up what the update goes by finds the updated element, or the new one. -/
theorem find?_upsert (hx : p x = true) (hf : ∀ y, p y = true → p (f y) = true) :
    (upsert p x f xs).find? p = some (((xs.find? p).map f).getD x) := by
  induction xs with
  | nil => simp [upsert, hx]
  | cons y ys ih =>
    rw [upsert]
    split
    · rename_i hp
      rw [List.find?_cons_of_pos (hf y hp), List.find?_cons_of_pos hp]
      rfl
    · rename_i hp
      rw [List.find?_cons_of_neg hp, List.find?_cons_of_neg hp, ih]

theorem find?_upsert_of_ne {q : α → Bool} (hx : ¬ q x = true)
    (hq : ∀ y, p y = true → ¬ q y = true ∧ ¬ q (f y) = true) :
    (upsert p x f xs).find? q = xs.find? q := by
  induction xs with
  | nil => simpa [upsert] using hx
  | cons y ys ih =>
    rw [upsert]
    split
    · rename_i hp
      rw [List.find?_cons_of_neg (hq y hp).1, List.find?_cons_of_neg (hq y hp).2]
    · rw [List.find?_cons, List.find?_cons, ih]

/-! ## Records that are filed one after another -/

/-- **A loop that files records under their keys**, and ignores those without one, ends
with as many keys as there are different ones. -/
theorem length_keys_foldl {σ ξ : Type} [DecidableEq κ] (add : σ → ξ → σ) (I : σ → Prop)
    (keys : σ → List κ) (key : ξ → Option κ) (hI : ∀ s x, I s → I (add s x))
    (hadd : ∀ s x, I s →
      keys (add s x) = keys s ∧ (∀ k, key x = some k → k ∈ keys s) ∨
        ∃ k, key x = some k ∧ k ∉ keys s ∧ keys (add s x) = keys s ++ [k])
    {s : σ} (hs : I s) (hempty : keys s = []) (xs : List ξ) :
    (keys (xs.foldl add s)).length = (xs.filterMap key).dedup.length := by
  have hfold : ∀ s, I s → (keys s).Nodup → (keys (xs.foldl add s)).Nodup ∧
      ∀ k, k ∈ keys (xs.foldl add s) ↔ k ∈ keys s ∨ ∃ x ∈ xs, key x = some k := by
    induction xs with
    | nil => exact fun s _ hn => ⟨hn, fun k => by simp⟩
    | cons x xs ih =>
      intro s hs hn
      simp only [List.foldl_cons, List.exists_mem_cons_iff]
      rcases hadd s x hs with ⟨hsame, hold⟩ | ⟨k, hkey, hnew, happ⟩
      · obtain ⟨hnodup, hrest⟩ := ih (add s x) (hI s x hs) (hsame ▸ hn)
        refine ⟨hnodup, fun k => ?_⟩
        rw [hrest, hsame, ← or_assoc, or_iff_left_of_imp (hold k)]
      · have hn' : (keys (add s x)).Nodup := by
          rw [happ, ← List.concat_eq_append]
          exact hn.concat hnew
        obtain ⟨hnodup, hrest⟩ := ih (add s x) (hI s x hs) hn'
        refine ⟨hnodup, fun k' => ?_⟩
        rw [hrest, happ, List.mem_append, List.mem_singleton, or_assoc, hkey, Option.some_inj,
          eq_comm (a := k)]
  obtain ⟨hnodup, hmem⟩ := hfold s hs (hempty ▸ List.nodup_nil)
  refine ((List.perm_ext_iff_of_nodup hnodup (List.nodup_dedup _)).mpr fun k => ?_).length_eq
  rw [hmem, hempty, List.mem_dedup, List.mem_filterMap]
  exact or_iff_right List.not_mem_nil

/-! ## Update in place -/

/-- Replace the first element satisfying `p` by `f` of it. -/
def updateFirst (p : α → Bool) (f : α → α) : List α → List α
  | [] => []
  | y :: ys => if p y then f y :: ys else y :: updateFirst p f ys

theorem mem_updateFirst {y : α} (h : y ∈ updateFirst p f xs) :
    y ∈ xs ∨ ∃ z ∈ xs, p z = true ∧ y = f z := by
  induction xs with
  | nil => cases h
  | cons z zs ih =>
    unfold updateFirst at h
    split at h
    · rename_i hp
      rcases List.mem_cons.mp h with rfl | h
      · exact Or.inr ⟨z, List.mem_cons_self .., hp, rfl⟩
      · exact Or.inl (List.mem_cons_of_mem _ h)
    · rcases List.mem_cons.mp h with rfl | h
      · exact Or.inl (List.mem_cons_self ..)
      · rcases ih h with h | ⟨w, hw, hp, he⟩
        · exact Or.inl (List.mem_cons_of_mem _ h)
        · exact Or.inr ⟨w, List.mem_cons_of_mem _ hw, hp, he⟩

/-- A function that the update does not change has the same values. -/
theorem map_updateFirst {g : α → κ} (hf : ∀ y, p y = true → g (f y) = g y) :
    (updateFirst p f xs).map g = xs.map g := by
  induction xs with
  | nil => rfl
  | cons y ys ih =>
    rw [updateFirst]
    split
    · rename_i hp
      simp [hf y hp]
    · simp [ih]

theorem length_updateFirst : (updateFirst p f xs).length = xs.length := by
  induction xs with
  | nil => rfl
  | cons y ys ih =>
    rw [updateFirst]
    split
    · rfl
    · rw [List.length_cons, List.length_cons, ih]

/-- How many elements pass a test, before and after an update: the updated element
leaves the count and comes into it on its own. -/
theorem countP_updateFirst {q : α → Bool} {z : α} (h : xs.find? p = some z) :
    (updateFirst p f xs).countP q + (q z).toNat = xs.countP q + (q (f z)).toNat := by
  induction xs with
  | nil => cases h
  | cons y ys ih =>
    rw [updateFirst]
    split
    · rename_i hp
      rw [List.find?_cons_of_pos hp] at h
      obtain rfl : y = z := Option.some.inj h
      rw [List.countP_cons, List.countP_cons]
      cases q y <;> cases q (f y) <;> simp
    · rename_i hp
      rw [List.find?_cons_of_neg hp] at h
      have hrest := ih h
      rw [List.countP_cons, List.countP_cons]
      omega

/-- Looking up what the update goes by finds the updated element. -/
theorem find?_updateFirst (hf : ∀ y, p y = true → p (f y) = true) :
    (updateFirst p f xs).find? p = (xs.find? p).map f := by
  induction xs with
  | nil => rfl
  | cons y ys ih =>
    rw [updateFirst]
    split
    · rename_i hp
      rw [List.find?_cons_of_pos (hf y hp), List.find?_cons_of_pos hp]
      rfl
    · rename_i hp
      rw [List.find?_cons_of_neg hp, List.find?_cons_of_neg hp, ih]

/-- A lookup that the updated element does not answer, before or after, is not
affected. -/
theorem find?_updateFirst_of_ne {q : α → Bool}
    (hq : ∀ y, p y = true → ¬ q y = true ∧ ¬ q (f y) = true) :
    (updateFirst p f xs).find? q = xs.find? q := by
  induction xs with
  | nil => rfl
  | cons y ys ih =>
    rw [updateFirst]
    split
    · rename_i hp
      rw [List.find?_cons_of_neg (hq y hp).1, List.find?_cons_of_neg (hq y hp).2]
    · rw [List.find?_cons, List.find?_cons, ih]

/-- Where the keys are distinct, an element is found by its key. -/
theorem find?_key_of_mem [BEq κ] [LawfulBEq κ] (hn : (xs.map key).Nodup) (hx : x ∈ xs) :
    xs.find? (fun y => key y == key x) = some x := by
  cases hf : xs.find? fun y => key y == key x with
  | none =>
    have hnone := List.find?_eq_none.mp hf x hx
    simp at hnone
  | some y =>
    have hkey : key y = key x := by simpa using List.find?_some hf
    rw [List.inj_on_of_nodup_map hn (List.mem_of_find?_eq_some hf) hx hkey]

end List
