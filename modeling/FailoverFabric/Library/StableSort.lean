import Mathlib.Data.List.Sort

/-! # Stable sorts

A stable sort by a strict weak order puts first the element that precedes all
those before it in the list and is preceded by none of those after it
(`head?_insertionSort_iff`).  Where the order tells any two elements apart, what
the sort returns does not depend on the order they came in
(`insertionSort_eq_of_perm`).  The order is a test, as a sort's comparator is.
-/
namespace List
variable {α : Type} {lt : α → α → Bool}

/-- The comparator is a strict weak order. -/
structure StrictWeak (lt : α → α → Bool) : Prop where
  trans : ∀ a b c, lt a b = true → lt b c = true → lt a c = true
  negTrans : ∀ a b c, lt a b = false → lt b c = false → lt a c = false
  irrefl : ∀ a, lt a a = false

/-- The first of the least elements of a list. -/
def Leads (lt : α → α → Bool) (c : α) (l : List α) : Prop :=
  ∃ before after, l = before ++ c :: after ∧ (∀ b ∈ before, lt c b = true) ∧
    ∀ d ∈ after, lt d c = false

theorem Leads.mem {c : α} {l : List α} (h : Leads lt c l) : c ∈ l := by
  obtain ⟨before, after, rfl, -⟩ := h
  simp

/-- An element that is put in front leads unless the leader precedes it. -/
theorem Leads.cons (hlt : StrictWeak lt) {b : α} {l : List α} (h : Leads lt b l) (a : α) :
    Leads lt (if lt b a = false then a else b) (a :: l) := by
  obtain ⟨before, after, rfl, hbefore, hafter⟩ := h
  split
  · rename_i hba
    refine ⟨[], _, rfl, by simp, fun d hd => ?_⟩
    rcases List.mem_append.mp hd with hd | hd
    · rw [Bool.eq_false_iff]
      intro hda
      rw [hlt.trans b d a (hbefore d hd) hda] at hba
      cases hba
    · rcases List.mem_cons.mp hd with rfl | hd
      · exact hba
      · exact hlt.negTrans d b a (hafter d hd) hba
  · rename_i hba
    refine ⟨a :: before, after, rfl, fun d hd => ?_, hafter⟩
    rcases List.mem_cons.mp hd with rfl | hd
    · simpa using hba
    · exact hbefore d hd

/-- Nothing of the list precedes its leader. -/
theorem Leads.least (hlt : StrictWeak lt) {c d : α} {l : List α} (h : Leads lt c l) (hd : d ∈ l) :
    lt d c = false := by
  obtain ⟨before, after, rfl, hbefore, hafter⟩ := h
  rcases List.mem_append.mp hd with hd | hd
  · rw [Bool.eq_false_iff]
    intro hdc
    have := hlt.trans d c d hdc (hbefore d hd)
    rw [hlt.irrefl] at this
    cases this
  · rcases List.mem_cons.mp hd with rfl | hd
    · exact hlt.irrefl d
    · exact hafter d hd

/-- A list has one leader: of two, the later one would precede the other. -/
theorem Leads.unique (hlt : StrictWeak lt) {c d : α} {l : List α} (hc : Leads lt c l)
    (hd : Leads lt d l) : c = d := by
  have hdc := hc.least hlt hd.mem
  have hcd := hd.least hlt hc.mem
  obtain ⟨before, after, hl, hbefore, -⟩ := hc
  obtain ⟨before', after', hl', hbefore', -⟩ := hd
  rw [hl] at hl'
  rcases List.append_eq_append_iff.mp hl' with ⟨mid, rfl, hmid⟩ | ⟨mid, rfl, hmid⟩
  · cases mid with
    | nil => exact (List.cons.inj hmid).1
    | cons m mid =>
      obtain ⟨rfl, -⟩ := List.cons.inj hmid
      rw [hbefore' c (by simp)] at hdc
      cases hdc
  · cases mid with
    | nil => exact (List.cons.inj hmid).1.symm
    | cons m mid =>
      obtain ⟨rfl, -⟩ := List.cons.inj hmid
      rw [hbefore d (by simp)] at hcd
      cases hcd

theorem leads_head (hlt : StrictWeak lt) {c : α} (l : List α)
    (h : (l.insertionSort fun a b => lt b a = false).head? = some c) : Leads lt c l := by
  induction l generalizing c with
  | nil => cases h
  | cons a l ih =>
    rw [insertionSort_cons] at h
    cases hs : l.insertionSort fun a b => lt b a = false with
    | nil =>
      rw [hs] at h
      cases h
      have hnil : l = [] := by
        have := length_insertionSort (fun a b => lt b a = false) l
        rw [hs] at this
        exact List.length_eq_zero_iff.mp this.symm
      subst hnil
      exact ⟨[], [], rfl, by simp, by simp⟩
    | cons b rest =>
      have hb := ih (by rw [hs]; rfl)
      rw [hs, orderedInsert_cons] at h
      have hc : c = if lt b a = false then a else b := by
        split at h <;> (cases h; rename_i hif; simp [hif])
      rw [hc]
      exact hb.cons hlt a

/-- **The head of a stable sort is the leader.** -/
theorem head?_insertionSort_iff (hlt : StrictWeak lt) {c : α} {l : List α} :
    (l.insertionSort fun a b => lt b a = false).head? = some c ↔ Leads lt c l := by
  refine ⟨leads_head hlt l, fun h => ?_⟩
  cases hs : (l.insertionSort fun a b => lt b a = false).head? with
  | none =>
    have hmem : c ∈ l.insertionSort fun a b => lt b a = false := (mem_insertionSort _).mpr h.mem
    rw [List.head?_eq_none_iff.mp hs] at hmem
    cases hmem
  | some d => rw [(leads_head hlt l hs).unique hlt h]

/-! ## The sorted list -/

theorem StrictWeak.total (hlt : StrictWeak lt) (a b : α) : lt b a = false ∨ lt a b = false := by
  cases hba : lt b a with
  | false => exact Or.inl rfl
  | true =>
    right
    rw [Bool.eq_false_iff]
    intro hab
    have := hlt.trans a b a hab hba
    rw [hlt.irrefl] at this
    cases this

/-- In a sorted list no element precedes an earlier one. -/
theorem StrictWeak.pairwise_insertionSort (hlt : StrictWeak lt) (l : List α) :
    (l.insertionSort fun a b => lt b a = false).Pairwise fun a b => lt b a = false := by
  have htotal : Std.Total fun a b => lt b a = false := ⟨hlt.total⟩
  have htrans : IsTrans α fun a b => lt b a = false :=
    ⟨fun a b c hab hbc => hlt.negTrans c b a hbc hab⟩
  exact List.pairwise_insertionSort _ l

/-- **Sorting forgets the order of what it sorts**, where the comparator tells any
two elements apart. -/
theorem insertionSort_eq_of_perm (hlt : StrictWeak lt) {l l' : List α} (h : l.Perm l')
    (hapart : ∀ a ∈ l, ∀ b ∈ l, lt a b = false → lt b a = false → a = b) :
    (l.insertionSort fun a b => lt b a = false) = l'.insertionSort fun a b => lt b a = false := by
  refine Perm.eq_of_pairwise (fun a b ha hb hab hba => ?_) (hlt.pairwise_insertionSort l)
    (hlt.pairwise_insertionSort l') ?_
  · have ha := (mem_insertionSort _).mp ha
    have hb := h.mem_iff.mpr ((mem_insertionSort _).mp hb)
    exact hapart a ha b hb hba hab
  · calc l.insertionSort _
      _ ~ l := perm_insertionSort _ l
      _ ~ l' := h
      _ ~ l'.insertionSort _ := (perm_insertionSort _ l').symm

end List
