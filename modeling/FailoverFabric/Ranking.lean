import FailoverFabric.Selection
import FailoverFabric.Persistence.Format
import Mathlib.Algebra.Order.Round
import Mathlib.Data.Rat.Floor
import Mathlib.Tactic.Linarith
import Mathlib.Tactic.Ring
import Mathlib.Tactic.NormNum

/-! # The rank of a candidate

`SelectionEngine::rank`, with its doubles read as rational numbers.  A candidate is
scored between 0 and 1, the score is scaled to an integer and doubled, and the last three
digits of the estimated critical path are added, "smaller critical path wins ties".  The
larger digits win them.

`shorter_path_iff` says for which critical paths the shorter one ranks at least as high.
Above 30 seconds the score no longer depends on the path, and the digits decide.
-/
namespace FailoverFabric

/-- The number that a finite double stands for. -/
def F64.value (x : F64) : ℚ :=
  let magnitude := x.bits.toNat % 2 ^ 63
  let exponent := magnitude / 2 ^ 52
  let fraction := magnitude % 2 ^ 52
  let significand : ℕ := if exponent = 0 then fraction else 2 ^ 52 + fraction
  let scaled : ℚ := significand * 2 ^ (max exponent 1) / 2 ^ 1075
  if x.bits.toNat < 2 ^ 63 then scaled else -scaled

/-- `std::round`: to the nearest integer, halves away from zero. -/
def roundAway (x : ℚ) : ℤ := if 0 ≤ x then round x else -round (-x)

namespace SelectionEngine

def kDomainIndependenceWeight : ℚ := 25 / 100
def kPreparationWeight : ℚ := 12 / 100
def kContinuityWeight : ℚ := 20 / 100
def kStateFreshnessWeight : ℚ := 10 / 100
def kCapacityWeight : ℚ := 8 / 100
def kResourceOverlapWeight : ℚ := 6 / 100
def kPrepCostWeight : ℚ := 7 / 100
def kPolicyPreferenceWeight : ℚ := 3 / 100

/-- 1 for nothing of a cost, and 0 from its limit on. -/
def lowness (cost limit : ℚ) : ℚ := if 0 < cost then 1 - min 1 (cost / limit) else 1

/-- What a resource has beyond what is required, at most 1.  An infinite one has that, and
what is not a number has nothing. -/
def headroom (amount required : F64) : ℚ :=
  if amount.isFinite && required.isFinite then
    if required.value < amount.value then
      min 1 ((amount.value - required.value) / max 1 required.value)
    else 0
  else if required.lt amount then 1 else 0

/-- The headroom of each required resource that the candidate has. -/
def headrooms (c : Candidate) (svc : ServiceDefinition) : List ℚ :=
  svc.resources.filterMap fun req =>
    (c.resources.find? fun cr => cr.resourceClass == req.resourceClass).map fun cr =>
      headroom cr.amount req.amount

def capacity (c : Candidate) (svc : ServiceDefinition) : ℚ :=
  if (headrooms c svc).isEmpty then 0 else (headrooms c svc).sum / svc.resources.length

def resourceOverlapCredit (c : Candidate) : ℚ := if c.resources.isEmpty then 1 / 2 else 1

/-- The number of a continuity class among all of them. -/
def continuityOrder (c : ContinuityClass) : ℕ := (Persistence.ByteEnum.toByte c).toNat

/-- The weighted score, in the order of the source. -/
def score (c : Candidate) (svc : ServiceDefinition) : ℚ :=
  kPreparationWeight * (if c.facts.ready then 1 else 0) +
    kPrepCostWeight * lowness c.costs.estimatedCriticalPathMs.toNat 30000 +
    kContinuityWeight *
      (((c.continuity.map continuityOrder).getD 0 : ℕ) / continuityOrder .unknown) +
    kStateFreshnessWeight * lowness c.costs.stateLossSequences.toNat 1000 +
    kCapacityWeight * capacity c svc +
    kResourceOverlapWeight * resourceOverlapCredit c +
    kDomainIndependenceWeight +
    kPolicyPreferenceWeight * (1 / 2)

/-- `SelectionEngine::rank`.  The context is not read. -/
def rank (c : Candidate) (svc : ServiceDefinition) : UInt64 :=
  UInt64.ofNat (roundAway (score c svc * 1000000)).toNat * 2 +
    c.costs.estimatedCriticalPathMs % 1000

end SelectionEngine

/-- The candidate with another estimate of its critical path. -/
def Candidate.withCriticalPath (c : Candidate) (ms : UInt64) : Candidate :=
  { c with costs := { c.costs with estimatedCriticalPathMs := ms } }

namespace SelectionEngine
variable {c : Candidate} {svc : ServiceDefinition}

/-! ## The score is between 0 and 1 -/

theorem lowness_of_nonneg {cost limit : ℚ} (hcost : 0 ≤ cost) :
    lowness cost limit = 1 - min 1 (cost / limit) := by
  unfold lowness
  split
  · rfl
  · rename_i h
    have hzero : cost = 0 := le_antisymm (not_lt.mp h) hcost
    rw [hzero, zero_div, min_eq_right zero_le_one, sub_zero]

theorem lowness_mem {cost limit : ℚ} (hlimit : 0 < limit) (hcost : 0 ≤ cost) :
    0 ≤ lowness cost limit ∧ lowness cost limit ≤ 1 := by
  rw [lowness_of_nonneg hcost]
  have hle : min 1 (cost / limit) ≤ 1 := min_le_left _ _
  have hge : 0 ≤ min 1 (cost / limit) := le_min zero_le_one (div_nonneg hcost hlimit.le)
  constructor <;> linarith

theorem headroom_mem (amount required : F64) :
    0 ≤ headroom amount required ∧ headroom amount required ≤ 1 := by
  unfold headroom
  split_ifs with hfinite hmore hinfinite
  · have hdiff : 0 ≤ amount.value - required.value := (sub_pos.mpr hmore).le
    have hscale : 0 ≤ max 1 required.value := zero_le_one.trans (le_max_left _ _)
    exact ⟨le_min zero_le_one (div_nonneg hdiff hscale), min_le_left _ _⟩
  · exact ⟨le_rfl, zero_le_one⟩
  · exact ⟨zero_le_one, le_rfl⟩
  · exact ⟨le_rfl, zero_le_one⟩

/-- The sum of numbers between 0 and 1 is between 0 and their count. -/
theorem sum_mem {xs : List ℚ} (h : ∀ x ∈ xs, 0 ≤ x ∧ x ≤ 1) : 0 ≤ xs.sum ∧ xs.sum ≤ xs.length := by
  induction xs with
  | nil => exact ⟨le_rfl, le_rfl⟩
  | cons x xs ih =>
    obtain ⟨hx0, hx1⟩ := h x (List.mem_cons_self ..)
    obtain ⟨h0, h1⟩ := ih fun y hy => h y (List.mem_cons_of_mem _ hy)
    rw [List.sum_cons, List.length_cons, Nat.cast_succ]
    constructor <;> linarith

theorem capacity_mem (c : Candidate) (svc : ServiceDefinition) :
    0 ≤ capacity c svc ∧ capacity c svc ≤ 1 := by
  have hall : ∀ x ∈ headrooms c svc, 0 ≤ x ∧ x ≤ 1 := by
    intro x hx
    obtain ⟨req, -, hreq⟩ := List.mem_filterMap.mp hx
    obtain ⟨cr, -, rfl⟩ := Option.map_eq_some_iff.mp hreq
    exact headroom_mem cr.amount req.amount
  obtain ⟨h0, h1⟩ := sum_mem hall
  have hlength : ((headrooms c svc).length : ℚ) ≤ svc.resources.length :=
    Nat.cast_le.mpr (List.length_filterMap_le _ _)
  unfold capacity
  split
  · exact ⟨le_rfl, zero_le_one⟩
  · exact ⟨div_nonneg h0 (Nat.cast_nonneg _),
      div_le_one_of_le₀ (h1.trans hlength) (Nat.cast_nonneg _)⟩

theorem continuityOrder_mem (o : Option ContinuityClass) :
    (0 : ℚ) ≤ ((o.map continuityOrder).getD 0 : ℕ) / continuityOrder .unknown ∧
      (((o.map continuityOrder).getD 0 : ℕ) : ℚ) / continuityOrder .unknown ≤ 1 := by
  have hle : (o.map continuityOrder).getD 0 ≤ continuityOrder .unknown := by
    cases o with
    | none => exact Nat.zero_le _
    | some c => cases c <;> decide
  exact ⟨div_nonneg (Nat.cast_nonneg _) (Nat.cast_nonneg _),
    div_le_one_of_le₀ (Nat.cast_le.mpr hle) (Nat.cast_nonneg _)⟩

theorem resourceOverlapCredit_mem (c : Candidate) :
    0 ≤ resourceOverlapCredit c ∧ resourceOverlapCredit c ≤ 1 := by
  unfold resourceOverlapCredit
  split <;> constructor <;> norm_num

theorem score_mem (c : Candidate) (svc : ServiceDefinition) :
    0 ≤ score c svc ∧ score c svc ≤ 1 := by
  have hready : (0 : ℚ) ≤ (if c.facts.ready then 1 else 0) ∧
      (if c.facts.ready then 1 else 0 : ℚ) ≤ 1 := by
    split <;> constructor <;> norm_num
  have hpath : 0 ≤ lowness c.costs.estimatedCriticalPathMs.toNat 30000 ∧
      lowness c.costs.estimatedCriticalPathMs.toNat 30000 ≤ 1 :=
    lowness_mem (by norm_num) (Nat.cast_nonneg _)
  have hloss : 0 ≤ lowness c.costs.stateLossSequences.toNat 1000 ∧
      lowness c.costs.stateLossSequences.toNat 1000 ≤ 1 :=
    lowness_mem (by norm_num) (Nat.cast_nonneg _)
  have hclass := continuityOrder_mem c.continuity
  have hcapacity := capacity_mem c svc
  have hcredit := resourceOverlapCredit_mem c
  unfold score kPreparationWeight kPrepCostWeight kContinuityWeight kStateFreshnessWeight
    kCapacityWeight kResourceOverlapWeight kDomainIndependenceWeight kPolicyPreferenceWeight
  constructor <;> linarith [hready.1, hready.2, hpath.1, hpath.2, hloss.1, hloss.2, hclass.1,
    hclass.2, hcapacity.1, hcapacity.2, hcredit.1, hcredit.2]

/-! ## The rank as a number -/

/-- The score as the rank scales and rounds it. -/
def roundedScore (c : Candidate) (svc : ServiceDefinition) : ℤ := round (score c svc * 1000000)

theorem roundedScore_mem (c : Candidate) (svc : ServiceDefinition) :
    0 ≤ roundedScore c svc ∧ roundedScore c svc ≤ 1000000 := by
  obtain ⟨h0, h1⟩ := score_mem c svc
  have hlow := sub_half_lt_round (score c svc * 1000000)
  have hhigh := round_le_add_half (score c svc * 1000000)
  have hpos : (-1 : ℚ) < roundedScore c svc := by
    rw [roundedScore]
    linarith
  have hmax : (roundedScore c svc : ℚ) < 1000000 + 1 := by
    rw [roundedScore]
    linarith
  have hpos : -1 < roundedScore c svc := by exact_mod_cast hpos
  have hmax : roundedScore c svc < 1000000 + 1 := by exact_mod_cast hmax
  omega

/-- Nothing overflows: the rank is twice the rounded score and the last three digits of the
path. -/
theorem rank_toNat (c : Candidate) (svc : ServiceDefinition) : ((rank c svc).toNat : ℤ) =
    2 * roundedScore c svc + c.costs.estimatedCriticalPathMs.toNat % 1000 := by
  have hnonneg : 0 ≤ score c svc * 1000000 := mul_nonneg (score_mem c svc).1 (by norm_num)
  have hround : roundAway (score c svc * 1000000) = roundedScore c svc := if_pos hnonneg
  obtain ⟨h0, h1⟩ := roundedScore_mem c svc
  rw [rank, hround, UInt64.toNat_add, UInt64.toNat_mul, UInt64.toNat_ofNat', UInt64.toNat_mod]
  have htwo : (2 : UInt64).toNat = 2 := rfl
  have hthousand : (1000 : UInt64).toNat = 1000 := rfl
  rw [htwo, hthousand]
  have hpath := Nat.mod_lt c.costs.estimatedCriticalPathMs.toNat (show 0 < 1000 by decide)
  omega

/-! ## The path and the score -/

/-- What is left of the 30 seconds. -/
def spared (ms : UInt64) : ℕ := 30000 - ms.toNat

theorem lowness_path (ms : UInt64) : lowness ms.toNat 30000 = (spared ms : ℚ) / 30000 := by
  rw [lowness_of_nonneg (Nat.cast_nonneg _), spared]
  rcases Nat.le_total ms.toNat 30000 with hle | hge
  · have hratio : (ms.toNat : ℚ) / 30000 ≤ 1 :=
      div_le_one_of_le₀ (by exact_mod_cast hle) (by norm_num)
    rw [min_eq_right hratio, Nat.cast_sub hle, sub_div]
    norm_num
  · have hratio : 1 ≤ (ms.toNat : ℚ) / 30000 :=
      (one_le_div (by norm_num)).mpr (by exact_mod_cast hge)
    rw [min_eq_left hratio, Nat.sub_eq_zero_of_le hge]
    norm_num

/-- What the path adds to the scaled score. -/
theorem scaledScore_withCriticalPath (c : Candidate) (svc : ServiceDefinition) (ms : UInt64) :
    score (c.withCriticalPath ms) svc * 1000000 =
      score (c.withCriticalPath 30000) svc * 1000000 + 7 / 3 * spared ms := by
  have hlimit : (spared 30000 : ℚ) = 0 := by
    rw [show spared 30000 = 0 from rfl, Nat.cast_zero]
  -- the other terms do not depend on the path
  have hscore : ∀ t : UInt64, score (c.withCriticalPath t) svc =
      kPreparationWeight * (if c.facts.ready then 1 else 0) +
        kPrepCostWeight * lowness t.toNat 30000 +
        kContinuityWeight *
          (((c.continuity.map continuityOrder).getD 0 : ℕ) / continuityOrder .unknown) +
        kStateFreshnessWeight * lowness c.costs.stateLossSequences.toNat 1000 +
        kCapacityWeight * capacity c svc +
        kResourceOverlapWeight * resourceOverlapCredit c +
        kDomainIndependenceWeight +
        kPolicyPreferenceWeight * (1 / 2) := fun _ => rfl
  rw [hscore ms, hscore 30000, lowness_path, lowness_path, hlimit, kPrepCostWeight]
  ring

/-- Two for every millisecond that one path spares more than another. -/
theorem roundedScore_withCriticalPath (c : Candidate) (svc : ServiceDefinition) {t₁ t₂ : UInt64}
    (h : spared t₂ ≤ spared t₁) :
    roundedScore (c.withCriticalPath t₂) svc + 2 * (spared t₁ - spared t₂) ≤
      roundedScore (c.withCriticalPath t₁) svc := by
  have hmore : (spared t₂ : ℚ) ≤ spared t₁ := by exact_mod_cast h
  have hscaled : score (c.withCriticalPath t₂) svc * 1000000 + (2 * (spared t₁ - spared t₂) : ℤ) ≤
      score (c.withCriticalPath t₁) svc * 1000000 := by
    rw [scaledScore_withCriticalPath c svc t₁, scaledScore_withCriticalPath c svc t₂]
    push_cast
    linarith
  rw [roundedScore, roundedScore, ← round_add_intCast, round_eq, round_eq]
  exact Int.floor_le_floor (by linarith)

/-- **When the shorter critical path ranks at least as high.**  For every candidate and
service and every two estimates: exactly if the shorter one is below 30 seconds, or its
last three digits are not fewer than those of the longer one. -/
theorem shorter_path_iff (c : Candidate) (svc : ServiceDefinition) {t₁ t₂ : UInt64}
    (h : t₁ ≤ t₂) :
    rank (c.withCriticalPath t₂) svc ≤ rank (c.withCriticalPath t₁) svc ↔
      t₁ < 30000 ∨ t₂ % 1000 ≤ t₁ % 1000 := by
  have hle : t₁.toNat ≤ t₂.toNat := UInt64.le_iff_toNat_le.mp h
  have hspared : spared t₂ ≤ spared t₁ := Nat.sub_le_sub_left hle 30000
  have hscore := roundedScore_withCriticalPath c svc hspared
  have hrank₁ := rank_toNat (c.withCriticalPath t₁) svc
  have hrank₂ := rank_toNat (c.withCriticalPath t₂) svc
  have hpath : ∀ t, (c.withCriticalPath t).costs.estimatedCriticalPathMs = t := fun _ => rfl
  rw [hpath] at hrank₁ hrank₂
  rw [UInt64.le_iff_toNat_le, UInt64.le_iff_toNat_le, UInt64.lt_iff_toNat_lt, UInt64.toNat_mod,
    UInt64.toNat_mod]
  have hlimit : (30000 : UInt64).toNat = 30000 := rfl
  have hthousand : (1000 : UInt64).toNat = 1000 := rfl
  rw [hlimit, hthousand]
  by_cases hbelow : t₁.toNat < 30000
  · -- every millisecond below the limit is worth four, more than its digit
    refine iff_of_true ?_ (.inl hbelow)
    unfold spared at hscore
    omega
  · -- above it both scores are the same
    have hspared : spared t₁ = spared t₂ := by
      unfold spared
      omega
    have hback := roundedScore_withCriticalPath c svc hspared.le
    unfold spared at hscore hback
    omega

/-- Twenty milliseconds rank no higher than ten. -/
theorem shorter_path_ten : rank (({} : Candidate).withCriticalPath 20) {} ≤
    rank (({} : Candidate).withCriticalPath 10) {} :=
  (shorter_path_iff {} {} (by decide)).mpr (.inl (by decide))

/-- **A longer path that ranks higher**: 30999 milliseconds against 30000. -/
theorem longer_path_preferred :
    rank (({} : Candidate).withCriticalPath 30000) {} <
      rank (({} : Candidate).withCriticalPath 30999) {} ∧
    ¬ ∀ (c : Candidate) (svc : ServiceDefinition) (t₁ t₂ : UInt64), t₁ ≤ t₂ →
      rank (c.withCriticalPath t₂) svc ≤ rank (c.withCriticalPath t₁) svc := by
  have hlonger : rank (({} : Candidate).withCriticalPath 30000) {} <
      rank (({} : Candidate).withCriticalPath 30999) {} := by decide +kernel
  exact ⟨hlonger, fun h => UInt64.not_le.mpr hlonger (h _ _ _ _ (by decide))⟩

end SelectionEngine
end FailoverFabric
