import Mathlib.Tactic.Common

/-! # Identities and generations

`identities.hpp`: every concept has its own 64-bit identity type, and every
versioned concept its own generation type.  The C++ tags are empty structs; here
they are the constructors of one enumeration, so `Id .target` and `Id .service`
are different types.

An identity's `next` wraps around; a generation's `next` refuses to, by throwing
`GenerationExhausted`.
-/
namespace FailoverFabric

/-- What a fabric operation throws, with the text of the exception. -/
inductive Error
  | capacityExceeded (what : String)
  | generationExhausted (what : String)
  | invalidArgument (what : String)
  | logicError (what : String)
  | runtimeError (what : String)
  deriving DecidableEq

/-- The identity and generation tags. -/
inductive Tag
  | service | serviceSlot | assignment | target | replica | engine | engineIncarnation
  | readinessProfile | activation | worker | workerBoot | source | sourceBoot
  | failureDomain | failureEvent | failoverPlan | failoverAttempt | route | gatewayBoot
  | coordinator | state | request | execution | compatibility | capacity | resourceClaim
  | reservation | dependency | serviceConfig | serviceAuthority | readinessGeneration
  | healthGeneration | candidateSnapshot | policy | checkpoint

/-- `Id<Tag>`: an opaque, orderable 64-bit identity; `0` is the null sentinel. -/
structure Id (tag : Tag) where
  value : UInt64 := 0
  deriving DecidableEq

namespace Id
variable {tag : Tag}

def null : Id tag := {}

def minId : Id tag := ⟨1⟩

def isNull (i : Id tag) : Bool := i.value == 0

def next (i : Id tag) : Id tag := ⟨i.value + 1⟩

def le (a b : Id tag) : Prop := a.value ≤ b.value

instance : DecidableRel (@le tag) := fun a b => inferInstanceAs (Decidable (a.value ≤ b.value))

theorem isNull_iff {i : Id tag} : i.isNull = true ↔ i = null := by
  obtain ⟨v⟩ := i
  simp [isNull, null]

theorem value_inj {i j : Id tag} : i.value = j.value ↔ i = j := by
  obtain ⟨v⟩ := i
  obtain ⟨w⟩ := j
  simp

end Id

/-- `Gen<Tag>`: a 64-bit generation counter; `0` is null, the default is `1`. -/
structure Gen (tag : Tag) where
  value : UInt64 := 1
  deriving DecidableEq

namespace Gen
variable {tag : Tag}

def first : Gen tag := ⟨1⟩

def null : Gen tag := ⟨0⟩

def isNull (g : Gen tag) : Bool := g.value == 0

/-- Advance, or throw at the maximum rather than wrap. -/
def next (g : Gen tag) : Except Error (Gen tag) :=
  if g.value = 18446744073709551615 then .error (.generationExhausted "generation exhausted")
  else .ok ⟨g.value + 1⟩

theorem next_value {g g' : Gen tag} (h : g.next = .ok g') :
    g'.value.toNat = g.value.toNat + 1 := by
  unfold next at h
  split at h
  · cases h
  · rename_i hne
    cases h
    have hlt : g.value.toNat ≠ 18446744073709551615 := fun he =>
      hne (UInt64.toNat.inj (by simpa using he))
    have := g.value.toNat_lt
    rw [UInt64.toNat_add]
    simp
    omega

theorem next_ne_null {g g' : Gen tag} (h : g.next = .ok g') : g'.isNull = false := by
  have := next_value h
  obtain ⟨v⟩ := g'
  simp only [isNull, beq_eq_false_iff_ne, ne_eq]
  rintro rfl
  simp at this

theorem next_first : (first : Gen tag).next = .ok ⟨2⟩ := rfl

theorem value_inj {g g' : Gen tag} : g.value = g'.value ↔ g = g' := by
  obtain ⟨v⟩ := g
  obtain ⟨w⟩ := g'
  simp

end Gen

abbrev ServiceId := Id .service
abbrev ServiceSlotId := Id .serviceSlot
abbrev AssignmentId := Id .assignment
abbrev TargetId := Id .target
abbrev ReplicaId := Id .replica
abbrev EngineId := Id .engine
abbrev EngineIncarnationId := Id .engineIncarnation
abbrev ReadinessProfileId := Id .readinessProfile
abbrev ActivationId := Id .activation
abbrev WorkerId := Id .worker
abbrev WorkerBootId := Id .workerBoot
abbrev SourceId := Id .source
abbrev SourceBootId := Id .sourceBoot
abbrev FailureDomainId := Id .failureDomain
abbrev FailureEventId := Id .failureEvent
abbrev FailoverPlanId := Id .failoverPlan
abbrev FailoverAttemptId := Id .failoverAttempt
abbrev RouteId := Id .route
abbrev GatewayBootId := Id .gatewayBoot
abbrev CoordinatorId := Id .coordinator
abbrev StateId := Id .state
abbrev RequestId := Id .request
abbrev ExecutionId := Id .execution
abbrev CompatibilityId := Id .compatibility
abbrev ResourceClaimId := Id .resourceClaim
abbrev ReservationId := Id .reservation
abbrev DependencyId := Id .dependency

abbrev ServiceGeneration := Gen .service
abbrev FailureDomainGeneration := Gen .failureDomain
abbrev ServiceConfigGeneration := Gen .serviceConfig
abbrev AssignmentGeneration := Gen .assignment
abbrev ServiceAuthorityGeneration := Gen .serviceAuthority
abbrev TargetGeneration := Gen .target
abbrev ReplicaGeneration := Gen .replica
abbrev EngineGeneration := Gen .engine
abbrev ReadinessProfileGeneration := Gen .readinessProfile
abbrev ReadinessGeneration := Gen .readinessGeneration
abbrev ActivationGeneration := Gen .activation
abbrev FailureGeneration := Gen .failureEvent
abbrev HealthGeneration := Gen .healthGeneration
abbrev CandidateSnapshotGeneration := Gen .candidateSnapshot
abbrev FailoverPlanGeneration := Gen .failoverPlan
abbrev FailoverAttemptGeneration := Gen .failoverAttempt
abbrev RouteGeneration := Gen .route
abbrev PolicyGeneration := Gen .policy
abbrev CapacityGeneration := Gen .capacity
abbrev ReservationGeneration := Gen .reservation
abbrev StateGeneration := Gen .state
abbrev CheckpointGeneration := Gen .checkpoint
abbrev ExecutionGeneration := Gen .execution

end FailoverFabric
