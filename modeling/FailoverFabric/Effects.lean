import FailoverFabric.Library.Script
import FailoverFabric.PlanExecution

/-! # The effects of a cutover, in order

What a call of `execute_plan` does outside the fabric, read off its thread.  At some of
its steps the call meets something that may stop it: the save of a checkpoint, the
barrier, the outcome of an effect, a newer promotion.  These are the points of its script
(`cutoverScript`), and the history of a call is what it met there.

A call whose plan passes runs its script (`history_ran`): it goes from point to point and
stops at the first that refuses it.  So its effects are a first part of `fence_old`,
`activate`, `install_route` and `verify`, cut where an outcome is unsuccessful, the
barrier is reached or a checkpoint cannot be saved (`effects_in_order`).
-/
namespace FailoverFabric

/-! ## What a call may meet -/

inductive EffectKind
  | fenceOld
  | activate
  | installRoute
  | verify
  deriving DecidableEq

/-- An effect that is performed, with its arguments. -/
inductive Effect
  | fenceOld (old : Assignment) (newBoot : WorkerBootId)
  | activate (c : Candidate) (auth : WorkerAuthorization) (gen : ServiceAuthorityGeneration)
  | installRoute (entry : RouteEntry) (boot : GatewayBootId)
  | verify (entry : RouteEntry) (auth : WorkerAuthorization)
  deriving DecidableEq

/-- Whom an authorization, a route entry or an assignment is for. -/
structure Bearer where
  slot : ServiceSlotKey
  workerBoot : WorkerBootId
  assignment : AssignmentId
  assignmentGeneration : AssignmentGeneration
  routeGeneration : RouteGeneration
  deriving DecidableEq

def WorkerAuthorization.bearer (auth : WorkerAuthorization) : Bearer :=
  ⟨auth.slot, auth.workerBoot, auth.assignment, auth.assignmentGeneration, auth.routeGeneration⟩

def RouteEntry.bearer (e : RouteEntry) : Bearer :=
  ⟨e.slot, e.permittedBoot, e.assignment, e.assignmentGeneration, e.generation⟩

def Assignment.bearer (a : Assignment) : Bearer :=
  ⟨a.slot, a.workerBoot, a.id, a.generation, a.routeGeneration⟩

namespace Effect

def kind : Effect → EffectKind
  | fenceOld .. => .fenceOld
  | activate .. => .activate
  | installRoute .. => .installRoute
  | verify .. => .verify

/-- The effect's outcome lets the call go on. -/
def succeeds (ops : CutoverOps) : Effect → Bool
  | fenceOld old boot => !(ops.fenceOld old boot).fencingUnproven && (ops.fenceOld old boot).applied
  | activate c auth gen => (ops.activate c auth gen).acknowledged
  | installRoute entry boot => (ops.installRoute entry boot).acknowledged
  | verify entry auth => (ops.verify entry auth).verified

/-- Two sets of effects have the same outcome for this one. -/
def Agree (ops ops' : CutoverOps) : Effect → Prop
  | fenceOld old boot => ops'.fenceOld old boot = ops.fenceOld old boot
  | activate c auth gen => ops'.activate c auth gen = ops.activate c auth gen
  | installRoute entry boot => ops'.installRoute entry boot = ops.installRoute entry boot
  | verify entry auth => ops'.verify entry auth = ops.verify entry auth

/-- Whom the authorization and the route entry among the arguments are for. -/
def bearers : Effect → List Bearer
  | fenceOld .. => []
  | activate _ auth _ => [auth.bearer]
  | installRoute entry _ => [entry.bearer]
  | verify entry auth => [entry.bearer, auth.bearer]

end Effect

/-- Where a call may be stopped. -/
inductive Point
  | save (m : Milestone)
  | barrier (m : Milestone)
  | effect (k : EffectKind)
  | supersession
  deriving DecidableEq

/-- What a call meets at a point. -/
inductive Encounter
  | save (m : Milestone)
  | barrier (m : Milestone)
  | effect (e : Effect)
  | supersession
  deriving DecidableEq

namespace Encounter

def point : Encounter → Point
  | save m => .save m
  | barrier m => .barrier m
  | effect e => .effect e.kind
  | supersession => .supersession

def effect? : Encounter → Option Effect
  | effect e => some e
  | _ => none

end Encounter

def Point.kind? : Point → Option EffectKind
  | effect k => some k
  | _ => none

/-! ## The script -/

/-- The points of a checkpoint. -/
def checkpointScript (m : Milestone) : List Point := [.save m, .barrier m]

def verifyScript : List Point := [.effect .verify, .supersession]

def installScript : List Point :=
  .effect .installRoute :: checkpointScript .routeInstalled ++ verifyScript

def activateScript : List Point :=
  .effect .activate :: checkpointScript .activationAcknowledged ++ installScript

/-- Without an old assignment there is nothing to fence. -/
def fenceScript (old : Bool) : List Point :=
  (if old then [.effect .fenceOld] else []) ++ checkpointScript .oldAdmissionFenced ++
    activateScript

/-- The points of a call that has passed its validation. -/
def cutoverScript (old : Bool) : List Point := checkpointScript .intentOnly ++ fenceScript old

/-- The effects of a call that nothing stops. -/
def effectOrder (old : Bool) : List EffectKind :=
  (if old then [.fenceOld] else []) ++ [.activate, .installRoute, .verify]

theorem cutoverScript_kinds (old : Bool) :
    (cutoverScript old).filterMap Point.kind? = effectOrder old := by
  cases old <;> rfl

theorem effectOrder_nodup (old : Bool) : (effectOrder old).Nodup := by
  cases old <;> decide

/-- What follows a checkpoint. -/
def onward (old : Bool) : Milestone → List Point
  | .intentOnly => fenceScript old
  | .oldAdmissionFenced => activateScript
  | .activationAcknowledged => installScript
  | _ => verifyScript

namespace Stage
open Fabric

/-- The points that an attempt has ahead of it. -/
def ahead (old : Bool) : Stage → List Point
  | validating => cutoverScript old
  | recording m => checkpointScript m ++ onward old m
  | saving m => checkpointScript m ++ onward old m
  | testing m => .barrier m :: onward old m
  | fencing => fenceScript old
  | authorizing => activateScript
  | activating => activateScript
  | composing => installScript
  | installing => installScript
  | verifying => verifyScript
  | returned => []
  | threw _ => []

theorem ahead_afterCheckpoint (old : Bool) (m : Milestone) :
    (afterCheckpoint m).ahead old = onward old m := by
  cases m <;> rfl

/-- The attempt is past its validation, and has not ended. -/
def inProgress : Stage → Bool
  | validating => false
  | returned => false
  | threw _ => false
  | _ => true

/-- The authorization has been made. -/
def authorized : Stage → Bool
  | recording m => afterCheckpoint m == .composing || afterCheckpoint m == .verifying
  | saving m => afterCheckpoint m == .composing || afterCheckpoint m == .verifying
  | testing m => afterCheckpoint m == .composing || afterCheckpoint m == .verifying
  | activating => true
  | composing => true
  | installing => true
  | verifying => true
  | _ => false

theorem authorized_next {st : Stage} (h : st.next.authorized = true) :
    st.authorized = true ∨ st = .authorizing := by
  cases st with
  | recording m => exact Or.inl h
  | saving m => exact Or.inl h
  | testing m => cases m <;> first | exact Or.inl rfl | cases h
  | authorizing => exact Or.inr rfl
  | activating | composing | installing => exact Or.inl rfl
  | _ => cases h

end Stage

namespace Fabric

/-- The checkpoint is saved, or there is no path to save it at. -/
def savesCheckpoint (s : Fabric) (rd : Readings) : Bool :=
  s.checkpointPath.isEmpty ||
    match s.save with
    | .ok _ => rd.disk.isNone
    | .error _ => false

/-- The effect, performed by the attempt. -/
def performs (a : Attempt) (e : Effect) : Encounter × Bool := (.effect e, e.succeeds a.ops)

/-- What an attempt meets in its next step, each with whether it may go on. -/
def meets (s : Fabric) (rd : Readings) (a : Attempt) : List (Encounter × Bool) :=
  match a.stage with
  | .saving m => [(.save m, s.savesCheckpoint rd)]
  | .testing m => [(.barrier m, s.barrierMilestone != m)]
  | .fencing =>
    (a.oldAssign.map fun old => performs a (.fenceOld old a.selected.facts.workerBoot)).toList
  | .activating => [performs a (.activate a.selected a.auth a.newAssign.authorityGeneration)]
  | .installing => [performs a (.installRoute a.route s.gatewayBoot)]
  | .verifying =>
    performs a (.verify a.route a.auth) ::
      if (a.ops.verify a.route a.auth).verified then [(.supersession, !s.superseded a)] else []
  | _ => []

/-- What a call meets, one step after the other. -/
def history (a : Attempt) : List Moment → List (Encounter × Bool)
  | [] => []
  | m :: ms =>
    m.fabric.meets m.readings a ++ history (m.fabric.attemptStep m.readings a).2 ms

/-- The effects of a history. -/
def performed (log : List (Encounter × Bool)) : List Effect := log.filterMap fun x => x.1.effect?

/-- The points of a history. -/
def reached (log : List (Encounter × Bool)) : List (Point × Bool) :=
  log.map fun x => (x.1.point, x.2)

/-! ## A step and its points -/

variable {s : Fabric} {rd : Readings} {a : Attempt} {r : Attempt}

/-- The step passes the points it meets. -/
structure Goes (s : Fabric) (rd : Readings) (a r : Attempt) : Prop where
  passed : ∀ x ∈ s.meets rd a, x.2 = true
  ahead : a.stage.ahead a.oldAssign.isSome =
    (reached (s.meets rd a)).map Prod.fst ++ r.stage.ahead a.oldAssign.isSome
  issued : Issued a → Issued r

/-- The step ends the attempt at a point that refuses it. -/
structure Stops (s : Fabric) (rd : Readings) (a r : Attempt) : Prop where
  refused : ∃ before e rest, s.meets rd a = before ++ [(e, false)] ∧
    (∀ x ∈ before, x.2 = true) ∧
    a.stage.ahead a.oldAssign.isSome = (reached before).map Prod.fst ++ e.point :: rest
  ended : Ended r
  notCompleted : ¬ r.Completed

/-- An attempt that is in progress after its validation holds a replacement. -/
theorem issued_of_inProgress (h : r.stage.inProgress = true) : Issued r := by
  constructor
  · intro hst
    rw [hst] at h
    cases h
  · rintro (hst | ⟨e, hst⟩) <;>
      (rw [hst] at h; cases h)

/-- A step that meets nothing. -/
theorem Goes.idle (hmeets : s.meets rd a = [])
    (hahead : a.stage.ahead a.oldAssign.isSome = r.stage.ahead a.oldAssign.isSome)
    (hissued : Issued a → Issued r) : Goes s rd a r where
  passed x hx := by rw [hmeets] at hx; cases hx
  ahead := by rw [hmeets]; exact hahead
  issued := hissued

/-- A step that meets one point. -/
theorem goes_or_stops (e : Encounter) (ok : Bool) {rest : List Point}
    (hmeets : s.meets rd a = [(e, ok)])
    (hahead : a.stage.ahead a.oldAssign.isSome = e.point :: rest)
    (hgoes : ok = true → r.stage.ahead a.oldAssign.isSome = rest ∧ Issued r)
    (hstops : ok = false → Ended r ∧ ¬ r.Completed) : Goes s rd a r ∨ Stops s rd a r := by
  cases ok with
  | true =>
    obtain ⟨hrest, hissued⟩ := hgoes rfl
    refine Or.inl ⟨fun x hx => ?_, ?_, fun _ => hissued⟩
    · rw [hmeets, List.mem_singleton] at hx
      rw [hx]
    · rw [hmeets, hahead, hrest]
      rfl
  | false =>
    obtain ⟨hend, hnot⟩ := hstops rfl
    exact Or.inr ⟨⟨[], e, rest, hmeets, fun x hx => (by cases hx), hahead⟩, hend, hnot⟩

/-- A checkpoint that is saved goes on to its test. -/
theorem saveCheckpoint_written {m : Milestone} (h : s.savesCheckpoint rd = true) :
    ∃ w, s.saveCheckpoint rd m a = { a with stage := .testing m, written := w } := by
  unfold savesCheckpoint at h
  unfold saveCheckpoint
  by_cases hpath : s.checkpointPath.isEmpty = true
  · exact ⟨a.written, if_pos hpath⟩
  rw [if_neg hpath]
  rw [Bool.not_eq_true] at hpath
  rw [hpath, Bool.false_or] at h
  cases hsave : s.save with
  | error e =>
    rw [hsave] at h
    cases h
  | ok blob =>
    rw [hsave] at h
    rw [Option.isNone_iff_eq_none.mp h]
    exact ⟨_, rfl⟩

theorem saveCheckpoint_saves {m : Milestone} (h : s.savesCheckpoint rd = true) :
    (s.saveCheckpoint rd m a).stage = .testing m := by
  obtain ⟨w, hw⟩ := saveCheckpoint_written (a := a) (m := m) h
  rw [hw]

theorem saveCheckpoint_fails {m : Milestone} (h : s.savesCheckpoint rd = false) :
    ∃ e, s.saveCheckpoint rd m a = a.fail e := by
  unfold savesCheckpoint at h
  unfold saveCheckpoint
  obtain ⟨hpath, hsave⟩ := Bool.or_eq_false_iff.mp h
  rw [if_neg (by rw [hpath]; decide)]
  cases hs : s.save with
  | error e => exact ⟨e, rfl⟩
  | ok blob =>
    rw [hs] at hsave
    cases hd : rd.disk with
    | none =>
      rw [hd] at hsave
      cases hsave
    | some e => exact ⟨e, rfl⟩

theorem not_completed_of_fail (a : Attempt) (e : Error) : ¬ (a.fail e).Completed := by
  rintro ⟨hst, -⟩
  cases hst

/-- An attempt that is finished short of completion. -/
theorem finish_stops (a : Attempt) (st : AttemptState) (detail : Text) (h : st ≠ .completed) :
    Ended (a.finish st detail) ∧ ¬ (a.finish st detail).Completed :=
  ⟨Or.inl rfl, fun hc => h hc.2⟩

theorem saving_points {m : Milestone} (h : a.stage = .saving m) :
    Goes s rd a (s.saveCheckpoint rd m a) ∨ Stops s rd a (s.saveCheckpoint rd m a) := by
  refine goes_or_stops (.save m) (s.savesCheckpoint rd) (by simp only [meets, h])
    (by rw [h]; rfl) (fun hok => ?_) fun hfail => ?_
  · have hstage := saveCheckpoint_saves (a := a) (m := m) hok
    exact ⟨by rw [hstage]; rfl, issued_of_inProgress (by rw [hstage]; rfl)⟩
  · obtain ⟨e, he⟩ := saveCheckpoint_fails (a := a) (m := m) hfail
    rw [he]
    exact ⟨Or.inr ⟨e, rfl⟩, not_completed_of_fail a e⟩

theorem testing_points {m : Milestone} (h : a.stage = .testing m) :
    Goes s rd a (s.testBarrier m a) ∨ Stops s rd a (s.testBarrier m a) := by
  refine goes_or_stops (.barrier m) (s.barrierMilestone != m) (by simp only [meets, h])
    (by rw [h]; rfl) (fun hok => ?_) fun hfail => ?_
  · rw [testBarrier, if_neg (bne_iff_ne.mp hok)]
    exact ⟨Stage.ahead_afterCheckpoint _ m, issued_of_inProgress (by cases m <;> rfl)⟩
  · rw [testBarrier, if_pos (bne_eq_false_iff_eq.mp hfail)]
    exact finish_stops a _ _ (by decide)

theorem fencing_points (h : a.stage = .fencing) :
    Goes s rd a (s.fenceStep rd a).2 ∨ Stops s rd a (s.fenceStep rd a).2 := by
  cases hold : a.oldAssign with
  | none =>
    refine Or.inl (.idle (by simp [meets, h, hold]) ?_ ?_)
    · simp only [h, hold, fenceStep, fenceOutcome]
      rfl
    · intro _
      simp only [fenceStep, fenceOutcome, hold]
      exact issued_of_inProgress rfl
  | some old =>
    refine goes_or_stops (.effect (.fenceOld old a.selected.facts.workerBoot)) _
      (by simp only [meets, h, hold]; rfl) (by rw [h, hold]; rfl) (fun hok => ?_) fun hfail => ?_
    · obtain ⟨hproven, happlied⟩ := Bool.and_eq_true_iff.mp hok
      rw [Bool.not_eq_true'] at hproven
      simp only [fenceStep, fenceOutcome, hold, hproven, happlied]
      exact ⟨rfl, issued_of_inProgress rfl⟩
    · simp only [fenceStep, fenceOutcome, hold]
      split_ifs with hunproven happlied
      · exact finish_stops _ _ _ (by decide)
      · exact finish_stops _ _ _ (by decide)
      · simp [Effect.succeeds, hunproven, happlied] at hfail

theorem activating_points (h : a.stage = .activating) :
    Goes s rd a (s.activateStep a).2 ∨ Stops s rd a (s.activateStep a).2 := by
  refine goes_or_stops (.effect (.activate a.selected a.auth a.newAssign.authorityGeneration))
    (a.ops.activate a.selected a.auth a.newAssign.authorityGeneration).acknowledged
    (by simp only [meets, h]; rfl) (by rw [h]; rfl) (fun hok => ?_) fun hfail => ?_
  · rw [activateStep, if_pos hok]
    exact ⟨rfl, issued_of_inProgress rfl⟩
  · rw [activateStep, if_neg (Bool.eq_false_iff.mp hfail)]
    exact finish_stops a _ _ (by decide)

theorem installing_points (h : a.stage = .installing) :
    Goes s rd a (s.installStep a).2 ∨ Stops s rd a (s.installStep a).2 := by
  refine goes_or_stops (.effect (.installRoute a.route s.gatewayBoot))
    (a.ops.installRoute a.route s.gatewayBoot).acknowledged
    (by simp only [meets, h]; rfl) (by rw [h]; rfl) (fun hok => ?_) fun hfail => ?_
  · rw [installStep, if_pos hok]
    exact ⟨rfl, issued_of_inProgress rfl⟩
  · rw [installStep, if_neg (Bool.eq_false_iff.mp hfail)]
    exact finish_stops a _ _ (by decide)

/-- The verification meets two points: its outcome and, if that is a success, a newer
promotion. -/
theorem verifying_points (h : a.stage = .verifying) :
    Goes s rd a (s.verifyStep rd a).2 ∨ Stops s rd a (s.verifyStep rd a).2 := by
  cases hver : (a.ops.verify a.route a.auth).verified with
  | false =>
    refine goes_or_stops (.effect (.verify a.route a.auth)) false
      (by simp [meets, h, hver, performs, Effect.succeeds]) (by rw [h]; rfl)
      (fun hok => by cases hok) fun _ => ?_
    rw [verifyStep, if_pos hver]
    exact finish_stops a _ _ (by decide)
  | true =>
    have hmeets : s.meets rd a =
        [(.effect (.verify a.route a.auth), true), (.supersession, !s.superseded a)] := by
      simp [meets, h, hver, performs, Effect.succeeds]
    cases hsup : s.superseded a with
    | true =>
      right
      rw [verifyStep, if_neg (by rw [hver]; decide), if_pos hsup]
      obtain ⟨hend, hnot⟩ := finish_stops a .superseded
        (text "attempt superseded by a newer promotion") (by decide)
      refine ⟨⟨[(.effect (.verify a.route a.auth), true)], .supersession, [], ?_, ?_, ?_⟩, hend,
        hnot⟩
      · rw [hmeets, hsup]
        rfl
      · intro x hx
        rw [List.mem_singleton.mp hx]
      · rw [h]
        rfl
    | false =>
      left
      rw [verifyStep, if_neg (by rw [hver]; decide), if_neg (by rw [hsup]; decide)]
      refine ⟨?_, ?_, fun _ => Issued.of_completed ⟨rfl, rfl⟩⟩
      · intro x hx
        rw [hmeets, hsup] at hx
        simp only [List.mem_cons, List.not_mem_nil, or_false] at hx
        rcases hx with rfl | rfl <;> rfl
      · rw [hmeets, h]
        rfl

/-- **A step, by what it meets.**  It passes the points of its part of the script, or
ends the attempt at the first that refuses it. -/
theorem attemptStep_points (rd : Readings) (s : Fabric) (a : Attempt) (h : a.stage ≠ .validating) :
    Goes s rd a (s.attemptStep rd a).2 ∨ Stops s rd a (s.attemptStep rd a).2 := by
  unfold attemptStep
  cases hst : a.stage with
  | validating => exact absurd hst h
  | recording m | authorizing | composing =>
    exact Or.inl (.idle (by simp [meets, hst]) (by rw [hst]; rfl)
      fun _ => issued_of_inProgress rfl)
  | saving m => exact saving_points hst
  | testing m => exact testing_points hst
  | fencing => exact fencing_points hst
  | activating => exact activating_points hst
  | installing => exact installing_points hst
  | verifying => exact verifying_points hst
  | returned | threw e => exact Or.inl (.idle (by simp [meets, hst]) (by rw [hst]) id)

/-! ## A call and its script -/

theorem meets_ended (h : Ended a) : s.meets rd a = [] := by
  rcases h with h | ⟨e, h⟩ <;> simp [meets, h]

theorem history_ended (h : Ended a) (ms : List Moment) : history a ms = [] := by
  induction ms with
  | nil => rfl
  | cons m ms ih => rw [history, meets_ended h, attemptStep_ended h, ih, List.nil_append]

theorem reached_append (log log' : List (Encounter × Bool)) :
    reached (log ++ log') = reached log ++ reached log' := List.map_append

theorem reached_passed {log : List (Encounter × Bool)} (h : ∀ x ∈ log, x.2 = true) :
    ∀ x ∈ reached log, x.2 = true := by
  intro x hx
  obtain ⟨y, hy, rfl⟩ := List.mem_map.mp hx
  exact h y hy

/-- **A call runs its script**: what is ahead of it is what it meets, up to the first point
that refuses it; and it completes if none does. -/
theorem history_ran (h : Issued a) (ms : List Moment) (hend : Ended (thread a ms)) :
    Script.Ran (a.stage.ahead a.oldAssign.isSome) (reached (history a ms)) ∧
      ((thread a ms).Completed ↔ ∀ x ∈ history a ms, x.2 = true) := by
  induction ms generalizing a with
  | nil =>
    refine ⟨?_, iff_of_true (h.2 hend) fun x hx => by cases hx⟩
    rcases hend with hst | ⟨e, hst⟩ <;>
      (rw [thread_nil] at hst; rw [hst]; exact .done)
  | cons m ms ih =>
    have hold := (attemptStep_same m.readings m.fabric a h.1).old
    rw [thread_cons] at hend ⊢
    rw [history, reached_append]
    rcases attemptStep_points m.readings m.fabric a h.1 with hgo | hstop
    · obtain ⟨hran, hiff⟩ := ih (hgo.issued h) hend
      rw [hold] at hran
      refine ⟨?_, ?_⟩
      · rw [hgo.ahead]
        exact hran.passed_before (reached_passed hgo.passed)
      · rw [hiff]
        refine ⟨fun hall x hx => ?_, fun hall x hx => hall x (List.mem_append_right _ hx)⟩
        rcases List.mem_append.mp hx with hx | hx
        · exact hgo.passed x hx
        · exact hall x hx
    · obtain ⟨before, e, rest, hmeets, hpassed, hahead⟩ := hstop.refused
      rw [history_ended hstop.ended, thread_ended hstop.ended, hmeets, List.append_nil, hahead]
      refine ⟨?_, ?_⟩
      · rw [reached_append]
        have hrefused := Script.Ran.refused e.point rest
        simpa [reached] using hrefused.passed_before (reached_passed hpassed)
      · refine iff_of_false hstop.notCompleted fun hall => ?_
        cases hall (e, false) (List.mem_append_right _ (List.mem_singleton_self _))

/-- The kinds of the effects are the effects among the points. -/
theorem performed_kinds (log : List (Encounter × Bool)) :
    (performed log).map Effect.kind = ((reached log).map Prod.fst).filterMap Point.kind? := by
  induction log with
  | nil => rfl
  | cons x log ih =>
    obtain ⟨e, ok⟩ := x
    cases e with
    | effect e =>
      show e.kind :: (performed log).map Effect.kind = e.kind :: _
      rw [ih]
      rfl
    | save m | barrier m | supersession => exact ih

/-! ## The history is all that is asked -/

theorem performed_append (log log' : List (Encounter × Bool)) :
    performed (log ++ log') = performed log ++ performed log' := List.filterMap_append

/-- The effect that a step performs, if it performs one. -/
theorem performed_meets {e : Effect} : e ∈ performed (s.meets rd a) ↔
    (a.stage = .fencing ∧ ∃ old, a.oldAssign = some old ∧
        e = .fenceOld old a.selected.facts.workerBoot) ∨
      (a.stage = .activating ∧ e = .activate a.selected a.auth a.newAssign.authorityGeneration) ∨
      (a.stage = .installing ∧ e = .installRoute a.route s.gatewayBoot) ∨
      (a.stage = .verifying ∧ e = .verify a.route a.auth) := by
  unfold meets
  cases hst : a.stage with
  | fencing =>
    cases hold : a.oldAssign with
    | none => simp [performed]
    | some old => simp [performed, performs, Encounter.effect?]
  | verifying =>
    simp only
    split_ifs <;> simp [performed, performs, Encounter.effect?]
  | _ => simp [performed, performs, Encounter.effect?]

/-- The call with other effects. -/
def withOps (ops : CutoverOps) (a : Attempt) : Attempt := { a with ops := ops }

theorem validateAttempt_withOps (ops : CutoverOps) (s : Fabric) (a : Attempt) :
    s.validateAttempt (withOps ops a) =
      ((s.validateAttempt a).1, withOps ops (s.validateAttempt a).2) := by
  have hslot : (withOps ops a).slot = a.slot := rfl
  have hplan : (withOps ops a).plan = a.plan := rfl
  unfold validateAttempt
  rw [hslot, hplan]
  cases s.attemptGenCounter.next with
  | error e => rfl
  | ok generation =>
    cases s.serviceForSlot a.slot with
    | none => rfl
    | some svc =>
      cases a.plan.selected with
      | none => rfl
      | some wanted =>
        by_cases hsource : sourceChanged a.plan (s.currentAssignment a.slot) = true
        · simp only [if_pos hsource]
          rfl
        · simp only [if_neg hsource]
          cases s.snapshotLocked a.slot with
          | error e => rfl
          | ok r =>
            simp only
            cases r.1.revalidate a.slot svc r.2 wanted with
            | none => rfl
            | some selected =>
              simp only
              split <;> rfl

theorem fenceStep_withOps {ops : CutoverOps}
    (h : ∀ old, a.oldAssign = some old → ops.fenceOld old a.selected.facts.workerBoot =
      a.ops.fenceOld old a.selected.facts.workerBoot) :
    s.fenceStep rd (withOps ops a) = ((s.fenceStep rd a).1, withOps ops (s.fenceStep rd a).2) := by
  have hagree : fenceOutcome { withOps ops a with t0 := rd.now } =
      fenceOutcome { a with t0 := rd.now } := by
    cases hold : a.oldAssign with
    | none => simp only [fenceOutcome, withOps, hold]
    | some old =>
      simp only [fenceOutcome, withOps, hold]
      exact h old hold
  simp only [fenceStep, hagree]
  split_ifs <;> rfl

/-- A step asks of the effects only for the one it performs. -/
theorem attemptStep_withOps {ops : CutoverOps}
    (h : ∀ e ∈ performed (s.meets rd a), e.Agree a.ops ops) :
    s.attemptStep rd (withOps ops a) =
      ((s.attemptStep rd a).1, withOps ops (s.attemptStep rd a).2) := by
  have hstage : (withOps ops a).stage = a.stage := rfl
  unfold attemptStep
  rw [hstage]
  cases hst : a.stage with
  | validating => exact validateAttempt_withOps ops s a
  | saving m =>
    simp only [saveCheckpoint]
    split
    · rfl
    · split <;> rfl
  | testing m =>
    simp only [testBarrier]
    split <;> rfl
  | fencing =>
    refine fenceStep_withOps fun old hold => ?_
    exact h (.fenceOld old _) (performed_meets.mpr (Or.inl ⟨hst, old, hold, rfl⟩))
  | activating =>
    have hagree : ops.activate a.selected a.auth a.newAssign.authorityGeneration = _ :=
      h (.activate _ _ _) (performed_meets.mpr (Or.inr (Or.inl ⟨hst, rfl⟩)))
    simp only [activateStep, withOps, hagree]
    split <;> rfl
  | installing =>
    have hagree : ops.installRoute a.route s.gatewayBoot = _ :=
      h (.installRoute _ _) (performed_meets.mpr (Or.inr (Or.inr (Or.inl ⟨hst, rfl⟩))))
    simp only [installStep, withOps, hagree]
    split <;> rfl
  | verifying =>
    have hagree : (withOps ops a).ops.verify (withOps ops a).route (withOps ops a).auth = _ :=
      h (.verify a.route a.auth) (performed_meets.mpr (Or.inr (Or.inr (Or.inr ⟨hst, rfl⟩))))
    have hsup : s.superseded (withOps ops a) = s.superseded a := rfl
    simp only [verifyStep, hagree, hsup]
    split_ifs <;> rfl
  | _ => rfl

theorem attemptStep_ops (rd : Readings) (s : Fabric) (a : Attempt) :
    (s.attemptStep rd a).2.ops = a.ops := by
  by_cases hst : a.stage = .validating
  · rw [attemptStep_validating hst]
    exact (validateAttempt_old s a).1
  · exact (attemptStep_same rd s a hst).ops

/-- **The effects of its history are all that a call asks for**: with other effects that
have the same outcomes there, it does the same. -/
theorem thread_withOps {ops : CutoverOps} (ms : List Moment)
    (h : ∀ e ∈ performed (history a ms), e.Agree a.ops ops) :
    thread (withOps ops a) ms = withOps ops (thread a ms) := by
  induction ms generalizing a with
  | nil => rfl
  | cons m ms ih =>
    rw [history, performed_append] at h
    have hstep := attemptStep_withOps fun e he => h e (List.mem_append_left _ he)
    rw [thread_cons, hstep, thread_cons]
    refine ih fun e he => ?_
    rw [attemptStep_ops]
    exact h e (List.mem_append_right _ he)

/-! ## Whom the effects are for -/

/-- The attempt's replacement, and what it has made of it so far, are for the bearer. -/
structure BornBy (a : Attempt) (b : Bearer) : Prop where
  replacement : a.newAssign.bearer = b
  slot : a.slot = b.slot
  boot : a.selected.facts.workerBoot = b.workerBoot
  auth : a.stage.authorized = true → a.auth.bearer = b
  route : a.stage.composed = true → a.route.bearer = b

variable {b : Bearer}

theorem not_authorized_of_ended (h : Ended a) : a.stage.authorized = false := by
  rcases h with h | ⟨e, h⟩ <;> rw [h] <;> rfl

/-- The authorization of an attempt is the one it made. -/
theorem attemptStep_authorized (h : (s.attemptStep rd a).2.stage.authorized = true) :
    (a.stage.authorized = true ∧ (s.attemptStep rd a).2.auth = a.auth) ∨
      a.stage = .authorizing ∧ (s.attemptStep rd a).2 = s.authorizeStep a := by
  rcases attemptStep_next rd s a with hnext | hend
  · rw [hnext] at h
    rcases Stage.authorized_next h with hauth | hst
    · have hval : a.stage ≠ .validating := fun hv => by rw [hv] at hauth; cases hauth
      refine Or.inl ⟨hauth, (attemptStep_made rd s a hval).1.resolve_right fun hst => ?_⟩
      rw [hst] at hauth
      cases hauth
    · exact Or.inr ⟨hst, by simp only [attemptStep, hst]⟩
  · rw [not_authorized_of_ended hend] at h
    cases h

theorem BornBy.step (h : BornBy a b) (hst : a.stage ≠ .validating) :
    BornBy (s.attemptStep rd a).2 b := by
  have hsame := attemptStep_same rd s a hst
  refine ⟨?_, hsame.slot.trans h.slot, by rw [hsame.selected, h.boot], fun hauth => ?_,
    fun hroute => ?_⟩
  · rcases attemptStep_cases rd s a hst with hq | hf | hc
    · rw [hq.new, h.replacement]
    · rw [hf.new, h.replacement]
    · rw [hc.new]
      exact h.replacement
  · rcases attemptStep_authorized hauth with ⟨ha, heq⟩ | ⟨-, heq⟩
    · rw [heq, h.auth ha]
    -- the authorization names the selected boot, which is the replacement's
    · obtain rfl := h.replacement
      rw [heq]
      show Bearer.mk _ a.selected.facts.workerBoot _ _ _ = _
      rw [h.boot]
      rfl
  · rcases attemptStep_composed hroute with ⟨ha, heq⟩ | ⟨-, heq⟩
    · rw [heq, h.route ha]
    -- and so does the route entry, for the slot of the plan
    · obtain rfl := h.replacement
      rw [heq]
      show Bearer.mk a.slot a.selected.facts.workerBoot _ _ _ = _
      rw [h.slot, h.boot]
      rfl

/-- The effect of a step is for the bearer. -/
theorem BornBy.meets (h : BornBy a b) {e : Effect} (he : e ∈ performed (s.meets rd a)) :
    ∀ b' ∈ e.bearers, b' = b := by
  rcases performed_meets.mp he with ⟨-, old, -, rfl⟩ | ⟨hst, rfl⟩ | ⟨hst, rfl⟩ | ⟨hst, rfl⟩
  · intro b' hb
    cases hb
  · intro b' hb
    rw [List.mem_singleton.mp hb, h.auth (by rw [hst]; rfl)]
  · intro b' hb
    rw [List.mem_singleton.mp hb, h.route (by rw [hst]; rfl)]
  · intro b' hb
    rcases List.mem_cons.mp hb with rfl | hb
    · exact h.route (by rw [hst]; rfl)
    · rw [List.mem_singleton.mp hb, h.auth (by rw [hst]; rfl)]

/-- **All the effects of a call are for one bearer.** -/
theorem BornBy.performed (h : BornBy a b) (hst : a.stage ≠ .validating) (ms : List Moment) :
    ∀ e ∈ performed (history a ms), ∀ b' ∈ e.bearers, b' = b := by
  induction ms generalizing a with
  | nil =>
    intro e he
    cases he
  | cons m ms ih =>
    intro e he
    rw [history, performed_append] at he
    rcases List.mem_append.mp he with he | he
    · exact h.meets he
    · exact ih (h.step hst) (attemptStep_stage m.readings m.fabric a) e he

/-! ## The call as a whole -/

section Call
variable {plan : FailoverPlan} {ops : CutoverOps} {ms : List Moment}

theorem history_start (plan : FailoverPlan) (ops : CutoverOps) (s : Fabric) (rd : Readings)
    (ms : List Moment) : history { plan := plan, ops := ops } (⟨s, rd⟩ :: ms) =
      history (s.validateAttempt { plan := plan, ops := ops }).2 ms := by
  rw [history, attemptStep_validating rfl]
  rfl

/-- A plan that does not pass meets nothing. -/
theorem history_refused (h : s.accepts plan ops = false) :
    history { plan := plan, ops := ops } (⟨s, rd⟩ :: ms) = [] := by
  rw [history_start, history_ended (not_accepts h).1]

/-- A plan that passes begins the script, for the replacement that was issued. -/
theorem accepts_begins (h : s.accepts plan ops = true) :
    Issued (s.validateAttempt { plan := plan, ops := ops }).2 ∧
      (s.validateAttempt { plan := plan, ops := ops }).2.stage.ahead
          (s.validateAttempt { plan := plan, ops := ops }).2.oldAssign.isSome =
        cutoverScript (s.currentAssignment plan.slot).isSome ∧
      ∃ b, b.slot = plan.slot ∧ BornBy (s.validateAttempt { plan := plan, ops := ops }).2 b := by
  have hstage : (s.validateAttempt { plan := plan, ops := ops }).2.stage =
      .recording .intentOnly := eq_of_beq h
  have hacc := validateAttempt_accepted hstage
  have hcomposed := composeAssignment_eq_ok hacc.issued
  refine ⟨issued_of_inProgress (by rw [hstage]; rfl), ?_,
    (s.validateAttempt { plan := plan, ops := ops }).2.newAssign.bearer, hcomposed.slot, rfl, ?_,
    hcomposed.workerBoot.symm, fun hauth => ?_, fun hroute => ?_⟩
  · rw [hstage, hacc.old]
    rfl
  · rw [Attempt.slot, hacc.plan]
    exact hcomposed.slot.symm
  · rw [hstage] at hauth
    cases hauth
  · rw [hstage] at hroute
    cases hroute

/-- What a run of the script says about the history it is read off. -/
theorem effects_of_ran {old : Bool} {log : List (Encounter × Bool)}
    (h : Script.Ran (cutoverScript old) (reached log)) :
    (performed log).map Effect.kind <+: effectOrder old ∧
      (∀ before x after, log = before ++ (x, false) :: after → after = []) ∧
      ((performed log).map Effect.kind = effectOrder old ∧ (∀ x ∈ log, x.2 = true) ∨
        ∃ before x, log = before ++ [(x, false)]) := by
  refine ⟨?_, fun before x after heq => ?_, ?_⟩
  · rw [performed_kinds, ← cutoverScript_kinds]
    exact h.isPrefix.filterMap _
  · have hreached : reached log = reached before ++ (x.point, false) :: reached after := by
      rw [heq, reached_append]
      rfl
    exact List.map_eq_nil_iff.mp (h.refused_last hreached)
  · rcases h.complete_or_refused with ⟨hall, hpassed⟩ | ⟨before, p, heq⟩
    · refine Or.inl ⟨?_, fun x hx => hpassed _ (List.mem_map_of_mem hx)⟩
      rw [performed_kinds, hall, cutoverScript_kinds]
    · obtain ⟨log₁, log₂, rfl, -, hlast⟩ := List.map_eq_append_iff.mp heq
      obtain ⟨x, rest, rfl, hx, hrest⟩ := List.map_eq_cons_iff.mp hlast
      obtain rfl := List.map_eq_nil_iff.mp hrest
      refine Or.inr ⟨log₁, x.1, ?_⟩
      have hfalse : x.2 = false := congrArg Prod.snd hx
      rw [← hfalse]

/-- **The effects of a cutover happen in order, and only as far as they may.**  Whatever the
fabric, the plan, the barrier, the outcomes of the effects and what other calls do
meanwhile, a call whose plan does not pass its validation performs no effect.  One whose
plan passes performs a first part of `fence_old` (if there is an old assignment),
`activate`, `install_route` and `verify`, none of them twice: nothing follows an
unsuccessful outcome, a reached barrier or a checkpoint that could not be saved, and
nothing else cuts the effects short.  The authorizations and the route entries among their
arguments are all for one slot, boot, assignment and route generation.  The call completes
exactly if the plan passed, all effects were performed and succeeded, every checkpoint was
saved, no barrier was reached and no newer promotion had superseded it. -/
theorem effects_in_order (s : Fabric) (rd : Readings) (plan : FailoverPlan) (ops : CutoverOps)
    (ms : List Moment) (hend : Ended (thread { plan := plan, ops := ops } (⟨s, rd⟩ :: ms))) :
    let log := history { plan := plan, ops := ops } (⟨s, rd⟩ :: ms)
    let order := effectOrder (s.currentAssignment plan.slot).isSome
    (s.accepts plan ops = false → performed log = []) ∧
      (s.accepts plan ops = true →
        (performed log).map Effect.kind <+: order ∧ ((performed log).map Effect.kind).Nodup ∧
        (∀ before x after, log = before ++ (x, false) :: after → after = []) ∧
        ((performed log).map Effect.kind = order ∨ ∃ before x, log = before ++ [(x, false)])) ∧
      (∃ b : Bearer, b.slot = plan.slot ∧ ∀ e ∈ performed log, ∀ b' ∈ e.bearers, b' = b) ∧
      ((thread { plan := plan, ops := ops } (⟨s, rd⟩ :: ms)).Completed ↔
        s.accepts plan ops = true ∧ (performed log).map Effect.kind = order ∧
          ∀ x ∈ log, x.2 = true) := by
  intro log order
  cases haccepts : s.accepts plan ops with
  | false =>
    have hlog : log = [] := history_refused haccepts
    rw [hlog]
    refine ⟨fun _ => rfl, fun h => (by cases h),
      ⟨⟨plan.slot, .null, .null, {}, {}⟩, rfl, fun e he => (by cases he)⟩, ?_⟩
    refine iff_of_false (fun hc => ?_) fun h => (by cases h.1)
    rw [thread_start, thread_ended (not_accepts haccepts).1] at hc
    exact (not_accepts haccepts).2 hc
  | true =>
    obtain ⟨hissued, hahead, b, hslot, hborn⟩ := accepts_begins haccepts
    have hlog : log = history (s.validateAttempt { plan := plan, ops := ops }).2 ms :=
      history_start plan ops s rd ms
    rw [thread_start] at hend ⊢
    obtain ⟨hran, hiff⟩ := history_ran hissued ms hend
    rw [hahead, ← hlog] at hran
    rw [← hlog] at hiff
    obtain ⟨hfirst, hcut, hwhole⟩ := effects_of_ran hran
    refine ⟨fun h => (by cases h), fun _ => ⟨hfirst, hfirst.sublist.nodup (effectOrder_nodup _),
      hcut, hwhole.imp_left And.left⟩, ⟨b, hslot, ?_⟩, ?_⟩
    · rw [hlog]
      exact hborn.performed hissued.1 ms
    · rw [hiff]
      refine ⟨fun hall => ⟨rfl, ?_, hall⟩, fun h => h.2.2⟩
      rcases hwhole with hwhole | ⟨before, x, heq⟩
      · exact hwhole.1
      · have hx : (x, false) ∈ log := by
          rw [heq]
          exact List.mem_append_right _ (List.mem_singleton_self _)
        cases hall _ hx

theorem effects_in_order_reference :
    let s := Reference.after Reference.setup
    let plan := Reference.planOf s
    let start : Attempt := { plan := plan, ops := Reference.ops }
    let log := history start (moments (fun _ => {}) 19 s start)
    (thread start (moments (fun _ => {}) 19 s start)).Completed ∧
      (performed log).map Effect.kind = [.fenceOld, .activate, .installRoute, .verify] ∧
      ∀ x ∈ log, x.2 = true := by
  intro s plan start log
  have hcompleted : (thread start (moments (fun _ => {}) 19 s start)).Completed := by
    decide +kernel
  have horder := (effects_in_order s {} plan Reference.ops _ (Or.inl hcompleted.1)).2.2.2.mp
    hcompleted
  have hold : (s.currentAssignment plan.slot).isSome = true := by decide +kernel
  rw [hold] at horder
  exact ⟨hcompleted, horder.2⟩

end Call

end Fabric

namespace Reference

/-- The reference deployment with a checkpoint path, and evidence that cannot be saved: its
confidence is not a number. -/
def unsavable : List Op :=
  setup ++ [.publishFailure { eventId := ⟨1⟩, confidence := ⟨0x7FF8000000000000⟩ },
    .setCheckpointPath (text "checkpoint")]

end Reference

namespace Fabric

/-- A checkpoint that cannot be saved cuts the effects short: the plan has passed, no
outcome was unsuccessful and no barrier was reached, and nothing was performed. -/
theorem unsaved_checkpoint_cuts :
    let s := Reference.after Reference.unsavable
    let plan := Reference.planOf s
    let start : Attempt := { plan := plan, ops := Reference.ops }
    let ms := moments (fun _ => {}) 19 s start
    s.accepts plan Reference.ops = true ∧ (∃ e, (thread start ms).stage = .threw e) ∧
      history start ms = [(.save .intentOnly, false)] ∧ performed (history start ms) = [] := by
  refine ⟨by decide +kernel, ⟨.runtimeError "non-finite value in persistence", by decide +kernel⟩,
    by decide +kernel, by decide +kernel⟩

end Fabric

end FailoverFabric
