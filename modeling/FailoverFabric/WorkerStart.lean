import FailoverFabric.Checkpoint
import FailoverFabric.Protocol.Common

/-! # The start of a worker

`main` of `worker_main.cpp`, up to the first registration.  A worker with a state path
restores its checkpoint, and publishes its readiness with what it has restored.  What
was parsed is taken over before it is known whether the checkpoint is intact and of the
worker's own session; only the flags that go with it say so.

`bad_checkpoint_iff` says which bad checkpoints leave no trace.  What another one has left
the worker saves as its own, and from then on it passes for that (`adopted_passes`).
-/
namespace FailoverFabric
namespace Worker
open Codec Protocol

/-- The command line, as far as the start reads it. -/
structure Options where
  target : UInt64 := 1
  boot : UInt64 := 1
  statePath : Text := []
  session : UInt64 := 0
  deriving DecidableEq

def Options.stateful (o : Options) : Bool := !o.statePath.isEmpty

def defaultModelKey : Text := text "ref-det-sequence-v1"

/-- What a worker starts with. -/
structure WorkerState where
  committedSeq : UInt64 := 0
  modelKey : Text := defaultModelKey
  restored : Bool := false
  deriving DecidableEq

/-- What is taken over from a checkpoint that was loaded. -/
def adopt (r : Restored) : WorkerState where
  committedSeq := r.seq
  modelKey := if r.model.isEmpty then defaultModelKey else r.model
  restored := r.integrityOk && r.correctSession

/-- The start, with the content of the file at the state path if there is one.  There is
no start to speak of when loading reads outside of the file. -/
def start (o : Options) (file : Option (List UInt8)) : Option WorkerState :=
  if o.stateful then
    match file with
    | none => some {}
    | some blob =>
      match loadCheckpoint (some blob) o.session with
      | .returned true r => some (adopt r)
      | .returned false _ => some {}
      | .outOfBounds => none
  else some { restored := true }

/-- The readiness that is published. -/
def readiness (o : Options) (w : WorkerState) : List Field :=
  [putU64 Fid.target o.target, putU64 Fid.boot o.boot, putBool Fid.ready true,
    putStr Fid.model w.modelKey, putStr Fid.abi (text "ff-ref-v1"),
    putF64 Fid.capacity ⟨0x4000000000000000⟩]

/-- The state that a stateful worker publishes along with it. -/
def candidateState (w : WorkerState) : List Field :=
  [putBool Fid.stateAvail w.restored, putU64 Fid.checkpointGen (w.committedSeq + 1),
    putU64 Fid.committedSeq w.committedSeq, putBool Fid.sessionOk w.restored,
    putBool Fid.tenantOk true, putBool Fid.modelOk true, putBool Fid.formatOk w.restored,
    putBool Fid.integrityOk w.restored, putBool Fid.replaySafe true]

/-- `send_registration`. -/
def registration (o : Options) (w : WorkerState) : List Field :=
  readiness o w ++ if o.stateful then candidateState w else []

/-- The message of the registration, unless a field is too large for it. -/
def sendRegistration (o : Options) (w : WorkerState) : Except Error Frame := do
  let payload ← finish (registration o w)
  return ⟨.publishReadiness, 2, 0, payload⟩

/-! ## Which blobs are accepted -/

/-- The blob begins as a checkpoint does, and ends where its name's length says. -/
structure Accepted (blob : List UInt8) : Prop where
  magic : blob.take 5 = checkpointMagic
  length : 25 + modelLength blob + 4 = blob.length

theorem loadCheckpoint_true_iff {blob : List UInt8} {wantSession : UInt64} {r : Restored} :
    loadCheckpoint (some blob) wantSession = .returned true r ↔
      Accepted blob ∧ r = parsed blob wantSession := by
  constructor
  · intro h
    by_cases htests : blob.length < 20 ∨ blob.take 5 ≠ checkpointMagic
    · rw [loadCheckpoint_refused wantSession htests] at h
      cases h
    obtain ⟨hlong, hmagic⟩ := not_or.mp htests
    have hmagic : blob.take 5 = checkpointMagic := not_not.mp hmagic
    by_cases hheader : blob.length < 25
    · rw [loadCheckpoint_admitted wantSession (Nat.not_lt.mp hlong) hmagic,
        readCheckpoint_short hheader] at h
      cases h
    rw [loadCheckpoint_long wantSession (Nat.not_lt.mp hheader) hmagic] at h
    by_cases hfits : blob.length < 25 + modelLength blob + 4
    · rw [if_pos hfits] at h
      cases h
    · rw [if_neg hfits, Outcome.returned.injEq, beq_iff_eq] at h
      exact ⟨⟨hmagic, h.1⟩, h.2.symm⟩
  · rintro ⟨⟨hmagic, hlength⟩, rfl⟩
    rw [loadCheckpoint_long wantSession (by omega) hmagic, if_neg (by omega),
      beq_iff_eq.mpr hlength]

/-! ## Bad checkpoints -/

/-- The checkpoint is refused, or it is loaded but not intact or of another session. -/
def BadCheckpoint (o : Options) (blob : List UInt8) : Prop :=
  ∃ ok r, loadCheckpoint (some blob) o.session = .returned ok r ∧
    (ok = false ∨ r.integrityOk = false ∨ r.correctSession = false)

/-- The worker starts and registers as if there were no checkpoint. -/
def LeavesNoTrace (o : Options) (blob : List UInt8) : Prop :=
  ∃ w w₀, start o (some blob) = some w ∧ start o none = some w₀ ∧
    w.committedSeq = w₀.committedSeq ∧ w.modelKey = w₀.modelKey ∧
    sendRegistration o w = sendRegistration o w₀

/-- The blob is not a whole checkpoint, or it has the sequence of a worker that has
done nothing and no other model than it. -/
def Unremarkable (blob : List UInt8) : Prop :=
  ¬ Accepted blob ∨ (getLE blob 13 8 = 0 ∧
    (modelLength blob = 0 ∨ slice blob 25 (modelLength blob) = defaultModelKey))

/-- What a bad checkpoint that was loaded is taken over as. -/
theorem start_of_accepted {o : Options} {blob : List UInt8} (hstateful : o.stateful = true)
    (h : Accepted blob) : start o (some blob) = some (adopt (parsed blob o.session)) := by
  simp only [start, if_pos hstateful, loadCheckpoint_true_iff.mpr ⟨h, rfl⟩]

theorem adopt_modelKey_iff (r : Restored) :
    (adopt r).modelKey = defaultModelKey ↔ r.model = [] ∨ r.model = defaultModelKey := by
  rw [adopt]
  cases hmodel : r.model with
  | nil => exact iff_of_true rfl (.inl rfl)
  | cons c rest => exact (or_iff_right (List.cons_ne_nil c rest)).symm

/-- What was parsed is what a worker starts with anyway. -/
theorem adopt_parsed_iff {blob : List UInt8} {session : UInt64} (h : Accepted blob) :
    ((adopt (parsed blob session)).committedSeq = 0 ∧
      (adopt (parsed blob session)).modelKey = defaultModelKey) ↔
      getLE blob 13 8 = 0 ∧
        (modelLength blob = 0 ∨ slice blob 25 (modelLength blob) = defaultModelKey) := by
  have hlength := h.length
  have hseq : UInt64.ofNat (getLE blob 13 8) = 0 ↔ getLE blob 13 8 = 0 := by
    rw [← UInt64.toNat_inj, UInt64.toNat_ofNat_of_lt' (getLE_lt (by omega))]
    rfl
  have hname : slice blob 25 (modelLength blob) = [] ↔ modelLength blob = 0 := by
    rw [← List.length_eq_zero_iff, length_slice (by omega)]
  have hmodel : (adopt (parsed blob session)).modelKey = defaultModelKey ↔
      modelLength blob = 0 ∨ slice blob 25 (modelLength blob) = defaultModelKey := by
    rw [← hname]
    exact adopt_modelKey_iff (parsed blob session)
  exact and_congr hseq hmodel

/-- **Which bad checkpoints leave no trace.**  For every file whose loading fails, or
finds it not intact or of another session, the worker starts and registers as without a
file if and only if the file is not a whole checkpoint or says nothing of its own. -/
theorem bad_checkpoint_iff {o : Options} {blob : List UInt8} (hbad : BadCheckpoint o blob) :
    LeavesNoTrace o blob ↔ o.stateful = false ∨ Unremarkable blob := by
  by_cases hstateful : o.stateful = true
  swap
  · have hnone : ∀ file, start o file = some { restored := true } := fun file => if_neg hstateful
    exact iff_of_true ⟨_, _, hnone _, hnone _, rfl, rfl, rfl⟩
      (.inl (Bool.not_eq_true _ ▸ hstateful))
  have hnone : start o none = some {} := if_pos hstateful
  have hstateless : ¬ o.stateful = false := by simp [hstateful]
  rw [or_iff_right hstateless]
  obtain ⟨ok, r, hload, hok⟩ := hbad
  by_cases haccepted : Accepted blob
  · -- it is loaded, so the flags are what is wrong with it
    obtain ⟨rfl, rfl⟩ : true = ok ∧ parsed blob o.session = r :=
      Outcome.returned.inj ((loadCheckpoint_true_iff.mpr ⟨haccepted, rfl⟩).symm.trans hload)
    have hrestored : (adopt (parsed blob o.session)).restored = false := by
      rcases hok with hok | hintact | hsession
      · cases hok
      · exact Bool.and_eq_false_iff.mpr (.inl hintact)
      · exact Bool.and_eq_false_iff.mpr (.inr hsession)
    rw [Unremarkable, or_iff_right (not_not.mpr haccepted), ← adopt_parsed_iff haccepted]
    constructor
    · rintro ⟨w, w₀, hw, hw₀, hseq, hmodel, -⟩
      rw [start_of_accepted hstateful haccepted, Option.some.injEq] at hw
      rw [hnone, Option.some.injEq] at hw₀
      subst hw hw₀
      exact ⟨hseq, hmodel⟩
    · rintro ⟨hseq, hmodel⟩
      have hsame : adopt (parsed blob o.session) = {} := by
        cases hw : adopt (parsed blob o.session) with
        | mk seq model restored =>
          rw [hw] at hseq hmodel hrestored
          simp only at hseq hmodel hrestored
          rw [hseq, hmodel, hrestored]
      exact ⟨_, _, start_of_accepted hstateful haccepted, hnone, hseq, hmodel, by rw [hsame]⟩
  · have hrefused : ok = false := by
      by_contra htrue
      rw [Bool.not_eq_false] at htrue
      subst htrue
      exact haccepted (loadCheckpoint_true_iff.mp hload).1
    subst hrefused
    have hstart : start o (some blob) = some {} := by
      simp only [start, if_pos hstateful, hload]
    exact iff_of_true ⟨_, _, hstart, hnone, rfl, rfl, rfl⟩ (.inl haccepted)

/-- A worker of session 8 with a checkpoint of session 9, which is intact. -/
def foreignSession : Options := { statePath := text "s.ckpt", session := 8 }

/-- The checkpoint of session 9, of a worker that had committed three requests. -/
def foreignCheckpoint : List UInt8 := saveCheckpoint 9 3 defaultModelKey

theorem foreignCheckpoint_loaded :
    loadCheckpoint (some foreignCheckpoint) foreignSession.session =
      .returned true { seq := 3, model := defaultModelKey, integrityOk := true, off := 48 } :=
  loadCheckpoint_saveCheckpoint 9 3 8 (by decide)

theorem foreignCheckpoint_bad : BadCheckpoint foreignSession foreignCheckpoint :=
  ⟨true, _, foreignCheckpoint_loaded, .inr (.inr rfl)⟩

/-- A file that is no checkpoint leaves none. -/
theorem bad_checkpoint_unreadable :
    LeavesNoTrace foreignSession (text "not a checkpoint file") := by
  have hbad : BadCheckpoint foreignSession (text "not a checkpoint file") :=
    ⟨false, {}, by decide, .inl rfl⟩
  exact (bad_checkpoint_iff hbad).mpr (.inr (.inl fun h => absurd h.magic (by decide)))

/-- **A foreign checkpoint leaves a trace**: the worker has committed three requests, and
publishes the fourth generation of a checkpoint, where it has none. -/
theorem bad_checkpoint_adopted :
    BadCheckpoint foreignSession foreignCheckpoint ∧
    start foreignSession (some foreignCheckpoint) = some { committedSeq := 3 } ∧
    ¬ ∀ o blob, BadCheckpoint o blob → LeavesNoTrace o blob := by
  have hstart : start foreignSession (some foreignCheckpoint) = some { committedSeq := 3 } := by
    simp only [start, foreignCheckpoint_loaded]
    rfl
  refine ⟨foreignCheckpoint_bad, hstart, fun h => ?_⟩
  obtain ⟨w, w₀, hw, hw₀, hseq, -⟩ := h _ _ foreignCheckpoint_bad
  rw [hstart, Option.some.injEq] at hw
  have hnone : start foreignSession none = some {} := rfl
  rw [hnone, Option.some.injEq] at hw₀
  subst hw hw₀
  exact absurd hseq (by decide)

/-- What a bad checkpoint has left is saved as the worker's own, and passes for it from
then on. -/
theorem adopted_passes {o : Options} {w : WorkerState} (hmodel : w.modelKey.length < 2 ^ 32)
    (hkey : w.modelKey ≠ []) (hstateful : o.stateful = true) :
    start o (some (saveCheckpoint o.session w.committedSeq w.modelKey)) =
      some { w with restored := true } := by
  simp only [start, if_pos hstateful, loadCheckpoint_saveCheckpoint _ _ _ hmodel, adopt,
    List.isEmpty_eq_false_iff.mpr hkey, beq_self_eq_true]
  rfl

end Worker
end FailoverFabric
