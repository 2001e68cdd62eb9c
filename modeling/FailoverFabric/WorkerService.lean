import FailoverFabric.WorkerStart
import FailoverFabric.Gateway
import FailoverFabric.Protocol.Transport
import FailoverFabric.Library.FileSystem
import FailoverFabric.Library.Reachability

/-! # A worker in service

`main` of `worker_main.cpp` once the worker has registered.  A control thread takes
`ACTIVATE_TARGET` and `FENCE_ASSIGNMENT`; each request has a thread of its own, which
tests once whether the worker is active and the request is for its boot, and then does
the work.  Three inputs are no work: they sever the control connection, withhold the
answer, and save the checkpoint.

A host is the process and the files of the machine it runs on, of which it uses the one at
its state path.  The process may be killed at any point, also between the truncation of that
file and the writing of it, and a new one started, with the same state path or another.

`fenced_work_bounded` says what a worker still does after it was fenced, and
`answers_authentic` what its answers rest on.
-/
namespace FailoverFabric
namespace Worker
open Codec Protocol

/-! ## The process -/

/-- The command line, with the two flags of the control thread. -/
structure ServiceOptions extends Options where
  withholdActivate : Bool := false
  reconnect : Bool := false
  deriving DecidableEq

/-- What a request's thread reads of its frame. -/
structure WorkRequest where
  a : UInt64 := 0
  b : UInt64 := 0
  boot : UInt64 := 0
  msgId : UInt32 := 0
  epoch : UInt64 := 0
  deriving DecidableEq

/-- A connection that ends before its frame is read as a request of zeros. -/
def readWork : Option Frame → Except Error WorkRequest
  | none => .ok {}
  | some f => do
    let r ← parse f.payload
    let a ← Gateway.optional r Fid.inputA 0
    let b ← Gateway.optional r Fid.inputB 0
    let boot ← Gateway.optional r Fid.boot 0
    return ⟨a, b, boot, f.msgId, f.epoch⟩

/-- What a checkpoint is made of. -/
structure Checkpoint where
  session : UInt64
  seq : UInt64
  model : Text
  deriving DecidableEq

def Checkpoint.bytes (c : Checkpoint) : List UInt8 := saveCheckpoint c.session c.seq c.model

/-- How far the thread of a request has come.  `saving` is between the truncation of
the state file and the writing of it. -/
inductive WorkStage
  | arrived
  | admitted
  | saving (c : Checkpoint)
  | closed
  | answered (fields : List Field)
  deriving DecidableEq

structure Work where
  request : WorkRequest
  stage : WorkStage := .arrived
  deriving DecidableEq

/-- The control connection.  Once it has ended it does not come back. -/
inductive Control
  | connected
  | lost
  | ended
  deriving DecidableEq

structure Process where
  options : ServiceOptions
  state : WorkerState
  active : Bool := false
  activatedOnce : Bool := false
  control : Control := .connected
  threads : List Work := []
  deriving DecidableEq

/-! ## Messages of the control connection -/

namespace Process

/-- The acknowledgment of an activation. -/
def activated (f : Frame) : Frame :=
  ⟨.activateResult, f.msgId, f.epoch, payloadOf [putBool Fid.ok true]⟩

/-- The next activation is left unanswered. -/
def withholds (p : Process) : Bool := p.options.withholdActivate && !p.activatedOnce

/-- A message of the coordinator, and the answer to it.  The first activation may be
left unanswered. -/
def onControl (p : Process) (f : Frame) : Process × Option Frame :=
  match f.type with
  | .activateTarget =>
    if p.withholds then
      ({ p with active := true, activatedOnce := true }, none)
    else ({ p with active := true }, some (activated f))
  | .fenceAssignment => ({ p with active := false }, none)
  | _ => (p, none)

/-- The control connection is gone.  Without `--reconnect` the thread ends with it. -/
def loseControl (p : Process) : Process :=
  match p.control with
  | .connected => { p with control := if p.options.reconnect then .lost else .ended }
  | _ => p

/-! ## Requests -/

def setStage (p : Process) (i : Nat) (w : Work) (stage : WorkStage) : Process :=
  { p with threads := p.threads.set i { w with stage := stage } }

/-- The answer to a request that is not admitted. -/
def refusal : List Field :=
  [putBool Fid.ok false, putStr Fid.detail (text "not active or stale boot")]

/-- The answer to a request whose work is done. -/
def result (a b : UInt64) : List Field :=
  [putBool Fid.ok true, putBytes Fid.payload (referenceText a b)]

def admits (p : Process) (q : WorkRequest) : Bool := p.active && q.boot == p.options.boot

/-- The test, once for each request. -/
def test (p : Process) (i : Nat) : Process :=
  match p.threads[i]? with
  | some w =>
    match w.stage with
    | .arrived => p.setStage i w (if p.admits w.request then .admitted else .answered refusal)
    | _ => p
  | none => p

end Process

def severInput : UInt64 := 0xDBAD

def withholdInput : UInt64 := 0xBEEF

def checkpointInput : UInt64 := 0xC0FFEE

/-- The input is work, and counts as committed. -/
def WorkRequest.counts (q : WorkRequest) : Bool :=
  q.a != severInput && q.a != withholdInput && q.a != checkpointInput

/-- The process, and the files it may find. -/
structure Host where
  process : Option Process := none
  files : FileSystem.Disk Text UInt8 := fun _ => none

namespace Process

/-- The checkpoint that is saved. -/
def checkpoint (p : Process) : Checkpoint :=
  ⟨p.options.session, p.state.committedSeq, p.state.modelKey⟩

/-- The thread, if it is past the test and has not gone on. -/
def admittedAt (p : Process) (i : Nat) : Option Work :=
  (p.threads[i]?).filter fun w => w.stage == .admitted

/-- The thread, if it is about to write a checkpoint. -/
def savingAt (p : Process) (i : Nat) : Option (Work × Checkpoint) :=
  (p.threads[i]?).bind fun w =>
    match w.stage with
    | .saving c => some (w, c)
    | _ => none

/-- The answer to a request that saves the checkpoint. -/
def checkpointResult (q : WorkRequest) : List Field := result (q.a &&& 0xFFFFFFFFFFFF) q.b

/-- What an admitted request does.  `opened` says whether the state file could be opened,
which truncates it. -/
def perform (p : Process) (files : FileSystem.Disk Text UInt8) (i : Nat) (opened : Bool) (w : Work) :
    Host :=
  let q := w.request
  if q.a = severInput then ⟨some (p.loseControl.setStage i w (.answered [putBool Fid.ok true])), files⟩
  else if q.a = withholdInput then ⟨some (p.setStage i w .closed), files⟩
  else if q.a = checkpointInput then
    if p.options.stateful && opened then
      ⟨some (p.setStage i w (.saving p.checkpoint)),
        Function.update files p.options.statePath (some [])⟩
    else ⟨some (p.setStage i w (.answered (checkpointResult q))), files⟩
  else
    let counted := { p with state.committedSeq := p.state.committedSeq + 1 }
    ⟨some (counted.setStage i w (.answered (result q.a q.b))), files⟩

end Process

/-- A file after bytes were written at its beginning. -/
def overwrite (file bytes : List UInt8) : List UInt8 := bytes ++ file.drop bytes.length

/-- The files after bytes were written at the beginning of the state file. -/
def Process.overwritten (p : Process) (files : FileSystem.Disk Text UInt8) (bytes : List UInt8) :
    FileSystem.Disk Text UInt8 :=
  Function.update files p.options.statePath
    (some (overwrite ((files p.options.statePath).getD []) bytes))

/-! ## The host -/

/-- What can happen on a host.  `opened` says whether the file could be opened that the event
writes, if it writes one. -/
inductive HostEvent
  | control (f : Frame) (opened : Bool := true)
  | controlLost
  | reconnected
  | givenUp
  | request (f : Option Frame)
  | test (i : Nat)
  | perform (i : Nat) (opened : Bool)
  /-- The write of a save: as many bytes as the system took. -/
  | write (i : Nat) (n : Nat)
  | kill
  | start (o : ServiceOptions)

/-- Where it is noted that an activation was not acknowledged. -/
def Options.withheldPath (o : Options) : Text :=
  text "activate_withheld_" ++ decimal o.target.toNat ++ text ".out"

/-- Where a result is noted that was not sent. -/
def Options.ambiguousPath (o : Options) : Text :=
  text "ambig_" ++ decimal o.target.toNat ++ text ".out"

/-- The file that an event leaves behind as a note, with its content. -/
def Process.marks (p : Process) : HostEvent → Option (Text × List UInt8)
  | .control f opened =>
    if p.control = .connected ∧ f.type = .activateTarget ∧ p.withholds ∧ opened then
      some (p.options.withheldPath, [])
    else none
  | .perform i opened =>
    match p.admittedAt i with
    | some w =>
      if w.request.a = withholdInput ∧ opened then
        some (p.options.ambiguousPath,
          referenceText (w.request.a &&& 0xFFFFFFFFFFFF) w.request.b ++ [10])
      else none
    | none => none
  | _ => none

namespace Host

/-- A connection with a request.  What its thread cannot read ends the process. -/
def request (h : Host) (p : Process) (f : Option Frame) : Host :=
  match readWork f with
  | .ok q => { h with process := some { p with threads := p.threads ++ [{ request := q }] } }
  | .error _ => { h with process := none }

def perform (h : Host) (p : Process) (i : Nat) (opened : Bool) : Host :=
  match p.admittedAt i with
  | some w => p.perform h.files i opened w
  | none => h

def write (h : Host) (p : Process) (i n : Nat) : Host :=
  match p.savingAt i with
  | some (w, c) =>
    ⟨some (p.setStage i w (.answered (Process.checkpointResult w.request))),
      p.overwritten h.files (c.bytes.take n)⟩
  | none => h

/-- What happens while the process runs. -/
def running (h : Host) (p : Process) : HostEvent → Host
  | .control f _ => if p.control = .connected then { h with process := some (p.onControl f).1 } else h
  | .controlLost => { h with process := some p.loseControl }
  | .reconnected =>
    if p.control = .lost then { h with process := some { p with control := .connected } } else h
  | .givenUp => if p.control = .lost then { h with process := some { p with control := .ended } } else h
  | .request f => h.request p f
  | .test i => { h with process := some (p.test i) }
  | .perform i opened => h.perform p i opened
  | .write i n => h.write p i n
  | .kill => { h with process := none }
  | .start _ => h

/-- A note is left behind. -/
def marked (h : Host) (mark : Option (Text × List UInt8)) : Host :=
  match mark with
  | some (path, content) => { h with files := Function.update h.files path (some content) }
  | none => h

def step (h : Host) (e : HostEvent) : Host :=
  match h.process with
  | some p => (h.running p e).marked (p.marks e)
  | none =>
    match e with
    | .start o =>
      { h with
        process := (Worker.start o.toOptions (h.files o.statePath)).map fun w =>
          { options := o, state := w } }
    | _ => h

end Host

/-- The system of all runs on a host that begins without files. -/
def hosting : Transition.System Host HostEvent where
  initial h := h = {}
  step := Host.step

@[simp] theorem Host.marked_process (h : Host) (mark : Option (Text × List UInt8)) :
    (h.marked mark).process = h.process := by
  cases mark <;> rfl

/-! ## What an event does -/

/-- The message activates the worker. -/
def HostEvent.activates : HostEvent → Bool
  | .control f _ => f.type == .activateTarget
  | _ => false

/-- The event performs an admitted request. -/
def Process.performs (p : Process) : HostEvent → Bool
  | .perform i _ => (p.admittedAt i).isSome
  | _ => false

/-- The event writes a checkpoint. -/
def Process.writes (p : Process) : HostEvent → Bool
  | .write i _ => (p.savingAt i).isSome
  | _ => false

/-- The event is not the work of a thread. -/
structure Quiet (p : Process) (e : HostEvent) : Prop where
  performs : p.performs e = false
  writes : p.writes e = false

/-- The effect of an event on a running process. -/
inductive Effect (h : Host) (p : Process) : HostEvent → Host → Prop
  | kept {e : HostEvent} {p' : Process} (quiet : Quiet p e)
      (threads : p'.threads = p.threads) (state : p'.state = p.state)
      (options : p'.options = p.options)
      (active : p'.active = true → p.active = true ∨ e.activates = true) :
      Effect h p e { h with process := some p' }
  | ended {e : HostEvent} (quiet : Quiet p e) : Effect h p e { h with process := none }
  | arrived {e : HostEvent} (quiet : Quiet p e) (q : WorkRequest) :
      Effect h p e { h with process := some { p with threads := p.threads ++ [{ request := q }] } }
  | tested {i : Nat} {w : Work} (hw : p.threads[i]? = some w) (stage : w.stage = .arrived) :
      Effect h p (.test i) { h with
        process := some (p.setStage i w
          (if p.admits w.request then .admitted else .answered Process.refusal)) }
  | performed {i : Nat} {w : Work} {opened : Bool} (hw : p.admittedAt i = some w) :
      Effect h p (.perform i opened) (p.perform h.files i opened w)
  | wrote {i n : Nat} {w : Work} {c : Checkpoint} (hw : p.savingAt i = some (w, c)) :
      Effect h p (.write i n)
        ⟨some (p.setStage i w (.answered (Process.checkpointResult w.request))),
          p.overwritten h.files (c.bytes.take n)⟩

theorem admittedAt_eq_some {p : Process} {i : Nat} {w : Work} :
    p.admittedAt i = some w ↔ p.threads[i]? = some w ∧ w.stage = .admitted := by
  rw [Process.admittedAt, Option.filter_eq_some_iff, beq_iff_eq]

theorem savingAt_eq_some {p : Process} {i : Nat} {w : Work} {c : Checkpoint} :
    p.savingAt i = some (w, c) ↔ p.threads[i]? = some w ∧ w.stage = .saving c := by
  rw [Process.savingAt, Option.bind_eq_some_iff]
  constructor
  · rintro ⟨v, hv, h⟩
    split at h
    · rename_i hstage
      cases h
      exact ⟨hv, hstage⟩
    · cases h
  · rintro ⟨hw, hstage⟩
    exact ⟨w, hw, by rw [hstage]⟩

theorem Effect.same {h : Host} {p : Process} (hp : h.process = some p) {e : HostEvent}
    (hquiet : Quiet p e) : Effect h p e h := by
  have hkept : Effect h p e { h with process := some p } := .kept hquiet rfl rfl rfl Or.inl
  rwa [← hp] at hkept

theorem onControl_effect (h : Host) (p : Process) (f : Frame) (opened : Bool) :
    Effect h p (.control f opened) { h with process := some (p.onControl f).1 } := by
  unfold Process.onControl
  split
  · rename_i htype
    have hact : (HostEvent.control f opened).activates = true := beq_iff_eq.mpr htype
    split <;> exact .kept ⟨rfl, rfl⟩ rfl rfl rfl fun _ => .inr hact
  · exact .kept ⟨rfl, rfl⟩ rfl rfl rfl fun hact => by cases hact
  · exact .kept ⟨rfl, rfl⟩ rfl rfl rfl Or.inl

theorem loseControl_kept (p : Process) :
    p.loseControl.threads = p.threads ∧ p.loseControl.state = p.state ∧
      p.loseControl.options = p.options ∧ p.loseControl.active = p.active := by
  unfold Process.loseControl
  split <;> exact ⟨rfl, rfl, rfl, rfl⟩

/-- **An event, inverted.** -/
theorem running_effect {h : Host} {p : Process} (hp : h.process = some p) (e : HostEvent) :
    Effect h p e (h.running p e) := by
  cases e with
  | control f opened =>
    unfold Host.running
    simp only
    split
    · exact onControl_effect h p f opened
    · exact .same hp ⟨rfl, rfl⟩
  | controlLost =>
    obtain ⟨hthreads, hstate, hoptions, hactive⟩ := loseControl_kept p
    exact .kept ⟨rfl, rfl⟩ hthreads hstate hoptions fun hact => .inl (hactive ▸ hact)
  | reconnected =>
    unfold Host.running
    simp only
    split
    · exact .kept ⟨rfl, rfl⟩ rfl rfl rfl Or.inl
    · exact .same hp ⟨rfl, rfl⟩
  | givenUp =>
    unfold Host.running
    simp only
    split
    · exact .kept ⟨rfl, rfl⟩ rfl rfl rfl Or.inl
    · exact .same hp ⟨rfl, rfl⟩
  | request f =>
    show Effect h p _ (h.request p f)
    unfold Host.request
    split
    · exact .arrived ⟨rfl, rfl⟩ _
    · exact .ended ⟨rfl, rfl⟩
  | test i =>
    show Effect h p _ { h with process := some (p.test i) }
    unfold Process.test
    split
    · rename_i w hw
      split
      · rename_i hstage
        exact .tested hw hstage
      · exact .kept ⟨rfl, rfl⟩ rfl rfl rfl Or.inl
    · exact .kept ⟨rfl, rfl⟩ rfl rfl rfl Or.inl
  | perform i opened =>
    show Effect h p _ (h.perform p i opened)
    unfold Host.perform
    cases hw : p.admittedAt i with
    | some w => exact .performed hw
    | none => exact .same hp ⟨by rw [Process.performs, hw]; rfl, rfl⟩
  | write i n =>
    show Effect h p _ (h.write p i n)
    unfold Host.write
    cases hw : p.savingAt i with
    | some r => exact .wrote hw
    | none => exact .same hp ⟨rfl, by rw [Process.writes, hw]; rfl⟩
  | kill => exact .ended ⟨rfl, rfl⟩
  | start o => exact .same hp ⟨rfl, rfl⟩

/-- The request saves a checkpoint, which truncates the state file. -/
def Process.truncates (p : Process) (w : Work) (opened : Bool) : Prop :=
  w.request.a = checkpointInput ∧ (p.options.stateful && opened) = true

instance (p : Process) (w : Work) (opened : Bool) : Decidable (p.truncates w opened) :=
  inferInstanceAs (Decidable (_ ∧ _))

/-- What becomes of an admitted request. -/
inductive Performed (p : Process) (files : FileSystem.Disk Text UInt8) (i : Nat) (opened : Bool)
    (w : Work) : Host → Prop
  | steered {p' : Process} {stage : WorkStage} (steers : w.request.counts = false)
      (kept : ¬ p.truncates w opened) (threads : p'.threads = p.threads) (state : p'.state = p.state)
      (options : p'.options = p.options) (active : p'.active = p.active)
      (stage_eq : stage = .closed ∨ stage = .answered [putBool Fid.ok true] ∨
        stage = .answered (Process.result w.request.a w.request.b)) :
      Performed p files i opened w ⟨some (p'.setStage i w stage), files⟩
  | saving (truncates : p.truncates w opened) :
      Performed p files i opened w ⟨some (p.setStage i w (.saving p.checkpoint)),
        Function.update files p.options.statePath (some [])⟩
  | worked (counts : w.request.counts = true) :
      Performed p files i opened w
        ⟨some ({ p with state.committedSeq := p.state.committedSeq + 1 }.setStage i w
          (.answered (Process.result w.request.a w.request.b))), files⟩

/-- The input that saves the checkpoint is not changed by the mask. -/
theorem checkpointResult_eq {q : WorkRequest} (h : q.a = checkpointInput) :
    Process.checkpointResult q = Process.result q.a q.b := by
  rw [Process.checkpointResult, h]
  rfl

theorem counts_of_input {q : WorkRequest}
    (h : q.a = severInput ∨ q.a = withholdInput ∨ q.a = checkpointInput) : q.counts = false := by
  rcases h with h | h | h <;> (rw [WorkRequest.counts, h]; rfl)

theorem perform_performed (p : Process) (files : FileSystem.Disk Text UInt8) (i : Nat)
    (opened : Bool) (w : Work) : Performed p files i opened w (p.perform files i opened w) := by
  have hother : ∀ {input : UInt64}, w.request.a = input → input ≠ checkpointInput →
      ¬ p.truncates w opened := fun ha hne htruncates => hne (ha.symm.trans htruncates.1)
  unfold Process.perform
  simp only
  split
  · rename_i hsever
    obtain ⟨hthreads, hstate, hoptions, hactive⟩ := loseControl_kept p
    exact .steered (counts_of_input (.inl hsever)) (hother hsever (by decide)) hthreads hstate
      hoptions hactive (.inr (.inl rfl))
  split
  · rename_i hwithhold
    exact .steered (counts_of_input (.inr (.inl hwithhold))) (hother hwithhold (by decide)) rfl rfl
      rfl rfl (.inl rfl)
  split
  · rename_i hsave
    split
    · rename_i hopened
      exact .saving ⟨hsave, hopened⟩
    · rename_i hopened
      exact .steered (counts_of_input (.inr (.inr hsave))) (fun h => hopened h.2) rfl rfl rfl rfl
        (.inr (.inr (by rw [checkpointResult_eq hsave])))
  · rename_i hsever hwithhold hsave
    refine .worked ?_
    simp only [WorkRequest.counts, bne_iff_ne, Bool.and_eq_true]
    exact ⟨⟨hsever, hwithhold⟩, hsave⟩

/-! ## What becomes of a thread -/

/-- The stages that a thread can go to. -/
inductive Moves (p : Process) (w : Work) : WorkStage → Prop
  | admitted (stage : w.stage = .arrived) (admits : p.admits w.request = true) :
      Moves p w .admitted
  | refused (stage : w.stage = .arrived) : Moves p w (.answered Process.refusal)
  | closed (stage : w.stage = .admitted) : Moves p w .closed
  | steered (stage : w.stage = .admitted) : Moves p w (.answered [putBool Fid.ok true])
  | saving (stage : w.stage = .admitted) (input : w.request.a = checkpointInput) :
      Moves p w (.saving p.checkpoint)
  | done (stage : w.stage = .admitted ∨
        (∃ c, w.stage = .saving c) ∧ w.request.a = checkpointInput) :
      Moves p w (.answered (Process.result w.request.a w.request.b))

/-- A thread is as it was, has just arrived, or has moved. -/
def Continues (p : Process) (j : Nat) (w' : Work) : Prop :=
  p.threads[j]? = some w' ∨ p.threads[j]? = none ∧ w'.stage = .arrived ∨
    ∃ w, p.threads[j]? = some w ∧ w'.request = w.request ∧ Moves p w w'.stage

/-- The threads after one of them was set. -/
theorem continues_setStage {p p' : Process} {i j : Nat} {w w' : Work} {stage : WorkStage}
    (hthreads : p'.threads = p.threads) (hw : p.threads[i]? = some w) (hmoves : Moves p w stage)
    (h : (p'.setStage i w stage).threads[j]? = some w') : Continues p j w' := by
  change (p'.threads.set i { w with stage := stage })[j]? = some w' at h
  rw [hthreads, List.getElem?_set] at h
  split_ifs at h with hij hlt
  · subst hij
    cases h
    exact .inr (.inr ⟨w, hw, rfl, hmoves⟩)
  · exact .inl h

/-- The input of a thread that is saving is the one that saves. -/
def SavesOnInput (p : Process) : Prop :=
  ∀ w ∈ p.threads, ∀ c, w.stage = .saving c → w.request.a = checkpointInput

theorem Performed.continues {p p' : Process} {files : FileSystem.Disk Text UInt8} {i j : Nat}
    {opened : Bool} {w w' : Work} {h' : Host} (h : Performed p files i opened w h')
    (hw : p.threads[i]? = some w) (hstage : w.stage = .admitted) (hp' : h'.process = some p')
    (hj : p'.threads[j]? = some w') : Continues p j w' := by
  cases h with
  | steered _ _ hthreads _ _ _ hst =>
    cases hp'
    refine continues_setStage hthreads hw ?_ hj
    rcases hst with rfl | rfl | rfl
    · exact .closed hstage
    · exact .steered hstage
    · exact .done (.inl hstage)
  | saving htruncates =>
    cases hp'
    exact continues_setStage rfl hw (.saving hstage htruncates.1) hj
  | worked _ =>
    cases hp'
    exact continues_setStage rfl hw (.done (.inl hstage)) hj

theorem Effect.continues {h h' : Host} {p p' : Process} {e : HostEvent} (heff : Effect h p e h')
    (hinput : SavesOnInput p) (hp' : h'.process = some p') {j : Nat} {w' : Work}
    (hj : p'.threads[j]? = some w') : Continues p j w' := by
  cases heff with
  | kept _ hthreads _ _ _ =>
    cases hp'
    exact .inl (hthreads ▸ hj)
  | ended _ => cases hp'
  | arrived _ q =>
    cases hp'
    change (p.threads ++ [{ request := q }])[j]? = some w' at hj
    rw [List.getElem?_append] at hj
    split_ifs at hj with hlt
    · exact .inl hj
    · have hmem := List.mem_of_getElem? hj
      rw [List.mem_singleton] at hmem
      exact .inr (.inl ⟨List.getElem?_eq_none (Nat.not_lt.mp hlt), by rw [hmem]⟩)
  | tested hw hstage =>
    cases hp'
    refine continues_setStage rfl hw ?_ hj
    split
    · rename_i hadmits
      exact .admitted hstage hadmits
    · exact .refused hstage
  | performed hw =>
    obtain ⟨hw, hstage⟩ := admittedAt_eq_some.mp hw
    exact (perform_performed p h.files _ _ _).continues hw hstage hp' hj
  | wrote hw =>
    obtain ⟨hw, hstage⟩ := savingAt_eq_some.mp hw
    cases hp'
    have hsaves := hinput _ (List.mem_of_getElem? hw) _ hstage
    refine continues_setStage rfl hw ?_ hj
    rw [checkpointResult_eq hsaves]
    exact .done (.inr ⟨⟨_, hstage⟩, hsaves⟩)

theorem Performed.options {p p' : Process} {files : FileSystem.Disk Text UInt8} {i : Nat}
    {opened : Bool} {w : Work} {h' : Host} (h : Performed p files i opened w h')
    (hp' : h'.process = some p') :
    p'.options = p.options := by
  cases h with
  | steered _ _ _ _ hoptions _ _ =>
    cases hp'
    exact hoptions
  | saving _ => cases hp'; rfl
  | worked _ => cases hp'; rfl

theorem Performed.active {p p' : Process} {files : FileSystem.Disk Text UInt8} {i : Nat}
    {opened : Bool} {w : Work} {h' : Host} (h : Performed p files i opened w h')
    (hp' : h'.process = some p') :
    p'.active = p.active := by
  cases h with
  | steered _ _ _ _ _ hactive _ =>
    cases hp'
    exact hactive
  | saving _ => cases hp'; rfl
  | worked _ => cases hp'; rfl

theorem Effect.options {h h' : Host} {p p' : Process} {e : HostEvent} (heff : Effect h p e h')
    (hp' : h'.process = some p') : p'.options = p.options := by
  cases heff with
  | kept _ _ _ hoptions _ =>
    cases hp'
    exact hoptions
  | ended _ => cases hp'
  | performed _ => exact (perform_performed p h.files _ _ _).options hp'
  | _ => cases hp'; rfl

/-- A step of a host is that of its process, or starts one. -/
theorem step_cases (h : Host) (e : HostEvent) :
    (∃ p, h.process = some p ∧ h.step e = (h.running p e).marked (p.marks e)) ∨ h.process = none ∧
      (h.step e = h ∨ ∃ o w, e = .start o ∧
        Worker.start o.toOptions (h.files o.statePath) = some w ∧
        h.step e = { h with process := some { options := o, state := w } }) := by
  obtain ⟨process, files⟩ := h
  cases process with
  | some p => exact .inl ⟨p, rfl, rfl⟩
  | none =>
    refine .inr ⟨rfl, ?_⟩
    cases e with
    | start o =>
      have hstep : Host.step ⟨none, files⟩ (.start o) =
        ⟨(Worker.start o.toOptions (files o.statePath)).map fun w =>
          { options := o, state := w }, files⟩ := rfl
      cases hw : Worker.start o.toOptions (files o.statePath) with
      | none => exact .inl (by rw [hstep, hw]; rfl)
      | some w => exact .inr ⟨o, w, rfl, hw, by rw [hstep, hw]; rfl⟩
    | _ => exact .inl rfl

namespace ReferenceWorker

/-- A worker of target 2, with boot 22. -/
def options : ServiceOptions := { target := 2, boot := 22 }

/-- A message of the coordinator. -/
def message (type : MsgType) : Frame := { type := type, msgId := 9102, epoch := 1 }

/-- The reference work, for a boot. -/
def work (boot : UInt64) : Frame :=
  { type := .verifyService
    msgId := 1001
    epoch := 1
    payload := payloadOf [putU64 Fid.inputA 7, putU64 Fid.inputB 11, putU64 Fid.boot boot] }

/-- Two requests, of which one is past the test when the worker is fenced. -/
def fencedMidway : List HostEvent :=
  [.start options, .control (message .activateTarget), .request (some (work 22)),
    .request (some (work 22)), .test 0, .control (message .fenceAssignment)]

/-- The two threads go on. -/
def goOn : List HostEvent := [.perform 0 true, .test 1, .perform 1 true]

/-- The process when it has been fenced. -/
def fenced : Process where
  options := options
  state := { restored := true }
  threads := [⟨⟨7, 11, 22, 1001, 1⟩, .admitted⟩, ⟨⟨7, 11, 22, 1001, 1⟩, .arrived⟩]

/-- The process after that. -/
def wentOn : Process where
  options := options
  state := { committedSeq := 1, restored := true }
  threads := [⟨⟨7, 11, 22, 1001, 1⟩, .answered (Process.result 7 11)⟩,
    ⟨⟨7, 11, 22, 1001, 1⟩, .answered Process.refusal⟩]

theorem fenced_process : (hosting.run {} fencedMidway).process = some fenced := by decide +kernel

theorem wentOn_process : (hosting.run {} (fencedMidway ++ goOn)).process = some wentOn := by
  decide +kernel

theorem reachable (es : List HostEvent) :
    Transition.Reachable hosting (fun _ _ => True) (hosting.run {} es) :=
  .run_all es (.initial rfl)

end ReferenceWorker

/-! ## What the answers rest on -/

/-- A thread that got past the test is for the boot of the process. -/
def Authentic (p : Process) (w : Work) : Prop :=
  match w.stage with
  | .arrived => True
  | .admitted | .closed => w.request.boot = p.options.boot
  | .saving _ => w.request.boot = p.options.boot ∧ w.request.a = checkpointInput
  | .answered fields => fields = Process.refusal ∨ w.request.boot = p.options.boot ∧
      (fields = [putBool Fid.ok true] ∨ fields = Process.result w.request.a w.request.b)

theorem Moves.authentic {p : Process} {w w' : Work} (h : Moves p w w'.stage)
    (hrequest : w'.request = w.request) (hw : Authentic p w) : Authentic p w' := by
  unfold Authentic at hw ⊢
  rw [hrequest]
  cases hst : w'.stage with
  | arrived => trivial
  | admitted =>
    rw [hst] at h
    cases h with
    | admitted _ hadmits => exact eq_of_beq (Bool.and_eq_true_iff.mp hadmits).2
  | closed =>
    rw [hst] at h
    cases h with
    | closed hstage =>
      rw [hstage] at hw
      exact hw
  | saving c =>
    rw [hst] at h
    cases h with
    | saving hstage hinput =>
      rw [hstage] at hw
      exact ⟨hw, hinput⟩
  | answered fields =>
    rw [hst] at h
    cases h with
    | refused _ => exact .inl rfl
    | steered hstage =>
      rw [hstage] at hw
      exact .inr ⟨hw, .inl rfl⟩
    | done hstage =>
      refine .inr ⟨?_, .inr rfl⟩
      rcases hstage with hstage | ⟨⟨c, hstage⟩, -⟩
      · rw [hstage] at hw
        exact hw
      · rw [hstage] at hw
        exact hw.1

theorem savesOnInput_of_authentic {p : Process} (h : ∀ w ∈ p.threads, Authentic p w) :
    SavesOnInput p := by
  intro w hw c hstage
  have hauth := h w hw
  rw [Authentic, hstage] at hauth
  exact hauth.2

/-- All threads of the process are authentic. -/
def AllAuthentic (h : Host) : Prop := ∀ p, h.process = some p → ∀ w ∈ p.threads, Authentic p w

theorem AllAuthentic.step {h : Host} (hauth : AllAuthentic h) (e : HostEvent) :
    AllAuthentic (h.step e) := by
  intro p' hp' w' hw'
  obtain ⟨p, hp, hstep⟩ | ⟨hnone, hstep | ⟨o, w, -, -, hstep⟩⟩ := step_cases h e
  · rw [hstep, Host.marked_process] at hp'
    have heff := running_effect hp e
    obtain ⟨j, hj⟩ := List.mem_iff_getElem?.mp hw'
    have hsame : ∀ {v}, Authentic p v → Authentic p' v := by
      intro v hv
      rw [Authentic, heff.options hp']
      exact hv
    rcases heff.continues (savesOnInput_of_authentic (hauth p hp)) hp' hj with
      hold | ⟨-, harrived⟩ | ⟨v, hv, hrequest, hmoves⟩
    · exact hsame (hauth p hp w' (List.mem_of_getElem? hold))
    · rw [Authentic, harrived]
      trivial
    · exact hsame (hmoves.authentic hrequest (hauth p hp v (List.mem_of_getElem? hv)))
  · rw [hstep, hnone] at hp'
    cases hp'
  · rw [hstep] at hp'
    cases hp'
    cases hw'

theorem allAuthentic {h : Host} (hr : Transition.Reachable hosting (fun _ _ => True) h) :
    AllAuthentic h := by
  refine hr.invariant ?_ fun h e _ hauth _ => hauth.step e
  rintro h rfl p hp
  cases hp

/-! ## Answers on the wire -/

theorem length_decimal_le {n k : Nat} (hk : 0 < k) (h : n < 10 ^ k) : (decimal n).length ≤ k := by
  rw [decimal_eq, List.length_map, Nat.length_toDigits_le_iff (by decide) hk]
  exact h

theorem length_referenceText (a b : UInt64) : (referenceText a b).length ≤ 20 :=
  length_decimal_le (by decide) (Nat.lt_trans (referenceResult a b).toNat_lt (by decide))

/-- What a worker answers is read as it was written. -/
theorem parse_answer {p : Process} {w : Work} {fields : List Field} (hauth : Authentic p w)
    (hstage : w.stage = .answered fields) : parse (payloadOf fields) = .ok fields := by
  rw [Authentic, hstage] at hauth
  have hmax : 64 ≤ kMaxFramePayload := by decide
  have hwritten : (∀ f ∈ fields, f.WellFormed) ∧
      (fields.flatMap Field.bytes).length ≤ kMaxFramePayload := by
    rcases hauth with rfl | ⟨-, rfl | rfl⟩
    · refine ⟨?_, by decide⟩
      simp only [Process.refusal, List.forall_mem_cons, List.not_mem_nil, false_implies,
        implies_true]
      exact ⟨wellFormed_putBool .., wellFormed_putStr .., trivial⟩
    · refine ⟨?_, by decide⟩
      simp only [List.forall_mem_cons, List.not_mem_nil, false_implies, implies_true]
      exact ⟨wellFormed_putBool .., trivial⟩
    · have hlen := length_referenceText w.request.a w.request.b
      refine ⟨?_, ?_⟩
      · simp only [Process.result, List.forall_mem_cons, List.not_mem_nil, false_implies,
          implies_true]
        exact ⟨wellFormed_putBool .., wellFormed_putBytes .., trivial⟩
      · simp only [Process.result, List.flatMap_cons, List.flatMap_nil, List.length_append,
          Field.length_bytes, putBool, putBytes, List.length_cons, List.length_nil]
        omega
  have hfinish : finish fields = .ok (payloadOf fields) := by
    rw [payloadOf, finish_of_fits hwritten.2]
    rfl
  exact parse_finish hwritten.1 hfinish

/-- **What an answer of a worker rests on.**  In every run of a host, an answer that is
read as ok is for a request that named the boot of the process, and a result in it is the
reference result of the request's inputs. -/
theorem answers_authentic {h : Host} (hr : Transition.Reachable hosting (fun _ _ => True) h)
    {p : Process} (hp : h.process = some p) {w : Work} (hw : w ∈ p.threads) {fields : List Field}
    (hstage : w.stage = .answered fields) :
    ∃ r, parse (payloadOf fields) = .ok r ∧ (r.flag Fid.ok = .ok true →
      w.request.boot = p.options.boot ∧
        (r.has Fid.payload = true →
          r.bytes Fid.payload = .ok (referenceText w.request.a w.request.b))) := by
  have hauth := allAuthentic hr p hp w hw
  refine ⟨fields, parse_answer hauth hstage, fun hok => ?_⟩
  rw [Authentic, hstage] at hauth
  rcases hauth with rfl | ⟨hboot, rfl | rfl⟩
  · have hflag : PayloadReader.flag Process.refusal Fid.ok = .ok false := flag_putBool rfl
    rw [hflag] at hok
    cases hok
  · exact ⟨hboot, fun hpayload => by cases hpayload⟩
  · refine ⟨hboot, fun _ => ?_⟩
    simp [PayloadReader.bytes, PayloadReader.typed, Process.result, PayloadReader.find_, putBool,
      putBytes, Fid.ok, Fid.payload]

open ReferenceWorker in
theorem answers_authentic_reference :
    ∃ r, parse (payloadOf (Process.result 7 11)) = .ok r ∧ r.flag Fid.ok = .ok true ∧
      wentOn.options.boot = 22 ∧ r.bytes Fid.payload = .ok (referenceText 7 11) := by
  obtain ⟨r, hr, hok⟩ := answers_authentic (reachable (fencedMidway ++ goOn)) wentOn_process
    (w := ⟨⟨7, 11, 22, 1001, 1⟩, .answered (Process.result 7 11)⟩) (List.mem_cons_self ..) rfl
  have hparse : parse (payloadOf (Process.result 7 11)) = .ok (Process.result 7 11) := by
    decide +kernel
  obtain rfl : Process.result 7 11 = r := Except.ok.inj (hparse.symm.trans hr)
  have hflag : PayloadReader.flag (Process.result 7 11) Fid.ok = .ok true := flag_putBool rfl
  exact ⟨_, hr, hflag, rfl, (hok hflag).2 rfl⟩

/-! ## What is done after a fence -/

namespace Process

/-- How many requests are past the test, and not performed yet. -/
def inFlight (p : Process) : Nat := p.threads.countP fun w => w.stage == .admitted

end Process

namespace Host

/-- How many admitted requests are performed in a run. -/
def performed (h : Host) : List HostEvent → Nat
  | [] => 0
  | e :: es => (h.process.any fun p => p.performs e).toNat + (h.step e).performed es

def inFlight (h : Host) : Nat := (h.process.map Process.inFlight).getD 0

end Host

/-- A thread goes to another stage. -/
theorem inFlight_setStage {p p' : Process} {i : Nat} {w : Work} {stage : WorkStage}
    (hthreads : p'.threads = p.threads) (hw : p.threads[i]? = some w) (hstage : stage ≠ .admitted) :
    (p'.setStage i w stage).inFlight = p.inFlight - (w.stage == .admitted).toNat := by
  obtain ⟨hlt, hget⟩ := List.getElem?_eq_some_iff.mp hw
  have hset : (p'.setStage i w stage).threads = p.threads.set i { w with stage := stage } := by
    rw [← hthreads]
    rfl
  have hnew : ({ w with stage := stage } : Work).stage = .admitted ↔ False := iff_false_intro hstage
  rw [Process.inFlight, hset, List.countP_set hlt, hget]
  simp only [beq_iff_eq, hnew, if_false, Nat.add_zero]
  cases hadm : w.stage == WorkStage.admitted <;>
    simp only [beq_iff_eq, beq_eq_false_iff_ne, ne_eq] at hadm <;> simp [hadm, Process.inFlight]

theorem inFlight_pos {p : Process} {i : Nat} {w : Work} (hw : p.threads[i]? = some w)
    (hstage : w.stage = .admitted) : 0 < p.inFlight :=
  List.countP_pos_iff.mpr ⟨w, List.mem_of_getElem? hw, beq_iff_eq.mpr hstage⟩

theorem Performed.inFlight {p : Process} {files : FileSystem.Disk Text UInt8} {i : Nat}
    {opened : Bool} {w : Work} {h' : Host} (h : Performed p files i opened w h')
    (hw : p.threads[i]? = some w) (hstage : w.stage = .admitted) :
    h'.inFlight + 1 = p.inFlight := by
  have hpos := inFlight_pos hw hstage
  have hone : (w.stage == WorkStage.admitted).toNat = 1 := by rw [hstage]; rfl
  have hset : ∀ {p' : Process} {stage : WorkStage}, p'.threads = p.threads → stage ≠ .admitted →
      (p'.setStage i w stage).inFlight + 1 = p.inFlight := by
    intro p' stage hthreads hne
    rw [inFlight_setStage hthreads hw hne, hone]
    omega
  cases h with
  | steered _ _ hthreads _ _ _ hst =>
    refine hset hthreads ?_
    rcases hst with rfl | rfl | rfl <;> exact WorkStage.noConfusion
  | saving _ => exact hset rfl WorkStage.noConfusion
  | worked _ => exact hset rfl WorkStage.noConfusion

/-- **An inactive worker admits nothing**: what an event performs is taken from what is in
flight. -/
theorem Effect.inFlight {h h' : Host} {p : Process} {e : HostEvent} (heff : Effect h p e h')
    (hidle : p.active = false) : h'.inFlight + (p.performs e).toNat ≤ p.inFlight := by
  cases heff with
  | kept hquiet hthreads _ _ _ =>
    rw [hquiet.performs, Host.inFlight, Option.map_some, Option.getD_some, Process.inFlight, hthreads]
    exact Nat.le_refl _
  | ended hquiet =>
    rw [hquiet.performs]
    exact Nat.zero_le _
  | arrived hquiet q =>
    rw [hquiet.performs, Host.inFlight, Option.map_some, Option.getD_some, Process.inFlight,
      List.countP_append]
    exact Nat.le_refl _
  | tested hw hstage =>
    have hrefused : ∀ q, p.admits q = false := fun q => Bool.and_eq_false_iff.mpr (.inl hidle)
    rw [hrefused]
    show (p.setStage _ _ _).inFlight + 0 ≤ _
    rw [inFlight_setStage rfl hw (by simp)]
    omega
  | @performed i w opened hw =>
    have hone : p.performs (.perform i opened) = true := by
      rw [Process.performs, hw]
      rfl
    obtain ⟨hw, hstage⟩ := admittedAt_eq_some.mp hw
    have hdone := (perform_performed p h.files i opened w).inFlight hw hstage
    rw [hone]
    exact Nat.le_of_eq hdone
  | wrote hw =>
    show (p.setStage _ _ _).inFlight + 0 ≤ _
    rw [inFlight_setStage rfl (savingAt_eq_some.mp hw).1 (by simp)]
    omega

theorem Effect.inactive {h h' : Host} {p p' : Process} {e : HostEvent} (heff : Effect h p e h')
    (hidle : p.active = false) (he : e.activates = false) (hp' : h'.process = some p') :
    p'.active = false := by
  cases heff with
  | kept _ _ _ _ hactive =>
    cases hp'
    rw [Bool.eq_false_iff]
    intro hact
    rcases hactive hact with hp | hactivates
    · rw [hidle] at hp
      cases hp
    · rw [he] at hactivates
      cases hactivates
  | ended _ => cases hp'
  | performed _ =>
    rw [← hidle]
    exact (perform_performed p h.files _ _ _).active hp'
  | _ => cases hp'; exact hidle

/-- A thread has been refused, or not been tested. -/
def Idle (w : Work) : Prop := w.stage = .arrived ∨ w.stage = .answered Process.refusal

/-- A thread of an inactive worker is not admitted any more. -/
theorem Moves.idle {p : Process} {w w' : Work} (h : Moves p w w'.stage) (hidle : p.active = false)
    (hw : Idle w) : Idle w' := by
  have hmust : ∀ {stage}, w.stage = stage → stage = .arrived ∨ stage = .answered Process.refusal :=
    fun he => he ▸ hw
  unfold Idle
  generalize w'.stage = stage at h
  cases h with
  | admitted _ hadmits =>
    rw [Process.admits, hidle] at hadmits
    cases hadmits
  | refused _ => exact .inr rfl
  | closed hstage => rcases hmust hstage with h | h <;> cases h
  | steered hstage => rcases hmust hstage with h | h <;> cases h
  | saving hstage _ => rcases hmust hstage with h | h <;> cases h
  | done hstage =>
    rcases hstage with hstage | ⟨⟨c, hstage⟩, -⟩ <;> rcases hmust hstage with h | h <;> cases h

/-- The worker is inactive, and of its threads only those that `p` had tested have got
anywhere. -/
def IdleSince (p : Process) (h : Host) : Prop :=
  ∀ p', h.process = some p' → p'.active = false ∧ ∀ (j : Nat) (w : Work), p'.threads[j]? = some w →
    (∀ v : Work, p.threads[j]? = some v → v.stage = .arrived) → Idle w

theorem IdleSince.step {p : Process} {h : Host} (hidle : IdleSince p h)
    (hauth : AllAuthentic h) {e : HostEvent} (he : e.activates = false) :
    IdleSince p (h.step e) := by
  intro p' hp'
  obtain ⟨p₁, hp₁, hstep⟩ | ⟨hnone, hstep | ⟨o, w, -, -, hstep⟩⟩ := step_cases h e
  · rw [hstep, Host.marked_process] at hp'
    obtain ⟨hactive, hthreads⟩ := hidle p₁ hp₁
    have heff := running_effect hp₁ e
    refine ⟨heff.inactive hactive he hp', fun j w hw hfresh => ?_⟩
    rcases heff.continues (savesOnInput_of_authentic (hauth p₁ hp₁)) hp' hw with
      hold | ⟨-, harrived⟩ | ⟨v, hv, -, hmoves⟩
    · exact hthreads j w hold hfresh
    · exact .inl harrived
    · exact hmoves.idle hactive (hthreads j v hv hfresh)
  · rw [hstep, hnone] at hp'
    cases hp'
  · rw [hstep] at hp'
    cases hp'
    exact ⟨rfl, fun j w hw => by cases hw⟩

theorem performed_le {p : Process} {h : Host} (hidle : IdleSince p h) (hauth : AllAuthentic h)
    {es : List HostEvent} (hes : ∀ e ∈ es, e.activates = false) :
    h.performed es ≤ h.inFlight := by
  induction es generalizing h with
  | nil => exact Nat.zero_le _
  | cons e es ih =>
    have he := hes e List.mem_cons_self
    have hrest := ih (hidle.step hauth he) (hauth.step e) fun e' he' =>
      hes e' (List.mem_cons_of_mem _ he')
    rw [Host.performed]
    obtain ⟨p₁, hp₁, hstep⟩ | ⟨hnone, hstep | ⟨o, w, -, -, hstep⟩⟩ := step_cases h e
    · have hflight := (running_effect hp₁ e).inFlight (hidle p₁ hp₁).1
      rw [hstep] at hrest ⊢
      rw [Host.inFlight, Host.marked_process] at hrest
      rw [Host.inFlight] at hflight
      rw [hp₁, Option.any_some, Host.inFlight, hp₁, Option.map_some, Option.getD_some]
      omega
    · rw [hstep] at hrest ⊢
      rw [hnone, Option.any_none]
      simpa using hrest
    · -- a process that has just been started has nothing in flight
      have hempty : (h.step e).inFlight = 0 := by
        rw [hstep]
        rfl
      rw [hempty] at hrest
      rw [hnone, Option.any_none, Nat.le_zero.mp hrest]
      exact Nat.zero_le _

theorem idleSince_run {p : Process} {h : Host} (hidle : IdleSince p h) (hauth : AllAuthentic h)
    {es : List HostEvent} (hes : ∀ e ∈ es, e.activates = false) : IdleSince p (hosting.run h es) := by
  induction es generalizing h with
  | nil => exact hidle
  | cons e es ih =>
    exact ih (hidle.step hauth (hes e List.mem_cons_self)) (hauth.step e) fun e' he' =>
      hes e' (List.mem_cons_of_mem _ he')

/-- **What a worker still does once it is inactive**, as after a `FENCE_ASSIGNMENT`.  Until
a message activates it, it performs no more requests than were past the test at that
moment; every other one, whether it had arrived by then or not, is refused or waits for its
test. -/
theorem fenced_work_bounded {h : Host} (hr : Transition.Reachable hosting (fun _ _ => True) h)
    {p : Process} (hp : h.process = some p) (hidle : p.active = false) {es : List HostEvent}
    (hes : ∀ e ∈ es, e.activates = false) :
    h.performed es ≤ p.inFlight ∧
      ∀ p', (hosting.run h es).process = some p' → p'.active = false ∧
        ∀ (j : Nat) (w : Work), p'.threads[j]? = some w →
          (∀ v : Work, p.threads[j]? = some v → v.stage = .arrived) →
            w.stage = .arrived ∨ w.stage = .answered Process.refusal := by
  have hsince : IdleSince p h := by
    intro p' hp'
    rw [hp] at hp'
    cases hp'
    exact ⟨hidle, fun j w hw hfresh => .inl (hfresh w hw)⟩
  refine ⟨?_, idleSince_run hsince (allAuthentic hr) hes⟩
  have hle := performed_le hsince (allAuthentic hr) hes
  rwa [Host.inFlight, hp] at hle

open ReferenceWorker in
/-- The request past the test is performed, the other one refused. -/
theorem fenced_work_bounded_reference :
    (hosting.run {} fencedMidway).performed goOn = 1 ∧ fenced.inFlight = 1 ∧
      (hosting.run {} fencedMidway).performed goOn ≤ fenced.inFlight ∧
      ∀ w : Work, wentOn.threads[1]? = some w → w.stage = .arrived ∨
        w.stage = .answered Process.refusal := by
  have hidle : ∀ e ∈ goOn, e.activates = false := by decide
  obtain ⟨hle, hrest⟩ := fenced_work_bounded (reachable fencedMidway) fenced_process rfl hidle
  have hafter : (hosting.run (hosting.run {} fencedMidway) goOn).process = some wentOn := by
    rw [← wentOn_process, Transition.System.run, Transition.System.run, Transition.System.run,
      List.foldl_append]
  refine ⟨by decide +kernel, by decide, hle, fun w hw => (hrest _ hafter).2 1 w hw ?_⟩
  rintro v hv
  cases hv
  rfl

end Worker
end FailoverFabric
