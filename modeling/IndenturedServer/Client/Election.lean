import IndenturedServer.Client.Abandonment
import IndenturedServer.Client.Update

/-!
The signal and the end of a command exclude each other.

The control of the signal has four states. It is consulted at many places, but
its answers are of two kinds only: that the signal has come, or that the command
has claimed its completion and the signal comes too late. The first answer that
is given decides the run (`Undecided`, `Interrupted`, `Claimed`). The ID is
written behind a claim, and the exits of an interrupt are behind the other answer.
-/

namespace IndenturedServer.Client

open Foundation
open Sessions (SessionStartEvent)

/-! ### The control -/

/-- Where the control stands, what it has told, and what is on the output. -/
structure Control where
  interrupt : InterruptState
  reports : List Report
  written : Nat

def World.control (w : World) : Control := ⟨w.interrupt, w.reports, w.written⟩

namespace Control

/-- Nothing has been claimed or written. -/
structure Undecided (c : Control) : Prop where
  unclaimed : Report.completed ∉ c.reports
  state : c.interrupt ≠ .completed
  triggered : Report.interrupted ∈ c.reports → c.interrupt = .triggered
  written : c.written = 0

structure Interrupted (c : Control) : Prop where
  told : Report.interrupted ∈ c.reports
  unclaimed : Report.completed ∉ c.reports
  written : c.written = 0

structure Claimed (c : Control) : Prop where
  claimed : Report.completed ∈ c.reports
  untold : Report.interrupted ∉ c.reports
  state : c.interrupt = .completed

/-- At most one of the answers has been given, and bytes are written behind the
second only. -/
structure Decided (c : Control) : Prop where
  exclusive : ¬ (Report.interrupted ∈ c.reports ∧ Report.completed ∈ c.reports)
  output : 0 < c.written → Report.completed ∈ c.reports

variable {c : Control}

theorem Undecided.decided (h : c.Undecided) : c.Decided :=
  ⟨fun hboth => h.unclaimed hboth.2, fun hpos => by simp [h.written] at hpos⟩

theorem Interrupted.decided (h : c.Interrupted) : c.Decided :=
  ⟨fun hboth => h.unclaimed hboth.2, fun hpos => by simp [h.written] at hpos⟩

theorem Claimed.decided (h : c.Claimed) : c.Decided :=
  ⟨fun hboth => h.untold hboth.1, fun _ => h.claimed⟩

section
variable (h : c.Undecided)
include h

theorem Undecided.tell :
    Undecided { c with interrupt := .triggered, reports := c.reports ++ [.interrupted] } :=
  ⟨by simpa using h.unclaimed, by simp, fun _ => rfl, h.written⟩

theorem Undecided.interrupted (htold : Report.interrupted ∈ c.reports) : c.Interrupted :=
  ⟨htold, h.unclaimed, h.written⟩

/-- As long as the signal has not been found, it may turn out that there is none. -/
theorem Undecided.lose (hstate : c.interrupt ≠ .triggered) :
    Undecided { c with interrupt := .unavailable } :=
  ⟨h.unclaimed, by simp, fun htold => absurd (h.triggered htold) hstate, h.written⟩

theorem Undecided.claim (hstate : c.interrupt ≠ .triggered) :
    Claimed { c with interrupt := .completed, reports := c.reports ++ [.completed] } :=
  ⟨by simp, by simpa using fun htold => hstate (h.triggered htold), rfl⟩

end

end Control

/-- The command goes on. -/
def Undecided (w : World) : Prop :=
  w.control.Undecided ∧ w.provenance.status ≠ "interrupted"

/-- What holds when the command has ended: the run counts as interrupted only if the
signal has been found. -/
def Elected (w : World) : Prop :=
  w.control.Decided ∧ (w.provenance.status = "interrupted" → Report.interrupted ∈ w.reports)

variable {w : World}

theorem Undecided.elected (h : Undecided w) : Elected w :=
  ⟨h.1.decided, fun hstatus => absurd hstatus h.2⟩

variable {exit : Command Nat}

section
variable {env : Environment} {E : Nat → World → Prop} {α β : Type}

/-- A poll that finds the signal decides the run. -/
theorem poll_triple : Triple Undecided (poll env)
      (fun b w => Undecided w ∧ (b = true → w.control.Interrupted) ∧
        (b = false → w.interrupt ≠ .triggered)) E := by
  intro w hw
  have hcontrol := hw.1
  show Ends _ _ (poll env w)
  unfold poll
  split
  · next hnow =>
    have htell := hcontrol.tell
    rw [show (InterruptState.triggered : InterruptState) = w.control.interrupt from hnow.symm] at htell
    exact ⟨⟨htell, hw.2⟩, fun _ => htell.interrupted (by simp), by simp⟩
  · next hnow =>
    split
    · exact ⟨hw, by simp, fun _ => by simp [hnow]⟩
    · exact ⟨⟨hcontrol.tell, hw.2⟩, fun _ => hcontrol.tell.interrupted (by simp), by simp⟩
    · have hstate : w.control.interrupt ≠ .triggered := by simp [World.control, hnow]
      exact ⟨⟨hcontrol.lose hstate, hw.2⟩, by simp, fun _ => by simp⟩
  · next hnow => exact ⟨hw, by simp, fun _ => by simp [hnow]⟩
  · next hnow => exact ⟨hw, by simp, fun _ => by simp [hnow]⟩

/-- The completion can be claimed unless the signal has been found. -/
theorem claimCompletion_triple : Triple Undecided (claimCompletion env)
      (fun b w => (b = true → w.control.Claimed ∧ w.provenance.status ≠ "interrupted") ∧
        (b = false → Undecided w ∧ w.control.Interrupted)) E := by
  refine poll_triple.bind fun found => ?_
  cases found with
  | true => exact Triple.pure fun w hw => ⟨by simp, fun _ => ⟨hw.1, hw.2.1 rfl⟩⟩
  | false =>
    refine Triple.bind (Q := fun w w' => w = w' ∧ Undecided w' ∧ w'.interrupt ≠ .triggered)
      (fun _ hw => ⟨rfl, hw.1, hw.2.2 rfl⟩) fun w => ?_
    have hclaim : Triple (fun w' => w = w' ∧ Undecided w' ∧ w'.interrupt ≠ .triggered) (do
        modify fun w : World =>
          { w with interrupt := .completed, reports := w.reports ++ [.completed] }
        return true : Command Bool)
        (fun b w => (b = true → w.control.Claimed ∧ w.provenance.status ≠ "interrupted") ∧
          (b = false → Undecided w ∧ w.control.Interrupted)) E := by
      refine Triple.bind (Q := fun _ w => w.control.Claimed ∧ w.provenance.status ≠ "interrupted")
        (Triple.modify fun w hw => ⟨hw.2.1.1.claim hw.2.2, hw.2.1.2⟩) fun _ => ?_
      exact Triple.pure fun w hw => ⟨fun _ => hw, by simp⟩
    split
    · exact hclaim
    · exact hclaim
    · next hnow => exact Triple.pure fun w' hw => absurd (hw.1 ▸ hnow) hw.2.2
    · next hnow => exact Triple.pure fun w' hw => absurd (hw.1 ▸ hnow) hw.2.1.1.state

/-! ### What leaves the control alone -/

/-- The program does not consult the control, and leaves a status of this kind. -/
def Steady (S : String → Prop) (x : Command α) : Prop :=
  ∀ P : Control → Prop, Triple (fun w => P w.control ∧ S w.provenance.status) x
    (fun _ w => P w.control ∧ S w.provenance.status) fun _ w => P w.control ∧ S w.provenance.status

variable {S : String → Prop}

theorem Steady.bind {x : Command α} {f : α → Command β} (hx : Steady S x)
    (hf : ∀ a, Steady S (f a)) : Steady S (x >>= f) :=
  fun P => (hx P).bind fun a => hf a P

theorem steady_pure (a : α) : Steady S (pure a : Command α) :=
  fun _ => Triple.pure fun _ hw => hw

theorem steady_get : Steady S (get : Command World) :=
  fun _ _ hw => hw

theorem steady_modify {f : World → World}
    (h : ∀ w, (f w).control = w.control ∧ (f w).provenance.status = w.provenance.status) :
    Steady S (modify f : Command PUnit) := by
  intro P
  refine Triple.modify fun w hw => ?_
  rw [(h w).1, (h w).2]
  exact hw

theorem steady_persist (write : Write) {change : Provenance → Provenance}
    (hchange : ∀ p, S p.status → S (change p).status) : Steady S (persist env write change) :=
  fun _ w hw => ⟨hw.1, hchange w.provenance hw.2⟩

variable {status : String}

theorem steady_finish (hstatus : S status) : Steady S (finish env status) :=
  steady_persist .finish fun _ _ => hstatus

theorem steady_setStatus (hstatus : S status) : Steady S (setStatus env status) :=
  steady_persist .status fun _ _ => hstatus

theorem steady_error (message : String) : Steady S (error env message) := by
  refine steady_persist .error fun p hp => ?_
  split
  · exact hp
  · exact hp

theorem steady_setCleanupStatus (status : String) : Steady S (setCleanupStatus env status) :=
  steady_persist .cleanupStatus fun _ hp => hp

theorem steady_evidenceExit (requested : Nat) : Steady S (evidenceExit requested) := by
  refine steady_get.bind fun w => ?_
  split
  · exact steady_pure 1
  · exact steady_pure requested

theorem steady_provenanceFailure (err : String) : Steady S (provenanceFailure err) := by
  refine Steady.bind (steady_modify ?_) fun _ => steady_evidenceExit 1
  exact fun _ => ⟨rfl, rfl⟩

theorem steady_finishSessionFailure (hfailed : S "failed") (message : String)
    (connectionFailure : Bool) : Steady S (finishSessionFailure env message connectionFailure) :=
  (steady_error message).bind fun _ => (steady_finish hfailed).bind fun _ => steady_evidenceExit _

theorem steady_finishRemoteSessionError (hfailed : S "failed") (err : BuildError)
    (connection : Option Connection) : Steady S (finishRemoteSessionError env err connection) := by
  have hnote : Steady S (modify fun w : World =>
      { w with provenance := err.noteTimeout w.provenance } : Command PUnit) :=
    steady_modify fun w => ⟨rfl, by cases err <;> rfl⟩
  exact hnote.bind fun _ => (steady_error _).bind fun _ => (steady_finish hfailed).bind fun _ =>
    steady_evidenceExit _

theorem steady_recordBestEffortStop (id : String) : Steady S (recordBestEffortStop env id) := by
  refine Steady.bind (steady_modify ?_) fun _ => (steady_setCleanupStatus _).bind fun _ => ?_
  · exact fun _ => ⟨rfl, rfl⟩
  · split
    · exact (steady_error _).bind fun _ => steady_pure ()
    · exact steady_pure ()

theorem steady_stopObserved : Steady S (stopObserved env) := by
  refine steady_get.bind fun w => ?_
  split
  · exact steady_recordBestEffortStop _
  · exact steady_pure ()

theorem steady_finishInterruptedSession (hinterrupted : S "interrupted") (id : String) :
    Steady S (finishInterruptedSession env id) :=
  (steady_recordBestEffortStop id).bind fun _ => (steady_finish hinterrupted).bind fun _ =>
    steady_evidenceExit 130

theorem steady_finishEarlyInterrupted (hinterrupted : S "interrupted") (message : String) :
    Steady S (finishEarlyInterrupted env message) := by
  have hnote : Steady S (noteNoSession env) := by
    refine steady_get.bind fun w => ?_
    split
    · exact (steady_setCleanupStatus _).bind fun _ => steady_pure ()
    · exact steady_pure ()
  exact hnote.bind fun _ => (steady_error message).bind fun _ => (steady_finish hinterrupted).bind
    fun _ => steady_evidenceExit 130

theorem steady_finishEarly (hinterrupted : S "interrupted") (operation : Operation)
    (message : String) : Steady S (finishEarly env operation message) := by
  cases operation with
  | start => exact steady_finishEarlyInterrupted hinterrupted message
  | update =>
    exact (steady_error message).bind fun _ => (steady_finish hinterrupted).bind fun _ =>
      steady_evidenceExit 130

theorem steady_observe (id : String) : Steady S (observe env id) := by
  refine steady_get.bind fun w => ?_
  split
  · refine Steady.bind (steady_modify ?_) fun _ => steady_persist .sessionId ?_
    · exact fun _ => ⟨rfl, rfl⟩
    · exact fun _ hp => hp
  · exact steady_pure none

/-- The induction is on what is left in the channel. -/
theorem steady_drain {onFailure : String → String → Command Unit}
    (hfailure : ∀ id err, Steady S (onFailure id err)) (ids : List String) :
    Steady S (drain env onFailure ids) := by
  induction ids with
  | nil => exact steady_pure ()
  | cons id rest ih =>
    refine Steady.bind (steady_modify ?_) fun _ => (steady_observe id).bind fun failure => ?_
    · exact fun _ => ⟨rfl, rfl⟩
    · split
      · exact (hfailure _ _).bind fun _ => ih
      · exact ih

theorem steady_recordErrors (errors : List String) : Steady S (recordErrors env errors) := by
  induction errors with
  | nil => exact steady_pure ()
  | cons message rest ih => exact (steady_error message).bind fun _ => ih

theorem steady_leave (hexit : Steady S exit) : Steady S (leave exit : Command α) :=
  hexit.bind fun _ _ => Triple.throw fun _ hw => hw

theorem steady_leaveOn {failure : Option String} {exit : String → Command Nat}
    (hexit : ∀ err, Steady S (exit err)) : Steady S (leaveOn failure exit) := by
  cases failure with
  | some err => exact steady_leave (hexit err)
  | none => exact steady_pure ()

theorem steady_runChecks (hfailed : S "failed") (checks : List (Option String)) :
    Steady S (runChecks env checks) := by
  induction checks with
  | nil => exact steady_pure ()
  | cons check rest ih =>
    exact (steady_leaveOn fun err => steady_finishSessionFailure hfailed err false).bind fun _ => ih

theorem steady_finishExited (hfailed : S "failed") (result : SessionStartResult) :
    Steady S (finishExited env result) :=
  steady_stopObserved.bind fun _ => (steady_finish hfailed).bind fun _ =>
    (steady_leaveOn steady_provenanceFailure).bind fun _ => steady_evidenceExit _

end

/-! ### The three phases -/

/-- The signal has not been found; the completion may have been claimed. -/
def Uninterrupted (w : World) : Prop :=
  (w.control.Undecided ∨ w.control.Claimed) ∧ w.provenance.status ≠ "interrupted"

theorem Undecided.uninterrupted (h : Undecided w) : Uninterrupted w :=
  ⟨.inl h.1, h.2⟩

theorem Uninterrupted.elected (h : Uninterrupted w) : Elected w :=
  ⟨h.1.elim Control.Undecided.decided Control.Claimed.decided, fun hstatus => absurd hstatus h.2⟩

theorem failed_ne : "failed" ≠ "interrupted" := by decide

section
variable {env : Environment} {E : Nat → World → Prop} {α : Type} {x : Command α}

theorem poll_found : Triple Undecided (poll env)
      (fun b w => Undecided w ∧ (b = true → w.control.Interrupted)) E :=
  poll_triple.onReturn fun _ _ hw => ⟨hw.1, hw.2.1⟩

section
variable (h : Steady (· ≠ "interrupted") x)
include h

theorem Steady.goesOn : Triple Undecided x (fun _ => Undecided) fun _ => Elected :=
  (h Control.Undecided).onError fun _ _ hw => Undecided.elected hw

theorem Steady.awaited (b : Bool) :
    Triple (fun w => Undecided w ∧ (b = true → w.control.Interrupted)) x
      (fun _ w => Undecided w ∧ (b = true → w.control.Interrupted)) fun _ => Elected :=
  (h fun c => c.Undecided ∧ (b = true → c.Interrupted)).mono
    (fun _ hw => ⟨⟨hw.1.1, hw.2⟩, hw.1.2⟩) (fun _ _ hw => ⟨⟨hw.1.1, hw.2⟩, hw.1.2⟩)
    fun _ _ hw => Undecided.elected ⟨hw.1.1, hw.2⟩

theorem Steady.ends : Triple Uninterrupted x (fun _ => Elected) fun _ => Elected :=
  (h fun c => c.Undecided ∨ c.Claimed).mono (fun _ hw => hw) (fun _ _ hw => Uninterrupted.elected hw)
    fun _ _ hw => Uninterrupted.elected hw

end

theorem Steady.endsInterrupted (h : Steady (fun _ => True) x) :
    Triple (fun w => w.control.Interrupted) x (fun _ => Elected) fun _ => Elected :=
  (h Control.Interrupted).mono (fun _ hw => ⟨hw, trivial⟩)
    (fun _ _ hw => ⟨hw.1.decided, fun _ => hw.1.told⟩) fun _ _ hw =>
      ⟨hw.1.decided, fun _ => hw.1.told⟩

theorem Steady.leaves {c : Bool} (h : Steady (· ≠ "interrupted") exit) :
    Triple Undecided (leaveIf c exit) (fun _ => Undecided) fun _ => Elected :=
  leaveIf_triple (h.ends.onEntry fun _ hw => hw.uninterrupted)

theorem leaveIf_interrupted {c : Bool} (hexit : Steady (fun _ => True) exit) :
    Triple (fun w => Undecided w ∧ (c = true → w.control.Interrupted)) (leaveIf c exit)
      (fun _ => Undecided) fun _ => Elected := by
  cases c with
  | true => exact leave_triple (hexit.endsInterrupted.onEntry fun _ hw => hw.2 rfl)
  | false => exact Triple.pure fun _ hw => hw.1

/-! ### The output -/

/-- What is known when the output of the ID has ended. -/
def Announced : ControlledIo → World → Prop
  | .interrupted, w => w.control.Interrupted
  | .completed _, w => Uninterrupted w

/-- Bytes are written only behind a claim. -/
theorem claimAndWrite_elects (text : String) (emission : Emission) :
    Triple Undecided (claimAndWrite env text emission) Announced E := by
  refine claimCompletion_triple.bind fun claimed => ?_
  cases claimed with
  | false => exact Triple.pure fun w hw => (hw.2 rfl).2
  | true =>
    refine Triple.onEntry (P := fun w => w.control.Claimed ∧ w.provenance.status ≠ "interrupted") ?_
      fun _ hw => hw.1 rfl
    show Triple _ (writeAtomic text emission) _ _
    unfold writeAtomic
    split
    · exact Triple.pure fun w hw => ⟨.inr hw.1, hw.2⟩
    · refine Triple.bind (Q := fun _ => Uninterrupted) (Triple.modify fun w hw => ?_) fun _ =>
        Triple.pure fun _ hw => hw
      exact ⟨.inr ⟨hw.1.claimed, hw.1.untold, hw.1.state⟩, hw.2⟩
    · refine Triple.bind (Q := fun _ => Uninterrupted) (Triple.modify fun w hw => ?_) fun _ =>
        Triple.pure fun _ hw => hw
      exact ⟨.inr ⟨hw.1.claimed, hw.1.untold, hw.1.state⟩, hw.2⟩

theorem pollOr_elects {rest : Command ControlledIo} (hrest : Triple Undecided rest Announced E) :
    Triple Undecided (do if ← poll env then return .interrupted else rest) Announced E := by
  refine poll_found.bind fun found => ?_
  cases found with
  | true => exact Triple.pure fun w hw => hw.2 rfl
  | false => exact hrest.onEntry fun _ hw => hw.1

theorem completed_elects (failure : Option String) :
    Triple Undecided (pure (.completed failure) : Command ControlledIo) Announced E :=
  Triple.pure fun _ hw => hw.uninterrupted

theorem awaitWritable_elects (text : String) (emission : Emission) (answers : List Writable) :
    Triple Undecided (awaitWritable env text emission answers) Announced E := by
  induction answers with
  | nil => exact claimAndWrite_elects text emission
  | cons answer rest ih =>
    cases answer with
    | failed err => exact completed_elects (some err)
    | yes => exact claimAndWrite_elects text emission
    | no waiting =>
      refine pollOr_elects ?_
      cases waiting with
      | some err => exact completed_elects (some err)
      | none => exact pollOr_elects ih

theorem emitSessionId_elects (text : String) (emission : Emission) :
    Triple Undecided (emitSessionIdControlled env text emission) Announced E := by
  unfold emitSessionIdControlled
  split
  · exact completed_elects _
  · refine pollOr_elects ?_
    unfold writeWhenWritable
    split
    · exact pollOr_elects (completed_elects _)
    · exact pollOr_elects (awaitWritable_elects text emission _)
    · exact awaitWritable_elects text emission _

/-! ### The start -/

theorem prepare_elects (preparation : Preparation) :
    Triple Undecided (prepare env preparation) (fun _ => Undecided) fun _ => Elected := by
  have hpackaging : Steady (fun _ => True) (abandonPackaging env preparation.cleanup) := by
    unfold abandonPackaging
    split
    · exact (steady_error _).bind fun _ => steady_finishEarlyInterrupted trivial _
    · exact steady_finishEarlyInterrupted trivial _
  have hcheck (failure : Option String) : Triple Undecided
      (leaveOn failure fun message => finishSessionFailure env message false)
      (fun _ => Undecided) fun _ => Elected :=
    (steady_leaveOn fun err => steady_finishSessionFailure failed_ne err false).goesOn
  refine poll_found.bind fun _ =>
    (leaveIf_interrupted (steady_finishEarlyInterrupted trivial _)).bind fun _ => ?_
  refine (steady_runChecks failed_ne preparation.checks).goesOn.bind fun _ => ?_
  refine poll_found.bind fun _ =>
    (leaveIf_interrupted (steady_finishEarlyInterrupted trivial _)).bind fun _ => ?_
  refine poll_found.bind fun _ => (leaveIf_interrupted hpackaging).bind fun _ => ?_
  refine (hcheck _).bind fun _ => (hcheck _).bind fun _ => ?_
  have hrunning : Steady (· ≠ "interrupted") (setStatus env "running") :=
    steady_setStatus (by decide)
  exact hrunning.goesOn.bind fun _ => (steady_leaveOn steady_provenanceFailure).goesOn

/-- What is known when the select loop has been left. -/
def Steered : Controlled → World → Prop
  | .interrupted, w => w.control.Interrupted
  | _, w => Undecided w

def SteeredOr : Option Controlled → World → Prop
  | some controlled, w => Steered controlled w
  | none, w => Undecided w

theorem receive_elects (ids : List String) :
    Triple Undecided (receive env ids) SteeredOr fun _ => Elected := by
  induction ids with
  | nil => exact Triple.pure fun _ hw => hw
  | cons id rest ih =>
    refine Triple.bind (Q := fun _ => Undecided) (Triple.modify fun w hw => hw) fun _ => ?_
    refine (steady_observe id).goesOn.bind fun failure => ?_
    cases failure with
    | some err => exact Triple.pure fun _ hw => hw
    | none =>
      refine poll_found.bind fun found => ?_
      cases found with
      | true => exact Triple.pure fun _ hw => hw.2 rfl
      | false => exact ih.onEntry fun _ hw => hw.1

theorem turn_elects : Triple Undecided (turn env) SteeredOr fun _ => Elected := by
  refine poll_found.bind fun found => ?_
  cases found with
  | true => exact Triple.pure fun _ hw => hw.2 rfl
  | false =>
    refine Triple.bind (Q := fun _ => Undecided) (fun _ hw => hw.1) fun w => ?_
    exact receive_elects w.queue

section
variable (stream : List (Except BuildError SessionStartEvent × Bool))

theorem control_elects :
    ∀ remote : Remote, Triple Undecided (control env remote stream) Steered fun _ => Elected := by
  induction stream with
  | nil => exact fun remote => Triple.pure fun _ hw => hw
  | cons item rest ih =>
    intro remote
    unfold control
    split
    · exact Triple.pure fun _ hw => hw
    · refine Triple.bind (Q := fun _ => Undecided) (Triple.modify fun w hw => hw) fun _ => ?_
      refine Triple.bind (Q := SteeredOr) ?_ fun turned => ?_
      · split
        · exact turn_elects
        · exact Triple.pure fun _ hw => hw
      · cases turned with
        | some controlled => exact Triple.pure fun _ hw => hw
        | none => exact ih _

theorem followStream_elects :
    Triple Undecided (followStream env stream) Steered fun _ => Elected := by
  refine turn_elects.bind fun turned => ?_
  cases turned with
  | some controlled => exact Triple.pure fun _ hw => hw
  | none => exact control_elects stream {}

end

theorem finishReady_elects (id : String) (emission : Emission) :
    Triple Undecided (finishReady env id emission) (fun _ => Elected) fun _ => Elected := by
  have hstop {S : String → Prop} {exit : Command Nat} (hexit : Steady S exit) :
      Steady S (do recordBestEffortStop env id; exit) :=
    (steady_recordBestEffortStop id).bind fun _ => hexit
  have hinterrupted : Steady (fun _ => True) (finishInterruptedSession env id) :=
    steady_finishInterruptedSession trivial id
  have hready : Steady (· ≠ "interrupted") (finish env "ready") := steady_finish (by decide)
  refine Triple.bind (Q := fun _ => Undecided) (fun _ hw => hw) fun w => ?_
  refine (hstop (steady_finishSessionFailure failed_ne _ _)).leaves.bind fun _ => ?_
  refine poll_found.bind fun _ => (leaveIf_interrupted hinterrupted).bind fun _ => ?_
  refine poll_found.bind fun interrupted => (hready.awaited interrupted).bind fun failure => ?_
  refine (leaveIf_interrupted hinterrupted).bind fun _ => ?_
  refine (steady_leaveOn fun err => hstop (steady_provenanceFailure err)).goesOn.bind fun _ => ?_
  refine poll_found.bind fun _ => (leaveIf_interrupted hinterrupted).bind fun _ => ?_
  refine (emitSessionId_elects id emission).bind fun announced => ?_
  split
  · exact leave_triple hinterrupted.endsInterrupted
  · exact leave_triple (hstop (steady_finishSessionFailure failed_ne _ _)).ends
  · exact (steady_evidenceExit 0).ends

theorem finishOutcome_elects (request : Request) (outcome : Except BuildError SessionStartResult) :
    Triple Undecided (finishOutcome env request outcome) (fun _ => Elected) fun _ => Elected := by
  cases outcome with
  | ok result =>
    refine Triple.bind (Q := fun _ => Undecided) (Triple.modify fun _ hw => hw) fun _ => ?_
    refine (steady_recordErrors result.errors).goesOn.bind fun _ => ?_
    split
    · exact finishReady_elects _ request.emission
    · exact (steady_finishExited failed_ne result).ends.onEntry fun _ hw => hw.uninterrupted
  | error err =>
    exact (steady_stopObserved.bind fun _ =>
      steady_finishRemoteSessionError failed_ne err request.connection).ends.onEntry
        fun _ hw => hw.uninterrupted

theorem conclude_elects (request : Request) (controlled : Controlled) :
    Triple (Steered controlled) (conclude env request controlled) (fun _ => Elected)
      fun _ => Elected := by
  cases controlled with
  | completed outcome =>
    have hstop (id err : String) : Steady (· ≠ "interrupted") (stopUnrecorded env id err) :=
      steady_leave ((steady_recordBestEffortStop id).bind fun _ => steady_provenanceFailure err)
    refine Triple.bind (Q := fun _ => Undecided) (fun _ hw => hw) fun w => ?_
    exact (steady_drain hstop w.queue).goesOn.bind fun _ => finishOutcome_elects request outcome
  | interrupted =>
    have hend : Steady (fun _ => True) (finishInterrupted env) := by
      refine steady_get.bind fun w => ?_
      split
      · exact steady_finishInterruptedSession trivial _
      · exact steady_finishEarlyInterrupted trivial _
    exact (steady_get.bind fun w => (steady_drain (fun _ _ => steady_pure ()) w.queue).bind
      fun _ => hend).endsInterrupted
  | provenance err =>
    exact (steady_stopObserved.bind fun _ => steady_provenanceFailure err).ends.onEntry
      fun _ hw => Undecided.uninterrupted hw

theorem sessionStartCommand_elects (request : Request) :
    Triple Undecided (sessionStartCommand env request) (fun _ => Elected) fun _ => Elected :=
  (prepare_elects request.preparation).bind fun _ => (followStream_elects request.stream).bind
    fun controlled => conclude_elects request controlled

/-! ### The update -/

theorem prepareUpdate_elects (preparation : UpdatePreparation) :
    Triple Undecided (prepareUpdate env preparation) (fun _ => Undecided) fun _ => Elected := by
  have hearly (message : String) : Steady (fun _ => True) (finishEarly env .update message) :=
    steady_finishEarly trivial .update message
  have hpackaging : Steady (fun _ => True) (abandonUpdatePackaging env preparation.cleanup) := by
    unfold abandonUpdatePackaging
    split
    · exact (steady_error _).bind fun _ => hearly _
    · exact hearly _
  have hcheck (failure : Option String) : Triple Undecided
      (leaveOn failure fun message => finishSessionFailure env message false)
      (fun _ => Undecided) fun _ => Elected :=
    (steady_leaveOn fun err => steady_finishSessionFailure failed_ne err false).goesOn
  have hwrite : Steady (· ≠ "interrupted") (persist env .provenance id) :=
    steady_persist .provenance fun _ hp => hp
  have hrunning : Steady (· ≠ "interrupted") (setStatus env "running") :=
    steady_setStatus (by decide)
  have hleave (failure : Option String) : Triple Undecided (leaveOn failure provenanceFailure)
      (fun _ => Undecided) fun _ => Elected := (steady_leaveOn steady_provenanceFailure).goesOn
  refine poll_found.bind fun _ => (leaveIf_interrupted (hearly _)).bind fun _ => ?_
  refine (steady_runChecks failed_ne preparation.arguments).goesOn.bind fun _ => ?_
  refine hwrite.goesOn.bind fun _ => (hleave _).bind fun _ => ?_
  refine (steady_runChecks failed_ne preparation.connection).goesOn.bind fun _ => ?_
  refine hwrite.goesOn.bind fun _ => (hleave _).bind fun _ => ?_
  refine (hcheck _).bind fun _ => ?_
  refine poll_found.bind fun _ => (leaveIf_interrupted (hearly _)).bind fun _ => ?_
  refine poll_found.bind fun _ => (leaveIf_interrupted hpackaging).bind fun _ => ?_
  refine (hcheck _).bind fun _ => (hcheck _).bind fun _ => ?_
  exact hrunning.goesOn.bind fun _ => hleave _

theorem finishUpdate_elects (revision : String) (emission : Emission) :
    Triple Undecided (finishUpdate env revision emission) (fun _ => Elected) fun _ => Elected := by
  have hearly (message : String) : Steady (fun _ => True) (finishEarly env .update message) :=
    steady_finishEarly trivial .update message
  have hdone : Steady (· ≠ "interrupted") (finish env "succeeded") := steady_finish (by decide)
  refine poll_found.bind fun interrupted => (hdone.awaited interrupted).bind fun failure => ?_
  refine (leaveIf_interrupted (hearly _)).bind fun _ => ?_
  refine (steady_leaveOn steady_provenanceFailure).goesOn.bind fun _ => ?_
  refine (emitSessionId_elects revision emission).bind fun announced => ?_
  split
  · exact (hearly _).endsInterrupted
  · exact (steady_evidenceExit 0).ends
  · exact (steady_finishSessionFailure failed_ne _ _).ends

theorem sessionUpdateCommand_elects (update : Update) :
    Triple Undecided (sessionUpdateCommand env update) (fun _ => Elected) fun _ => Elected := by
  refine (prepareUpdate_elects update.preparation).bind fun _ => ?_
  refine poll_found.bind fun _ =>
    (leaveIf_interrupted (steady_finishEarly trivial .update _)).bind fun _ => ?_
  split
  · exact (steady_finishRemoteSessionError failed_ne _ _).ends.onEntry fun _ hw => hw.uninterrupted
  · exact (steady_runChecks failed_ne update.checks).goesOn.bind fun _ =>
      finishUpdate_elects _ update.emission

/-! ### The whole run -/

theorem finishSessionFailureElected_elects (operation : Operation) (message : String)
    (connectionFailure : Bool) :
    Triple Undecided (finishSessionFailureElected env operation message connectionFailure)
      (fun _ => Elected) fun _ => Elected := by
  refine poll_found.bind fun interrupted => ?_
  refine ((steady_finishSessionFailure failed_ne message connectionFailure).awaited
    interrupted).bind fun exit => ?_
  cases interrupted with
  | true =>
    exact (steady_finishEarly trivial operation _).endsInterrupted.onEntry fun _ hw => hw.2 rfl
  | false => exact Triple.pure fun _ hw => hw.1.elected

theorem sessionMain_elects (launch : Launch) (operation : Operation) {command : Command Nat}
    (hcommand : Triple Undecided command (fun _ => Elected) fun _ => Elected) :
    Triple Undecided (sessionMain env launch operation command) (fun _ => Elected)
      fun _ => Elected := by
  have hearly (message : String) : Steady (fun _ => True) (finishEarly env operation message) :=
    steady_finishEarly trivial operation message
  have hdisabled : Triple Undecided (refuseDisabled env operation) (fun _ => Elected)
      fun _ => Elected :=
    poll_found.bind fun _ => (leaveIf_interrupted (hearly _)).bind fun _ =>
      finishSessionFailureElected_elects operation _ true
  refine (poll_found.onReturn fun _ _ hw => hw.1).bind fun _ => ?_
  refine poll_found.bind fun interrupted => ?_
  refine (leaveIf_triple (Triple.pure fun _ hw => hw.1.elected)).bind fun _ => ?_
  refine (leaveIf_interrupted (hearly _)).bind fun _ => ?_
  refine poll_found.bind fun interrupted => ?_
  refine (leaveOn_stays fun err => (finishSessionFailureElected_elects operation _ false).onEntry
    fun _ hw => hw.1).bind fun _ => ?_
  refine (leaveIf_interrupted (hearly _)).bind fun _ => ?_
  refine (leaveOn_stays fun err => finishSessionFailureElected_elects operation _ false).bind
    fun _ => ?_
  refine poll_found.bind fun _ => (leaveIf_interrupted (hearly _)).bind fun _ => ?_
  exact (leaveIf_triple hdisabled).bind fun _ => hcommand

/-! ### The control on its own -/

inductive ControlOp
  | pollPending
  | interrupted
  | claimCompletion
  deriving DecidableEq, Repr

/-- One operation of the control and its answer; for the future `interrupted()`, one
poll of it. -/
def operate (env : Environment) : ControlOp → Command Bool
  | .pollPending | .interrupted => poll env
  | .claimCompletion => claimCompletion env

def operateAll (env : Environment) : List ControlOp → Command (List (ControlOp × Bool))
  | [] => return []
  | op :: rest => do
      let answer ← operate env op
      let answers ← operateAll env rest
      return (op, answer) :: answers

theorem poll_completed (h : w.interrupt = .completed) : poll env w = .ok false w := by
  unfold poll
  simp only [h]

theorem operate_completed (op : ControlOp) (h : w.interrupt = .completed) :
    operate env op w = .ok false w := by
  cases op with
  | pollPending => exact poll_completed h
  | interrupted => exact poll_completed h
  | claimCompletion =>
    have hget : (get : Command World) w = .ok w w := rfl
    show claimCompletion env w = .ok false w
    rw [claimCompletion, bind_of_ok (poll_completed h), if_neg Bool.false_ne_true, bind_of_ok hget, h]
    rfl

/-- Behind a claim every answer is negative. -/
theorem operateAll_completed (ops : List ControlOp) (h : w.interrupt = .completed) :
    operateAll env ops w = .ok (ops.map (·, false)) w := by
  induction ops with
  | nil => rfl
  | cons op rest ih =>
    rw [operateAll, bind_of_ok (operate_completed op h), bind_of_ok ih]
    rfl

theorem operate_triple (op : ControlOp) : Triple Uninterrupted (operate env op)
      (fun answer w => Uninterrupted w ∧
        ((op, answer) = (.claimCompletion, true) → w.interrupt = .completed)) E := by
  intro w hw
  show Ends _ _ (operate env op w)
  obtain ⟨hundecided | hclaimed, hstatus⟩ := hw
  · cases op with
    | pollPending =>
      exact (poll_found w ⟨hundecided, hstatus⟩).mono
        (fun _ _ hw => ⟨hw.1.uninterrupted, by simp⟩) fun _ _ hw => hw
    | interrupted =>
      exact (poll_found w ⟨hundecided, hstatus⟩).mono
        (fun _ _ hw => ⟨hw.1.uninterrupted, by simp⟩) fun _ _ hw => hw
    | claimCompletion =>
      refine (claimCompletion_triple w ⟨hundecided, hstatus⟩).mono (fun answer w hw => ?_)
        fun _ _ hw => hw
      cases answer with
      | true => exact ⟨⟨.inr (hw.1 rfl).1, (hw.1 rfl).2⟩, fun _ => (hw.1 rfl).1.state⟩
      | false => exact ⟨(hw.2 rfl).1.uninterrupted, by simp⟩
  · rw [operate_completed op hclaimed.state]
    exact ⟨⟨.inr hclaimed, hstatus⟩, by simp⟩

theorem operateAll_triple (ops : List ControlOp) : Triple Uninterrupted (operateAll env ops)
      (fun answers w => Uninterrupted w ∧
        answers.Pairwise fun a b => a = (.claimCompletion, true) → b.2 = false) E := by
  induction ops with
  | nil => exact Triple.pure fun _ hw => ⟨hw, .nil⟩
  | cons op rest ih =>
    refine (operate_triple op).bind fun answer w hw => ?_
    show Ends _ _ ((operateAll env rest >>= fun answers => pure ((op, answer) :: answers)) w)
    obtain ⟨answers, w', hrun, hw', hpairwise⟩ | ⟨e, w', hrun, hw'⟩ :=
      ih.run_cases hw.1
    · rw [bind_of_ok hrun]
      refine ⟨hw', List.pairwise_cons.mpr ⟨fun b hb hclaim => ?_, hpairwise⟩⟩
      rw [operateAll_completed rest (hw.2 hclaim)] at hrun
      cases hrun
      obtain ⟨later, -, rfl⟩ := List.mem_map.mp hb
      rfl
    · rw [bind_of_error hrun]
      exact hw'

end

/-- Either the signal or the completion has been reported, and no byte has been
written in a run that counts as interrupted. -/
structure Exclusive (w : World) : Prop where
  written : 0 < w.written → w.provenance.status ≠ "interrupted" ∧ Report.interrupted ∉ w.reports
  interrupted : w.provenance.status = "interrupted" → w.written = 0
  reports : ¬ (Report.interrupted ∈ w.reports ∧ Report.completed ∈ w.reports)

theorem Elected.exclusive (h : Elected w) : Exclusive w := by
  obtain ⟨⟨hexclusive, houtput⟩, hstatus⟩ := h
  have hwritten : 0 < w.written → w.provenance.status ≠ "interrupted" ∧
      Report.interrupted ∉ w.reports := by
    intro hpos
    have huntold : Report.interrupted ∉ w.reports := fun htold => hexclusive ⟨htold, houtput hpos⟩
    exact ⟨fun heq => huntold (hstatus heq), huntold⟩
  refine ⟨hwritten, fun heq => ?_, hexclusive⟩
  by_contra hne
  exact (hwritten (Nat.pos_of_ne_zero hne)).1 heq

theorem undecided_start : Undecided {} :=
  ⟨⟨by simp [World.control], by simp [World.control], by simp [World.control], rfl⟩, by decide⟩

theorem worldOf_exclusive {run : Command Nat}
    (h : Triple Undecided run (fun _ => Elected) fun _ => Elected) : Exclusive (worldOf run) := by
  unfold worldOf
  obtain ⟨code, w, hrun, hw⟩ | ⟨code, w, hrun, hw⟩ := h.run_cases undecided_start
  · rw [hrun]
    exact hw.exclusive
  · rw [hrun]
    exact hw.exclusive

/-- **Interrupt election.** However the operations of the control follow each other,
behind a successful claim every answer is negative, and not both answers are ever
given. A start or an update that has written a byte of its ID or revision is not
interrupted, and one that is interrupted has written none. -/
theorem interrupt_elects_one (env : Environment) :
    (∀ ops answers w, operateAll env ops {} = .ok answers w →
      answers.Pairwise (fun a b => a = (.claimCompletion, true) → b.2 = false) ∧
      ¬ (Report.interrupted ∈ w.reports ∧ Report.completed ∈ w.reports)) ∧
    (∀ launch request, Exclusive (startRun env launch request)) ∧
    ∀ launch update, Exclusive (updateRun env launch update) := by
  refine ⟨fun ops answers w hrun => ?_, fun launch request => ?_, fun launch update => ?_⟩
  · have hall : Triple Uninterrupted (operateAll env ops) _ fun _ _ => True := operateAll_triple ops
    have hends := hall {} undecided_start.uninterrupted
    rw [EStateM.run, hrun] at hends
    exact ⟨hends.2, hends.1.elected.1.exclusive⟩
  · exact worldOf_exclusive (sessionMain_elects launch .start (sessionStartCommand_elects request))
  · exact worldOf_exclusive (sessionMain_elects launch .update (sessionUpdateCommand_elects update))

example : (startRun fullDisk {} noisyStart).written = 6 := by
  decide +kernel

end IndenturedServer.Client
