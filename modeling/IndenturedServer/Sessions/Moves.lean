import IndenturedServer.Sessions.Sections
import IndenturedServer.Sessions.Step

/-!
What one step of a session can do.

The step functions follow the source arm by arm. Here each of them is
inverted once, into the few shapes that later arguments distinguish: which
data a step touches, which section it runs, and where it leaves its thread.
Invariants are proved by cases on these shapes and never unfold a step
function.
-/

namespace IndenturedServer.Sessions

variable {cfg : SessionConfig} {s s' : Session} {t : Nat}

/-! ### Calls -/

/-- A call that was turned away, with its reason, or a retried update. -/
def Result.rejects : Result → Bool
  | .stop (.error _) | .admission _ | .updateAdmission _ => true
  | _ => false

inductive CallStep (s : Session) (t : Nat) (op : Call) : Session → Prop
  /-- A caller that is not a client terminates the session, or leaves it. -/
  | request (o : Outcome)
      (hr : (s.log.spawning = true → s.state ≠ .initializing false) → Requests false s.state o) :
      CallStep s t op (s.perform t o .requester fun _ => .returned .unit)
  | stop (hop : op = .stop) :
      CallStep s t op (s.perform t (stop s.state) .stopper fun
        | .delegated => .stopWaiting
        | _ => .returned (.stop (.error .conflict)))
  | begin (hst : s.state = .initializing false) :
      CallStep s t op (s.perform t { state := .initializing true, verdict := .proceed } .requester
        fun _ => .initializer .initializeSession)
  | reject (r : Result) (hr : r.rejects = true) : CallStep s t op (s.setThread t (.returned r))
  | startAction (n : Nat) (hst : s.state = .ready n) :
      CallStep s t op (({ s with state := .action t }.setThread t (.action .run)).setStream t
        { phase := .polling })
  | startUpdate (n : Nat) (request : UpdateRequest) (hop : op = .startUpdate request)
      (hst : s.state = .ready n) (hstarts : admitUpdate s.updateData request = .ok .start) :
      CallStep s t op ({ s with state := .updating t }.setThread t (.update request .begin))

theorem callStep_cases {op : Call} (h : callStep cfg s t op = some s') : CallStep s t op s' := by
  cases op with
  | beginInitialization =>
    simp only [callStep, Option.some.injEq] at h
    subst h
    rcases beginInitialization_cases s.initializationCancellation (s.expired cfg) s.state with
      ⟨hst, ho⟩ | hr
    · rw [ho]
      exact .begin hst
    · -- a request never answers `proceed`, so the worker's point does not matter
      generalize beginInitialization _ _ s.state = o at hr
      have hrequest : CallStep s t .beginInitialization _ := .request o fun _ => hr
      cases hr <;> exact hrequest
  | cancelUpload =>
    simp only [callStep, Option.some.injEq] at h
    subst h
    exact .request _ fun _ => cancelUpload_requests _
  | disconnect =>
    simp only [callStep, Option.some.injEq] at h
    subst h
    exact .request _ fun _ => disconnect_requests _
  | serviceFailed =>
    simp only [callStep] at h
    split at h <;> cases h
    rename_i hspawning
    exact .request _ fun hspawn => serviceFailed_requests (hspawn hspawning)
  | stop =>
    simp only [callStep, Option.some.injEq] at h
    subst h
    exact .stop rfl
  | stopNotFound =>
    simp only [callStep] at h
    split at h <;> cases h
    exact .reject _ rfl
  | expireLifetime =>
    simp only [callStep] at h
    split at h <;> cases h
    exact .request _ fun _ => terminateLive_requests false _
  | expireIdle =>
    simp only [callStep, Option.some.injEq] at h
    subst h
    exact .request _ fun _ => expireIdle_requests _ _ _
  | startAction name =>
    simp only [callStep] at h
    split at h
    · split at h <;> cases h
      · rename_i st hst
        obtain ⟨⟨n, hready⟩, rfl⟩ := startAction_ok hst
        exact .startAction n hready
      · exact .reject _ rfl
    · cases h
      exact .reject _ rfl
  | startUpdate request =>
    simp only [callStep] at h
    split at h
    · split at h <;> cases h
      · rename_i hst
        obtain ⟨⟨n, hready⟩, -, hstarts⟩ := startUpdate_ok hst
        exact .startUpdate n request rfl hready hstarts
      · exact .reject _ rfl
      · exact .reject _ rfl
    · cases h
      exact .reject _ rfl

/-! ### The initialize worker -/

/-- Before the services have been dealt with. -/
def InitPc.early : InitPc → Bool
  | .initializeSession | .recordStart => true
  | _ => false

inductive InitStep (cfg : SessionConfig) (s : Session) (t : Nat) :
    InitPc → Answer → Session → Prop
  /-- The worker goes on without touching the record of its services. -/
  | move {pc : InitPc} {answer : Answer} (pc' : InitPc) (workspace : Bool)
      (hpc : ∀ rest, pc ≠ .recordService rest) (hpc' : pc' ≠ .commitElection)
      (hearly : pc'.early = true → pc.early = true) :
      InitStep cfg s t pc answer ({ s with workspace := workspace }.setThread t (.initializer pc'))
  | recordStart (w : WriteOutcome) (hw : w.error? = none) :
      InitStep cfg s t .recordStart (.wrote w)
        ((s.writeMetadata w { s.startingMetadata cfg with services := [] }).noteSpawning.setThread t
          (.initializer (.spawnService cfg.sortedServices)))
  | recordStartFailed (w : WriteOutcome) :
      InitStep cfg s t .recordStart (.wrote w)
        ((s.writeMetadata w { s.startingMetadata cfg with services := [] }).setThread t
          (.initializer .cleanup))
  | spawn {answer : Answer} (service : SessionServiceConfig) (rest : List SessionServiceConfig)
      (process : DurableServiceProcess) :
      InitStep cfg s t (.spawnService (service :: rest)) answer
        ({ s with services := s.services ++ [process] }.setThread t
          (.initializer (.recordService rest)))
  | recordService (w : WriteOutcome) (rest : List SessionServiceConfig) (pc' : InitPc)
      (hpc' : pc' = .waitReady rest ∨ pc' = .cleanup) :
      InitStep cfg s t (.recordService rest) (.wrote w)
        ((s.writeMetadata w (s.startingMetadata cfg)).setThread t (.initializer pc'))
  | commitMetadata (w : WriteOutcome) (pc' : InitPc)
      (hpc' : pc' = .commitElection ∧ w.error? = none ∨ pc' = .commitFailed) :
      InitStep cfg s t .commitMetadata (.wrote w)
        ((s.writeMetadata w (s.readyMetadata cfg 0)).setThread t (.initializer pc'))
  /-- The check before the metadata is written lets the worker pass. -/
  | pass :
      InitStep cfg s t .commitCheck .go
        ((s.enter t { state := s.state, verdict := .proceed }).setThread t
          (.initializer .commitMetadata))
  | abandon {pc : InitPc} (pc' : InitPc) (hpc : ∀ rest, pc ≠ .recordService rest)
      (hpc' : pc' = .cleanup ∨ pc' = .dropMetadata) :
      InitStep cfg s t pc .go
        ((s.enter t { state := abandonInitialization s.state }).setThread t (.initializer pc'))
  /-- The election: the session becomes ready. -/
  | win (started : Bool) (hst : s.state = .initializing started) :
      InitStep cfg s t .commitElection .go
        ((s.enter t { state := .ready s.now, verdict := .proceed }).setThread t (.returned .unit))
  | dropMetadata (succeeded : Bool) :
      InitStep cfg s t .dropMetadata (.removed succeeded)
        ({ s with metadata := if succeeded then none else s.metadata }.setThread t
          (.initializer .cleanup))
  | cleanup :
      InitStep cfg s t .cleanup .go
        (s.perform t (initializerCleanup false s.state) .initializer fun _ => .returned .unit)

variable {answer : Answer}

theorem initStep_cases {pc : InitPc} (h : initStep cfg s t pc answer = some s') :
    InitStep cfg s t pc answer s' := by
  unfold initStep at h
  split at h
  case h_1 =>
    cases h
    exact .move _ _ (by simp) (by split_ifs <;> simp) fun _ => rfl
  case h_2 =>
    rename_i w
    cases hw : w.error? with
    | none =>
      simp only [hw, Option.some.injEq] at h
      subst h
      exact .recordStart w hw
    | some err =>
      simp only [hw, Option.some.injEq] at h
      subst h
      exact .recordStartFailed w
  case h_4 =>
    split at h
    · cases h
      exact .move _ _ (by simp) (by simp) (by rintro ⟨⟩)
    · split at h <;> cases h
      · exact .move _ _ (by simp) (by simp) (by rintro ⟨⟩)
      · exact .spawn _ _ _
  case h_5 =>
    cases h
    refine .recordService _ _ _ ?_
    split
    · exact .inl rfl
    · exact .inr rfl
  case h_8 =>
    cases h
    unfold commitCheck
    split
    · exact .pass
    · exact .abandon .cleanup (by simp) (.inl rfl)
  case h_9 =>
    rename_i w
    cases h
    refine .commitMetadata _ _ ?_
    cases hw : w.error? with
    | none => exact .inl ⟨rfl, rfl⟩
    | some err => exact .inr rfl
  case h_10 =>
    cases h
    exact .abandon .cleanup (by simp) (.inl rfl)
  case h_11 =>
    cases h
    unfold commitElection
    split
    · rename_i hwins
      obtain ⟨started, hst⟩ := initializationWins_cases hwins
      exact .win started hst
    · exact .abandon .dropMetadata (by simp) (.inr rfl)
  case h_12 =>
    cases h
    exact .dropMetadata _
  case h_13 =>
    cases h
    exact .cleanup
  case h_14 => cases h
  all_goals
    cases h
    exact .move _ _ (by simp) (by simp) (by rintro ⟨⟩)

/-! ### The action worker -/

/-- The final event has not been put in the channel yet. -/
def ActionPc.unsent : ActionPc → Bool
  | .run | .snapshot | .canPublish | .deliver => true
  | .enqueueCheck _ | .enqueueSend _ | .enqueueFull _ => true
  | _ => false

/-- The worker has collected its artifacts and not given up on them. -/
def ActionPc.holdsArchive : ActionPc → Bool
  | .run | .snapshot | .discard | .finish => false
  | _ => true

/-- A move on the way to the acknowledgement: it does not go back before the
send. -/
def ActionPc.leads (pc pc' : ActionPc) : Bool :=
  (!pc'.unsent || pc.unsent) && pc.holdsArchive && pc'.holdsArchive

/-- Why a worker gives its delivery up. -/
inductive Session.GivesUp (s : Session) (t : Nat) : ActionPc → Prop
  | unsent {pc : ActionPc} (hpc : pc.unsent = true) : s.GivesUp t pc
  | cancelled (dl : Nat) (h : s.cancellation t = true) : s.GivesUp t (.ackCancel dl)
  | refused (dl : Nat) (h : (s.streams t).ack = some false) : s.GivesUp t (.ackPoll dl)
  | closed (dl : Nat) (hack : (s.streams t).ack = none) (h : (s.streams t).closed = true) :
      s.GivesUp t (.ackPoll dl)
  | expired (dl : Nat) (h : dl ≤ s.now) : s.GivesUp t (.ackDeadline dl)

inductive ActionStep (s : Session) (t : Nat) : ActionPc → Answer → Session → Prop
  | ran {answer : Answer} : ActionStep s t .run answer (s.setThread t (.action .snapshot))
  /-- The process or the snapshot failed: there is no archive. -/
  | fail {pc : ActionPc} {answer : Answer} (hpc : pc = .run ∨ pc = .snapshot) :
      ActionStep s t pc answer (s.setThread t (.action .finish))
  | collect (archive : Option ArtifactArchive) (restrictions : Option ArtifactRestrictions) :
      ActionStep s t .snapshot (.collected archive restrictions)
        ({ s with
          archives := Function.update s.archives t archive.isSome
          log := { s.log with
            published := Function.update s.log.published t archive.isSome } }.setThread t
              (.action .canPublish))
  | collectFail (left : Bool) :
      ActionStep s t .snapshot (.collectFailed left)
        ({ s with archives := Function.update s.archives t left }.setThread t (.action .discard))
  | move {pc : ActionPc} {answer : Answer} (pc' : ActionPc) (hleads : pc.leads pc' = true) :
      ActionStep s t pc answer (s.setThread t (.action pc'))
  | send {answer : Answer} (dl : Nat) :
      ActionStep s t (.enqueueSend dl) answer ((s.setThread t (.action .enqueued)).setStream t
        { s.streams t with queued := true })
  | giveUp {pc : ActionPc} {answer : Answer} (hwhy : s.GivesUp t pc) :
      ActionStep s t pc answer (s.setThread t (.action .discard))
  | receive {answer : Answer} (dl : Nat) (hack : (s.streams t).ack = some true) :
      ActionStep s t (.ackPoll dl) answer (s.setThread t (.returned (.action true)))
  | discard (succeeded : Bool) :
      ActionStep s t .discard (.removed succeeded)
        ({ s with
          archives := Function.update s.archives t (s.archives t && !succeeded) }.setThread t
            (.action .finish))
  | finish {answer : Answer} :
      ActionStep s t .finish answer (s.perform t (finishAction t false s.now s.state) .action
        fun _ => .returned (.action false))

theorem actionStep_cases {pc : ActionPc} (h : actionStep cfg s t pc answer = some s') :
    ActionStep s t pc answer s' := by
  unfold actionStep at h
  split at h
  case h_1 =>
    cases h
    exact .ran
  case h_2 =>
    cases h
    exact .fail (.inl rfl)
  case h_3 =>
    cases h
    exact .fail (.inr rfl)
  case h_4 =>
    cases h
    exact .collect _ _
  case h_5 =>
    cases h
    exact .collectFail _
  case h_6 =>
    cases h
    split
    · exact .move _ rfl
    · exact .giveUp (.unsent rfl)
  case h_8 =>
    cases h
    split
    · exact .giveUp (.unsent rfl)
    · exact .move _ rfl
  case h_9 =>
    split at h
    · cases h
      exact .giveUp (.unsent rfl)
    · split at h <;> cases h
      · exact .send _
      · exact .move _ rfl
  case h_10 =>
    cases h
    split
    · exact .giveUp (.unsent rfl)
    · exact .move _ rfl
  case h_12 =>
    cases h
    split
    · exact .giveUp (.cancelled _ ‹_›)
    · exact .move _ rfl
  case h_13 =>
    split at h
    · cases h
      exact .receive _ ‹_›
    · cases h
      exact .giveUp (.refused _ ‹_›)
    · cases h
      split
      · exact .giveUp (.closed _ ‹_› ‹_›)
      · exact .move _ rfl
  case h_14 =>
    cases h
    split
    · exact .giveUp (.expired _ ‹_›)
    · exact .move _ rfl
  case h_15 =>
    cases h
    exact .discard _
  case h_16 =>
    cases h
    exact .finish
  case h_17 => cases h
  all_goals
    cases h
    exact .move _ rfl

/-! ### The response stream of an action -/

/-- A section of the stream that does not accept the delivery. -/
inductive Session.Turns (s : Session) (t : Nat) : Outcome → Prop
  | nothing : s.Turns t (.unchanged s.state)
  | ends (hst : s.state = .action t) :
      s.Turns t ⟨.terminating ⟨false, .action⟩, false, some t, .delegated⟩

inductive StreamStep (cfg : SessionConfig) (s : Session) (t : Nat) : StreamOp → Session → Prop
  | receive (hphase : (s.streams t).phase = .polling) (hqueued : (s.streams t).queued = true) :
      StreamStep cfg s t .receiveFinal
        (s.setStream t { s.streams t with phase := .holding, queued := false })
  | accept (hphase : (s.streams t).phase = .holding) (hst : s.state = .action t)
      (ho : (acknowledgeActionDelivery (s.cancellation t) (s.expired cfg) t s.now s.state).verdict =
        .proceed) :
      StreamStep cfg s t .acknowledge
        (((s.enter t { state := .ready s.now, verdict := .proceed }).setStream t
          { s.streams t with phase := .answered true }).noteAccepted t)
  | refuse (hphase : (s.streams t).phase = .holding) (o : Outcome) (ho : s.Turns t o) :
      StreamStep cfg s t .acknowledge
        ((s.enter t o).setStream t { s.streams t with phase := .answered false })
  | sendAck (accepted : Bool) (hphase : (s.streams t).phase = .answered accepted) :
      StreamStep cfg s t .sendAck
        (s.setStream t { s.streams t with phase := .settled, ack := some accepted })
  | drop (hphase : (s.streams t).phase = .polling ∨ (s.streams t).phase = .holding ∨
        (s.streams t).phase = .settled) (o : Outcome) (ho : s.Turns t o) :
      StreamStep cfg s t .drop
        ((s.enter t o).setStream t { s.streams t with phase := .dropping })
  | close (hphase : (s.streams t).phase = .dropping) :
      StreamStep cfg s t .close
        (s.setStream t { s.streams t with phase := .dropped, queued := false, closed := true })

theorem streamStep_cases {op : StreamOp} (h : streamStep cfg s t op = some s') :
    StreamStep cfg s t op s' := by
  cases op with
  | receiveFinal =>
    simp only [streamStep] at h
    split at h <;> cases h
    rename_i hphase
    exact .receive hphase.1 hphase.2
  | acknowledge =>
    simp only [streamStep] at h
    split at h
    · rename_i hphase
      simp only [Option.some.injEq] at h
      subst h
      rcases acknowledgeActionDelivery_cases (s.cancellation t) (s.expired cfg) t s.now s.state with
        ⟨hst, -, ho⟩ | ⟨hst, ho⟩ | ho
      · rw [ho]
        exact .accept hphase hst (by rw [ho])
      · rw [ho]
        exact .refuse hphase _ (.ends hst)
      · rw [ho]
        exact .refuse hphase _ .nothing
    · cases h
  | sendAck =>
    simp only [streamStep] at h
    split at h <;> cases h
    exact .sendAck _ ‹_›
  | drop =>
    simp only [streamStep] at h
    have hturns : s.Turns t (disconnectAction t s.state) := by
      rcases disconnectAction_cases t s.state with ⟨hst, ho⟩ | ho
      · rw [ho]
        exact .ends hst
      · rw [ho]
        exact .nothing
    split at h <;> cases h
    · exact .drop (.inl ‹_›) _ hturns
    · exact .drop (.inr (.inl ‹_›)) _ hturns
    · exact .drop (.inr (.inr ‹_›)) _ hturns
  | close =>
    simp only [streamStep] at h
    split at h <;> cases h
    exact .close ‹_›

/-! ### The update worker -/

inductive UpdateStep (cfg : SessionConfig) (s : Session) (t : Nat) (request : UpdateRequest) :
    UpdatePc → Session → Prop
  | refuse (err : SourceUpdateError) (herr : err.rollbackProven = false) :
      UpdateStep cfg s t request .begin (s.setThread t (.update request (.failed err)))
  | prepare :
      UpdateStep cfg s t request .begin (s.setThread t (.update request
        (.apply (s.readyMetadata cfg (request.baseRevision + 1)))))
  | mutate (md : DurableSessionMetadata) (changed deleted : List SessionUpdateEvidence) :
      UpdateStep cfg s t request (.apply md)
        (s.setThread t (.update request (.commit md changed deleted)))
  | applyFail (md : DurableSessionMetadata) (err : SourceUpdateError) (pc' : UpdatePc)
      (herr : err.rollbackProven = true) (hpc' : pc' = .rollback err ∨ pc' = .failed err) :
      UpdateStep cfg s t request (.apply md) (s.setThread t (.update request pc'))
  | commit (md : DurableSessionMetadata) (changed deleted : List SessionUpdateEvidence) :
      UpdateStep cfg s t request (.commit md changed deleted)
        ((((s.writeMetadata .ok md).noteRewrite t .ok).noteApplied request).setThread t
          (.update request (.applied changed deleted)))
  | commitFail (md : DurableSessionMetadata) (changed deleted : List SessionUpdateEvidence)
      (w : WriteOutcome) (err : SourceUpdateError) (herr : err.rollbackProven = false) :
      UpdateStep cfg s t request (.commit md changed deleted)
        (((s.writeMetadata w md).noteRewrite t w).setThread t (.update request (.rollback err)))
  | rollBack (err err' : SourceUpdateError) (herr : err' = err ∨ err'.rollbackProven = false) :
      UpdateStep cfg s t request (.rollback err) (s.setThread t (.update request (.failed err')))
  /-- The update succeeds and the session is ready again. -/
  | succeed (changed deleted : List SessionUpdateEvidence) (hst : s.state = .updating t) :
      UpdateStep cfg s t request (.applied changed deleted)
        (((s.enter t { state := .ready s.now, verdict := .proceed }).setThread t
          (.update request (.returning
            (.ok (updateResponse cfg t request changed deleted))))).succeedUpdate
              cfg t request changed deleted)
  /-- The update fails, everything is proved restored, and the session is
  ready again. -/
  | giveBack (err : SourceUpdateError) (herr : err.rollbackProven = true)
      (hst : s.state = .updating t) :
      UpdateStep cfg s t request (.failed err)
        ((s.enter t { state := .ready s.now, verdict := .proceed }).setThread t
          (.update request (.returning (.error err))))
  /-- The update ends without giving the session back. -/
  | conclude {pc : UpdatePc} (hpc : (∃ err, pc = .failed err) ∨ ∃ changed deleted,
        pc = .applied changed deleted) (o : Outcome) (err err' : SourceUpdateError)
      (ho : (∀ u, s.state = .updating u → u = t) → Concludes .update t s.state o)
      (hv : o.verdict ≠ .proceed) :
      UpdateStep cfg s t request pc (s.perform t o (.update request err)
        fun _ => .returned (.update (.error err')))
  | finish (result : Except SourceUpdateError SessionUpdateResponse) :
      UpdateStep cfg s t request (.returning result) (s.setThread t (.returned (.update result)))
  | lookUp (late : Bool) (hreg : s.registered = true) :
      UpdateStep cfg s t request (.panicked late)
        (s.setThread t (.update request (.panicLookedUp late)))
  | lookUpFail (late : Bool) (hreg : s.registered = false) :
      UpdateStep cfg s t request (.panicked late)
        (s.setThread t (.returned (.update (.error workerPanicked))))
  | handle (late : Bool) (owner : CleanupOwner)
      (howner : ∀ τ, (updateWorkerPanicked s.state).state = .terminating τ → owner = τ.owner) :
      UpdateStep cfg s t request (.panicLookedUp late)
        (s.perform t (updateWorkerPanicked s.state) (.panicHandler owner)
          fun _ => .returned (.update (.error workerPanicked)))

variable {st : SessionState}

theorem finishUpdate_proceeds {cancelled expired : Bool} {now : Nat}
    (h : (finishUpdate cancelled expired t now st).verdict = .proceed) :
    st = .updating t ∧ finishUpdate cancelled expired t now st =
      { state := .ready now, verdict := .proceed } := by
  cases st with
  | updating u =>
    simp only [finishUpdate] at h ⊢
    split at h
    · rename_i hcond
      obtain rfl : u = t := by
        by_contra hne
        simp [hne] at hcond
      exact ⟨rfl, if_pos hcond⟩
    · cases h
  | terminating τ =>
    simp only [finishUpdate] at h
    split at h <;> cases h
  | _ => cases h

theorem finishUpdateError_proceeds {proven : Bool} {now : Nat}
    (h : (finishUpdateError t proven now st).verdict = .proceed) :
    st = .updating t ∧ proven = true ∧ finishUpdateError t proven now st =
      { state := .ready now, verdict := .proceed } := by
  cases st with
  | updating u =>
    by_cases hu : u = t
    · subst hu
      cases proven with
      | true => exact ⟨rfl, rfl, by simp [finishUpdateError]⟩
      | false => simp [finishUpdateError] at h
    · simp [finishUpdateError, hu, Outcome.unchanged] at h
  | terminating τ =>
    simp only [finishUpdateError] at h
    split at h <;> cases h
  | _ => cases h

variable {role : Role}

/-- Only the answer `proceed` asks where a successful worker goes on. -/
theorem Session.perform_congr {o : Outcome} {next : Verdict → Thread} (next' : Verdict → Thread)
    (h : ∀ v, v ≠ .proceed → next v = next' v) (hv : o.verdict ≠ .proceed) :
    s.perform t o role next = s.perform t o role next' := by
  unfold Session.perform
  split
  · rfl
  · rw [h _ hv]

theorem updateStep_cases {request : UpdateRequest} {pc : UpdatePc}
    (h : updateStep cfg s t request pc answer = some s') : UpdateStep cfg s t request pc s' := by
  unfold updateStep at h
  split at h
  case h_1 =>
    split at h
    · cases h
      exact .refuse _ rfl
    · cases h
      exact .refuse _ rfl
    · rename_i revision hrev
      cases h
      obtain rfl : request.baseRevision + 1 = revision := by
        unfold nextRevision at hrev
        split at hrev <;> cases hrev
        rfl
      exact .prepare
    · cases h
  case h_2 =>
    split at h <;> cases h
    exact .mutate _ _ _
  case h_3 =>
    split at h <;> cases h
    split
    · exact .applyFail _ _ _ rfl (.inl rfl)
    · exact .applyFail _ _ _ rfl (.inr rfl)
  case h_4 =>
    rename_i w
    cases w with
    | ok =>
      cases h
      exact .commit _ _ _
    | failedBeforeRename err =>
      cases h
      exact .commitFail _ _ _ _ _ rfl
    | failedAfterRename err =>
      cases h
      exact .commitFail _ _ _ _ _ rfl
  case h_5 =>
    rename_i err failure
    cases h
    refine .rollBack _ _ ?_
    cases failure with
    | none => exact .inl rfl
    | some detail => exact .inr rfl
  case h_6 =>
    simp only [Option.some.injEq] at h
    subst h
    split
    · rename_i hv
      obtain ⟨hst, ho⟩ := finishUpdate_proceeds hv
      rw [ho]
      exact .succeed _ _ hst
    · rename_i hv
      rw [Session.perform_congr (fun _ => .returned (.update (.error
        ⟨.internal, "update lost session ownership", false⟩))) _ hv]
      · exact .conclude (.inr ⟨_, _, rfl⟩) _ _ _ (fun hown => finishUpdate_concludes t s.now _ _ hown) hv
      · intro v hne
        split
        · exact absurd rfl hne
        · rfl
  case h_7 =>
    rename_i err
    cases h
    by_cases hv : (finishUpdateError t err.rollbackProven s.now s.state).verdict = .proceed
    · obtain ⟨hst, hproven, ho⟩ := finishUpdateError_proceeds hv
      rw [ho]
      exact .giveBack err hproven hst
    · rw [Session.perform_congr (fun _ => .returned (.update (.error err))) _ hv]
      · exact .conclude (.inl ⟨err, rfl⟩) _ _ _ (fun _ => finishUpdateError_concludes t s.now _ _) hv
      · intro v hne
        split
        · exact absurd rfl hne
        · rfl
  case h_8 =>
    cases h
    exact .finish _
  case h_9 =>
    split at h
    · cases h
      exact .lookUp _ ‹_›
    · rename_i hreg
      cases h
      exact .lookUpFail _ (by simpa using hreg)
  case h_10 =>
    cases h
    refine .handle _ _ ?_
    intro τ hτ
    rw [hτ]
  case h_11 => cases h

/-! ### `cleanup_entry` -/

/-- Before the metadata file is dealt with, and after the services. -/
def CleanupStage.middle : CleanupStage → Bool
  | .stopServices [] | .teardown | .collectArtifacts | .removeWorkspace => true
  | _ => false

inductive CleanupStep (s : Session) (t : Nat) (role : Role) (call : CleanupCall) : Session → Prop
  | take (hstage : call.stage = .takeServices) :
      CleanupStep s t role call ({ s with services := [] }.setThread t
        (.cleaning role { call with stage := .stopServices s.services.reverse }))
  | stop (service : DurableServiceProcess) (rest : List DurableServiceProcess)
      (failed unproven : Bool) (hstage : call.stage = .stopServices (service :: rest)) :
      CleanupStep s t role call ({ s with log := { s.log with
          unproven := if unproven then s.log.unproven ++ [service] else s.log.unproven } }.setThread t
        (.cleaning role { call with
          stage := .stopServices rest
          serviceCleanupFailed := call.serviceCleanupFailed || failed
          identityCleanupUnproven := call.identityCleanupUnproven || unproven }))
  /-- Teardown, collection of the final artifacts, removal of the workspace. -/
  | move (call' : CleanupCall) (workspace : Bool) (archives : List ArtifactArchive)
      (hstage : call.stage.middle = true)
      (hstage' : call'.stage.middle = true ∨ call'.stage = .removeMetadata)
      (hexplicit : call'.explicit = call.explicit)
      (hunproven : call'.identityCleanupUnproven = call.identityCleanupUnproven)
      (harchives : call.explicit = false → archives = s.log.finalArchives) :
      CleanupStep s t role call ({ s with
        workspace := workspace
        log := { s.log with finalArchives := archives } }.setThread t (.cleaning role call'))
  | keepMetadata (hstage : call.stage = .removeMetadata)
      (hunproven : call.identityCleanupUnproven = true) :
      CleanupStep s t role call
        (s.setThread t (.cleaning role { call with stage := .unregister }))
  | removeMetadata (succeeded : Bool) (hstage : call.stage = .removeMetadata)
      (hunproven : call.identityCleanupUnproven = false) :
      CleanupStep s t role call
        ({ s with metadata := if succeeded then none else s.metadata }.setThread t
          (.cleaning role { call with stage := .unregister }))
  | unregister (hstage : call.stage = .unregister) :
      CleanupStep s t role call ({ s with registered := false }.setThread t
        (.cleaning role { call with stage := .releasePermit }))
  | releasePermit (hstage : call.stage = .releasePermit) :
      CleanupStep s t role call ({ s with permit := false }.setThread t
        (.cleaning role { call with stage := .publish }))
  | publish (response : SessionStopResponse) (hstage : call.stage = .publish) :
      CleanupStep s t role call ({ s with state := .terminated response }.setThread t
        (.returned (role.result response)))

theorem cleanupStep_cases {call : CleanupCall} (h : cleanupStep cfg s t role call answer = some s') :
    CleanupStep s t role call s' := by
  -- a middle stage that keeps the history as it is
  have hmove : ∀ (call' : CleanupCall) (workspace : Bool), call.stage.middle = true →
      (call'.stage.middle = true ∨ call'.stage = .removeMetadata) →
      call'.explicit = call.explicit →
      call'.identityCleanupUnproven = call.identityCleanupUnproven →
      CleanupStep s t role call
        ({ s with workspace := workspace }.setThread t (.cleaning role call')) :=
    fun call' workspace h1 h2 h3 h4 => .move call' workspace s.log.finalArchives h1 h2 h3 h4 fun _ => rfl
  unfold cleanupStep at h
  split at h
  case h_1 =>
    cases h
    exact .take ‹_›
  case h_2 =>
    rename_i hstage
    cases h
    exact hmove _ _ (by rw [hstage]; rfl) (.inl rfl) rfl rfl
  case h_3 =>
    rename_i service rest hstage
    cases h
    have hstop : CleanupStep s t role call _ := .stop service rest false false hstage
    simpa using hstop
  case h_4 =>
    rename_i service rest unproven hstage
    cases h
    have hstop : CleanupStep s t role call _ := .stop service rest true unproven hstage
    simpa using hstop
  case h_5 =>
    rename_i hstage
    simp only at h
    split at h
    · split at h <;> cases h
      exact hmove _ _ (by rw [hstage]; rfl) (.inl rfl) rfl rfl
    · cases h
      exact hmove _ _ (by rw [hstage]; rfl) (.inl rfl) rfl rfl
  case h_6 =>
    rename_i hstage
    split at h
    · rename_i hcollects
      split at h
      · cases h
        refine .move _ _ _ (by rw [hstage]; rfl) (.inl rfl) rfl rfl ?_
        intro hexplicit
        simp [hexplicit] at hcollects
      · cases h
        exact hmove _ _ (by rw [hstage]; rfl) (.inl rfl) rfl rfl
      · cases h
    · cases h
      exact hmove _ _ (by rw [hstage]; rfl) (.inl rfl) rfl rfl
  case h_7 =>
    rename_i hstage
    cases h
    exact hmove _ _ (by rw [hstage]; rfl) (.inr rfl) rfl rfl
  case h_8 =>
    split at h
    · cases h
      exact .keepMetadata ‹_› ‹_›
    · rename_i hunproven
      split at h <;> cases h
      exact .removeMetadata _ ‹_› (by simpa using hunproven)
  case h_9 =>
    cases h
    exact .unregister ‹_›
  case h_10 =>
    cases h
    exact .releasePermit ‹_›
  case h_11 =>
    cases h
    exact .publish _ ‹_›
  case h_12 => cases h

/-! ### All steps -/

inductive SessionStep (cfg : SessionConfig) (s : Session) : Event → Session → Prop
  | tick (elapsed : Nat) : SessionStep cfg s (.tick elapsed) { s with now := s.now + elapsed }
  | call (t : Nat) (op : Call) {s' : Session} (hth : s.threads t = .absent)
      (h : CallStep s t op s') : SessionStep cfg s (.call t op) s'
  | init (t : Nat) (pc : InitPc) (answer : Answer) {s' : Session}
      (hth : s.threads t = .initializer pc) (h : InitStep cfg s t pc answer s') :
      SessionStep cfg s (.run t answer) s'
  | action (t : Nat) (pc : ActionPc) (answer : Answer) {s' : Session}
      (hth : s.threads t = .action pc) (h : ActionStep s t pc answer s') :
      SessionStep cfg s (.run t answer) s'
  | update (t : Nat) (request : UpdateRequest) (pc : UpdatePc) (answer : Answer) {s' : Session}
      (hth : s.threads t = .update request pc) (h : UpdateStep cfg s t request pc s') :
      SessionStep cfg s (.run t answer) s'
  | cleanup (t : Nat) (role : Role) (call : CleanupCall) (answer : Answer) {s' : Session}
      (hth : s.threads t = .cleaning role call) (h : CleanupStep s t role call s') :
      SessionStep cfg s (.run t answer) s'
  /-- A `stop` call that waited gets its response. -/
  | answer (t : Nat) (answer : Answer) (response : SessionStopResponse)
      (hth : s.threads t = .stopWaiting) (hst : s.state = .terminated response) :
      SessionStep cfg s (.run t answer) (s.setThread t (.returned (.stop (.ok response))))
  | stream (t : Nat) (op : StreamOp) {s' : Session} (h : StreamStep cfg s t op s') :
      SessionStep cfg s (.stream t op) s'
  | panic (t : Nat) (request : UpdateRequest) (late : Bool)
      (hpoint : (s.threads t).panicPoint = some (request, late)) :
      SessionStep cfg s (.panic t) (s.setThread t (.update request (.panicked late)))
  | cancelInitialization :
      SessionStep cfg s .cancelInitialization { s with initializationCancellation := true }
  | cancelAction (t : Nat) : SessionStep cfg s (.cancelAction t) (s.raise t)

theorem step_cases {e : Event} (h : step cfg s e = some s') : SessionStep cfg s e s' := by
  cases e with
  | tick elapsed =>
    cases h
    exact .tick elapsed
  | call t op =>
    simp only [step] at h
    split at h
    · exact .call t op ‹_› (callStep_cases h)
    · cases h
  | run t answer =>
    simp only [step, runStep] at h
    split at h
    · exact .init t _ answer ‹_› (initStep_cases h)
    · exact .action t _ answer ‹_› (actionStep_cases h)
    · exact .update t _ _ answer ‹_› (updateStep_cases h)
    · exact .cleanup t _ _ answer ‹_› (cleanupStep_cases h)
    · split at h <;> cases h
      exact .answer t answer _ ‹_› ‹_›
    · cases h
    · cases h
  | stream t op => exact .stream t op (streamStep_cases h)
  | panic t =>
    simp only [step] at h
    split at h <;> cases h
    exact .panic t _ _ ‹_›
  | cancelInitialization =>
    simp only [step] at h
    split at h <;> cases h
    exact .cancelInitialization
  | cancelAction t =>
    simp only [step] at h
    split at h <;> cases h
    exact .cancelAction t

end IndenturedServer.Sessions
