import IndenturedServer.Client.Start

/-!
Which starts abandon a session.

Every exit of `session_start_command` but one requests a stop for the session
that was observed, or has not observed any. The one is the exit of a session
that has become ready: its ID has been printed and there is nothing to stop,
unless the exit code is a failure after all. It is when a write of the
provenance has failed earlier, and the only writes on the way to this exit
whose failure goes unnoticed are those of the messages in the stream.
-/

namespace IndenturedServer.Client

open Foundation World
open Sessions (SessionStartEvent)

/-! ### What the evidence does not touch -/

/-- The part of the world that is not about the provenance or the signal. -/
structure Core where
  observed : Option String
  queue : List String
  stops : List String
  emitted : Bool

open Core

def World.core (w : World) : Core := ⟨w.observed, w.queue, w.stops, w.emitted⟩

/-- The persistence failure is set, and only because the write of a message has
failed. -/
def World.Honest (w : World) : Prop :=
  w.persistenceFailure.isSome = true ↔ (Write.error, false) ∈ w.writes

section
variable {α β : Type} {env : Environment}

def Keeps (x : Command α) : Prop :=
  ∀ P : Core → Prop, Triple (fun w => P w.core) x (fun _ w => P w.core) fun _ w => P w.core

theorem Keeps.bind {x : Command α} {f : α → Command β} (hx : Keeps x)
    (hf : ∀ a, Keeps (f a)) : Keeps (x >>= f) :=
  fun P => (hx P).bind fun a => hf a P

theorem keeps_pure (a : α) : Keeps (pure a : Command α) :=
  fun _ => Triple.pure fun _ h => h

theorem keeps_get : Keeps (get : Command World) :=
  fun _ _ h => h

theorem keeps_modify {f : World → World} (h : ∀ w, (f w).core = w.core) :
    Keeps (modify f : Command PUnit) := by
  intro P
  refine Triple.modify fun w hw => ?_
  rw [h w]
  exact hw

theorem keeps_persist (write : Write) (change : Provenance → Provenance) :
    Keeps (persist env write change : Command (Option String)) :=
  fun _ _ h => h

theorem keeps_evidenceExit (requested : Nat) : Keeps (evidenceExit requested : Command Nat) := by
  refine keeps_get.bind fun w => ?_
  split <;> exact keeps_pure _

theorem keeps_provenanceFailure (err : String) : Keeps (provenanceFailure err : Command Nat) := by
  refine Keeps.bind (keeps_modify ?_) fun _ => keeps_evidenceExit 1
  exact fun _ => rfl

theorem keeps_finishSessionFailure (message : String) (connectionFailure : Bool) :
    Keeps (finishSessionFailure env message connectionFailure : Command Nat) :=
  (keeps_persist _ _).bind fun _ => (keeps_persist _ _).bind fun _ => keeps_evidenceExit _

theorem keeps_finishEarlyInterrupted (message : String) :
    Keeps (finishEarlyInterrupted env message : Command Nat) := by
  have hnote : Keeps (noteNoSession env : Command Unit) := by
    refine keeps_get.bind fun w => ?_
    split
    · exact (keeps_persist _ _).bind fun _ => keeps_pure ()
    · exact keeps_pure ()
  exact hnote.bind fun _ => (keeps_persist _ _).bind fun _ => (keeps_persist _ _).bind fun _ =>
    keeps_evidenceExit 130

theorem keeps_finishRemoteSessionError (err : BuildError) (connection : Option Connection) :
    Keeps (finishRemoteSessionError env err connection : Command Nat) := by
  refine Keeps.bind (keeps_modify ?_) fun _ => (keeps_persist _ _).bind fun _ =>
    (keeps_persist _ _).bind fun _ => keeps_evidenceExit _
  exact fun _ => rfl

/-- What is known of the core and that the failure flag is honest. -/
def Clear (P : Core → Prop) (w : World) : Prop :=
  P w.core ∧ w.Honest

theorem poll_clear {P : Core → Prop} {E : Nat → World → Prop} :
    Triple (Clear P) (poll env) (fun _ => Clear P) E := by
  intro w hw
  show Ends _ _ (poll env w)
  unfold poll
  split
  · exact hw
  · split <;> exact hw
  · exact hw
  · exact hw

theorem persist_clear {P : Core → Prop} {E : Nat → World → Prop} (write : Write)
    (change : Provenance → Provenance) :
    Triple (Clear P) (persist env write change)
      (fun failure w => P w.core ∧ (failure = none ∨ write = .error → w.Honest)) E := by
  intro w hw
  refine ⟨hw.1, fun hwrite => ?_⟩
  have hhonest := hw.2
  unfold Honest at hhonest ⊢
  cases hfailure : env.persists w.writes.length with
  | none => simp [hhonest]
  | some err =>
    have herror : write = .error := by simpa [hfailure] using hwrite
    simp [herror]

end

/-! ### Exits with nothing left behind -/

variable {c : Core}

namespace Core

/-- The session that was observed, if any, has been asked to stop. -/
def Settled (c : Core) : Prop :=
  (∀ id, c.observed = some id → id ∈ c.stops) ∧ (c.observed = none → c.stops = []) ∧
    c.emitted = false

/-- What the reader of the stream has reported has been observed, and nothing
has been stopped. -/
def Drained (started : Option String) (c : Core) : Prop :=
  c.observed = started ∧ c.queue = [] ∧ c.stops = [] ∧ c.emitted = false

/-- What the reader has reported has been observed or is in the channel. -/
def Tracks (started : Option String) (c : Core) : Prop :=
  c.Drained started ∨ ∃ id, started = some id ∧ c.observed = none ∧ c.queue = [id] ∧
    c.stops = [] ∧ c.emitted = false

theorem Drained.settled (h : c.Drained none) : c.Settled := by
  obtain ⟨hobserved, -, hstops, hemitted⟩ := h
  refine ⟨fun id hid => ?_, fun _ => hstops, hemitted⟩
  rw [hobserved] at hid
  cases hid

end Core

/-- The exit of a program that leaves nothing behind. -/
def World.Settled (w : World) : Prop := w.core.Settled

section
variable {env : Environment} {P : World → Prop} {Q : Unit → World → Prop} {E : Nat → World → Prop}

theorem leave_triple {α : Type} {R : α → World → Prop} {exit : Command Nat}
    (h : Triple P exit E E) : Triple P (leave exit) R E :=
  h.bind fun _ => Triple.throw fun _ hw => hw

theorem leaveIf_triple {c : Bool} {exit : Command Nat} (hexit : Triple P exit E E) :
    Triple P (leaveIf c exit) (fun _ => P) E := by
  cases c with
  | true => exact leave_triple hexit
  | false => exact Triple.pure fun _ hw => hw

variable {exit : String → Command Nat}

theorem leaveOn_triple {failure : Option String} (hexit : ∀ err, Triple P (exit err) E E) :
    Triple P (leaveOn failure exit) (fun _ w => failure = none ∧ P w) E := by
  cases failure with
  | some err => exact leave_triple (hexit err)
  | none => exact Triple.pure fun _ hw => ⟨rfl, hw⟩

theorem leaveOn_stays {failure : Option String} (hexit : ∀ err, Triple P (exit err) E E) :
    Triple P (leaveOn failure exit) (fun _ => P) E :=
  (leaveOn_triple hexit).onReturn fun _ _ hw => hw.2

variable {x : Command Nat}

theorem Keeps.settles (h : Keeps x) :
    Triple World.Settled x (fun _ => World.Settled) fun _ => World.Settled :=
  h Settled

theorem Keeps.idle (h : Keeps x) :
    Triple (Clear (Drained none)) x (fun _ => Settled) fun _ => Settled :=
  h.settles.onEntry fun _ hw => hw.1.settled

theorem recordBestEffortStop_settles (id : String) :
    Triple (fun w => w.core.Drained (some id)) (recordBestEffortStop env id : Command Unit)
      (fun _ => Settled) fun _ => Settled := by
  have hrest : Keeps (do
      let _ ← setCleanupStatus env (env.stop id)
      if (env.stop id).startsWith "failed:" then
        let _ ← error env ("best-effort stop " ++ env.stop id) : Command Unit) := by
    refine (keeps_persist _ _).bind fun _ => ?_
    split
    · exact (keeps_persist _ _).bind fun _ => keeps_pure ()
    · exact keeps_pure ()
  refine Triple.bind (Triple.modify fun w hw => ?_) fun _ => hrest Settled
  obtain ⟨hobserved, -, -, hemitted⟩ := hw
  refine ⟨fun other hother => ?_, fun hnone => ?_, hemitted⟩
  · have heq : other = id := Option.some.inj (hother.symm.trans hobserved)
    exact heq ▸ List.mem_append_right _ (List.mem_singleton_self _)
  · exact nomatch hnone.symm.trans hobserved

variable {id : String}

theorem stopThen_settles {exit : Command Nat} (hexit : Keeps exit) :
    Triple (fun w => w.core.Drained (some id)) (do recordBestEffortStop env id; exit)
      (fun _ => Settled) fun _ => Settled :=
  (recordBestEffortStop_settles id).bind fun _ => hexit.settles

theorem finishInterruptedSession_settles (id : String) :
    Triple (fun w => w.core.Drained (some id)) (finishInterruptedSession env id)
      (fun _ => Settled) fun _ => Settled :=
  stopThen_settles ((keeps_persist _ _).bind fun _ => keeps_evidenceExit 130)

theorem stopObserved_settles (started : Option String) :
    Triple (fun w => w.core.Drained started) (stopObserved env) (fun _ => Settled)
      fun _ => Settled := by
  refine Triple.bind (Q := fun w w' => w.observed = started ∧ w'.core.Drained started)
    (fun w hw => ⟨hw.1, hw⟩) fun w => Triple.given fun hobserved => ?_
  rw [hobserved]
  cases started with
  | some id => exact recordBestEffortStop_settles id
  | none => exact Triple.pure fun _ hw => hw.settled

/-! ### The preparation -/

theorem runChecks_triple (checks : List (Option String)) :
    Triple (Clear (Drained none)) (runChecks env checks) (fun _ => Clear (Drained none))
      fun _ => Settled := by
  induction checks with
  | nil => exact Triple.pure fun _ hw => hw
  | cons check rest ih =>
    refine Triple.bind (leaveOn_stays fun err => ?_) fun _ => ih
    exact (keeps_finishSessionFailure err false).idle

theorem prepare_triple (preparation : Preparation) :
    Triple (Clear (Drained none)) (prepare env preparation)
      (fun _ => Clear (Drained none)) fun _ => Settled := by
  have hpackaging : Keeps (abandonPackaging env preparation.cleanup) := by
    unfold abandonPackaging
    split
    · exact (keeps_persist _ _).bind fun _ => keeps_finishEarlyInterrupted _
    · exact keeps_finishEarlyInterrupted _
  have hfailure (err : String) : Triple (Clear (Drained none))
      (finishSessionFailure env err false) (fun _ => Settled) fun _ => Settled :=
    (keeps_finishSessionFailure err false).idle
  refine Triple.bind poll_clear fun _ => ?_
  refine Triple.bind (leaveIf_triple (keeps_finishEarlyInterrupted _).idle) fun _ => ?_
  refine Triple.bind (runChecks_triple preparation.checks) fun _ => ?_
  refine Triple.bind poll_clear fun _ => ?_
  refine Triple.bind (leaveIf_triple (keeps_finishEarlyInterrupted _).idle) fun _ => ?_
  refine Triple.bind poll_clear fun _ => ?_
  refine Triple.bind (leaveIf_triple hpackaging.idle) fun _ => ?_
  refine Triple.bind (leaveOn_stays hfailure) fun _ => ?_
  refine Triple.bind (leaveOn_stays hfailure) fun _ => ?_
  refine Triple.bind (persist_clear _ _) fun failure => ?_
  refine (leaveOn_triple fun err => ?_).onReturn fun _ w hw => ⟨hw.2.1, hw.2.2 (.inl hw.1)⟩
  exact (keeps_provenanceFailure err).settles.onEntry fun _ hw => hw.1.settled

/-! ### The stream -/

/-- A result that is ready is that of the session which was reported. -/
def Remote.Consistent (remote : Remote) : Prop :=
  ∀ result id, remote.result = some result → result.sessionId = some id → remote.startedId = some id

/-- The reader reports the ID with which it starts, once. -/
theorem Remote.take_ok {remote remote' : Remote} {item : Except BuildError SessionStartEvent}
    {reported : Option String} (h : remote.Consistent)
    (htake : remote.take item = .ok (remote', reported)) :
    remote'.Consistent ∧ ((reported = none ∧ remote'.startedId = remote.startedId) ∨
      ∃ id, reported = some id ∧ remote.startedId = none ∧ remote'.startedId = some id) := by
  obtain ⟨event, -, hevent⟩ := bind_eq_ok.mp htake
  obtain ⟨_, hrefuse, hevent⟩ := bind_eq_ok.mp hevent
  have hnone : remote.result = none := by simpa using hrefuse
  have hopen {r : Remote} (hr : r.result = none) : r.Consistent := by
    intro result id hsome
    exact nomatch hr.symm.trans hsome
  cases event with
  | session id status phase durationMs exitCode timedOut =>
    obtain ⟨-, -, hstart⟩ := bind_eq_ok.mp hevent
    cases hstarted : remote.startedId with
    | some existing =>
      rw [hstarted] at hstart
      obtain ⟨-, -, hpure⟩ := bind_eq_ok.mp hstart
      obtain ⟨rfl, rfl⟩ := Prod.mk.inj (Except.ok.inj hpure)
      exact ⟨h, .inl ⟨rfl, hstarted⟩⟩
    | none =>
      rw [hstarted] at hstart
      obtain ⟨rfl, rfl⟩ := Prod.mk.inj (Except.ok.inj hstart)
      exact ⟨hopen hnone, .inr ⟨id, rfl, rfl, rfl⟩⟩
  | ready id revision phases =>
    obtain ⟨_, hvalid, hpure⟩ := bind_eq_ok.mp hevent
    have hstarted : remote.startedId = some id := by
      by_contra hother
      exact refuse_eq_ok.mp hvalid (.inr hother)
    obtain ⟨rfl, rfl⟩ := Prod.mk.inj (Except.ok.inj hpure)
    refine ⟨fun result other hresult hother => ?_, .inl ⟨rfl, rfl⟩⟩
    rw [← Option.some.inj hresult] at hother
    rw [← hother]
    exact hstarted
  | exit code timedOut failedPhase phases =>
    obtain ⟨rfl, rfl⟩ := Prod.mk.inj (Except.ok.inj hevent)
    refine ⟨fun result other hresult hother => ?_, .inl ⟨rfl, rfl⟩⟩
    rw [← Option.some.inj hresult] at hother
    cases hother
  | stdout data =>
    obtain ⟨rfl, rfl⟩ := Prod.mk.inj (Except.ok.inj hevent)
    exact ⟨h, .inl ⟨rfl, rfl⟩⟩
  | stderr data =>
    obtain ⟨rfl, rfl⟩ := Prod.mk.inj (Except.ok.inj hevent)
    exact ⟨h, .inl ⟨rfl, rfl⟩⟩
  | error code message phase =>
    obtain ⟨rfl, rfl⟩ := Prod.mk.inj (Except.ok.inj hevent)
    exact ⟨hopen hnone, .inl ⟨rfl, rfl⟩⟩

/-- What is known when the select loop has been left. -/
def Follows (started : Option String) : Controlled → World → Prop
  | .interrupted, w => Clear (Core.Tracks started) w
  | .provenance _, w => w.core.Drained started
  | .completed outcome, w => Clear (Core.Tracks started) w ∧
      ∀ result id, outcome = .ok result → result.sessionId = some id → started = some id

/-- What is known after a turn of the loop. -/
def Turned (started : Option String) : Option Controlled → World → Prop
  | none, w => Clear (Core.Tracks started) w
  | some controlled, w => Follows started controlled w

theorem observe_triple (id : String) : Triple (Clear (Drained none)) (observe env id)
      (fun failure w => w.core.Drained (some id) ∧ (failure = none → w.Honest)) E := by
  refine Triple.bind (Q := fun w w' => w.observed = none ∧ Clear (Drained none) w')
    (fun w hw => ⟨hw.1.1, hw⟩) fun w => Triple.given fun hobserved => ?_
  simp only [hobserved, Option.isNone_none, if_true]
  refine Triple.bind (Q := fun _ => Clear (Drained (some id)))
    (Triple.modify fun w hw => ⟨⟨rfl, hw.1.2⟩, hw.2⟩) fun _ => ?_
  exact (persist_clear _ _).onReturn fun _ _ hw => ⟨hw.1, fun h => hw.2 (.inl h)⟩

/-- The channel has nothing, or the one ID that has not been observed. -/
theorem Core.Tracks.queue_cases {started : Option String} (h : c.Tracks started) :
    (c.queue = [] ∧ c.Drained started) ∨ ∃ id, started = some id ∧ c.queue = [id] ∧
      Drained none { c with queue := [] } := by
  rcases h with h | ⟨id, hstarted, hobserved, hqueue, hstops, hemitted⟩
  · exact .inl ⟨h.2.1, h⟩
  · exact .inr ⟨id, hstarted, hqueue, hobserved, rfl, hstops, hemitted⟩

variable {w : World}

/-- An ID in the channel is the one with which the session has started, and the
only one. -/
theorem Clear.unobserved {started : Option String} {rest : List String}
    (h : Clear (Tracks started) w) (hqueue : w.queue = id :: rest) :
    (started = some id ∧ rest = []) ∧ Clear (fun c => Drained none { c with queue := [] }) w := by
  rcases h.1.queue_cases with ⟨hempty, -⟩ | ⟨other, hstarted, hother, hdrained⟩
  · exact nomatch hempty.symm.trans hqueue
  · obtain ⟨rfl, rfl⟩ := List.cons.inj (hother.symm.trans hqueue)
    exact ⟨⟨hstarted, rfl⟩, hdrained, h.2⟩

theorem receive_triple (started : Option String) (ids : List String) :
    Triple (fun w => w.queue = ids ∧ Clear (Core.Tracks started) w) (receive env ids)
      (Turned started) E := by
  cases ids with
  | nil => exact Triple.pure fun w hw => hw.2
  | cons id rest =>
    refine Triple.mono (Triple.given (p := started = some id ∧ rest = []) fun hstarted => ?_)
      (fun w hw => hw.2.unobserved hw.1) (fun _ _ hw => hw) fun _ _ hw => hw
    obtain ⟨rfl, rfl⟩ := hstarted
    refine Triple.bind (Q := fun _ => Clear (Core.Drained none))
      (Triple.modify fun w hw => hw) fun _ => ?_
    refine Triple.bind (observe_triple id) fun failure => ?_
    cases failure with
    | some err => exact Triple.pure fun w hw => hw.1
    | none =>
      refine Triple.mono (P := Clear (Core.Drained (some id))) ?_
        (fun w hw => ⟨hw.1, hw.2 rfl⟩) (fun _ _ hw => hw) fun _ _ hw => hw
      refine Triple.bind poll_clear fun triggered => ?_
      split
      · exact Triple.pure fun w hw => ⟨.inl hw.1, hw.2⟩
      · exact Triple.pure fun w hw => ⟨.inl hw.1, hw.2⟩

theorem turn_triple (started : Option String) :
    Triple (Clear (Core.Tracks started)) (turn env) (Turned started) E := by
  refine Triple.bind poll_clear fun triggered => ?_
  split
  · exact Triple.pure fun w hw => hw
  · refine Triple.bind (Q := fun w w' => w'.queue = w.queue ∧ Clear (Core.Tracks started) w')
      (fun w hw => ⟨rfl, hw⟩) fun w => ?_
    exact receive_triple started w.queue

theorem Clear.reported {started started' reported : Option String}
    (h : Clear (Tracks started) w) (hreported : (reported = none ∧ started' = started) ∨
      ∃ id, reported = some id ∧ started = none ∧ started' = some id) :
    Clear (Tracks started') { w with queue := w.queue ++ reported.toList } := by
  refine ⟨?_, h.2⟩
  rcases hreported with ⟨rfl, rfl⟩ | ⟨id, rfl, rfl, rfl⟩
  · simpa [core] using h.1
  · rcases h.1 with ⟨hobserved, hqueue, hstops, hemitted⟩ | ⟨other, hnone, -⟩
    · have hempty : w.queue = [] := hqueue
      exact .inr ⟨id, rfl, hobserved, by simp [core, hempty], hstops, hemitted⟩
    · cases hnone

theorem control_triple (stream : List (Except BuildError SessionStartEvent × Bool)) :
    ∀ remote : Remote, remote.Consistent →
    Triple (Clear (Core.Tracks remote.startedId)) (control env remote stream)
      (fun controlled w => ∃ started, Follows started controlled w) E := by
  induction stream with
  | nil =>
    intro remote hremote
    refine Triple.pure fun w hw => ⟨remote.startedId, hw, fun result id hresult hid => ?_⟩
    refine hremote result id ?_ hid
    unfold Remote.finish at hresult
    split at hresult
    · rename_i hsome
      rw [hsome, Except.ok.inj hresult]
    · cases hresult
  | cons item rest ih =>
    intro remote hremote
    unfold control
    split
    · exact Triple.pure fun w hw => ⟨remote.startedId, hw, nofun⟩
    · rename_i remote' reported htake
      obtain ⟨hconsistent, hreported⟩ := Remote.take_ok hremote htake
      refine Triple.bind (Q := fun _ => Clear (Core.Tracks remote'.startedId))
        (Triple.modify fun w hw => ?_) fun _ => ?_
      · exact hw.reported hreported
      · refine Triple.bind (Q := Turned remote'.startedId) ?_ fun turned => ?_
        · split
          · exact turn_triple remote'.startedId
          · exact Triple.pure fun w hw => hw
        · cases turned with
          | some controlled => exact Triple.pure fun w hw => ⟨remote'.startedId, hw⟩
          | none => exact ih remote' hconsistent

/-! ### The end -/

theorem drain_triple {onFailure : String → String → Command Unit} {R : World → Prop}
    (started : Option String) (ids : List String)
    (hrest : ∀ w, w.core.Drained started → w.Honest → R w)
    (hfailure : ∀ id err, Triple (fun w => w.core.Drained (some id)) (onFailure id err)
      (fun _ w => started = some id → R w) E) :
    Triple (fun w => w.queue = ids ∧ Clear (Tracks started) w) (drain env onFailure ids)
      (fun _ => R) E := by
  cases ids with
  | nil =>
    refine Triple.pure fun w hw => ?_
    obtain ⟨hqueue, htracks, hhonest⟩ := hw
    rcases htracks.queue_cases with ⟨-, hdrained⟩ | ⟨id, -, hid, -⟩
    · exact hrest w hdrained hhonest
    · exact nomatch hid.symm.trans hqueue
  | cons id rest =>
    refine Triple.mono (Triple.given (p := started = some id ∧ rest = []) fun hstarted => ?_)
      (fun w hw => hw.2.unobserved hw.1) (fun _ _ hw => hw) fun _ _ hw => hw
    obtain ⟨rfl, rfl⟩ := hstarted
    refine Triple.bind (Q := fun _ => Clear (Drained none))
      (Triple.modify fun w hw => hw) fun _ => ?_
    refine Triple.bind (observe_triple id) fun failure => ?_
    cases failure with
    | some err =>
      refine Triple.bind (Q := fun _ => R) ?_ fun _ => Triple.pure fun _ hw => hw
      exact (hfailure id err).mono (fun _ hw => hw.1) (fun _ _ hw => hw rfl) fun _ _ hw => hw
    | none => exact Triple.pure fun w hw => hrest w hw.1 (hw.2 rfl)

/-- The exit code of a start that has printed its ID: a failure exactly if the
write of a message has failed. -/
def Printed (code : Nat) (w : World) : Prop :=
  w.observed.isSome = true ∧ w.stops = [] ∧ w.emitted = true ∧
    (code ≠ 0 ↔ (Write.error, false) ∈ w.writes)

/-- The two kinds of ends. -/
def Ended (code : Nat) (w : World) : Prop :=
  w.Settled ∨ Printed code w

theorem claimCompletion_clear {P : Core → Prop} :
    Triple (Clear P) (claimCompletion env) (fun _ => Clear P) E := by
  refine Triple.bind poll_clear fun triggered => ?_
  split
  · exact Triple.pure fun _ hw => hw
  · have hclaim : Triple (Clear P) (do
        modify fun w : World =>
          { w with interrupt := .completed, reports := w.reports ++ [.completed] }
        return true : Command Bool) (fun _ => Clear P) E :=
      Triple.bind (Triple.modify fun _ hw => hw) fun _ => Triple.pure fun _ hw => hw
    refine Triple.bind (Q := fun _ => Clear P) (fun _ hw => hw) fun w => ?_
    split
    · exact hclaim
    · exact hclaim
    · exact Triple.pure fun _ hw => hw
    · exact Triple.pure fun _ hw => hw

/-- What is known when the output of the ID has ended. -/
def Emitted (id : String) : ControlledIo → World → Prop
  | .completed none, w => w.observed = some id ∧ w.stops = [] ∧ w.emitted = true ∧ w.Honest
  | _, w => w.core.Drained (some id)

section
variable (id : String) (emission : Emission)

theorem claimAndWrite_triple :
    Triple (Clear (Drained (some id))) (claimAndWrite env id emission) (Emitted id) E := by
  refine Triple.bind claimCompletion_clear fun claimed => ?_
  split
  · unfold writeAtomic
    split
    · exact Triple.pure fun _ hw => hw.1
    · exact Triple.bind (Q := fun _ w => w.core.Drained (some id))
        (Triple.modify fun _ hw => hw.1) fun _ => Triple.pure fun _ hw => hw
    · refine Triple.bind (Q := fun _ => Emitted id (.completed none))
        (Triple.modify fun w hw => ?_) fun _ => Triple.pure fun _ hw => hw
      exact ⟨hw.1.1, hw.1.2.2.1, rfl, hw.2⟩
  · exact Triple.pure fun _ hw => hw.1

theorem awaitWritable_triple (answers : List Writable) :
    Triple (Clear (Drained (some id))) (awaitWritable env id emission answers) (Emitted id) E := by
  induction answers with
  | nil => exact claimAndWrite_triple id emission
  | cons answer rest ih =>
    cases answer with
    | failed err => exact Triple.pure fun _ hw => hw.1
    | yes => exact claimAndWrite_triple id emission
    | no waiting =>
      refine Triple.bind poll_clear fun triggered => ?_
      split
      · exact Triple.pure fun _ hw => hw.1
      · split
        · exact Triple.pure fun _ hw => hw.1
        · refine Triple.bind poll_clear fun triggered => ?_
          split
          · exact Triple.pure fun _ hw => hw.1
          · exact ih

theorem emitSessionId_triple :
    Triple (Clear (Drained (some id))) (emitSessionIdControlled env id emission) (Emitted id) E := by
  unfold emitSessionIdControlled
  split
  · exact Triple.pure fun _ hw => hw.1
  · refine Triple.bind poll_clear fun triggered => ?_
    split
    · exact Triple.pure fun _ hw => hw.1
    · unfold writeWhenWritable
      split
      · refine Triple.bind poll_clear fun triggered => ?_
        split <;> exact Triple.pure fun _ hw => hw.1
      · refine Triple.bind poll_clear fun triggered => ?_
        split
        · exact Triple.pure fun _ hw => hw.1
        · exact awaitWritable_triple id emission _
      · exact awaitWritable_triple id emission _

end

theorem evidenceExit_run (requested : Nat) (w : World) :
    evidenceExit requested w = .ok (if w.persistenceFailure.isSome then 1 else requested) w := by
  have hget : (get : Command World) w = .ok w w := rfl
  rw [evidenceExit, bind_of_ok hget]
  cases w.persistenceFailure <;> rfl

theorem evidenceExit_printed (id : String) :
    Triple (Emitted id (.completed none)) (evidenceExit 0) Ended E := by
  intro w hw
  obtain ⟨hobserved, hstops, hemitted, hhonest⟩ := hw
  show Ends Ended E (evidenceExit 0 w)
  rw [evidenceExit_run]
  refine .inr ⟨by rw [hobserved]; rfl, hstops, hemitted, ?_⟩
  rw [← show _ ↔ _ from hhonest]
  split <;> simp [*]

theorem finishReady_triple (id : String) (emission : Emission) :
    Triple (Clear (Drained (some id))) (finishReady env id emission) Ended fun _ => Settled := by
  have hinterrupted {P : World → Prop} (hP : ∀ w, P w → w.core.Drained (some id)) :
      Triple P (finishInterruptedSession env id) (fun _ => Settled) fun _ => Settled :=
    (finishInterruptedSession_settles id).onEntry hP
  have hstop {P : World → Prop} {exit : Command Nat} (hexit : Keeps exit)
      (hP : ∀ w, P w → w.core.Drained (some id)) :
      Triple P (do recordBestEffortStop env id; exit) (fun _ => Settled) fun _ => Settled :=
    (stopThen_settles hexit).onEntry hP
  refine Triple.bind (Q := fun _ => Clear (Drained (some id))) (fun _ hw => hw) fun w => ?_
  refine Triple.bind (leaveIf_triple (hstop (keeps_finishSessionFailure _ _) fun _ hw => hw.1))
    fun _ => ?_
  refine Triple.bind poll_clear fun _ => ?_
  refine Triple.bind (leaveIf_triple (hinterrupted fun _ hw => hw.1)) fun _ => ?_
  refine Triple.bind poll_clear fun interrupted => ?_
  refine Triple.bind (persist_clear _ _) fun failure => ?_
  refine Triple.bind (leaveIf_triple (hinterrupted fun _ hw => hw.1)) fun _ => ?_
  refine Triple.bind (leaveOn_triple fun err => hstop (keeps_provenanceFailure err) fun _ hw => hw.1)
    fun _ => ?_
  refine Triple.mono (P := Clear (Drained (some id))) ?_
    (fun w hw => ⟨hw.2.1, hw.2.2 (.inl hw.1)⟩) (fun _ _ hw => hw) fun _ _ hw => hw
  refine Triple.bind poll_clear fun _ => ?_
  refine Triple.bind (leaveIf_triple (hinterrupted fun _ hw => hw.1)) fun _ => ?_
  refine Triple.bind (emitSessionId_triple id emission) fun emitted => ?_
  split
  · exact leave_triple (hinterrupted fun _ hw => hw)
  · exact leave_triple (hstop (keeps_finishSessionFailure _ _) fun _ hw => hw)
  · exact evidenceExit_printed id

theorem recordErrors_triple {P : Core → Prop} (errors : List String) :
    Triple (Clear P) (recordErrors env errors) (fun _ => Clear P) E := by
  induction errors with
  | nil => exact Triple.pure fun _ hw => hw
  | cons message rest ih =>
    refine Triple.bind (Q := fun _ => Clear P) ?_ fun _ => ih
    exact (persist_clear _ _).onReturn fun _ _ hw => ⟨hw.1, hw.2 (.inr rfl)⟩

theorem finishExited_triple (started : Option String) (result : SessionStartResult) :
    Triple (fun w => w.core.Drained started) (finishExited env result) (fun _ => Settled)
      fun _ => Settled := by
  refine Triple.bind (stopObserved_settles started) fun _ => ?_
  refine Triple.bind ((keeps_persist _ _) Settled) fun failure => ?_
  refine Triple.bind (leaveOn_stays fun err => (keeps_provenanceFailure err).settles) fun _ => ?_
  exact (keeps_evidenceExit _).settles

theorem finishOutcome_triple (started : Option String) (request : Request)
    (outcome : Except BuildError SessionStartResult)
    (hready : ∀ result id, outcome = .ok result → result.sessionId = some id → started = some id) :
    Triple (Clear (Drained started)) (finishOutcome env request outcome) Ended
      fun _ => Settled := by
  cases outcome with
  | ok result =>
    refine Triple.bind (Q := fun _ => Clear (Core.Drained started))
      (Triple.modify fun _ hw => hw) fun _ => ?_
    refine Triple.bind (recordErrors_triple result.errors) fun _ => ?_
    cases hid : result.sessionId with
    | some id =>
      rw [hready result id rfl hid]
      exact finishReady_triple id request.emission
    | none =>
      exact (finishExited_triple started result).mono (fun _ hw => hw.1)
        (fun _ _ hw => .inl hw) fun _ _ hw => hw
  | error err =>
    refine Triple.bind ((stopObserved_settles started).onEntry fun _ hw => hw.1) fun _ => ?_
    exact (keeps_finishRemoteSessionError err request.connection).settles.onReturn fun _ _ hw => .inl hw

theorem finishInterrupted_triple (started : Option String) :
    Triple (fun w => w.core.Drained started) (finishInterrupted env) (fun _ => Settled)
      fun _ => Settled := by
  refine Triple.bind (Q := fun w w' => w.observed = started ∧ w'.core.Drained started)
    (fun w hw => ⟨hw.1, hw⟩) fun w => Triple.given fun hobserved => ?_
  rw [hobserved]
  cases started with
  | some id => exact finishInterruptedSession_settles id
  | none =>
    exact (keeps_finishEarlyInterrupted _).settles.onEntry fun _ hw => hw.settled

theorem conclude_triple (started : Option String) (request : Request) (controlled : Controlled) :
    Triple (Follows started controlled) (conclude env request controlled) Ended
      fun _ => World.Settled := by
  -- the channel is what it is when the loop is left
  have hqueue {P : World → Prop} : Triple P (get : Command World)
      (fun w w' => w'.queue = w.queue ∧ P w') fun _ => World.Settled :=
    fun w hw => ⟨rfl, hw⟩
  cases controlled with
  | completed outcome =>
    refine Triple.mono (Triple.given fun hready => ?_) (fun w hw => ⟨hw.2, hw.1⟩)
      (fun _ _ hw => hw) fun _ _ hw => hw
    refine Triple.bind hqueue fun w => ?_
    refine Triple.bind (drain_triple (R := Clear (Core.Drained started)) started w.queue
      (fun w hw hhonest => ⟨hw, hhonest⟩) fun _ err =>
      leave_triple (stopThen_settles (keeps_provenanceFailure err))) fun _ => ?_
    exact finishOutcome_triple started request outcome hready
  | interrupted =>
    refine Triple.bind hqueue fun w => ?_
    refine Triple.bind (drain_triple (R := fun w => w.core.Drained started) started w.queue
      (fun w hw _ => hw) fun id err => Triple.pure fun w hw hstarted => hstarted ▸ hw) fun _ => ?_
    exact (finishInterrupted_triple started).onReturn fun _ _ hw => .inl hw
  | provenance err =>
    refine Triple.bind (stopObserved_settles started) fun _ => ?_
    exact (keeps_provenanceFailure err).settles.onReturn fun _ _ hw => .inl hw

theorem sessionStartCommand_triple (request : Request) :
    Triple (Clear (Drained none)) (sessionStartCommand env request) Ended fun _ => Settled := by
  refine Triple.bind (prepare_triple request.preparation) fun _ => ?_
  refine Triple.bind (Q := fun controlled w => ∃ started, Follows started controlled w) ?_
    fun controlled w hw => ?_
  · refine Triple.mono (P := Clear (Tracks none)) ?_ (fun w hw => ⟨.inl hw.1, hw.2⟩)
      (fun _ _ hw => hw) fun _ _ hw => hw
    refine Triple.bind (turn_triple none) fun turned => ?_
    cases turned with
    | some controlled => exact Triple.pure fun w hw => ⟨none, hw⟩
    | none => exact control_triple request.stream {} nofun
  · obtain ⟨started, hfollows⟩ := hw
    exact conclude_triple started request controlled w hfollows

end

theorem exitOf_ended (env : Environment) (request : Request) :
    Ended (exitOf env request).1 (exitOf env request).2 := by
  have hstart : Clear (Drained none) {} := ⟨⟨rfl, rfl, rfl, rfl⟩, by simp [Honest]⟩
  unfold exitOf
  rcases (sessionStartCommand_triple request).run_cases hstart with
    ⟨code, w, hrun, hended⟩ | ⟨code, w, hrun, hsettled⟩
  · rw [hrun]
    exact hended
  · rw [hrun]
    exact .inl hsettled

/-- The server starts a session, reports an error and declares it ready. -/
def noisyStart : Request where
  stream := [
    (.ok (.session "ses_0" .started none none none none), true),
    (.ok (.error "warning" none none), true),
    (.ok (.ready "ses_0" "rev_0" []), true)]

/-- The third write of the provenance fails, that of the error. -/
def fullDisk : Environment where
  signal _ := none
  persists n := if n = 2 then some "No space left on device" else none
  stop _ := "succeeded"

end IndenturedServer.Client
