import IndenturedServer.Client.Streams

/-!
What is written to a stream is read from it.

The server writes each event as one JSON text and a newline. Of JSON it is
assumed that the events of the stream can be read back from their texts, and
that each text is an object in UTF-8 without a newline in it. The events may then
arrive in any chunks that fit in the buffer: the reader returns what the final
event says, and the logs hold the output of the stream.
-/

namespace IndenturedServer.Client

open Foundation StartReader
open Source (Text isUtf8)
open Sessions (ArtifactArchive ArtifactRestrictions BuildPhase PhaseResult ResponseEvent
  SessionStartEvent)

/-- How events are written as JSON and read from it. -/
structure Codec (E : Type) where
  encode : E → Text
  decode : Text → Except String E

namespace Codec

variable {E : Type} (c : Codec E)

/-- The text of this event is a line, and the event can be read from it. -/
structure Writes (e : E) : Prop where
  decode_encode : c.decode (c.encode e) = .ok e
  newline_notMem : newline ∉ c.encode e
  isUtf8_encode : isUtf8 (c.encode e) = true
  /-- An object ends with its brace. -/
  getLast?_encode : (c.encode e).getLast? = some 0x7d

/-- The body of a response. -/
def ndjson (events : List E) : Text :=
  events.flatMap fun e => c.encode e ++ [newline]

end Codec

/-! ### Any reader -/

section
variable {E S R : Type} {c : Codec E} {r : StreamReader E S R}

theorem drainLines_ndjson {events : List E} (h : ∀ e ∈ events, c.Writes e) :
    drainLines newline (c.ndjson events) = (events.map c.encode, []) := by
  induction events with
  | nil => rfl
  | cons e rest ih =>
    have hcons : c.ndjson (e :: rest) = c.encode e ++ newline :: c.ndjson rest := by
      simp [Codec.ndjson]
    rw [List.forall_mem_cons] at h
    rw [hcons, drainLines_line h.1.newline_notMem, ih h.2]
    rfl

variable {e : E}

theorem Codec.Writes.lineText (h : c.Writes e) : lineText (c.encode e) = .ok (c.encode e) := by
  have hlast : (c.encode e).rdropWhile (· == carriageReturn) = c.encode e := by
    rw [List.rdropWhile_eq_self_iff]
    intro hne
    have hbrace := h.getLast?_encode
    rw [List.getLast?_eq_some_getLast hne, Option.some_inj] at hbrace
    rw [hbrace]
    decide
  simp [Client.lineText, refuse, h.isUtf8_encode, hlast, bind, Except.bind, pure, Except.pure]

variable {s : S}

theorem Codec.Writes.takeLine (h : c.Writes e) (hresult : r.result s = none) :
    r.takeLine c.decode s (c.encode e) = r.event s e := by
  have hne : c.encode e ≠ [] := by
    intro hnil
    have hbrace := h.getLast?_encode
    simp [hnil] at hbrace
  have hexpected : r.refuseAfterFinal s = .ok () := by
    unfold StreamReader.refuseAfterFinal
    split <;> simp [refuse, hresult]
  have hdecoded : r.decodeLine c.decode (c.encode e) = .ok e := by
    simp [StreamReader.decodeLine, h.decode_encode]
  simp [StreamReader.takeLine, h.lineText, hne, hexpected, hdecoded, bind, Except.bind]

variable {s' : S}

theorem Codec.Writes.line (h : c.Writes e) (hresult : r.result s = none)
    (hevent : r.event s e = .ok s') : (r.lines c.decode).line (c.encode e) s = .ok () s' := by
  simp [StreamReader.lines, h.takeLine hresult, hevent]

variable (r) in
/-- The reader takes these events, and has no result before the last of them. -/
inductive Takes : S → List E → S → Prop
  | nil (s : S) : Takes s [] s
  | cons {s s' s'' : S} {e : E} {rest : List E} (hresult : r.result s = none)
      (hevent : r.event s e = .ok s') (hrest : Takes s' rest s'') : Takes s (e :: rest) s''

theorem Takes.concat {s'' : S} {events : List E} (h : Takes r s events s')
    (hresult : r.result s' = none) (hevent : r.event s' e = .ok s'') :
    Takes r s (events ++ [e]) s'' := by
  induction h with
  | nil s => exact .cons hresult hevent (.nil _)
  | cons hnone hfirst _ ih => exact .cons hnone hfirst (ih hresult hevent)

/-- If one event leads from what `after` says of the events before it to what
`after` says of them and it, then so do all events. -/
theorem Takes.all {A : E → Prop} (after : List E → S) (hstart : after [] = s)
    (hnone : ∀ events, r.result (after events) = none)
    (hstep : ∀ events e, (∀ e ∈ events, A e) → A e →
      r.event (after events) e = .ok (after (events ++ [e]))) (events : List E)
    (h : ∀ e ∈ events, A e) : Takes r s events (after events) := by
  induction events using List.reverseRecOn with
  | nil =>
    rw [hstart]
    exact .nil s
  | append_singleton events e ih =>
    rw [List.forall_mem_append] at h
    exact (ih h.1).concat (hnone events) (hstep events e h.1 (h.2 e (List.mem_singleton_self e)))

theorem Takes.lines {events : List E} (h : Takes r s events s') (hwrites : ∀ e ∈ events, c.Writes e) :
    forM (events.map c.encode) (r.lines c.decode).line s = .ok () s' := by
  induction h with
  | nil s => rfl
  | cons hresult hevent _ ih =>
    rw [List.forall_mem_cons] at hwrites
    rw [List.map_cons, List.forM_cons, bind_of_ok (hwrites.1.line hresult hevent), ih hwrites.2]

/-- The induction is on the events; before the last of them the reader is not
done. -/
theorem Takes.last {s₁ : S} {events : List E} (h : Takes r s events s')
    (hwrites : ∀ e ∈ events, c.Writes e) {first rest : List Text}
    (hlines : events.map c.encode = first ++ rest)
    (hfirst : forM first (r.lines c.decode).line s = .ok () s₁)
    (hdone : (r.lines c.decode).done s₁ = true) : rest = [] := by
  induction h generalizing first with
  | nil s => exact (List.append_eq_nil_iff.mp hlines.symm).2
  | cons hresult hevent _ ih =>
    rw [List.forall_mem_cons] at hwrites
    cases first with
    | nil =>
      cases hfirst
      simp [StreamReader.lines, hresult] at hdone
    | cons line first =>
      obtain ⟨rfl, htail⟩ := List.cons_eq_cons.mp hlines
      rw [List.forM_cons, bind_of_ok (hwrites.1.line hresult hevent)] at hfirst
      exact ih hwrites.2 htail hfirst

theorem Takes.read {events : List E} {result : R} {chunks : List Text} (h : Takes r s events s')
    (hresult : r.result s' = some result) (hwrites : ∀ e ∈ events, c.Writes e)
    (hquiet : (r.lines c.decode).ClosesQuietly) (hchunks : chunks.flatten = c.ndjson events)
    (hfits : (r.lines c.decode).Fits [] chunks) :
    r.read c.decode (chunks.map .ok) s = .ok result s' := by
  have hdrained : drainLines (r.lines c.decode).sep ([] ++ chunks.flatten) =
      (events.map c.encode, []) := by
    rw [List.nil_append, hchunks]
    exact drainLines_ndjson hwrites
  have hfinal : (r.lines c.decode).NothingFollows s ([] ++ chunks.flatten) := by
    intro first rest hlines s₁ hfirst hdone
    rw [hdrained] at hlines ⊢
    exact ⟨h.last hwrites hlines hfirst hdone, rfl⟩
  have hrun := LineReader.run_eq hquiet chunks [] s rfl hfits hfinal
  rw [hdrained, h.lines hwrites] at hrun
  have hget : (get : EStateM BuildError S S) s' = .ok s' s' := rfl
  rw [StreamReader.read, bind_of_ok hrun, bind_of_ok hget, hresult]
  rfl

end

/-! ### Output -/

/-- The output that an event carries. -/
class HasOutput (E : Type) where
  stdout : E → Option String
  stderr : E → Option String

section
variable {E : Type} [HasOutput E]

def collected (events : List E) : Logs where
  stdout := (events.filterMap HasOutput.stdout).flatMap utf8
  stderr := (events.filterMap HasOutput.stderr).flatMap utf8

def Logs.add (logs : Logs) (e : E) : Logs :=
  let logs := (HasOutput.stdout e).elim logs logs.writeStdout
  (HasOutput.stderr e).elim logs logs.writeStderr

theorem collected_concat (events : List E) (e : E) :
    collected (events ++ [e]) = (collected events).add e := by
  cases hstdout : HasOutput.stdout e <;> cases hstderr : HasOutput.stderr e <;>
    simp [collected, Logs.add, Logs.writeStdout, Logs.writeStderr, hstdout, hstderr]

end

theorem head?_of_forall_eq {a : String} {as : List String} (h : ∀ b ∈ as, b = a) (ha : a ∈ as) :
    as.head? = some a := by
  cases as with
  | nil => cases ha
  | cons b rest => rw [List.head?_cons, h b List.mem_cons_self]

/-! ### Builds -/

instance : HasOutput ResponseEvent where
  stdout
    | .stdout data => some data
    | _ => none
  stderr
    | .stderr data => some data
    | _ => none

def buildIdentity : ResponseEvent → Option String
  | .build id _ _ _ _ _ => some id
  | _ => none

def InBuild : ResponseEvent → Prop
  | .build id _ _ _ _ _ => validateBuildId id = .ok ()
  | .exit _ _ _ _ _ _ => False
  | _ => True

def BuildReader.after (events : List ResponseEvent) : BuildReader :=
  ⟨(events.filterMap buildIdentity).getLast?, none, collected events⟩

theorem BuildReader.event_after (events : List ResponseEvent) (e : ResponseEvent) (he : InBuild e) :
    (after events).event e = .ok (after (events ++ [e])) := by
  rw [after, after, collected_concat]
  cases e with
  | build id status phase durationMs exitCode timedOut =>
    have hid : validateBuildId id = .ok () := he
    simp [BuildReader.event, hid, Logs.add, HasOutput.stdout, HasOutput.stderr, buildIdentity, bind,
      Except.bind, pure, Except.pure]
  | exit code timedOut artifacts restrictions failedPhase phases => exact he.elim
  | _ => simp [BuildReader.event, Logs.add, HasOutput.stdout, HasOutput.stderr, buildIdentity]

/-- What the final event of a build says behind these events. -/
def buildOutcome (events : List ResponseEvent) : ResponseEvent → Option BuildResult
  | .exit code timedOut artifacts artifactRestrictions failedPhase phases =>
    some ⟨(events.filterMap buildIdentity).getLast?, code, timedOut, artifacts,
      artifactRestrictions, failedPhase, phases⟩
  | _ => none

theorem BuildReader.final_after {events : List ResponseEvent} {final : ResponseEvent}
    {result : BuildResult} (h : buildOutcome events final = some result) :
    ∃ s, (after events).event final = .ok s ∧ s.result = some result ∧
      s.logs = collected (events ++ [final]) := by
  rw [after, collected_concat]
  cases final with
  | exit code timedOut artifacts artifactRestrictions failedPhase phases =>
    cases h
    exact ⟨_, rfl, rfl, rfl⟩
  | _ => cases h

/-! ### Session starts -/

instance : HasOutput SessionStartEvent where
  stdout
    | .stdout data => some data
    | _ => none
  stderr
    | .stderr data => some data
    | _ => none

def startIdentity : SessionStartEvent → Option String
  | .session id _ _ _ _ _ => some id
  | _ => none

def startError : SessionStartEvent → Option String
  | .error code message _ => some (errorText code message)
  | _ => none

/-- The event may stand before the final event of the start of session `id`. -/
def InStart (id : String) : SessionStartEvent → Prop
  | .session id' _ _ _ _ _ => id' = id
  | .ready _ _ _ | .exit _ _ _ _ => False
  | _ => True

def StartReader.after (events : List SessionStartEvent) : StartReader where
  remote := ⟨(events.filterMap startIdentity).head?, events.filterMap startError, none⟩
  reported := (events.filterMap startIdentity).head?.toList
  logs := collected events

theorem eq_of_startIdentity {id : String} {events : List SessionStartEvent}
    (h : ∀ e ∈ events, InStart id e) : ∀ id' ∈ events.filterMap startIdentity, id' = id := by
  intro id' hid
  obtain ⟨e, he, hid⟩ := List.mem_filterMap.mp hid
  have hin := h e he
  cases e with
  | session => cases hid; exact hin
  | _ => cases hid

theorem StartReader.event_after {id : String} (hid : validSessionId id = true)
    (events : List SessionStartEvent) (e : SessionStartEvent) (hevents : ∀ e ∈ events, InStart id e)
    (he : InStart id e) : (after events).event e = .ok (after (events ++ [e])) := by
  rw [after, after, collected_concat]
  cases e with
  | session id' status phase durationMs exitCode timedOut =>
    obtain rfl : id' = id := he
    cases hhead : (events.filterMap startIdentity).head? with
    | none =>
      simp [StartReader.event, Remote.event, Remote.identify, refuse, hid, hhead, Logs.add,
        log, HasOutput.stdout, HasOutput.stderr, startIdentity, startError, bind,
        Except.bind, pure, Except.pure]
    | some existing =>
      obtain rfl := eq_of_startIdentity hevents _ (List.mem_of_head? hhead)
      simp [event, Remote.event, Remote.identify, refuse, hid, hhead, Logs.add,
        log, HasOutput.stdout, HasOutput.stderr, startIdentity, startError, bind,
        Except.bind, pure, Except.pure]
  | ready sessionId workspaceRevision phases => exact he.elim
  | exit code timedOut failedPhase phases => exact he.elim
  | _ =>
    simp [event, Remote.event, Logs.add, log, HasOutput.stdout,
      HasOutput.stderr, startIdentity, startError, bind, Except.bind, pure, Except.pure]

/-- What the final event says behind these events; a session that is ready is
one that was announced. -/
def startOutcome (events : List SessionStartEvent) : SessionStartEvent → Option SessionStartResult
  | .ready id _ phases =>
    if id ∈ events.filterMap startIdentity then
      some ⟨some id, 0, false, phases, events.filterMap startError⟩
    else none
  | .exit code timedOut _ phases =>
    some ⟨none, code, timedOut, phases, events.filterMap startError⟩
  | _ => none

theorem StartReader.final_after {id : String} (hid : validSessionId id = true)
    {events : List SessionStartEvent} {final : SessionStartEvent} {result : SessionStartResult}
    (hevents : ∀ e ∈ events, InStart id e) (h : startOutcome events final = some result) :
    ∃ s, (after events).event final = .ok s ∧ s.remote.result = some result ∧
      s.logs = collected (events ++ [final]) := by
  rw [after, collected_concat]
  cases final with
  | ready id' workspaceRevision phases =>
    have hall := eq_of_startIdentity hevents
    simp only [startOutcome] at h
    split at h
    · cases h
      rename_i hannounced
      obtain rfl := hall _ hannounced
      simp [StartReader.event, Remote.event, refuse, hid, head?_of_forall_eq hall hannounced, bind,
        Except.bind, pure, Except.pure, Remote.conclude, log, Logs.add,
        HasOutput.stdout, HasOutput.stderr]
    · cases h
  | exit code timedOut failedPhase phases =>
    cases h
    exact ⟨_, rfl, rfl, rfl⟩
  | _ => cases h

/-! ### Actions -/

instance : HasOutput SessionActionEvent where
  stdout
    | .stdout data => some data
    | _ => none
  stderr
    | .stderr data => some data
    | _ => none

def actionIdentity : SessionActionEvent → Option String
  | .action _ actionId _ _ _ => some actionId
  | _ => none

def actionError : SessionActionEvent → Option String
  | .error code message => some (errorText code message)
  | _ => none

section
variable {session action id : String}

/-- The event may stand before the final event of action `id`. -/
def InAction (session action id : String) : SessionActionEvent → Prop
  | .action sessionId actionId name _ _ => sessionId = session ∧ name = action ∧ actionId = id
  | .exit _ _ _ _ _ _ _ _ => False
  | _ => True

def ActionReader.after (events : List SessionActionEvent) : ActionReader where
  startedId := (events.filterMap actionIdentity).head?
  streamErrors := events.filterMap actionError
  reported := (events.filterMap actionIdentity).head?.toList
  logs := collected events

variable {events : List SessionActionEvent}

theorem eq_of_actionIdentity (h : ∀ e ∈ events, InAction session action id e) :
    ∀ id' ∈ events.filterMap actionIdentity, id' = id := by
  intro id' hid
  obtain ⟨e, he, hid⟩ := List.mem_filterMap.mp hid
  have hin := h e he
  cases e with
  | action => cases hid; exact hin.2.2
  | _ => cases hid

theorem ActionReader.event_after (hid : validActionId id = true) (events : List SessionActionEvent)
    (e : SessionActionEvent) (hevents : ∀ e ∈ events, InAction session action id e)
    (he : InAction session action id e) :
    (after events).event session action e = .ok (after (events ++ [e])) := by
  rw [after, after, collected_concat]
  cases e with
  | action sessionId actionId name workspaceRevision status =>
    obtain ⟨rfl, rfl, rfl⟩ := he
    cases hhead : (events.filterMap actionIdentity).head? with
    | none =>
      simp [ActionReader.event, ActionReader.identify, refuse, hid, hhead, Logs.add,
        HasOutput.stdout, HasOutput.stderr, actionIdentity, actionError, bind, Except.bind]
    | some existing =>
      obtain rfl := eq_of_actionIdentity hevents _ (List.mem_of_head? hhead)
      simp [ActionReader.event, ActionReader.identify, refuse, hid, hhead, Logs.add,
        HasOutput.stdout, HasOutput.stderr, actionIdentity, actionError, bind, Except.bind, pure,
        Except.pure]
  | exit sessionId actionId name workspaceRevision code timedOut artifacts restrictions =>
    exact he.elim
  | _ =>
    simp [ActionReader.event, Logs.add, HasOutput.stdout, HasOutput.stderr, actionIdentity,
      actionError]

/-- What the exit event says behind these events; the action was announced. -/
def actionOutcome (session action : String) (events : List SessionActionEvent) :
    SessionActionEvent → Option SessionActionResult
  | .exit sessionId actionId name _ code timedOut artifacts artifactRestrictions =>
    if sessionId = session ∧ name = action ∧ actionId ∈ events.filterMap actionIdentity then
      some ⟨actionId, code, timedOut, artifacts, artifactRestrictions,
        events.filterMap actionError⟩
    else none
  | _ => none

theorem ActionReader.final_after (hid : validActionId id = true) {final : SessionActionEvent}
    {result : SessionActionResult} (hevents : ∀ e ∈ events, InAction session action id e)
    (h : actionOutcome session action events final = some result) :
    ∃ s, (after events).event session action final = .ok s ∧ s.result = some result ∧
      s.logs = collected (events ++ [final]) := by
  rw [after, collected_concat]
  cases final with
  | exit sessionId actionId name workspaceRevision code timedOut artifacts restrictions =>
    have hall := eq_of_actionIdentity hevents
    simp only [actionOutcome] at h
    split at h
    · cases h
      rename_i hannounced
      obtain ⟨rfl, rfl, hannounced⟩ := hannounced
      obtain rfl := hall _ hannounced
      simp [ActionReader.event, refuse, hid, head?_of_forall_eq hall hannounced, bind, Except.bind,
        pure, Except.pure, Logs.add, HasOutput.stdout, HasOutput.stderr]
    · cases h
  | _ => cases h

end

/-! ### Round trips -/

end IndenturedServer.Client
