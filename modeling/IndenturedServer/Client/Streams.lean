import IndenturedServer.Client.Start
import IndenturedServer.Foundation.Framing
import IndenturedServer.Source.Archive

/-!
The client's readers of the response streams.

`read_responses`, `read_session_start_response` and `read_session_action_response`
read events that stand in lines, one JSON text in each. They share the buffer and
its limit. They differ in the events, in what they make of a line after the final
event, and in what they do when a chunk has brought the final event: the first
stops reading, the other two read on to the end of the stream and accept nothing
more.

What the readers print to the terminal is left out, and the log files can be
written. How JSON is decoded is a parameter.
-/

namespace IndenturedServer.Client

open Foundation
open Source (Text isUtf8)
open Sessions (ArtifactArchive ArtifactRestrictions BuildPhase PhaseResult ResponseEvent
  SessionStartEvent)

def newline : UInt8 := 0x0a

def carriageReturn : UInt8 := 0x0d

def utf8 (data : String) : Text :=
  data.toUTF8.data.toList

/-- What the reader has appended to `stdout.log` and to `stderr.log`. -/
structure Logs where
  stdout : Text := []
  stderr : Text := []
  deriving DecidableEq, Repr

def Logs.writeStdout (logs : Logs) (data : String) : Logs :=
  { logs with stdout := logs.stdout ++ utf8 data }

def Logs.writeStderr (logs : Logs) (data : String) : Logs :=
  { logs with stderr := logs.stderr ++ utf8 data }

/-! ### The loop of the readers -/

/-- A reader of events `E` with variables `S` and result `R`. -/
structure StreamReader (E S R : Type) where
  /-- The messages of a failed read and of a line that cannot be decoded; the
  error follows. -/
  readFailed : String
  invalidLine : String
  /-- The message for a line after the final event, where it is refused. -/
  eventAfterFinal : Option String
  event : S → E → Except BuildError S
  result : S → Option R
  /-- What follows a chunk that has brought the final event. -/
  close : Text → List (Except String Text) → EStateM BuildError S Unit
  missing : String

/-- `from_utf8` and `trim_end_matches('\r')` -/
def lineText (line : Text) : Except BuildError Text := do
  refuse (isUtf8 line = false) (.other "response was not UTF-8")
  return line.rdropWhile (· == carriageReturn)

namespace StreamReader

variable {E S R : Type} (r : StreamReader E S R) (decode : Text → Except String E)

def refuseAfterFinal (s : S) : Except BuildError Unit :=
  match r.eventAfterFinal with
  | some message => refuse ((r.result s).isSome = true) (.other message)
  | none => .ok ()

def decodeLine (line : Text) : Except BuildError E :=
  match decode line with
  | .ok event => .ok event
  | .error err => .error (.other (r.invalidLine ++ err))

/-- One turn of the loop over the lines. -/
def takeLine (s : S) (line : Text) : Except BuildError S := do
  let line ← lineText line
  if line = [] then return s
  else do
    r.refuseAfterFinal s
    let event ← r.decodeLine decode line
    r.event s event

/-- The loop over the chunks. -/
def lines : LineReader UInt8 String BuildError S where
  sep := newline
  limit := 1024 * 1024
  tooLong := .other "response line exceeded 1 MiB"
  lost err := .other (r.readFailed ++ err)
  line line s :=
    match r.takeLine decode s line with
    | .ok s' => .ok () s'
    | .error err => .error err s
  done s := (r.result s).isSome
  close := r.close

def read (stream : List (Except String Text)) : EStateM BuildError S R := do
  (r.lines decode).run stream []
  match r.result (← get) with
  | some result => return result
  | none => throw (.other r.missing)

end StreamReader

/-- The stream is read to its end; `failed` and `after` are the messages of a
failed read and of a chunk that is not empty. -/
def awaitEnd {S : Type} (failed after : String) :
    List (Except String Text) → EStateM BuildError S Unit
  | [] => return ()
  | .error err :: _ => throw (.other (failed ++ err))
  | .ok chunk :: rest => if chunk = [] then awaitEnd failed after rest else throw (.other after)

/-- The final event must have been the last thing in the buffer and in the stream. -/
def expectEnd {S : Type} (data failed after : String) (pending : Text)
    (rest : List (Except String Text)) : EStateM BuildError S Unit :=
  if pending ≠ [] then throw (.other data) else awaitEnd failed after rest

/-! ### `read_responses` -/

structure BuildResult where
  buildId : Option String
  exitCode : Int
  timedOut : Bool
  artifacts : Option ArtifactArchive
  artifactRestrictions : Option ArtifactRestrictions
  failedPhase : Option BuildPhase
  phases : List PhaseResult
  deriving DecidableEq, Repr

structure BuildReader where
  buildId : Option String := none
  result : Option BuildResult := none
  logs : Logs := {}
  deriving DecidableEq, Repr

/-- The characters that `str::trim` removes. -/
def isWhiteSpace (c : Char) : Bool :=
  let n := c.toNat
  (0x9 ≤ n && n ≤ 0xd) || n == 0x20 || n == 0x85 || n == 0xa0 || n == 0x1680 ||
    (0x2000 ≤ n && n ≤ 0x200a) || n == 0x2028 || n == 0x2029 || n == 0x202f || n == 0x205f ||
    n == 0x3000

def trim (value : String) : List Char :=
  (value.toList.dropWhile isWhiteSpace).rdropWhile isWhiteSpace

def validateBuildId (buildId : String) : Except BuildError Unit := do
  let trimmed := trim buildId
  refuse (trimmed = [] ∨ trimmed = ['.'] ∨ trimmed = ['.', '.'])
    (.other "build id must be a non-empty single path component")
  refuse ('\x00' ∈ trimmed ∨ '/' ∈ trimmed ∨ '\\' ∈ trimmed)
    (.other "build id must not contain path separators or NUL bytes")

def BuildReader.event (s : BuildReader) : ResponseEvent → Except BuildError BuildReader
  | .stdout data => .ok { s with logs := s.logs.writeStdout data }
  | .stderr data => .ok { s with logs := s.logs.writeStderr data }
  | .error _ _ _ _ => .ok s
  | .build id _ _ _ _ _ => do
      validateBuildId id
      return { s with buildId := some id }
  | .exit code timedOut artifacts artifactRestrictions failedPhase phases =>
    .ok { s with
      result := some
        ⟨s.buildId, code, timedOut, artifacts, artifactRestrictions, failedPhase, phases⟩ }

def buildStream : StreamReader ResponseEvent BuildReader BuildResult where
  readFailed := "failed to read response: "
  invalidLine := "invalid response format: "
  eventAfterFinal := none
  event := BuildReader.event
  result := BuildReader.result
  close _ _ := return ()
  missing := "missing exit event"

def readResponses (decode : Text → Except String ResponseEvent)
    (stream : List (Except String Text)) : EStateM BuildError BuildReader BuildResult :=
  buildStream.read decode stream

/-! ### `read_session_start_response` -/

/-- The reader with what it has reported to the command. -/
structure StartReader where
  remote : Remote := {}
  reported : List String := []
  logs : Logs := {}

def StartReader.log (s : StartReader) : SessionStartEvent → Logs
  | .stdout data => s.logs.writeStdout data
  | .stderr data => s.logs.writeStderr data
  | _ => s.logs

def StartReader.event (s : StartReader) (event : SessionStartEvent) :
    Except BuildError StartReader := do
  let (remote, reported) ← s.remote.event event
  return ⟨remote, s.reported ++ reported.toList, s.log event⟩

def startStream : StreamReader SessionStartEvent StartReader SessionStartResult where
  readFailed := "failed to read session start response: "
  invalidLine := "invalid session response: "
  eventAfterFinal := some "session start response contained an event after its final event"
  event := StartReader.event
  result s := s.remote.result
  close := expectEnd "session start response contained data after its final event"
    "failed to finish Ready delivery: "
    "session start response contained events after its final event"
  missing := "missing ready or exit event"

def readSessionStartResponse (decode : Text → Except String SessionStartEvent)
    (stream : List (Except String Text)) : EStateM BuildError StartReader SessionStartResult :=
  startStream.read decode stream

/-! ### `read_session_action_response` -/

inductive SessionActionStatus
  | started
  | snapshotting
  deriving DecidableEq, Repr

inductive SessionActionEvent
  | action (sessionId actionId action workspaceRevision : String) (status : SessionActionStatus)
  | stdout (data : String)
  | stderr (data : String)
  | error (code : String) (message : Option String)
  | exit (sessionId actionId action workspaceRevision : String) (code : Int) (timedOut : Bool)
      (artifacts : Option ArtifactArchive) (artifactRestrictions : Option ArtifactRestrictions)
  deriving DecidableEq, Repr

structure SessionActionResult where
  actionId : String
  exitCode : Int
  timedOut : Bool
  artifacts : Option ArtifactArchive
  artifactRestrictions : Option ArtifactRestrictions
  errors : List String
  deriving DecidableEq, Repr

structure ActionReader where
  startedId : Option String := none
  streamErrors : List String := []
  result : Option SessionActionResult := none
  reported : List String := []
  logs : Logs := {}
  deriving DecidableEq, Repr

/-- Both are `validate_identifier` with the same bound. -/
def validActionId (value : String) : Bool :=
  validSessionId value

section
variable (expectedSession expectedAction : String)

def ActionReader.identify (s : ActionReader) (actionId : String) : Except BuildError ActionReader :=
  match s.startedId with
  | some existing => do
      refuse (existing ≠ actionId) (.other "action identity changed during execution")
      return s
  | none => .ok { s with startedId := some actionId, reported := s.reported ++ [actionId] }

def ActionReader.event (s : ActionReader) : SessionActionEvent → Except BuildError ActionReader
  | .action sessionId actionId action _ _ => do
      refuse (sessionId ≠ expectedSession ∨ action ≠ expectedAction ∨ validActionId actionId = false)
        (.other "action stream identity was inconsistent")
      s.identify actionId
  | .stdout data => .ok { s with logs := s.logs.writeStdout data }
  | .stderr data => .ok { s with logs := s.logs.writeStderr data }
  | .error code message =>
    .ok { s with streamErrors := s.streamErrors ++ [errorText code message] }
  | .exit sessionId actionId action _ code timedOut artifacts artifactRestrictions => do
      refuse (sessionId ≠ expectedSession ∨ action ≠ expectedAction ∨
          validActionId actionId = false ∨ s.startedId ≠ some actionId)
        (.other "action exit identity was inconsistent")
      return { s with
        result := some
          ⟨actionId, code, timedOut, artifacts, artifactRestrictions, s.streamErrors⟩
        streamErrors := [] }

def actionStream : StreamReader SessionActionEvent ActionReader SessionActionResult where
  readFailed := "failed to read action response: "
  invalidLine := "invalid action response: "
  eventAfterFinal := some "action response contained an event after the exit event"
  event := ActionReader.event expectedSession expectedAction
  result := ActionReader.result
  close := expectEnd "action response contained data after the exit event"
    "failed to acknowledge action exit: " "action response contained events after exit"
  missing := "missing action exit event"

def readSessionActionResponse (decode : Text → Except String SessionActionEvent)
    (stream : List (Except String Text)) : EStateM BuildError ActionReader SessionActionResult :=
  (actionStream expectedSession expectedAction).read decode stream

end

/-! ### Chunks -/

theorem awaitEnd_quiet {S : Type} (failed after : String) (chunks : List Text)
    (h : chunks.flatten = []) :
    awaitEnd failed after (chunks.map .ok) = (pure () : EStateM BuildError S Unit) := by
  induction chunks with
  | nil => rfl
  | cons chunk rest ih =>
    obtain ⟨rfl, hrest⟩ := List.append_eq_nil_iff.mp h
    exact ih hrest

theorem buildStream_quiet (decode : Text → Except String ResponseEvent) :
    (buildStream.lines decode).ClosesQuietly :=
  fun _ _ => rfl

theorem startStream_quiet (decode : Text → Except String SessionStartEvent) :
    (startStream.lines decode).ClosesQuietly :=
  fun chunks h => awaitEnd_quiet _ _ chunks h

theorem actionStream_quiet (expectedSession expectedAction : String)
    (decode : Text → Except String SessionActionEvent) :
    ((actionStream expectedSession expectedAction).lines decode).ClosesQuietly :=
  fun chunks h => awaitEnd_quiet _ _ chunks h

namespace StreamReader

variable {E S R : Type} {r : StreamReader E S R} {decode : Text → Except String E}

/-- What is read does not depend on the chunks, if nothing follows the final
event. -/
theorem read_eq (hquiet : (r.lines decode).ClosesQuietly) {s : S} {chunks chunks' : List Text}
    (hflatten : chunks.flatten = chunks'.flatten) (hfits : (r.lines decode).Fits [] chunks)
    (hfits' : (r.lines decode).Fits [] chunks')
    (hfinal : (r.lines decode).NothingFollows s chunks.flatten) :
    r.read decode (chunks.map .ok) s = r.read decode (chunks'.map .ok) s := by
  have hrun := LineReader.run_eq hquiet chunks [] s rfl hfits hfinal
  have hrun' := LineReader.run_eq hquiet chunks' [] s rfl hfits' (by rwa [← hflatten])
  have hsame : (r.lines decode).run (chunks.map .ok) [] s =
      (r.lines decode).run (chunks'.map .ok) [] s := by
    rw [hrun, hrun', hflatten]
  show EStateM.bind _ _ s = EStateM.bind _ _ s
  simp only [EStateM.bind, hsame]

end StreamReader

def exitText : Text :=
  [0x7b, 0x22, 0x74, 0x79, 0x70, 0x65, 0x22, 0x3a, 0x22, 0x65, 0x78, 0x69, 0x74, 0x22, 0x7d]

def stdoutText : Text :=
  [0x7b, 0x22, 0x74, 0x79, 0x70, 0x65, 0x22, 0x3a, 0x22, 0x73, 0x74, 0x64, 0x6f, 0x75, 0x74,
   0x22, 0x7d]

def actionText : Text :=
  [0x7b, 0x22, 0x74, 0x79, 0x70, 0x65, 0x22, 0x3a, 0x22, 0x61, 0x63, 0x74, 0x69, 0x6f, 0x6e,
   0x22, 0x7d]

def sampleBuild (line : Text) : Except String ResponseEvent :=
  if line = exitText then .ok (.exit 0 false none none none [])
  else if line = stdoutText then .ok (.stdout "late")
  else .error "syntax"

def sampleStart (line : Text) : Except String SessionStartEvent :=
  if line = exitText then .ok (.exit 1 false none []) else .error "syntax"

def sampleAction (line : Text) : Except String SessionActionEvent :=
  if line = exitText then .ok (.exit "s" "a" "build" "rev_0" 0 false none none)
  else if line = actionText then .ok (.action "s" "a" "build" "rev_0" .started)
  else .error "syntax"

/-- The reader has returned a result. -/
def succeeded {S R : Type} : EStateM.Result BuildError S R → Bool
  | .ok _ _ => true
  | .error _ _ => false

def loggedStdout {R : Type} : EStateM.Result BuildError BuildReader R → Option Text
  | .ok _ s => some s.logs.stdout
  | .error _ _ => none

end IndenturedServer.Client
