import IndenturedServer.Phases.Completion

/-!
The two phases of a task.

`run_task_phases` runs the setup command, if there is one, and then the run
command. The phases share the counter of the output, the flag that it was
exceeded, the cancellation, the channel and the clock. A reader of the setup
phase that has not ended within its grace is detached and goes on: up to four
readers can be at work at the same time.

The system consists of two phases as `PhaseRun` has them. A step is a step of
one phase, and what it does to the shared data is seen by the other one. The
waiting thread of the run phase takes no step before the setup phase has
returned well.
-/

namespace IndenturedServer.Phases

open Foundation Sessions
open Source (Text saturatingAdd)

structure TaskConfig where
  buildId : String
  setupTimeout : Option Nat
  timeout : Nat
  maxOutputBytes : Nat

def TaskConfig.phase (cfg : TaskConfig) : BuildPhase → PhaseConfig
  | .setup => ⟨cfg.buildId, .setup, cfg.setupTimeout.getD 0, cfg.maxOutputBytes⟩
  | .run => ⟨cfg.buildId, .run, cfg.timeout, cfg.maxOutputBytes⟩

theorem TaskConfig.phase_maxOutputBytes (cfg : TaskConfig) (p : BuildPhase) :
    (cfg.phase p).maxOutputBytes = cfg.maxOutputBytes := by
  cases p <;> rfl

/-- A reader thread: the phase that started it, and its stream. -/
abbrev Reader := BuildPhase × StreamKind

structure TaskRun where
  phases : BuildPhase → PhaseRun
  /-- History: the bytes that have been counted, as a number without a limit. -/
  counted : Nat := 0
  /-- History: the raw bytes of the output events, in their order. -/
  forwarded : List (Reader × Text) := []

/-- The shared data is what another phase has made of it. -/
def PhaseRun.sharing (s other : PhaseRun) : PhaseRun :=
  { s with
    channel := other.channel
    outputBytes := other.outputBytes
    outputExceeded := other.outputExceeded
    cancelled := other.cancelled
    now := other.now }

namespace TaskRun

def initial (channel : Channel ResponseEvent channelCapacity) : TaskRun where
  phases _ := { channel := channel, outputBytes := 0 }

def reader (s : TaskRun) (r : Reader) : ReaderPc :=
  (s.phases r.1).readers r.2

/-- The setup phase has returned, and the run phase may follow. -/
def setupSucceeded (s : TaskRun) : Bool :=
  match (s.phases .setup).waiter with
  | .returned (.ok result) => result.exitCode = 0 && !result.timedOut
  | _ => false

/-- The thread of `run_task_phases` is in one phase at a time. -/
def mayStep (cfg : TaskConfig) (s : TaskRun) : BuildPhase → PhaseEvent → Bool
  | .setup, .waiter _ => cfg.setupTimeout.isSome
  | .run, .waiter _ => cfg.setupTimeout.isNone || s.setupSucceeded
  | _, _ => true

def counts : ReaderPc → Nat
  | .counting chunk => chunk.length
  | _ => 0

/-- The chunk that a step from the first point to the second one has placed in
the channel. -/
def places (r : Reader) : ReaderPc → ReaderPc → List (Reader × Text)
  | .forwarding chunk _, .reading => [(r, chunk)]
  | _, _ => []

/-- A phase has made a step. -/
def advance (s : TaskRun) (p : BuildPhase) (after : PhaseRun) : PhaseEvent → TaskRun
  | .reader kind _ => {
      phases := fun q => if q = p then after else (s.phases q).sharing after
      counted := s.counted + counts (s.reader (p, kind))
      forwarded := s.forwarded ++ places (p, kind) (s.reader (p, kind)) (after.readers kind) }
  | _ => { s with phases := fun q => if q = p then after else (s.phases q).sharing after }

def step (cfg : TaskConfig) (lossy : Text → String) (s : TaskRun) (e : BuildPhase × PhaseEvent) :
    Option TaskRun :=
  if s.mayStep cfg e.1 e.2 then
    ((s.phases e.1).step (cfg.phase e.1) lossy e.2).map fun after => s.advance e.1 after e.2
  else none

end TaskRun

/-! ### What a step does to the output -/

def outputs (events : List ResponseEvent) : List ResponseEvent :=
  events.filter fun event => StreamKind.stdout.owns event || StreamKind.stderr.owns event

namespace PhaseRun

inductive ReaderMove (cfg : PhaseConfig) (lossy : Text → String) (s : PhaseRun)
    (kind : StreamKind) : PhaseRun → Prop
  | reads {chunk : Text} {unread : StreamKind → Text} (hpc : s.readers kind = .reading)
      (hlength : chunk.length ≤ outputChunkSize) :
      ReaderMove cfg lossy s kind { s.setReader kind (.counting chunk) with unread := unread }
  | accepts {chunk : Text} {pc : ForwardPc} (hpc : s.readers kind = .counting chunk)
      (hwithin : saturatingAdd s.outputBytes chunk.length ≤ cfg.maxOutputBytes) :
      ReaderMove cfg lossy s kind { s.setReader kind (.forwarding chunk pc) with
        outputBytes := (s.outputBytes + chunk.length) % 2 ^ 64 }
  | crosses {chunk : Text} (hpc : s.readers kind = .counting chunk)
      (hover : cfg.maxOutputBytes < saturatingAdd s.outputBytes chunk.length) :
      ReaderMove cfg lossy s kind { s.setReader kind (.exceeding chunk) with
        outputBytes := (s.outputBytes + chunk.length) % 2 ^ 64 }
  | waits {chunk : Text} {pc pc' : ForwardPc} (hpc : s.readers kind = .forwarding chunk pc) :
      ReaderMove cfg lossy s kind (s.setReader kind (.forwarding chunk pc'))
  | sends {chunk : Text} {pc : ForwardPc} {channel : Channel ResponseEvent channelCapacity}
      (hpc : s.readers kind = .forwarding chunk pc)
      (hsend : s.channel.trySend (kind.event (lossy chunk)) = .ok channel) :
      ReaderMove cfg lossy s kind { s.setReader kind .reading with channel := channel }
  | stops {pc : ReaderPc} {exceeded cancelled : Bool} (hstarted : s.readers kind ≠ .absent)
      (hpc : ∀ chunk, s.readers kind ≠ .counting chunk) (hpc' : pc = .cancelling ∨ pc = .ended) :
      ReaderMove cfg lossy s kind { s.setReader kind pc with
        outputExceeded := exceeded, cancelled := cancelled }

section
variable {cfg : PhaseConfig} {lossy : Text → String} {s s' : PhaseRun} {kind : StreamKind}

variable {answer : ReadAnswer}

theorem readStep_move (hpc : s.readers kind = .reading) (hstep : s.readStep kind answer = some s') :
    ReaderMove cfg lossy s kind s' := by
  have hstop : ReaderMove cfg lossy s kind (s.setReader kind .ended) :=
    .stops (by simp [hpc]) (by simp [hpc]) (.inr rfl)
  cases answer with
  | bytes n =>
    obtain ⟨⟨-, hsize, -⟩, heq⟩ := Option.ite_none_right_eq_some.mp hstep
    rw [← Option.some.inj heq]
    exact .reads hpc ((List.length_take_le n _).trans hsize)
  | eof =>
    obtain ⟨-, heq⟩ := Option.ite_none_right_eq_some.mp hstep
    rw [← Option.some.inj heq]
    exact hstop
  | failed =>
    rw [← Option.some.inj hstep]
    exact hstop

theorem forwardStep_move {chunk : Text} {pc : ForwardPc}
    (hpc : s.readers kind = .forwarding chunk pc) :
    ReaderMove cfg lossy s kind (s.forwardStep lossy kind chunk pc) := by
  have hstop : ReaderMove cfg lossy s kind (s.setReader kind .cancelling) :=
    .stops (by simp [hpc]) (by simp [hpc]) (.inl rfl)
  cases pc with
  | checkCancelled deadline =>
    rw [forwardStep]
    split
    · exact hstop
    · exact .waits hpc
  | attempt deadline =>
    rw [forwardStep]
    split
    · exact .sends hpc ‹_›
    · exact hstop
    · exact .waits hpc
  | full deadline =>
    rw [forwardStep]
    split
    · exact hstop
    · exact .waits hpc

theorem readerStep_move (hstep : s.readerStep cfg lossy kind answer = some s') :
    ReaderMove cfg lossy s kind s' := by
  unfold readerStep at hstep
  split at hstep
  · exact readStep_move ‹_› hstep
  · rename_i chunk hpc
    rw [← Option.some.inj hstep]
    split
    · exact .crosses hpc ‹_›
    · exact .accepts hpc (Nat.le_of_not_lt ‹_›)
  · rename_i chunk hpc
    rw [← Option.some.inj hstep]
    exact .stops (by simp [hpc]) (by simp [hpc]) (.inl rfl)
  · rename_i chunk pc hpc
    rw [← Option.some.inj hstep]
    exact forwardStep_move hpc
  · rename_i hpc
    rw [← Option.some.inj hstep]
    exact .stops (by simp [hpc]) (by simp [hpc]) (.inr rfl)
  · cases hstep
  · cases hstep

/-- A step that is not one of a reader leaves the output alone, or starts the
readers. -/
structure Keeps (s s' : PhaseRun) : Prop where
  outputBytes : s'.outputBytes = s.outputBytes
  outputs : outputs s'.channel.placed = outputs s.channel.placed
  readers : s'.readers = s.readers ∨
    s.waiter.unspawned = true ∧ s'.readers = fun _ => .reading
  unspawned : s'.waiter.unspawned = true →
    s.waiter.unspawned = true ∧ s'.readers = s.readers

theorem outputs_concat {events : List ResponseEvent} {event : ResponseEvent}
    (h : ∀ kind : StreamKind, kind.owns event = false) :
    Phases.outputs (events ++ [event]) = Phases.outputs events := by
  simp [Phases.outputs, h]

theorem Keeps.send {event : ResponseEvent} {channel : Channel ResponseEvent channelCapacity}
    {pc : WaiterPc} (hsend : s.channel.trySend event = .ok channel)
    (hevent : ∀ kind : StreamKind, kind.owns event = false)
    (hpc : pc.unspawned = true → s.waiter.unspawned = true) :
    s.Keeps { s.setWaiter pc with channel := channel } where
  outputBytes := rfl
  outputs := by
    rw [(Channel.trySend_ok hsend).1, outputs_concat hevent]
  readers := .inl rfl
  unspawned h := ⟨hpc h, rfl⟩

theorem waiterStep_keeps {failure : Option String} (hstep : s.waiterStep cfg failure = some s') :
    s.Keeps s' := by
  cases waiterStep_move hstep with
  | pass h => exact ⟨rfl, rfl, .inl rfl, fun hpc => ⟨h.unspawned hpc, rfl⟩⟩
  | started hpc hsend => exact .send hsend (fun kind => by cases kind <;> rfl) fun _ => hpc
  | spawned hpc => exact ⟨rfl, rfl, .inr ⟨by rw [hpc]; rfl, rfl⟩, nofun⟩
  | finished hpc hsend => exact .send hsend (fun kind => by cases kind <;> rfl) nofun

theorem step_output {e : PhaseEvent} (hstep : s.step cfg lossy e = some s') :
    (∃ kind answer, e = .reader kind answer ∧ ReaderMove cfg lossy s kind s') ∨
      (∀ kind answer, e ≠ .reader kind answer) ∧ s.Keeps s' := by
  have hsame : ∀ {s' : PhaseRun}, s'.outputBytes = s.outputBytes →
      s'.channel.placed = s.channel.placed → s'.readers = s.readers → s'.waiter = s.waiter →
      s.Keeps s' := by
    intro s' hbytes hplaced hreaders hwaiter
    exact ⟨hbytes, by rw [hplaced], .inl hreaders, fun h => ⟨hwaiter ▸ h, hreaders⟩⟩
  cases e with
  | reader kind answer => exact .inl ⟨kind, answer, rfl, readerStep_move hstep⟩
  | waiter failure => exact .inr ⟨by rintro _ _ ⟨⟩, waiterStep_keeps hstep⟩
  | write kind bytes =>
    obtain ⟨-, heq⟩ := Option.ite_none_right_eq_some.mp hstep
    rw [← Option.some.inj heq]
    exact .inr ⟨by rintro _ _ ⟨⟩, hsame rfl rfl rfl rfl⟩
  | childExits code =>
    obtain ⟨-, heq⟩ := Option.ite_none_right_eq_some.mp hstep
    rw [← Option.some.inj heq]
    exact .inr ⟨by rintro _ _ ⟨⟩, hsame rfl rfl rfl rfl⟩
  | groupEnds =>
    obtain ⟨-, heq⟩ := Option.ite_none_right_eq_some.mp hstep
    rw [← Option.some.inj heq]
    exact .inr ⟨by rintro _ _ ⟨⟩, hsame rfl rfl rfl rfl⟩
  | tick duration =>
    rw [← Option.some.inj hstep]
    exact .inr ⟨by rintro _ _ ⟨⟩, hsame rfl rfl rfl rfl⟩
  | cancel =>
    rw [← Option.some.inj hstep]
    exact .inr ⟨by rintro _ _ ⟨⟩, hsame rfl rfl rfl rfl⟩
  | dropReceiver =>
    rw [← Option.some.inj hstep]
    exact .inr ⟨by rintro _ _ ⟨⟩, hsame rfl rfl rfl rfl⟩
  | consume =>
    simp only [step] at hstep
    split at hstep
    · rename_i hrecv
      rw [← Option.some.inj hstep]
      exact .inr ⟨by rintro _ _ ⟨⟩, hsame rfl (Channel.tryRecv_some hrecv).1 rfl rfl⟩
    · cases hstep

end

end PhaseRun

namespace TaskRun

variable {cfg : TaskConfig} {lossy : Text → String} {s s' : TaskRun}

section
variable (s : TaskRun) (p : BuildPhase) (after : PhaseRun) (e : PhaseEvent)

theorem phases_eq :
    (s.advance p after e).phases =
      fun q => if q = p then after else (s.phases q).sharing after := by
  cases e <;> rfl

theorem reader_advance (r : Reader) :
    (s.advance p after e).reader r = if r.1 = p then after.readers r.2 else s.reader r := by
  rw [reader, phases_eq]
  show (if r.1 = p then after else _).readers r.2 = _
  split
  · rfl
  · rfl

end

theorem phases_advance (s : TaskRun) (p q : BuildPhase) (after : PhaseRun) (e : PhaseEvent) :
    ((s.advance p after e).phases q).outputBytes = after.outputBytes ∧
    ((s.advance p after e).phases q).channel = after.channel ∧
    ((s.advance p after e).phases q).waiter =
      if q = p then after.waiter else (s.phases q).waiter := by
  rw [phases_eq]
  by_cases hq : q = p
  · simp [hq]
  · simp [hq, PhaseRun.sharing]

theorem step_cases {e : BuildPhase × PhaseEvent} (h : s.step cfg lossy e = some s') :
    s.mayStep cfg e.1 e.2 = true ∧ ∃ after, (s.phases e.1).step (cfg.phase e.1) lossy e.2 =
      some after ∧ s' = s.advance e.1 after e.2 := by
  obtain ⟨hmay, hmap⟩ := Option.ite_none_right_eq_some.mp h
  obtain ⟨after, hafter, heq⟩ := Option.map_eq_some_iff.mp hmap
  exact ⟨hmay, after, hafter, heq.symm⟩

end TaskRun

end IndenturedServer.Phases
