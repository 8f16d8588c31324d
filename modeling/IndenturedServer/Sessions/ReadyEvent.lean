import IndenturedServer.Sessions.StartStream

/-!
How the event stream of a session start ends.

Once the session is ready, nothing may come after the ready event. For the
drains this is settled by their lock: a drain sends only while it holds the
startup sender of its service, and the worker takes every sender away before
it sends. For the bridge, and for the ready event itself, nothing in the
source settles it. `StartStream.Orderly` is the invariant of the runs in
which, at that moment, the bridge has ended and the stream has a free slot.
-/

namespace IndenturedServer.Sessions

open Foundation StartStream

/-- Services whose startup sender the worker has taken away. -/
def InitializerPc.retained (spawned : Nat) : InitializerPc → Nat
  | .retainOutput i _ => i
  | .sendReady _ | .finished true => spawned
  | _ => 0

/-- A point of the worker before it has made the session ready, or after it
has failed to. -/
def InitializerPc.plain : InitializerPc → Bool
  | .retainOutput _ _ | .sendReady _ | .finished true => false
  | _ => true

/-- What a drain holds is output, and it sends only with the startup sender
of its service in place. -/
def DrainPc.Calm (sender : Bool) : DrainPc → Prop
  | .holding event => event.isReady = false
  | .sending event _ => event.isReady = false ∧ sender = true
  | _ => True

/-- The stream, by whether the worker has sent the ready event. -/
def StartStream.Announces (cfg : StartConfig) (s : StartStream) : Prop :=
  match s.initializer with
  | .finished true => s.bridge = .ended ∧ (s.channel.closed = false → ∃ before phases,
      s.channel.placed = before ++ [.ready cfg.sessionId "rev_0" phases] ∧
      ∀ event ∈ before, event.isReady = false)
  | _ => ∀ event ∈ s.channel.placed, event.isReady = false

structure StartStream.Orderly (cfg : StartConfig) (s : StartStream) : Prop where
  bridge : ∀ event pc, s.bridge = .sending event pc → event.isReady = false
  drains : ∀ i stderr, (s.drains i stderr).Calm (s.startupSender i)
  unspawned : ∀ i, s.spawned ≤ i → s.startupSender i = false
  retained : ∀ i, i < s.initializer.retained s.spawned → s.startupSender i = false
  announces : s.Announces cfg

section
variable {cfg : StartConfig} {s s' : StartStream}

/-! ### Sending -/

/-- At most one event has been added to the channel, and it is `event`. -/
def Gains (c c' : Channel SessionStartEvent channelCapacity) (event : SessionStartEvent) : Prop :=
  c'.closed = c.closed ∧ (c'.placed = c.placed ∨ c'.placed = c.placed ++ [event])

theorem sendSessionResponse_gains (c : Channel SessionStartEvent channelCapacity) (cancelled : Bool)
    (now : Nat) (event : SessionStartEvent) (pc : SendPc) :
    Gains c (sendSessionResponse c cancelled now event pc).1 event := by
  cases pc with
  | checkCancelled deadline => exact ⟨rfl, .inl rfl⟩
  | attempt deadline =>
    simp only [sendSessionResponse]
    split
    · rename_i c' hsent
      obtain ⟨hplaced, hclosed⟩ := Channel.trySend_ok hsent
      exact ⟨hclosed, .inr hplaced⟩
    · exact ⟨rfl, .inl rfl⟩
    · exact ⟨rfl, .inl rfl⟩
  | full deadline =>
    simp only [sendSessionResponse]
    split <;> exact ⟨rfl, .inl rfl⟩

theorem StartStream.sendBestEffort_eq (s : StartStream) (event : SessionStartEvent) :
    ∃ c, s.sendBestEffort event = { s with channel := c } ∧ Gains s.channel c event := by
  unfold sendBestEffort
  split
  · rename_i c hsent
    obtain ⟨hplaced, hclosed⟩ := Channel.trySend_ok hsent
    exact ⟨c, rfl, hclosed, .inr hplaced⟩
  · exact ⟨s.channel, rfl, rfl, .inl rfl⟩

theorem StartStream.announces_of_unfinished (h : s.initializer ≠ .finished true) :
    s.Announces cfg ↔ ∀ event ∈ s.channel.placed, event.isReady = false := by
  unfold Announces
  split
  · rename_i hpc
    exact absurd hpc h
  · exact Iff.rfl

theorem StartStream.announces_of_finished (h : s.initializer = .finished true) :
    s.Announces cfg ↔ s.bridge = .ended ∧ (s.channel.closed = false → ∃ before phases,
      s.channel.placed = before ++ [.ready cfg.sessionId "rev_0" phases] ∧
      ∀ event ∈ before, event.isReady = false) := by
  unfold Announces
  rw [h]

theorem Gains.unready {c c' : Channel SessionStartEvent channelCapacity} {event : SessionStartEvent}
    (h : Gains c c' event) (hevent : event.isReady = false)
    (hc : ∀ e ∈ c.placed, e.isReady = false) : ∀ e ∈ c'.placed, e.isReady = false := by
  rcases h.2 with hplaced | hplaced
  · rw [hplaced]
    exact hc
  · rw [hplaced]
    intro e he
    rcases List.mem_append.mp he with he | he
    · exact hc e he
    · rw [List.mem_singleton.mp he]
      exact hevent

theorem ResponseEvent.mapped_unready {event : ResponseEvent} {mapped : SessionStartEvent}
    (h : event.mapped = some mapped) : mapped.isReady = false := by
  cases event with
  | build id status phase durationMs exitCode timedOut =>
    simp only [ResponseEvent.mapped] at h
    split at h <;> cases h <;> rfl
  | exit => cases h
  | _ =>
    cases h
    rfl

variable {pc : InitializerPc}

theorem InitializerPc.retained_of_plain (h : pc.plain = true) (n : Nat) :
    pc.retained n = 0 ∧ pc ≠ .finished true := by
  cases pc with
  | finished ready =>
    cases ready with
    | true => cases h
    | false => exact ⟨rfl, by rintro ⟨⟩⟩
  | retainOutput | sendReady => cases h
  | _ => exact ⟨rfl, by rintro ⟨⟩⟩

theorem InitializerPc.afterPhases_plain
    (outcome : Except BuildError SessionInitializationOutcome) :
    (InitializerPc.afterPhases outcome).plain = true := by
  cases outcome with
  | error err => rfl
  | ok o =>
    simp only [InitializerPc.afterPhases]
    split <;> rfl

/-! ### Steps -/

/-- A step of any thread but the worker. It may add an event of its own only
as long as the worker has not finished with ready. -/
theorem StartStream.Orderly.others (h : s.Orderly cfg) (hinit : s'.initializer = s.initializer)
    (hspawned : s'.spawned = s.spawned) (hsender : s'.startupSender = s.startupSender)
    (hbridge : ∀ event pc, s'.bridge = .sending event pc → event.isReady = false)
    (hended : s.bridge = .ended → s'.bridge = .ended)
    (hdrains : ∀ i stderr, (s'.drains i stderr).Calm (s.startupSender i))
    (hclosed : s'.channel.closed = false → s.channel.closed = false)
    (hplaced : s'.channel.placed = s.channel.placed ∨ s.initializer ≠ .finished true ∧
      ∀ event ∈ s'.channel.placed, event.isReady = false) : s'.Orderly cfg := by
  refine ⟨hbridge, by rw [hsender]; exact hdrains, by rw [hspawned, hsender]; exact h.unspawned,
    by rw [hinit, hspawned, hsender]; exact h.retained, ?_⟩
  by_cases hpc : s.initializer = .finished true
  · have hsame := hplaced.resolve_right fun hother => hother.1 hpc
    obtain ⟨hbefore, hready⟩ := (announces_of_finished hpc).mp h.announces
    rw [announces_of_finished (hinit.trans hpc), hsame]
    exact ⟨hended hbefore, fun hopen => hready (hclosed hopen)⟩
  · rw [announces_of_unfinished (by rw [hinit]; exact hpc)]
    rcases hplaced with hsame | ⟨-, hunready⟩
    · rw [hsame]
      exact (announces_of_unfinished hpc).mp h.announces
    · exact hunready

/-- A step of the worker before the ready event: it may add one event. -/
theorem StartStream.Orderly.advance (h : s.Orderly cfg) {e : SessionStartEvent}
    (hpc : s.initializer ≠ .finished true) (hpc' : s'.initializer.plain = true)
    (hspawned : s'.spawned = s.spawned) (hsender : s'.startupSender = s.startupSender)
    (hdrains : s'.drains = s.drains) (hbridge : s'.bridge = s.bridge ∨ s'.bridge = .poll)
    (hevent : e.isReady = false) (hgains : Gains s.channel s'.channel e) :
    s'.Orderly cfg := by
  obtain ⟨hretained, hpc'⟩ := InitializerPc.retained_of_plain hpc' s'.spawned
  refine ⟨?_, by rw [hdrains, hsender]; exact h.drains,
    by rw [hspawned, hsender]; exact h.unspawned, ?_, ?_⟩
  · rcases hbridge with hbridge | hbridge
    · rw [hbridge]
      exact h.bridge
    · rw [hbridge]
      rintro event pc ⟨⟩
  · intro i hi
    omega
  · rw [announces_of_unfinished hpc']
    exact hgains.unready hevent ((announces_of_unfinished hpc).mp h.announces)

variable {i : Nat} {stderr : Bool}

theorem StartStream.calm_setDrain {pc : DrainPc}
    (h : ∀ i stderr, (s.drains i stderr).Calm (s.startupSender i))
    (hpc : pc.Calm (s.startupSender i)) (j : Nat) (b : Bool) :
    ((s.setDrain i stderr pc).drains j b).Calm (s.startupSender j) := by
  by_cases hji : j = i
  · subst hji
    by_cases hb : b = stderr
    · simpa [setDrain, hb] using hpc
    · simpa [setDrain, hb] using h j b
  · simpa [setDrain, hji] using h j b

section
variable (h : s.Orderly cfg)
include h

/-- A drain that may send has a startup sender, so the worker is not through
with its services yet. -/
theorem StartStream.Orderly.unfinished_of_sender (hsender : s.startupSender i = true) :
    s.initializer ≠ .finished true := by
  intro hpc
  have htaken : s.startupSender i = false := by
    by_cases hi : i < s.spawned
    · exact h.retained i (by rw [hpc]; exact hi)
    · exact h.unspawned i (by omega)
  rw [hsender] at htaken
  cases htaken

theorem drainStep_orderly {input : DrainInput}
    (hstep : drainStep s i stderr (s.drains i stderr) input = some s') : s'.Orderly cfg := by
  have hcalm := h.drains i stderr
  generalize hpc : s.drains i stderr = pc at hstep hcalm
  -- a drain that moves without touching the stream
  have hmove : ∀ pc' : DrainPc, pc'.Calm (s.startupSender i) →
      (s.setDrain i stderr pc').Orderly cfg := fun pc' hpc' =>
    h.others rfl rfl rfl h.bridge id (calm_setDrain h.drains hpc') id (.inl rfl)
  unfold drainStep at hstep
  split at hstep
  · cases hstep
    apply hmove
    split
    · trivial
    · split <;> rfl
  · cases hstep
    exact hmove _ trivial
  · rename_i event
    split at hstep
    · cases hstep
    · cases hstep
      apply hmove
      split
      · rename_i hsender
        exact ⟨hcalm, hsender⟩
      · trivial
  · rename_i event send
    obtain ⟨hevent, hsender⟩ := hcalm
    have hgains := sendSessionResponse_gains s.channel s.initializationCancellation s.now event send
    generalize sendSessionResponse s.channel s.initializationCancellation s.now event send = r
      at hstep hgains
    obtain ⟨c, cancelled, status⟩ := r
    cases hstep
    have hunfinished := h.unfinished_of_sender hsender
    refine h.others rfl rfl rfl h.bridge id ?_ (fun hopen => hgains.1 ▸ hopen) (.inr ⟨hunfinished, ?_⟩)
    · refine calm_setDrain
        (s := { s with channel := c, initializationCancellation := _ }) h.drains ?_
      cases status with
      | pending pc => exact ⟨hevent, hsender⟩
      | sent | failed => trivial
    · exact hgains.unready hevent ((announces_of_unfinished hunfinished).mp h.announces)
  · cases hstep

theorem bridgeStep_orderly (hstep : bridgeStep s s.bridge = some s') : s'.Orderly cfg := by
  have hbridge := h.bridge
  generalize hpc : s.bridge = pc at hstep hbridge
  -- a bridge that moves without touching the stream, from a point before its end
  have hmove : ∀ {m : StartStream}, s.bridge ≠ .ended → m.initializer = s.initializer →
      m.spawned = s.spawned → m.startupSender = s.startupSender → m.drains = s.drains →
      m.channel = s.channel → (∀ event pc, m.bridge = .sending event pc → event.isReady = false) →
      m.Orderly cfg := by
    intro m hne hinit hspawned hsender hdrains hchannel hm
    refine h.others hinit hspawned hsender hm (fun hended => absurd hended hne) ?_ ?_ (.inl ?_)
    · rw [hdrains]
      exact h.drains
    · rw [hchannel]
      exact id
    · rw [hchannel]
  cases pc with
  | absent | ended => cases hstep
  | poll =>
    simp only [bridgeStep] at hstep
    split at hstep
    · rename_i event phaseChannel hrecv
      cases hstep
      refine hmove (by rw [hpc]; rintro ⟨⟩) rfl rfl rfl rfl rfl ?_
      intro event' pc' hbridge'
      cases hmapped : event.mapped with
      | none =>
        simp only [hmapped] at hbridge'
        cases hbridge'
      | some mapped =>
        simp only [hmapped] at hbridge'
        cases hbridge'
        exact ResponseEvent.mapped_unready hmapped
    · split at hstep
      · cases hstep
        exact hmove (by rw [hpc]; rintro ⟨⟩) rfl rfl rfl rfl rfl (by rintro event pc ⟨⟩)
      · cases hstep
        exact hmove (by rw [hpc]; rintro ⟨⟩) rfl rfl rfl rfl rfl (by rintro event pc ⟨⟩)
  | empty =>
    simp only [bridgeStep] at hstep
    split at hstep
    · cases hstep
      exact hmove (by rw [hpc]; rintro ⟨⟩) rfl rfl rfl rfl rfl (by rintro event pc ⟨⟩)
    · cases hstep
      exact hmove (by rw [hpc]; rintro ⟨⟩) rfl rfl rfl rfl rfl (by rintro event pc ⟨⟩)
  | sending event send =>
    have hevent := hbridge event send rfl
    -- a bridge that is sending has not ended, so the worker has not finished
    have hunfinished : s.initializer ≠ .finished true := by
      intro hfinished
      have hended := ((announces_of_finished hfinished).mp h.announces).1
      rw [hpc] at hended
      cases hended
    have hgains := sendSessionResponse_gains s.channel s.initializationCancellation s.now event send
    have hunready := hgains.unready hevent
      ((announces_of_unfinished hunfinished).mp h.announces)
    simp only [bridgeStep] at hstep
    generalize sendSessionResponse s.channel s.initializationCancellation s.now event send = r
      at hstep hgains hunready
    obtain ⟨c, cancelled, status⟩ := r
    have hends : s.bridge ≠ .ended := by rw [hpc]; rintro ⟨⟩
    cases status with
    | pending send' =>
      cases hstep
      refine h.others rfl rfl rfl ?_ (fun hended => absurd hended hends) h.drains
        (fun hopen => hgains.1 ▸ hopen) (.inr ⟨hunfinished, hunready⟩)
      rintro event' pc' ⟨⟩
      exact hevent
    | sent =>
      cases hstep
      exact h.others rfl rfl rfl (by rintro event' pc' ⟨⟩) (fun hended => absurd hended hends) h.drains
        (fun hopen => hgains.1 ▸ hopen) (.inr ⟨hunfinished, hunready⟩)
    | failed message =>
      cases hstep
      exact h.others rfl rfl rfl (by rintro event' pc' ⟨⟩) (fun _ => rfl) h.drains
        (fun hopen => hgains.1 ▸ hopen) (.inr ⟨hunfinished, hunready⟩)

section
variable (hpc : s.initializer ≠ .finished true)
include hpc

theorem StartStream.Orderly.move (hpc' : s'.initializer.plain = true)
    (hspawned : s'.spawned = s.spawned) (hsender : s'.startupSender = s.startupSender)
    (hdrains : s'.drains = s.drains) (hbridge : s'.bridge = s.bridge ∨ s'.bridge = .poll)
    (hchannel : s'.channel = s.channel) : s'.Orderly cfg :=
  h.advance (e := .stdout "") hpc hpc' hspawned hsender hdrains hbridge rfl
    (by rw [hchannel]; exact ⟨rfl, .inl rfl⟩)

theorem StartStream.Orderly.say (hpc' : pc.plain = true) {event : SessionStartEvent}
    (hevent : event.isReady = false) :
    { s.sendBestEffort event with initializer := pc }.Orderly cfg := by
  obtain ⟨c, heq, hgains⟩ := s.sendBestEffort_eq event
  rw [heq]
  exact h.advance hpc hpc' rfl rfl rfl (.inl rfl) hevent hgains

/-- A new service: its drains have not read anything yet. -/
theorem StartStream.Orderly.addService (hpc' : pc.plain = true) :
    { s.addService with initializer := pc }.Orderly cfg := by
  obtain ⟨hretained, hunfinished⟩ := InitializerPc.retained_of_plain hpc' (s.spawned + 1)
  refine ⟨h.bridge, ?_, ?_, ?_, ?_⟩
  · intro i stderr
    by_cases hi : i = s.spawned
    · subst hi
      simp [StartStream.addService, DrainPc.Calm]
    · simpa [StartStream.addService, hi] using h.drains i stderr
  · intro i hi
    have hi : s.spawned + 1 ≤ i := hi
    have hne : i ≠ s.spawned := by omega
    simpa [StartStream.addService, hne] using h.unspawned i (by omega)
  · intro i hi
    have hi : i < pc.retained (s.spawned + 1) := hi
    omega
  · rw [announces_of_unfinished hunfinished]
    exact (announces_of_unfinished hpc).mp h.announces

end

variable {phases : List PhaseResult}

/-- The worker takes the startup sender of service `i` away; neither of its
drains is sending. -/
theorem StartStream.Orderly.retain (hpc : s.initializer = .retainOutput i phases)
    (hidle : ∀ stderr, (s.drains i stderr).locked = false) :
    { s with
      startupSender := Function.update s.startupSender i false
      initializer := .retainOutput (i + 1) phases }.Orderly cfg := by
  refine ⟨h.bridge, ?_, ?_, ?_, ?_⟩
  · intro j stderr
    by_cases hj : j = i
    · subst hj
      have hcalm := h.drains j stderr
      have hlocked := hidle stderr
      cases hdrain : s.drains j stderr with
      | sending event pc =>
        rw [hdrain] at hlocked
        cases hlocked
      | holding event =>
        rw [hdrain] at hcalm
        exact hcalm
      | _ => trivial
    · simpa [hj] using h.drains j stderr
  · intro j hj
    by_cases hji : j = i
    · simp [hji]
    · simpa [hji] using h.unspawned j hj
  · intro j hj
    have hj : j < i + 1 := hj
    by_cases hji : j = i
    · simp [hji]
    · have hretained : j < s.initializer.retained s.spawned := by
        rw [hpc]
        show j < i
        omega
      simpa [hji] using h.retained j hretained
  · rw [announces_of_unfinished (by rintro ⟨⟩)]
    exact (announces_of_unfinished (s := s) (by rw [hpc]; rintro ⟨⟩)).mp h.announces

end

/-- The worker is about to send the ready event, and the stream has no slot
for it or the bridge may still send. -/
def StartStream.premature (s : StartStream) : StartEvent → Bool
  | .initializer _ =>
    match s.initializer, s.bridge with
    | .sendReady _, .ended => decide (channelCapacity ≤ s.channel.queue.length)
    | .sendReady _, _ => true
    | _, _ => false
  | _ => false

variable {answer : StartAnswer}

section
variable (h : s.Orderly cfg)
include h

/-- The ready event: all senders are gone, and it is the last event. -/
theorem StartStream.Orderly.announce (hpc : s.initializer = .sendReady phases)
    (hok : s.premature (.initializer answer) = false) :
    { s.sendBestEffort (.ready cfg.sessionId "rev_0" phases) with
      initializer := .finished true }.Orderly cfg := by
  have hbefore := (announces_of_unfinished (by rw [hpc]; rintro ⟨⟩)).mp h.announces
  have hended : s.bridge = .ended ∧ s.channel.queue.length < channelCapacity := by
    cases hbridge : s.bridge with
    | ended => exact ⟨rfl, by simpa [premature, hpc, hbridge] using hok⟩
    | _ => simp [premature, hpc, hbridge] at hok
  have hretained : ∀ i, i < s.spawned → s.startupSender i = false := by
    intro i hi
    exact h.retained i (by rw [hpc]; exact hi)
  obtain ⟨c, heq, hclosed, hgained⟩ := s.sendBestEffort_eq (.ready cfg.sessionId "rev_0" phases)
  refine ⟨?_, ?_, ?_, ?_, ?_⟩
  · rw [heq]
    exact h.bridge
  · rw [heq]
    exact h.drains
  · rw [heq]
    exact h.unspawned
  · rw [heq]
    exact hretained
  · rw [announces_of_finished rfl]
    refine ⟨by rw [heq]; exact hended.1, ?_⟩
    intro hopen
    rw [heq] at hopen
    have hopen : s.channel.closed = false := hclosed ▸ hopen
    obtain ⟨c', hsent⟩ :=
      Channel.trySend_of_room hopen hended.2 (.ready cfg.sessionId "rev_0" phases)
    refine ⟨s.channel.placed, phases, ?_, hbefore⟩
    have hplaced := (Channel.trySend_ok hsent).1
    simpa [sendBestEffort, hsent] using hplaced

theorem StartStream.Orderly.elected (hpc : s.initializer ≠ .finished true)
    (hpc' : s'.initializer ≠ .finished true) (hchannel : s'.channel = s.channel)
    (hbridge : s'.bridge = s.bridge) (hdrains : s'.drains = s.drains)
    (hspawned : s'.spawned = s.spawned) (hsender : s'.startupSender = s.startupSender)
    (hretained : ∀ i, i < s'.initializer.retained s.spawned → s.startupSender i = false) :
    s'.Orderly cfg := by
  refine ⟨by rw [hbridge]; exact h.bridge, by rw [hdrains, hsender]; exact h.drains,
    by rw [hspawned, hsender]; exact h.unspawned, by rw [hspawned, hsender]; exact hretained, ?_⟩
  rw [announces_of_unfinished hpc', hchannel]
  exact (announces_of_unfinished hpc).mp h.announces

theorem retainOutput_orderly (hpc : s.initializer = .retainOutput i phases)
    (hstep : initializerStep cfg s (.retainOutput i phases) .go = some s') : s'.Orderly cfg := by
  simp only [initializerStep] at hstep
  split at hstep
  · split at hstep
    · cases hstep
    · cases hstep
    · rename_i hstdout hstderr
      cases hstep
      refine h.retain hpc ?_
      intro stderr
      cases stderr with
      | false =>
        cases hdrain : s.drains i false with
        | sending event pc => exact absurd hdrain (hstdout event pc)
        | _ => rfl
      | true =>
        cases hdrain : s.drains i true with
        | sending event pc => exact absurd hdrain (hstderr event pc)
        | _ => rfl
  · rename_i hlast
    cases hstep
    refine h.elected (by rw [hpc]; rintro ⟨⟩) (by rintro ⟨⟩) rfl rfl rfl rfl rfl ?_
    intro j hj
    have hj : j < s.spawned := hj
    refine h.retained j ?_
    rw [hpc]
    show j < i
    omega

theorem initializerStep_orderly (hok : s.premature (.initializer answer) = false)
    (hstep : initializerStep cfg s s.initializer answer = some s') : s'.Orderly cfg := by
  have hne : s.initializer ≠ .finished true := by
    intro hfinished
    rw [hfinished] at hstep
    cases answer <;> cases hstep
  generalize hpc : s.initializer = pc at hstep
  unfold initializerStep at hstep
  split at hstep
  case h_1 send =>
    have hgains := sendSessionResponse_gains s.channel s.initializationCancellation s.now
      (.session cfg.sessionId .started none none none none) send
    generalize sendSessionResponse s.channel s.initializationCancellation s.now
      (.session cfg.sessionId .started none none none none) send = r at hstep hgains
    obtain ⟨c, cancelled, status⟩ := r
    cases hstep
    refine h.advance hne ?_ rfl rfl rfl (.inl rfl) rfl hgains
    cases status <;> rfl
  case h_2 =>
    cases hstep
    exact h.move hne rfl rfl rfl rfl (.inr rfl) rfl
  case h_7 outcome deadline =>
    have hmove : { s with initializer := .afterPhases outcome }.Orderly cfg :=
      h.move hne (InitializerPc.afterPhases_plain outcome) rfl rfl rfl (.inl rfl) rfl
    split at hstep
    · cases hstep
      exact hmove
    · split at hstep
      · cases hstep
        exact hmove
      · cases hstep
        exact h
  case h_8 phases =>
    split at hstep
    · cases hstep
      exact h.move hne rfl rfl rfl rfl (.inl rfl) rfl
    · cases hstep
      exact h.say hne rfl rfl
  case h_12 name rest phases =>
    split at hstep
    · cases hstep
      exact h.move hne rfl rfl rfl rfl (.inl rfl) rfl
    · split at hstep
      · cases hstep
        exact h.addService hne rfl
      · cases hstep
        exact h.move hne rfl rfl rfl rfl (.inl rfl) rfl
      · cases hstep
  case h_15 phases =>
    split at hstep
    · cases hstep
      exact h.move hne rfl rfl rfl rfl (.inl rfl) rfl
    · cases hstep
      exact h.move hne rfl rfl rfl rfl (.inl rfl) rfl
  case h_18 phases =>
    split at hstep
    · cases hstep
      exact h.elected hne (by rintro ⟨⟩) rfl rfl rfl rfl rfl
        fun i hi => absurd hi (Nat.not_lt_zero i)
    · cases hstep
      exact h.move hne rfl rfl rfl rfl (.inl rfl) rfl
  case h_19 i phases => exact retainOutput_orderly h hpc hstep
  case h_20 phases =>
    cases hstep
    exact h.announce hpc hok
  case h_21 code message phase exit =>
    cases hstep
    exact h.say hne rfl rfl
  case h_22 exit =>
    cases hstep
    exact h.say hne rfl rfl
  case h_23 => cases hstep
  all_goals
    cases hstep
    exact h.move hne rfl rfl rfl rfl (.inl rfl) rfl

theorem startStep_orderly {e : StartEvent} (hok : s.premature e = false)
    (hstep : startStep cfg s e = some s') : s'.Orderly cfg := by
  have hquiet : ∀ {m : StartStream}, m.initializer = s.initializer → m.spawned = s.spawned →
      m.startupSender = s.startupSender → m.drains = s.drains → m.bridge = s.bridge →
      (m.channel.closed = false → s.channel.closed = false) →
      m.channel.placed = s.channel.placed → m.Orderly cfg := by
    intro m hinit hspawned hsender hdrains hbridge hclosed hplaced
    refine h.others hinit hspawned hsender ?_ (fun hended => hbridge.trans hended) ?_ hclosed
      (.inl hplaced)
    · rw [hbridge]
      exact h.bridge
    · rw [hdrains]
      exact h.drains
  cases e with
  | initializer answer => exact initializerStep_orderly h hok hstep
  | bridge => exact bridgeStep_orderly h hstep
  | drain i stderr input => exact drainStep_orderly h hstep
  | tick elapsed =>
    cases hstep
    exact hquiet rfl rfl rfl rfl rfl id rfl
  | phaseOutput event =>
    simp only [startStep] at hstep
    split at hstep <;> cases hstep
    · exact hquiet rfl rfl rfl rfl rfl id rfl
    · exact hquiet rfl rfl rfl rfl rfl id rfl
  | outputThreadEnds =>
    simp only [startStep] at hstep
    split at hstep <;> cases hstep
    exact hquiet rfl rfl rfl rfl rfl id rfl
  | receive =>
    simp only [startStep] at hstep
    split at hstep <;> cases hstep
    rename_i hrecv
    obtain ⟨hplaced, hclosed⟩ := Channel.tryRecv_some hrecv
    exact hquiet rfl rfl rfl rfl rfl (fun hopen => hclosed ▸ hopen) hplaced
  | drop =>
    cases hstep
    exact hquiet rfl rfl rfl rfl rfl (by rintro ⟨⟩) rfl
  | terminate =>
    simp only [startStep] at hstep
    split at hstep <;> cases hstep
    exact hquiet rfl rfl rfl rfl rfl id rfl

end

theorem orderly_of_exec {es : List StartEvent} (hrun : exec (startStep cfg) {} es = some s)
    (hok : Meets (startStep cfg) (fun s e => s.premature e = false) {} es) : s.Orderly cfg := by
  have hinit : Orderly cfg {} := by
    refine ⟨by rintro event pc ⟨⟩, fun _ _ => trivial, fun _ _ => rfl, fun _ _ => rfl, ?_⟩
    rintro event ⟨⟩
  exact exec_invariant (fun _ _ _ h hok hstep => startStep_orderly h hok hstep) hinit hok hrun

/-- The worker has made the session ready. -/
def InitializerPc.elected : InitializerPc → Bool
  | .retainOutput _ _ | .sendReady _ | .finished true => true
  | _ => false

/-- On its way to the ready event the worker waits for nothing but the lock
of a drain, and a drain that has the lock can go on. -/
theorem InitializerPc.elected_progress (hpc : s.initializer.elected = true)
    (hne : s.initializer ≠ .finished true) :
    (startStep cfg s (.initializer .go)).isSome = true ∨
    ∃ i stderr, (s.drains i stderr).locked = true ∧
      (startStep cfg s (.drain i stderr .step)).isSome = true := by
  have hdrain : ∀ i stderr event pc, s.drains i stderr = .sending event pc →
      (s.drains i stderr).locked = true ∧
        (startStep cfg s (.drain i stderr .step)).isSome = true := by
    intro i stderr event pc hdrain
    simp [startStep, drainStep, hdrain, DrainPc.locked]
  cases hinit : s.initializer with
  | retainOutput i phases =>
    by_cases hlast : i < s.spawned
    · cases hstdout : s.drains i false with
      | sending event pc => exact .inr ⟨i, false, hdrain i false event pc hstdout⟩
      | _ =>
        cases hstderr : s.drains i true with
        | sending event pc => exact .inr ⟨i, true, hdrain i true event pc hstderr⟩
        | _ => simp [startStep, initializerStep, hinit, hlast, hstdout, hstderr]
    · simp [startStep, initializerStep, hinit, hlast]
  | sendReady phases => simp [startStep, initializerStep, hinit]
  | finished ready =>
    cases ready with
    | true => exact absurd hinit hne
    | false =>
      rw [hinit] at hpc
      cases hpc
  | _ =>
    rw [hinit] at hpc
    cases hpc

end

/-- The stream of a start that made the session ready and was not dropped,
in every run in which the ready event finds a free slot and the bridge at its
end: it ends with the ready event, which is the only one, and a client that
reads on gets exactly that. Until the event is sent the stream is free of it
and the worker can get there. -/
theorem start_stream_ends_with_ready {cfg : StartConfig} {es : List StartEvent} {s : StartStream}
    (hrun : exec (startStep cfg) {} es = some s)
    (hok : Meets (startStep cfg) (fun s e => s.premature e = false) {} es)
    (hready : s.initializer.elected = true) (hopen : s.channel.closed = false) :
    (s.initializer = .finished true ∧ ∃ before phases,
      s.channel.placed = before ++ [.ready cfg.sessionId "rev_0" phases] ∧
      (∀ event ∈ before, event.isReady = false) ∧
      (s.channel.queue = [] →
        s.channel.taken = before ++ [.ready cfg.sessionId "rev_0" phases])) ∨
    (s.initializer ≠ .finished true ∧ (∀ event ∈ s.channel.placed, event.isReady = false) ∧
      ((startStep cfg s (.initializer .go)).isSome = true ∨
      ∃ i stderr, (s.drains i stderr).locked = true ∧
        (startStep cfg s (.drain i stderr .step)).isSome = true)) := by
  have horderly := orderly_of_exec hrun hok
  by_cases hpc : s.initializer = .finished true
  · obtain ⟨-, hlast⟩ := (StartStream.announces_of_finished hpc).mp horderly.announces
    obtain ⟨before, phases, hplaced, hbefore⟩ := hlast hopen
    refine .inl ⟨hpc, before, phases, hplaced, hbefore, ?_⟩
    intro hempty
    rw [← hplaced]
    rw [Channel.ordered _ hopen, hempty, List.append_nil]
  · refine .inr ⟨hpc, ?_, InitializerPc.elected_progress hready hpc⟩
    exact (StartStream.announces_of_unfinished hpc).mp horderly.announces

/-! ### Sample runs -/

def startConfig : StartConfig := ⟨"ses_0", 100000, []⟩

/-- Up to the task phases. -/
def startedRun : List StartEvent := [.initializer .go, .initializer .go, .initializer .go]

/-- The task writes a line and the bridge carries it over. -/
def outputRun : List StartEvent := [.phaseOutput (.stdout "line"), .bridge, .bridge, .bridge]

/-- The task phases end well, and the worker starts to wait for the bridge. -/
def phasesRun : List StartEvent :=
  [.initializer (.phasesDone (.ok ⟨[], 0, false, none⟩) 0), .initializer .go, .initializer .go]

/-- From the end of that wait to the end of the worker. -/
def commitRun : List StartEvent := List.replicate 7 (.initializer .go)

theorem start_stream_ends_with_ready_line : ∃ s before,
    exec (startStep startConfig) {}
      (startedRun ++ outputRun ++ phasesRun ++ [.bridge] ++ commitRun) = some s ∧
    s.channel.placed = before ++ [.ready "ses_0" "rev_0" []] ∧
    ∀ event ∈ before, event.isReady = false := by
  have hrun : exec (startStep startConfig) {}
    (startedRun ++ outputRun ++ phasesRun ++ [.bridge] ++ commitRun) = some _ := rfl
  rcases start_stream_ends_with_ready hrun (by decide) rfl rfl with
    ⟨-, before, phases, hplaced, hbefore, -⟩ | ⟨hpc, -⟩
  · refine ⟨_, [_, _], hrun, rfl, ?_⟩
    have heq : before = [_, _] := (List.append_inj_left' hplaced rfl).symm
    exact heq ▸ hbefore
  · exact absurd rfl hpc

set_option maxRecDepth 20000 in
/-- Two starts that make the session ready while the client holds on to the
stream. In the first the client does not read, the stream is full, and the
ready event is dropped. In the second the worker goes on without the bridge,
which then puts a line after the ready event. -/
theorem ready_event_lost_or_not_last :
    (∃ s, exec (startStep startConfig) {} (startedRun ++ (List.replicate 127 outputRun).flatten ++
        phasesRun ++ [.bridge] ++ commitRun) = some s ∧
      s.initializer = .finished true ∧ s.channel.closed = false ∧
      s.channel.placed.any SessionStartEvent.isReady = false) ∧
    (∃ s before, exec (startStep startConfig) {} (startedRun ++ [.phaseOutput (.stdout "line")] ++
        phasesRun ++ [.tick 3000] ++ commitRun ++ [.bridge, .bridge, .bridge]) = some s ∧
      s.initializer = .finished true ∧ s.channel.closed = false ∧
      s.channel.placed = before ++ [.ready "ses_0" "rev_0" [], .stdout "line"]) :=
  ⟨⟨_, rfl, rfl, rfl, rfl⟩, ⟨_, [_], rfl, rfl, rfl, rfl⟩⟩

end IndenturedServer.Sessions
