import IndenturedServer.Phases.Output

/-!
When a completed phase has complete output.

The account of a stream has three parts: what its events in the channel carry,
what its reader has in hand, and what is still in the pipe. Together they are
what the process wrote, as long as the reader abandons nothing. A reader that
has come to the end of its pipe has nothing in hand, and the pipe stays empty
because its writers are gone. So a waiting thread that has seen both readers at
their end, and finds the output within its limit, announces a phase whose
output is all in the channel.
-/

namespace IndenturedServer.Phases

open Foundation Sessions Function
open Source (Text)

/-! ### Accounts -/

/-- The events of the stream in the log carry these bytes, chunk by chunk. -/
def Placed (lossy : Text → String) (kind : StreamKind) (log : List ResponseEvent) (bytes : Text) :
    Prop :=
  ∃ chunks : List Text, chunks.flatten = bytes ∧
    log.filter kind.owns = chunks.map fun chunk => kind.event (lossy chunk)

section
variable {lossy : Text → String} {kind : StreamKind} {log : List ResponseEvent} {bytes : Text}

theorem StreamKind.owns_event (kind other : StreamKind) (data : String) :
    other.owns (kind.event data) = decide (other = kind) := by
  cases kind <;> cases other <;> rfl

theorem placed_nil : Placed lossy kind [] [] := ⟨[], rfl, rfl⟩

theorem Placed.own (h : Placed lossy kind log bytes) (chunk : Text) :
    Placed lossy kind (log ++ [kind.event (lossy chunk)]) (bytes ++ chunk) := by
  obtain ⟨chunks, rfl, hlog⟩ := h
  refine ⟨chunks ++ [chunk], by simp, ?_⟩
  rw [List.filter_append, hlog, List.map_append]
  simp [StreamKind.owns_event]

theorem placed_concat_iff {event : ResponseEvent} (hother : kind.owns event = false) :
    Placed lossy kind (log ++ [event]) bytes ↔ Placed lossy kind log bytes := by
  simp [Placed, hother]

end

namespace WaiterPc

def unspawned : WaiterPc → Bool
  | .start | .sendStarted _ _ | .spawn => true
  | _ => false

/-- The phase is announced, or is going to be. -/
def announces : WaiterPc → Bool
  | .sendFinished _ _ _ | .returned (.ok _) => true
  | _ => false

def joined (kind : StreamKind) : WaiterPc → Bool
  | .join other _ _ => kind = .stdout ∧ other = .stderr
  | .finishStdin _ | .checkExceeded _ => true
  | pc => pc.announces

end WaiterPc

namespace PhaseRun

variable {cfg : PhaseConfig} {lossy : Text → String} {start : List ResponseEvent}
  {s s' : PhaseRun}

/-- The three parts of what the process wrote on the stream. -/
def Accounted (lossy : Text → String) (s : PhaseRun) (log : List ResponseEvent)
    (kind : StreamKind) : Prop :=
  ∃ bytes, Placed lossy kind log bytes ∧
    bytes ++ (s.readers kind).inHand ++ s.unread kind = s.written kind

/-- Nothing of the output is missing. -/
structure Sound (cfg : PhaseConfig) (lossy : Text → String) (start : List ResponseEvent)
    (s : PhaseRun) : Prop where
  account : ∃ log, s.channel.placed = start ++ log ∧ (∀ kind, s.Accounted lossy log kind) ∧
    ∀ result, s.waiter = .returned (.ok result) → ∃ before, log = before ++ [finishedEvent cfg result]
  unspawned : s.waiter.unspawned = true → ∀ kind, s.readers kind = .absent
  steady : ∀ kind, s.readers kind ≠ .cancelling
  ended : ∀ kind, s.readers kind = .ended → s.unread kind = [] ∧ s.groupAlive = false
  joined : ∀ kind, s.waiter.joined kind = true → s.readers kind = .ended
  within : s.outputExceeded = false

/-- Either nothing is missing, or the limit was exceeded and the phase will not
be announced. -/
def Inv (cfg : PhaseConfig) (lossy : Text → String) (start : List ResponseEvent) (s : PhaseRun) :
    Prop :=
  s.Sound cfg lossy start ∨ (s.outputExceeded = true ∧ s.waiter.announces = false)

theorem sound_initial (channel : Channel ResponseEvent channelCapacity) (outputBytes : Nat) :
    Sound cfg lossy channel.placed { channel := channel, outputBytes := outputBytes } where
  account := ⟨[], (List.append_nil _).symm, fun _ => ⟨[], placed_nil, rfl⟩, nofun⟩
  unspawned _ _ := rfl
  steady _ := nofun
  ended _ := nofun
  joined _ := nofun
  within := rfl

/-! ### The environment -/

section
variable (h : s.Sound cfg lossy start)
include h

theorem Sound.congr (hplaced : s'.channel.placed = s.channel.placed)
    (hexceeded : s'.outputExceeded = s.outputExceeded) (hwritten : s'.written = s.written)
    (hunread : s'.unread = s.unread) (hreaders : s'.readers = s.readers)
    (hwaiter : s'.waiter = s.waiter) (halive : s.groupAlive = false → s'.groupAlive = false) :
    s'.Sound cfg lossy start := by
  obtain ⟨log, hlog, haccount, hlast⟩ := h.account
  refine ⟨⟨log, hplaced.trans hlog, fun kind => ?_, hwaiter ▸ hlast⟩, ?_, ?_, ?_, ?_, ?_⟩
  · unfold Accounted
    rw [hreaders, hunread, hwritten]
    exact haccount kind
  · rw [hwaiter, hreaders]
    exact h.unspawned
  · rw [hreaders]
    exact h.steady
  · rw [hreaders, hunread]
    exact fun kind hpc => ⟨(h.ended kind hpc).1, halive (h.ended kind hpc).2⟩
  · rw [hwaiter, hreaders]
    exact h.joined
  · rw [hexceeded]
    exact h.within

/-- A process writes only while its readers are at work. -/
theorem Sound.write (halive : s.groupAlive = true) (kind : StreamKind) (bytes : Text) :
    Sound cfg lossy start { s with
      written := update s.written kind (s.written kind ++ bytes)
      unread := update s.unread kind (s.unread kind ++ bytes) } := by
  have hended (other : StreamKind) : s.readers other ≠ .ended := by
    intro hpc
    rw [(h.ended other hpc).2] at halive
    cases halive
  obtain ⟨log, hlog, haccount, hlast⟩ := h.account
  refine ⟨⟨log, hlog, fun other => ?_, hlast⟩, h.unspawned, h.steady, ?_, h.joined, h.within⟩
  · obtain ⟨placed, hplaced, hsum⟩ := haccount other
    refine ⟨placed, hplaced, ?_⟩
    by_cases hkind : other = kind
    · subst hkind
      simp only [update_self, ← hsum, List.append_assoc]
    · simp only [update_of_ne hkind]
      exact hsum
  · exact fun other hpc => absurd hpc (hended other)

/-! ### The readers -/

theorem Sound.not_announced {kind : StreamKind} (hrunning : s.readers kind ≠ .ended) :
    s.waiter.announces = false := by
  by_contra hannounces
  refine hrunning (h.joined kind ?_)
  cases hpc : s.waiter <;> simp_all [WaiterPc.joined, WaiterPc.announces]

/-- A step of a reader that is at work: it adds `more` to the log, and its own
account still adds up. -/
theorem Sound.move {kind : StreamKind} {pc : ReaderPc} (hspawned : s.readers kind ≠ .absent)
    (hrunning : s.readers kind ≠ .ended) (hreaders : s'.readers = update s.readers kind pc)
    (hsteady : pc ≠ .cancelling)
    (hended : pc = .ended → s'.unread kind = [] ∧ s'.groupAlive = false)
    (hunread : ∀ other ≠ kind, s'.unread other = s.unread other) (hwritten : s'.written = s.written)
    (hwaiter : s'.waiter = s.waiter) (halive : s'.groupAlive = s.groupAlive)
    (hexceeded : s'.outputExceeded = s.outputExceeded) (more : List ResponseEvent)
    (hplaced : s'.channel.placed = s.channel.placed ++ more)
    (hforeign : ∀ other ≠ kind, ∀ event ∈ more, other.owns event = false)
    (hown : ∀ log, s.Accounted lossy log kind → s'.Accounted lossy (log ++ more) kind) :
    s'.Sound cfg lossy start := by
  obtain ⟨log, hlog, haccount, -⟩ := h.account
  refine ⟨⟨log ++ more, ?_, fun other => ?_, fun result hpc => ?_⟩, fun hunspawned => ?_, ?_, ?_, ?_, ?_⟩
  · rw [hplaced, hlog, List.append_assoc]
  · by_cases hkind : other = kind
    · exact hkind ▸ hown log (hkind ▸ haccount other)
    · obtain ⟨bytes, ⟨chunks, hchunks, hfilter⟩, hsum⟩ := haccount other
      have hmore : more.filter other.owns = [] :=
        List.filter_eq_nil_iff.mpr fun event he => by simp [hforeign other hkind event he]
      refine ⟨bytes, ⟨chunks, hchunks, ?_⟩, ?_⟩
      · rw [List.filter_append, hmore, List.append_nil, hfilter]
      · rw [hreaders, update_of_ne hkind, hunread other hkind, hwritten, hsum]
  · -- the waiting thread has not got past this reader
    have hannounces := h.not_announced hrunning
    rw [← hwaiter, hpc] at hannounces
    cases hannounces
  · rw [hwaiter] at hunspawned
    exact absurd (h.unspawned hunspawned kind) hspawned
  · rw [hreaders]
    exact (forall_update_iff s.readers fun _ pc => pc ≠ .cancelling).mpr
      ⟨hsteady, fun other _ => h.steady other⟩
  · rw [hreaders]
    refine (forall_update_iff s.readers fun other pc =>
      pc = .ended → s'.unread other = [] ∧ s'.groupAlive = false).mpr ⟨hended, ?_⟩
    intro other hkind hpc
    rw [hunread other hkind, halive]
    exact h.ended other hpc
  · intro other hjoined
    rw [hwaiter] at hjoined
    have hkind : other ≠ kind := by
      rintro rfl
      exact hrunning (h.joined other hjoined)
    rw [hreaders, update_of_ne hkind]
    exact h.joined other hjoined
  · rw [hexceeded]
    exact h.within

theorem Sound.setReader {kind : StreamKind} {pc : ReaderPc} (hspawned : s.readers kind ≠ .absent)
    (hrunning : s.readers kind ≠ .ended) (hsteady : pc ≠ .cancelling)
    (hended : pc = .ended → s.unread kind = [] ∧ s.groupAlive = false)
    (hhand : pc.inHand = (s.readers kind).inHand) :
    (s.setReader kind pc).Sound cfg lossy start := by
  refine h.move hspawned hrunning rfl hsteady hended (fun _ _ => rfl) rfl rfl rfl rfl []
    (List.append_nil _).symm (fun _ _ _ hevent => absurd hevent List.not_mem_nil)
    fun log haccount => ?_
  obtain ⟨bytes, hplaced, hsum⟩ := haccount
  refine ⟨bytes, by rwa [List.append_nil], ?_⟩
  simpa only [PhaseRun.setReader, update_self, hhand] using hsum

variable {answer : ReadAnswer}

theorem forwardStep_sound {kind : StreamKind} {chunk : Text} {pc : ForwardPc}
    (hpc : s.readers kind = .forwarding chunk pc) (hpatient : s.Patient (.reader kind answer)) :
    (s.forwardStep lossy kind chunk pc).Sound cfg lossy start := by
  have hkeeps : s.abandons (.reader kind answer) = false := by
    by_contra habandons
    have hexceeded := hpatient (by simpa using habandons)
    rw [h.within] at hexceeded
    cases hexceeded
  have hnext {next : ForwardPc} : (s.setReader kind (.forwarding chunk next)).Sound cfg lossy start :=
    h.setReader (by simp [hpc]) (by simp [hpc]) nofun nofun (by rw [hpc]; rfl)
  cases pc with
  | checkCancelled deadline =>
    have hcancelled : s.cancelled = false := by simpa [abandons, hpc] using hkeeps
    simp only [forwardStep, hcancelled]
    exact hnext
  | attempt deadline =>
    have hopen : s.channel.closed = false := by simpa [abandons, hpc] using hkeeps
    simp only [forwardStep]
    split
    · -- the chunk goes from the hands of the reader into the log
      rename_i channel hsend
      refine h.move (by simp [hpc]) (by simp [hpc]) rfl nofun nofun (fun _ _ => rfl) rfl rfl rfl rfl
        [kind.event (lossy chunk)] (Channel.trySend_ok hsend).1 ?_ fun log haccount => ?_
      · intro other hkind event hevent
        rw [List.mem_singleton.mp hevent, StreamKind.owns_event]
        exact decide_eq_false hkind
      · obtain ⟨bytes, hplaced, hsum⟩ := haccount
        refine ⟨bytes ++ chunk, hplaced.own chunk, ?_⟩
        simpa [PhaseRun.setReader, hpc, ReaderPc.inHand] using hsum
    · rename_i hsend
      exact absurd (Channel.closed_of_trySend hsend) (by simp [hopen])
    · exact hnext
  | full deadline =>
    have hnow : ¬ deadline ≤ s.now := by simpa [abandons, hpc] using hkeeps
    simp only [forwardStep, if_neg hnow]
    exact hnext

theorem readStep_sound {kind : StreamKind} (hpc : s.readers kind = .reading)
    (hpatient : s.Patient (.reader kind answer)) (hstep : s.readStep kind answer = some s') :
    s'.Sound cfg lossy start := by
  cases answer with
  | bytes n =>
    obtain ⟨-, heq⟩ := Option.ite_none_right_eq_some.mp hstep
    rw [← Option.some.inj heq]
    refine h.move (by simp [hpc]) (by simp [hpc]) rfl nofun nofun ?_ rfl rfl rfl rfl []
      (List.append_nil _).symm (fun _ _ _ hevent => absurd hevent List.not_mem_nil)
      fun log haccount => ?_
    · exact fun other hkind => update_of_ne hkind _ _
    · obtain ⟨bytes, hplaced, hsum⟩ := haccount
      refine ⟨bytes, by rwa [List.append_nil], ?_⟩
      simpa [PhaseRun.setReader, hpc, ReaderPc.inHand] using hsum
  | eof =>
    obtain ⟨hend, heq⟩ := Option.ite_none_right_eq_some.mp hstep
    rw [← Option.some.inj heq]
    exact h.setReader (by simp [hpc]) (by simp [hpc]) nofun (fun _ => hend) (by rw [hpc]; rfl)
  | failed =>
    have hexceeded := hpatient (by simp [abandons, hpc])
    rw [h.within] at hexceeded
    cases hexceeded

theorem readerStep_inv {kind : StreamKind} (hpatient : s.Patient (.reader kind answer))
    (hstep : s.readerStep cfg lossy kind answer = some s') : s'.Inv cfg lossy start := by
  cases hpc : s.readers kind with
  | absent => simp [readerStep, hpc] at hstep
  | ended => simp [readerStep, hpc] at hstep
  | cancelling => exact absurd hpc (h.steady kind)
  | reading =>
    simp only [readerStep, hpc] at hstep
    exact .inl (readStep_sound h hpc hpatient hstep)
  | forwarding chunk pc =>
    simp only [readerStep, hpc] at hstep
    rw [← Option.some.inj hstep]
    exact .inl (forwardStep_sound h hpc hpatient)
  | exceeding chunk =>
    simp only [readerStep, hpc] at hstep
    rw [← Option.some.inj hstep]
    have hrunning : s.readers kind ≠ .ended := by simp [hpc]
    exact .inr ⟨rfl, h.not_announced hrunning⟩
  | counting chunk =>
    simp only [readerStep, hpc] at hstep
    rw [← Option.some.inj hstep]
    left
    have hnext (next : ReaderPc) (hsteady : next ≠ .cancelling) (hended : next ≠ .ended)
        (hhand : next.inHand = chunk) : (s.setReader kind next).Sound cfg lossy start :=
      h.setReader (by simp [hpc]) (by simp [hpc]) hsteady (fun he => absurd he hended)
        (by rw [hhand, hpc]; rfl)
    split
    · exact (hnext (.exceeding chunk) nofun nofun rfl).congr rfl rfl rfl rfl rfl rfl id
    · exact (hnext (.forwarding chunk (.checkCancelled (s.now + outputForwardGrace))) nofun nofun
        rfl).congr rfl rfl rfl rfl rfl rfl id

end

/-! ### The waiting thread -/

/-- A point to which the waiting thread can go without sending anything. -/
structure Passes (s : PhaseRun) (pc : WaiterPc) : Prop where
  unspawned : pc.unspawned = true → s.waiter.unspawned = true
  joined : ∀ kind, pc.joined kind = true →
    s.waiter.joined kind = true ∨ ∃ outcome deadline, s.waiter = .join kind outcome deadline
  announces : pc.announces = true → s.waiter.announces = true ∨ s.outputExceeded = false
  unfinished : ∀ result, pc ≠ .returned (.ok result)

/-- What a step of the waiting thread can do. -/
inductive WaiterMove (cfg : PhaseConfig) (s : PhaseRun) : PhaseRun → Prop
  | pass {pc : WaiterPc} (h : s.Passes pc) : WaiterMove cfg s (s.setWaiter pc)
  | started {channel} (hpc : s.waiter.unspawned = true)
      (hsend : s.channel.trySend (startedEvent cfg) = .ok channel) :
      WaiterMove cfg s { s.setWaiter .spawn with channel := channel }
  | spawned (hpc : s.waiter = .spawn) : WaiterMove cfg s s.spawned
  | finished {result channel} (hpc : s.waiter.announces = true)
      (hsend : s.channel.trySend (finishedEvent cfg result) = .ok channel) :
      WaiterMove cfg s { s.setWaiter (.returned (.ok result)) with channel := channel }

variable {pc : WaiterPc}

theorem joined_of_announces (h : pc.announces = true) (kind : StreamKind) :
    pc.joined kind = true := by
  cases pc <;> simp_all [WaiterPc.joined, WaiterPc.announces]

theorem passes_early (hunspawned : pc.unspawned = true → s.waiter.unspawned = true)
    (hjoined : ∀ kind, pc.joined kind = false) : s.Passes pc := by
  have hannounces : pc.announces ≠ true := by
    intro hpc
    have hnot := joined_of_announces hpc .stdout
    rw [hjoined] at hnot
    cases hnot
  refine ⟨hunspawned, fun kind hpc => ?_, fun hpc => absurd hpc hannounces, fun result hpc => ?_⟩
  · rw [hjoined kind] at hpc
    cases hpc
  · rw [hpc] at hannounces
    exact hannounces rfl

theorem passes_late (hspawned : pc.unspawned = false)
    (hjoined : ∀ kind, s.waiter.joined kind = true)
    (hannounces : pc.announces = true → s.waiter.announces = true ∨ s.outputExceeded = false)
    (hunfinished : ∀ result, pc ≠ .returned (.ok result)) : s.Passes pc := by
  refine ⟨fun hpc => ?_, fun kind _ => .inl (hjoined kind), hannounces, hunfinished⟩
  rw [hspawned] at hpc
  cases hpc

theorem fail_move (code message : String) : WaiterMove cfg s (s.fail cfg code message) :=
  .pass (passes_early nofun fun _ => rfl)

variable {deadline : Nat}

theorem startStep_move (hpc : s.waiter.unspawned = true) :
    WaiterMove cfg s (s.startStep cfg deadline) := by
  unfold startStep
  split
  · exact .started hpc ‹_›
  · exact fail_move _ _
  · exact .pass (passes_early (fun _ => hpc) fun _ => rfl)

theorem finishStep_move {result : PhaseResult} (hpc : s.waiter.announces = true) :
    WaiterMove cfg s (s.finishStep cfg result deadline) := by
  unfold finishStep
  split
  · exact .finished hpc ‹_›
  · exact fail_move _ _
  · exact .pass (passes_late rfl (joined_of_announces hpc) (fun _ => .inl hpc) nofun)

theorem afterJoin_move {kind : StreamKind} {outcome : WaitOutcome}
    (hpc : s.waiter = .join kind outcome deadline) :
    WaiterMove cfg s (s.setWaiter (s.afterJoin outcome kind)) := by
  refine .pass ⟨?_, fun other hjoined => ?_, ?_, ?_⟩
  · cases kind <;> exact nofun
  · rw [hpc]
    cases kind with
    | stdout =>
      have hother : other = .stdout := by simpa [afterJoin, WaiterPc.joined] using hjoined
      exact .inr ⟨outcome, deadline, by rw [hother]⟩
    | stderr =>
      cases other with
      | stdout => exact .inl rfl
      | stderr => exact .inr ⟨outcome, deadline, rfl⟩
  · cases kind <;> exact nofun
  · cases kind <;> exact nofun

theorem concludes_move {outcome : WaitOutcome} (hpc : s.waiter = .checkExceeded outcome)
    (hwithin : s.outputExceeded = false) : WaiterMove cfg s (s.concludes cfg outcome) := by
  cases outcome with
  | exited code timedOut duration =>
    exact .pass (passes_late rfl (fun _ => by rw [hpc]; rfl) (fun _ => .inr hwithin) nofun)
  | cancelled => exact fail_move _ _

theorem waiterStep_move {failure : Option String} (hstep : s.waiterStep cfg failure = some s') :
    WaiterMove cfg s s' := by
  have hearly {pc : WaiterPc} (hspawned : pc.unspawned = false)
      (hjoined : ∀ kind, pc.joined kind = false) : WaiterMove cfg s (s.setWaiter pc) :=
    .pass (passes_early (by simp [hspawned]) hjoined)
  cases hpc : s.waiter with
  | start =>
    simp only [waiterStep, hpc] at hstep
    rw [← Option.some.inj hstep]
    split
    · exact fail_move _ _
    · exact .pass (passes_early (fun _ => by rw [hpc]; rfl) fun _ => rfl)
  | sendStarted full deadline =>
    have hunspawned : s.waiter.unspawned = true := by rw [hpc]; rfl
    cases full with
    | false =>
      simp only [waiterStep, hpc] at hstep
      exact Option.some.inj hstep ▸ startStep_move hunspawned
    | true =>
      simp only [waiterStep, hpc] at hstep
      rw [← Option.some.inj hstep]
      split
      · exact fail_move _ _
      · exact .pass (passes_early (fun _ => hunspawned) fun _ => rfl)
  | spawn =>
    cases failure with
    | none =>
      simp only [waiterStep, hpc] at hstep
      exact Option.some.inj hstep ▸ .spawned hpc
    | some text =>
      simp only [waiterStep, hpc] at hstep
      exact Option.some.inj hstep ▸ fail_move _ _
  | tryWait =>
    cases failure with
    | none =>
      simp only [waiterStep, hpc] at hstep
      split at hstep
      · exact Option.some.inj hstep ▸ hearly rfl fun _ => rfl
      · exact Option.some.inj hstep ▸ hearly rfl fun _ => rfl
    | some text =>
      simp only [waiterStep, hpc] at hstep
      exact Option.some.inj hstep ▸ fail_move _ _
  | terminateGroup code duration =>
    cases failure with
    | none =>
      simp only [waiterStep, hpc] at hstep
      obtain ⟨-, heq⟩ := Option.ite_none_left_eq_some.mp hstep
      exact Option.some.inj heq ▸ hearly rfl fun kind => by simp [WaiterPc.joined]
    | some text =>
      simp only [waiterStep, hpc] at hstep
      exact Option.some.inj hstep ▸ fail_move _ _
  | checkCancelled =>
    simp only [waiterStep, hpc] at hstep
    rw [← Option.some.inj hstep]
    split
    · exact hearly rfl fun _ => rfl
    · exact hearly rfl fun _ => rfl
  | checkTimeout =>
    simp only [waiterStep, hpc] at hstep
    rw [← Option.some.inj hstep]
    split
    · exact hearly rfl fun _ => rfl
    · exact hearly rfl fun _ => rfl
  | terminate reason =>
    cases failure with
    | none =>
      simp only [waiterStep, hpc] at hstep
      obtain ⟨-, heq⟩ := Option.ite_none_left_eq_some.mp hstep
      exact Option.some.inj heq ▸ hearly rfl fun kind => by simp [WaiterPc.joined]
    | some text =>
      simp only [waiterStep, hpc] at hstep
      exact Option.some.inj hstep ▸ fail_move _ _
  | join kind outcome deadline =>
    simp only [waiterStep, hpc] at hstep
    obtain ⟨-, heq⟩ := Option.ite_none_right_eq_some.mp hstep
    exact Option.some.inj heq ▸ afterJoin_move hpc
  | finishStdin outcome =>
    cases failure with
    | none =>
      simp only [waiterStep, hpc] at hstep
      rw [← Option.some.inj hstep]
      exact .pass (passes_late rfl (fun _ => by rw [hpc]; rfl) nofun nofun)
    | some text =>
      simp only [waiterStep, hpc] at hstep
      exact Option.some.inj hstep ▸ fail_move _ _
  | checkExceeded outcome =>
    simp only [waiterStep, hpc] at hstep
    rw [← Option.some.inj hstep]
    split
    · exact fail_move _ _
    · exact concludes_move hpc (Bool.eq_false_iff.mpr ‹_›)
  | sendFinished result full deadline =>
    have hannounces : s.waiter.announces = true := by rw [hpc]; rfl
    cases full with
    | false =>
      simp only [waiterStep, hpc] at hstep
      exact Option.some.inj hstep ▸ finishStep_move hannounces
    | true =>
      simp only [waiterStep, hpc] at hstep
      rw [← Option.some.inj hstep]
      split
      · exact fail_move _ _
      · exact .pass (passes_late rfl (joined_of_announces hannounces) (fun _ => .inl hannounces)
          nofun)
  | returned result =>
    simp only [waiterStep, hpc] at hstep
    cases hstep

/-! ### Preservation -/

section
variable (h : s.Sound cfg lossy start)
include h

theorem Sound.send {event : ResponseEvent} {channel : Channel ResponseEvent channelCapacity}
    (hsend : s.channel.trySend event = .ok channel)
    (hevent : ∀ kind : StreamKind, kind.owns event = false)
    (hunspawned : pc.unspawned = true → s.waiter.unspawned = true)
    (hjoined : ∀ kind, pc.joined kind = true → s.readers kind = .ended)
    (hlast : ∀ result, pc = .returned (.ok result) → event = finishedEvent cfg result) :
    Sound cfg lossy start { s.setWaiter pc with channel := channel } := by
  obtain ⟨log, hlog, haccount, -⟩ := h.account
  refine ⟨⟨log ++ [event], ?_, fun kind => ?_, fun result hpc => ⟨log, by rw [hlast result hpc]⟩⟩,
    fun hpc => h.unspawned (hunspawned hpc), h.steady, h.ended, hjoined, h.within⟩
  · show channel.placed = start ++ (log ++ [event])
    rw [(Channel.trySend_ok hsend).1, hlog, List.append_assoc]
  · obtain ⟨bytes, hplaced, hsum⟩ := haccount kind
    exact ⟨bytes, (placed_concat_iff (hevent kind)).mpr hplaced, hsum⟩

theorem Sound.pass {failure : Option String} (hpatient : s.Patient (.waiter failure))
    (hpass : s.Passes pc) : (s.setWaiter pc).Sound cfg lossy start := by
  obtain ⟨log, hlog, haccount, -⟩ := h.account
  refine ⟨⟨log, hlog, haccount, fun result hpc => absurd hpc (hpass.unfinished result)⟩,
    fun hpc => h.unspawned (hpass.unspawned hpc), h.steady, h.ended, fun kind hjoined => ?_, h.within⟩
  obtain hjoined | ⟨outcome, deadline, hpc⟩ := hpass.joined kind hjoined
  · exact h.joined kind hjoined
  · -- a patient thread does not leave a reader behind
    show s.readers kind = .ended
    by_contra hrunning
    have hexceeded := hpatient (by simpa [abandons, hpc] using hrunning)
    rw [h.within] at hexceeded
    cases hexceeded

theorem Sound.spawned (hpc : s.waiter = .spawn) : s.spawned.Sound cfg lossy start := by
  have habsent (kind : StreamKind) : s.readers kind = .absent := h.unspawned (by rw [hpc]; rfl) kind
  obtain ⟨log, hlog, haccount, -⟩ := h.account
  refine ⟨⟨log, hlog, fun kind => ?_, nofun⟩, nofun, fun _ => nofun, fun _ => nofun,
    (fun _ hjoined => by cases hjoined), h.within⟩
  obtain ⟨bytes, hplaced, hsum⟩ := haccount kind
  rw [habsent kind] at hsum
  exact ⟨bytes, hplaced, hsum⟩

theorem waiterStep_sound {failure : Option String} (hpatient : s.Patient (.waiter failure))
    (hstep : s.waiterStep cfg failure = some s') : s'.Sound cfg lossy start := by
  cases waiterStep_move hstep with
  | pass hpass => exact h.pass hpatient hpass
  | started hpc hsend =>
    exact h.send hsend (fun kind => by cases kind <;> rfl) (fun _ => hpc)
      (fun _ hjoined => by cases hjoined) nofun
  | spawned hpc => exact h.spawned hpc
  | finished hpc hsend =>
    refine h.send hsend (fun kind => by cases kind <;> rfl) nofun
      (fun kind _ => h.joined kind (joined_of_announces hpc kind)) ?_
    rintro _ ⟨⟩
    rfl

end

/-- Beyond the limit the waiting thread cannot get to the last event. -/
theorem waiterStep_exceeded (hexceeded : s.outputExceeded = true)
    (hannounces : s.waiter.announces = false) {failure : Option String}
    (hstep : s.waiterStep cfg failure = some s') :
    s'.outputExceeded = true ∧ s'.waiter.announces = false := by
  cases waiterStep_move hstep with
  | pass hpass =>
    refine ⟨hexceeded, Bool.eq_false_iff.mpr fun hpc => ?_⟩
    rcases hpass.announces hpc with h | h
    · rw [hannounces] at h
      cases h
    · rw [hexceeded] at h
      cases h
  | started hpc hsend => exact ⟨hexceeded, rfl⟩
  | spawned hpc => exact ⟨hexceeded, rfl⟩
  | finished hpc hsend =>
    rw [hannounces] at hpc
    cases hpc

theorem readerStep_exceeded (hexceeded : s.outputExceeded = true) {kind : StreamKind}
    (hstep : s.readerStep cfg lossy kind answer = some s') :
    s'.outputExceeded = true ∧ s'.waiter = s.waiter := by
  cases hpc : s.readers kind with
  | reading =>
    simp only [readerStep, hpc] at hstep
    cases answer with
    | bytes n =>
      obtain ⟨-, heq⟩ := Option.ite_none_right_eq_some.mp hstep
      exact Option.some.inj heq ▸ ⟨hexceeded, rfl⟩
    | eof =>
      obtain ⟨-, heq⟩ := Option.ite_none_right_eq_some.mp hstep
      exact Option.some.inj heq ▸ ⟨hexceeded, rfl⟩
    | failed => exact Option.some.inj hstep ▸ ⟨hexceeded, rfl⟩
  | forwarding chunk pc =>
    simp only [readerStep, hpc] at hstep
    rw [← Option.some.inj hstep]
    cases pc <;> simp only [forwardStep] <;> split <;> exact ⟨hexceeded, rfl⟩
  | counting chunk =>
    simp only [readerStep, hpc] at hstep
    exact Option.some.inj hstep ▸ ⟨hexceeded, rfl⟩
  | exceeding chunk =>
    simp only [readerStep, hpc] at hstep
    exact Option.some.inj hstep ▸ ⟨rfl, rfl⟩
  | cancelling =>
    simp only [readerStep, hpc] at hstep
    exact Option.some.inj hstep ▸ ⟨hexceeded, rfl⟩
  | absent => simp [readerStep, hpc] at hstep
  | ended => simp [readerStep, hpc] at hstep

variable {e : PhaseEvent}

theorem environment_inv (hstep : s.step cfg lossy e = some s') (h : s.Inv cfg lossy start)
    (hreader : ∀ kind answer, e ≠ .reader kind answer) (hwaiter : ∀ failure, e ≠ .waiter failure) :
    s'.Inv cfg lossy start := by
  cases e with
  | write kind bytes =>
    obtain ⟨halive, heq⟩ := Option.ite_none_right_eq_some.mp hstep
    rw [← Option.some.inj heq]
    exact h.imp (fun h => h.write halive kind bytes) id
  | childExits code =>
    obtain ⟨-, heq⟩ := Option.ite_none_right_eq_some.mp hstep
    rw [← Option.some.inj heq]
    exact h.imp (fun h => h.congr rfl rfl rfl rfl rfl rfl id) id
  | groupEnds =>
    obtain ⟨-, heq⟩ := Option.ite_none_right_eq_some.mp hstep
    rw [← Option.some.inj heq]
    exact h.imp (fun h => h.congr rfl rfl rfl rfl rfl rfl fun _ => rfl) id
  | tick duration =>
    rw [← Option.some.inj hstep]
    exact h.imp (fun h => h.congr rfl rfl rfl rfl rfl rfl id) id
  | cancel =>
    rw [← Option.some.inj hstep]
    exact h.imp (fun h => h.congr rfl rfl rfl rfl rfl rfl id) id
  | consume =>
    simp only [step] at hstep
    split at hstep
    · rename_i hrecv
      rw [← Option.some.inj hstep]
      exact h.imp (fun h => h.congr (Channel.tryRecv_some hrecv).1 rfl rfl rfl rfl rfl id) id
    · cases hstep
  | dropReceiver =>
    rw [← Option.some.inj hstep]
    exact h.imp (fun h => h.congr rfl rfl rfl rfl rfl rfl id) id
  | reader kind answer => exact absurd rfl (hreader kind answer)
  | waiter failure => exact absurd rfl (hwaiter failure)

theorem step_inv (h : s.Inv cfg lossy start) (hpatient : s.Patient e)
    (hstep : s.step cfg lossy e = some s') : s'.Inv cfg lossy start := by
  cases e with
  | reader kind answer =>
    rcases h with h | ⟨hexceeded, hannounces⟩
    · exact readerStep_inv h hpatient hstep
    · obtain ⟨hexceeded', hwaiter⟩ := readerStep_exceeded hexceeded hstep
      exact .inr ⟨hexceeded', hwaiter ▸ hannounces⟩
  | waiter failure =>
    rcases h with h | ⟨hexceeded, hannounces⟩
    · exact .inl (waiterStep_sound h hpatient hstep)
    · exact .inr (waiterStep_exceeded hexceeded hannounces hstep)
  | _ => exact environment_inv hstep h nofun nofun

theorem Inv.announced (h : s.Inv cfg lossy start) {result : PhaseResult}
    (hpc : s.waiter = .returned (.ok result)) :
    ∃ before, s.channel.placed = start ++ before ++ [finishedEvent cfg result] ∧
      ∀ kind, Placed lossy kind before (s.written kind) := by
  rcases h with h | ⟨-, hannounces⟩
  · obtain ⟨log, hlog, haccount, hlast⟩ := h.account
    obtain ⟨before, rfl⟩ := hlast result hpc
    refine ⟨before, by rw [hlog, List.append_assoc], fun kind => ?_⟩
    have hended : s.readers kind = .ended := h.joined kind (by rw [hpc]; rfl)
    obtain ⟨bytes, hplaced, hsum⟩ := haccount kind
    -- nothing in hand, nothing in the pipe
    rw [hended, (h.ended kind hended).1] at hsum
    simp only [ReaderPc.inHand, List.append_nil] at hsum
    rw [← hsum]
    exact (placed_concat_iff (by cases kind <;> rfl)).mp hplaced
  · rw [hpc] at hannounces
    cases hannounces

end PhaseRun

/-- A phase that `run_phase` has completed, in every run in which no reader
gives output up and none is left behind, unless the output limit was exceeded:
before the last event, the events on the channel carry all that the process
wrote on either stream, in order. -/
theorem completed_phase_has_output {cfg : PhaseConfig} {lossy : Text → String}
    {channel : Channel ResponseEvent channelCapacity} {outputBytes : Nat} {es : List PhaseEvent}
    {s : PhaseRun} {result : PhaseResult}
    (hrun : exec (PhaseRun.step cfg lossy) { channel := channel, outputBytes := outputBytes } es =
      some s)
    (hpatient : Meets (PhaseRun.step cfg lossy) PhaseRun.Patient
      { channel := channel, outputBytes := outputBytes } es)
    (hreturned : s.waiter = .returned (.ok result)) :
    ∃ before, s.channel.placed = channel.placed ++ before ++ [PhaseRun.finishedEvent cfg result] ∧
      ∀ kind, Placed lossy kind before (s.written kind) := by
  have hinv : s.Inv cfg lossy channel.placed :=
    exec_invariant (fun _ _ _ h hok hstep => PhaseRun.step_inv h hok hstep)
      (.inl (PhaseRun.sound_initial channel outputBytes)) hpatient hrun
  exact hinv.announced hreturned

/-! ### Sample runs -/

def phaseConfig : PhaseConfig := ⟨"bld_0", .run, 60000, 1000⟩

def startPhase : List PhaseEvent := List.replicate 3 (.waiter none)

/-- The process writes a byte, and the reader gets as far as its first attempt
to forward it. -/
def writeByte : List PhaseEvent :=
  [.write .stdout [0x61], .reader .stdout (.bytes 1), .reader .stdout .eof, .reader .stdout .eof,
    .reader .stdout .eof]

/-- The process ends, and the waiting thread comes to the join of the readers. -/
def endProcess : List PhaseEvent := [.childExits 0, .groupEnds, .waiter none, .waiter none]

/-- The join of the first reader, the end of the second one, and the rest up to
the last event. -/
def joinReaders : List PhaseEvent :=
  [.waiter none, .reader .stderr .eof, .waiter none, .waiter none, .waiter none]

theorem completed_phase_has_output_byte : ∃ s before,
    exec (PhaseRun.step phaseConfig fun _ => "a") { channel := .empty, outputBytes := 0 }
      (startPhase ++ writeByte ++ endProcess ++ [.reader .stdout .eof] ++ joinReaders ++
        [.waiter none]) = some s ∧
    s.channel.placed = before ++ [PhaseRun.finishedEvent phaseConfig ⟨.run, 0, 0, false⟩] ∧
    Placed (fun _ => "a") .stdout before [0x61] := by
  have hrun : exec (PhaseRun.step phaseConfig fun _ => "a") { channel := .empty, outputBytes := 0 }
    (startPhase ++ writeByte ++ endProcess ++ [.reader .stdout .eof] ++ joinReaders ++
      [.waiter none]) = some _ := rfl
  have hreturned : WaiterPc.returned (.ok ⟨.run, 0, 0, false⟩) = .returned (.ok _) := rfl
  obtain ⟨before, hplaced, hall⟩ := completed_phase_has_output hrun (by decide) hreturned
  exact ⟨_, before, hrun, hplaced, hall .stdout⟩

def crowded : Channel ResponseEvent channelCapacity where
  queue := List.replicate 127 (.stdout "line")
  placed := List.replicate 127 (.stdout "line")
  taken := []
  closed := false
  bounded := by simp [channelCapacity]
  ordered _ := rfl

/-- The consumer stalls for the two seconds in which the reader tries to
forward the byte, and then takes an event. -/
def stalledRun : List PhaseEvent :=
  startPhase ++ writeByte ++ [.tick 2000, .reader .stdout .eof, .reader .stdout .eof] ++ endProcess ++
    joinReaders ++ [.consume, .waiter none]

set_option maxRecDepth 20000 in
theorem stalledRun_completes (lossy : Text → String) : ∃ s,
    exec (PhaseRun.step phaseConfig lossy) { channel := crowded, outputBytes := 0 } stalledRun =
      some s ∧
    s.waiter = .returned (.ok ⟨.run, 2000, 0, false⟩) ∧ s.written .stdout = [0x61] ∧
    s.channel.placed = crowded.placed ++ [PhaseRun.startedEvent phaseConfig] ++
      [PhaseRun.finishedEvent phaseConfig ⟨.run, 2000, 0, false⟩] :=
  ⟨_, rfl, rfl, rfl, rfl⟩

/-- However bytes are made into text, a completed phase can lack output. -/
theorem stalled_consumer_loses_output :
    ¬ ∃ lossy : Text → String, ∀ cfg channel outputBytes es s result,
      exec (PhaseRun.step cfg lossy) { channel := channel, outputBytes := outputBytes } es = some s →
      s.waiter = .returned (.ok result) →
      ∃ before, s.channel.placed = channel.placed ++ before ++ [PhaseRun.finishedEvent cfg result] ∧
        ∀ kind, Placed lossy kind before (s.written kind) := by
  rintro ⟨lossy, hall⟩
  obtain ⟨s, hrun, hreturned, hwritten, hplaced⟩ := stalledRun_completes lossy
  obtain ⟨before, hbefore, hkind⟩ := hall _ _ _ _ _ _ hrun hreturned
  -- the log of the phase is the first event alone
  rw [hplaced] at hbefore
  have hstarted : [PhaseRun.startedEvent phaseConfig] = before :=
    List.append_cancel_left (List.append_cancel_right hbefore)
  obtain ⟨chunks, hflatten, hfilter⟩ := hkind .stdout
  rw [← hstarted, hwritten] at *
  have hchunks : chunks = [] := List.map_eq_nil_iff.mp hfilter.symm
  rw [hchunks] at hflatten
  cases hflatten

end IndenturedServer.Phases
