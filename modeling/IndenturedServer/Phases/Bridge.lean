import IndenturedServer.Sessions.StartStream

/-!
The bridge between the phase channel and the client channel.

A worker runs task phases and enqueues their events on the phase channel; a
bridge thread takes them out, maps them and sends them on to the client. When
the phases are over the worker sets a stop flag and drops its sender. The
bridge ends when it has found the channel empty and then the flag set. These
are two observations, and the worker may act between them.

`spawn_session_event_bridge` and `spawn_action_event_bridge` differ only in
what they make of an event, so they are one system with the map as a
parameter. `phase_events_forwarded_iff` says which runs lose events: those in which the flag
is set while the bridge has seen an empty channel, has not looked at the flag
yet, and an event has arrived in between.
-/

namespace IndenturedServer.Phases

open Foundation Sessions Channel

inductive SessionActionEvent
  | stdout (data : String)
  | stderr (data : String)
  deriving DecidableEq, Repr

/-- What the bridge of an action makes of an event; `none` where it skips it. -/
def actionMapped : ResponseEvent → Option SessionActionEvent
  | .stdout data => some (.stdout data)
  | .stderr data => some (.stderr data)
  | _ => none

inductive WorkerPc
  | running
  /-- The stop flag is set. -/
  | stopped
  /-- The sender is dropped too. -/
  | ended
  deriving DecidableEq, Repr

inductive BridgePc (β : Type)
  | poll
  /-- The channel was empty; the stop flag is next. -/
  | empty
  /-- The flag was not set; the cancellation is next. -/
  | running
  | sending (event : β)
  | ended
  deriving DecidableEq, Repr

def BridgePc.inHand {β : Type} : BridgePc β → List β
  | .sending event => [event]
  | _ => []

structure Bridge (β : Type) where
  phaseChannel : Channel ResponseEvent channelCapacity := .empty
  stop : Bool := false
  cancelled : Bool := false
  worker : WorkerPc := .running
  bridge : BridgePc β := .poll
  /-- What the client channel has accepted. -/
  client : List β := []

inductive BridgeEvent
  | enqueue (event : ResponseEvent)
  | setStop
  | dropSender
  | cancel
  /-- A step of the bridge; the answer is that of the client channel. -/
  | bridge (accepts : Bool)
  deriving DecidableEq, Repr

namespace Bridge

variable {β : Type}

/-- The thread returns, and its receiver is dropped. -/
def finish (s : Bridge β) : Bridge β :=
  { s with bridge := .ended, phaseChannel := s.phaseChannel.close }

/-- One turn of `try_recv`. An empty channel is disconnected once the sender is
dropped. -/
def poll (mapped : ResponseEvent → Option β) (s : Bridge β) : Bridge β :=
  match s.phaseChannel.tryRecv with
  | some (event, channel) =>
    match mapped event with
    | some event => { s with phaseChannel := channel, bridge := .sending event }
    | none => { s with phaseChannel := channel }
  | none => if s.worker = .ended then s.finish else { s with bridge := .empty }

def bridgeStep (mapped : ResponseEvent → Option β) (s : Bridge β) (accepts : Bool) :
    Option (Bridge β) :=
  match s.bridge with
  | .poll => some (s.poll mapped)
  | .empty => some (if s.stop then s.finish else { s with bridge := .running })
  | .running => some (if s.cancelled then s.finish else { s with bridge := .poll })
  | .sending event =>
    some (if accepts then { s with client := s.client ++ [event], bridge := .poll }
      else { s with cancelled := true }.finish)
  | .ended => none

def step (mapped : ResponseEvent → Option β) (s : Bridge β) : BridgeEvent → Option (Bridge β)
  | .enqueue event =>
    match s.worker, s.phaseChannel.trySend event with
    | .running, .ok channel => some { s with phaseChannel := channel }
    | _, _ => none
  | .setStop => if s.worker = .running then some { s with stop := true, worker := .stopped } else none
  | .dropSender => if s.worker = .stopped then some { s with worker := .ended } else none
  | .cancel => some { s with cancelled := true }
  | .bridge accepts => s.bridgeStep mapped accepts

/-- The flag is not set behind the back of the bridge: when the bridge stands
between its two observations, nothing that it would send has arrived. -/
def Settled (mapped : ResponseEvent → Option β) (s : Bridge β) (e : BridgeEvent) : Prop :=
  e = .setStop → s.bridge = .empty → s.phaseChannel.queue.filterMap mapped = []

instance [DecidableEq β] (mapped : ResponseEvent → Option β) (s : Bridge β) (e : BridgeEvent) :
    Decidable (s.Settled mapped e) :=
  inferInstanceAs (Decidable (_ → _ → _))

/-! ### Invariants -/


/-- The bookkeeping of a run without cancellation, whatever its schedule. -/
structure Tracked (mapped : ResponseEvent → Option β) (s : Bridge β) : Prop where
  sent : s.client ++ s.bridge.inHand = s.phaseChannel.taken.filterMap mapped
  closed : s.phaseChannel.closed = true ↔ s.bridge = .ended
  stop : s.stop = true ↔ s.worker ≠ .running

def Complete (mapped : ResponseEvent → Option β) (s : Bridge β) : Prop :=
  s.client = s.phaseChannel.placed.filterMap mapped

/-- An event will be lost: the bridge is about to see the flag, or has seen it. -/
def Doomed (mapped : ResponseEvent → Option β) (s : Bridge β) : Prop :=
  s.stop = true ∧ ((s.bridge = .empty ∧ s.phaseChannel.queue.filterMap mapped ≠ []) ∨
    (s.bridge = .ended ∧ ¬ s.Complete mapped))

/-- Nothing is lost, and nothing will be at the next look at the flag. -/
def Safe (mapped : ResponseEvent → Option β) (s : Bridge β) : Prop :=
  (s.bridge = .empty → s.stop = true → s.phaseChannel.queue.filterMap mapped = []) ∧
    (s.bridge = .ended → s.Complete mapped)

variable {mapped : ResponseEvent → Option β} {s s' : Bridge β} {e : BridgeEvent}

theorem tracked_start : Tracked mapped ({} : Bridge β) where
  sent := rfl
  closed := by simp [empty]
  stop := by simp

theorem Tracked.placed (h : Tracked mapped s) (hopen : s.bridge ≠ .ended) :
    s.phaseChannel.placed.filterMap mapped =
      s.client ++ s.bridge.inHand ++ s.phaseChannel.queue.filterMap mapped := by
  have hclosed : s.phaseChannel.closed = false := Bool.eq_false_iff.mpr (mt h.closed.mp hopen)
  rw [s.phaseChannel.ordered hclosed, List.filterMap_append, h.sent]

/-- A bridge that ends with nothing in its hands has sent all if nothing that
it would send is in the queue. -/
theorem Tracked.complete_finish_iff (h : Tracked mapped s) (hopen : s.bridge ≠ .ended)
    (hhand : s.bridge.inHand = []) :
    s.finish.Complete mapped ↔ s.phaseChannel.queue.filterMap mapped = [] := by
  have hplaced := h.placed hopen
  rw [hhand, List.append_nil] at hplaced
  show s.client = s.phaseChannel.placed.filterMap mapped ↔ _
  rw [hplaced]
  rw [List.self_eq_append_right]

/-! ### Moves -/

/-- What a step can do that does not raise the cancellation. -/
inductive Move (mapped : ResponseEvent → Option β) (s : Bridge β) : BridgeEvent → Bridge β → Prop
  | enqueue {event channel} (hworker : s.worker = .running)
      (hsend : s.phaseChannel.trySend event = .ok channel) :
      Move mapped s (.enqueue event) { s with phaseChannel := channel }
  | setStop (hworker : s.worker = .running) :
      Move mapped s .setStop { s with stop := true, worker := .stopped }
  | dropSender (hworker : s.worker = .stopped) : Move mapped s .dropSender { s with worker := .ended }
  | skip {event channel accepts} (hpc : s.bridge = .poll)
      (hrecv : s.phaseChannel.tryRecv = some (event, channel)) (hmapped : mapped event = none) :
      Move mapped s (.bridge accepts) { s with phaseChannel := channel }
  | take {event channel m accepts} (hpc : s.bridge = .poll)
      (hrecv : s.phaseChannel.tryRecv = some (event, channel)) (hmapped : mapped event = some m) :
      Move mapped s (.bridge accepts) { s with phaseChannel := channel, bridge := .sending m }
  | disconnected {accepts} (hpc : s.bridge = .poll) (hempty : s.phaseChannel.queue = []) :
      Move mapped s (.bridge accepts) s.finish
  | empty {accepts} (hpc : s.bridge = .poll) (hempty : s.phaseChannel.queue = []) :
      Move mapped s (.bridge accepts) { s with bridge := .empty }
  | stopped {accepts} (hpc : s.bridge = .empty) (hstop : s.stop = true) :
      Move mapped s (.bridge accepts) s.finish
  | notStopped {accepts} (hpc : s.bridge = .empty) (hstop : s.stop = false) :
      Move mapped s (.bridge accepts) { s with bridge := .running }
  | again {accepts} (hpc : s.bridge = .running) :
      Move mapped s (.bridge accepts) { s with bridge := .poll }
  | sent {event accepts} (hpc : s.bridge = .sending event) :
      Move mapped s (.bridge accepts) { s with client := s.client ++ [event], bridge := .poll }

theorem poll_move (accepts : Bool) (hpc : s.bridge = .poll) :
    Move mapped s (.bridge accepts) (s.poll mapped) := by
  unfold poll
  cases hrecv : s.phaseChannel.tryRecv with
  | some received =>
    obtain ⟨event, channel⟩ := received
    cases hmapped : mapped event with
    | some m => simpa only [hmapped] using Move.take hpc hrecv hmapped
    | none => simpa only [hmapped] using Move.skip hpc hrecv hmapped
  | none =>
    have hempty := tryRecv_eq_none.mp hrecv
    dsimp only
    split
    · exact .disconnected hpc hempty
    · exact .empty hpc hempty

theorem bridgeStep_move {accepts : Bool} (h : s.bridgeStep mapped accepts = some s')
    (hcalm : s'.cancelled = false) : Move mapped s (.bridge accepts) s' := by
  unfold bridgeStep at h
  split at h
  · rename_i hpc
    rw [← Option.some.inj h]
    exact poll_move accepts hpc
  · rename_i hpc
    rw [← Option.some.inj h]
    split
    · exact .stopped hpc ‹_›
    · exact .notStopped hpc (Bool.eq_false_iff.mpr ‹_›)
  · rename_i hpc
    rw [← Option.some.inj h] at hcalm ⊢
    split at hcalm
    · -- the thread would return because of the cancellation
      have hcancelled : s.cancelled = false := hcalm
      simp_all
    · rw [if_neg ‹_›]
      exact .again hpc
  · rename_i event hpc
    rw [← Option.some.inj h] at hcalm ⊢
    split at hcalm
    · rw [if_pos ‹_›]
      exact .sent hpc
    · cases hcalm
  · cases h

theorem step_move (h : s.step mapped e = some s') (hcalm : s'.cancelled = false) :
    Move mapped s e s' := by
  cases e with
  | enqueue event =>
    simp only [step] at h
    split at h
    · rw [← Option.some.inj h]
      exact .enqueue ‹_› ‹_›
    · cases h
  | setStop =>
    obtain ⟨hworker, heq⟩ := Option.ite_none_right_eq_some.mp h
    rw [← Option.some.inj heq]
    exact .setStop hworker
  | dropSender =>
    obtain ⟨hworker, heq⟩ := Option.ite_none_right_eq_some.mp h
    rw [← Option.some.inj heq]
    exact .dropSender hworker
  | cancel =>
    rw [← Option.some.inj h] at hcalm
    cases hcalm
  | bridge accepts => exact bridgeStep_move h hcalm

/-- A move leaves the cancellation alone, so that a run that ends without it
never had it. -/
theorem Move.cancelled (h : Move mapped s e s') : s'.cancelled = s.cancelled := by
  cases h <;> rfl

theorem Move.stop (h : Move mapped s e s') (hstop : s.stop = true) : s'.stop = true := by
  cases h with
  | setStop hworker => rfl
  | _ => exact hstop

theorem Move.tracked (h : Tracked mapped s) (hmove : Move mapped s e s') : Tracked mapped s' := by
  have hsent {pc : BridgePc β} (hpc : s.bridge = pc) :
      s.client ++ pc.inHand = s.phaseChannel.taken.filterMap mapped := hpc ▸ h.sent
  have hclosed {pc : BridgePc β} (hpc : s.bridge = pc) :
      s.phaseChannel.closed = true ↔ pc = .ended := hpc ▸ h.closed
  cases hmove with
  | enqueue hworker hsend =>
    obtain ⟨-, htaken⟩ := trySend_taken hsend
    obtain ⟨-, hclosed'⟩ := trySend_ok hsend
    exact ⟨by rw [htaken]; exact h.sent, by rw [hclosed']; exact h.closed, h.stop⟩
  | setStop hworker => exact ⟨h.sent, h.closed, by simp⟩
  | dropSender hworker =>
    have hstop : s.stop = true := h.stop.mpr (by simp [hworker])
    exact ⟨h.sent, h.closed, by simp [hstop]⟩
  | skip hpc hrecv hmapped =>
    obtain ⟨-, hclosed'⟩ := tryRecv_some hrecv
    refine ⟨?_, by rw [hclosed']; exact h.closed, h.stop⟩
    rw [tryRecv_taken hrecv, List.filterMap_append, ← h.sent]
    simp [hmapped]
  | take hpc hrecv hmapped =>
    obtain ⟨-, hclosed'⟩ := tryRecv_some hrecv
    refine ⟨?_, by rw [hclosed', hclosed hpc]; simp, h.stop⟩
    rw [tryRecv_taken hrecv, List.filterMap_append, ← hsent hpc]
    simp [hmapped, BridgePc.inHand]
  | disconnected hpc hempty => exact ⟨(hsent hpc :), by simp [finish, close], h.stop⟩
  | stopped hpc hstop => exact ⟨(hsent hpc :), by simp [finish, close], h.stop⟩
  | empty hpc hempty => exact ⟨(hsent hpc :), by rw [hclosed hpc]; simp, h.stop⟩
  | notStopped hpc hstop => exact ⟨(hsent hpc :), by rw [hclosed hpc]; simp, h.stop⟩
  | again hpc => exact ⟨(hsent hpc :), by rw [hclosed hpc]; simp, h.stop⟩
  | sent hpc =>
    refine ⟨?_, by rw [hclosed hpc]; simp, h.stop⟩
    rw [← hsent hpc]
    exact List.append_nil _

/-- The two ends of the bridge are safe, and the flag is set only when it is. -/
theorem Move.safe (htracked : Tracked mapped s) (h : Safe mapped s) (hsettled : s.Settled mapped e)
    (hmove : Move mapped s e s') : Safe mapped s' := by
  cases hmove with
  | enqueue hworker hsend =>
    have hstop : s.stop ≠ true := fun hstop => htracked.stop.mp hstop hworker
    refine ⟨fun _ hstop' => absurd hstop' hstop, fun hpc => ?_⟩
    -- the channel of a bridge that has ended accepts nothing
    have hclosed := htracked.closed.mpr hpc
    rw [(trySend_taken hsend).1] at hclosed
    cases hclosed
  | setStop hworker => exact ⟨fun hpc _ => hsettled rfl hpc, h.2⟩
  | dropSender hworker => exact h
  | skip hpc hrecv hmapped => simp [Safe, hpc]
  | take hpc hrecv hmapped => exact ⟨nofun, nofun⟩
  | disconnected hpc hempty =>
    refine ⟨nofun, fun _ => ?_⟩
    rw [htracked.complete_finish_iff (by simp [hpc]) (by rw [hpc]; rfl), hempty]
    rfl
  | empty hpc hempty =>
    refine ⟨fun _ _ => ?_, nofun⟩
    rw [hempty]
    rfl
  | stopped hpc hstop =>
    refine ⟨nofun, fun _ => ?_⟩
    rw [htracked.complete_finish_iff (by simp [hpc]) (by rw [hpc]; rfl)]
    exact h.1 hpc hstop
  | notStopped hpc hstop => exact ⟨nofun, nofun⟩
  | again hpc => exact ⟨nofun, nofun⟩
  | sent hpc => exact ⟨nofun, nofun⟩

theorem Move.doomed (htracked : Tracked mapped s) (h : Doomed mapped s)
    (hmove : Move mapped s e s') : Doomed mapped s' := by
  obtain ⟨hstop, hdoomed⟩ := h
  refine ⟨hmove.stop hstop, ?_⟩
  have hworker : s.worker ≠ .running := htracked.stop.mp hstop
  rcases hdoomed with ⟨hpc, hqueue⟩ | ⟨hpc, hlost⟩
  · cases hmove with
    | enqueue hworker' hsend => exact absurd hworker' hworker
    | setStop hworker' => exact absurd hworker' hworker
    | dropSender hworker' => exact .inl ⟨hpc, hqueue⟩
    | stopped hpc' hstop' =>
      refine .inr ⟨rfl, ?_⟩
      rw [htracked.complete_finish_iff (by simp [hpc]) (by rw [hpc]; rfl)]
      exact hqueue
    | notStopped hpc' hstop' => simp [hstop] at hstop'
    | _ => simp_all
  · cases hmove with
    | enqueue hworker' hsend => exact absurd hworker' hworker
    | setStop hworker' => exact absurd hworker' hworker
    | dropSender hworker' => exact .inr ⟨hpc, hlost⟩
    | _ => simp_all

/-! ### Runs -/

/-- A run that ends without cancellation is a sequence of moves. -/
theorem not_cancelled_of_step (h : s.step mapped e = some s') (hcalm : s'.cancelled = false) :
    s.cancelled = false :=
  (step_move h hcalm).cancelled ▸ hcalm

variable {es : List BridgeEvent}

theorem safe_of_exec (hrun : exec (step mapped) {} es = some s) (hcalm : s.cancelled = false)
    (hok : Meets (step mapped) (Settled mapped) {} es) : Safe mapped s := by
  refine (exec_invariant (P := fun s => s.cancelled = false → Tracked mapped s ∧ Safe mapped s) ?_
    (fun _ => ⟨tracked_start, nofun, nofun⟩) hok hrun hcalm).2
  intro s e s' ih hsettled hstep hcalm
  obtain ⟨htracked, hsafe⟩ := ih (not_cancelled_of_step hstep hcalm)
  have hmove := step_move hstep hcalm
  exact ⟨hmove.tracked htracked, hmove.safe htracked hsafe hsettled⟩

theorem doomed_of_exec (htracked : Tracked mapped s) (hs : Doomed mapped s)
    (hrun : exec (step mapped) s es = some s') (hcalm : s'.cancelled = false) :
    Doomed mapped s' := by
  refine (exec_invariant_all (P := fun s => s.cancelled = false → Tracked mapped s ∧ Doomed mapped s)
    ?_ (fun _ => ⟨htracked, hs⟩) hrun hcalm).2
  intro s e s' ih hstep hcalm
  obtain ⟨htracked, hdoomed⟩ := ih (not_cancelled_of_step hstep hcalm)
  have hmove := step_move hstep hcalm
  exact ⟨hmove.tracked htracked, hmove.doomed htracked hdoomed⟩

theorem cancelled_mono (hrun : exec (step mapped) s es = some s') (hcalm : s'.cancelled = false) :
    s.cancelled = false := by
  induction es generalizing s with
  | nil => rwa [Option.some.inj hrun]
  | cons e es ih =>
    obtain ⟨m, hm, hrest⟩ := exec_cons_eq_some.mp hrun
    exact not_cancelled_of_step hm (ih hrest)

/-- The flag set at the wrong moment. -/
theorem doomed_of_not_settled (h : ¬ s.Settled mapped e)
    (hmove : Move mapped s e s') : Doomed mapped s' := by
  simp only [Settled, Classical.not_imp] at h
  obtain ⟨rfl, hpc, hqueue⟩ := h
  cases hmove
  exact ⟨rfl, .inl ⟨hpc, hqueue⟩⟩

/-- A run at whose end everything has been sent was settled. -/
theorem settled_of_complete (htracked : Tracked mapped s) (hrun : exec (step mapped) s es = some s')
    (hcalm : s'.cancelled = false) (hended : s'.bridge = .ended) (hcomplete : s'.Complete mapped) :
    Meets (step mapped) (Settled mapped) s es := by
  induction es generalizing s with
  | nil => trivial
  | cons e es ih =>
    obtain ⟨m, hm, hrest⟩ := exec_cons_eq_some.mp hrun
    have hmove := step_move hm (cancelled_mono hrest hcalm)
    refine ⟨?_, fun m' hm' => ?_⟩
    · by_contra hsettled
      -- from here on the event cannot be saved
      have hdoomed := doomed_of_not_settled hsettled hmove
      obtain ⟨-, hlost⟩ := doomed_of_exec (hmove.tracked htracked) hdoomed hrest hcalm
      rcases hlost with ⟨hpc, -⟩ | ⟨-, hlost⟩
      · rw [hended] at hpc
        cases hpc
      · exact hlost hcomplete
    · rw [Option.mem_def, hm] at hm'
      rw [← Option.some.inj hm']
      exact ih (hmove.tracked htracked) hrest

end Bridge

/-- Either bridge, in every run without cancellation in which the client
channel accepts all: when the thread has ended, what the worker enqueued has
been forwarded in order if and only if the stop flag was not set while the
bridge, having found the channel empty, had yet to look at the flag and an
event to be forwarded had arrived since. -/
theorem phase_events_forwarded_iff {β : Type} (mapped : ResponseEvent → Option β)
    {es : List BridgeEvent} {s : Bridge β} (hrun : exec (Bridge.step mapped) {} es = some s)
    (hended : s.bridge = .ended) (hcalm : s.cancelled = false) :
    s.client = s.phaseChannel.placed.filterMap mapped ↔
      Meets (Bridge.step mapped) (Bridge.Settled mapped) {} es := by
  constructor
  · intro hcomplete
    exact Bridge.settled_of_complete Bridge.tracked_start hrun hcalm hended hcomplete
  · intro hok
    exact (Bridge.safe_of_exec hrun hcalm hok).2 hended

def forwardedRun : List BridgeEvent :=
  [.enqueue (.stdout "line"), .bridge true, .bridge true, .setStop, .bridge true, .bridge true,
    .dropSender]

theorem phase_events_forwarded_line :
    (∃ s, exec (Bridge.step ResponseEvent.mapped) {} forwardedRun = some s ∧
      s.client = s.phaseChannel.placed.filterMap ResponseEvent.mapped) ∧
    (∃ s, exec (Bridge.step actionMapped) {} forwardedRun = some s ∧
      s.client = s.phaseChannel.placed.filterMap actionMapped) := by
  have hsession : exec (Bridge.step ResponseEvent.mapped) {} forwardedRun = some _ := rfl
  have haction : exec (Bridge.step actionMapped) {} forwardedRun = some _ := rfl
  exact ⟨⟨_, hsession, (phase_events_forwarded_iff _ hsession rfl rfl).mpr (by decide)⟩,
    ⟨_, haction, (phase_events_forwarded_iff _ haction rfl rfl).mpr (by decide)⟩⟩

/-- The bridge finds the channel empty; the worker enqueues its last line and
sets the flag; the bridge finds the flag set. -/
def lostTailRun : List BridgeEvent :=
  [.bridge true, .enqueue (.stdout "line"), .setStop, .bridge true, .dropSender]

theorem phase_event_tail_lost :
    (∃ s, exec (Bridge.step ResponseEvent.mapped) {} lostTailRun = some s ∧ s.bridge = .ended ∧
      s.cancelled = false ∧ s.phaseChannel.placed = [.stdout "line"] ∧ s.client = []) ∧
    (∃ s, exec (Bridge.step actionMapped) {} lostTailRun = some s ∧ s.bridge = .ended ∧
      s.cancelled = false ∧ s.phaseChannel.placed = [.stdout "line"] ∧ s.client = []) :=
  ⟨⟨_, rfl, rfl, rfl, rfl, rfl⟩, ⟨_, rfl, rfl, rfl, rfl, rfl⟩⟩

end IndenturedServer.Phases
