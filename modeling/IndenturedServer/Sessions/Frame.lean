import IndenturedServer.Sessions.Moves

/-!
What a step of the session system cannot have changed.

The state of the system falls into the `Slot` of each thread (its program
point, the response stream and the archive of its action, and what the
history says about it) and the `Store` that all threads share (the update
data, the files of the session, and the history of those). A step of thread
`t` leaves every other slot alone, and only the initializer, the update worker
and `cleanup_entry` touch the store.
-/

namespace IndenturedServer.Sessions

open Session

/-- Everything that belongs to one thread. -/
structure Slot where
  thread : Thread
  stream : ActionStream
  archive : Bool
  accepted : Bool
  published : Bool
  rewrote : Bool

def Session.slot (s : Session) (u : Nat) : Slot :=
  ⟨s.threads u, s.streams u, s.archives u, s.log.accepted u, s.log.published u, s.log.rewrote u⟩

/-- The shared part of a session, without state, clock and flags. -/
structure Store where
  updateData : SessionUpdateData
  services : List DurableServiceProcess
  metadata : Option DurableSessionMetadata
  applied : List AppliedUpdate
  successes : List SuccessfulUpdate
  unproven : List DurableServiceProcess
  finalArchives : List ArtifactArchive

def Session.store (s : Session) : Store :=
  ⟨s.updateData, s.services, s.metadata, s.log.applied, s.log.successes, s.log.unproven,
    s.log.finalArchives⟩

/-- The thread that takes the step. -/
def Event.thread : Event → Option Nat
  | .call t _ | .run t _ | .stream t _ | .panic t => some t
  | _ => none

namespace Session

variable {s : Session} {t u : Nat}

theorem slot_setThread (hut : u ≠ t) (th : Thread) : (s.setThread t th).slot u = s.slot u := by
  simp [slot, setThread, hut]

theorem slot_setStream (hut : u ≠ t) (st : ActionStream) :
    (s.setStream t st).slot u = s.slot u := by
  simp [slot, setStream, hut]

theorem slot_noteAccepted (hut : u ≠ t) : (s.noteAccepted t).slot u = s.slot u := by
  simp [slot, noteAccepted, hut]

theorem slot_perform (hut : u ≠ t) (o : Outcome) (role : Role) (next : Verdict → Thread) :
    (s.perform t o role next).slot u = s.slot u := by
  unfold perform
  split
  · simp [slot, startCleanup, enter, hut]
  · simp [slot, setThread, enter, hut]

theorem slot_setThread_self (th : Thread) :
    (s.setThread t th).slot t = { s.slot t with thread := th } := by
  simp [slot, setThread]

theorem slot_setStream_self (st : ActionStream) :
    (s.setStream t st).slot t = { s.slot t with stream := st } := by
  simp [slot, setStream]

section
variable (o : Outcome) (role : Role) (next : Verdict → Thread)

theorem slot_perform_self :
    (∃ e, o.verdict = .cleanup e ∧ (s.perform t o role next).slot t =
      { s.slot t with thread := .cleaning role { explicit := e } }) ∨
    (∀ e, o.verdict ≠ .cleanup e) ∧ (s.perform t o role next).slot t =
      { s.slot t with thread := next o.verdict } := by
  unfold perform
  split
  · rename_i e he
    exact .inl ⟨e, he, by simp [slot, startCleanup, enter]⟩
  · rename_i hne
    exact .inr ⟨hne, by simp [slot, setThread, enter]⟩

theorem store_perform : (s.perform t o role next).store = s.store := by
  unfold perform
  split <;> rfl

theorem first_perform :
    (s.perform t o role next).log.first = s.log.first.or (o.state.termination?.map (t, ·)) := by
  unfold perform
  split <;> rfl

@[simp] theorem state_perform : (s.perform t o role next).state = o.state := by
  unfold perform
  split <;> rfl

end

end Session

section
variable {cfg : SessionConfig} {s s' : Session} {t u : Nat}

/-! ### Other threads -/

theorem CallStep.slot {op : Call} (h : CallStep s t op s') (hut : u ≠ t) :
    s'.slot u = s.slot u := by
  cases h with
  | request | stop | begin => exact slot_perform hut _ _ _
  | reject | startUpdate => exact slot_setThread hut _
  | startAction => exact (slot_setStream hut _).trans (slot_setThread hut _)

variable {answer : Answer}

theorem InitStep.slot {pc : InitPc} (h : InitStep cfg s t pc answer s') (hut : u ≠ t) :
    s'.slot u = s.slot u := by
  cases h with
  | cleanup => exact slot_perform hut _ _ _
  | _ => exact slot_setThread hut _

theorem ActionStep.slot {pc : ActionPc} (h : ActionStep s t pc answer s') (hut : u ≠ t) :
    s'.slot u = s.slot u := by
  cases h with
  | collect | collectFail | discard =>
    rw [slot_setThread hut]
    simp [slot, hut]
  | send => exact (slot_setStream hut _).trans (slot_setThread hut _)
  | finish => exact slot_perform hut _ _ _
  | _ => exact slot_setThread hut _

variable {pc : UpdatePc} {request : UpdateRequest}

theorem UpdateStep.slot (h : UpdateStep cfg s t request pc s') (hut : u ≠ t) :
    s'.slot u = s.slot u := by
  cases h with
  | commit | commitFail =>
    rw [slot_setThread hut]
    simp [slot, noteApplied, noteRewrite, writeMetadata, hut]
  | conclude | handle => exact slot_perform hut _ _ _
  | _ => exact slot_setThread hut _

variable {role : Role}

theorem CleanupStep.slot {call : CleanupCall} (h : CleanupStep s t role call s') (hut : u ≠ t) :
    s'.slot u = s.slot u := by
  cases h with
  | _ => exact slot_setThread hut _

variable {op : StreamOp}

theorem StreamStep.slot (h : StreamStep cfg s t op s') (hut : u ≠ t) : s'.slot u = s.slot u := by
  cases h with
  | accept =>
    exact (slot_noteAccepted hut).trans (slot_setStream (s := s.enter t _) hut _)
  | refuse | drop => exact slot_setStream (s := s.enter t _) hut _
  | _ => exact slot_setStream hut _

theorem SessionStep.slot {e : Event} (h : SessionStep cfg s e s') (hu : e.thread ≠ some u) :
    s'.slot u = s.slot u := by
  have hne : ∀ t, e.thread = some t → u ≠ t := by
    rintro t ht rfl
    exact hu ht
  cases h with
  | tick | cancelInitialization | cancelAction => rfl
  | call t op hth h => exact h.slot (hne t rfl)
  | init t pc answer hth h => exact h.slot (hne t rfl)
  | action t pc answer hth h => exact h.slot (hne t rfl)
  | update t request pc answer hth h => exact h.slot (hne t rfl)
  | cleanup t role call answer hth h => exact h.slot (hne t rfl)
  | answer t => exact slot_setThread (hne t rfl) _
  | stream t op h => exact h.slot (hne t rfl)
  | panic t => exact slot_setThread (hne t rfl) _

/-! ### The thread itself

Only an action worker and its stream have business with the delivery of an
action. The other threads change their program point, and an update worker
what the history says about its metadata write. -/

/-- A point of the call of `execute_action`, its cleanup and its end
included. -/
def Thread.ofAction : Thread → Bool
  | .action _ | .cleaning .action _ | .returned (.action _) => true
  | _ => false

/-- Not a point of `execute_action` proper, and not its successful end. -/
def Thread.plain : Thread → Bool
  | .absent | .action _ | .returned (.action true) => false
  | _ => true

/-- Thread `t` has moved to a plain point and kept the rest of its slot. -/
def Session.Plain (s s' : Session) (t : Nat) : Prop :=
  ∃ th r, th.plain = true ∧ th.ofAction = (s.threads t).ofAction ∧
    s'.slot t = { s.slot t with thread := th, rewrote := r }

theorem Session.plain_setThread {s₀ : Session} {r : Bool} {th : Thread}
    (hth : th.plain = true) (hof : th.ofAction = (s.threads t).ofAction)
    (hslot : s₀.slot t = { s.slot t with rewrote := r }) : s.Plain (s₀.setThread t th) t :=
  ⟨th, r, hth, hof, by rw [slot_setThread_self, hslot]⟩

theorem Session.plain_perform {o : Outcome} {next : Verdict → Thread}
    (hrole : ∀ call, (Thread.cleaning role call).ofAction = (s.threads t).ofAction)
    (hnext : ∀ v, (next v).plain = true ∧ (next v).ofAction = (s.threads t).ofAction) :
    s.Plain (s.perform t o role next) t := by
  rcases slot_perform_self (s := s) (t := t) o role next with ⟨e, -, hslot⟩ | ⟨-, hslot⟩
  · exact ⟨_, (s.slot t).rewrote, rfl, hrole _, hslot⟩
  · exact ⟨_, (s.slot t).rewrote, (hnext _).1, (hnext _).2, hslot⟩

theorem InitStep.plain {pc : InitPc} (h : InitStep cfg s t pc answer s')
    (hth : s.threads t = .initializer pc) : s.Plain s' t := by
  have hof : (s.threads t).ofAction = false := by rw [hth]; rfl
  cases h with
  | cleanup => exact plain_perform (fun _ => hof.symm) fun _ => ⟨rfl, hof.symm⟩
  | _ => exact plain_setThread rfl hof.symm rfl

theorem UpdateStep.plain (h : UpdateStep cfg s t request pc s')
    (hth : s.threads t = .update request pc) : s.Plain s' t := by
  have hof : (s.threads t).ofAction = false := by rw [hth]; rfl
  cases h with
  | conclude | handle => exact plain_perform (fun _ => hof.symm) fun _ => ⟨rfl, hof.symm⟩
  | _ => exact plain_setThread rfl hof.symm rfl

theorem CleanupStep.plain {call : CleanupCall} (h : CleanupStep s t role call s')
    (hth : s.threads t = .cleaning role call) : s.Plain s' t := by
  have hof : ∀ call', (Thread.cleaning role call').ofAction = (s.threads t).ofAction := by
    intro call'
    rw [hth]
    cases role <;> rfl
  cases h with
  | publish =>
    refine plain_setThread ?_ ?_ rfl
    · cases role <;> rfl
    · rw [hth]
      cases role <;> rfl
  | _ => exact plain_setThread rfl (hof _) rfl

/-- A new thread is an action worker with its stream, or nothing to do with
actions. -/
theorem CallStep.plain {op : Call} (h : CallStep s t op s') (hth : s.threads t = .absent) :
    s.Plain s' t ∨ s'.slot t =
      { s.slot t with thread := .action .run, stream := { phase := .polling } } := by
  have hof : (s.threads t).ofAction = false := by rw [hth]; rfl
  cases h with
  | request | begin =>
    exact .inl (plain_perform (fun _ => hof.symm) fun _ => ⟨rfl, hof.symm⟩)
  | stop =>
    exact .inl (plain_perform (fun _ => hof.symm)
      (by rintro (_ | _ | _ | _) <;> exact ⟨rfl, hof.symm⟩))
  | reject r hr =>
    refine .inl (plain_setThread ?_ (hof.symm ▸ ?_) rfl)
    · cases r <;> first | rfl | cases hr
    · cases r <;> first | rfl | cases hr
  | startAction => exact .inr (by simp [Session.slot, Session.setStream, Session.setThread])
  | startUpdate => exact .inl (plain_setThread rfl hof.symm rfl)

/-! ### The store -/

theorem CallStep.store {op : Call} (h : CallStep s t op s') : s'.store = s.store := by
  cases h with
  | request | stop | begin => exact store_perform _ _ _
  | reject | startAction | startUpdate => rfl

theorem ActionStep.store {pc : ActionPc} (h : ActionStep s t pc answer s') :
    s'.store = s.store := by
  cases h with
  | finish => exact store_perform _ _ _
  | _ => rfl

theorem StreamStep.store (h : StreamStep cfg s t op s') : s'.store = s.store := by
  cases h with
  | _ => rfl

/-- The initializer touches the services and the metadata file. -/
theorem InitStep.store {pc : InitPc} (h : InitStep cfg s t pc answer s') : ∃ services metadata,
      s'.store = { s.store with services := services, metadata := metadata } := by
  cases h with
  | cleanup => exact ⟨_, _, store_perform _ _ _⟩
  | _ => exact ⟨_, _, rfl⟩

/-- An update touches the metadata file, the update data and their history. -/
theorem UpdateStep.store (h : UpdateStep cfg s t request pc s') :
    ∃ data metadata applied successes, s'.store = { s.store with
      updateData := data, metadata := metadata, applied := applied, successes := successes } := by
  cases h with
  | conclude | handle => exact ⟨_, _, _, _, store_perform _ _ _⟩
  | _ => exact ⟨_, _, _, _, rfl⟩

/-- `cleanup_entry` touches the services, the metadata file and what the
history says about them; it collects an archive only when it was called with
the explicit flag. -/
theorem CleanupStep.store {call : CleanupCall} (h : CleanupStep s t role call s') :
    ∃ services metadata unproven archives, s'.store = { s.store with
      services := services, metadata := metadata, unproven := unproven, finalArchives := archives } ∧
      (call.explicit = false → archives = s.log.finalArchives) := by
  cases h with
  | move call' workspace archives h1 h2 h3 h4 harchives => exact ⟨_, _, _, _, rfl, harchives⟩
  | _ => exact ⟨_, _, _, _, rfl, fun _ => rfl⟩

end

end IndenturedServer.Sessions
