import IndenturedServer.Sessions.Refinement

/-!
The idle timers of a session.

Whoever makes a session ready calls `spawn_idle_timer`, which starts a task
that nobody stops when the next operation begins. The task looks at the state
now and then (`idle_remaining`), and returns, sleeps or sends `expire_idle` to
a blocking thread, by which time the state it has looked at may be gone. Only
the initializer makes the call under the state lock. The update worker and the
response stream of an action have dropped the lock before, and anything can
happen in between.

`TimedSession` puts the timers beside the session system. A run of it is a run
of the session system (`Watched.reached`), with `expire_idle` called by
the timers only and with the calls of `spawn_idle_timer` at their places.
-/

namespace IndenturedServer.Sessions

open Foundation Session

/-! ### Timer tasks -/

/-- An idle timer task, named by what it does next. -/
inductive IdleTimer
  /-- It calls `idle_remaining`. -/
  | checking
  | sleeping (wake : Nat)
  /-- It has sent `expire_idle` to a blocking thread. -/
  | expiring
  | returned
  deriving DecidableEq, Repr

def IdleTimer.live : IdleTimer → Bool
  | .returned => false
  | _ => true

def idleRemaining (idle now : Nat) : SessionState → Option Nat
  | .ready lastActivity => some (idle - (now - lastActivity))
  | _ => none

/-- One turn of the loop of the task, up to its next await. -/
def IdleTimer.turn (idle now : Nat) (st : SessionState) : IdleTimer :=
  match idleRemaining idle now st with
  | none => .returned
  | some remaining => if remaining = 0 then .expiring else .sleeping (now + remaining)

/-- An aborted task does not run again, but a blocking thread is not
stopped with the task that waits for it. -/
def IdleTimer.abort : IdleTimer → IdleTimer
  | .expiring => .expiring
  | _ => .returned

/-! ### Who spawns a timer -/

/-- A thread that makes the session ready: the initializer or an update
worker, or the task that polls the response stream of an action. -/
inductive Spawner
  | worker (t : Nat)
  | stream (t : Nat)
  deriving DecidableEq, Repr

def Event.spawner : Event → Option Spawner
  | .run t _ | .panic t => some (.worker t)
  | .stream t _ => some (.stream t)
  | _ => none

/-- The step from `s` to `s'` has made the session ready and its thread calls
`spawn_idle_timer` next; the flag says that it does so before it drops the
state lock. `finish_action` has such a branch as well, but no caller of it
asks for it. -/
def Session.releases (s s' : Session) : Event → Option (Spawner × Bool)
  | .run t _ =>
    match s.threads t, s'.threads t with
    | .initializer .commitElection, .returned _ => some (.worker t, true)
    | .update _ (.applied _ _), .update _ (.returning _) => some (.worker t, false)
    | .update _ (.failed _), .update _ (.returning _) => some (.worker t, false)
    | _, _ => none
  | .stream t .acknowledge =>
    if (s'.streams t).phase = .answered true then some (.stream t, false) else none
  | _ => none

/-- The step is the first one of `cleanup_entry`, which begins with
`abort_timers`. -/
def Session.abortsTimers (s : Session) : Event → Bool
  | .run t _ =>
    match s.threads t with
    | .cleaning _ call => call.stage == .takeServices
    | _ => false
  | _ => false

/-! ### The session with its timers -/

structure TimedSession where
  session : Session := .reserved
  timers : List IdleTimer := []
  /-- The spawner has dropped the state lock and not called
  `spawn_idle_timer` yet. -/
  owing : Spawner → Bool := fun _ => false
  /-- Who made the session ready the last time, and when: the operation that
  completed last. For the statements about runs only. -/
  released : Option (Spawner × Nat) := none

open TimedSession

inductive TimedEvent
  | session (e : Event)
  | spawn (r : Spawner)
  | check (i : Nat)
  /-- The timer does not find the session in the registry any more. -/
  | notFound (i : Nat)
  | wake (i : Nat)
  /-- The blocking thread `t` runs `expire_idle` for the timer. -/
  | expire (i t : Nat)
  deriving DecidableEq, Repr

namespace TimedSession

/-- The timers alone call `expire_idle`, and a thread that has a timer to
spawn does nothing else first: nothing in `spawn_idle_timer` panics. -/
def blocked (T : TimedSession) : Event → Bool
  | .call _ .expireIdle => true
  | e => e.spawner.any T.owing

def spawnIdleTimer (T : TimedSession) : TimedSession :=
  { T with timers := T.timers ++ [.checking] }

/-- What a step of the session system means for the timers. -/
def advance (T : TimedSession) (e : Event) (s' : Session) : TimedSession :=
  let T' : TimedSession :=
    { T with
      session := s'
      timers := if T.session.abortsTimers e then T.timers.map IdleTimer.abort else T.timers }
  match T.session.releases s' e with
  | none => T'
  | some (r, true) => { T' with released := some (r, T.session.now) }.spawnIdleTimer
  | some (r, false) =>
    { T' with
      owing := Function.update T.owing r true
      released := some (r, T.session.now) }

end TimedSession

def timedStep (cfg : SessionConfig) (T : TimedSession) : TimedEvent → Option TimedSession
  | .session e => if T.blocked e then none else (step cfg T.session e).map (T.advance e)
  | .spawn r =>
    if T.owing r then
      some { T with owing := Function.update T.owing r false }.spawnIdleTimer
    else none
  | .check i =>
    if T.timers[i]? = some .checking then
      let timer := IdleTimer.turn cfg.idleTimeout T.session.now T.session.state
      some { T with timers := T.timers.set i timer }
    else none
  | .notFound i =>
    if T.session.registered then none
    else
      match T.timers[i]? with
      | some .checking | some .expiring => some { T with timers := T.timers.set i .returned }
      | _ => none
  | .wake i =>
    match T.timers[i]? with
    | some (.sleeping wake) =>
      if wake ≤ T.session.now then some { T with timers := T.timers.set i .checking } else none
    | _ => none
  | .expire i t =>
    if T.timers[i]? = some .expiring then
      (step cfg T.session (.call t .expireIdle)).map fun s' =>
        { T with session := s', timers := T.timers.set i .returned }
    else none

/-! ### What a step of the session does to a ready state -/

variable {st : SessionState} {e : Event} {r : Spawner}

section
variable {cfg : SessionConfig} {s s' : Session} {a t : Nat}

variable {o : Outcome}

theorem Requests.ready {explicit : Bool} (h : Requests explicit st o) (hready : o.state = .ready a) :
    st = .ready a := by
  cases h with
  | nothing => exact hready
  | marks | elects => cases hready

theorem Concludes.ready {k : CleanupOwner} (h : Concludes k t st o) (hv : o.verdict ≠ .proceed)
    (hready : o.state = .ready a) : st = .ready a := by
  cases h with
  | releases => exact absurd rfl hv
  | ends => cases hready
  | joins | nothing => exact hready

theorem Session.Turns.ready (h : s.Turns t o) (hready : o.state = .ready a) :
    s.state = .ready a := by
  cases h with
  | nothing => exact hready
  | ends => cases hready

theorem abandonInitialization_ready (hready : abandonInitialization st = .ready a) :
    st = .ready a := by
  cases st with
  | initializing started => cases hready
  | _ => exact hready

/-- The spawner stands at its call of `spawn_idle_timer`. -/
def Session.AtSpawn (s : Session) : Spawner → Prop
  | .worker t => ∃ request result, s.threads t = .update request (.returning result)
  | .stream t => (s.streams t).phase = .answered true

/-- A step becomes a release in one of the four branches that say so, and
makes no session ready otherwise. -/
inductive Released (s : Session) (e : Event) (s' : Session) : Prop
  | release (r : Spawner) (locked : Bool) (h : s.releases s' e = some (r, locked))
      (hready : s'.state = .ready s.now) (hpoint : locked = false → s'.AtSpawn r)
  | keep (h : s.releases s' e = none) (hready : ∀ a, s'.state = .ready a → s.state = .ready a)

theorem CallStep.ready {op : Call} (h : CallStep s t op s') (hs : s.Sound)
    (hready : s'.state = .ready a) : s.state = .ready a := by
  cases h with
  | request o hr =>
    rw [state_perform] at hready
    exact (hr hs.owned.spawning).ready hready
  | stop =>
    rw [state_perform] at hready
    exact (terminateLive_requests true s.state).ready hready
  | begin hst =>
    cases hready
  | reject => exact hready
  | startAction | startUpdate => cases hready

theorem CleanupStep.ready {role : Role} {call : CleanupCall} (h : CleanupStep s t role call s')
    (hready : s'.state = .ready a) : s.state = .ready a := by
  cases h with
  | publish => cases hready
  | _ => exact hready

variable {pc : ActionPc} {answer : Answer}

theorem ActionStep.ready (h : ActionStep s t pc answer s') (hready : s'.state = .ready a) :
    s.state = .ready a := by
  cases h with
  | finish =>
    rw [state_perform] at hready
    refine (finishAction_concludes t s.now false s.state).ready ?_ hready
    cases s.state <;> grind [finishAction, Outcome.unchanged]
  | _ => exact hready

@[simp] theorem Session.threads_setThread (s : Session) (t : Nat) (th : Thread) :
    (s.setThread t th).threads t = th :=
  Function.update_self ..

@[simp] theorem Session.streams_setStream (s : Session) (t : Nat) (st : ActionStream) :
    (s.setStream t st).streams t = st :=
  Function.update_self ..

theorem Session.threads_perform (s : Session) (t : Nat) (o : Outcome) (role : Role)
    (next : Verdict → Thread) :
    (∃ e, (s.perform t o role next).threads t = .cleaning role { explicit := e }) ∨
      (s.perform t o role next).threads t = next o.verdict := by
  rcases slot_perform_self o role next with ⟨e, -, hslot⟩ | ⟨-, hslot⟩
  · exact .inl ⟨e, congrArg Slot.thread hslot⟩
  · exact .inr (congrArg Slot.thread hslot)

theorem InitStep.released {pc : InitPc} (h : InitStep cfg s t pc answer s') (hs : s.Sound)
    (hth : s.threads t = .initializer pc) : Released s (.run t answer) s' := by
  have hnone : ∀ pc', s'.threads t = .initializer pc' → s.releases s' (.run t answer) = none := by
    intro pc' hpc'
    simp only [releases, hth, hpc']
  cases h with
  | win started hst =>
    exact .release (.worker t) true (by simp [releases, hth]) rfl (by simp)
  | abandon pc' =>
    exact .keep (hnone pc' (by simp)) fun a hready => abandonInitialization_ready hready
  | cleanup =>
    refine .keep (by simp [releases, hth]) fun a hready => ?_
    rw [state_perform] at hready
    exact (initializerCleanup_concludes t (hs.initializing_of_initializer hth)).ready
      (initializerCleanup_ne_proceed false s.state) hready
  | _ => exact .keep (hnone _ (by simp; rfl)) fun a hready => hready

theorem UpdateStep.released {request : UpdateRequest} {pc : UpdatePc}
    (h : UpdateStep cfg s t request pc s') (hs : s.Sound) (hth : s.threads t = .update request pc) :
    Released s (.run t answer) s' := by
  cases h with
  | succeed changed deleted hst =>
    have hpoint : (((s.enter t { state := .ready s.now, verdict := .proceed }).setThread t
        (.update request (.returning (.ok (updateResponse cfg t request changed
          deleted))))).succeedUpdate cfg t request changed deleted).threads t =
        .update request (.returning (.ok (updateResponse cfg t request changed deleted))) :=
      Function.update_self ..
    exact .release (.worker t) false (by simp only [releases, hth, hpoint]) rfl
      fun _ => ⟨request, _, hpoint⟩
  | giveBack err herr hst =>
    exact .release (.worker t) false (by simp [releases, hth]) rfl
      fun _ => ⟨request, .error err, by simp⟩
  | conclude hpc o err err' ho hv =>
    refine .keep ?_ fun a hready => ?_
    · -- the worker is in `cleanup_entry` or has returned
      have hleft := s.threads_perform t o (.update request err)
        fun _ => .returned (.update (.error err'))
      rcases hpc with ⟨err, rfl⟩ | ⟨changed, deleted, rfl⟩ <;>
        rcases hleft with ⟨e, hleft⟩ | hleft <;>
        simp only [releases, hth, hleft]
    · rw [state_perform] at hready
      refine (ho fun u hst => hs.updating_of_token ?_ u hst).ready hv hready
      rcases hpc with ⟨err, rfl⟩ | ⟨changed, deleted, rfl⟩ <;> simp [life, hth, Thread.token]
  | handle late owner howner =>
    refine .keep (by simp [releases, hth]) fun a hready => ?_
    rcases updateWorkerPanicked_cases s.state with ⟨u, hst, ho⟩ | ⟨e, hst, ho⟩ | ⟨-, -, ho⟩ <;>
      rw [ho] at hready
    · cases hready
    · exact hready
    · exact hready
  | _ => exact .keep (by simp [releases, hth]) fun a hready => hready

variable {op : StreamOp}

theorem StreamStep.released (h : StreamStep cfg s t op s') : Released s (.stream t op) s' := by
  cases h with
  | accept hphase hst ho =>
    have hpoint : ((((s.enter t { state := .ready s.now, verdict := .proceed }).setStream t
        { s.streams t with phase := .answered true }).noteAccepted t).streams t).phase =
        .answered true := by
      rw [show (((s.enter t { state := .ready s.now, verdict := .proceed }).setStream t
        { s.streams t with phase := .answered true }).noteAccepted t).streams t =
        { s.streams t with phase := .answered true } from Function.update_self ..]
    exact .release (.stream t) false (if_pos hpoint) rfl fun _ => hpoint
  | refuse hphase o ho =>
    exact .keep (if_neg (by simp)) fun a hready => ho.ready hready
  | drop hphase o ho => exact .keep rfl fun a hready => ho.ready hready
  | _ => exact .keep rfl fun a hready => hready

theorem SessionStep.released (h : SessionStep cfg s e s') (hs : s.Sound) : Released s e s' := by
  cases h with
  | tick | cancelInitialization | cancelAction => exact .keep rfl fun a hready => hready
  | call t op hth h => exact .keep rfl fun a hready => h.ready hs hready
  | init t pc answer hth h => exact h.released hs hth
  | action t pc answer hth h =>
    exact .keep (by simp [releases, hth]) fun a hready => h.ready hready
  | update t request pc answer hth h => exact h.released hs hth
  | cleanup t role call answer hth h =>
    exact .keep (by simp [releases, hth]) fun a hready => h.ready hready
  | answer t answer response hth hst =>
    exact .keep (by simp [releases, hth]) fun a hready => hready
  | stream t op h => exact h.released
  | panic t request late hpoint => exact .keep rfl fun a hready => hready

theorem SessionStep.now_le (h : SessionStep cfg s e s') : s.now ≤ s'.now := by
  have hperform : ∀ t o role next, (s.perform t o role next).now = s.now := by
    intro t o role next
    simp only [perform]
    split <;> rfl
  cases h with
  | tick elapsed => exact Nat.le_add_right _ _
  | call t op hth h =>
    cases h with
    | request | stop | begin => exact (hperform ..).ge
    | _ => exact le_rfl
  | init t pc answer hth h =>
    cases h with
    | cleanup => exact (hperform ..).ge
    | _ => exact le_rfl
  | action t pc answer hth h =>
    cases h with
    | finish => exact (hperform ..).ge
    | _ => exact le_rfl
  | update t request pc answer hth h =>
    cases h with
    | conclude | handle => exact (hperform ..).ge
    | _ => exact le_rfl
  | cleanup t role call answer hth h => cases h <;> exact le_rfl
  | stream t op h => cases h <;> exact le_rfl
  | _ => exact le_rfl

theorem StreamStep.threads (h : StreamStep cfg s t op s') : s'.threads = s.threads := by
  cases h <;> rfl

theorem ActionStep.phase (h : ActionStep s t pc answer s') :
    (s'.streams t).phase = (s.streams t).phase := by
  cases h with
  | send => simp
  | finish =>
    rcases slot_perform_self (finishAction t false s.now s.state) .action
      (fun _ => .returned (.action false)) with ⟨e, -, hslot⟩ | ⟨-, hslot⟩
    · exact congrArg (fun x => x.stream.phase) hslot
    · exact congrArg (fun x => x.stream.phase) hslot
  | _ => rfl

theorem SessionStep.atSpawn (h : SessionStep cfg s e s') (hs : s.Sound) (hr : s.AtSpawn r)
    (he : e.spawner ≠ some r) : s'.AtSpawn r := by
  cases r with
  | worker t =>
    obtain ⟨request, result, hth⟩ := hr
    refine ⟨request, result, ?_⟩
    by_cases ht : e.thread = some t
    · cases h with
      | call u op habsent h =>
        cases ht
        rw [hth] at habsent
        cases habsent
      | stream u op h => rw [h.threads, hth]
      | tick | cancelInitialization | cancelAction => cases ht
      | _ =>
        cases ht
        exact absurd rfl he
    · exact (congrArg Slot.thread (h.slot ht)).trans hth
  | stream t =>
    by_cases ht : e.thread = some t
    · have hplain : s.Plain s' t → s'.AtSpawn (.stream t) := by
        rintro ⟨th, r, -, -, hslot⟩
        exact Eq.trans (congrArg (fun x : Slot => x.stream.phase) hslot) hr
      cases h with
      | tick | cancelInitialization | cancelAction => cases ht
      | call u op habsent h =>
        cases ht
        have hfresh := ((hs.tidy t).absent habsent).1
        have hphase : (s.streams t).phase = .answered true := hr
        rw [show s.streams t = {} from hfresh] at hphase
        cases hphase
      | init u pc answer hth h => cases ht; exact hplain (h.plain hth)
      | action u pc answer hth h => cases ht; exact h.phase.trans hr
      | update u request pc answer hth h => cases ht; exact hplain (h.plain hth)
      | cleanup u role call answer hth h => cases ht; exact hplain (h.plain hth)
      | answer u answer response hth hst => exact hr
      | stream u op h =>
        cases ht
        exact absurd rfl he
      | panic u request late hpoint => exact hr
    · exact Eq.trans (congrArg (fun x : Slot => x.stream.phase) (h.slot ht)) hr

end

/-! ### What the timers have in sight -/

/-- A timer that will see to a session that has been ready since `a`: it
wakes in time, or has found the session idle for long enough. -/
def IdleTimer.Watches (idle now a : Nat) : IdleTimer → Prop
  | .checking => True
  | .sleeping wake => wake ≤ a + idle
  | .expiring => a + idle ≤ now
  | .returned => False

section
variable {idle now now' a : Nat} {timer : IdleTimer}

theorem IdleTimer.Watches.live (h : timer.Watches idle now a) : timer.live = true := by
  cases timer with
  | returned => exact h.elim
  | _ => rfl

theorem IdleTimer.Watches.mono (h : timer.Watches idle now a) (hnow : now ≤ now') :
    timer.Watches idle now' a := by
  cases timer with
  | expiring => exact le_trans h hnow
  | _ => exact h

theorem IdleTimer.turn_watches (ha : a ≤ now) :
    (IdleTimer.turn idle now (.ready a)).Watches idle now a := by
  simp only [IdleTimer.turn, idleRemaining]
  split
  · show a + idle ≤ now
    omega
  · show now + (idle - (now - a)) ≤ a + idle
    omega

theorem expireIdle_state (h : (expireIdle idle now st).state ≠ st) :
    ∃ a, st = .ready a ∧ idle ≤ now - a ∧
      (expireIdle idle now st).state = .terminating ⟨false, .requester⟩ := by
  cases st with
  | ready a =>
    simp only [expireIdle] at h ⊢
    split at h
    · rename_i hidle
      exact ⟨a, rfl, hidle, by rw [if_pos hidle]⟩
    · exact absurd rfl h
  | _ => exact absurd rfl h

theorem state_of_expireIdle {cfg : SessionConfig} {s s' : Session} {t : Nat}
    (h : step cfg s (.call t .expireIdle) = some s') :
    s'.state = (expireIdle cfg.idleTimeout s.now s.state).state := by
  simp only [step, callStep] at h
  split at h <;> cases h
  exact state_perform ..

end

variable {i : Nat}

/-- Replacing an entry by one that takes over what it did. -/
theorem exists_mem_set {α : Type*} {P : α → Prop} {l : List α} {x y : α} (hi : l[i]? = some x)
    (hxy : P x → P y) (h : ∃ z ∈ l, P z) : ∃ z ∈ l.set i y, P z := by
  obtain ⟨z, hz, hPz⟩ := h
  obtain ⟨j, hj⟩ := List.mem_iff_getElem?.mp hz
  by_cases hij : i = j
  · subst hij
    obtain rfl : x = z := by simpa [hi] using hj
    have hlt : i < l.length := (List.getElem?_eq_some_iff.mp hi).1
    exact ⟨y, List.mem_set hlt y, hxy hPz⟩
  · refine ⟨z, List.mem_iff_getElem?.mpr ⟨j, ?_⟩, hPz⟩
    rw [List.getElem?_set_ne hij, hj]

/-! ### Runs -/

/-- Every run with timers is a run of the session system, and in a ready
session the check that is to come is accounted for. -/
structure TimedSession.Watched (cfg : SessionConfig) (T : TimedSession) : Prop where
  reached : ∃ es, exec (step cfg) .reserved es = some T.session
  owes : ∀ r, T.owing r = true → T.session.AtSpawn r
  stamped : ∀ a, T.session.state = .ready a →
    a ≤ T.session.now ∧ ∃ r, T.released = some (r, a)
  pending : ∀ a, T.session.state = .ready a →
    (∃ timer ∈ T.timers, timer.Watches cfg.idleTimeout T.session.now a) ∨
      ∃ r, T.released = some (r, a) ∧ T.owing r = true

theorem TimedSession.spawner_of_not_blocked {T : TimedSession} (hfree : T.blocked e = false)
    (hr : T.owing r = true) : e.spawner ≠ some r := by
  intro he
  cases e with
  | run | panic | stream =>
    cases he
    simp [blocked, Event.spawner, hr] at hfree
  | _ => cases he

namespace TimedSession.Watched

variable {cfg : SessionConfig} {T T' : TimedSession}

section
variable (h : T.Watched cfg)
include h

theorem sound : T.session.Sound := by
  obtain ⟨es, hes⟩ := h.reached
  exact sound_of_exec hes

theorem reached_step {s' : Session} (hstep : step cfg T.session e = some s') :
    ∃ es, exec (step cfg) .reserved es = some s' := by
  obtain ⟨es, hes⟩ := h.reached
  refine ⟨es ++ [e], ?_⟩
  rw [exec_append, hes]
  exact exec_cons_eq_some.mpr ⟨s', hstep, rfl⟩

theorem registered {a : Nat} (hready : T.session.state = .ready a) : T.session.registered = true :=
  h.sound.owned.registered_of_live (by rw [life_state, hready]; rfl)

theorem not_aborted {a : Nat} (hready : T.session.state = .ready a) (e : Event) :
    T.session.abortsTimers e = false := by
  by_contra hne
  cases e with
  | run t answer =>
    simp only [abortsTimers] at hne
    split at hne
    · rename_i hth
      have hdead := h.sound.not_live_of_cleaning hth
      rw [hready] at hdead
      cases hdead
    · exact hne rfl
  | _ => exact hne rfl

theorem set {old new : IdleTimer} (hi : T.timers[i]? = some old)
    (hnew : ∀ a, T.session.state = .ready a → old.Watches cfg.idleTimeout T.session.now a →
      new.Watches cfg.idleTimeout T.session.now a) :
    Watched cfg { T with timers := T.timers.set i new } where
  reached := h.reached
  owes := h.owes
  stamped := h.stamped
  pending := by
    intro a hready
    rcases h.pending a hready with htimer | howing
    · exact .inl (exists_mem_set hi (hnew a hready) htimer)
    · exact .inr howing

theorem session {s' : Session} (hfree : T.blocked e = false)
    (hstep : step cfg T.session e = some s') : (T.advance e s').Watched cfg := by
  have hsound := h.sound
  have hmove := step_cases hstep
  have howes : ∀ r, T.owing r = true → s'.AtSpawn r := fun r hr =>
    hmove.atSpawn hsound (h.owes r hr) (spawner_of_not_blocked hfree hr)
  rcases hmove.released hsound with ⟨r, locked, hrel, hready, hpoint⟩ | ⟨hrel, hkeep⟩
  · -- the session becomes ready: a new timer, or a thread that owes one
    have hstamp : ∀ a, s'.state = .ready a → a = T.session.now := by
      intro a ha
      rw [hready] at ha
      exact (SessionState.ready.inj ha).symm
    cases locked with
    | true =>
      simp only [advance, hrel]
      refine ⟨h.reached_step hstep, howes, fun a ha => ?_, fun a ha => .inl ?_⟩
      · obtain rfl := hstamp a ha
        exact ⟨hmove.now_le, r, rfl⟩
      · exact ⟨.checking, List.mem_append_right _ List.mem_cons_self, trivial⟩
    | false =>
      simp only [advance, hrel]
      refine ⟨h.reached_step hstep, fun r' hr' => ?_, fun a ha => ?_, fun a ha => .inr ?_⟩
      · by_cases heq : r' = r
        · subst heq
          exact hpoint rfl
        · exact howes r' (by simpa [Function.update_of_ne heq] using hr')
      · obtain rfl := hstamp a ha
        exact ⟨hmove.now_le, r, rfl⟩
      · obtain rfl := hstamp a ha
        exact ⟨r, rfl, Function.update_self ..⟩
  · -- a session that is ready has been so before, with the same stamp
    simp only [advance, hrel]
    refine ⟨h.reached_step hstep, howes, fun a ha => ?_, fun a ha => ?_⟩
    · obtain ⟨hle, hreleased⟩ := h.stamped a (hkeep a ha)
      exact ⟨hle.trans hmove.now_le, hreleased⟩
    · rcases h.pending a (hkeep a ha) with ⟨timer, hmem, hwatch⟩ | howing
      · refine .inl ⟨timer, ?_, hwatch.mono hmove.now_le⟩
        simpa [h.not_aborted (hkeep a ha) e] using hmem
      · exact .inr howing

theorem spawn (r : Spawner) : Watched cfg
      { T with owing := Function.update T.owing r false }.spawnIdleTimer where
  reached := h.reached
  owes := by
    intro r' hr'
    by_cases heq : r' = r
    · subst heq
      simp [spawnIdleTimer] at hr'
    · exact h.owes r' (by simpa [spawnIdleTimer, Function.update_of_ne heq] using hr')
  stamped := h.stamped
  pending _ _ := .inl ⟨.checking, List.mem_append_right _ List.mem_cons_self, trivial⟩

/-- The timer that runs `expire_idle` is not missed: either the session is
not ready afterwards, or the timer has had an older ready state in sight. -/
theorem expire {t : Nat} {s' : Session} (hi : T.timers[i]? = some .expiring)
    (hstep : step cfg T.session (.call t .expireIdle) = some s') :
    Watched cfg { T with session := s', timers := T.timers.set i .returned } := by
  have hmove := step_cases hstep
  have hstate := state_of_expireIdle hstep
  have hkeep : ∀ a, s'.state = .ready a → T.session.state = .ready a := fun a ha =>
    (expireIdle_requests cfg.idleTimeout T.session.now T.session.state).ready (hstate ▸ ha)
  refine ⟨h.reached_step hstep, fun r hr => ?_, fun a ha => ?_, fun a ha => ?_⟩
  · exact hmove.atSpawn h.sound (h.owes r hr) (by simp [Event.spawner])
  · obtain ⟨hle, hreleased⟩ := h.stamped a (hkeep a ha)
    exact ⟨hle.trans hmove.now_le, hreleased⟩
  · rcases h.pending a (hkeep a ha) with htimer | howing
    · have hspared : ¬ a + cfg.idleTimeout ≤ T.session.now := by
        intro hle
        have hidle : cfg.idleTimeout ≤ T.session.now - a := by omega
        have hterm : s'.state = .terminating ⟨false, .requester⟩ := by
          rw [hstate, hkeep a ha, expireIdle, if_pos hidle]
        rw [hterm] at ha
        cases ha
      obtain ⟨timer, hmem, hwatch⟩ := exists_mem_set (y := .returned) hi hspared htimer
      exact .inl ⟨timer, hmem, hwatch.mono hmove.now_le⟩
    · exact .inr howing

theorem step {e : TimedEvent} (hstep : timedStep cfg T e = some T') : T'.Watched cfg := by
  cases e with
  | session e =>
    simp only [timedStep] at hstep
    split at hstep
    · cases hstep
    · rename_i hfree
      obtain ⟨s', hs', rfl⟩ := Option.map_eq_some_iff.mp hstep
      exact h.session (by simpa using hfree) hs'
  | spawn r =>
    simp only [timedStep] at hstep
    split at hstep <;> cases hstep
    exact h.spawn r
  | check i =>
    simp only [timedStep] at hstep
    split at hstep <;> cases hstep
    refine h.set ‹_› fun a hready _ => ?_
    rw [hready]
    exact IdleTimer.turn_watches (h.stamped a hready).1
  | notFound i =>
    simp only [timedStep] at hstep
    split at hstep
    · cases hstep
    · rename_i hreg
      -- a ready session would be in the registry
      have hready : ∀ a, T.session.state ≠ .ready a := fun a ha => hreg (h.registered ha)
      split at hstep <;> cases hstep <;> exact h.set ‹_› fun a ha _ => absurd ha (hready a)
  | wake i =>
    simp only [timedStep] at hstep
    split at hstep
    · split at hstep <;> cases hstep
      exact h.set ‹_› fun _ _ _ => trivial
    · cases hstep
  | expire i t =>
    simp only [timedStep] at hstep
    split at hstep
    · obtain ⟨s', hs', rfl⟩ := Option.map_eq_some_iff.mp hstep
      exact h.expire ‹_› hs'
    · cases hstep

end

end TimedSession.Watched

theorem watched_of_exec {cfg : SessionConfig} {T : TimedSession} {es : List TimedEvent}
    (h : exec (timedStep cfg) {} es = some T) : T.Watched cfg := by
  refine exec_invariant_all (fun _ _ _ hT hstep => hT.step hstep) ?_ h
  exact ⟨⟨[], rfl⟩, by rintro r ⟨⟩, by rintro a ⟨⟩, by rintro a ⟨⟩⟩

/-- In every run, `expire_idle` terminates a session only while it is ready
and as long after its last operation as the idle timeout says, and a ready
session has a live timer, or the thread that made it ready is about to spawn
one. -/
theorem idle_expiry_guarded {cfg : SessionConfig} {es : List TimedEvent} {T : TimedSession}
    (hrun : exec (timedStep cfg) {} es = some T) :
    (∀ i t T', timedStep cfg T (.expire i t) = some T' → T'.session.state ≠ T.session.state →
      ∃ a r, T.session.state = .ready a ∧ T.released = some (r, a) ∧
        a + cfg.idleTimeout ≤ T.session.now ∧
        T'.session.state = .terminating ⟨false, .requester⟩) ∧
    (∀ a, T.session.state = .ready a →
      (∃ timer ∈ T.timers, timer.live = true) ∨
        ∃ r, T.released = some (r, a) ∧ T.owing r = true ∧ T.session.AtSpawn r) := by
  have h := watched_of_exec hrun
  constructor
  · intro i t T' hstep hne
    simp only [timedStep] at hstep
    split at hstep
    · obtain ⟨s', hs', rfl⟩ := Option.map_eq_some_iff.mp hstep
      have hstate : s'.state = _ := state_of_expireIdle hs'
      obtain ⟨a, hready, hidle, hterm⟩ := expireIdle_state (hstate ▸ hne)
      obtain ⟨hle, r, hreleased⟩ := h.stamped a hready
      exact ⟨a, r, hready, hreleased, by omega, hstate.trans hterm⟩
    · cases hstep
  · intro a hready
    rcases h.pending a hready with ⟨timer, hmem, hwatch⟩ | ⟨r, hreleased, howing⟩
    · exact .inl ⟨timer, hmem, hwatch.live⟩
    · exact .inr ⟨r, hreleased, howing, h.owes r howing⟩

/-- The session becomes ready, its timer sleeps for the whole idle timeout
and finds nothing done since. -/
def idleRun : List TimedEvent :=
  readyRun.map .session ++ [.check 0, .session (.tick 60000), .wake 0, .check 0]

/-- The first timer looks at the session during an action and returns. The
response stream has made the session ready again and not spawned the next
timer yet. -/
def owingRun : List TimedEvent :=
  (readyRun ++ deliveryRun 1 none).map .session ++
    [.check 0, .session (.stream 1 .receiveFinal), .session (.stream 1 .acknowledge)]

theorem idle_expiry_guarded_idle :
    (∃ T T', exec (timedStep sampleConfig) {} idleRun = some T ∧
      timedStep sampleConfig T (.expire 0 1) = some T' ∧
      T'.session.state ≠ T.session.state ∧
      (∃ a r, T.session.state = .ready a ∧ T.released = some (r, a) ∧
        a + sampleConfig.idleTimeout ≤ T.session.now ∧
        T'.session.state = .terminating ⟨false, .requester⟩)) ∧
    (∃ T, exec (timedStep sampleConfig) {} owingRun = some T ∧ T.session.state = .ready 0 ∧
      T.timers = [.returned] ∧
      ∃ r, T.released = some (r, 0) ∧ T.owing r = true ∧ T.session.AtSpawn r) :=
  ⟨⟨_, _, rfl, rfl, by decide, (idle_expiry_guarded
      (show exec (timedStep sampleConfig) {} idleRun = some _ from rfl)).1 0 1 _ rfl (by decide)⟩,
    ⟨_, rfl, rfl, rfl, ((idle_expiry_guarded
      (show exec (timedStep sampleConfig) {} owingRun = some _ from rfl)).2 0 rfl).resolve_left
        (by decide)⟩⟩

end IndenturedServer.Sessions
