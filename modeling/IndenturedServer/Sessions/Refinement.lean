import IndenturedServer.Sessions.Delivery

/-!
The session system follows the abstract lifecycle.

`Session.life` forgets the program points, the files and the clock and keeps
the tokens: which thread still runs the operation of the session, and which
one is inside `cleanup_entry`. Every step of the system is a step of the
lifecycle (`step_refines`), so what holds along every lifecycle holds along
every run.
-/

namespace IndenturedServer.Sessions

open Thread Session SessionState Function Life CleanupStage

/-! ### Tokens of a session -/

def Role.owner : Role → CleanupOwner
  | .initializer => .initializer
  | .action => .action
  | .update _ _ => .update
  | .panicHandler k => k
  | .requester => .requester
  | .stopper => .requester

def CleanupStage.unregistered : CleanupStage → Bool
  | .releasePermit | .publish => true
  | _ => false

/-- The token of a thread. An action worker gives its token up when its
delivery is acknowledged, an update worker when it makes the session ready;
both still have steps to take after that. -/
def Thread.token (accepted : Bool) : Thread → Option Token
  | .initializer _ => some (.work .initializer)
  | .action _ => if accepted then none else some (.work .action)
  | .update _ (.returning _) => none
  | .update _ (.panicked late) => if late then none else some (.work .update)
  | .update _ (.panicLookedUp late) => if late then none else some (.work .update)
  | .update _ _ => some (.work .update)
  | .cleaning role call => some (.clean role.owner call.explicit call.stage.unregistered)
  | _ => none

variable {th : Thread}

theorem Thread.action_of_token {accepted : Bool} (h : th.token accepted = some (.work .action)) :
    (∃ pc, th = .action pc) ∧ accepted = false := by
  cases th with
  | action pc =>
    refine ⟨⟨pc, rfl⟩, ?_⟩
    by_contra hacc
    simp [token, hacc] at h
  | update request pc => cases pc <;> simp [token] at h
  | _ => simp [token] at h

def Thread.stopper : Thread → Bool
  | .stopWaiting => true
  | .cleaning .stopper _ => true
  | .returned (.stop (.ok _)) => true
  | _ => false

def Session.life (s : Session) : Life where
  state := s.state
  token t := (s.threads t).token (s.log.accepted t)
  stopper t := (s.threads t).stopper
  registered := s.registered
  permit := s.permit
  cleanups := s.log.cleanups
  first := s.log.first
  spawning := s.log.spawning

@[simp] theorem Session.life_state (s : Session) : s.life.state = s.state := rfl

/-- What holds in every reachable session. -/
structure Session.Sound (s : Session) : Prop where
  owned : s.life.Owned
  elected : s.life.Elected
  tidy : ∀ t, (s.slot t).Tidy

theorem Session.Sound.token_of_state {s : Session} (hs : s.Sound) {t : Nat}
    (hst : s.state = .action t) : s.life.token t = some (.work .action) := by
  obtain ⟨u, hu, hrun⟩ := hs.owned.operated .action (by rw [life_state, hst]; rfl)
  rw [life_state, hst] at hrun
  cases hrun
  exact hu

theorem Session.Sound.initializing_of_initializer {s : Session} (hs : s.Sound) {t : Nat}
    {pc : InitPc} (hth : s.threads t = .initializer pc) : s.state ≠ .initializing false := by
  intro hst
  have htoken : s.life.token t = some (.work .initializer) := by
    simp [Session.life, hth, Thread.token]
  rcases hs.owned.work t _ htoken with hrun | ⟨e, h⟩ | ⟨-, e, h⟩ | ⟨r, h⟩
  · rw [show s.life.state = _ from hst] at hrun
    cases hrun
  all_goals simp [life, hst] at h

theorem Session.Sound.updating_of_token {s : Session} (hs : s.Sound) {t : Nat}
    (htoken : s.life.token t = some (.work .update)) (u : Nat) (hst : s.state = .updating u) :
    u = t := by
  obtain ⟨k, hk, hrun⟩ := hs.owned.runs_of_token (by simp [hst, live]) htoken
  rw [life_state, hst] at hrun
  cases hrun
  rfl

variable {role : Role}

theorem Session.Sound.not_live_of_cleaning {s : Session} (hs : s.Sound) {t : Nat}
    {call : CleanupCall} (hth : s.threads t = .cleaning role call) : s.state.live = false :=
  hs.owned.clean_not_live (t := t) (by simp [Session.life, hth, Thread.token]; exact ⟨rfl, rfl, rfl⟩)

/-! ### The primitive updates -/

variable {pc : ActionPc} {o : Outcome}

namespace Session

variable {s : Session} {t : Nat}

theorem life_setThread (s : Session) (t : Nat) (th : Thread) :
    (s.setThread t th).life = { s.life with
      token := update s.life.token t (th.token (s.log.accepted t))
      stopper := update s.life.stopper t th.stopper } := by
  have htoken : (fun u => (update s.threads t th u).token (s.log.accepted u)) =
      update (fun u => (s.threads u).token (s.log.accepted u)) t (th.token (s.log.accepted t)) := by
    funext u
    by_cases hut : u = t
    · subst hut
      simp
    · simp [hut]
  have hstopper : (fun u => (update s.threads t th u).stopper) =
      update (fun u => (s.threads u).stopper) t th.stopper := by
    funext u
    by_cases hut : u = t
    · subst hut
      simp
    · simp [hut]
  simp [life, setThread, htoken, hstopper]

theorem life_setThread_give (hstop : th.stopper = (s.threads t).stopper) :
    (s.setThread t th).life = s.life.give t (th.token (s.log.accepted t)) := by
  rw [life_setThread, hstop]
  simp [give, life]

/-- Most steps only move a thread to its next program point. -/
theorem life_setThread_same {s₀ : Session} (hlife : s₀.life = s.life)
    (hthreads : s₀.threads = s.threads) (haccepted : s₀.log.accepted = s.log.accepted)
    (htoken : th.token (s.log.accepted t) = (s.threads t).token (s.log.accepted t))
    (hstop : th.stopper = (s.threads t).stopper) : (s₀.setThread t th).life = s.life := by
  rw [life_setThread_give (by rw [hstop, hthreads]), hlife, haccepted, htoken]
  simp [give, life]

theorem life_setThread_awaits (hth : s.threads t = .absent)
    (htoken : th.token (s.log.accepted t) = none) :
    (s.setThread t th).life = s.life.awaits t th.stopper := by
  rw [life_setThread, htoken]
  simp [Life.awaits, life, hth, Thread.stopper, Thread.token]

theorem life_startCleanup {e : Bool} (hstop : (s.threads t).stopper = false) :
    (s.startCleanup t role e).life =
      (s.life.cleanUp t role.owner e).awaits t (decide (role = .stopper)) := by
  have htoken : (fun u => (update s.threads t
      (.cleaning role { explicit := e }) u).token (s.log.accepted u)) =
      update (fun u => (s.threads u).token (s.log.accepted u)) t
        (some (.clean role.owner e false)) := by
    funext u
    by_cases hut : u = t
    · subst hut
      simp [Thread.token, CleanupStage.unregistered]
    · simp [hut]
  have hstopper : (fun u => (update s.threads t (.cleaning role { explicit := e }) u).stopper) =
      update (fun u => (s.threads u).stopper) t (decide (role = .stopper)) := by
    funext u
    by_cases hut : u = t
    · subst hut
      cases role <;> simp [Thread.stopper]
    · simp [hut]
  simp [life, startCleanup, cleanUp, awaits, htoken, hstopper, hstop]

theorem life_setStream (s : Session) (t : Nat) (st : ActionStream) :
    (s.setStream t st).life = s.life := rfl

theorem life_noteAccepted (hth : s.threads t = .action pc) :
    (s.noteAccepted t).life = s.life.give t none := by
  have htoken : (fun u => (s.threads u).token (update s.log.accepted t true u)) =
      update (fun u => (s.threads u).token (s.log.accepted u)) t none := by
    funext u
    by_cases hut : u = t
    · subst hut
      simp [hth, Thread.token]
    · simp [hut]
  simp [life, noteAccepted, give, htoken]

theorem life_enter_live (hlive : o.state.live = true) :
    (s.enter t o).life = { s.life with state := o.state } := by
  have hnone : o.state.termination? = none := by
    cases hst : o.state <;> simp_all [live, termination?]
  simp [life, enter, hnone]

theorem life_enter_terminating (he : s.life.Elected) (hlive : s.state.live = true) {τ : Termination}
    (ho : o.state = .terminating τ) : (s.enter t o).life = s.life.terminate t τ := by
  have hfirst : s.log.first = none := he.live.mpr hlive
  simp [life, enter, terminate, ho, termination?, hfirst]

theorem life_enter_same (he : s.life.Elected) (ho : o.state = s.state) :
    (s.enter t o).life = s.life := by
  by_cases hlive : s.state.live = true
  · rw [life_enter_live (by rw [ho]; exact hlive), ho]
    rfl
  · obtain ⟨x, hx⟩ := Option.ne_none_iff_exists'.mp fun hnone => hlive (he.live.mp hnone)
    have hx : s.log.first = some x := hx
    simp [life, enter, ho, hx]

theorem perform_cleanup {e : Bool} (hv : o.verdict = .cleanup e) (role : Role)
    (next : Verdict → Thread) : s.perform t o role next = (s.enter t o).startCleanup t role e := by
  simp [perform, hv]

theorem perform_next {v : Verdict} (hv : o.verdict = v) (hne : ∀ e, v ≠ .cleanup e) (role : Role)
    (next : Verdict → Thread) : s.perform t o role next = (s.enter t o).setThread t (next v) := by
  subst hv
  unfold perform
  split
  · rename_i e he
    exact absurd he (hne e)
  · rfl

/-! ### Sections -/

theorem perform_requests {b stops e : Bool} {next : Verdict → Thread} (he : s.life.Elected)
    (hth : s.threads t = .absent) (hr : Requests e s.state o) (hrole : role.owner = .requester)
    (hstopper : decide (role = .stopper) = stops) (hstops : stops = true → e = true)
    (hnothing : ∀ c, (next .nothing).token c = none ∧ (next .nothing).stopper = false)
    (hdelegated : ∀ c, (next .delegated).token c = none ∧ (next .delegated).stopper = stops) :
    s.life.Step b (s.perform t o role next).life := by
  have htoken : s.life.token t = none := by simp [life, hth, Thread.token]
  cases hr with
  | nothing =>
    obtain ⟨hn, hs⟩ := hnothing (s.log.accepted t)
    rw [perform_next (v := .nothing) rfl (by simp), life_setThread_same (life_enter_same he rfl) rfl
      rfl (by rw [hn, hth]; rfl) (by rw [hs, hth]; rfl)]
    exact .skip
  | marks k c op hst =>
    obtain ⟨hn, hs⟩ := hdelegated (s.log.accepted t)
    rw [perform_next (v := .delegated) rfl (by simp), life_setThread_awaits (s := s.enter t _) hth hn, hs,
      life_enter_terminating he (live_of_operation hst) rfl]
    exact .mark t k e stops hst hstops
  | elects c op hst =>
    rw [perform_cleanup rfl, life_startCleanup (by simp [enter, hth, Thread.stopper]), hrole,
      hstopper, life_enter_terminating he (live_of_idle hst) rfl]
    exact .elect t e stops hst htoken hstops

variable {k : CleanupOwner}

theorem perform_releases {b : Bool} {now : Nat} (htoken : s.life.token t = some (.work k))
    (hstop : s.life.stopper t = false) (hrun : Runs t s.state k) (role : Role)
    (next : Verdict → Thread)
    (hproceed : ∀ c, (next .proceed).token c = none ∧ (next .proceed).stopper = false) :
    s.life.Step b (s.perform t { state := .ready now, verdict := .proceed } role next).life := by
  obtain ⟨hn, hs⟩ := hproceed (s.log.accepted t)
  rw [perform_next (v := .proceed) rfl (by simp),
    life_setThread_give (s := s.enter t _) (by rw [hs]; exact hstop.symm), life_enter_live rfl]
  exact hn ▸ .release t k now htoken hrun

theorem perform_concludes {b : Bool} {next : Verdict → Thread} (ho : s.life.Owned)
    (he : s.life.Elected) (htoken : s.life.token t = some (.work k))
    (hstop : s.life.stopper t = false) (hc : Concludes k t s.state o)
    (hrole : (∃ e, o.verdict = .cleanup e) → role.owner = k) (hstopper : role ≠ .stopper)
    (hnothing : ∀ c, (next .nothing).token c = none ∧ (next .nothing).stopper = false)
    (hproceed : ∀ c, (next .proceed).token c = none ∧ (next .proceed).stopper = false) :
    s.life.Step b (s.perform t o role next).life := by
  cases hc with
  | releases now hrun => exact perform_releases htoken hstop hrun role next hproceed
  | ends hrun =>
    rw [perform_cleanup rfl, life_startCleanup (s := s.enter t _) hstop, hrole ⟨_, rfl⟩,
      life_enter_terminating he (live_of_operation hrun.operation) rfl]
    simpa [hstopper] using Step.finish t k htoken hrun
  | joins e hst =>
    rw [perform_cleanup rfl, life_startCleanup (s := s.enter t _) hstop, hrole ⟨_, rfl⟩, life_enter_same he rfl]
    simpa [hstopper] using Step.join t k e htoken hst
  | nothing hrun hst =>
    obtain ⟨hn, hs⟩ := hnothing (s.log.accepted t)
    rw [perform_next (v := .nothing) rfl (by simp),
      life_setThread_give (s := s.enter t _) (by rw [hs]; exact hstop.symm), life_enter_same he rfl]
    refine hn ▸ .lost t k htoken ?_ (fun e hst' => absurd hst' (hst e))
    rcases ho.work t k htoken with h | ⟨e, h⟩ | ⟨-, e, h⟩ | ⟨r, h⟩
    · exact absurd h hrun
    all_goals rw [h]; rfl

/-- The same section run by a worker that has already given its token up:
it does nothing, or it is the stray cleanup. -/
theorem perform_stray {b : Bool} {next : Verdict → Thread} (he : s.life.Elected)
    (htoken : s.life.token t = none) (hstop : s.life.stopper t = false)
    (hc : Concludes k t s.state o) (hrun : ¬ Runs t s.state k)
    (hrole : (∃ e, o.verdict = .cleanup e) → role.owner = k) (hstopper : role ≠ .stopper)
    (hnothing : ∀ c, (next .nothing).token c = none ∧ (next .nothing).stopper = false)
    (hb : b = false → ∀ e, s.state ≠ .terminating ⟨e, k⟩) :
    s.life.Step b (s.perform t o role next).life := by
  cases hc with
  | releases now h => exact absurd h hrun
  | ends h => exact absurd h hrun
  | joins e hst =>
    have hb : b = true := by
      by_contra hne
      exact hb (by simpa using hne) e hst
    rw [perform_cleanup rfl, life_startCleanup (s := s.enter t _) hstop, hrole ⟨_, rfl⟩, life_enter_same he rfl]
    simpa [hstopper] using Step.strayJoin hb t k e htoken hst
  | nothing hrun hst =>
    obtain ⟨hn, hs⟩ := hnothing (s.log.accepted t)
    rw [perform_next (v := .nothing) rfl (by simp), life_setThread_same (life_enter_same he rfl) rfl
      rfl (by rw [hn]; exact htoken.symm) (by rw [hs]; exact hstop.symm)]
    exact .skip

end Session

/-! ### Steps -/

/-- Thread `t` acts on a session that is no longer its own: it runs
`finish_action` after its delivery was acknowledged, it handles a panic that
came after its update was over, or it panics in the middle of a cleanup. -/
def Session.strays (s : Session) : Event → Bool
  | .run t _ =>
    match s.threads t, s.state with
    | .action .finish, .terminating τ => s.log.accepted t && τ.owner == .action
    | .update _ (.panicLookedUp late), .updating _ => late
    | .update _ (.panicLookedUp late), .terminating τ => late && τ.owner == .update
    | _, _ => false
  | .panic t =>
    match s.threads t with
    | .cleaning _ _ => true
    | _ => false
  | _ => false

section
variable {cfg : SessionConfig} {s s' : Session} {t : Nat} {b : Bool}

variable {op : Call}

theorem CallStep.refines (h : CallStep s t op s') (hs : s.Sound) (hth : s.threads t = .absent) :
    s.life.Step b s'.life := by
  have htoken : s.life.token t = none := by simp [Session.life, hth, Thread.token]
  cases h with
  | request o hr =>
    exact Session.perform_requests hs.elected hth (hr hs.owned.spawning) rfl rfl (by simp)
      (fun _ => ⟨rfl, rfl⟩) (fun _ => ⟨rfl, rfl⟩)
  | stop =>
    exact Session.perform_requests hs.elected hth (terminateLive_requests true _) rfl rfl
      (fun _ => rfl) (fun _ => ⟨rfl, rfl⟩) (fun _ => ⟨rfl, rfl⟩)
  | begin hst =>
    rw [Session.perform_next (v := .proceed) rfl (by simp),
      Session.life_setThread_give (s := s.enter t _) (by simp [Session.enter, hth, Thread.stopper]),
      Session.life_enter_live rfl]
    exact .begin t hst htoken
  | reject r hr =>
    have hr : (Thread.returned r).stopper = false := by
      cases r with
      | stop result => cases result <;> first | rfl | cases hr
      | _ => rfl
    rw [Session.life_setThread_awaits hth rfl, hr, Life.awaits_false]
    exact .skip
  | startAction n hst =>
    have haccepted : s.log.accepted t = false := ((hs.tidy t).absent hth).2.1
    rw [Session.life_setStream, Session.life_setThread_give (by simp [hth, Thread.stopper]),
      haccepted]
    exact .start t .action _ n hst htoken (by simp) .action
  | startUpdate n request hop hst hstarts =>
    rw [Session.life_setThread_give (by simp [hth, Thread.stopper])]
    exact .start t .update _ n hst htoken (by simp) .update

variable {answer : Answer}

theorem InitStep.refines {pc : InitPc} (h : InitStep cfg s t pc answer s') (hs : s.Sound)
    (hth : s.threads t = .initializer pc) : s.life.Step b s'.life := by
  have htoken : s.life.token t = some (.work .initializer) := by
    simp [Session.life, hth, Thread.token]
  have hstop : s.life.stopper t = false := by simp [Session.life, hth, Thread.stopper]
  have hstate : s.state ≠ .initializing false := hs.initializing_of_initializer hth
  -- a step to another point of the worker that leaves the lifecycle alone
  have hmove : ∀ (s₀ : Session) pc', s₀.life = s.life → s₀.threads = s.threads →
      s₀.log.accepted = s.log.accepted →
      s.life.Step b (s₀.setThread t (.initializer pc')).life := by
    intro s₀ pc' hlife hthreads haccepted
    rw [Session.life_setThread_same hlife hthreads haccepted (by rw [hth]; rfl) (by rw [hth]; rfl)]
    exact .skip
  cases h with
  | recordStart w hw =>
    rw [Session.life_setThread_same (s := s.noteSpawning) (by rfl) (by rfl) (by rfl)
      (by simp [Session.noteSpawning, hth, Thread.token])
      (by simp [Session.noteSpawning, hth, Thread.stopper])]
    exact .spawn t htoken
  | pass => exact hmove _ _ (Session.life_enter_same hs.elected rfl) rfl rfl
  | abandon pc' hpc hpc' =>
    rcases abandonInitialization_cases hstate with hsame | ⟨hst, hab⟩
    · exact hmove _ pc' (Session.life_enter_same hs.elected hsame) rfl rfl
    · rw [Session.life_setThread_same (s := s.enter t _) rfl rfl rfl
        (by simp [Session.enter, hth, Thread.token]) (by simp [Session.enter, hth, Thread.stopper]),
        Session.life_enter_terminating hs.elected (by rw [hst]; rfl) hab]
      simpa using Life.Step.mark t .initializer false false (by simp [hst, SessionState.operation])
        (by simp)
  | win started hst =>
    obtain rfl : started = true := by
      by_contra hne
      exact hstate (by simpa [hst] using hne)
    exact Session.perform_releases htoken hstop (by rw [hst]; exact .initializer) .initializer
      (fun _ => .returned .unit) (fun _ => ⟨rfl, rfl⟩)
  | cleanup =>
    exact Session.perform_concludes hs.owned hs.elected htoken hstop
      (initializerCleanup_concludes t hstate) (fun _ => rfl) (by simp) (fun _ => ⟨rfl, rfl⟩)
      (fun _ => ⟨rfl, rfl⟩)
  | _ => exact hmove _ _ rfl rfl rfl

theorem ActionStep.refines (h : ActionStep s t pc answer s') (hs : s.Sound)
    (hth : s.threads t = .action pc) (hb : b = false → s.strays (.run t answer) = false) :
    s.life.Step b s'.life := by
  have hstop : s.life.stopper t = false := by simp [Session.life, hth, Thread.stopper]
  have hmove : ∀ (s₀ : Session) pc', s₀.life = s.life → s₀.threads = s.threads →
      s₀.log.accepted = s.log.accepted → s.life.Step b (s₀.setThread t (.action pc')).life := by
    intro s₀ pc' hlife hthreads haccepted
    rw [Session.life_setThread_same hlife hthreads haccepted (by rw [hth]; rfl) (by rw [hth]; rfl)]
    exact .skip
  cases h with
  | send dl =>
    exact hmove _ _ rfl rfl rfl
  | receive dl hack =>
    -- the acknowledgement was read: the token is long gone
    have haccepted : s.log.accepted t = true := (hs.tidy t).accepted.mpr (.inr hack)
    rw [Session.life_setThread_same (by rfl) (by rfl) (by rfl)
      (by simp [hth, haccepted, Thread.token]) (by simp [hth, Thread.stopper])]
    exact .skip
  | finish =>
    by_cases haccepted : s.log.accepted t = true
    · have htoken : s.life.token t = none := by simp [Session.life, hth, Thread.token, haccepted]
      refine Session.perform_stray hs.elected htoken hstop (finishAction_concludes _ _ _ _) ?_
        (fun _ => rfl) (by simp) (fun _ => ⟨rfl, rfl⟩) ?_
      · intro hrun
        obtain ⟨u, hu, hrunu⟩ := hs.owned.operated .action hrun.operation
        rw [Session.life_state, hrun.state_action] at hrunu
        cases hrunu
        simp [htoken] at hu
      · intro hfalse e hst
        simpa [Session.strays, hth, hst, haccepted] using hb hfalse
    · refine Session.perform_concludes hs.owned hs.elected ?_ hstop (finishAction_concludes _ _ _ _)
        (fun _ => rfl) (by simp) (fun _ => ⟨rfl, rfl⟩) (fun _ => ⟨rfl, rfl⟩)
      simp [Session.life, hth, Thread.token, haccepted]
  | _ => exact hmove _ _ rfl rfl rfl

variable {request : UpdateRequest}

theorem UpdateStep.refines {pc : UpdatePc} (h : UpdateStep cfg s t request pc s') (hs : s.Sound)
    (hth : s.threads t = .update request pc) (hb : b = false → s.strays (.run t answer) = false) :
    s.life.Step b s'.life := by
  have hstop : s.life.stopper t = false := by simp [Session.life, hth, Thread.stopper]
  have hmove : ∀ (s₀ : Session) th, s₀.life = s.life → s₀.threads = s.threads →
      s₀.log.accepted = s.log.accepted → th.token (s.log.accepted t) = s.life.token t →
      th.stopper = false → s.life.Step b (s₀.setThread t th).life := by
    intro s₀ th hlife hthreads haccepted htoken hstopper
    rw [Session.life_setThread_same hlife hthreads haccepted htoken (by rw [hstopper, ← hstop]; rfl)]
    exact .skip
  cases h with
  | applyFail md err pc' herr hpc' =>
    rcases hpc' with rfl | rfl <;>
      exact hmove _ _ rfl rfl rfl (by simp [Session.life, hth, Thread.token]) rfl
  | succeed changed deleted hst =>
    exact Session.perform_releases (t := t) (k := .update) (by simp [Session.life, hth, Thread.token])
      hstop (by rw [hst]; exact .update) (.update request workerPanicked)
      (fun _ => .update request (.returning (.ok (updateResponse cfg t request changed deleted))))
      (fun _ => ⟨rfl, rfl⟩)
  | giveBack err herr hst =>
    exact Session.perform_releases (t := t) (k := .update) (by simp [Session.life, hth, Thread.token])
      hstop (by rw [hst]; exact .update) (.update request err)
      (fun _ => .update request (.returning (.error err))) (fun _ => ⟨rfl, rfl⟩)
  | conclude hpc o err err' ho hv =>
    have htoken : s.life.token t = some (.work .update) := by
      rcases hpc with ⟨_, rfl⟩ | ⟨_, _, rfl⟩ <;> simp [Session.life, hth, Thread.token]
    exact Session.perform_concludes hs.owned hs.elected htoken hstop
      (ho (hs.updating_of_token htoken)) (fun _ => rfl) (by simp) (fun _ => ⟨rfl, rfl⟩)
      (fun _ => ⟨rfl, rfl⟩)
  | lookUpFail late hreg =>
    -- the session is unknown to the handler, so somebody is past its cleanup
    cases late with
    | true => exact hmove _ _ rfl rfl rfl (by simp [Session.life, hth, Thread.token]) rfl
    | false =>
      have htoken : s.life.token t = some (.work .update) := by
        simp [Session.life, hth, Thread.token]
      rw [Session.life_setThread_give (by simp [hth, Thread.stopper])]
      refine .lost t .update htoken ?_ (fun e _ => hreg)
      by_contra hlive
      have hregistered := hs.owned.registered_of_live (by simpa using hlive)
      rw [show s.life.registered = _ from hreg] at hregistered
      cases hregistered
  | handle late owner howner =>
    cases late with
    | false =>
      have htoken : s.life.token t = some (.work .update) := by
        simp [Session.life, hth, Thread.token]
      rcases updateWorkerPanicked_cases s.state with ⟨u, hst, ho⟩ | ⟨e, hst, ho⟩ | ⟨hst, hterm, ho⟩
      · obtain rfl := hs.updating_of_token htoken u hst
        obtain rfl : owner = .requester := howner ⟨false, .requester⟩ (by rw [ho])
        rw [ho, Session.perform_cleanup rfl, Session.life_startCleanup (s := s.enter u _) hstop,
          Session.life_enter_terminating hs.elected (by rw [hst]; rfl) rfl]
        simpa [Role.owner] using Life.Step.panicElect u htoken hst
      · exact Session.perform_concludes hs.owned hs.elected htoken hstop
          (by rw [ho]; exact .joins e hst) (fun _ => howner ⟨e, .update⟩ (by rw [ho, hst])) (by simp)
          (fun _ => ⟨rfl, rfl⟩) (fun _ => ⟨rfl, rfl⟩)
      · exact Session.perform_concludes hs.owned hs.elected htoken hstop
          (by rw [ho]; exact .nothing (fun hrun => hst ⟨t, hrun.state_update⟩) hterm)
          (by simp [ho, Outcome.unchanged]) (by simp) (fun _ => ⟨rfl, rfl⟩) (fun _ => ⟨rfl, rfl⟩)
    | true =>
      have htoken : s.life.token t = none := by simp [Session.life, hth, Thread.token]
      rcases updateWorkerPanicked_cases s.state with ⟨u, hst, ho⟩ | ⟨e, hst, ho⟩ | ⟨hst, hterm, ho⟩
      · have htrue : b = true := by
          by_contra hne
          simpa [Session.strays, hth, hst] using hb (by simpa using hne)
        obtain rfl : owner = .requester := howner ⟨false, .requester⟩ (by rw [ho])
        rw [ho, Session.perform_cleanup rfl, Session.life_startCleanup (s := s.enter t _) hstop,
          Session.life_enter_terminating hs.elected (by rw [hst]; rfl) rfl]
        simpa [Role.owner] using Life.Step.strayElect htrue t u htoken hst
      · exact Session.perform_stray hs.elected htoken hstop (by rw [ho]; exact .joins e hst)
          (fun hrun => by simp [hst] at hrun; cases hrun)
          (fun _ => howner ⟨e, .update⟩ (by rw [ho, hst])) (by simp)
          (fun _ => ⟨rfl, rfl⟩) (fun hfalse => by simpa [Session.strays, hth, hst] using hb hfalse)
      · exact Session.perform_stray hs.elected htoken hstop
          (by rw [ho]; exact .nothing (fun hrun => hst ⟨t, hrun.state_update⟩) hterm)
          (fun hrun => hst ⟨t, hrun.state_update⟩) (by simp [ho, Outcome.unchanged]) (by simp)
          (fun _ => ⟨rfl, rfl⟩) (fun _ => hterm)
  | _ => exact hmove _ _ rfl rfl rfl (by simp [Session.life, hth, Thread.token]) rfl

theorem Role.result_stopper (role : Role) (call : CleanupCall) (response : SessionStopResponse) :
    (returned (role.result response)).stopper = (cleaning role call).stopper := by
  cases role <;> rfl

theorem CleanupStage.unregistered_of_middle {stage : CleanupStage} (h : stage.middle = true) :
    stage.unregistered = false := by
  cases stage <;> first | rfl | cases h

theorem CleanupStep.refines {call : CleanupCall} (h : CleanupStep s t role call s')
    (hth : s.threads t = .cleaning role call) : s.life.Step b s'.life := by
  have hstopper : ∀ call', (cleaning role call').stopper = (s.threads t).stopper := by
    intro call'
    rw [hth]
    cases role <;> rfl
  have hmove : ∀ (s₀ : Session) call', s₀.life = s.life → s₀.threads = s.threads →
      s₀.log.accepted = s.log.accepted → call'.explicit = call.explicit →
      call'.stage.unregistered = call.stage.unregistered →
      s.life.Step b (s₀.setThread t (.cleaning role call')).life := by
    intro s₀ call' hlife hthreads haccepted he hstage
    rw [life_setThread_same hlife hthreads haccepted
      (by simp [hth, Thread.token, he, hstage]) (hstopper call')]
    exact .skip
  have htoken : s.life.token t =
      some (.clean role.owner call.explicit call.stage.unregistered) := by
    simp [Session.life, hth, Thread.token]
  cases h with
  | move call' workspace archives hstage hstage' hexplicit =>
    refine hmove _ _ rfl rfl rfl hexplicit ?_
    rw [unregistered_of_middle hstage]
    rcases hstage' with h | h
    · exact unregistered_of_middle h
    · rw [h]
      rfl
  | unregister hstage =>
    rw [life_setThread_give (s := { s with registered := false }) (hstopper _)]
    exact .unregister t _ _ (by simpa [hstage, unregistered] using htoken)
  | releasePermit hstage =>
    rw [life_setThread_same (s := { s with permit := false }) rfl rfl rfl
      (by simp [hth, hstage, Thread.token, CleanupStage.unregistered]) (hstopper _)]
    exact .releasePermit t _ _ (by simpa [hstage, unregistered] using htoken)
  | publish response hstage =>
    rw [life_setThread_give (s := { s with state := .terminated _ })
      ((Role.result_stopper role call _).trans (hstopper call))]
    exact .publish t _ _ _ (by simpa [hstage, unregistered] using htoken)
  | take hstage | stop _ _ _ _ hstage | keepMetadata hstage | removeMetadata _ hstage =>
    exact hmove _ _ rfl rfl rfl rfl (by simp [hstage, unregistered])

theorem Session.Turns.refines (h : s.Turns t o) (hs : s.Sound) :
    s.life.Step b (s.enter t o).life := by
  cases h with
  | nothing =>
    rw [life_enter_same hs.elected rfl]
    exact .skip
  | ends hst =>
    rw [life_enter_terminating hs.elected (by rw [hst]; rfl) rfl]
    simpa using Step.mark t .action false false (by simp [hst, operation])
      (by simp)

theorem StreamStep.refines {op : StreamOp} (h : StreamStep cfg s t op s') (hs : s.Sound) :
    s.life.Step b s'.life := by
  cases h with
  | receive | sendAck | close => exact .skip
  | accept hphase hst ho =>
    obtain ⟨⟨pc, hth⟩, -⟩ := action_of_token (hs.token_of_state hst)
    rw [life_noteAccepted (s := (s.enter t _).setStream t _) hth, life_setStream,
      life_enter_live rfl]
    exact .release t .action s.now (hs.token_of_state hst) (by rw [life_state, hst]; exact .action)
  | refuse hphase o ho => exact ho.refines hs
  | drop hphase o ho => exact ho.refines hs

theorem Thread.panicPoint_cases {late : Bool} (h : th.panicPoint = some (request, late)) :
    (∃ pc, th = .update request pc ∧ ∀ c, (update request (.panicked late)).token c = th.token c) ∨
    (∃ err call, th = .cleaning (.update request err) call ∧ late = false ∧
      call.stage.unregistered = false) := by
  cases th with
  | update request' pc => cases pc <;> simp_all [panicPoint, token]
  | cleaning role call =>
    cases role with
    | update request' err =>
      right
      cases hstage : call.stage <;> simp_all [panicPoint, unregistered]
    | _ => simp [panicPoint] at h
  | _ => simp [panicPoint] at h

variable {e : Event}

theorem SessionStep.refines (h : SessionStep cfg s e s') (hs : s.Sound)
    (hb : b = false → s.strays e = false) : s.life.Step b s'.life := by
  cases h with
  | tick | cancelInitialization | cancelAction => exact .skip
  | call t op hth h => exact h.refines hs hth
  | init t pc answer hth h => exact h.refines hs hth
  | action t pc answer hth h => exact h.refines hs hth hb
  | update t request pc answer hth h => exact h.refines hs hth hb
  | cleanup t role call answer hth h => exact h.refines hth
  | answer t answer response hth hst =>
    rw [life_setThread_same (by rfl) (by rfl) (by rfl) (by rw [hth]; rfl)
      (by rw [hth]; rfl)]
    exact .skip
  | stream t op h => exact h.refines hs
  | panic t request late hpoint =>
    rcases panicPoint_cases hpoint with ⟨pc, hth, hpc⟩ | ⟨err, call, hth, rfl, hstage⟩
    · rw [life_setThread_same (by rfl) (by rfl) (by rfl) (hpc _) (by rw [hth]; rfl)]
      exact .skip
    · have htrue : b = true := by
        by_contra hne
        simpa [strays, hth] using hb (by simpa using hne)
      rw [life_setThread_give (by rw [hth]; rfl)]
      exact .abort htrue t call.explicit
        (by simp [Session.life, hth, Thread.token, hstage, Role.owner])

/-! ### Runs -/

theorem CallStep.tidy (h : CallStep s t op s') (hx : (s.slot t).Tidy) (hth : s.threads t = .absent) :
    (s'.slot t).Tidy := by
  rcases h.plain hth with ⟨th, r, hplain, hof, hslot⟩ | hslot
  · rw [hslot]
    exact hx.plain hplain hof
  · rw [hslot]
    obtain ⟨hstream, hacc, hpub⟩ := hx.absent hth
    refine ⟨by rintro ⟨⟩, by simp [hacc], fun _ => rfl, by rintro ⟨⟩, ?_, fun _ => hpub, ?_,
      by rintro ⟨⟩, fun _ => rfl⟩
    · rintro pc ⟨⟩ -
      exact ⟨rfl, rfl, rfl⟩
    · rintro pc ⟨⟩ ⟨⟩

theorem SessionStep.tidy (h : SessionStep cfg s e s') (hs : s.Sound) (t : Nat) :
    (s'.slot t).Tidy := by
  by_cases ht : e.thread = some t
  · have hplain : s.Plain s' t → (s'.slot t).Tidy := by
      rintro ⟨th, r, hth, hof, hslot⟩
      rw [hslot]
      exact (hs.tidy t).plain hth hof
    cases h with
    | tick | cancelInitialization | cancelAction => cases ht
    | call u op hth h => cases ht; exact h.tidy (hs.tidy t) hth
    | init u pc answer hth h => cases ht; exact hplain (h.plain hth)
    | action u pc answer hth h => cases ht; exact h.tidy (hs.tidy t) hth
    | update u request pc answer hth h => cases ht; exact hplain (h.plain hth)
    | cleanup u role call answer hth h => cases ht; exact hplain (h.plain hth)
    | answer u answer response hth hst =>
      cases ht
      exact hplain (plain_setThread rfl (by rw [hth]; rfl) rfl)
    | stream u op h => cases ht; exact h.tidy (hs.tidy t)
    | panic u request late hpoint =>
      cases ht
      refine hplain (plain_setThread rfl ?_ rfl)
      rcases panicPoint_cases hpoint with ⟨pc, hth, -⟩ | ⟨err, call, hth, -⟩ <;>
        simp [hth, ofAction]
  · rw [h.slot ht]
    exact hs.tidy t

theorem step_refines (hs : s.Sound) (h : step cfg s e = some s')
    (hb : b = false → s.strays e = false) : s.life.Step b s'.life :=
  (step_cases h).refines hs hb

theorem Session.Sound.step (hs : s.Sound) (h : step cfg s e = some s') : s'.Sound := by
  have hlife : s.life.Step true s'.life := step_refines hs h (by simp)
  exact ⟨hs.owned.step hlife, hs.elected.step hs.owned hlife, (step_cases h).tidy hs⟩

theorem Session.reserved_sound : reserved.Sound := by
  refine ⟨Owned.of_idle (fun _ => rfl) rfl rfl (by rintro ⟨⟩), ?_, fun t => ?_⟩
  · refine ⟨by simp [life, reserved, live], ?_, ?_, ?_⟩
    · rintro τ ⟨⟩
    · rintro t k e g ⟨⟩
    · rintro t ⟨⟩
  · refine ⟨fun _ => ⟨rfl, rfl, rfl⟩, ?_, fun _ => rfl, ?_, ?_, ?_, ?_, ?_, ?_⟩
    · simp [slot, reserved]
    · rintro ⟨⟩
    · rintro pc ⟨⟩
    · rintro (h | h) <;> cases h
    · rintro pc ⟨⟩
    · rintro ⟨⟩
    · rintro ⟨⟩

variable {es : List Event}

theorem sound_of_exec
    (h : Foundation.exec (IndenturedServer.Sessions.step cfg) .reserved es = some s) : s.Sound :=
  Foundation.exec_invariant_all (fun _ _ _ hs hstep => hs.step hstep) reserved_sound h

theorem Session.reserved_single : reserved.life.Single :=
  Single.of_work (t := 0) rfl (fun _ _ => rfl) (by rintro k e g ⟨⟩) (by rintro r ⟨⟩) ⟨rfl, rfl⟩

theorem single_of_exec
    (h : Foundation.exec (IndenturedServer.Sessions.step cfg) .reserved es = some s)
    (hstrays : Foundation.Meets (IndenturedServer.Sessions.step cfg)
      (fun s e => s.strays e = false) .reserved es) : s.life.Single := by
  have hinv : s.Sound ∧ s.life.Single := by
    refine Foundation.exec_invariant (P := fun s => s.Sound ∧ s.life.Single) ?_
      ⟨reserved_sound, reserved_single⟩ hstrays h
    rintro s e s' ⟨hs, hsingle⟩ hok hstep
    exact ⟨hs.step hstep, hsingle.step hs.owned (step_refines hs hstep fun _ => hok)⟩
  exact hinv.2

end

end IndenturedServer.Sessions
