import IndenturedServer.Sessions.Refinement

/-!
Who cleans a session up, and when.

The README promises one terminating owner, and a teardown that runs at most
once. The first half holds along every run: a terminating session always has
a thread that is going to clean it up (`terminating_has_owner`). The second
half holds as long as no thread strays (`cleanup_exclusive`). Before that, a
live session has at most one worker.
-/

namespace IndenturedServer.Sessions

open Foundation

/-! ### At most one cleanup -/

/-- Thread `t` is a worker that the session still belongs to. A worker
whose delivery was acknowledged is past its last use of the workspace: it
waits for the acknowledgement and looks after its own archive. -/
def Session.operating (s : Session) (t : Nat) : Bool :=
  match s.threads t with
  | .initializer _ => true
  | .action _ => !s.log.accepted t
  | .update _ (.returning _) => false
  | .update _ (.panicked late) => !late
  | .update _ (.panicLookedUp late) => !late
  | .update _ _ => true
  | _ => false

theorem Session.token_of_operating {s : Session} {t : Nat} (h : s.operating t = true) :
    ∃ k, s.life.token t = some (.work k) := by
  unfold Session.operating at h
  split at h <;> simp_all [Session.life, Thread.token]

/-- As long as no thread acts on a session that is no longer its own,
`cleanup_entry` runs at most once, no worker has the session while it runs,
and none has it once the permit is gone. -/
theorem cleanup_exclusive {cfg : SessionConfig} {es : List Event} {s : Session}
    (hrun : exec (step cfg) .reserved es = some s)
    (hstrays : Meets (step cfg) (fun s e => s.strays e = false) .reserved es) :
    s.log.cleanups ≤ 1 ∧
    (∀ t role call, s.threads t = .cleaning role call → ∀ u, u ≠ t → s.operating u = false) ∧
    (s.permit = false → ∀ u, s.operating u = false) := by
  have hsingle := single_of_exec hrun hstrays
  refine ⟨?_, ?_, ?_⟩
  · show s.life.cleanups ≤ 1
    by_cases hterm : ∃ r, s.life.state = .terminated r
    · obtain ⟨r, hr⟩ := hterm
      exact (hsingle.done r hr).1.le
    · by_cases hclean : ∃ t k e g, s.life.token t = some (.clean k e g)
      · obtain ⟨t, k, e, g, ht⟩ := hclean
        exact (hsingle.counted t k e g ht).le
      · have hzero := hsingle.untouched (fun r hr => hterm ⟨r, hr⟩)
          (fun t k e g ht => hclean ⟨t, k, e, g, ht⟩)
        omega
  · intro t role call hth u hut
    by_contra hop
    obtain ⟨k, hk⟩ := Session.token_of_operating (by simpa using hop)
    have ht : s.life.token t ≠ none := by simp [Session.life, hth, Thread.token]
    exact hut (hsingle.unique u t (by simp [hk]) ht)
  · intro hpermit u
    by_contra hop
    obtain ⟨k, hk⟩ := Session.token_of_operating (by simpa using hop)
    rw [show s.permit = true from (hsingle.cleanups_of_work hk).2] at hpermit
    cases hpermit

theorem cleanup_exclusive_stop : ∃ s,
    exec (step sampleConfig) .reserved (readyRun ++ [.call 1 .stop]) = some s ∧
    s.log.cleanups = 1 ∧ s.log.cleanups ≤ 1 ∧
    (∀ t role call, s.threads t = .cleaning role call → ∀ u, u ≠ t → s.operating u = false) ∧
    (s.permit = false → ∀ u, s.operating u = false) :=
  ⟨_, rfl, rfl, cleanup_exclusive
    (show exec (step sampleConfig) .reserved (readyRun ++ [.call 1 .stop]) = _ from rfl)
    (by decide)⟩

/-- Action 1 is acknowledged just when its worker gives up waiting. By the
time the worker runs `finish_action`, action 2 has the session and a `stop`
call has marked it. -/
def staleFinishRun : List Event :=
  readyRun ++ deliveryRun 1 none ++
    [.stream 1 .receiveFinal, .tick 5000, .stream 1 .acknowledge, .run 1 .go,
      .run 1 (.removed true), .call 2 (.startAction "build"), .call 3 .stop, .run 1 .go]

/-- The cleanup of the stray worker up to the release of the permit. -/
def strayCleanupRun : List Event :=
  [.run 1 .go, .run 1 .go, .run 1 (.tornDown ⟨0, some 0, false, none⟩),
    .run 1 (.collected none none), .run 1 (.removed true), .run 1 (.removed true), .run 1 .go,
    .run 1 .go]

/-- Without a panic, the worker of an acknowledged action cleans up under
the action that runs now, gives the permit back, and the session is cleaned
up a second time. -/
theorem stale_finish_cleans_up_twice :
    (∃ s, exec (step sampleConfig) .reserved (staleFinishRun ++ strayCleanupRun) = some s ∧
      (∃ call, s.threads 1 = .cleaning .action call) ∧ s.threads 2 = .action .run ∧
      s.operating 2 = true ∧ s.permit = false) ∧
    (∃ s, exec (step sampleConfig) .reserved (staleFinishRun ++ strayCleanupRun ++
      [.run 2 (.failed "cancelled"), .run 2 .go]) = some s ∧ s.log.cleanups = 2) :=
  ⟨⟨_, rfl, ⟨_, rfl⟩, rfl, rfl, rfl⟩, ⟨_, rfl, rfl⟩⟩

/-! ### At most one worker -/

/-- A live session is registered, and at most one thread operates in it, the one
that its state accounts for, whether or not threads stray. -/
theorem live_session_exclusive {cfg : SessionConfig} {es : List Event} {s : Session}
    (hrun : exec (step cfg) .reserved es = some s) (hlive : s.state.live = true) :
    s.registered = true ∧ ∀ t, s.operating t = true →
      (∃ k, s.life.token t = some (.work k) ∧ Runs t s.state k) ∧
      ∀ u ≠ t, s.operating u = false := by
  have howned := (sound_of_exec hrun).owned
  refine ⟨howned.registered_of_live hlive, fun t ht => ?_⟩
  obtain ⟨k, hk⟩ := Session.token_of_operating ht
  obtain ⟨_, ⟨⟩, hruns⟩ := howned.runs_of_token hlive hk
  refine ⟨⟨k, hk, hruns⟩, fun u hut => ?_⟩
  by_contra hop
  obtain ⟨k', hk'⟩ := Session.token_of_operating (by simpa using hop)
  simp [howned.others_of_runs hk hruns hut] at hk'

theorem live_session_exclusive_action : ∃ s,
    exec (step sampleConfig) .reserved (readyRun ++ [.call 1 (.startAction "build")]) = some s ∧
    s.operating 1 = true ∧ ∀ u ≠ 1, s.operating u = false :=
  ⟨_, rfl, rfl, ((live_session_exclusive (show exec (step sampleConfig) .reserved
    (readyRun ++ [.call 1 (.startAction "build")]) = _ from rfl) rfl).2 1 rfl).2⟩

/-! ### A terminating session has an owner -/

section
variable (cfg : SessionConfig) (s : Session) (t : Nat)

theorem initStep_enabled (pc : InitPc) : ∃ answer, (initStep cfg s t pc answer).isSome = true := by
  cases pc with
  | initializeSession => exact ⟨.initialized true true, rfl⟩
  | spawnService rest =>
    cases rest with
    | nil => exact ⟨.go, rfl⟩
    | cons service rest =>
      refine ⟨.failed "", ?_⟩
      simp only [initStep]
      split <;> rfl
  | recordStart | recordService rest | commitMetadata => exact ⟨.wrote .ok, rfl⟩
  | dropMetadata => exact ⟨.removed true, rfl⟩
  | waitReady rest | commitCheck | commitFailed | commitElection | cleanup => exact ⟨.go, rfl⟩

theorem actionStep_enabled (pc : ActionPc) :
    ∃ answer, (actionStep cfg s t pc answer).isSome = true := by
  cases pc with
  | snapshot => exact ⟨.collected none none, rfl⟩
  | enqueueSend dl =>
    refine ⟨.go, ?_⟩
    simp only [actionStep]
    split <;> rfl
  | ackPoll dl =>
    refine ⟨.go, ?_⟩
    simp only [actionStep]
    split <;> rfl
  | discard => exact ⟨.removed true, rfl⟩
  | _ => exact ⟨.go, rfl⟩

theorem updateStep_enabled (request : UpdateRequest) (pc : UpdatePc) :
    ∃ answer, (updateStep cfg s t request pc answer).isSome = true := by
  cases pc with
  | begin =>
    refine ⟨.go, ?_⟩
    simp only [updateStep]
    cases nextRevision request.baseRevision <;> rfl
  | apply md => exact ⟨.applyFailed .internal "" false, rfl⟩
  | commit md changed deleted => exact ⟨.wrote .ok, rfl⟩
  | rollback err => exact ⟨.rolledBack none, rfl⟩
  | panicked late =>
    refine ⟨.go, ?_⟩
    simp only [updateStep]
    split <;> rfl
  | _ => exact ⟨.go, rfl⟩

theorem cleanupStep_enabled (role : Role) (call : CleanupCall) :
    ∃ answer, (cleanupStep cfg s t role call answer).isSome = true := by
  unfold cleanupStep
  cases call.stage with
  | stopServices remaining =>
    cases remaining with
    | nil => exact ⟨.go, rfl⟩
    | cons service rest => exact ⟨.stopped .ok, rfl⟩
  | teardown =>
    refine ⟨.tornDown ⟨0, none, false, none⟩, ?_⟩
    simp only
    split <;> rfl
  | collectArtifacts =>
    refine ⟨.collected none none, ?_⟩
    simp only
    split <;> rfl
  | removeWorkspace => exact ⟨.removed true, rfl⟩
  | removeMetadata =>
    refine ⟨.removed true, ?_⟩
    simp only
    split <;> rfl
  | takeServices | unregister | releasePermit | publish => exact ⟨.go, rfl⟩

end

/-- A thread with a token is never stuck: some answer takes it on. -/
theorem token_enabled (cfg : SessionConfig) {s : Session} {t : Nat} {token : Token}
    (h : s.life.token t = some token) : ∃ answer, (step cfg s (.run t answer)).isSome = true := by
  have htoken : (s.threads t).token (s.log.accepted t) = some token := h
  simp only [step, runStep]
  cases hth : s.threads t with
  | initializer pc => exact initStep_enabled cfg s t pc
  | action pc => exact actionStep_enabled cfg s t pc
  | update request pc => exact updateStep_enabled cfg s t request pc
  | cleaning role call => exact cleanupStep_enabled cfg s t role call
  | _ => simp [hth, Thread.token] at htoken

/-- Thread `t` is still going to call, or is inside, `cleanup_entry` on
behalf of an owner of kind `k`, and it can go on. -/
def Session.Committed (s : Session) (cfg : SessionConfig) (k : CleanupOwner) (t : Nat) : Prop :=
  (∃ token, s.life.token t = some token ∧ token.owner = k) ∧
    ∃ answer, (step cfg s (.run t answer)).isSome = true

/-- No termination is orphaned. In every reachable session a thread of the
recorded kind is committed to the cleanup, and a `stop` call that waits has
been answered or has such a thread to wait for. -/
theorem terminating_has_owner {cfg : SessionConfig} {es : List Event} {s : Session}
    (hrun : exec (step cfg) .reserved es = some s) :
    (∀ τ, s.state = .terminating τ → ∃ t, s.Committed cfg τ.owner t) ∧
    (∀ u, s.threads u = .stopWaiting →
      (∃ r, s.state = .terminated r) ∨ ∃ k t, s.Committed cfg k t) := by
  have hs := sound_of_exec hrun
  have howner : ∀ τ, s.state = .terminating τ → ∃ t, s.Committed cfg τ.owner t := by
    rintro ⟨e, k⟩ hst
    obtain ⟨t, ht | ⟨g, ht⟩⟩ := hs.owned.owned e k hst
    · exact ⟨t, ⟨_, ht, rfl⟩, token_enabled cfg ht⟩
    · exact ⟨t, ⟨_, ht, rfl⟩, token_enabled cfg ht⟩
  refine ⟨howner, fun u hu => ?_⟩
  obtain ⟨k, hfirst⟩ := hs.elected.stopper u (by simp [Session.life, hu, Thread.stopper])
  have hlive : s.state.live = false := by
    by_contra hlive
    rw [hs.elected.live.mpr (by simpa using hlive)] at hfirst
    cases hfirst
  rcases SessionState.not_live_cases hlive with ⟨τ, hst⟩ | hterm
  · obtain ⟨t, ht⟩ := howner τ hst
    exact .inr ⟨_, t, ht⟩
  · exact .inl hterm

/-- A `stop` call that waits for a running action. -/
theorem terminating_has_owner_action : ∃ s,
    exec (step sampleConfig) .reserved
      (readyRun ++ [.call 1 (.startAction "build"), .call 2 .stop]) = some s ∧
    s.threads 2 = .stopWaiting ∧ s.state = .terminating ⟨true, .action⟩ ∧
    ∃ t, s.Committed sampleConfig .action t := by
  have hrun : exec (step sampleConfig) .reserved
    (readyRun ++ [.call 1 (.startAction "build"), .call 2 .stop]) = some _ := rfl
  exact ⟨_, hrun, rfl, rfl, (terminating_has_owner hrun).1 _ rfl⟩

end IndenturedServer.Sessions
