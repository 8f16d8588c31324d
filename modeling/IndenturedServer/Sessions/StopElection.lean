import IndenturedServer.Sessions.Refinement

/-!
The election of a `stop` call.

A session leaves its live states once, and the step that takes it out
records whether a client asked for it. Everything that follows goes by that
flag: which `stop` call gets the response, and whether `cleanup_entry`
collects the final artifacts.
-/

namespace IndenturedServer.Sessions

open Foundation SessionState

/-! ### Only `stop` records an explicit termination -/

variable {st : SessionState}

theorem SessionState.ne_terminating (h : st.live = true) (τ : Termination) :
    st ≠ .terminating τ := by
  rintro rfl
  cases h

variable {o : Outcome}

theorem Requests.explicit_of_live {e : Bool} {τ : Termination} (h : Requests e st o)
    (hlive : st.live = true) (ho : o.state = .terminating τ) : τ.explicit = e := by
  cases h with
  | nothing => exact absurd ho (ne_terminating hlive τ)
  | marks k c op hst =>
    cases ho
    rfl
  | elects c op hst =>
    cases ho
    rfl

theorem Concludes.explicit_of_live {k : CleanupOwner} {t : Nat} {τ : Termination}
    (h : Concludes k t st o) (hlive : st.live = true) (ho : o.state = .terminating τ) :
    τ.explicit = false := by
  cases h with
  | releases now hrun => cases ho
  | ends hrun =>
    cases ho
    rfl
  | joins e hst =>
    rw [hst] at hlive
    cases hlive
  | nothing hrun hst => exact absurd ho (ne_terminating hlive τ)

variable {e : Event}

section
variable {cfg : SessionConfig} {s s' : Session} {t : Nat} {τ : Termination}

theorem CallStep.explicit {op : Call} (h : CallStep s t op s') (hs : s.Sound)
    (hlive : s.state.live = true) (hτ : s'.state = .terminating τ) (hexplicit : τ.explicit = true) :
    op = .stop ∧ s'.log.first = some (t, τ) := by
  cases h with
  | request o hr =>
    rw [Session.state_perform] at hτ
    rw [(hr hs.owned.spawning).explicit_of_live hlive hτ] at hexplicit
    cases hexplicit
  | stop hop =>
    have hfirst : s.log.first = none := hs.elected.live.mpr hlive
    rw [Session.state_perform] at hτ
    refine ⟨hop, ?_⟩
    rw [Session.first_perform, hfirst, hτ]
    rfl
  | begin hst =>
    cases hτ
  | reject r hr => exact absurd hτ (ne_terminating hlive τ)
  | startAction | startUpdate => cases hτ

variable {answer : Answer}

theorem InitStep.explicit {pc : InitPc} (h : InitStep cfg s t pc answer s') (hs : s.Sound)
    (hth : s.threads t = .initializer pc) (hlive : s.state.live = true)
    (hτ : s'.state = .terminating τ) : τ.explicit = false := by
  have hstate : s.state ≠ .initializing false := hs.initializing_of_initializer hth
  cases h with
  | abandon pc' hpc hpc' =>
    rcases abandonInitialization_cases hstate with hst | ⟨-, hst⟩
    · exact absurd (hst.symm.trans hτ) (ne_terminating hlive τ)
    · cases hst.symm.trans hτ
      rfl
  | win => cases hτ
  | cleanup =>
    rw [Session.state_perform] at hτ
    exact (initializerCleanup_concludes t hstate).explicit_of_live hlive hτ
  | _ => exact absurd hτ (ne_terminating hlive τ)

theorem ActionStep.explicit {pc : ActionPc} (h : ActionStep s t pc answer s')
    (hlive : s.state.live = true) (hτ : s'.state = .terminating τ) : τ.explicit = false := by
  cases h with
  | finish =>
    rw [Session.state_perform] at hτ
    exact (finishAction_concludes t s.now false s.state).explicit_of_live hlive hτ
  | _ => exact absurd hτ (ne_terminating hlive τ)

theorem UpdateStep.explicit {request : UpdateRequest} {pc : UpdatePc}
    (h : UpdateStep cfg s t request pc s') (hs : s.Sound) (hth : s.threads t = .update request pc)
    (hlive : s.state.live = true) (hτ : s'.state = .terminating τ) : τ.explicit = false := by
  cases h with
  | succeed | giveBack => cases hτ
  | conclude hpc o err err' ho hv =>
    have htoken : s.life.token t = some (.work .update) := by
      rcases hpc with ⟨_, rfl⟩ | ⟨_, _, rfl⟩ <;> simp [Session.life, hth, Thread.token]
    rw [Session.state_perform] at hτ
    exact (ho (hs.updating_of_token htoken)).explicit_of_live hlive hτ
  | handle late owner howner =>
    rcases updateWorkerPanicked_cases s.state with ⟨u, -, ho⟩ | ⟨e, -, ho⟩ | ⟨-, -, ho⟩
    · rw [ho] at hτ
      cases hτ
      rfl
    · rw [ho] at hτ
      exact absurd hτ (ne_terminating hlive τ)
    · rw [ho] at hτ
      exact absurd hτ (ne_terminating hlive τ)
  | _ => exact absurd hτ (ne_terminating hlive τ)

theorem StreamStep.explicit {op : StreamOp} (h : StreamStep cfg s t op s')
    (hlive : s.state.live = true) (hτ : s'.state = .terminating τ) : τ.explicit = false := by
  have hturns : ∀ o, s.Turns t o → o.state = .terminating τ → τ.explicit = false := by
    intro o ho hτ
    cases ho with
    | nothing => exact absurd hτ (ne_terminating hlive τ)
    | ends hst =>
      cases hτ
      rfl
  cases h with
  | receive | sendAck | close => exact absurd hτ (ne_terminating hlive τ)
  | accept => cases hτ
  | refuse hphase o ho => exact hturns o ho hτ
  | drop hphase o ho => exact hturns o ho hτ

/-- A step that ends a live session on request of a client is a `stop` call,
and the history names its thread. -/
theorem SessionStep.explicit (h : SessionStep cfg s e s') (hs : s.Sound)
    (hlive : s.state.live = true) (hτ : s'.state = .terminating τ) (hexplicit : τ.explicit = true) :
    ∃ t, e = .call t .stop ∧ s'.log.first = some (t, τ) := by
  have hfalse : τ.explicit ≠ false := by simp [hexplicit]
  cases h with
  | call t op hth h =>
    obtain ⟨rfl, hfirst⟩ := h.explicit hs hlive hτ hexplicit
    exact ⟨t, rfl, hfirst⟩
  | init t pc answer hth h => exact absurd (h.explicit hs hth hlive hτ) hfalse
  | action t pc answer hth h => exact absurd (h.explicit hlive hτ) hfalse
  | update t request pc answer hth h => exact absurd (h.explicit hs hth hlive hτ) hfalse
  | cleanup t role call answer hth h =>
    rw [hs.not_live_of_cleaning hth] at hlive
    cases hlive
  | stream t op h => exact absurd (h.explicit hlive hτ) hfalse
  | _ => exact absurd hτ (ne_terminating hlive τ)

/-! ### What the history remembers -/

variable {v v' : Life} {b : Bool} {x : Nat × Termination}

theorem Life.Elected.first_of_step (h : v.Elected) (hs : v.Step b v') (hx : v.first = some x) :
    v'.first = some x := by
  -- only a live session can be terminated, and it has no first termination
  have hlive : v.state.live ≠ true := by
    intro hlive
    rw [h.live.mpr hlive] at hx
    cases hx
  cases hs with
  | elect t e stops hst ht hstops => exact absurd (live_of_idle hst) hlive
  | mark t k e stops hst hstops => exact absurd (live_of_operation hst) hlive
  | finish t k ht hrun => exact absurd (live_of_operation hrun.operation) hlive
  | panicElect t ht hst => exact absurd (by rw [hst]; rfl) hlive
  | strayElect hb t u ht hst => exact absurd (by rw [hst]; rfl) hlive
  | _ => exact hx

theorem Life.Owned.terminating_of_step (h : v.Owned) (hs : v.Step b v')
    (hlive : v.state.live = true) (hlive' : v'.state.live ≠ true) :
    ∃ τ, v'.state = .terminating τ := by
  cases hs with
  | elect | mark | finish | panicElect | strayElect => exact ⟨_, rfl⟩
  | start t k st n hst ht hk hrun =>
    exact absurd (live_of_operation hrun.operation) hlive'
  | begin | release => exact absurd rfl hlive'
  | publish t k e r ht =>
    rw [h.clean_not_live ht] at hlive
    cases hlive
  | _ => exact absurd hlive hlive'

theorem first_of_exec {es : List Event} (hs : s.Sound) (hx : s.log.first = some x)
    (h : exec (step cfg) s es = some s') : s'.log.first = some x := by
  refine (exec_invariant_all (P := fun s => s.Sound ∧ s.log.first = some x) ?_ ⟨hs, hx⟩ h).2
  rintro m e m' ⟨hm, hx⟩ hstep
  exact ⟨hm.step hstep, hm.elected.first_of_step (step_refines (b := true) hm hstep (by simp)) hx⟩

theorem SessionStep.finalArchives (h : SessionStep cfg s e s') (hs : s.Sound) :
    s'.log.finalArchives = s.log.finalArchives ∨ ∃ t k, s.log.first = some (t, ⟨true, k⟩) := by
  cases h with
  | call t op hth h => exact .inl (congrArg Store.finalArchives h.store)
  | init t pc answer hth h =>
    obtain ⟨services, metadata, hstore⟩ := h.store
    exact .inl (congrArg Store.finalArchives hstore)
  | action t pc answer hth h => exact .inl (congrArg Store.finalArchives h.store)
  | update t request pc answer hth h =>
    obtain ⟨data, metadata, applied, successes, hstore⟩ := h.store
    exact .inl (congrArg Store.finalArchives hstore)
  | cleanup t role call answer hth h =>
    obtain ⟨services, metadata, unproven, archives, hstore, hcollects⟩ := h.store
    cases hexplicit : call.explicit with
    | false =>
      left
      rw [← hcollects hexplicit]
      exact congrArg Store.finalArchives hstore
    | true =>
      -- the flag of the call is the one that the first termination recorded
      obtain ⟨u, hu⟩ := hs.elected.clean t role.owner true call.stage.unregistered
        (by simp [Session.life, hth, Thread.token, hexplicit])
      exact .inr ⟨u, role.owner, hu⟩
  | stream t op h => exact .inl (congrArg Store.finalArchives h.store)
  | _ => exact .inl rfl

theorem finalArchives_of_exec {es : List Event} (h : exec (step cfg) .reserved es = some s) :
    s.log.finalArchives = [] ∨ ∃ t k, s.log.first = some (t, ⟨true, k⟩) := by
  have hinv : s.Sound ∧ (s.log.finalArchives = [] ∨ ∃ t k, s.log.first = some (t, ⟨true, k⟩)) := by
    refine exec_invariant_all (P := fun s : Session => s.Sound ∧
      (s.log.finalArchives = [] ∨ ∃ t k, s.log.first = some (t, ⟨true, k⟩))) ?_
      ⟨Session.reserved_sound, .inl rfl⟩ h
    rintro m e m' ⟨hm, harch⟩ hstep
    have hpersists : (∃ t k, m.log.first = some (t, ⟨true, k⟩)) →
        ∃ t k, m'.log.first = some (t, ⟨true, k⟩) := by
      rintro ⟨t, k, hfirst⟩
      exact ⟨t, k, hm.elected.first_of_step (step_refines (b := true) hm hstep (by simp)) hfirst⟩
    refine ⟨hm.step hstep, ?_⟩
    rcases (step_cases hstep).finalArchives hm with hsame | hfirst
    · exact harch.imp hsame.trans hpersists
    · exact .inr (hpersists hfirst)
  exact hinv.2

end

/-! ### The election -/

/-- The step of the run `es` that takes the session out of its live states
is `e`, and it records `τ`. -/
def TerminatedBy (cfg : SessionConfig) (es : List Event) (e : Event) (τ : Termination) : Prop :=
  ∃ before after s s', es = before ++ e :: after ∧
    exec (step cfg) .reserved before = some s ∧ s.state.live = true ∧
    step cfg s e = some s' ∧ s'.state = .terminating τ

section
variable {cfg : SessionConfig} {es : List Event} {s : Session} {t : Nat} {τ : Termination}

theorem terminatedBy_of_first (hrun : exec (step cfg) .reserved es = some s)
    (hfirst : s.log.first = some (t, τ)) :
    ∃ e, TerminatedBy cfg es e τ ∧ (τ.explicit = true → e = .call t .stop) := by
  have hlive : ¬ s.state.live = true := by
    intro hlive
    rw [show s.log.first = none from (sound_of_exec hrun).elected.live.mpr hlive] at hfirst
    cases hfirst
  obtain ⟨before, e, after, m, m', hes, hbefore, hm, hstep, hm', hafter⟩ :=
    exec_turn (p := fun s : Session => s.state.live = true) rfl hlive hrun
  have hsound := sound_of_exec hbefore
  have hlife : m.life.Step true m'.life := step_refines hsound hstep (by simp)
  obtain ⟨τ', hτ'⟩ := hsound.owned.terminating_of_step hlife hm hm'
  obtain ⟨t', ht'⟩ := (hsound.step hstep).elected.terminating τ' hτ'
  -- the entry made by this step is still there at the end of the run
  have hlast := first_of_exec (hsound.step hstep) ht' hafter
  obtain ⟨rfl, rfl⟩ : t' = t ∧ τ' = τ := by simpa [hlast] using hfirst
  refine ⟨e, ⟨before, after, m, m', hes, hbefore, hm, hstep, hτ'⟩, ?_⟩
  intro hexplicit
  obtain ⟨u, rfl, hu⟩ := (step_cases hstep).explicit hsound hm hτ' hexplicit
  obtain rfl : u = t' := congrArg Prod.fst (Option.some.inj (hu.symm.trans ht'))
  rfl

theorem first_of_terminatedBy (hrun : exec (step cfg) .reserved es = some s)
    (h : TerminatedBy cfg es e τ) : ∃ t, s.log.first = some (t, τ) := by
  obtain ⟨before, after, m, m', rfl, hbefore, -, hstep, hτ⟩ := h
  have hsound := (sound_of_exec hbefore).step hstep
  obtain ⟨t, ht⟩ := hsound.elected.terminating τ hτ
  rw [exec_append, hbefore] at hrun
  obtain ⟨n, hn, hafter⟩ := exec_cons_eq_some.mp hrun
  obtain rfl : m' = n := Option.some.inj (hstep.symm.trans hn)
  exact ⟨t, first_of_exec hsound ht hafter⟩

end

/-- A `stop` call that returns a response is the one whose own step ended
the session, so there is at most one. Every `cleanup_entry` runs with the flag
that was recorded when the session ended, and a session that ended without a
client asking for it neither collects final artifacts nor answers a `stop`
call with a response. -/
theorem stop_election {cfg : SessionConfig} {es : List Event} {s : Session}
    (hrun : exec (step cfg) .reserved es = some s) :
    (∀ t u r r', s.threads t = .returned (.stop (.ok r)) →
      s.threads u = .returned (.stop (.ok r')) → t = u) ∧
    (∀ t r, s.threads t = .returned (.stop (.ok r)) →
      ∃ k, TerminatedBy cfg es (.call t .stop) ⟨true, k⟩) ∧
    (∀ t role call, s.threads t = .cleaning role call →
      ∃ e k, TerminatedBy cfg es e ⟨call.explicit, k⟩) ∧
    (∀ e τ, TerminatedBy cfg es e τ → τ.explicit = false →
      s.log.finalArchives = [] ∧ ∀ t r, s.threads t ≠ .returned (.stop (.ok r))) := by
  have hs := sound_of_exec hrun
  have hstopper : ∀ t r, s.threads t = .returned (.stop (.ok r)) →
      ∃ k, s.log.first = some (t, ⟨true, k⟩) := by
    intro t r ht
    exact hs.elected.stopper t (by simp [Session.life, ht, Thread.stopper])
  refine ⟨?_, ?_, ?_, ?_⟩
  · intro t u r r' ht hu
    obtain ⟨k, hk⟩ := hstopper t r ht
    obtain ⟨k', hk'⟩ := hstopper u r' hu
    rw [hk] at hk'
    cases hk'
    rfl
  · intro t r ht
    obtain ⟨k, hk⟩ := hstopper t r ht
    obtain ⟨e, hby, he⟩ := terminatedBy_of_first hrun hk
    exact ⟨k, he rfl ▸ hby⟩
  · intro t role call hth
    obtain ⟨u, hu⟩ := hs.elected.clean t role.owner call.explicit call.stage.unregistered
      (by simp [Session.life, hth, Thread.token])
    obtain ⟨e, hby, -⟩ := terminatedBy_of_first hrun hu
    exact ⟨e, role.owner, hby⟩
  · intro e τ hby hexplicit
    obtain ⟨t, ht⟩ := first_of_terminatedBy hrun hby
    have hnone : ∀ u k, s.log.first ≠ some (u, ⟨true, k⟩) := by
      intro u k hu
      rw [ht] at hu
      cases hu
      cases hexplicit
    refine ⟨?_, ?_⟩
    · refine (finalArchives_of_exec hrun).resolve_right ?_
      rintro ⟨u, k, hu⟩
      exact hnone u k hu
    · intro u r hu
      obtain ⟨k, hk⟩ := hstopper u r hu
      exact hnone u k hk

/-- Of two `stop` calls on a ready session the first one runs the cleanup,
with the explicit flag, and collects the final artifacts. -/
def twoStopsRun : List Event :=
  readyRun ++ [.call 1 .stop, .call 2 .stop, .run 1 .go, .run 1 .go,
    .run 1 (.tornDown ⟨0, some 0, false, none⟩), .run 1 (.collected (some ⟨"artifacts.zip", 7⟩) none),
    .run 1 (.removed true), .run 1 (.removed true), .run 1 .go, .run 1 .go, .run 1 .go]

theorem stop_election_two_stops : ∃ s r,
    exec (step sampleConfig) .reserved twoStopsRun = some s ∧
    s.threads 1 = .returned (.stop (.ok r)) ∧ s.threads 2 = .returned (.stop (.error .conflict)) ∧
    s.log.finalArchives = [⟨"artifacts.zip", 7⟩] ∧
    (∀ t r', s.threads t = .returned (.stop (.ok r')) → t = 1) ∧
    ∃ k, TerminatedBy sampleConfig twoStopsRun (.call 1 .stop) ⟨true, k⟩ := by
  have hrun : exec (step sampleConfig) .reserved twoStopsRun = some _ := rfl
  obtain ⟨hone, hown, -, -⟩ := stop_election hrun
  refine ⟨_, _, hrun, rfl, rfl, rfl, fun t r' ht => hone t 1 r' _ ht rfl, hown 1 _ rfl⟩

end IndenturedServer.Sessions
