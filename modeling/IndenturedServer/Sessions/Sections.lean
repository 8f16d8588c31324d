import IndenturedServer.Sessions.Lifecycle

/-!
What the sections of the session manager can do to the state.

There are two shapes. A section that is called from outside (`stop`, the
timers, a disconnect, a failed service) terminates a live session, and cleans
up itself exactly when no worker has the session. The last section of a
worker gives the session back, ends it, joins a termination that is its to
clean up, or finds that the session is no longer its business. Every later
argument looks at these shapes only.
-/

namespace IndenturedServer.Sessions

/-- A caller without a session of its own terminates it. -/
inductive Requests (explicit : Bool) (st : SessionState) : Outcome → Prop
  | nothing : Requests explicit st (.unchanged st)
  | marks (k : CleanupOwner) (c : Bool) (op : Option Nat) (hst : st.operation = some k) :
      Requests explicit st ⟨.terminating ⟨explicit, k⟩, c, op, .delegated⟩
  | elects (c : Bool) (op : Option Nat) (hst : st.idle = true) :
      Requests explicit st ⟨.terminating ⟨explicit, .requester⟩, c, op, .cleanup explicit⟩

theorem terminateLive_requests (explicit : Bool) (st : SessionState) :
    Requests explicit st (terminateLive explicit st) := by
  cases st with
  | initializing workerStarted =>
    cases workerStarted with
    | false => exact .elects _ _ rfl
    | true => exact .marks _ _ _ rfl
  | ready n => exact .elects _ _ rfl
  | action a => exact .marks _ _ _ rfl
  | updating u => exact .marks _ _ _ rfl
  | terminating τ => exact .nothing
  | terminated r => exact .nothing

theorem cancelUpload_requests (st : SessionState) : Requests false st (cancelUpload st) := by
  cases st with
  | initializing workerStarted =>
    cases workerStarted with
    | false => exact .elects _ _ rfl
    | true => exact .nothing
  | _ => exact .nothing

theorem disconnect_requests (st : SessionState) : Requests false st (disconnect st) := by
  cases st with
  | initializing workerStarted =>
    cases workerStarted with
    | false => exact .elects _ _ rfl
    | true => exact .marks _ _ _ rfl
  | _ => exact .nothing

variable {st : SessionState}

/-- `service_failed` leaves an initializing session to its initializer, so
it must not run before there is one. -/
theorem serviceFailed_requests (hst : st ≠ .initializing false) :
    Requests false st (serviceFailed st) := by
  cases st with
  | initializing workerStarted =>
    cases workerStarted with
    | false => exact absurd rfl hst
    | true => exact .marks _ _ _ rfl
  | ready n => exact .elects _ _ rfl
  | action a => exact .marks _ _ _ rfl
  | updating u => exact .marks _ _ _ rfl
  | terminating τ => exact .nothing
  | terminated r => exact .nothing

theorem expireIdle_requests (idle now : Nat) (st : SessionState) :
    Requests false st (expireIdle idle now st) := by
  cases st with
  | ready n =>
    simp only [expireIdle]
    split
    · exact .elects _ _ rfl
    · exact .nothing
  | _ => exact .nothing

/-- `begin_initialization` admits the worker of a fresh session, or acts
like any other caller. -/
theorem beginInitialization_cases (cancelled expired : Bool) (st : SessionState) :
    (st = .initializing false ∧ beginInitialization cancelled expired st =
      { state := .initializing true, verdict := .proceed }) ∨
    Requests false st (beginInitialization cancelled expired st) := by
  cases st with
  | initializing workerStarted =>
    cases workerStarted with
    | false =>
      rw [beginInitialization]
      split
      · exact .inl ⟨rfl, rfl⟩
      · exact .inr (.elects _ _ rfl)
    | true => exact .inr .nothing
  | _ => exact .inr .nothing

theorem startAction_ok {expired : Bool} {t : Nat} {st' : SessionState}
    (h : startAction expired t st = .ok st') : (∃ n, st = .ready n) ∧ st' = .action t := by
  cases st with
  | ready n =>
    simp only [startAction] at h
    split at h
    · cases h
      exact ⟨⟨n, rfl⟩, rfl⟩
    · cases h
  | _ => cases h

variable {data : SessionUpdateData} {request : UpdateRequest}

theorem startUpdate_ok {expired : Bool} {admission : SessionUpdateAdmission}
    (h : startUpdate expired data request st = .ok admission) :
    (∃ n, st = .ready n) ∧ expired = false ∧ admitUpdate data request = .ok admission := by
  cases st with
  | ready n =>
    simp only [startUpdate] at h
    split at h
    · rename_i hexp
      exact ⟨⟨n, rfl⟩, by simpa using hexp, h⟩
    · cases h
  | _ => cases h

theorem admitUpdate_start (h : admitUpdate data request = .ok .start) :
    request.baseRevision = data.revision := by
  have hbase : ∀ {x : Except UpdateAdmissionError SessionUpdateAdmission},
      (if data.revision ≠ request.baseRevision then x else .ok .start) = .ok .start →
      x ≠ .ok .start → request.baseRevision = data.revision := by
    intro x hx hne
    split at hx
    · exact absurd hx hne
    · rename_i heq
      exact (not_not.mp heq).symm
  unfold admitUpdate at h
  split at h
  · split at h
    · split at h <;> cases h
    · exact hbase h (by simp)
  · exact hbase h (by simp)

/-! ### The response stream of an action -/

theorem acknowledgeActionDelivery_cases (cancelled expired : Bool) (t now : Nat)
    (st : SessionState) :
    (st = .action t ∧ cancelled = false ∧ acknowledgeActionDelivery cancelled expired t now st =
        { state := .ready now, verdict := .proceed }) ∨
    (st = .action t ∧ acknowledgeActionDelivery cancelled expired t now st =
      ⟨.terminating ⟨false, .action⟩, false, some t, .delegated⟩) ∨
    acknowledgeActionDelivery cancelled expired t now st = .unchanged st := by
  cases st with
  | action a =>
    by_cases ha : a = t
    · subst ha
      cases cancelled <;> cases expired <;> simp [acknowledgeActionDelivery]
    · exact .inr (.inr (by simp [acknowledgeActionDelivery, ha]))
  | _ => exact .inr (.inr rfl)

theorem disconnectAction_cases (t : Nat) (st : SessionState) : (st = .action t ∧
      disconnectAction t st = ⟨.terminating ⟨false, .action⟩, false, some t, .delegated⟩) ∨
    disconnectAction t st = .unchanged st := by
  cases st with
  | action a =>
    by_cases ha : a = t
    · subst ha
      exact .inl ⟨rfl, by simp [disconnectAction]⟩
    · exact .inr (by simp [disconnectAction, ha])
  | _ => exact .inr rfl

/-! ### The initializer -/

theorem abandonInitialization_cases (hst : st ≠ .initializing false) :
    abandonInitialization st = st ∨
      st = .initializing true ∧ abandonInitialization st = .terminating ⟨false, .initializer⟩ := by
  cases st with
  | initializing workerStarted =>
    cases workerStarted with
    | false => exact absurd rfl hst
    | true => exact .inr ⟨rfl, rfl⟩
  | _ => exact .inl rfl

theorem initializationWins_cases {cancelled expired : Bool}
    (h : initializationWins cancelled expired st = true) :
    ∃ started, st = .initializing started := by
  cases st with
  | initializing started => exact ⟨started, rfl⟩
  | _ => cases h

/-! ### The last section of a worker -/

/-- The worker `t` of kind `k` passes the last section of its operation. -/
inductive Concludes (k : CleanupOwner) (t : Nat) (st : SessionState) : Outcome → Prop
  | releases (now : Nat) (hrun : Runs t st k) :
      Concludes k t st { state := .ready now, verdict := .proceed }
  | ends (hrun : Runs t st k) :
      Concludes k t st { state := .terminating ⟨false, k⟩, verdict := .cleanup false }
  | joins (e : Bool) (hst : st = .terminating ⟨e, k⟩) :
      Concludes k t st { state := st, verdict := .cleanup e }
  | nothing (hrun : ¬ Runs t st k) (hst : ∀ e, st ≠ .terminating ⟨e, k⟩) :
      Concludes k t st (.unchanged st)

/-- What every worker does with a session that is being terminated. -/
theorem concludes_terminating (k : CleanupOwner) (t : Nat) (τ : Termination) :
    Concludes k t (.terminating τ)
      (if τ.owner = k then { state := .terminating τ, verdict := .cleanup τ.explicit }
      else .unchanged (.terminating τ)) := by
  obtain ⟨e, owner⟩ := τ
  split
  · next hk => exact .joins e (by rw [← hk])
  · next hk => exact .nothing (by rintro ⟨⟩) (by rintro e' ⟨⟩; exact hk rfl)

theorem initializerCleanup_concludes (t : Nat) (hst : st ≠ .initializing false) :
    Concludes .initializer t st (initializerCleanup false st) := by
  cases st with
  | initializing workerStarted =>
    cases workerStarted with
    | false => exact absurd rfl hst
    | true => exact .ends .initializer
  | terminating τ => exact concludes_terminating ..
  | _ => exact .nothing (by rintro ⟨⟩) (by rintro e ⟨⟩)

theorem initializerCleanup_ne_proceed (e : Bool) (st : SessionState) :
    (initializerCleanup e st).verdict ≠ .proceed := by
  cases st with
  | initializing workerStarted => simp [initializerCleanup]
  | terminating τ =>
    simp only [initializerCleanup]
    split <;> simp [Outcome.unchanged]
  | _ => simp [initializerCleanup, Outcome.unchanged]

theorem finishAction_concludes (t now : Nat) (reusable : Bool) (st : SessionState) :
    Concludes .action t st (finishAction t reusable now st) := by
  cases st with
  | action a =>
    by_cases ha : a = t
    · subst ha
      cases reusable with
      | false => simpa [finishAction] using Concludes.ends .action
      | true => simpa [finishAction] using Concludes.releases now .action
    · have hun : finishAction t reusable now (.action a) = .unchanged (.action a) := by
        simp [finishAction, ha]
      rw [hun]
      exact .nothing (by rintro ⟨⟩; exact ha rfl) (by rintro e ⟨⟩)
  | terminating τ => exact concludes_terminating ..
  | _ => exact .nothing (by rintro ⟨⟩) (by rintro e ⟨⟩)

/-- The success branch of `execute_update` takes every updating state that
is not fit to be given back for its own, whichever update it names. -/
theorem finishUpdate_concludes (t now : Nat) (cancelled expired : Bool)
    (hst : ∀ u, st = .updating u → u = t) :
    Concludes .update t st (finishUpdate cancelled expired t now st) := by
  cases st with
  | updating u =>
    obtain rfl := hst u rfl
    simp only [finishUpdate]
    split
    · exact .releases now .update
    · exact .ends .update
  | terminating τ => exact concludes_terminating ..
  | _ => exact .nothing (by rintro ⟨⟩) (by rintro e ⟨⟩)

theorem finishUpdateError_concludes (t now : Nat) (proven : Bool) (st : SessionState) :
    Concludes .update t st (finishUpdateError t proven now st) := by
  cases st with
  | updating u =>
    by_cases hu : u = t
    · subst hu
      cases proven with
      | false => simpa [finishUpdateError] using Concludes.ends .update
      | true => simpa [finishUpdateError] using Concludes.releases now .update
    · have hun : finishUpdateError t proven now (.updating u) = .unchanged (.updating u) := by
        simp [finishUpdateError, hu]
      rw [hun]
      exact .nothing (by rintro ⟨⟩; exact hu rfl) (by rintro e ⟨⟩)
  | terminating τ => exact concludes_terminating ..
  | _ => exact .nothing (by rintro ⟨⟩) (by rintro e ⟨⟩)

/-- The panic handler of an update ends whatever update is running. -/
theorem updateWorkerPanicked_cases (st : SessionState) :
    (∃ u, st = .updating u ∧ updateWorkerPanicked st =
      ⟨.terminating ⟨false, .requester⟩, false, some u, .cleanup false⟩) ∨
    (∃ e, st = .terminating ⟨e, .update⟩ ∧
      updateWorkerPanicked st = { state := st, verdict := .cleanup e }) ∨
    (¬ (∃ u, st = .updating u) ∧ (∀ e, st ≠ .terminating ⟨e, .update⟩) ∧
      updateWorkerPanicked st = .unchanged st) := by
  cases st with
  | updating u => exact .inl ⟨u, rfl, rfl⟩
  | terminating τ =>
    obtain ⟨e, k⟩ := τ
    by_cases hk : k = .update
    · subst hk
      exact .inr (.inl ⟨e, rfl, rfl⟩)
    · exact .inr (.inr ⟨by simp, by simp [hk], by simp [updateWorkerPanicked, hk]⟩)
  | _ => exact .inr (.inr ⟨by simp, by simp, rfl⟩)

end IndenturedServer.Sessions
