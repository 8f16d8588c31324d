import IndenturedServer.Sessions.Revisions

/-!
No update is lost, and none is applied twice.

Only the latest success is remembered by a session. That an older request is
not applied a second time follows from the base revision instead: it is part
of what the digest covers, the updates of a session are applied to the
revisions 0, 1, 2, … in this order, and a revision never comes back. The
assumption that a digest determines the base revision is a function `baseOf`
that the start events of the run agree with.
-/

namespace IndenturedServer.Sessions

open Foundation Session

/-- What a thread at an update carries: before the commit its request, after
a success the response. -/
def Thread.carries : Thread → Option (UpdateRequest ⊕ SessionUpdateResponse)
  | .update _ (.returning (.ok response)) => some (.inr response)
  | .update request pc => if pc.fresh then some (.inl request) else none
  | .returned (.update (.ok response)) => some (.inr response)
  | _ => none

section
variable {cfg : SessionConfig} {s s' : Session} {t : Nat}

theorem Session.carries_setThread (s : Session) (t : Nat) (th : Thread) :
    ((s.setThread t th).threads t).carries = th.carries := by
  simp [setThread]

variable {role : Role}

theorem Session.carries_perform {o : Outcome} {next : Verdict → Thread}
    (hnext : ∀ v, (next v).carries = none) :
    ((s.perform t o role next).threads t).carries = none := by
  unfold perform
  split
  · simp [startCleanup, Thread.carries]
  · rw [carries_setThread]
    exact hnext _

theorem CallStep.carries {op : Call} (h : CallStep s t op s') : (s'.threads t).carries = none ∨
      ∃ request, op = .startUpdate request ∧ (s'.threads t).carries = some (.inl request) := by
  cases h with
  | request | begin => exact .inl (carries_perform fun _ => rfl)
  | stop => exact .inl (carries_perform (by rintro (_ | _ | _ | _) <;> rfl))
  | reject r hr =>
    rw [carries_setThread]
    refine .inl ?_
    cases r with
    | update result => cases hr
    | _ => rfl
  | startAction =>
    exact .inl (carries_setThread { s with state := _ } t _)
  | startUpdate n request hop =>
    exact .inr ⟨request, hop, carries_setThread { s with state := _ } t _⟩

variable {answer : Answer}

theorem InitStep.carries {pc : InitPc} (h : InitStep cfg s t pc answer s') :
    (s'.threads t).carries = none := by
  cases h with
  | cleanup => exact carries_perform fun _ => rfl
  | _ =>
    rw [carries_setThread]
    rfl

theorem ActionStep.carries {pc : ActionPc} (h : ActionStep s t pc answer s') :
    (s'.threads t).carries = none := by
  cases h with
  | finish => exact carries_perform fun _ => rfl
  | send => exact carries_setThread s t _
  | _ =>
    rw [carries_setThread]
    rfl

theorem CleanupStep.carries {call : CleanupCall} (h : CleanupStep s t role call s') :
    (s'.threads t).carries = none := by
  cases h with
  | publish =>
    rw [carries_setThread]
    cases role <;> rfl
  | _ =>
    rw [carries_setThread]
    rfl

variable {request : UpdateRequest} {pc : UpdatePc} {c : UpdateRequest ⊕ SessionUpdateResponse}

/-- An update keeps its request until its commit. Only a success gives it a
response, and that success is the last one of the history. -/
theorem UpdateStep.carries (h : UpdateStep cfg s t request pc s')
    (hc : (s'.threads t).carries = some c) :
    (Thread.update request pc).carries = some c ∨
      ∃ x, x ∈ s'.log.successes ∧ c = .inr x.response := by
  cases h with
  | succeed changed deleted hst =>
    rw [show (_ : Session).threads t = _ from Function.update_self ..] at hc
    cases hc
    exact .inr ⟨_, List.mem_append_right _ (List.mem_singleton_self _), rfl⟩
  | conclude | handle =>
    rw [carries_perform fun _ => rfl] at hc
    cases hc
  | prepare | mutate =>
    rw [carries_setThread] at hc
    exact .inl hc
  | applyFail md err pc' herr hpc' =>
    rw [carries_setThread] at hc
    rcases hpc' with rfl | rfl <;> cases hc
  | finish result =>
    rw [carries_setThread] at hc
    cases result with
    | ok response => exact .inl hc
    | error err => cases hc
  | _ =>
    rw [carries_setThread] at hc
    cases hc

variable {e : Event}

/-- Where the request or the response of a thread comes from. -/
theorem SessionStep.carries (h : SessionStep cfg s e s') {u : Nat}
    (hc : (s'.threads u).carries = some c) :
    (s.threads u).carries = some c ∨
      (∃ request, e = .call u (.startUpdate request) ∧ c = .inl request) ∨
      ∃ x, x ∈ s'.log.successes ∧ c = .inr x.response := by
  by_cases hu : e.thread = some u
  · have hnone : (s'.threads u).carries ≠ none := by
      rw [hc]
      exact Option.some_ne_none c
    cases h with
    | tick | cancelInitialization | cancelAction => exact .inl hc
    | call t op hth h =>
      cases hu
      rcases h.carries with hstep | ⟨request, rfl, hstep⟩
      · exact absurd hstep hnone
      · rw [hstep] at hc
        cases hc
        exact .inr (.inl ⟨request, rfl, rfl⟩)
    | init t pc answer hth h =>
      cases hu
      exact absurd h.carries hnone
    | action t pc answer hth h =>
      cases hu
      exact absurd h.carries hnone
    | update t request pc answer hth h =>
      cases hu
      rw [hth]
      rcases h.carries hc with hbefore | hsuccess
      · exact .inl hbefore
      · exact .inr (.inr hsuccess)
    | cleanup t role call answer hth h =>
      cases hu
      exact absurd h.carries hnone
    | answer t =>
      cases hu
      exact absurd (carries_setThread s u _) hnone
    | stream t op h =>
      cases hu
      cases h <;> exact .inl hc
    | panic t =>
      cases hu
      exact absurd (carries_setThread s u _) hnone
  · have hslot : s'.threads u = s.threads u := congrArg Slot.thread (h.slot hu)
    exact .inl (hslot ▸ hc)

/-- Nothing has been committed, or the update of a thread that carried its
request until then; and no success has been forgotten. -/
def Session.Continues (s s' : Session) : Prop :=
  (s'.log.applied = s.log.applied ∨ ∃ t request,
    (s.threads t).carries = some (.inl request) ∧ s'.log.applied =
      s.log.applied ++ [⟨request.requestId, request.digest, request.baseRevision⟩]) ∧
  ∀ x ∈ s.log.successes, x ∈ s'.log.successes

theorem Session.continues_of_eq (happlied : s'.log.applied = s.log.applied)
    (hsuccesses : s'.log.successes = s.log.successes) : s.Continues s' :=
  ⟨.inl happlied, fun _ hx => hsuccesses ▸ hx⟩

theorem Session.continues_of_store (hstore : s'.store = s.store) : s.Continues s' :=
  continues_of_eq (congrArg Store.applied hstore) (congrArg Store.successes hstore)

theorem UpdateStep.continues (h : UpdateStep cfg s t request pc s')
    (hth : s.threads t = .update request pc) : s.Continues s' := by
  cases h with
  | commit md changed deleted =>
    refine ⟨.inr ⟨t, request, ?_, rfl⟩, fun _ hx => hx⟩
    rw [hth]
    rfl
  | succeed changed deleted hst => exact ⟨.inl rfl, fun _ hx => List.mem_append_left _ hx⟩
  | conclude | handle => exact continues_of_store (store_perform _ _ _)
  | _ => exact continues_of_eq rfl rfl

theorem SessionStep.continues (h : SessionStep cfg s e s') : s.Continues s' := by
  cases h with
  | tick | cancelInitialization | cancelAction | answer | panic =>
    exact continues_of_eq rfl rfl
  | call t op hth h => exact continues_of_store h.store
  | action t pc answer hth h => exact continues_of_store h.store
  | stream t op h => exact continues_of_store h.store
  | init t pc answer hth h =>
    obtain ⟨services, metadata, hstore⟩ := h.store
    exact continues_of_eq (congrArg Store.applied hstore) (congrArg Store.successes hstore)
  | cleanup t role call answer hth h =>
    obtain ⟨services, metadata, unproven, archives, hstore, -⟩ := h.store
    exact continues_of_eq (congrArg Store.applied hstore) (congrArg Store.successes hstore)
  | update t request pc answer hth h => exact h.continues hth

/-- The requests under way and the updates committed fit `baseOf`, and every
response handed out is that of a success. -/
structure Session.Traced (baseOf : Digest → Nat) (s : Session) : Prop where
  pending : ∀ t request, (s.threads t).carries = some (.inl request) →
    request.baseRevision = baseOf request.digest
  committed : ∀ a ∈ s.log.applied, a.baseRevision = baseOf a.digest
  answered : ∀ t response, (s.threads t).carries = some (.inr response) →
    ∃ x ∈ s.log.successes, x.response = response

variable {baseOf : Digest → Nat}

theorem SessionStep.traced (h : SessionStep cfg s e s') (hs : s.Traced baseOf)
    (he : ∀ t request, e = .call t (.startUpdate request) →
      request.baseRevision = baseOf request.digest) : s'.Traced baseOf := by
  obtain ⟨happlied, hsuccesses⟩ := h.continues
  constructor
  · intro t request hc
    rcases h.carries hc with hbefore | ⟨request', rfl, hc⟩ | ⟨x, -, hc⟩
    · exact hs.pending t request hbefore
    · cases hc
      exact he t request rfl
    · cases hc
  · intro a ha
    rcases happlied with happlied | ⟨t, request, hc, happlied⟩
    · exact hs.committed a (happlied ▸ ha)
    · rw [happlied, List.mem_append, List.mem_singleton] at ha
      rcases ha with ha | rfl
      · exact hs.committed a ha
      · exact hs.pending t request hc
  · intro t response hc
    rcases h.carries hc with hbefore | ⟨request, -, hc⟩ | ⟨x, hx, hc⟩
    · obtain ⟨x, hx, hresponse⟩ := hs.answered t response hbefore
      exact ⟨x, hsuccesses x hx, hresponse⟩
    · cases hc
    · cases hc
      exact ⟨x, hx, rfl⟩

theorem traced_of_exec {es : List Event}
    (hdigest : ∀ t request, .call t (.startUpdate request) ∈ es →
      request.baseRevision = baseOf request.digest) (h : exec (step cfg) .reserved es = some s) :
    s.Traced baseOf := by
  have hinit : reserved.Traced baseOf := by
    constructor
    · rintro t request ⟨⟩
    · rintro a ⟨⟩
    · rintro t response ⟨⟩
  have hok : Meets (step cfg) (fun _ e => ∀ t request, e = .call t (.startUpdate request) →
      request.baseRevision = baseOf request.digest) .reserved es := by
    refine meets_of_forall ?_
    rintro e he _ t request rfl
    exact hdigest t request he
  exact exec_invariant (fun _ _ _ hx he hstep => (step_cases hstep).traced hx he) hinit hok h

/-! ### Retries -/

/-- The answer to a retry of the latest success, by the state of the
session. -/
def Session.retryAnswer (cfg : SessionConfig) (s : Session) (original : SessionUpdateResponse) :
    Except UpdateAdmissionError SessionUpdateResponse :=
  if !cfg.sourceUpdates then .error .notFound
  else
    match s.state with
    | .ready _ => if !s.expired cfg then .ok original else .error .notFound
    | .terminating _ | .terminated _ => .error .notFound
    | .initializing _ | .action _ | .updating _ => .error .operationConflict

variable {x : SuccessfulUpdate}

section
variable (hlast : s.updateData.lastSuccess = some x) (hid : x.requestId = request.requestId)
include hlast hid

/-- The latest success again: the state decides, and the session is left as
it is. -/
theorem callStep_retry (hdigest : x.digest = request.digest) :
    callStep cfg s t (.startUpdate request) =
      some (s.setThread t (.returned (.updateAdmission (s.retryAnswer cfg x.response)))) := by
  have hretry : admitUpdate s.updateData request = .ok (.retry x.response) := by
    simp [admitUpdate, hlast, hid, hdigest]
  cases hupdates : cfg.sourceUpdates with
  | false => simp [callStep, retryAnswer, hupdates]
  | true =>
    cases hst : s.state with
    | ready n =>
      cases hexpired : s.expired cfg with
      | false => simp [callStep, retryAnswer, startUpdate, hupdates, hst, hexpired, hretry]
      | true => simp [callStep, retryAnswer, startUpdate, hupdates, hst, hexpired]
    | _ => simp [callStep, retryAnswer, startUpdate, hupdates, hst]

/-- The latest request id with another digest is turned away. -/
theorem callStep_conflict (hdigest : x.digest ≠ request.digest) :
    ∃ err, callStep cfg s t (.startUpdate request) =
      some (s.setThread t (.returned (.updateAdmission (.error err)))) := by
  have hconflict : admitUpdate s.updateData request = .error .requestConflict := by
    simp [admitUpdate, hlast, hid, hdigest]
  simp only [callStep]
  split
  · cases hst : startUpdate (s.expired cfg) s.updateData request s.state with
    | error err => exact ⟨err, rfl⟩
    | ok admission =>
      have hadmitted := (startUpdate_ok hst).2.2
      rw [hconflict] at hadmitted
      cases hadmitted
  · exact ⟨_, rfl⟩

end

theorem revisionText_injective {m n : Nat} (h : revisionText m = revisionText n) : m = n := by
  have hrepr : m.repr = n.repr := (String.append_right_inj _).mp h
  have hdigits : Nat.toDigits 10 m = Nat.toDigits 10 n := by
    rw [← Nat.toList_repr, ← Nat.toList_repr, hrepr]
  have hread : ∀ k : Nat, Nat.ofDigitChars 10 (Nat.toDigits 10 k) 0 = k :=
    fun k => Nat.ofDigitChars_toDigits (by omega) (by omega)
  rw [← hread m, ← hread n, hdigits]

end

/-- The updates of a session. The `k`-th success (from 0) goes from revision
`k` to `k + 1`, no two successes share a base, and every response that an
update call returns is one of theirs. A retry of the latest success is
answered by the state of the session, with the original response while it is
ready and not expired; a reuse of its request id with another digest is
rejected; both leave the session as it is. No request is committed twice. -/
theorem updates_neither_lost_nor_repeated {cfg : SessionConfig} {es : List Event} {s : Session}
    (baseOf : Digest → Nat)
    (hdigest : ∀ t request, .call t (.startUpdate request) ∈ es →
      request.baseRevision = baseOf request.digest)
    (hrun : exec (step cfg) .reserved es = some s) :
    (∀ (k : Nat) (x : SuccessfulUpdate), s.log.successes[k]? = some x →
      x.response.baseRevision = revisionText k ∧
      x.response.workspaceRevision = revisionText (k + 1)) ∧
    (∀ (i j : Nat) (x y : SuccessfulUpdate), s.log.successes[i]? = some x →
      s.log.successes[j]? = some y → x.response.baseRevision = y.response.baseRevision → i = j) ∧
    (∀ t response, s.threads t = .returned (.update (.ok response)) →
      ∃ x ∈ s.log.successes, x.response = response) ∧
    (∀ t request x, s.threads t = .absent → s.log.successes.getLast? = some x →
      x.requestId = request.requestId →
      (x.digest = request.digest → step cfg s (.call t (.startUpdate request)) =
        some (s.setThread t (.returned (.updateAdmission (s.retryAnswer cfg x.response))))) ∧
      (x.digest ≠ request.digest → ∃ err, step cfg s (.call t (.startUpdate request)) =
        some (s.setThread t (.returned (.updateAdmission (.error err)))))) ∧
    (∀ (i j : Nat) (a b : AppliedUpdate), s.log.applied[i]? = some a →
      s.log.applied[j]? = some b → a.requestId = b.requestId → a.digest = b.digest → i = j) := by
  have hchain := (recorded_of_exec hrun).chain
  have htraced := traced_of_exec hdigest hrun
  refine ⟨hchain.chained, ?_, ?_, ?_, ?_⟩
  · intro i j x y hx hy hbase
    rw [(hchain.chained i x hx).1, (hchain.chained j y hy).1] at hbase
    exact revisionText_injective hbase
  · intro t response hth
    exact htraced.answered t response (by rw [hth]; rfl)
  · intro t request x hth hx hid
    have hlast : s.updateData.lastSuccess = some x := hchain.latest.trans hx
    simp only [step, hth]
    exact ⟨fun h => callStep_retry hlast hid h, fun h => callStep_conflict hlast hid h⟩
  · -- equal digests have equal bases, and the base is the place in the list
    intro i j a b ha hb _ hdigest
    have hbase : a.baseRevision = b.baseRevision := by
      rw [htraced.committed a (List.mem_of_getElem? ha),
        htraced.committed b (List.mem_of_getElem? hb), hdigest]
    have hi : a.baseRevision = i := hchain.applied i a ha
    have hj : b.baseRevision = j := hchain.applied j b hb
    omega

/-- Two updates, and the second one again. -/
theorem updates_neither_lost_nor_repeated_retry : ∃ s response,
    exec (step sampleConfig) .reserved (readyRun ++ updateRun 1 (sampleUpdate "a" 0) ++
      updateRun 2 (sampleUpdate "b" 1)) = some s ∧
    response.workspaceRevision = revisionText 2 ∧
    step sampleConfig s (.call 3 (.startUpdate (sampleUpdate "b" 1))) =
      some (s.setThread 3 (.returned (.updateAdmission (.ok response)))) := by
  have hrun : exec (step sampleConfig) .reserved (readyRun ++ updateRun 1 (sampleUpdate "a" 0) ++
    updateRun 2 (sampleUpdate "b" 1)) = some _ := rfl
  have hbase : ∀ t request, Event.call t (.startUpdate request) ∈ readyRun ++
      updateRun 1 (sampleUpdate "a" 0) ++ updateRun 2 (sampleUpdate "b" 1) →
      request.baseRevision = (request.digest.get 0).toNat := by
    intro t request hmem
    simp [readyRun, updateRun] at hmem
    rcases hmem with ⟨-, rfl⟩ | ⟨-, rfl⟩ <;> rfl
  obtain ⟨hchain, -, -, hretry, -⟩ :=
    updates_neither_lost_nor_repeated (fun digest => (digest.get 0).toNat) hbase hrun
  exact ⟨_, _, hrun, (hchain 1 _ rfl).2, (hretry 3 (sampleUpdate "b" 1) _ rfl rfl rfl).1 rfl⟩

/-- The same request again, but during an action: it is turned away. -/
theorem retry_during_action_conflicts : ∃ s x,
    exec (step sampleConfig) .reserved (readyRun ++ updateRun 1 (sampleUpdate "a" 0) ++
      [.call 2 (.startAction "build")]) = some s ∧
    s.log.successes.getLast? = some x ∧ x.requestId = (sampleUpdate "a" 0).requestId ∧
    x.digest = (sampleUpdate "a" 0).digest ∧
    step sampleConfig s (.call 3 (.startUpdate (sampleUpdate "a" 0))) =
      some (s.setThread 3 (.returned (.updateAdmission (.error .operationConflict)))) :=
  ⟨_, _, rfl, rfl, rfl, rfl, rfl⟩

end IndenturedServer.Sessions
