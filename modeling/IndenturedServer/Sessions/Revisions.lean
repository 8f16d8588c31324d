import IndenturedServer.Sessions.Refinement

/-!
Workspace revisions: in memory, in the metadata file, and in the history.

A successful update moves the session from revision `n` to `n + 1`. The
metadata file is rewritten inside the update, before the session is ready
again, so while an update runs the file may be one ahead. `Session.Recorded`
says how far: by the state of the session and, while an update runs, by the
program point of its worker.
-/

namespace IndenturedServer.Sessions

open Foundation Session Thread

/-- The metadata file is that of a ready session at revision `n`. -/
def Session.Records (s : Session) (n : Nat) : Prop :=
  ∃ md, s.metadata = some md ∧ md.state = .ready ∧ md.workspaceRevision = n

def UpdatePc.fresh : UpdatePc → Bool
  | .begin | .apply _ | .commit _ _ _ => true
  | _ => false

def UpdatePc.metadata? : UpdatePc → Option DurableSessionMetadata
  | .apply md | .commit md _ _ => some md
  | _ => none

/-- How far an update of revision `n` has come: which revisions the file
records, and how many updates have been committed to the workspace. -/
def UpdatePc.Progress (records : Nat → Prop) (applied n : Nat) : UpdatePc → Prop
  | .begin | .apply _ | .commit _ _ _ => records n ∧ applied = n
  | .applied _ _ => records (n + 1) ∧ applied = n + 1
  | .rollback err | .failed err =>
    (records n ∨ err.rollbackProven = false ∧ records (n + 1)) ∧ applied = n
  | .panicked late | .panicLookedUp late =>
    late = false ∧ (records n ∨ records (n + 1)) ∧ (applied = n ∨ applied = n + 1)
  | .returning _ => False

/-- What the shared data of a session say about its revisions. -/
structure Store.Chained (x : Store) : Prop where
  counted : x.updateData.revision = x.successes.length
  latest : x.updateData.lastSuccess = x.successes.getLast?
  chained : ∀ (k : Nat) (u : SuccessfulUpdate), x.successes[k]? = some u →
    u.response.baseRevision = revisionText k ∧ u.response.workspaceRevision = revisionText (k + 1)
  applied : ∀ (k : Nat) (a : AppliedUpdate), x.applied[k]? = some a → a.baseRevision = k

/-- The file and the history fit the state of the session. -/
def Session.Filed (s : Session) : Prop :=
  match s.state with
  | .initializing _ => s.updateData.revision = 0 ∧ s.log.applied.length = 0 ∧
      ∀ t, s.threads t = .initializer .commitElection → s.Records 0
  | .ready _ | .action _ =>
    s.Records s.updateData.revision ∧ s.log.applied.length = s.updateData.revision
  | .updating t => ∃ request pc, s.threads t = .update request pc ∧
      request.baseRevision = s.updateData.revision ∧
      pc.Progress s.Records s.log.applied.length s.updateData.revision
  | .terminating _ | .terminated _ => True

structure Session.Recorded (s : Session) : Prop where
  chain : s.store.Chained
  /-- At most one update is on its way to its commit, and it builds on the
  current revision, also after the session has been terminated under it. -/
  fresh : ∀ t request pc, s.threads t = .update request pc → pc.fresh = true →
    request.baseRevision = s.updateData.revision ∧
    s.log.applied.length = s.updateData.revision ∧
    ∀ u request' pc', s.threads u = .update request' pc' → pc'.fresh = true → u = t
  prepared : ∀ t request pc md, s.threads t = .update request pc → pc.metadata? = some md →
    md.state = .ready ∧ md.workspaceRevision = request.baseRevision + 1
  filed : s.Filed

/-- A point that has no part in the revisions: not an update that still has
the session, and not the initializer that is about to commit. -/
def Thread.bystands : Thread → Bool
  | .update _ (.returning _) => true
  | .update _ (.panicked late) => late
  | .update _ (.panicLookedUp late) => late
  | .update _ _ => false
  | .initializer .commitElection => false
  | _ => true

/-- Ready, or in an action: the file is at the current revision. -/
def SessionState.settled : SessionState → Bool
  | .ready _ | .action _ => true
  | _ => false

/-- The second state asks no more of the file than the first one. -/
inductive SessionState.Akin (st : SessionState) : SessionState → Prop
  | dead {st' : SessionState} (h : st'.live = false) : st.Akin st'
  | same : st.Akin st
  | settled {st' : SessionState} (h : st.settled = true) (h' : st'.settled = true) : st.Akin st'
  | initializing {b b' : Bool} (h : st = .initializing b) : st.Akin (.initializing b')

section
variable {cfg : SessionConfig} {s s' : Session} {t : Nat}

theorem Session.filed_of_not_live (h : s.state.live = false) : s.Filed := by
  unfold Filed
  rcases SessionState.not_live_cases h with ⟨τ, hst⟩ | ⟨r, hst⟩
  · rw [hst]
    trivial
  · rw [hst]
    trivial

theorem Session.filed_settled (h : s.state.settled = true) :
    s.Filed ↔ s.Records s.updateData.revision ∧ s.log.applied.length = s.updateData.revision := by
  unfold Filed
  cases hst : s.state with
  | ready n => rfl
  | action a => rfl
  | _ =>
    rw [hst] at h
    cases h

theorem Session.filed_updating (h : s.state = .updating t) :
    s.Filed ↔ ∃ request pc, s.threads t = .update request pc ∧
      request.baseRevision = s.updateData.revision ∧
      pc.Progress s.Records s.log.applied.length s.updateData.revision := by
  unfold Filed
  rw [h]

theorem Session.filed_initializing {started : Bool} (h : s.state = .initializing started) :
    s.Filed ↔ s.updateData.revision = 0 ∧ s.log.applied.length = 0 ∧
      ∀ t, s.threads t = .initializer .commitElection → s.Records 0 := by
  unfold Filed
  rw [h]

variable {records : Nat → Prop} {applied n : Nat} {pc : UpdatePc}

theorem UpdatePc.bystands_of_progress (h : pc.Progress records applied n) (request : UpdateRequest) :
    (update request pc).bystands = false := by
  cases pc with
  | returning result => exact absurd h id
  | panicked late => exact h.1
  | panicLookedUp late => exact h.1
  | _ => rfl

variable {request : UpdateRequest}

theorem UpdatePc.not_fresh_of_bystands (h : (update request pc).bystands = true) :
    pc.fresh = false ∧ pc.metadata? = none := by
  cases pc <;> first | exact ⟨rfl, rfl⟩ | cases h

/-! ### Steps that leave the revisions alone -/

/-- The data did not change, and no thread has become a fresh update. -/
theorem Session.Recorded.frame (h : s.Recorded) (hdata : s'.updateData = s.updateData)
    (happlied : s'.log.applied = s.log.applied) (hsuccesses : s'.log.successes = s.log.successes)
    (hthreads : ∀ u request pc, s'.threads u = .update request pc →
      s.threads u = .update request pc ∨ pc.fresh = false ∧ pc.metadata? = none)
    (hfiled : s'.Filed) : s'.Recorded := by
  have hbefore : ∀ u request pc, s'.threads u = .update request pc → pc.fresh = true →
      s.threads u = .update request pc := by
    intro u request pc hu hpc
    refine (hthreads u request pc hu).resolve_right ?_
    rintro ⟨hfresh, -⟩
    rw [hpc] at hfresh
    cases hfresh
  refine ⟨⟨?_, ?_, ?_, ?_⟩, ?_, ?_, hfiled⟩
  · show s'.updateData.revision = s'.log.successes.length
    rw [hdata, hsuccesses]
    exact h.chain.counted
  · show s'.updateData.lastSuccess = s'.log.successes.getLast?
    rw [hdata, hsuccesses]
    exact h.chain.latest
  · show ∀ (k : Nat) (u : SuccessfulUpdate), s'.log.successes[k]? = some u → _
    rw [hsuccesses]
    exact h.chain.chained
  · show ∀ (k : Nat) (a : AppliedUpdate), s'.log.applied[k]? = some a → _
    rw [happlied]
    exact h.chain.applied
  · intro u request pc hu hpc
    obtain ⟨hbase, hlength, hunique⟩ := h.fresh u request pc (hbefore u request pc hu hpc) hpc
    rw [hdata, happlied]
    refine ⟨hbase, hlength, ?_⟩
    intro w request' pc' hw hpc'
    exact hunique w request' pc' (hbefore w request' pc' hw hpc') hpc'
  · intro u request pc md hu hmd
    rcases hthreads u request pc hu with hu | ⟨-, hnone⟩
    · exact h.prepared u request pc md hu hmd
    · rw [hnone] at hmd
      cases hmd

theorem Session.Recorded.bystander (h : s.Recorded) (hstore : s'.store = s.store)
    (hthreads : ∀ u, s'.threads u = s.threads u ∨
      (s.threads u).bystands = true ∧ (s'.threads u).bystands = true)
    (hstate : s.state.Akin s'.state) : s'.Recorded := by
  have hdata : s'.updateData = s.updateData := congrArg Store.updateData hstore
  have hmetadata : s'.metadata = s.metadata := congrArg Store.metadata hstore
  have happlied : s'.log.applied = s.log.applied := congrArg Store.applied hstore
  have hrecords : s'.Records = s.Records := funext fun n => by simp [Records, hmetadata]
  have hinitializing : ∀ {b b'}, s.state = .initializing b → s'.state = .initializing b' →
      s'.Filed := by
    intro b b' hst hst'
    have hfiled := (filed_initializing hst).mp h.filed
    rw [filed_initializing hst', hdata, happlied, hrecords]
    refine ⟨hfiled.1, hfiled.2.1, ?_⟩
    intro u hu
    rcases hthreads u with hthread | ⟨-, hbystands⟩
    · exact hfiled.2.2 u (hthread ▸ hu)
    · rw [hu] at hbystands
      cases hbystands
  have hsettled : s.state.settled = true → s'.state.settled = true → s'.Filed := by
    intro hst hst'
    rw [filed_settled hst', hdata, happlied, hrecords]
    exact (filed_settled hst).mp h.filed
  refine h.frame hdata happlied (congrArg Store.successes hstore) ?_ ?_
  · intro u request pc hu
    rcases hthreads u with hsame | ⟨-, hbystands⟩
    · exact .inl (hsame ▸ hu)
    · rw [hu] at hbystands
      exact .inr (UpdatePc.not_fresh_of_bystands hbystands)
  · generalize hst' : s'.state = st' at hstate
    cases hstate with
    | dead hdead => exact filed_of_not_live (hst' ▸ hdead)
    | settled hbefore hafter => exact hsettled hbefore (hst' ▸ hafter)
    | initializing hst => exact hinitializing hst hst'
    | same =>
      cases hst : s.state with
      | initializing started => exact hinitializing hst (hst'.trans hst)
      | ready n => exact hsettled (by rw [hst]; rfl) (by rw [hst', hst]; rfl)
      | action a => exact hsettled (by rw [hst]; rfl) (by rw [hst', hst]; rfl)
      | updating u =>
        -- the worker of the running update is no bystander, so it has not moved
        obtain ⟨request, pc, hu, hbase, hprogress⟩ := (filed_updating hst).mp h.filed
        rw [filed_updating (hst'.trans hst), hdata, happlied, hrecords]
        refine ⟨request, pc, ?_, hbase, hprogress⟩
        rcases hthreads u with hthread | ⟨hbystands, -⟩
        · exact hthread.trans hu
        · rw [hu, UpdatePc.bystands_of_progress hprogress] at hbystands
          cases hbystands
      | terminating τ | terminated r =>
        exact filed_of_not_live (by rw [hst', hst]; rfl)

variable {th : Thread}

theorem Session.threads_of_setThread {u : Nat}
    (h : (s.setThread t th).threads u = .update request pc) :
    u = t ∧ th = .update request pc ∨ u ≠ t ∧ s.threads u = .update request pc := by
  by_cases hut : u = t
  · subst hut
    exact .inl ⟨rfl, by simpa [setThread] using h⟩
  · exact .inr ⟨hut, by simpa [setThread, hut] using h⟩

/-- A thread moves to a point that is not an update on its way to its commit. -/
theorem Session.Recorded.leave {r : Session} (h : s.Recorded) (hthreads : r.threads = s.threads)
    (hdata : r.updateData = s.updateData) (happlied : r.log.applied = s.log.applied)
    (hsuccesses : r.log.successes = s.log.successes)
    (hth : ∀ request pc, th = .update request pc → pc.fresh = false ∧ pc.metadata? = none)
    (hfiled : (r.setThread t th).Filed) : (r.setThread t th).Recorded := by
  refine h.frame hdata happlied hsuccesses ?_ hfiled
  intro u request pc hu
  rcases threads_of_setThread hu with ⟨-, hpc⟩ | ⟨-, hu⟩
  · exact .inr (hth request pc hpc)
  · exact .inl (hthreads ▸ hu)

theorem Session.bystands_setThread (hbefore : (s.threads t).bystands = true)
    (hafter : th.bystands = true) (u : Nat) :
    (s.setThread t th).threads u = s.threads u ∨
      (s.threads u).bystands = true ∧ ((s.setThread t th).threads u).bystands = true := by
  by_cases hut : u = t
  · subst hut
    exact .inr ⟨hbefore, by simpa [setThread] using hafter⟩
  · exact .inl (by simp [setThread, hut])

variable {o : Outcome} {role : Role}

theorem Session.bystands_perform {next : Verdict → Thread} (hbefore : (s.threads t).bystands = true)
    (hafter : ∀ v, (next v).bystands = true) (u : Nat) :
    (s.perform t o role next).threads u = s.threads u ∨
      (s.threads u).bystands = true ∧ ((s.perform t o role next).threads u).bystands = true := by
  unfold perform
  split
  · exact bystands_setThread (s := s.enter t o) hbefore rfl u
  · exact bystands_setThread (s := s.enter t o) hbefore (hafter _) u

theorem Requests.akin {e : Bool} {st : SessionState} (h : Requests e st o) : st.Akin o.state := by
  cases h with
  | nothing => exact .same
  | marks | elects => exact .dead rfl

theorem Session.Recorded.start (h : s.Recorded) (hs : s.Sound) (hst : s.state = .ready n)
    (hbase : request.baseRevision = s.updateData.revision) :
    ({ s with state := .updating t }.setThread t (.update request .begin)).Recorded := by
  have hfiled := (filed_settled (by rw [hst]; rfl)).mp h.filed
  have hidle : ∀ u request' pc, s.threads u = .update request' pc → pc.fresh = false := by
    intro u request' pc hu
    by_contra hpc
    have htoken : s.life.token u = some (.work .update) := by
      cases pc <;> simp_all [UpdatePc.fresh, life, token]
    rw [hs.owned.token_of_idle (by rw [life_state, hst]; rfl) u] at htoken
    cases htoken
  have hthreads : ∀ u request' pc, Function.update s.threads t (.update request .begin) u =
      .update request' pc → pc.fresh = true → u = t ∧ request' = request := by
    intro u request' pc hu hpc
    by_cases hut : u = t
    · subst hut
      rw [Function.update_self] at hu
      cases hu
      exact ⟨rfl, rfl⟩
    · rw [Function.update_of_ne hut] at hu
      rw [hidle u request' pc hu] at hpc
      cases hpc
  refine ⟨h.chain, ?_, ?_, ?_⟩
  · intro u request' pc hu hpc
    obtain ⟨rfl, rfl⟩ := hthreads u request' pc hu hpc
    refine ⟨hbase, hfiled.2, ?_⟩
    intro w request'' pc' hw hpc'
    exact (hthreads w request'' pc' hw hpc').1
  · intro u request' pc md hu hmd
    have hu : Function.update s.threads t (.update request .begin) u = .update request' pc := hu
    by_cases hut : u = t
    · subst hut
      rw [Function.update_self] at hu
      cases hu
      cases hmd
    · rw [Function.update_of_ne hut] at hu
      exact h.prepared u request' pc md hu hmd
  · rw [filed_updating (t := t) rfl]
    exact ⟨request, .begin, by simp [setThread], hbase, hfiled⟩

theorem CallStep.recorded {op : Call} (h : CallStep s t op s') (hr : s.Recorded) (hs : s.Sound)
    (hth : s.threads t = .absent) : s'.Recorded := by
  have hbefore : (s.threads t).bystands = true := by rw [hth]; rfl
  cases h with
  | request o ho =>
    refine hr.bystander (store_perform _ _ _)
      (bystands_perform hbefore fun _ => rfl) ?_
    rw [state_perform]
    exact (ho hs.owned.spawning).akin
  | stop hop =>
    refine hr.bystander (store_perform _ _ _) (bystands_perform hbefore ?_) ?_
    · rintro (_ | _ | _ | _) <;> rfl
    · rw [state_perform]
      exact (terminateLive_requests true s.state).akin
  | begin hst =>
    refine hr.bystander (store_perform _ _ _)
      (bystands_perform hbefore fun _ => rfl) ?_
    exact .initializing hst
  | reject r hrejects =>
    exact hr.bystander rfl (bystands_setThread hbefore rfl) .same
  | startAction n hst =>
    exact hr.bystander rfl (bystands_setThread (s := { s with state := _ }) hbefore rfl)
      (.settled (by rw [hst]; rfl) rfl)
  | startUpdate n request hop hst hstarts =>
    exact hr.start hs hst (admitUpdate_start hstarts)

variable {answer : Answer}

theorem ActionStep.recorded {pc : ActionPc} (h : ActionStep s t pc answer s') (hr : s.Recorded)
    (hth : s.threads t = .action pc) : s'.Recorded := by
  have hbefore : (s.threads t).bystands = true := by rw [hth]; rfl
  have hstore := h.store
  cases h with
  | finish =>
    refine hr.bystander hstore (bystands_perform hbefore fun _ => rfl) ?_
    have hconcludes := finishAction_concludes t s.now false s.state
    generalize finishAction t false s.now s.state = o at hconcludes
    cases hconcludes with
    | releases now hrun => exact .settled (by rw [hrun.state_action]; rfl) rfl
    | ends hrun => exact .dead rfl
    | joins e hst => exact .same
    | nothing hrun hst => exact .same
  | _ => exact hr.bystander hstore (bystands_setThread hbefore rfl) .same

theorem StreamStep.recorded {op : StreamOp} (h : StreamStep cfg s t op s') (hr : s.Recorded) :
    s'.Recorded := by
  have hturns : ∀ o, s.Turns t o → s.state.Akin o.state := by
    intro o ho
    cases ho with
    | nothing => exact .same
    | ends hst => exact .dead rfl
  have hstore := h.store
  cases h with
  | receive | sendAck | close => exact hr.bystander hstore (fun _ => .inl rfl) .same
  | accept hphase hst ho =>
    exact hr.bystander hstore (fun _ => .inl rfl) (.settled (by rw [hst]; rfl) rfl)
  | refuse hphase o ho => exact hr.bystander hstore (fun _ => .inl rfl) (hturns o ho)
  | drop hphase o ho => exact hr.bystander hstore (fun _ => .inl rfl) (hturns o ho)

/-- Once `cleanup_entry` runs nothing is asked of the file any more. -/
theorem CleanupStep.recorded {call : CleanupCall} (h : CleanupStep s t role call s')
    (hr : s.Recorded) (hs : s.Sound) (hth : s.threads t = .cleaning role call) : s'.Recorded := by
  have hdead : s.state.live = false := hs.not_live_of_cleaning hth
  obtain ⟨services, metadata, unproven, archives, hstore, -⟩ := h.store
  refine hr.frame (congrArg Store.updateData hstore) (congrArg Store.applied hstore)
    (congrArg Store.successes hstore) ?_ ?_
  · intro u request pc hu
    by_cases hut : u = t
    · subst hut
      cases h <;> simp [setThread] at hu
    · exact .inl ((congrArg Slot.thread (h.slot hut)).symm.trans hu)
  · refine filed_of_not_live ?_
    cases h with
    | publish => rfl
    | _ => exact hdead

/-- A worker that does not give the session back leaves it terminated. -/
theorem Session.dead_of_concludes (hs : s.Sound) {k : CleanupOwner}
    (htoken : s.life.token t = some (.work k)) (h : Concludes k t s.state o)
    (hv : o.verdict ≠ .proceed) : o.state.live = false := by
  cases h with
  | releases now hrun => exact absurd rfl hv
  | ends hrun => rfl
  | joins e hst =>
    rw [hst]
    rfl
  | nothing hrun hst =>
    by_contra hlive
    obtain ⟨k', hk', hrun'⟩ := hs.owned.runs_of_token (by simpa [Outcome.unchanged] using hlive) htoken
    cases hk'
    exact hrun hrun'

/-! ### The initializer -/

theorem Session.Sound.state_of_initializer (hs : s.Sound) {pc : InitPc}
    (hth : s.threads t = .initializer pc) (hlive : s.state.live = true) :
    s.state = .initializing true := by
  have htoken : s.life.token t = some (.work .initializer) := by
    simp [life, hth, token]
  obtain ⟨k, hk, hrun⟩ := hs.owned.runs_of_token hlive htoken
  cases hk
  rw [life_state] at hrun
  generalize s.state = st at hrun
  cases hrun
  rfl

variable {s₀ : Session}

theorem Session.Recorded.initializer (hr : s.Recorded) (hs : s.Sound) {pc pc' : InitPc}
    (hth : s.threads t = .initializer pc) (hthreads : s₀.threads = s.threads)
    (hdata : s₀.updateData = s.updateData) (happlied : s₀.log.applied = s.log.applied)
    (hsuccesses : s₀.log.successes = s.log.successes)
    (hstate : s₀.state = s.state ∨ s₀.state.live = false)
    (hrecords : pc' = .commitElection → s₀.Records 0) :
    (s₀.setThread t (.initializer pc')).Recorded := by
  refine hr.leave hthreads hdata happlied hsuccesses nofun ?_
  by_cases hlive : s₀.state.live = true
  · have hsame : s₀.state = s.state := hstate.resolve_right (by simp [hlive])
    have hst := hs.state_of_initializer hth (hsame ▸ hlive)
    have hfiled := (filed_initializing hst).mp hr.filed
    rw [filed_initializing (s := s₀.setThread t _) (hsame.trans hst)]
    refine ⟨(congrArg _ hdata).trans hfiled.1, (congrArg _ happlied).trans hfiled.2.1, ?_⟩
    intro u hu
    by_cases hut : u = t
    · subst hut
      exact hrecords (by simpa [setThread] using hu)
    · -- there is only one initialize worker
      have hother : s.threads u = .initializer .commitElection := by
        simpa [setThread, hut, hthreads] using hu
      exact absurd (hs.owned.initializer u t (by simp [life, hother, token])
        (by simp [life, hth, token])) hut
  · have hdead : s₀.state.live = false := by simpa using hlive
    exact filed_of_not_live hdead

variable {w : WriteOutcome}

theorem WriteOutcome.replaces_of_ok (h : w.error? = none) : w.replaces = true := by
  cases w <;> first | rfl | cases h

theorem InitStep.recorded {pc : InitPc} (h : InitStep cfg s t pc answer s') (hr : s.Recorded)
    (hs : s.Sound) (hth : s.threads t = .initializer pc) : s'.Recorded := by
  cases h with
  | move pc' workspace hpc hpc' =>
    exact hr.initializer hs hth rfl rfl rfl rfl (.inl rfl) fun h => absurd h hpc'
  | recordStart | recordStartFailed | spawn | pass | dropMetadata =>
    exact hr.initializer hs hth rfl rfl rfl rfl (.inl rfl) (by rintro ⟨⟩)
  | recordService w rest pc' hpc' =>
    refine hr.initializer hs hth rfl rfl rfl rfl (.inl rfl) ?_
    rintro rfl
    simp at hpc'
  | commitMetadata w pc' hpc' =>
    refine hr.initializer hs hth rfl rfl rfl rfl (.inl rfl) ?_
    intro hpc
    obtain ⟨-, hw⟩ := hpc'.resolve_right (by simp [hpc])
    exact ⟨_, if_pos (WriteOutcome.replaces_of_ok hw), rfl, rfl⟩
  | abandon pc' hpc hpc' =>
    refine hr.initializer hs hth rfl rfl rfl rfl ?_ ?_
    · rcases abandonInitialization_cases (hs.initializing_of_initializer hth) with hsame | ⟨-, hab⟩
      · exact .inl hsame
      · exact .inr (by simp [enter, hab, SessionState.live])
    · rintro rfl
      rcases hpc' with h | h <;> cases h
  | win started hst =>
    obtain ⟨hrevision, happlied, helection⟩ := (filed_initializing hst).mp hr.filed
    refine hr.leave (r := s.enter t _) rfl rfl rfl rfl (by rintro _ _ ⟨⟩) ?_
    rw [filed_settled rfl]
    refine ⟨?_, happlied.trans hrevision.symm⟩
    show s.Records s.updateData.revision
    rw [hrevision]
    exact helection t hth
  | cleanup =>
    have hdead := dead_of_concludes hs (by simp [life, hth, token])
      (initializerCleanup_concludes t (hs.initializing_of_initializer hth))
      (initializerCleanup_ne_proceed false s.state)
    refine hr.bystander (store_perform _ _ _)
      (bystands_perform (by rw [hth]; rfl) fun _ => rfl) ?_
    rw [state_perform]
    exact .dead hdead

/-! ### The update worker -/

theorem Session.Sound.state_of_update (hs : s.Sound)
    (htoken : s.life.token t = some (.work .update)) (hlive : s.state.live = true) :
    s.state = .updating t := by
  obtain ⟨k, hk, hrun⟩ := hs.owned.runs_of_token hlive htoken
  cases hk
  exact hrun.state_update

/-- While the session is in the update of `t`, its worker is where the
invariant says. -/
theorem Session.Recorded.progress (hr : s.Recorded) (hth : s.threads t = .update request pc)
    (hst : s.state = .updating t) :
    request.baseRevision = s.updateData.revision ∧
      pc.Progress s.Records s.log.applied.length s.updateData.revision := by
  obtain ⟨request', pc', hth', hbase, hprogress⟩ := (filed_updating hst).mp hr.filed
  rw [hth] at hth'
  cases hth'
  exact ⟨hbase, hprogress⟩

theorem Session.Sound.filed_update (hs : s.Sound) (htoken : s.life.token t = some (.work .update))
    (hstate : s₀.state = s.state)
    (h : s.state = .updating t → request.baseRevision = s₀.updateData.revision ∧
      pc.Progress s₀.Records s₀.log.applied.length s₀.updateData.revision) :
    (s₀.setThread t (.update request pc)).Filed := by
  by_cases hlive : s.state.live = true
  · have hst := hs.state_of_update htoken hlive
    rw [filed_updating (s := s₀.setThread t _) (hstate.trans hst)]
    exact ⟨request, pc, by simp [setThread], h hst⟩
  · have hdead : s₀.state.live = false := by simpa [hstate] using hlive
    exact filed_of_not_live hdead

theorem Session.Recorded.move (hr : s.Recorded) (hs : s.Sound) {pc' : UpdatePc}
    (hth : s.threads t = .update request pc) (htoken : s.life.token t = some (.work .update))
    (hfresh : pc'.fresh = true → pc.fresh = true)
    (hprepared : ∀ md, pc'.metadata? = some md → pc.metadata? = some md ∨
      md.state = .ready ∧ md.workspaceRevision = request.baseRevision + 1)
    (hprogress : ∀ records applied n, pc.Progress records applied n →
      pc'.Progress records applied n) : (s.setThread t (.update request pc')).Recorded := by
  have hbefore : ∀ u request₁ pc₁,
      (s.setThread t (.update request pc')).threads u = .update request₁ pc₁ →
      pc₁.fresh = true → ∃ pc₀, s.threads u = .update request₁ pc₀ ∧ pc₀.fresh = true := by
    intro u request₁ pc₁ hu hpc
    rcases threads_of_setThread hu with ⟨rfl, hpc₁⟩ | ⟨-, hu⟩
    · cases hpc₁
      exact ⟨pc, hth, hfresh hpc⟩
    · exact ⟨pc₁, hu, hpc⟩
  refine ⟨hr.chain, ?_, ?_, ?_⟩
  · intro u request₁ pc₁ hu hpc
    obtain ⟨pc₀, hu₀, hpc₀⟩ := hbefore u request₁ pc₁ hu hpc
    obtain ⟨hbase, hlength, hunique⟩ := hr.fresh u request₁ pc₀ hu₀ hpc₀
    refine ⟨hbase, hlength, ?_⟩
    intro w request₂ pc₂ hw hpc₂
    obtain ⟨pc₃, hw₃, hpc₃⟩ := hbefore w request₂ pc₂ hw hpc₂
    exact hunique w request₂ pc₃ hw₃ hpc₃
  · intro u request₁ pc₁ md hu hmd
    rcases threads_of_setThread hu with ⟨rfl, hpc₁⟩ | ⟨-, hu⟩
    · cases hpc₁
      exact (hprepared md hmd).elim (hr.prepared u request pc md hth) id
    · exact hr.prepared u request₁ pc₁ md hu hmd
  · refine hs.filed_update htoken rfl fun hst => ?_
    exact (hr.progress hth hst).imp_right (hprogress _ _ _)

variable {md : DurableSessionMetadata} {changed deleted : List SessionUpdateEvidence}

theorem Session.Recorded.commit (hr : s.Recorded) (hs : s.Sound)
    (hth : s.threads t = .update request (.commit md changed deleted)) :
    ((((s.writeMetadata .ok md).noteRewrite t .ok).noteApplied request).setThread t
      (.update request (.applied changed deleted))).Recorded := by
  obtain ⟨hbase, hlength, hunique⟩ := hr.fresh t request _ hth rfl
  obtain ⟨hready, hrevision⟩ := hr.prepared t request _ md hth rfl
  have htoken : s.life.token t = some (.work .update) := by
    simp [life, hth, token]
  have hthreads : ∀ u request₁ pc₁,
      ((((s.writeMetadata .ok md).noteRewrite t .ok).noteApplied request).setThread t
        (.update request (.applied changed deleted))).threads u = .update request₁ pc₁ →
      pc₁.fresh = false ∧ (u = t ∧ pc₁.metadata? = none ∨ s.threads u = .update request₁ pc₁) := by
    intro u request₁ pc₁ hu
    rcases threads_of_setThread hu with ⟨rfl, hpc₁⟩ | ⟨hut, hu⟩
    · cases hpc₁
      exact ⟨rfl, .inl ⟨rfl, rfl⟩⟩
    · refine ⟨?_, .inr hu⟩
      by_contra hpc
      exact hut (hunique u request₁ pc₁ hu (by simpa using hpc))
  refine ⟨⟨hr.chain.counted, hr.chain.latest, hr.chain.chained, ?_⟩, ?_, ?_, ?_⟩
  · -- the new entry stands at the end, and its base is the current revision
    intro k a ha
    have ha : (s.log.applied ++ [(⟨request.requestId, request.digest, request.baseRevision⟩ :
      AppliedUpdate)])[k]? = some a := ha
    rw [List.getElem?_append] at ha
    split at ha
    · exact hr.chain.applied k a ha
    · rename_i hk
      obtain ⟨hk', rfl⟩ := List.getElem?_eq_some_iff.mp ha
      simp only [List.length_singleton] at hk'
      simp only [List.getElem_singleton]
      omega
  · intro u request₁ pc₁ hu hpc
    rw [(hthreads u request₁ pc₁ hu).1] at hpc
    cases hpc
  · intro u request₁ pc₁ md' hu hmd
    rcases (hthreads u request₁ pc₁ hu).2 with ⟨-, hnone⟩ | hu
    · rw [hnone] at hmd
      cases hmd
    · exact hr.prepared u request₁ pc₁ md' hu hmd
  · refine hs.filed_update htoken rfl fun _ => ⟨hbase, ?_, ?_⟩
    · exact ⟨md, rfl, hready, by rw [hrevision, hbase]; rfl⟩
    · show (s.log.applied ++ [_]).length = s.updateData.revision + 1
      rw [List.length_append, hlength, List.length_singleton]

theorem Session.Recorded.commitFail (hr : s.Recorded) (hs : s.Sound) {err : SourceUpdateError}
    (herr : err.rollbackProven = false)
    (hth : s.threads t = .update request (.commit md changed deleted)) :
    (((s.writeMetadata w md).noteRewrite t w).setThread t
      (.update request (.rollback err))).Recorded := by
  obtain ⟨hready, hrevision⟩ := hr.prepared t request _ md hth rfl
  have htoken : s.life.token t = some (.work .update) := by
    simp [life, hth, token]
  refine hr.leave (r := (s.writeMetadata w md).noteRewrite t w) rfl rfl rfl rfl ?_
    (hs.filed_update htoken rfl fun hst => ?_)
  · rintro _ _ ⟨⟩
    exact ⟨rfl, rfl⟩
  · obtain ⟨hbase, hrecords, hlength⟩ := hr.progress hth hst
    refine ⟨hbase, ?_, hlength⟩
    cases hw : w.replaces with
    | true =>
      refine .inr ⟨herr, md, if_pos hw, hready, ?_⟩
      rw [hrevision, hbase]
      rfl
    | false =>
      obtain ⟨md', hmd', hrest⟩ := hrecords
      refine .inl ⟨md', ?_, hrest⟩
      exact (if_neg (by simp [hw])).trans hmd'

theorem Session.Recorded.succeed (hr : s.Recorded)
    (hth : s.threads t = .update request (.applied changed deleted)) (hst : s.state = .updating t) :
    (((s.enter t { state := .ready s.now, verdict := .proceed }).setThread t (.update request
      (.returning (.ok (updateResponse cfg t request changed deleted))))).succeedUpdate
        cfg t request changed deleted).Recorded := by
  obtain ⟨hbase, hrecords, hlength⟩ := hr.progress hth hst
  have hcounted : s.updateData.revision = s.log.successes.length := hr.chain.counted
  have hthreads : ∀ u request₁ pc₁, Function.update s.threads t (.update request
      (.returning (.ok (updateResponse cfg t request changed deleted)))) u = .update request₁ pc₁ →
      pc₁.fresh = false ∧ pc₁.metadata? = none ∨ s.threads u = .update request₁ pc₁ := by
    intro u request₁ pc₁ hu
    rcases threads_of_setThread (s := s) hu with ⟨-, hpc₁⟩ | ⟨-, hu⟩
    · cases hpc₁
      exact .inl ⟨rfl, rfl⟩
    · exact .inr hu
  refine ⟨⟨?_, ?_, ?_, hr.chain.applied⟩, ?_, ?_, ?_⟩
  · show request.baseRevision + 1 = (s.log.successes ++ [_]).length
    rw [List.length_append, List.length_singleton, hbase, hcounted]
  · show some _ = (s.log.successes ++ [_]).getLast?
    rw [List.getLast?_append]
    rfl
  · intro k x hx
    have hx : (s.log.successes ++ [(⟨request.requestId, request.digest,
      updateResponse cfg t request changed deleted⟩ : SuccessfulUpdate)])[k]? = some x := hx
    rw [List.getElem?_append] at hx
    split at hx
    · exact hr.chain.chained k x hx
    · rename_i hk
      obtain ⟨hk', rfl⟩ := List.getElem?_eq_some_iff.mp hx
      simp only [List.length_singleton] at hk'
      obtain rfl : k = request.baseRevision := by omega
      simp only [List.getElem_singleton]
      exact ⟨rfl, rfl⟩
  · -- an update that is still fresh would have the session
    intro u request₁ pc₁ hu hpc
    exfalso
    rcases hthreads u request₁ pc₁ hu with ⟨hfresh, -⟩ | hu
    · rw [hpc] at hfresh
      cases hfresh
    · obtain ⟨-, happlied, -⟩ := hr.fresh u request₁ pc₁ hu hpc
      omega
  · intro u request₁ pc₁ md hu hmd
    rcases hthreads u request₁ pc₁ hu with ⟨-, hnone⟩ | hu
    · rw [hnone] at hmd
      cases hmd
    · exact hr.prepared u request₁ pc₁ md hu hmd
  · rw [filed_settled rfl]
    refine ⟨?_, ?_⟩
    · show s.Records (request.baseRevision + 1)
      rw [hbase]
      exact hrecords
    · show s.log.applied.length = request.baseRevision + 1
      rw [hbase]
      exact hlength

theorem UpdateStep.recorded (h : UpdateStep cfg s t request pc s') (hr : s.Recorded) (hs : s.Sound)
    (hth : s.threads t = .update request pc) : s'.Recorded := by
  have htoken : ∀ token, (update request pc).token (s.log.accepted t) = token →
      s.life.token t = token := by
    rintro token rfl
    simp [life, hth]
  -- the end of a worker that has lost the session
  have hdead : ∀ (o : Outcome) (role : Role) (result : Result), o.state.live = false →
      (s.perform t o role fun _ => .returned result).Recorded := by
    intro o role result ho
    have hstore := store_perform (s := s) (t := t) o role fun _ => .returned result
    refine hr.frame (congrArg Store.updateData hstore) (congrArg Store.applied hstore)
      (congrArg Store.successes hstore) ?_ (filed_of_not_live (by simpa using ho))
    intro u request₁ pc₁ hu
    unfold perform at hu
    split at hu
    all_goals
      rcases threads_of_setThread (s := s.enter t o) hu with ⟨-, hne⟩ | ⟨-, hu⟩
      · cases hne
      · exact .inl hu
  cases h with
  | refuse err herr =>
    exact hr.move hs hth (htoken _ rfl) (by rintro ⟨⟩) (by rintro md ⟨⟩)
      fun _ _ _ hp => ⟨.inl hp.1, hp.2⟩
  | prepare =>
    refine hr.move hs hth (htoken _ rfl) (fun _ => rfl) ?_ fun _ _ _ hp => hp
    rintro md ⟨⟩
    exact .inr ⟨rfl, rfl⟩
  | mutate md changed deleted =>
    exact hr.move hs hth (htoken _ rfl) (fun _ => rfl) (fun _ hmd => .inl hmd) fun _ _ _ hp => hp
  | applyFail md err pc' herr hpc' =>
    rcases hpc' with rfl | rfl <;>
      exact hr.move hs hth (htoken _ rfl) (by rintro ⟨⟩) (by rintro md ⟨⟩)
        fun _ _ _ hp => ⟨.inl hp.1, hp.2⟩
  | commit md changed deleted => exact hr.commit hs hth
  | commitFail md changed deleted w err herr => exact hr.commitFail hs herr hth
  | rollBack err err' herr =>
    refine hr.move hs hth (htoken _ rfl) (by rintro ⟨⟩) (by rintro md ⟨⟩) fun _ _ _ hp => ⟨?_, hp.2⟩
    rcases hp.1 with hn | ⟨hunproven, hn⟩
    · exact .inl hn
    · exact .inr ⟨herr.elim (fun h => h ▸ hunproven) id, hn⟩
  | succeed changed deleted hst => exact hr.succeed hth hst
  | giveBack err herr hst =>
    obtain ⟨hbase, hrecords, hlength⟩ := hr.progress hth hst
    refine hr.leave (r := s.enter t _) rfl rfl rfl rfl ?_ ?_
    · rintro _ _ ⟨⟩
      exact ⟨rfl, rfl⟩
    · rw [filed_settled rfl]
      refine ⟨hrecords.resolve_right ?_, hlength⟩
      rintro ⟨hunproven, -⟩
      rw [herr] at hunproven
      cases hunproven
  | conclude hpc o err err' ho hv =>
    have hwork : s.life.token t = some (.work .update) := by
      rcases hpc with ⟨_, rfl⟩ | ⟨_, _, rfl⟩ <;> exact htoken _ rfl
    exact hdead o _ _ (dead_of_concludes hs hwork (ho (hs.updating_of_token hwork)) hv)
  | finish result =>
    exact hr.bystander rfl (bystands_setThread (by rw [hth]; rfl) rfl) .same
  | lookUp late hreg =>
    cases late with
    | true => exact hr.bystander rfl (bystands_setThread (by rw [hth]; rfl) rfl) .same
    | false =>
      exact hr.move hs hth (htoken _ rfl) (by rintro ⟨⟩) (by rintro md ⟨⟩) fun _ _ _ hp => hp
  | lookUpFail late hreg =>
    -- a session that has left the registry is past its termination
    refine hr.leave rfl rfl rfl rfl (by rintro _ _ ⟨⟩) (filed_of_not_live ?_)
    by_contra hlive
    have hregistered := hs.owned.registered_of_live (by simpa [setThread] using hlive)
    rw [show s.life.registered = _ from hreg] at hregistered
    cases hregistered
  | handle late owner howner =>
    rcases updateWorkerPanicked_cases s.state with ⟨u, hst, ho⟩ | ⟨e, hst, ho⟩ | ⟨hst, hterm, ho⟩
    · exact hdead _ _ _ (by rw [ho]; rfl)
    · exact hdead _ _ _ (by rw [ho, hst]; rfl)
    · cases late with
      | true =>
        refine hr.bystander (store_perform _ _ _)
          (bystands_perform (by rw [hth]; rfl) fun _ => rfl) ?_
        rw [state_perform, ho]
        exact .same
      | false =>
        refine hdead _ _ _ ?_
        rw [ho]
        by_contra hlive
        exact hst ⟨t, hs.state_of_update (htoken _ rfl) (by simpa [Outcome.unchanged] using hlive)⟩

/-! ### All steps -/

theorem UpdatePc.progress_panicked (h : pc.Progress records applied n) :
    (UpdatePc.panicked false).Progress records applied n := by
  cases pc with
  | begin | apply md | commit md changed deleted => exact ⟨rfl, .inl h.1, .inl h.2⟩
  | applied changed deleted => exact ⟨rfl, .inr h.1, .inr h.2⟩
  | rollback err | failed err => exact ⟨rfl, h.1.imp id And.right, .inl h.2⟩
  | panicked late | panicLookedUp late => exact ⟨rfl, h.2⟩
  | returning result => exact absurd h id

variable {e : Event}

theorem SessionStep.recorded (h : SessionStep cfg s e s') (hr : s.Recorded) (hs : s.Sound) :
    s'.Recorded := by
  cases h with
  | tick | cancelInitialization | cancelAction =>
    exact hr.bystander rfl (fun _ => .inl rfl) .same
  | call t op hth h => exact h.recorded hr hs hth
  | init t pc answer hth h => exact h.recorded hr hs hth
  | action t pc answer hth h => exact h.recorded hr hth
  | update t request pc answer hth h => exact h.recorded hr hs hth
  | cleanup t role call answer hth h => exact h.recorded hr hs hth
  | answer t answer response hth hst =>
    exact hr.bystander rfl (bystands_setThread (by rw [hth]; rfl) rfl) .same
  | stream t op h => exact h.recorded hr
  | panic t request late hpoint =>
    rcases panicPoint_cases hpoint with ⟨pc, hth, hpc⟩ | ⟨err, call, hth, rfl, hstage⟩
    · cases late with
      | true =>
        have hbefore : (s.threads t).bystands = true := by
          rw [hth] at hpoint ⊢
          cases pc <;> first | rfl | simp [panicPoint] at hpoint
        exact hr.bystander rfl (bystands_setThread hbefore rfl) .same
      | false =>
        refine hr.move hs hth ?_ (by rintro ⟨⟩) (by rintro md ⟨⟩)
          fun _ _ _ hp => UpdatePc.progress_panicked hp
        exact (hpc (s.log.accepted t)).symm
    · -- the cleanup of an update panics in a session that is terminating
      refine hr.leave rfl rfl rfl rfl ?_ (filed_of_not_live (hs.not_live_of_cleaning hth))
      rintro _ _ ⟨⟩
      exact ⟨rfl, rfl⟩

variable {es : List Event}

theorem recorded_of_exec (h : exec (step cfg) .reserved es = some s) : s.Recorded := by
  have hinit : reserved.Recorded := by
    refine ⟨⟨rfl, rfl, ?_, ?_⟩, ?_, ?_, ?_⟩
    · rintro k u ⟨⟩
    · rintro k a ⟨⟩
    · rintro t request pc ⟨⟩
    · rintro t request pc md ⟨⟩
    · exact ⟨rfl, rfl, by rintro t ⟨⟩⟩
  refine (exec_invariant_all (P := fun s => s.Sound ∧ s.Recorded) ?_
    ⟨reserved_sound, hinit⟩ h).2
  rintro m e m' ⟨hm, hr⟩ hstep
  exact ⟨hm.step hstep, (step_cases hstep).recorded hr hm⟩

/-! ### What a failed update left alone -/

/-- A point at which the update has not rewritten the metadata file, or an
error that says so. -/
def UpdatePc.untouched : UpdatePc → Bool
  | .begin | .apply _ | .commit _ _ _ => true
  | .rollback err | .failed err => err.rollbackProven
  | .returning (.error _) => true
  | _ => false

structure Slot.Careful (x : Slot) : Prop where
  absent : x.thread = .absent → x.rewrote = false
  untouched : ∀ request pc, x.thread = .update request pc → pc.untouched = true → x.rewrote = false

/-- Not an update, and not a thread that could become one. -/
def Thread.uninvolved : Thread → Bool
  | .absent | .update _ _ => false
  | _ => true

variable {x : Slot}

theorem Slot.Careful.of_uninvolved (h : x.thread.uninvolved = true) : x.Careful := by
  refine ⟨fun hx => ?_, fun request pc hx => ?_⟩
  · rw [hx] at h
    cases h
  · rw [hx] at h
    cases h

theorem Slot.Careful.of_update (hth : x.thread = .update request pc)
    (h : pc.untouched = true → x.rewrote = false) : x.Careful := by
  refine ⟨fun hx => ?_, fun request' pc' hx hpc => ?_⟩
  · rw [hth] at hx
    cases hx
  · rw [hth] at hx
    cases hx
    exact h hpc

theorem Session.careful_perform {next : Verdict → Thread} (hnext : ∀ v, (next v).uninvolved = true) :
    ((s.perform t o role next).slot t).Careful := by
  rcases slot_perform_self (s := s) (t := t) o role next with ⟨e, -, hslot⟩ | ⟨-, hslot⟩
  · rw [hslot]
    exact .of_uninvolved rfl
  · rw [hslot]
    exact .of_uninvolved (hnext _)

theorem Session.careful_setThread (h : th.uninvolved = true) :
    ((s₀.setThread t th).slot t).Careful := by
  rw [slot_setThread_self]
  exact .of_uninvolved h

theorem UpdateStep.careful (h : UpdateStep cfg s t request pc s') (hx : (s.slot t).Careful)
    (hth : s.threads t = .update request pc) : (s'.slot t).Careful := by
  have hbefore : pc.untouched = true → (s.slot t).rewrote = false := hx.untouched request pc hth
  have hmove : ∀ (s₀ : Session) pc', s₀.slot t = s.slot t →
      (pc'.untouched = true → pc.untouched = true) →
      ((s₀.setThread t (.update request pc')).slot t).Careful := by
    intro s₀ pc' hslot hpc'
    rw [slot_setThread_self, hslot]
    exact .of_update rfl fun h => hbefore (hpc' h)
  cases h with
  | refuse | prepare | mutate | applyFail => exact hmove _ _ rfl fun _ => rfl
  | commit md changed deleted =>
    rw [slot_setThread_self]
    exact .of_update rfl (by rintro ⟨⟩)
  | commitFail md changed deleted w err herr =>
    rw [slot_setThread_self]
    exact .of_update rfl fun hproven => by rw [show err.rollbackProven = true from hproven] at herr; cases herr
  | rollBack err err' herr =>
    refine hmove _ _ rfl fun hproven => ?_
    rcases herr with rfl | hunproven
    · exact hproven
    · rw [show err'.rollbackProven = true from hproven] at hunproven
      cases hunproven
  | succeed changed deleted hst =>
    show (((s.enter t _).setThread t _).slot t).Careful
    rw [slot_setThread_self]
    exact .of_update rfl (by rintro ⟨⟩)
  | giveBack err herr hst => exact hmove _ _ rfl fun _ => herr
  | conclude | handle => exact careful_perform fun _ => rfl
  | finish | lookUpFail => exact careful_setThread rfl
  | lookUp late hreg => exact hmove _ _ rfl (by rintro ⟨⟩)

theorem SessionStep.careful (h : SessionStep cfg s e s') (hx : ∀ t, (s.slot t).Careful) (t : Nat) :
    (s'.slot t).Careful := by
  by_cases ht : e.thread = some t
  · cases h with
    | tick | cancelInitialization | cancelAction => cases ht
    | call u op hth h =>
      cases ht
      cases h with
      | request | begin => exact careful_perform fun _ => rfl
      | stop => exact careful_perform (by rintro (_ | _ | _ | _) <;> rfl)
      | reject => exact careful_setThread rfl
      | startAction =>
        rw [slot_setStream_self, slot_setThread_self]
        exact .of_uninvolved rfl
      | startUpdate =>
        rw [slot_setThread_self]
        exact .of_update rfl fun _ => (hx t).absent hth
    | init u pc answer hth h =>
      cases ht
      cases h with
      | cleanup => exact careful_perform fun _ => rfl
      | _ => exact careful_setThread rfl
    | action u pc answer hth h =>
      cases ht
      cases h with
      | finish => exact careful_perform fun _ => rfl
      | send =>
        rw [slot_setStream_self, slot_setThread_self]
        exact .of_uninvolved rfl
      | _ => exact careful_setThread rfl
    | update u request pc answer hth h =>
      cases ht
      exact h.careful (hx t) hth
    | cleanup u role call answer hth h =>
      cases ht
      cases h with
      | _ => exact careful_setThread rfl
    | answer u answer response hth hst =>
      cases ht
      exact careful_setThread rfl
    | stream u op h =>
      cases ht
      cases h with
      | _ => exact ⟨(hx t).absent, (hx t).untouched⟩
    | panic u request late hpoint =>
      cases ht
      rw [slot_setThread_self]
      exact .of_update rfl (by rintro ⟨⟩)
  · rw [h.slot ht]
    exact hx t

theorem careful_of_exec (h : exec (step cfg) .reserved es = some s) (t : Nat) :
    (s.slot t).Careful := by
  have hinit : ∀ t, (reserved.slot t).Careful :=
    fun t => ⟨fun _ => rfl, by rintro request pc ⟨⟩⟩
  exact exec_invariant_all (P := fun s : Session => ∀ t, (s.slot t).Careful)
    (fun _ _ _ hx hstep => (step_cases hstep).careful hx) hinit h t

end

/-- The metadata file and the revision in memory agree. In a ready session
and during an action the file is that of a ready session at the current
revision, which counts the successful updates; during an update it may be one
ahead; and an update that failed and gave the session back has not rewritten
it. -/
theorem durable_revision_agrees {cfg : SessionConfig} {es : List Event} {s : Session}
    (hrun : exec (step cfg) .reserved es = some s) :
    ((∃ n, s.state = .ready n) ∨ (∃ a, s.state = .action a) →
      s.Records s.updateData.revision) ∧
    s.updateData.revision = s.log.successes.length ∧
    (∀ u, s.state = .updating u →
      s.Records s.updateData.revision ∨ s.Records (s.updateData.revision + 1)) ∧
    (∀ t request err, s.threads t = .update request (.returning (.error err)) →
      s.log.rewrote t = false) := by
  have hr := recorded_of_exec hrun
  refine ⟨?_, hr.chain.counted, ?_, ?_⟩
  · intro hst
    have hsettled : s.state.settled = true := by
      rcases hst with ⟨n, hst⟩ | ⟨a, hst⟩
      · rw [hst]
        rfl
      · rw [hst]
        rfl
    exact ((Session.filed_settled hsettled).mp hr.filed).1
  · intro u hst
    obtain ⟨request, pc, -, -, hprogress⟩ := (Session.filed_updating hst).mp hr.filed
    exact (UpdatePc.progress_panicked hprogress).2.1
  · intro t request err hth
    exact (careful_of_exec hrun t).untouched request _ hth rfl

def sampleUpdate (id : String) (base : Nat) : UpdateRequest :=
  ⟨id, Vector.replicate 32 (.ofNat base), base⟩

/-- An update that succeeds, up to the point where it returns. -/
def updateRun (t : Nat) (request : UpdateRequest) : List Event :=
  [.call t (.startUpdate request), .run t .go, .run t (.mutated [] []), .run t (.wrote .ok), .run t .go]

/-- One update succeeds, and the next one is rejected before it changes
anything. -/
theorem durable_revision_agrees_two : ∃ s,
    exec (step sampleConfig) .reserved (readyRun ++ updateRun 1 (sampleUpdate "a" 0) ++
      [.call 2 (.startUpdate (sampleUpdate "b" 1)), .run 2 .go,
        .run 2 (.applyFailed .badRequest "empty archive" false), .run 2 .go]) = some s ∧
    s.state = .ready 0 ∧ s.updateData.revision = 1 ∧ s.Records 1 ∧ s.log.rewrote 2 = false := by
  have hrun : exec (step sampleConfig) .reserved (readyRun ++ updateRun 1 (sampleUpdate "a" 0) ++
    [.call 2 (.startUpdate (sampleUpdate "b" 1)), .run 2 .go,
      .run 2 (.applyFailed .badRequest "empty archive" false), .run 2 .go]) = some _ := rfl
  obtain ⟨hfile, -, -, hfailed⟩ := durable_revision_agrees hrun
  exact ⟨_, hrun, rfl, rfl, hfile (.inl ⟨0, rfl⟩), hfailed 2 (sampleUpdate "b" 1) _ rfl⟩

end IndenturedServer.Sessions
