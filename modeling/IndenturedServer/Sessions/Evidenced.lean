import IndenturedServer.Sessions.Updates

/-!
Where the evidence in a response comes from.

The worker of an update gets the evidence from `apply_update`, carries it over
the commit, and puts it into the response. The response is kept for a retry,
which has the same request id and the same digest. If `apply_update` has only
returned evidence that is `Good` for the request at hand, then every response
that a call gets has been built from evidence that is good for a request with
the id and the digest of that call.
-/

namespace IndenturedServer.Sessions

open Foundation Session

section
variable (cfg : SessionConfig)
  (Good : UpdateRequest → List SessionUpdateEvidence → List SessionUpdateEvidence → Prop)

def Answers (requestId : String) (digest : Digest) (response : SessionUpdateResponse) : Prop :=
  ∃ t request changed deleted, request.requestId = requestId ∧ request.digest = digest ∧
    request.baseRevision + 1 < 2 ^ 64 ∧ Good request changed deleted ∧
    response = updateResponse cfg t request changed deleted

def UpdatePc.Evidenced (request : UpdateRequest) : UpdatePc → Prop
  | .apply _ => request.baseRevision + 1 < 2 ^ 64
  | .commit _ changed deleted => request.baseRevision + 1 < 2 ^ 64 ∧ Good request changed deleted
  | .applied changed deleted => request.baseRevision + 1 < 2 ^ 64 ∧ Good request changed deleted
  | .returning (.ok response) => Answers cfg Good request.requestId request.digest response
  | _ => True

def Thread.Evidenced : Thread → Prop
  | .update request pc => pc.Evidenced cfg Good request
  | _ => True

structure Session.Evidenced (s : Session) : Prop where
  threads : ∀ t, (s.threads t).Evidenced cfg Good
  successes : ∀ x ∈ s.log.successes, Answers cfg Good x.requestId x.digest x.response

/-- Evidence is good when `apply_update` returns it. -/
def GoodStep (s : Session) (e : Event) : Prop :=
  ∀ t request metadata changed deleted, s.threads t = .update request (.apply metadata) →
    e = .run t (.mutated changed deleted) → Good request changed deleted

/-- Good evidence for a request whose base is the one of its digest. -/
def Based (baseOf : Digest → Nat) (request : UpdateRequest)
    (changed deleted : List SessionUpdateEvidence) : Prop :=
  request.baseRevision = baseOf request.digest ∧ Good request changed deleted

variable {cfg : SessionConfig} {s s' : Session} {t : Nat}
  {Good : UpdateRequest → List SessionUpdateEvidence → List SessionUpdateEvidence → Prop}

theorem Session.evidenced_setThread (s : Session) {th : Thread} (h : th.Evidenced cfg Good) :
    ((s.setThread t th).threads t).Evidenced cfg Good := by
  simpa [setThread] using h

variable {role : Role}

theorem Session.evidenced_perform {o : Outcome} {next : Verdict → Thread}
    (hnext : ∀ v, (next v).Evidenced cfg Good) :
    ((s.perform t o role next).threads t).Evidenced cfg Good := by
  unfold perform
  split
  · simp [startCleanup, Thread.Evidenced]
  · exact evidenced_setThread _ (hnext _)

theorem CallStep.evidenced {op : Call} (h : CallStep s t op s') :
    (s'.threads t).Evidenced cfg Good := by
  cases h with
  | request | begin => exact evidenced_perform fun _ => trivial
  | stop => exact evidenced_perform (by rintro (_ | _ | _ | _) <;> trivial)
  | reject => exact evidenced_setThread s trivial
  | startAction => exact evidenced_setThread { s with state := _ } trivial
  | startUpdate => exact evidenced_setThread { s with state := _ } trivial

variable {answer : Answer}

theorem InitStep.evidenced {pc : InitPc} (h : InitStep cfg s t pc answer s') :
    (s'.threads t).Evidenced cfg Good := by
  cases h with
  | cleanup => exact evidenced_perform fun _ => trivial
  | _ => exact evidenced_setThread _ trivial

theorem ActionStep.evidenced {pc : ActionPc} (h : ActionStep s t pc answer s') :
    (s'.threads t).Evidenced cfg Good := by
  cases h with
  | finish => exact evidenced_perform fun _ => trivial
  | send => exact evidenced_setThread s trivial
  | _ => exact evidenced_setThread _ trivial

theorem CleanupStep.evidenced {call : CleanupCall} (h : CleanupStep s t role call s') :
    (s'.threads t).Evidenced cfg Good := by
  cases h with
  | _ => exact evidenced_setThread _ trivial

variable {request : UpdateRequest}

/-- An update is only applied when its revision can be counted up. -/
theorem updateStep_begin (h : updateStep cfg s t request .begin answer = some s') :
    (s'.threads t).Evidenced cfg Good := by
  simp only [updateStep] at h
  split at h <;> cases h
  · exact evidenced_setThread s trivial
  · exact evidenced_setThread s trivial
  · rename_i hnext
    apply evidenced_setThread s
    simp only [nextRevision, Option.ite_none_right_eq_some] at hnext
    exact hnext.1

/-- The worker keeps the evidence that `apply_update` gave it. -/
theorem updateStep_apply {metadata : DurableSessionMetadata}
    (h : updateStep cfg s t request (.apply metadata) answer = some s')
    (hrevision : request.baseRevision + 1 < 2 ^ 64)
    (hgood : ∀ changed deleted, answer = .mutated changed deleted → Good request changed deleted) :
    (s'.threads t).Evidenced cfg Good := by
  cases answer with
  | mutated changed deleted =>
    simp only [updateStep] at h
    split at h <;> cases h
    exact evidenced_setThread s ⟨hrevision, hgood changed deleted rfl⟩
  | applyFailed kind message mutating =>
    simp only [updateStep] at h
    split at h <;> cases h
    apply evidenced_setThread s
    cases mutating <;> trivial
  | _ => cases h

variable {pc : UpdatePc}

theorem updateStep_evidenced (h : updateStep cfg s t request pc answer = some s')
    (hpc : pc.Evidenced cfg Good request)
    (hgood : ∀ metadata changed deleted, pc = .apply metadata →
      answer = .mutated changed deleted → Good request changed deleted) :
    (s'.threads t).Evidenced cfg Good := by
  cases updateStep_cases h with
  | refuse | prepare => exact updateStep_begin h
  | mutate | applyFail => exact updateStep_apply h hpc fun _ _ => hgood _ _ _ rfl
  | commit | lookUp => exact evidenced_setThread _ hpc
  | succeed changed deleted =>
    have hth : Thread.Evidenced cfg Good (.update request
        (.returning (.ok (updateResponse cfg t request changed deleted)))) :=
      ⟨t, request, changed, deleted, rfl, rfl, hpc.1, hpc.2, rfl⟩
    exact evidenced_setThread (s.enter t _) hth
  | conclude | handle => exact evidenced_perform fun _ => trivial
  | _ => exact evidenced_setThread _ trivial

theorem Session.answered_of_eq (h : s'.log.successes = s.log.successes)
    (hs : ∀ x ∈ s.log.successes, Answers cfg Good x.requestId x.digest x.response) :
    ∀ x ∈ s'.log.successes, Answers cfg Good x.requestId x.digest x.response := by
  rw [h]
  exact hs

theorem UpdateStep.successes (h : UpdateStep cfg s t request pc s')
    (hpc : pc.Evidenced cfg Good request)
    (hs : ∀ x ∈ s.log.successes, Answers cfg Good x.requestId x.digest x.response) :
    ∀ x ∈ s'.log.successes, Answers cfg Good x.requestId x.digest x.response := by
  cases h with
  | succeed changed deleted =>
    intro x hx
    rcases List.mem_append.mp hx with hx | hx
    · exact hs x hx
    · rw [List.mem_singleton.mp hx]
      exact ⟨t, request, changed, deleted, rfl, rfl, hpc.1, hpc.2, rfl⟩
  | conclude | handle =>
    exact answered_of_eq (congrArg Store.successes (store_perform _ _ _)) hs
  | _ => exact hs

theorem step_evidenced {e : Event} (h : step cfg s e = some s') (hs : s.Evidenced cfg Good)
    (hgood : GoodStep Good s e) : s'.Evidenced cfg Good := by
  have hstep := step_cases h
  constructor
  · intro u
    by_cases hu : e.thread = some u
    · cases hstep with
      | tick | cancelInitialization | cancelAction => exact hs.threads u
      | call t op hth h =>
        cases hu
        exact h.evidenced
      | init t pc answer hth h =>
        cases hu
        exact h.evidenced
      | action t pc answer hth h =>
        cases hu
        exact h.evidenced
      | update t request pc answer hth =>
        cases hu
        have hpc := hs.threads u
        rw [hth] at hpc
        simp only [step, runStep, hth] at h
        refine updateStep_evidenced h hpc ?_
        rintro metadata changed deleted rfl rfl
        exact hgood u request metadata changed deleted hth rfl
      | cleanup t role call answer hth h =>
        cases hu
        exact h.evidenced
      | answer t | panic t =>
        cases hu
        exact evidenced_setThread s trivial
      | stream t op h =>
        cases hu
        cases h <;> exact hs.threads u
    · have hslot : s'.threads u = s.threads u := congrArg Slot.thread (hstep.slot hu)
      rw [hslot]
      exact hs.threads u
  · cases hstep with
    | tick | cancelInitialization | cancelAction | answer | panic => exact hs.successes
    | call t op hth h => exact answered_of_eq (congrArg Store.successes h.store) hs.successes
    | action t pc answer hth h =>
      exact answered_of_eq (congrArg Store.successes h.store) hs.successes
    | stream t op h => exact answered_of_eq (congrArg Store.successes h.store) hs.successes
    | init t pc answer hth h =>
      obtain ⟨services, metadata, hstore⟩ := h.store
      exact answered_of_eq (congrArg Store.successes hstore) hs.successes
    | cleanup t role call answer hth h =>
      obtain ⟨services, metadata, unproven, archives, hstore, -⟩ := h.store
      exact answered_of_eq (congrArg Store.successes hstore) hs.successes
    | update t request pc answer hth h =>
      have hpc := hs.threads t
      rw [hth] at hpc
      exact h.successes hpc hs.successes

/-- The responses of a run are built from good evidence, for requests whose
base is the one that belongs to their digest. -/
theorem evidenced_of_exec {baseOf : Digest → Nat} {es : List Event}
    (hdigest : ∀ t request, .call t (.startUpdate request) ∈ es →
      request.baseRevision = baseOf request.digest)
    (hgood : Meets (step cfg) (GoodStep Good) .reserved es)
    (hrun : exec (step cfg) .reserved es = some s) :
    s.Evidenced cfg (Based Good baseOf) := by
  have hinit : reserved.Evidenced cfg (Based Good baseOf) := ⟨fun _ => trivial, nofun⟩
  have hok : Meets (step cfg) (fun s e => GoodStep Good s e ∧ ∀ t request,
      e = .call t (.startUpdate request) → request.baseRevision = baseOf request.digest)
      .reserved es := by
    refine hgood.and (meets_of_forall ?_)
    rintro e he _ t request rfl
    exact hdigest t request he
  have htraced : reserved.Traced baseOf := by
    have hnone : ∀ t request, Event.call t (.startUpdate request) ∈ [] →
        request.baseRevision = baseOf request.digest := nofun
    exact traced_of_exec hnone (rfl : exec (step cfg) .reserved [] = _)
  refine (exec_invariant (P := fun s => s.Traced baseOf ∧ s.Evidenced cfg (Based Good baseOf)) ?_
    ⟨htraced, hinit⟩ hok hrun).2
  rintro s e s' ⟨htraced, hs⟩ ⟨hgood, hcall⟩ hstep
  refine ⟨(step_cases hstep).traced htraced hcall, step_evidenced hstep hs ?_⟩
  rintro t request metadata changed deleted hth rfl
  refine ⟨htraced.pending t request ?_, hgood t request metadata changed deleted hth rfl⟩
  rw [hth]
  rfl

variable {response : SessionUpdateResponse}

theorem admitUpdate_retry {data : SessionUpdateData}
    (h : admitUpdate data request = .ok (.retry response)) :
    ∃ x, data.lastSuccess = some x ∧ x.requestId = request.requestId ∧
      x.digest = request.digest ∧ x.response = response := by
  unfold admitUpdate at h
  split at h
  · rename_i x hlast
    split at h
    · rename_i hid
      split at h <;> cases h
      exact ⟨x, hlast, hid, ‹_›, rfl⟩
    · split at h <;> cases h
  · split at h <;> cases h

/-- The session gives `response` to the update call of thread `t`: its worker
returns it, or the call was a retry. -/
def Session.Responds (cfg : SessionConfig) (s : Session) (t : Nat) (request : UpdateRequest)
    (response : SessionUpdateResponse) : Prop :=
  s.threads t = .update request (.returning (.ok response)) ∨
    ∃ s', step cfg s (.call t (.startUpdate request)) = some s' ∧
      s'.threads t = .returned (.updateAdmission (.ok response))

theorem callStep_answered (h : callStep cfg s t (.startUpdate request) = some s')
    (hth : s'.threads t = .returned (.updateAdmission (.ok response))) :
    admitUpdate s.updateData request = .ok (.retry response) := by
  simp only [callStep] at h
  split at h
  · split at h <;> cases h <;> simp [setThread] at hth
    subst hth
    exact (startUpdate_ok ‹_›).2.2
  · cases h
    simp [setThread] at hth

theorem Session.Evidenced.responds (hs : s.Evidenced cfg Good)
    (hlast : s.updateData.lastSuccess = s.log.successes.getLast?)
    (h : s.Responds cfg t request response) :
    Answers cfg Good request.requestId request.digest response := by
  rcases h with hth | ⟨s', hstep, hth⟩
  · have hanswers := hs.threads t
    rw [hth] at hanswers
    exact hanswers
  · simp only [step] at hstep
    split at hstep
    · obtain ⟨x, hx, hid, hdigest, hresponse⟩ := admitUpdate_retry (callStep_answered hstep hth)
      rw [← hid, ← hdigest, ← hresponse]
      exact hs.successes x (List.mem_of_getLast? (hlast.symm.trans hx))
    · cases hstep

end

end IndenturedServer.Sessions
