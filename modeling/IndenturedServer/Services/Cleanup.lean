import IndenturedServer.Services.Stop

/-!
What a stopped service leaves behind.

`stop` says that a cleanup is unproven where it could not join the monitor, got
no outcome from it, or did not see the process group disappear. An outcome that
tells of a supervisor which was not reaped is only noted as an error. A stop
without the flag has therefore always seen the group gone, and the supervisor
is reaped exactly if the monitor has reaped it.
-/

namespace IndenturedServer.Services

open Foundation StopPc

namespace MonitorPc

/-- The supervisor has not been reaped yet. -/
def reaping : MonitorPc → Bool
  | .readStatus => true
  | .tryWait _ _ => true
  | .waitDeadline _ _ => true
  | .signal _ _ => true
  | _ => false

/-- What `stop_supervisor_process` has returned. -/
def reaped : MonitorPc → Option (Except String Bool)
  | .writeOutcome _ reaped => some reaped
  | .checkStopping reaped => some reaped
  | .callback reaped => some reaped
  | .finished reaped => some reaped
  | _ => none

def written : MonitorPc → Bool
  | .checkStopping _ => true
  | .callback _ => true
  | .finished _ => true
  | _ => false

end MonitorPc

namespace StopPc

/-- The wait for the monitor is over. -/
def joined : StopPc → Bool
  | .takeOutcome => true
  | .group _ => true
  | .joinReadiness => true
  | .joinOutput _ => true
  | .returned _ => true
  | _ => false

def taken : StopPc → Bool
  | .takeOutcome => false
  | pc => pc.joined

def cleaned : StopPc → Bool
  | .group _ => false
  | pc => pc.taken

end StopPc

variable {pc : StopPc}

theorem StopPc.taken_of_not_joined (h : pc.joined = false) : pc.taken = false := by
  cases pc <;> trivial

theorem StopPc.taken_of_cleaned (h : pc.cleaned = true) : pc.taken = true := by
  cases pc <;> trivial

theorem StopPc.joined_of_taken (h : pc.taken = true) : pc.joined = true := by
  cases pc <;> trivial

theorem drains_cleaned (p : ServiceProcess) : (StopRun.drains p).cleaned = true := by
  unfold StopRun.drains
  split <;> rfl

theorem drains_ne_returned (p : ServiceProcess) (r : Except ServiceStopError Unit) :
    StopRun.drains p ≠ .returned r := by
  unfold StopRun.drains
  split <;> nofun

theorem reaped_of_monitorOutcome {name : String} {status : Except String SupervisorStatus}
    {reaped : Except String Bool} (h : monitorOutcome name status reaped = .ok ()) :
    reaped = .ok true := by
  unfold monitorOutcome at h
  split at h
  all_goals first
    | rfl
    | cases h

namespace StopRun

variable {p : ServiceProcess} {s s' : StopRun}

/-- What the monitor has done to the supervisor and its outcome. -/
structure Monitored (p : ServiceProcess) (s : StopRun) : Prop where
  reaping : s.monitor.reaping = true → s.supervisor ≠ .reaped
  reaped : ∀ r, s.monitor.reaped = some r → (s.supervisor = .reaped ↔ r = .ok true)
  written : ∀ r, s.monitor.written = true → s.monitor.reaped = some r → s.stop.taken = false →
    ∃ status, s.outcome = some (monitorOutcome p.name status r)

/-- What `stop` knows while it does not say that the cleanup is unproven. -/
structure Accounted (s : StopRun) : Prop where
  joined : s.stop.joined = true → s.cleanupUnproven = false → ∃ r, s.monitor = .finished r
  taken : s.stop.taken = true → s.errors = [] → s.monitor = .finished (.ok true)
  gone : s.stop.cleaned = true → s.cleanupUnproven = false → s.observedGone = true
  noted : s.cleanupUnproven = true → s.errors ≠ []
  result : ∀ r, s.stop = .returned r → r = s.result

/-! ### What a step can do -/

/-- The steps of the monitor, which has not finished before any of them. -/
inductive MonitorMove (p : ServiceProcess) (s : StopRun) : StopRun → Prop
  | wait (pc : MonitorPc) (h : s.monitor.reaping = true) (hpc : pc.reaping = true) :
      MonitorMove p s { s with monitor := pc }
  | giveUp (status : Except String SupervisorStatus) (r : Except String Bool)
      (h : s.monitor.reaping = true) (hr : r ≠ .ok true) :
      MonitorMove p s { s with monitor := .writeOutcome status r }
  | reap (status : Except String SupervisorStatus) (h : s.monitor.reaping = true) :
      MonitorMove p s { s with supervisor := .reaped, monitor := .writeOutcome status (.ok true) }
  | write (status : Except String SupervisorStatus) (r : Except String Bool)
      (h : s.monitor = .writeOutcome status r) :
      MonitorMove p s { s with outcome := some (monitorOutcome p.name status r),
                               monitor := .checkStopping r }
  | wind (pc : MonitorPc) (failed : Bool) (h : s.monitor.written = true) (hpc : pc.written = true)
      (hr : pc.reaped = s.monitor.reaped) (hrun : s.monitor.isFinished = false) :
      MonitorMove p s { s with failed := failed, monitor := pc }
  | panic (h : s.monitor.isFinished = false) : MonitorMove p s { s with monitor := .panicked }

variable {answer : Answer}

theorem monitorStep_move (h : s.monitorStep p s.monitor answer = some s') : MonitorMove p s s' := by
  have hstay : s = { s with monitor := s.monitor } := rfl
  generalize hpc : s.monitor = pc at h
  unfold monitorStep at h
  split at h
  · cases h
    exact .wait _ (by rw [hpc]; rfl) (by rw [hpc]; rfl)
  · cases h
    exact .wait _ (by rw [hpc]; rfl) rfl
  · cases h
    exact .giveUp _ _ (by rw [hpc]; rfl) nofun
  · split at h
    · cases h
      exact .wait _ (by rw [hpc]; rfl) rfl
    · cases h
      exact .reap _ (by rw [hpc]; rfl)
  · cases h
    exact .wait _ (by rw [hpc]; rfl) rfl
  · cases h
    exact .wait _ (by rw [hpc]; rfl) rfl
  · cases h
    exact .wait _ (by rw [hpc]; rfl) rfl
  · cases h
    exact .giveUp _ _ (by rw [hpc]; rfl) nofun
  · cases h
    exact .wait _ (by rw [hpc]; rfl) rfl
  · cases h
    exact .giveUp _ _ (by rw [hpc]; rfl) nofun
  · cases h
    exact .write _ _ hpc
  · split at h
    · cases h
      exact .wind _ s.failed (by rw [hpc]; rfl) rfl (by rw [hpc]; rfl) (by rw [hpc]; rfl)
    · cases h
      exact .wind _ true (by rw [hpc]; rfl) rfl (by rw [hpc]; rfl) (by rw [hpc]; rfl)
  · cases h
    exact .wind _ s.failed (by rw [hpc]; rfl) rfl (by rw [hpc]; rfl) (by rw [hpc]; rfl)
  · split at h
    · cases h
    · cases h
      exact .panic (by rw [hpc]; exact eq_false_of_ne_true ‹_›)
  · cases h

inductive StopMove (p : ServiceProcess) (s : StopRun) : StopRun → Prop
  | wait (stopping : Bool) (pc : StopPc) (h : s.stop.joined = false) (hpc : pc.joined = false) :
      StopMove p s { s with stopping := stopping, stop := pc }
  | join (r : Except String Bool) (h : s.stop.joined = false) (hr : s.monitor = .finished r) :
      StopMove p s { s with stop := .takeOutcome }
  | giveUp (message : String) (h : s.stop.joined = false) :
      StopMove p s { s.unproven message with stop := .takeOutcome }
  | take (h : s.stop = .takeOutcome) (hok : s.outcome = some (.ok ())) :
      StopMove p s { s with outcome := none, stop := .group .query }
  | takeError (err : String) (h : s.stop = .takeOutcome) :
      StopMove p s { s.push err with outcome := none, stop := .group .query }
  | takeNone (message : String) (h : s.stop = .takeOutcome) :
      StopMove p s { s.unproven message with outcome := none, stop := .group .query }
  | group (pc pc' : GroupPc) (h : s.stop = .group pc) : StopMove p s { s with stop := .group pc' }
  | gone (pc : GroupPc) (h : s.stop = .group pc) : StopMove p s (s.groupGone p)
  | groupFailed (pc : GroupPc) (err : String) (h : s.stop = .group pc) :
      StopMove p s (s.groupFailed p err)
  | drain (pc : StopPc) (more : List String) (h : s.stop.cleaned = true) (hpc : pc.cleaned = true)
      (hrun : ∀ r, pc ≠ .returned r) :
      StopMove p s { s with stop := pc, errors := s.errors ++ more }
  | finish (h : s.stop = .joinOutput 0) : StopMove p s { s with stop := .returned s.result }

theorem groupStep_move {pc : GroupPc} (hpc : s.stop = .group pc)
    (h : s.groupStep p pc answer = some s') : StopMove p s s' := by
  have hquery : ∀ pc', (if s.groupExists then some { s with stop := .group pc' }
      else some (s.groupGone p)) = some s' → StopMove p s s' := by
    intro pc' h
    split at h
    · cases h
      exact .group pc pc' hpc
    · cases h
      exact .gone pc hpc
  unfold groupStep at h
  split at h
  · exact hquery _ h
  · cases h
    exact .groupFailed _ _ hpc
  · cases h
    exact .group _ _ hpc
  · cases h
    exact .groupFailed _ _ hpc
  · cases h
    exact .group _ _ hpc
  · cases h
    exact .group _ _ hpc
  · exact hquery _ h
  · cases h
    exact .groupFailed _ _ hpc
  · cases h
    exact .group _ _ hpc
  · cases h
    exact .groupFailed _ _ hpc
  · exact hquery _ h
  · cases h
    exact .groupFailed _ _ hpc
  · cases h
    exact .group _ _ hpc
  · cases h
    exact .groupFailed _ _ hpc
  · cases h

theorem afterWait_move {stage : JoinStage} (hpc : s.stop = .isFinished stage) :
    StopMove p s (s.afterWait s.monitor.isFinished stage) := by
  have hjoined : s.stop.joined = false := by
    rw [hpc]
    rfl
  cases stage with
  | expected =>
    refine .wait s.stopping _ hjoined ?_
    cases s.monitor.isFinished <;> rfl
  | afterTerm =>
    refine .wait s.stopping _ hjoined ?_
    cases s.monitor.isFinished <;> rfl
  | bounded =>
    cases hfinished : s.monitor.isFinished with
    | true => exact .wait s.stopping .join hjoined rfl
    | false => exact .giveUp _ hjoined

theorem drain_move (pc : StopPc) (ok : Bool) (message : String) (h : s.stop.cleaned = true)
    (hpc : pc.cleaned = true) (hrun : ∀ r, pc ≠ .returned r) :
    StopMove p s (if ok then { s with stop := pc } else { s with stop := pc }.push message) := by
  cases ok with
  | true =>
    have hmove : StopMove p s { s with stop := pc, errors := s.errors ++ [] } := .drain pc [] h hpc hrun
    rwa [List.append_nil] at hmove
  | false => exact .drain pc [message] h hpc hrun

theorem stopStep_move (h : s.stopStep p s.stop answer = some s') : StopMove p s s' := by
  have hstay : s = { s with stop := s.stop } := rfl
  generalize hpc : s.stop = pc at h
  have hwait : pc.joined = false → s.stop.joined = false := fun hjoined => by rw [hpc]; exact hjoined
  unfold stopStep at h
  split at h
  · cases h
    exact .wait true _ (hwait rfl) rfl
  · cases h
    exact .wait s.stopping _ (hwait rfl) rfl
  · split at h
    · cases h
      exact .wait s.stopping _ (hwait rfl) rfl
    · cases h
      exact .wait s.stopping _ (hwait rfl) (by rw [hpc]; rfl)
  · cases h
    exact afterWait_move hpc
  · cases h
    exact .wait s.stopping _ (hwait rfl) rfl
  · split at h
    · next r hr =>
      cases h
      exact .join r (hwait rfl) hr
    · cases h
      exact .giveUp _ (hwait rfl)
  · split at h
    · next hok =>
      cases h
      exact .take hpc hok
    · cases h
      exact .takeError _ hpc
    · cases h
      exact .takeNone _ hpc
  · exact groupStep_move hpc h
  · cases h
    exact drain_move _ _ _ (by rw [hpc]; rfl) rfl nofun
  · cases h
    exact .finish hpc
  · cases h
    exact drain_move _ _ _ (by rw [hpc]; rfl) rfl nofun
  · cases h

/-! ### What holds along a run -/

section
variable (h : MonitorMove p s s')
include h

theorem MonitorMove.monitored (hs : Monitored p s) : Monitored p s' := by
  cases h with
  | wait pc hreaping hpc =>
    refine ⟨fun _ => hs.reaping hreaping, fun r hr => ?_, fun r hw => ?_⟩
    · cases pc <;> cases hpc <;> cases hr
    · cases pc <;> cases hpc <;> cases hw
  | giveUp status r hreaping hr =>
    refine ⟨nofun, ?_, nofun⟩
    rintro _ ⟨⟩
    exact iff_of_false (hs.reaping hreaping) hr
  | reap status hreaping =>
    refine ⟨nofun, ?_, nofun⟩
    rintro _ ⟨⟩
    exact iff_of_true rfl rfl
  | write status r hpc =>
    refine ⟨nofun, ?_, ?_⟩
    · rintro _ ⟨⟩
      exact hs.reaped r (by rw [hpc]; rfl)
    · rintro _ _ ⟨⟩ _
      exact ⟨status, rfl⟩
  | wind pc failed hwritten hpc hr hrun =>
    refine ⟨fun hreaping => ?_, fun r hr' => hs.reaped r (hr ▸ hr'), fun r _ hr' =>
      hs.written r hwritten (hr ▸ hr')⟩
    cases pc <;> cases hpc <;> cases hreaping
  | panic hrun => exact ⟨nofun, nofun, nofun⟩

theorem MonitorMove.unfinished : ∀ r, s.monitor ≠ .finished r := by
  intro r hr
  cases h with
  | wait pc h => rw [hr] at h; cases h
  | giveUp status r h => rw [hr] at h; cases h
  | reap status h => rw [hr] at h; cases h
  | write status r h => rw [hr] at h; cases h
  | wind pc failed h hpc hsame hrun => rw [hr] at hrun; cases hrun
  | panic h => rw [hr] at h; cases h

theorem MonitorMove.same :
    s'.stop = s.stop ∧ s'.errors = s.errors ∧ s'.cleanupUnproven = s.cleanupUnproven ∧
      s'.observedGone = s.observedGone := by
  cases h <;> exact ⟨rfl, rfl, rfl, rfl⟩

theorem MonitorMove.accounted (hs : Accounted s) : Accounted s' := by
  obtain ⟨hstop, herrors, hunproven, hgone⟩ := h.same
  refine ⟨?_, ?_, ?_, ?_, ?_⟩
  · rw [hstop, hunproven]
    intro hjoined hproven
    obtain ⟨r, hr⟩ := hs.joined hjoined hproven
    exact absurd hr (h.unfinished r)
  · rw [hstop, herrors]
    intro htaken hempty
    exact absurd (hs.taken htaken hempty) (h.unfinished _)
  · rw [hstop, hunproven, hgone]
    exact hs.gone
  · rw [herrors, hunproven]
    exact hs.noted
  · rw [hstop, result, herrors, hunproven]
    exact hs.result

end

theorem StopMove.same (h : StopMove p s s') :
    s'.monitor = s.monitor ∧ s'.supervisor = s.supervisor ∧
      (s'.stop.taken = false → s.stop.taken = false ∧ s'.outcome = s.outcome) := by
  cases h with
  | wait stopping pc hbefore hpc => exact ⟨rfl, rfl, fun _ => ⟨taken_of_not_joined hbefore, rfl⟩⟩
  | join r hbefore hr => exact ⟨rfl, rfl, fun _ => ⟨taken_of_not_joined hbefore, rfl⟩⟩
  | giveUp message hbefore => exact ⟨rfl, rfl, fun _ => ⟨taken_of_not_joined hbefore, rfl⟩⟩
  | drain pc more h hpc hrun =>
    exact ⟨rfl, rfl, fun hnot => absurd (hnot.symm.trans (taken_of_cleaned hpc)) nofun⟩
  | gone pc h =>
    have htaken := taken_of_cleaned (drains_cleaned p)
    exact ⟨rfl, rfl, fun hnot => absurd (hnot.symm.trans htaken) nofun⟩
  | groupFailed pc err h =>
    have htaken := taken_of_cleaned (drains_cleaned p)
    exact ⟨rfl, rfl, fun hnot => absurd (hnot.symm.trans htaken) nofun⟩
  | _ => exact ⟨rfl, rfl, nofun⟩

theorem StopMove.monitored (h : StopMove p s s') (hs : Monitored p s) : Monitored p s' := by
  obtain ⟨hmonitor, hsupervisor, htaken⟩ := h.same
  refine ⟨?_, ?_, ?_⟩
  · rw [hmonitor, hsupervisor]
    exact hs.reaping
  · rw [hmonitor, hsupervisor]
    exact hs.reaped
  · rw [hmonitor]
    intro r hwritten hr hnot
    obtain ⟨hnot, houtcome⟩ := htaken hnot
    rw [houtcome]
    exact hs.written r hwritten hr hnot

theorem StopMove.accounted (h : StopMove p s s') (hm : Monitored p s) (hs : Accounted s) :
    Accounted s' := by
  have hmore : ∀ message, s.errors ++ [message] ≠ [] := fun message => by simp
  cases h with
  | wait stopping pc hbefore hpc =>
    have hnot := taken_of_not_joined hpc
    refine ⟨fun h => absurd (hpc.symm.trans h) nofun, fun h => absurd (hnot.symm.trans h) nofun,
      fun h => absurd (hnot.symm.trans (taken_of_cleaned h)) nofun, hs.noted, ?_⟩
    rintro r ⟨⟩
    cases hpc
  | join r hbefore hr => exact ⟨fun _ _ => ⟨r, hr⟩, nofun, nofun, hs.noted, nofun⟩
  | giveUp message hbefore => exact ⟨nofun, nofun, nofun, fun _ => hmore message, nofun⟩
  | take hpc hok =>
    have hjoined : s.stop.joined = true := by
      rw [hpc]
      rfl
    refine ⟨fun _ => hs.joined hjoined, fun _ hempty => ?_, nofun, hs.noted, nofun⟩
    -- no error so far: the monitor has finished, and its outcome is the one taken
    have hproven : s.cleanupUnproven = false := by
      cases hunproven : s.cleanupUnproven with
      | true => exact absurd hempty (hs.noted hunproven)
      | false => rfl
    obtain ⟨r, hr⟩ := hs.joined hjoined hproven
    obtain ⟨status, houtcome⟩ := hm.written r (by rw [hr]; rfl) (by rw [hr]; rfl) (by rw [hpc]; rfl)
    rw [houtcome] at hok
    rw [← reaped_of_monitorOutcome (Option.some.inj hok)]
    exact hr
  | takeError err hpc =>
    have hjoined : s.stop.joined = true := by
      rw [hpc]
      rfl
    exact ⟨fun _ => hs.joined hjoined, fun _ h => absurd h (hmore err), nofun, fun _ => hmore err, nofun⟩
  | takeNone message hpc =>
    exact ⟨nofun, fun _ h => absurd h (hmore message), nofun, fun _ => hmore message, nofun⟩
  | group pc pc' hpc =>
    exact ⟨fun _ => hs.joined (by rw [hpc]; rfl), fun _ => hs.taken (by rw [hpc]; rfl), nofun, hs.noted,
      nofun⟩
  | gone pc hpc =>
    refine ⟨fun _ => hs.joined (by rw [hpc]; rfl), fun _ => hs.taken (by rw [hpc]; rfl),
      fun _ _ => rfl, hs.noted, fun r hr => absurd hr (drains_ne_returned p r)⟩
  | groupFailed pc err hpc =>
    exact ⟨nofun, fun _ h => absurd h (hmore _), nofun, fun _ => hmore _,
      fun r hr => absurd hr (drains_ne_returned p r)⟩
  | drain pc more hcleaned hpc hrun =>
    have htaken := taken_of_cleaned hcleaned
    refine ⟨fun _ => hs.joined (joined_of_taken htaken), fun _ hempty => ?_,
      fun _ => hs.gone hcleaned, fun hunproven hempty => ?_, fun r hr => absurd hr (hrun r)⟩
    · exact hs.taken htaken (List.append_eq_nil_iff.mp hempty).1
    · exact hs.noted hunproven (List.append_eq_nil_iff.mp hempty).1
  | finish hpc =>
    have hcleaned : s.stop.cleaned = true := by
      rw [hpc]
      rfl
    have htaken := taken_of_cleaned hcleaned
    refine ⟨fun _ => hs.joined (joined_of_taken htaken), fun _ => hs.taken htaken,
      fun _ => hs.gone hcleaned, hs.noted, ?_⟩
    rintro r ⟨⟩
    rfl

theorem sound_of_exec {es : List StopEvent} (h : exec (step p) {} es = some s) :
    Monitored p s ∧ Accounted s := by
  apply exec_invariant_all (P := fun s => Monitored p s ∧ Accounted s) ?_ ?_ h
  · intro s e s' hs hstep
    cases e with
    | supervisorExits =>
      simp only [step] at hstep
      split at hstep
      · next hrunning =>
        cases hstep
        refine ⟨⟨nofun, fun r hr => ?_, hs.1.written⟩, ⟨hs.2.joined, hs.2.taken, hs.2.gone, hs.2.noted, hs.2.result⟩⟩
        refine iff_of_false nofun fun hok => ?_
        have hreaped := (hs.1.reaped r hr).mpr hok
        rw [hrunning] at hreaped
        cases hreaped
      · cases hstep
    | groupChanges alive =>
      cases hstep
      exact ⟨⟨hs.1.reaping, hs.1.reaped, hs.1.written⟩,
        ⟨hs.2.joined, hs.2.taken, hs.2.gone, hs.2.noted, hs.2.result⟩⟩
    | monitor answer =>
      have hmove := monitorStep_move hstep
      exact ⟨hmove.monitored hs.1, hmove.accounted hs.2⟩
    | stop answer =>
      have hmove := stopStep_move hstep
      exact ⟨hmove.monitored hs.1, hmove.accounted hs.1 hs.2⟩
  · exact ⟨⟨nofun, nofun, nofun⟩, ⟨nofun, nofun, nofun, nofun, nofun⟩⟩

end StopRun

def StopRun.CleanedUp (s : StopRun) : Prop :=
  s.supervisor = .reaped ∧ s.observedGone = true

def provenResult : Except ServiceStopError Unit → Bool
  | .ok () => true
  | .error e => !e.cleanupUnproven

def sampleService : ServiceProcess := ⟨"web", 7, true⟩

/-- `stop` joins a monitor that has finished, and finds no group. -/
def joinFinished : List StopEvent :=
  [.stop .go, .stop .go, .stop (.deadline false), .stop .go, .stop (.deadline false), .stop .go,
    .stop .go, .stop .go, .groupChanges false, .stop (.query none), .stop (.joined true),
    .stop (.joined true), .stop (.joined true), .stop .go]

/-- The supervisor reports that it has stopped, and is still there at the end of
all three waits. -/
def supervisorStays : List StopEvent :=
  [.monitor (.status (some (.ok .stopped))), .monitor (.tryWait none), .monitor (.deadline true),
    .monitor (.signal none), .monitor (.tryWait none), .monitor (.deadline true),
    .monitor (.signal none), .monitor (.tryWait none), .monitor (.deadline true), .monitor .go,
    .monitor .go, .monitor .go] ++ joinFinished

def supervisorExits : List StopEvent :=
  [.monitor (.status (some (.ok .stopped))), .supervisorExits, .monitor (.tryWait none), .monitor .go,
    .monitor .go, .monitor .go] ++ joinFinished

end IndenturedServer.Services
