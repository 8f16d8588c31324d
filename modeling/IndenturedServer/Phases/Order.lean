import IndenturedServer.Phases.Groups

/-!
The order of the phases of a task.

`Ran` and `Broke` say what one phase adds to the history. From them follows
what the history of a task can be: the run command is started after a setup
command that was successful, and neither it nor the collection of artifacts
starts while a group of an earlier phase has a member.
-/

namespace IndenturedServer.Phases

open Foundation Sessions

def TaskEvent.overlap : TaskEvent → Bool
  | .spawned _ overlap => overlap
  | .finished _ => false
  | .collecting overlap => overlap

/-- No process and no collection of artifacts starts while a group of an
earlier phase has a member, and the run command only after a setup command that
was successful. -/
structure Orderly (cfg : TaskConfig) (events : List TaskEvent) : Prop where
  apart : ∀ event ∈ events, event.overlap = false
  afterSetup : ∀ before overlap, before ++ [.spawned .run overlap] <+: events →
    cfg.setupTimeout.isSome →
      ∃ result, before = [.spawned .setup false, .finished result] ∧
        result.phase = .setup ∧ result.exitCode = 0 ∧ result.timedOut = false

namespace Orderly

variable {cfg : TaskConfig} {events : List TaskEvent}

theorem nil : Orderly cfg [] where
  apart _ h := absurd h List.not_mem_nil
  afterSetup before overlap h := by simp at h

theorem concat {event : TaskEvent} (h : Orderly cfg events) (hapart : event.overlap = false)
    (hrun : ∀ overlap, event = .spawned .run overlap → cfg.setupTimeout.isSome →
      ∃ result, events = [.spawned .setup false, .finished result] ∧
        result.phase = .setup ∧ result.exitCode = 0 ∧ result.timedOut = false) :
    Orderly cfg (events ++ [event]) where
  apart other hother := by
    obtain hother | hother := List.mem_append.mp hother
    · exact h.apart other hother
    · rw [List.mem_singleton.mp hother]
      exact hapart
  afterSetup before overlap hbefore := by
    obtain heq | hbefore := List.prefix_concat_iff.mp hbefore
    · obtain ⟨rfl, hevent⟩ := List.append_inj' heq rfl
      exact hrun overlap (List.singleton_inj.mp hevent).symm
    · exact h.afterSetup before overlap hbefore

theorem other {event : TaskEvent} (h : Orderly cfg events) (hapart : event.overlap = false)
    (hevent : ∀ overlap, event ≠ .spawned .run overlap) : Orderly cfg (events ++ [event]) :=
  h.concat hapart fun overlap heq => absurd heq (hevent overlap)

end Orderly

namespace TaskHost

variable {h : TaskHost} {cfg : TaskConfig} {w₀ : TaskWorld}

/-- The history when the run command is next. -/
def ReadyToRun (cfg : TaskConfig) (w : TaskWorld) : Prop :=
  Quiet w ∧ Orderly cfg w.own ∧
    (cfg.setupTimeout.isSome → ∃ result, w.own = [.spawned .setup false, .finished result] ∧
      result.phase = .setup ∧ result.exitCode = 0 ∧ result.timedOut = false)

variable {w : TaskWorld}

theorem Starts.own_eq {phase : BuildPhase} {rest : List TaskEvent}
    (hstarts : Starts w₀ phase rest w) (hquiet : Quiet w₀) :
    w.own = w₀.own ++ [.spawned phase false] ++ rest := by
  obtain ⟨overlap, hown, hoverlap⟩ := hstarts
  rw [hown, hoverlap hquiet, List.append_assoc]
  rfl

def TaskFails (cfg : TaskConfig) (e : Halted BuildError) (w : TaskWorld) : Prop :=
  e ≠ .unfinished ∧ Orderly cfg w.own

theorem Broke.orderly {phase : BuildPhase} {e : Halted BuildError} (hbroke : Broke w₀ phase e w)
    (hquiet : Quiet w₀) (horderly : Orderly cfg w₀.own)
    (hstart : Orderly cfg (w₀.own ++ [.spawned phase false])) : TaskFails cfg e w := by
  refine ⟨hbroke.1, ?_⟩
  obtain hown | hstarts := hbroke.2
  · rw [hown]
    exact horderly
  · rw [hstarts.own_eq hquiet, List.append_nil]
    exact hstart

theorem runCommand_triple {phases : List PhaseResult} :
    Triple (ReadyToRun cfg) (h.runCommand cfg phases)
      (fun _ w => Quiet w ∧ Orderly cfg w.own) (TaskFails cfg) := by
  rintro w₀ ⟨hquiet, horderly, hsetup⟩
  have hstart : Orderly cfg (w₀.own ++ [.spawned .run false]) :=
    horderly.concat rfl fun _ _ => hsetup
  have hphase : Triple (Later w₀) (EStateM.adaptExcept
      (Halted.map fun err => { err with phases := phases }) (h.runPhase (cfg.phase .run) false))
      (fun _ w => Quiet w ∧ Orderly cfg w.own) (TaskFails cfg) := by
    refine Triple.adaptExcept (runPhase_triple.mono (fun _ hw => hw) (fun result w hran => ?_)
      fun e w hbroke => ?_)
    · refine ⟨hran.quiet hquiet, ?_⟩
      rw [hran.own.own_eq hquiet]
      exact hstart.other rfl nofun
    · obtain ⟨hfinished, hown⟩ := hbroke.orderly hquiet horderly hstart
      refine ⟨?_, hown⟩
      cases e with
      | failed err => exact nofun
      | unfinished => exact absurd rfl hfinished
  exact (hphase.bind fun result => Triple.pure fun _ hw => hw) w₀ (Later.refl w₀)

theorem runTaskPhases_triple : Triple (fun w => Quiet w ∧ w.own = []) (h.runTaskPhases cfg)
      (fun _ w => Quiet w ∧ Orderly cfg w.own) (TaskFails cfg) := by
  rintro w₀ ⟨hquiet, hempty⟩
  have horderly : Orderly cfg w₀.own := hempty ▸ Orderly.nil
  have hcwd : Triple (Later w₀) (h.stopIf h.resolveCwd) (fun _ => Later w₀) (TaskFails cfg) :=
    stopIf_triple.onError fun e w he => ⟨he.2, he.1.own ▸ horderly⟩
  refine (hcwd.bind fun _ => ?_) w₀ (Later.refl w₀)
  cases hsetup : cfg.setupTimeout with
  | none =>
    refine runCommand_triple.onEntry fun w hw => ?_
    exact ⟨hquiet.later hw, hw.own ▸ horderly, by simp [hsetup]⟩
  | some timeout =>
    have hstart : Orderly cfg (w₀.own ++ [.spawned .setup false]) := horderly.other rfl nofun
    have hphase : Triple (Later w₀) (h.runPhase (cfg.phase .setup) false)
        (fun result w => Quiet w ∧ result.phase = .setup ∧
          w.own = [.spawned .setup false, .finished result] ∧ Orderly cfg w.own)
        (TaskFails cfg) := by
      refine runPhase_triple.mono (fun _ hw => hw) (fun result w hran => ?_) fun e w hbroke =>
        hbroke.orderly hquiet horderly hstart
      have hown := hran.own.own_eq hquiet
      refine ⟨hran.quiet hquiet, hran.isPhase, ?_, ?_⟩
      · rw [hown, hempty]
        rfl
      · rw [hown]
        exact hstart.other rfl nofun
    refine hphase.bind fun result => Triple.ite (fun _ => ?_) fun hpassed => ?_
    · exact Triple.pure fun w hw => ⟨hw.1, hw.2.2.2⟩
    · refine runCommand_triple.onEntry fun w hw => ?_
      obtain ⟨hquiet', hsetup', hown, horderly'⟩ := hw
      exact ⟨hquiet', horderly', fun _ => ⟨result, hown, hsetup', by simpa [failed] using hpassed⟩⟩

theorem runBuildInWorkspace_triple :
    Triple (fun w => Quiet w ∧ w.own = []) (h.runBuildInWorkspace cfg)
      (fun _ w => Orderly cfg w.own) (TaskFails cfg) := by
  refine runTaskPhases_triple.bind fun outcome => Triple.modify fun w hw => ?_
  exact hw.2.other hw.1.overlaps nofun

/-- A phase that returns well has had its group found gone, and the phases of a
task and the collection of its artifacts follow one another. -/
theorem phases_do_not_overlap (h : TaskHost) :
    (∀ (cfg : PhaseConfig) (stdin : Bool) (w w' : TaskWorld) (result : PhaseResult), w.Sound →
      h.runPhase cfg stdin w = .ok result w' →
        w'.next = w.next + 1 ∧ w.next ∉ w.found ∧ w.next ∈ w'.found ∧ w'.members w.next = 0) ∧
    ∀ cfg : TaskConfig,
      Ends (fun _ w => Orderly cfg w.own) (fun e w => e ≠ .unfinished ∧ Orderly cfg w.own)
        (h.runTaskPhases cfg { own := [] }) ∧
      Ends (fun _ w => Orderly cfg w.own) (fun e w => e ≠ .unfinished ∧ Orderly cfg w.own)
        (h.runBuildInWorkspace cfg { own := [] }) := by
  refine ⟨fun cfg stdin w w' result hsound hrun => ?_, fun cfg => ?_⟩
  · have hends : Ends (Ran w cfg.phase) (Broke w cfg.phase) (h.runPhase cfg stdin w) :=
      runPhase_triple w (Later.refl w)
    rw [hrun] at hends
    have hran : Ran w cfg.phase result w' := hends
    refine ⟨hran.next, fun hfound => ?_, hran.gone, (hran.sound hsound w.next hran.gone).2⟩
    exact Nat.lt_irrefl _ (hsound w.next hfound).1
  · have hinitial : Quiet { own := [] } ∧ ({ own := [] } : TaskWorld).own = [] :=
      ⟨⟨nofun, nofun⟩, rfl⟩
    refine ⟨?_, runBuildInWorkspace_triple _ hinitial⟩
    exact (runTaskPhases_triple _ hinitial).mono (fun _ _ hs => hs.2) fun _ _ he => he

/-- The setup process exits at once and leaves a member of its group behind,
which takes three more turns to end. -/
def straggler : TaskHost where
  becomes w _ := if w.clock < 12 then 1 else 0
  delay _ := 1
  fault _ := none
  exited _ _ := some 0
  cancelled _ := false
  trySend _ := .ok ()
  resolveCwd _ := none
  configureCommand _ := none
  ioSetup _ := none
  finishStdin _ := none
  outputExceeded _ := false

def twoPhases : TaskConfig := ⟨"build", some 1000, 1000, 100⟩

def history {α : Type} : EStateM.Result (Halted BuildError) TaskWorld α → List TaskEvent
  | .ok _ w => w.own
  | .error _ w => w.own

theorem phases_do_not_overlap_straggler :
    history (straggler.runBuildInWorkspace twoPhases { own := [] }) =
      [.spawned .setup false, .finished ⟨.setup, 2, 0, false⟩,
        .spawned .run false, .finished ⟨.run, 2, 0, false⟩, .collecting false] ∧
    ∃ result w', straggler.runPhase (twoPhases.phase .setup) false { own := [] } = .ok result w' ∧
      0 ∈ w'.found ∧ w'.members 0 = 0 := by
  refine ⟨by decide +kernel, ?_⟩
  have hinitial : ({ own := [] } : TaskWorld).Sound := nofun
  obtain ⟨result, w', hrun⟩ : ∃ result w',
      straggler.runPhase (twoPhases.phase .setup) false { own := [] } = .ok result w' :=
    ⟨_, _, rfl⟩
  obtain ⟨-, -, hfound, hgone⟩ := (phases_do_not_overlap straggler).1 _ _ _ _ _ hinitial hrun
  exact ⟨result, w', hrun, hfound, hgone⟩

end TaskHost

end IndenturedServer.Phases
