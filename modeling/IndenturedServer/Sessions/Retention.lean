import IndenturedServer.Sessions.Refinement

/-!
The metadata file of a session whose services may have survived it.

`cleanup_entry` stops the services of the session and keeps the metadata file
when one of them could not be proved gone, so that a later start of the
server finds it. `Session.Retained` says, point by point, that the file names
the services at that moment. It is an invariant of the runs in which no
thread strays and nothing is forgotten on the way to the cleanup.
-/

namespace IndenturedServer.Sessions

open Foundation Thread Session

def Store.Names (x : Store) (p : DurableServiceProcess) : Prop :=
  ∃ md, x.metadata = some md ∧ p ∈ md.services

/-- A service has been started and the file has not been written since. -/
def Thread.unrecorded : Thread → Bool
  | .initializer (.recordService _) => true
  | _ => false

/-- What a thread relies on for the metadata file. -/
def Thread.Keeps (x : Store) : Thread → Prop
  | .initializer pc => pc.early = true → x.services = []
  | .update _ (.apply md) | .update _ (.commit md _ _) => md.services = x.services
  | .cleaning _ call =>
    (call.identityCleanupUnproven = false → x.unproven = []) ∧
    (call.stage ≠ .takeServices → x.services = []) ∧
    ∀ rest, call.stage = .stopServices rest → ∀ p ∈ rest, x.Names p
  | _ => True

structure Session.Retained (s : Session) : Prop where
  unproven : ∀ p ∈ s.log.unproven, s.store.Names p
  untouched : s.log.cleanups = 0 → s.log.unproven = []
  unborn : s.state = .initializing false → s.services = []
  services : (∀ t, (s.threads t).unrecorded = false) → ∀ p ∈ s.services, s.store.Names p
  threads : ∀ t, (s.threads t).Keeps s.store

section
variable {cfg : SessionConfig} {s s' : Session} {t : Nat}

variable {th : Thread}

theorem Thread.keeps_of_token {accepted : Bool} (h : th.token accepted = none) (x : Store) :
    th.Keeps x ∧ th.unrecorded = false := by
  cases th with
  | initializer pc => cases h
  | cleaning role call => cases h
  | update request pc =>
    cases pc with
    | apply md | commit md changed deleted => cases h
    | _ => exact ⟨trivial, rfl⟩
  | _ => exact ⟨trivial, rfl⟩

theorem Store.keeps_congr {x y : Store} (hservices : y.services = x.services)
    (hmetadata : y.metadata = x.metadata) (hunproven : y.unproven = x.unproven) (th : Thread) :
    th.Keeps y ↔ th.Keeps x := by
  have hnames : y.Names = x.Names := by
    ext p
    simp [Store.Names, hmetadata]
  cases th with
  | initializer pc => simp [Thread.Keeps, hservices]
  | cleaning role call => simp [Thread.Keeps, hservices, hunproven, hnames]
  | update request pc => cases pc <;> simp [Thread.Keeps, hservices]
  | _ => exact Iff.rfl

/-! ### The two kinds of steps -/

theorem Session.Retained.frame (h : s.Retained) (hservices : s'.services = s.services)
    (hmetadata : s'.metadata = s.metadata) (hunproven : s'.log.unproven = s.log.unproven)
    (hcleanups : s.log.cleanups ≤ s'.log.cleanups)
    (hunborn : s'.state = .initializing false → s.state = .initializing false)
    (hthreads : ∀ u, s'.threads u = s.threads u ∨
      (s'.threads u).Keeps s.store ∧ (s.threads u).unrecorded = false) : s'.Retained := by
  have hnames : s'.store.Names = s.store.Names := by
    ext p
    show (∃ md, s'.metadata = some md ∧ p ∈ md.services) ↔ _
    rw [hmetadata]
    rfl
  constructor
  · rw [hunproven, hnames]
    exact h.unproven
  · intro hzero
    rw [hunproven]
    exact h.untouched (by omega)
  · intro hst
    rw [hservices]
    exact h.unborn (hunborn hst)
  · intro hall
    rw [hservices, hnames]
    apply h.services
    intro u
    rcases hthreads u with hsame | ⟨-, hrecorded⟩
    · rw [← hsame]
      exact hall u
    · exact hrecorded
  · intro u
    rw [Store.keeps_congr (show s'.store.services = s.store.services from hservices) hmetadata
      hunproven]
    rcases hthreads u with hsame | ⟨hkeeps, -⟩
    · rw [hsame]
      exact h.threads u
    · exact hkeeps

/-- A step after which thread `t` has the token: no other thread relies on
anything. -/
theorem Session.Retained.of_holder (hs' : s'.Sound) (hsingle' : s'.life.Single)
    (ht : s'.life.token t ≠ none)
    (hunproven : ∀ p ∈ s'.log.unproven, s'.store.Names p)
    (huntouched : s'.log.cleanups = 0 → s'.log.unproven = [])
    (hservices : (s'.threads t).unrecorded = false → ∀ p ∈ s'.services, s'.store.Names p)
    (hkeeps : (s'.threads t).Keeps s'.store) : s'.Retained := by
  refine ⟨hunproven, huntouched, ?_, fun hall => hservices (hall t), ?_⟩
  · intro hst
    refine absurd (hs'.owned.token_of_idle ?_ t) ht
    rw [life_state, hst]
    rfl
  · intro u
    by_cases hut : u = t
    · rw [hut]
      exact hkeeps
    · obtain ⟨token, htoken⟩ := Option.ne_none_iff_exists'.mp ht
      exact (keeps_of_token (hsingle'.others htoken hut) _).1

variable {k : CleanupOwner}

section
variable (h : s.Retained)
include h

/-- The file names the services unless the thread with the token has just
started one. -/
theorem Session.Retained.names (hsingle : s.life.Single) {token : Token}
    (ht : s.life.token t = some token) (hrecorded : (s.threads t).unrecorded = false) :
    ∀ p ∈ s.services, s.store.Names p := by
  apply h.services
  intro u
  by_cases hut : u = t
  · rw [hut]
    exact hrecorded
  · exact (keeps_of_token (hsingle.others ht hut) s.store).2

variable {m : Session}

theorem Session.Retained.move
    (hunborn : m.state = .initializing false → s.state = .initializing false)
    (hth : (s.threads t).unrecorded = false) (hkeeps : th.Keeps s.store)
    (hcleanups : s.log.cleanups ≤ m.log.cleanups := by exact le_rfl)
    (hservices : m.services = s.services := by rfl)
    (hmetadata : m.metadata = s.metadata := by rfl)
    (hunproven : m.log.unproven = s.log.unproven := by rfl)
    (hthreads : m.threads = s.threads := by rfl) : (m.setThread t th).Retained := by
  refine h.frame hservices hmetadata hunproven hcleanups hunborn ?_
  intro u
  by_cases hut : u = t
  · subst hut
    exact .inr ⟨by simpa [setThread] using hkeeps, hth⟩
  · exact .inl (by simp [setThread, hut, hthreads])

theorem Session.Retained.setStream (st : ActionStream) : (s.setStream t st).Retained :=
  h.frame rfl rfl rfl le_rfl id fun _ => .inl rfl

variable {role : Role}

/-- A section that may start the cleanup, before which there was none. -/
theorem Session.Retained.perform {o : Outcome} {next : Verdict → Thread}
    (hsingle' : (s.perform t o role next).life.Single)
    (hunborn : o.state = .initializing false → s.state = .initializing false)
    (hth : (s.threads t).unrecorded = false) (hnext : ∀ v, (next v).Keeps s.store) :
    (s.perform t o role next).Retained := by
  by_cases hv : ∃ e, o.verdict = .cleanup e
  · obtain ⟨e, hv⟩ := hv
    rw [perform_cleanup hv] at hsingle' ⊢
    have hone : s.log.cleanups + 1 = 1 := by
      refine hsingle'.counted t role.owner e false ?_
      simp [life, startCleanup, token, CleanupStage.unregistered]
    let m : Session :=
      { s.enter t o with log := { (s.enter t o).log with cleanups := s.log.cleanups + 1 } }
    refine h.move (m := m) hunborn hth ?_ (Nat.le_succ _)
    exact ⟨fun _ => h.untouched (by omega), fun hstage => absurd rfl hstage, by rintro rest ⟨⟩⟩
  · rw [perform_next rfl fun e he => hv ⟨e, he⟩]
    exact h.move (m := s.enter t o) hunborn hth (hnext _)

theorem Session.Retained.write (hsingle : s.life.Single) (ht : s.life.token t = some (.work k))
    (hs' : (m.setThread t th).Sound) (hsingle' : (m.setThread t th).life.Single)
    (ht' : th.token (m.log.accepted t) ≠ none) (hunproven : m.log.unproven = s.log.unproven)
    (hservices : th.unrecorded = false → ∀ p ∈ m.services, m.store.Names p)
    (hkeeps : th.Keeps m.store) : (m.setThread t th).Retained := by
  have hempty : (m.setThread t th).log.unproven = [] :=
    hunproven.trans (h.untouched (hsingle.cleanups_of_work ht).1)
  have hth : (m.setThread t th).threads t = th := Function.update_self ..
  refine .of_holder (t := t) hs' hsingle' ?_ ?_ (fun _ => hempty) ?_ ?_
  · show ((m.setThread t th).threads t).token _ ≠ none
    rw [hth]
    exact ht'
  · rw [hempty]
    exact fun p hp => absurd hp List.not_mem_nil
  · rw [hth]
    exact hservices
  · rw [hth]
    exact hkeeps

end

theorem Session.names_writeMetadata {w : WriteOutcome} {md : DurableSessionMetadata}
    (hmd : md.services = s.services) (hnames : w.replaces = true ∨ ∀ p ∈ s.services, s.store.Names p) :
    ∀ p ∈ s.services, (s.writeMetadata w md).store.Names p := by
  intro p hp
  show ∃ md', (if w.replaces then some md else s.metadata) = some md' ∧ p ∈ md'.services
  by_cases hw : w.replaces = true
  · rw [if_pos hw]
    exact ⟨md, rfl, hmd ▸ hp⟩
  · rw [if_neg hw]
    exact hnames.resolve_left hw p hp

/-! ### Steps -/

/-- A stage of the cleanup after which the services have been taken. -/
theorem CleanupStage.middle_taken {stage : CleanupStage}
    (h : stage.middle = true ∨ stage = .removeMetadata) :
    stage ≠ .takeServices ∧ ∀ rest, stage = .stopServices rest → rest = [] := by
  cases stage with
  | stopServices rest =>
    cases rest with
    | nil => exact ⟨by rintro ⟨⟩, by rintro rest ⟨⟩; rfl⟩
    | cons service rest => rcases h with h | h <;> cases h
  | takeServices => rcases h with h | h <;> cases h
  | _ => exact ⟨by rintro ⟨⟩, by rintro rest ⟨⟩⟩

section
variable (hr : s.Retained) (hsingle' : s'.life.Single)
  (hunborn : s'.state = .initializing false → s.state = .initializing false)
include hr hsingle' hunborn

theorem CallStep.retained {op : Call} (h : CallStep s t op s') (hth : s.threads t = .absent) :
    s'.Retained := by
  have hrecorded : (s.threads t).unrecorded = false := by rw [hth]; rfl
  cases h with
  | request o ho =>
    rw [state_perform] at hunborn
    exact hr.perform hsingle' hunborn hrecorded fun _ => trivial
  | stop hop =>
    rw [state_perform] at hunborn
    refine hr.perform hsingle' hunborn hrecorded ?_
    rintro (_ | _ | _ | _) <;> exact trivial
  | begin hst => exact hr.perform hsingle' (fun _ => hst) hrecorded fun _ _ => hr.unborn hst
  | reject r hrejects => exact hr.move hunborn hrecorded trivial
  | startAction n hst =>
    apply Retained.setStream
    exact hr.move (m := { s with state := _ }) hunborn hrecorded trivial
  | startUpdate n request hop hst hstarts =>
    exact hr.move (m := { s with state := _ }) hunborn hrecorded trivial

variable {answer : Answer}

theorem ActionStep.retained {pc : ActionPc} (h : ActionStep s t pc answer s')
    (hth : s.threads t = .action pc) : s'.Retained := by
  have hrecorded : (s.threads t).unrecorded = false := by rw [hth]; rfl
  cases h with
  | finish =>
    rw [state_perform] at hunborn
    exact hr.perform hsingle' hunborn hrecorded fun _ => trivial
  | send dl =>
    apply Retained.setStream
    exact hr.move hunborn hrecorded trivial
  | _ => exact hr.move hunborn hrecorded trivial

/-- The events by which a service drops out of the metadata file before the
cleanup: the file is not replaced after a service was started, or the lost
election for ready removes it. -/
def Session.forgets (s : Session) : Event → Bool
  | .run t (.wrote w) =>
    match s.threads t with
    | .initializer (.recordService _) => !w.replaces
    | _ => false
  | .run t (.removed succeeded) =>
    match s.threads t with
    | .initializer .dropMetadata => succeeded && !s.services.isEmpty
    | _ => false
  | _ => false

variable (hsingle : s.life.Single) (hs' : s'.Sound)
include hsingle hs'

theorem InitStep.retained {pc : InitPc} (h : InitStep cfg s t pc answer s')
    (hth : s.threads t = .initializer pc) (hkept : s.forgets (.run t answer) = false) :
    s'.Retained := by
  have htoken : s.life.token t = some (.work .initializer) := by
    simp [life, hth, token]
  have hkeeps : pc.early = true → s.services = [] := by
    have hkeeps := hr.threads t
    rw [hth] at hkeeps
    exact hkeeps
  have hrecorded : (∀ rest, pc ≠ .recordService rest) → (s.threads t).unrecorded = false := by
    intro hpc
    rw [hth]
    cases pc with
    | recordService rest => exact absurd rfl (hpc rest)
    | _ => rfl
  have hnames : (∀ rest, pc ≠ .recordService rest) → ∀ p ∈ s.services, s.store.Names p :=
    fun hpc => hr.names hsingle htoken (hrecorded hpc)
  cases h with
  | move pc' workspace hpc hpc' hearly =>
    refine hr.move hunborn (hrecorded hpc) ?_
    exact fun h => hkeeps (hearly h)
  | recordStart w hw =>
    refine hr.write hsingle htoken hs' hsingle' (by rintro ⟨⟩) rfl ?_ (by rintro ⟨⟩)
    exact fun _ => names_writeMetadata (hkeeps rfl).symm (.inr (hnames (by simp)))
  | recordStartFailed w =>
    refine hr.write hsingle htoken hs' hsingle' (by rintro ⟨⟩) rfl ?_ (by rintro ⟨⟩)
    exact fun _ => names_writeMetadata (hkeeps rfl).symm (.inr (hnames (by simp)))
  | spawn service rest process =>
    exact hr.write hsingle htoken hs' hsingle' (by rintro ⟨⟩) rfl (by rintro ⟨⟩) (by rintro ⟨⟩)
  | recordService w rest pc' hpc' =>
    have hw : w.replaces = true := by simpa [forgets, hth] using hkept
    refine hr.write hsingle htoken hs' hsingle' (by rintro ⟨⟩) rfl ?_ ?_
    · exact fun _ => names_writeMetadata (s := s) rfl (.inl hw)
    · rcases hpc' with rfl | rfl <;> rintro ⟨⟩
  | commitMetadata w pc' hpc' =>
    refine hr.write hsingle htoken hs' hsingle' (by rintro ⟨⟩) rfl ?_ ?_
    · exact fun _ => names_writeMetadata rfl (.inr (hnames (by simp)))
    · rcases hpc' with ⟨rfl, -⟩ | rfl <;> rintro ⟨⟩
  | pass =>
    exact hr.move (m := s.enter t _) hunborn (hrecorded (by simp))
      (by rintro ⟨⟩)
  | abandon pc' hpc hpc' =>
    refine hr.move (m := s.enter t _) hunborn (hrecorded hpc) ?_
    rcases hpc' with rfl | rfl <;> rintro ⟨⟩
  | win started hst =>
    exact hr.move (m := s.enter t _) hunborn (hrecorded (by simp)) trivial
  | dropMetadata succeeded =>
    refine hr.write hsingle htoken hs' hsingle' (by rintro ⟨⟩) rfl ?_ (by rintro ⟨⟩)
    intro _ p hp
    cases succeeded with
    | false => exact hnames (by simp) p hp
    | true =>
      have hnone : s.services = [] := by simpa [forgets, hth] using hkept
      rw [show (_ : Session).services = s.services from rfl, hnone] at hp
      cases hp
  | cleanup =>
    rw [state_perform] at hunborn
    exact hr.perform hsingle' hunborn (hrecorded (by simp)) fun _ => trivial

theorem UpdateStep.retained {request : UpdateRequest} {pc : UpdatePc}
    (h : UpdateStep cfg s t request pc s') (hth : s.threads t = .update request pc) :
    s'.Retained := by
  have hrecorded : (s.threads t).unrecorded = false := by rw [hth]; rfl
  have hkeeps : (update request pc).Keeps s.store := hth ▸ hr.threads t
  have htoken : ∀ {md changed deleted}, pc = .commit md changed deleted →
      s.life.token t = some (.work .update) := by
    rintro md changed deleted rfl
    simp [life, hth, token]
  -- the commit replaces the file by one that names the same services
  have hcommit : ∀ {md w changed deleted}, pc = .commit md changed deleted →
      ∀ p ∈ s.services, (s.writeMetadata w md).store.Names p := by
    rintro md w changed deleted rfl
    exact names_writeMetadata hkeeps (.inr (hr.names hsingle (htoken rfl) hrecorded))
  cases h with
  | commit md changed deleted =>
    exact hr.write hsingle (htoken rfl) hs' hsingle' (by rintro ⟨⟩) rfl
      (fun _ => hcommit (w := .ok) rfl) trivial
  | commitFail md changed deleted w err herr =>
    exact hr.write hsingle (htoken rfl) hs' hsingle' (by rintro ⟨⟩) rfl (fun _ => hcommit rfl)
      trivial
  | prepare => exact hr.move hunborn hrecorded (show _ = _ from rfl)
  | mutate md changed deleted => exact hr.move hunborn hrecorded hkeeps
  | applyFail md err pc' herr hpc' =>
    refine hr.move hunborn hrecorded ?_
    rcases hpc' with rfl | rfl <;> exact trivial
  | succeed changed deleted hst =>
    refine hr.frame rfl rfl rfl le_rfl hunborn ?_
    intro u
    by_cases hut : u = t
    · subst hut
      exact .inr ⟨by simp [succeedUpdate, setThread, Thread.Keeps], hrecorded⟩
    · exact .inl (Function.update_of_ne hut _ _)
  | giveBack err herr hst =>
    exact hr.move (m := s.enter t _) hunborn hrecorded trivial
  | conclude | handle =>
    rw [state_perform] at hunborn
    exact hr.perform hsingle' hunborn hrecorded fun _ => trivial
  | _ => exact hr.move hunborn hrecorded trivial

theorem CleanupStep.retained {call : CleanupCall} (h : CleanupStep s t role call s')
    (hth : s.threads t = .cleaning role call) : s'.Retained := by
  have hrecorded : (s.threads t).unrecorded = false := by rw [hth]; rfl
  have hkeeps : (cleaning role call).Keeps s.store := hth ▸ hr.threads t
  obtain ⟨hflag, htaken, hrest⟩ := hkeeps
  -- the thread stays inside the cleanup and changes the services, the file or the history
  have hstays : ∀ {m : Session} {call' : CleanupCall},
      s' = m.setThread t (.cleaning role call') → (∀ p ∈ m.log.unproven, m.store.Names p) →
      (m.log.cleanups = 0 → m.log.unproven = []) → m.services = [] →
      (cleaning role call').Keeps m.store → s'.Retained := by
    rintro m call' rfl hunproven huntouched hservices hkeeps
    have hth' : (m.setThread t (.cleaning role call')).threads t = .cleaning role call' :=
      Function.update_self ..
    refine .of_holder (t := t) hs' hsingle' ?_ hunproven huntouched ?_ ?_
    · simp [life, hth', token]
    · intro _ p hp
      rw [show (m.setThread t (.cleaning role call')).services = [] from hservices] at hp
      cases hp
    · rw [hth']
      exact hkeeps
  have htoken : s.life.token t =
      some (.clean role.owner call.explicit call.stage.unregistered) := by
    simp [life, hth, token]
  have hzero : s.log.cleanups ≠ 0 := by
    have hone : s.log.cleanups = 1 := hsingle.counted t _ _ _ htoken
    omega
  cases h with
  | take hstage =>
    refine hstays rfl hr.unproven hr.untouched rfl ⟨hflag, fun _ => rfl, ?_⟩
    rintro rest ⟨⟩ p hp
    exact hr.names hsingle htoken hrecorded p (List.mem_reverse.mp hp)
  | stop service rest failed unproven hstage =>
    have hnone := htaken (by rw [hstage]; rintro ⟨⟩)
    have hnamed := hrest _ hstage
    refine hstays rfl ?_ (fun h => absurd h hzero) hnone ⟨?_, fun _ => hnone, ?_⟩
    · intro p hp
      cases unproven with
      | false => exact hr.unproven p hp
      | true =>
        rcases List.mem_append.mp hp with hp | hp
        · exact hr.unproven p hp
        · rw [List.mem_singleton.mp hp]
          exact hnamed service List.mem_cons_self
    · intro hproven
      obtain ⟨hbefore, rfl⟩ := Bool.or_eq_false_iff.mp hproven
      exact hflag hbefore
    · rintro rest' ⟨⟩ p hp
      exact hnamed p (List.mem_cons_of_mem _ hp)
  | move call' workspace archives hstage hstage' hexplicit hunproven harchives =>
    have hnone := htaken (CleanupStage.middle_taken (.inl hstage)).1
    refine hr.move hunborn hrecorded ⟨?_, fun _ => hnone, ?_⟩
    · rw [hunproven]
      exact hflag
    · intro rest hrest' p hp
      rw [(CleanupStage.middle_taken hstage').2 rest hrest'] at hp
      cases hp
  | keepMetadata hstage hunproven =>
    have hnone := htaken (by rw [hstage]; rintro ⟨⟩)
    exact hr.move hunborn hrecorded ⟨hflag, fun _ => hnone, by rintro rest ⟨⟩⟩
  | removeMetadata succeeded hstage hunproven =>
    have hnone := htaken (by rw [hstage]; rintro ⟨⟩)
    have hempty : s.log.unproven = [] := hflag hunproven
    refine hstays rfl ?_ hr.untouched hnone ⟨hflag, fun _ => hnone, by rintro rest ⟨⟩⟩
    intro p hp
    rw [show (_ : Session).log.unproven = s.log.unproven from rfl, hempty] at hp
    cases hp
  | unregister hstage =>
    have hnone := htaken (by rw [hstage]; rintro ⟨⟩)
    exact hr.move (m := { s with registered := _ }) hunborn hrecorded
      ⟨hflag, fun _ => hnone, by rintro rest ⟨⟩⟩
  | releasePermit hstage =>
    have hnone := htaken (by rw [hstage]; rintro ⟨⟩)
    exact hr.move (m := { s with permit := _ }) hunborn hrecorded
      ⟨hflag, fun _ => hnone, by rintro rest ⟨⟩⟩
  | publish response hstage =>
    exact hr.move (m := { s with state := _ }) hunborn hrecorded trivial

theorem SessionStep.retained {e : Event} (h : SessionStep cfg s e s')
    (hkept : s.forgets e = false) : s'.Retained := by
  cases h with
  | tick | cancelInitialization | cancelAction =>
    exact hr.frame rfl rfl rfl le_rfl hunborn fun _ => .inl rfl
  | call t op hth h => exact h.retained hr hsingle' hunborn hth
  | init t pc answer hth h => exact h.retained hr hsingle' hunborn hsingle hs' hth hkept
  | action t pc answer hth h => exact h.retained hr hsingle' hunborn hth
  | update t request pc answer hth h => exact h.retained hr hsingle' hunborn hsingle hs' hth
  | cleanup t role call answer hth h => exact h.retained hr hsingle' hunborn hsingle hs' hth
  | answer t answer response hth hst =>
    exact hr.move hunborn (by rw [hth]; rfl) trivial
  | stream t op h =>
    cases h with
    | _ => exact hr.frame rfl rfl rfl le_rfl hunborn fun _ => .inl rfl
  | panic t request late hpoint =>
    refine hr.move hunborn ?_ trivial
    rcases panicPoint_cases hpoint with ⟨pc, hth, -⟩ | ⟨err, call, hth, -⟩
    · rw [hth]
      rfl
    · rw [hth]
      rfl

end

theorem retained_of_exec {es : List Event} (h : exec (step cfg) .reserved es = some s)
    (hok : Meets (step cfg) (fun s e => s.strays e = false ∧ s.forgets e = false) .reserved es) :
    s.Retained := by
  have hinv : s.Sound ∧ s.life.Single ∧ s.Retained := by
    refine exec_invariant (P := fun s => s.Sound ∧ s.life.Single ∧ s.Retained) ?_
      ⟨reserved_sound, reserved_single, ?_⟩ hok h
    · rintro s e s' ⟨hs, hsingle, hr⟩ ⟨hstrays, hkept⟩ hstep
      have hlife : s.life.Step false s'.life := step_refines hs hstep fun _ => hstrays
      have hs' : s'.Sound := hs.step hstep
      have hsingle' : s'.life.Single := hsingle.step hs.owned hlife
      exact ⟨hs', hsingle', (step_cases hstep).retained hr hsingle' hlife.unborn hsingle hs' hkept⟩
    · refine ⟨?_, fun _ => rfl, fun _ => rfl, ?_, fun _ => trivial⟩
      · rintro p ⟨⟩
      · rintro - p ⟨⟩
  exact hinv.2.2

end

/-- A service whose stop reported that it may still be there is named by the
metadata file from then on, in every run in which no thread strays, every
started service gets into the file, and the file is not removed by a lost
election for ready while services run. -/
theorem unproven_service_recorded {cfg : SessionConfig} {es : List Event} {s : Session}
    (hrun : exec (step cfg) .reserved es = some s)
    (hok : Meets (step cfg) (fun s e => s.strays e = false ∧ s.forgets e = false) .reserved es) :
    ∀ p ∈ s.log.unproven, ∃ md, s.metadata = some md ∧ p ∈ md.services :=
  (retained_of_exec hrun hok).unproven

def serviceConfig : SessionConfig :=
  { sampleConfig with services := [⟨"db", 5⟩] }

/-- An initialization with one service, up to the election for ready. -/
def serviceRun : List Event :=
  [.call 0 .beginInitialization, .run 0 (.initialized true true), .run 0 (.wrote .ok),
    .run 0 (.spawned 10 11 11), .run 0 (.wrote .ok), .run 0 .go, .run 0 .go, .run 0 .go,
    .run 0 (.wrote .ok)]

/-- A cleanup by thread `t` in which the stop of the service proves nothing. -/
def unprovenCleanupRun (t : Nat) : List Event :=
  [.run t .go, .run t (.stopped (.failed true)), .run t .go,
    .run t (.tornDown ⟨0, some 0, false, none⟩), .run t (.collected none none),
    .run t (.removed true), .run t .go, .run t .go, .run t .go, .run t .go]

/-- The session becomes ready and is stopped: the file stays. -/
theorem unproven_service_recorded_stop : ∃ s r,
    exec (step serviceConfig) .reserved
      (serviceRun ++ [.run 0 .go, .call 1 .stop] ++ unprovenCleanupRun 1) = some s ∧
    s.state = .terminated r ∧ (⟨"db", 10, 11, 11, 5⟩ : DurableServiceProcess) ∈ s.log.unproven ∧
    ∃ md, s.metadata = some md ∧ (⟨"db", 10, 11, 11, 5⟩ : DurableServiceProcess) ∈ md.services := by
  have hrun : exec (step serviceConfig) .reserved
      (serviceRun ++ [.run 0 .go, .call 1 .stop] ++ unprovenCleanupRun 1) = some _ := rfl
  have hmem : (⟨"db", 10, 11, 11, 5⟩ : DurableServiceProcess) ∈
      [(⟨"db", 10, 11, 11, 5⟩ : DurableServiceProcess)] := List.mem_singleton_self _
  exact ⟨_, _, hrun, rfl, hmem, unproven_service_recorded hrun (by decide) _ hmem⟩

/-- The same service, but `stop` arrives between the commit of the metadata
and the election: the initializer removes the file, cleans up, and the
service that may still run is recorded nowhere. -/
theorem lost_election_forgets_service : ∃ s r,
    exec (step serviceConfig) .reserved
      (serviceRun ++ [.call 1 .stop, .run 0 .go, .run 0 (.removed true), .run 0 .go] ++
        unprovenCleanupRun 0) = some s ∧
    s.state = .terminated r ∧ s.log.unproven = [⟨"db", 10, 11, 11, 5⟩] ∧ s.metadata = none :=
  ⟨_, _, rfl, rfl, rfl, rfl⟩

end IndenturedServer.Sessions
