import IndenturedServer.Sessions.State

/-!
Who has to clean a session up: the abstract lifecycle.

The source elects one owner for the cleanup of a session, but records it as
a kind of thread only. This file says what the election is for, without the
program points of the threads. A thread holds a `Token` while it still has a
say: `work` while it runs the initialization, the action or the update that
the session is in, `clean` while it is inside `cleanup_entry`. A `Life.Step`
moves tokens along with the state.

A worker can also act after its operation is over. Such a thread holds no
token, and the steps it can take are the stray ones. `Life.Owned` and
`Life.Elected` hold with and without strays, `Life.Single` only without.
-/

namespace IndenturedServer.Sessions

open SessionState

/-! ### Live states and their workers -/

/-- The kind of operation that a live state stands for. -/
def SessionState.operation : SessionState → Option CleanupOwner
  | .initializing true => some .initializer
  | .action _ => some .action
  | .updating _ => some .update
  | _ => none

/-- Live, and no worker has the session. -/
def SessionState.idle : SessionState → Bool
  | .initializing false => true
  | .ready _ => true
  | _ => false

/-- Thread `t` may run the operation of kind `k` that the state stands for. -/
inductive Runs (t : Nat) : SessionState → CleanupOwner → Prop
  | initializer : Runs t (.initializing true) .initializer
  | action : Runs t (.action t) .action
  | update : Runs t (.updating t) .update

variable {t : Nat} {st : SessionState} {k : CleanupOwner}

theorem Runs.operation (h : Runs t st k) : st.operation = some k := by
  cases h <;> rfl

theorem Runs.state_action (h : Runs t st .action) : st = .action t := by
  cases h
  rfl

theorem Runs.state_update (h : Runs t st .update) : st = .updating t := by
  cases h
  rfl

theorem SessionState.live_of_operation (h : st.operation = some k) : st.live = true := by
  cases st <;> first | rfl | cases h

theorem Runs.live (h : Runs t st k) : st.live = true :=
  live_of_operation h.operation

theorem SessionState.idle_cases (h : st.idle = true) :
    st = .initializing false ∨ ∃ n, st = .ready n := by
  cases st with
  | initializing workerStarted => cases workerStarted <;> simp_all [idle]
  | ready n => exact .inr ⟨n, rfl⟩
  | _ => cases h

theorem SessionState.live_of_idle (h : st.idle = true) : st.live = true := by
  obtain rfl | ⟨n, rfl⟩ := idle_cases h <;> rfl

theorem SessionState.not_live_cases (h : st.live = false) :
    (∃ τ, st = .terminating τ) ∨ ∃ r, st = .terminated r := by
  cases st with
  | terminating τ => exact .inl ⟨τ, rfl⟩
  | terminated r => exact .inr ⟨r, rfl⟩
  | _ => cases h

/-! ### Tokens and steps -/

inductive Token
  | work (owner : CleanupOwner)
  /-- Inside `cleanup_entry`, which was called with `explicit`; the last
  flag says that the session has left the registry. -/
  | clean (owner : CleanupOwner) (explicit unregistered : Bool)
  deriving DecidableEq, Repr

def Token.owner : Token → CleanupOwner
  | .work k => k
  | .clean k _ _ => k

structure Life where
  state : SessionState
  token : Nat → Option Token
  /-- Thread `t` is a `stop` call that waits for, or has, a response. -/
  stopper : Nat → Bool
  registered : Bool
  permit : Bool
  /-- Executions of `cleanup_entry` started so far. -/
  cleanups : Nat
  first : Option (Nat × Termination)
  spawning : Bool

namespace Life

def give (v : Life) (t : Nat) (token : Option Token) : Life :=
  { v with token := Function.update v.token t token }

/-- Thread `t` moves the session to terminating. -/
def terminate (v : Life) (t : Nat) (τ : Termination) : Life :=
  { v with state := .terminating τ, first := some (t, τ) }

/-- Thread `t` calls `cleanup_entry`. -/
def cleanUp (v : Life) (t : Nat) (k : CleanupOwner) (explicit : Bool) : Life :=
  { v with
    token := Function.update v.token t (some (.clean k explicit false))
    cleanups := v.cleanups + 1 }

def awaits (v : Life) (t : Nat) (stops : Bool) : Life :=
  { v with stopper := Function.update v.stopper t (v.stopper t || stops) }

inductive Step (strays : Bool) (v : Life) : Life → Prop
  | skip : Step strays v v
  /-- `begin_initialization` admits the initialize worker. -/
  | begin (t : Nat) (hst : v.state = .initializing false) (ht : v.token t = none) :
      Step strays v ({ v with state := .initializing true }.give t (some (.work .initializer)))
  /-- `start_action` and `start_update`. -/
  | start (t : Nat) (k : CleanupOwner) (st : SessionState) (n : Nat) (hst : v.state = .ready n)
      (ht : v.token t = none) (hk : k ≠ .initializer) (hrun : Runs t st k) :
      Step strays v ({ v with state := st }.give t (some (.work k)))
  /-- The operation ends well and the session becomes ready. -/
  | release (t : Nat) (k : CleanupOwner) (now : Nat) (ht : v.token t = some (.work k))
      (hrun : Runs t v.state k) :
      Step strays v ({ v with state := .ready now }.give t none)
  /-- An idle session is terminated by a thread that cleans up itself. -/
  | elect (t : Nat) (explicit stops : Bool) (hst : v.state.idle = true) (ht : v.token t = none)
      (hstops : stops = true → explicit = true) :
      Step strays v (((v.terminate t ⟨explicit, .requester⟩).cleanUp t .requester explicit).awaits
        t stops)
  /-- A busy session is terminated and its worker is to clean up. -/
  | mark (t : Nat) (k : CleanupOwner) (explicit stops : Bool)
      (hst : v.state.operation = some k) (hstops : stops = true → explicit = true) :
      Step strays v ((v.terminate t ⟨explicit, k⟩).awaits t stops)
  /-- A worker terminates its own operation and cleans up. -/
  | finish (t : Nat) (k : CleanupOwner) (ht : v.token t = some (.work k))
      (hrun : Runs t v.state k) :
      Step strays v ((v.terminate t ⟨false, k⟩).cleanUp t k false)
  /-- A worker finds the session terminated and itself as the owner. -/
  | join (t : Nat) (k : CleanupOwner) (explicit : Bool) (ht : v.token t = some (.work k))
      (hst : v.state = .terminating ⟨explicit, k⟩) :
      Step strays v (v.cleanUp t k explicit)
  /-- A worker ends without cleaning up. -/
  | lost (t : Nat) (k : CleanupOwner) (ht : v.token t = some (.work k))
      (hst : v.state.live = false)
      (hreg : ∀ explicit, v.state = .terminating ⟨explicit, k⟩ → v.registered = false) :
      Step strays v (v.give t none)
  /-- The panic handler of the running update elects itself. -/
  | panicElect (t : Nat) (ht : v.token t = some (.work .update)) (hst : v.state = .updating t) :
      Step strays v ((v.terminate t ⟨false, .requester⟩).cleanUp t .requester false)
  /-- A thread whose operation is over takes the owner kind for its own. -/
  | strayJoin (hstrays : strays = true) (t : Nat) (k : CleanupOwner) (explicit : Bool)
      (ht : v.token t = none) (hst : v.state = .terminating ⟨explicit, k⟩) :
      Step strays v (v.cleanUp t k explicit)
  /-- The panic handler of a finished update takes another update for its own. -/
  | strayElect (hstrays : strays = true) (t u : Nat) (ht : v.token t = none)
      (hst : v.state = .updating u) :
      Step strays v ((v.terminate t ⟨false, .requester⟩).cleanUp t .requester false)
  /-- The cleanup of an update worker panics; its handler starts over. -/
  | abort (hstrays : strays = true) (t : Nat) (explicit : Bool)
      (ht : v.token t = some (.clean .update explicit false)) :
      Step strays v (v.give t (some (.work .update)))
  | unregister (t : Nat) (k : CleanupOwner) (explicit : Bool)
      (ht : v.token t = some (.clean k explicit false)) :
      Step strays v ({ v with registered := false }.give t (some (.clean k explicit true)))
  | releasePermit (t : Nat) (k : CleanupOwner) (explicit : Bool)
      (ht : v.token t = some (.clean k explicit true)) :
      Step strays v { v with permit := false }
  | publish (t : Nat) (k : CleanupOwner) (explicit : Bool) (response : SessionStopResponse)
      (ht : v.token t = some (.clean k explicit true)) :
      Step strays v ({ v with state := .terminated response }.give t none)
  | spawn (t : Nat) (ht : v.token t = some (.work .initializer)) :
      Step strays v { v with spawning := true }

section
variable (v : Life) (t u : Nat)

@[simp, grind =] theorem give_token (token : Option Token) :
    (v.give t token).token u = if u = t then token else v.token u := by
  simp [give, Function.update_apply]

@[simp, grind =] theorem cleanUp_token (k : CleanupOwner) (e : Bool) :
    (v.cleanUp t k e).token u = if u = t then some (.clean k e false) else v.token u := by
  simp [cleanUp, Function.update_apply]

@[simp, grind =] theorem terminate_token (τ : Termination) :
    (v.terminate t τ).token u = v.token u := rfl

@[simp, grind =] theorem awaits_token (stops : Bool) :
    (v.awaits t stops).token u = v.token u := rfl

@[simp, grind =] theorem terminate_stopper (τ : Termination) :
    (v.terminate t τ).stopper u = v.stopper u := rfl

@[simp, grind =] theorem cleanUp_stopper (k : CleanupOwner) (e : Bool) :
    (v.cleanUp t k e).stopper u = v.stopper u := rfl

end

@[simp] theorem awaits_false (v : Life) (t : Nat) : v.awaits t false = v := by
  simp [awaits]

@[simp, grind =] theorem awaits_stopper (v : Life) (t u : Nat) (stops : Bool) :
    (v.awaits t stops).stopper u = if u = t then (v.stopper t || stops) else v.stopper u := by
  simp [awaits, Function.update_apply]

variable {v' : Life}

/-- A session does not go back to where its upload is awaited. -/
theorem Step.unborn {strays : Bool} {v : Life} (h : v.Step strays v')
    (hst : v'.state = .initializing false) : v.state = .initializing false := by
  cases h with
  | start t k st n hready ht hk hrun =>
    cases hrun with
    | initializer => exact absurd rfl hk
    | action | update => cases hst
  | skip | join | lost | strayJoin | abort | unregister | releasePermit | spawn => exact hst
  | _ => cases hst

/-! ### Every operation and every termination has an owner -/

/-- Tokens and state agree, and whatever the session is in has a thread
that will get it out again. -/
structure Owned (v : Life) : Prop where
  work : ∀ t k, v.token t = some (.work k) → Runs t v.state k ∨
    (∃ e, v.state = .terminating ⟨e, k⟩) ∨
    (k = .update ∧ ∃ e, v.state = .terminating ⟨e, .requester⟩) ∨ ∃ r, v.state = .terminated r
  clean : ∀ t k e g, v.token t = some (.clean k e g) →
    v.state = .terminating ⟨e, k⟩ ∨ ∃ r, v.state = .terminated r
  operated : ∀ k, v.state.operation = some k →
    ∃ t, v.token t = some (.work k) ∧ Runs t v.state k
  owned : ∀ e k, v.state = .terminating ⟨e, k⟩ →
    ∃ t, v.token t = some (.work k) ∨ ∃ g, v.token t = some (.clean k e g)
  unregistered : v.registered = false →
    (∃ r, v.state = .terminated r) ∨ ∃ t k e, v.token t = some (.clean k e true)
  initializer : ∀ t u, v.token t = some (.work .initializer) →
    v.token u = some (.work .initializer) → t = u
  spawning : v.spawning = true → v.state ≠ .initializing false

variable {e g : Bool} {u : Nat}

namespace Owned

variable {v : Life} {strays : Bool}

theorem clean_not_live (h : v.Owned) (ht : v.token t = some (.clean k e g)) :
    v.state.live = false := by
  rcases h.clean t k e g ht with hst | ⟨r, hst⟩ <;> simp [hst, live]

theorem runs_of_token (h : v.Owned) (hlive : v.state.live = true) {token : Token}
    (ht : v.token t = some token) : ∃ k, token = .work k ∧ Runs t v.state k := by
  cases token with
  | clean k e g => simp [h.clean_not_live ht] at hlive
  | work k =>
    rcases h.work t k ht with hrun | ⟨e, hst⟩ | ⟨-, e, hst⟩ | ⟨r, hst⟩
    · exact ⟨k, rfl, hrun⟩
    all_goals simp [hst, live] at hlive

theorem token_of_idle (h : v.Owned) (hidle : v.state.idle = true) (t : Nat) : v.token t = none := by
  by_contra hne
  obtain ⟨token, ht⟩ := Option.ne_none_iff_exists'.mp hne
  obtain ⟨k, -, hrun⟩ := h.runs_of_token (live_of_idle hidle) ht
  rcases idle_cases hidle with hst | ⟨n, hst⟩ <;> rw [hst] at hrun <;> cases hrun

theorem others_of_runs (h : v.Owned) (ht : v.token t = some (.work k)) (hrun : Runs t v.state k)
    (hut : u ≠ t) : v.token u = none := by
  by_contra hne
  obtain ⟨token, hu⟩ := Option.ne_none_iff_exists'.mp hne
  obtain ⟨k', rfl, hrun'⟩ := h.runs_of_token hrun.live hu
  generalize v.state = st at hrun hrun'
  cases hrun with
  | initializer => cases hrun'; exact hut (h.initializer u t hu ht)
  | action => cases hrun'; exact hut rfl
  | update => cases hrun'; exact hut rfl

theorem registered_of_live (h : v.Owned) (hlive : v.state.live = true) : v.registered = true := by
  by_contra hreg
  rcases h.unregistered (by simpa using hreg) with ⟨r, hst⟩ | ⟨t, k, e, ht⟩
  · simp [hst, live] at hlive
  · simp [h.clean_not_live ht] at hlive

/-- What the only token of a session has to say about its state. -/
inductive Fits (t : Nat) (st : SessionState) : Token → Prop
  | runs {k : CleanupOwner} (hrun : Runs t st k) : Fits t st (.work k)
  | marked {k : CleanupOwner} {e : Bool} (hst : st = .terminating ⟨e, k⟩) : Fits t st (.work k)
  | cleaning {k : CleanupOwner} {e : Bool} (hst : st = .terminating ⟨e, k⟩) :
      Fits t st (.clean k e false)

theorem of_only {token : Token} (hothers : ∀ u, u ≠ t → v.token u = none)
    (ht : v.token t = some token) (hfits : Fits t v.state token) (hreg : v.registered = true)
    (hspawn : v.spawning = true → v.state ≠ .initializing false) : v.Owned := by
  have honly : ∀ u token', v.token u = some token' → u = t ∧ token' = token := by
    intro u token' hu
    by_cases hut : u = t
    · subst hut; exact ⟨rfl, Option.some.inj (hu.symm.trans ht)⟩
    · rw [hothers u hut] at hu; cases hu
  refine ⟨?_, ?_, ?_, ?_, by simp [hreg], ?_, hspawn⟩
  · intro u k hu
    obtain ⟨rfl, rfl⟩ := honly u _ hu
    cases hfits with
    | runs hrun => exact .inl hrun
    | marked hst => exact .inr (.inl ⟨_, hst⟩)
  · intro u k e g hu
    obtain ⟨rfl, rfl⟩ := honly u _ hu
    cases hfits with
    | cleaning hst => exact .inl hst
  · intro k hk
    cases hfits with
    | runs hrun =>
      obtain rfl : _ = k := Option.some.inj (hrun.operation.symm.trans hk)
      exact ⟨t, ht, hrun⟩
    | marked hst => rw [hst] at hk; cases hk
    | cleaning hst => rw [hst] at hk; cases hk
  · intro e k hst'
    refine ⟨t, ?_⟩
    cases hfits with
    | runs hrun => rw [hst'] at hrun; cases hrun
    | marked hst => rw [hst] at hst'; cases hst'; exact .inl ht
    | cleaning hst => rw [hst] at hst'; cases hst'; exact .inr ⟨_, ht⟩
  · intro u u' hu hu'
    rw [(honly u _ hu).1, (honly u' _ hu').1]

theorem update_others {tokens : Nat → Option Token} {token : Option Token}
    (h : ∀ u, u ≠ t → tokens u = none) (u : Nat) (hut : u ≠ t) :
    Function.update tokens t token u = none := by
  rw [Function.update_of_ne hut, h u hut]

theorem handed (h : v.Owned) {token : Token} (hlive : v.state.live = true)
    (hothers : ∀ u, u ≠ t → v.token u = none)
    (htoken : v'.token = Function.update v.token t (some token)) (hfits : Fits t v'.state token)
    (hreg : v'.registered = v.registered)
    (hspawn : v'.spawning = true → v'.state ≠ .initializing false) : v'.Owned := by
  refine of_only ?_ (by simp [htoken]) hfits (hreg.trans (h.registered_of_live hlive)) hspawn
  rw [htoken]
  exact update_others hothers

theorem of_idle (hnone : ∀ u, v.token u = none) (hidle : v.state.idle = true)
    (hreg : v.registered = true) (hspawn : v.spawning = true → v.state ≠ .initializing false) :
    v.Owned := by
  have hlive := live_of_idle hidle
  refine ⟨by simp [hnone], by simp [hnone], ?_, ?_, by simp [hreg], by simp [hnone], hspawn⟩
  · intro k hk
    rcases idle_cases hidle with hst | ⟨n, hst⟩ <;> rw [hst] at hk <;> cases hk
  · intro e k hst
    simp [hst, live] at hlive

section
variable (h : v.Owned)
include h

theorem unregistered_other (ht : ∀ k e, v.token t ≠ some (.clean k e true))
    (hreg : v.registered = false) : (∃ r, v.state = .terminated r) ∨
      ∃ u k e, u ≠ t ∧ v.token u = some (.clean k e true) := by
  refine (h.unregistered hreg).imp id ?_
  rintro ⟨u, k, e, hu⟩
  exact ⟨u, k, e, fun hut => ht k e (hut ▸ hu), hu⟩

/-- Handing thread `t` another token while the session terminates: what
remains is who owns the termination and who took the session out of the
registry. -/
theorem retoken {token : Option Token} (hstate : v'.state = v.state)
    (htoken : v'.token = (v.give t token).token) (hst : v.state.live = false)
    (hinit : token ≠ some (.work .initializer)) (hwork : ∀ k, token = some (.work k) →
      (∃ e, v.state = .terminating ⟨e, k⟩) ∨ ∃ r, v.state = .terminated r)
    (hclean : ∀ k e g, token = some (.clean k e g) →
      v.state = .terminating ⟨e, k⟩ ∨ ∃ r, v.state = .terminated r)
    (howned : ∀ e k, v.state = .terminating ⟨e, k⟩ →
      ∃ u, v'.token u = some (.work k) ∨ ∃ g, v'.token u = some (.clean k e g))
    (hreg : (v'.registered = v.registered ∧ ∀ k e, v.token t ≠ some (.clean k e true)) ∨
      ∃ k e, token = some (.clean k e true)) : v'.Owned := by
  rw [← hstate] at hst hwork hclean howned
  refine ⟨?_, ?_, ?_, howned, ?_, ?_, ?_⟩
  · intro u k hu
    rw [htoken, give_token] at hu
    split_ifs at hu with hut
    · exact .inr ((hwork k hu).imp id .inr)
    · rw [hstate]
      exact h.work u k hu
  · intro u k e g hu
    rw [htoken, give_token] at hu
    split_ifs at hu with hut
    · exact hclean k e g hu
    · rw [hstate]
      exact h.clean u k e g hu
  · intro k hk
    rw [live_of_operation hk] at hst
    cases hst
  · intro hr
    rw [hstate, htoken]
    obtain ⟨hsame, ht⟩ | ⟨k, e, rfl⟩ := hreg
    · refine (h.unregistered_other ht (hsame ▸ hr)).imp id ?_
      rintro ⟨u, k, e, hut, hu⟩
      exact ⟨u, k, e, by simpa [hut] using hu⟩
    · exact .inr ⟨t, k, e, by simp⟩
  · intro u u' hu hu'
    rw [htoken, give_token] at hu hu'
    split_ifs at hu hu' with h1 h2
    · exact h1.trans h2.symm
    · exact absurd hu hinit
    · exact absurd hu' hinit
    · exact h.initializer u u' hu hu'
  · rintro - hst'
    rw [hst'] at hst
    cases hst

theorem cleanUp_of_terminating (hst : v.state = .terminating ⟨e, k⟩)
    (ht : ∀ k' e', v.token t ≠ some (.clean k' e' true)) : (v.cleanUp t k e).Owned := by
  refine h.retoken rfl rfl (by simp [hst, live]) (by simp) (by simp) ?_ ?_ (.inl ⟨rfl, ht⟩)
  · rintro k' e' g ⟨⟩
    exact .inl hst
  · intro e' k' hst'
    obtain ⟨rfl, rfl⟩ : e = e' ∧ k = k' := by simpa [hst] using hst'
    exact ⟨t, .inr ⟨false, by simp⟩⟩

/-- A worker that ends without cleaning up was not the last one to care. -/
theorem lost_owned (ht : v.token t = some (.work k)) (hst : v.state.live = false)
    (hreg : ∀ e, v.state = .terminating ⟨e, k⟩ → v.registered = false) : (v.give t none).Owned := by
  have hwork : ∀ k' e, v.token t ≠ some (.clean k' e true) := by simp [ht]
  refine h.retoken rfl rfl hst (by simp) (by simp) (by simp) ?_ (.inl ⟨rfl, hwork⟩)
  intro e k' hst'
  by_cases hk : k' = k
  · -- the session has left the registry, so some thread is past that point
    subst hk
    rcases h.unregistered_other hwork (hreg e hst') with ⟨r, hr⟩ | ⟨u, k'', e'', hut, hu⟩
    · rw [hst'] at hr
      cases hr
    · have hsame := h.clean u k'' e'' true hu
      obtain ⟨rfl, rfl⟩ : e = e'' ∧ k' = k'' := by simpa [hst'] using hsame
      exact ⟨u, .inr ⟨true, by simpa [hut] using hu⟩⟩
  · obtain ⟨u, hu⟩ := h.owned e k' hst'
    have hut : u ≠ t := by
      rintro rfl
      rw [ht] at hu
      rcases hu with hu | ⟨g, hu⟩
      · exact hk (by simpa using hu.symm)
      · cases hu
    exact ⟨u, by simpa [hut] using hu⟩

theorem step (hs : v.Step strays v') : v'.Owned := by
  cases hs with
  | skip => exact h
  | begin t hst ht =>
    have hidle : v.state.idle = true := by simp [hst, idle]
    exact h.handed (live_of_idle hidle) (fun u _ => h.token_of_idle hidle u) rfl (.runs .initializer)
      rfl (by simp [give])
  | start t k st n hst ht hk hrun =>
    have hidle : v.state.idle = true := by simp [hst, idle]
    refine h.handed (live_of_idle hidle) (fun u _ => h.token_of_idle hidle u) rfl (.runs hrun) rfl ?_
    rintro - rfl
    cases hrun
  | release t k now ht hrun =>
    refine of_idle ?_ rfl ?_ (by simp [give])
    · intro u
      by_cases hut : u = t
      · simp [hut]
      · simpa [hut] using h.others_of_runs ht hrun hut
    · exact h.registered_of_live hrun.live
  | elect t e stops hidle ht hstops =>
    exact h.handed (live_of_idle hidle) (fun u _ => h.token_of_idle hidle u) rfl (.cleaning rfl) rfl
      (by simp [awaits, cleanUp, terminate])
  | mark t k e stops hst hstops =>
    obtain ⟨u, hu, hrun⟩ := h.operated k hst
    refine of_only (t := u) ?_ hu (.marked rfl) ?_ (by simp [awaits, terminate])
    · exact fun w hwu => h.others_of_runs hu hrun hwu
    · exact h.registered_of_live (live_of_operation hst)
  | finish t k ht hrun =>
    exact h.handed hrun.live (fun u hut => h.others_of_runs ht hrun hut) rfl (.cleaning rfl) rfl
      (by simp [cleanUp, terminate])
  | panicElect t ht hst =>
    have hrun : Runs t v.state .update := by rw [hst]; exact .update
    exact h.handed hrun.live (fun u hut => h.others_of_runs ht hrun hut) rfl (.cleaning rfl) rfl
      (by simp [cleanUp, terminate])
  | join t k e ht hst => exact h.cleanUp_of_terminating hst (by simp [ht])
  | lost t k ht hst hreg => exact h.lost_owned ht hst hreg
  | strayJoin hstrays t k e ht hst => exact h.cleanUp_of_terminating hst (by simp [ht])
  | strayElect hstrays t u ht hst =>
    -- the update that was running keeps its token and loses the session
    have hothers : ∀ x token, v.token x = some token → token = .work .update := by
      intro x token hx
      obtain ⟨k, rfl, hrunx⟩ := h.runs_of_token (by rw [hst]; rfl) hx
      rw [hst] at hrunx
      cases hrunx
      rfl
    refine ⟨?_, ?_, by rintro k ⟨⟩, ?_, ?_, ?_, by rintro - ⟨⟩⟩
    · intro x k hx
      rw [cleanUp_token] at hx
      split_ifs at hx with hxt
      · cases hx
      · cases hothers x _ hx
        exact .inr (.inr (.inl ⟨rfl, false, rfl⟩))
    · intro x k e g hx
      rw [cleanUp_token] at hx
      split_ifs at hx with hxt
      · cases hx
        exact .inl rfl
      · cases hothers x _ hx
    · rintro e k ⟨⟩
      exact ⟨t, .inr ⟨false, by simp⟩⟩
    · intro hreg
      simp [cleanUp, terminate, h.registered_of_live (by rw [hst]; rfl)] at hreg
    · intro x y hx
      rw [cleanUp_token] at hx
      split_ifs at hx with hxt
      · cases hx
      · cases hothers x _ hx
  | abort hstrays t e ht =>
    have hclean := h.clean t _ e false ht
    refine h.retoken rfl rfl (h.clean_not_live ht) (by simp) ?_ (by simp) ?_
      (.inl ⟨rfl, by simp [ht]⟩)
    · rintro k ⟨⟩
      exact hclean.imp (fun hst => ⟨e, hst⟩) id
    · intro e' k' hst'
      obtain ⟨rfl, rfl⟩ : e' = e ∧ k' = .update := by simpa [hst'] using hclean
      exact ⟨t, .inl (by simp)⟩
  | unregister t k e ht =>
    have hclean := h.clean t k e false ht
    refine h.retoken (t := t) rfl rfl (h.clean_not_live ht) (by simp) (by simp) ?_ ?_
      (.inr ⟨k, e, rfl⟩)
    · rintro k' e' g ⟨⟩
      exact hclean
    · intro e' k' hst'
      obtain ⟨rfl, rfl⟩ : e' = e ∧ k' = k := by simpa [hst'] using hclean
      exact ⟨t, .inr ⟨true, by simp⟩⟩
  | releasePermit t k e ht => exact ⟨h.1, h.2, h.3, h.4, h.5, h.6, h.7⟩
  | publish t k e r ht =>
    refine ⟨fun u k' hu => ?_, fun u k' e' g hu => ?_, by rintro k' ⟨⟩, by rintro e' k' ⟨⟩,
      fun _ => .inl ⟨r, rfl⟩, ?_, by rintro - ⟨⟩⟩
    · exact .inr (.inr (.inr ⟨r, rfl⟩))
    · exact .inr ⟨r, rfl⟩
    · intro u u' hu hu'
      rw [give_token] at hu hu'
      split_ifs at hu hu'
      exact h.initializer u u' hu hu'
  | spawn t ht =>
    refine ⟨h.1, h.2, h.3, h.4, h.5, h.6, ?_⟩
    rintro - hst
    have hst : v.state = .initializing false := hst
    rcases h.work t _ ht with hrun | ⟨e, hst'⟩ | ⟨hk, -⟩ | ⟨r, hst'⟩
    · rw [hst] at hrun
      cases hrun
    · simp [hst] at hst'
    · cases hk
    · simp [hst] at hst'

end

end Owned

/-! ### The first termination -/

/-- The history names the step that ended the live session, and everything
after it goes by the flag which that step recorded. -/
structure Elected (v : Life) : Prop where
  live : v.first = none ↔ v.state.live = true
  terminating : ∀ τ, v.state = .terminating τ → ∃ t, v.first = some (t, τ)
  clean : ∀ t k e g, v.token t = some (.clean k e g) → ∃ u, v.first = some (u, ⟨e, k⟩)
  stopper : ∀ t, v.stopper t = true → ∃ k, v.first = some (t, ⟨true, k⟩)

namespace Elected

variable {v : Life} {strays : Bool}

section
variable (h : v.Elected) (ho : v.Owned) (hlive : v.state.live = true)
include h ho hlive

theorem fresh :
    v.first = none ∧ (∀ t k e g, v.token t ≠ some (.clean k e g)) ∧ ∀ t, v.stopper t ≠ true := by
  have hfirst := h.live.mpr hlive
  refine ⟨hfirst, ?_, ?_⟩
  · intro t k e g ht
    simp [ho.clean_not_live ht] at hlive
  · intro t ht
    obtain ⟨k, hk⟩ := h.stopper t ht
    rw [hfirst] at hk
    cases hk

theorem continued (hlive' : v'.state.live = true) (hfirst : v'.first = v.first)
    (hstop : v'.stopper = v.stopper)
    (hclean : ∀ t k e g, v'.token t = some (.clean k e g) → v.token t = some (.clean k e g)) :
    v'.Elected := by
  obtain ⟨hnone, hnoclean, hnostop⟩ := h.fresh ho hlive
  refine ⟨by simp [hfirst, hnone, hlive'], ?_, ?_, ?_⟩
  · intro τ hst
    simp [hst, SessionState.live] at hlive'
  · intro t k e g ht
    exact absurd (hclean t k e g ht) (hnoclean t k e g)
  · intro t ht
    exact absurd (hstop ▸ ht) (hnostop t)

theorem ended {τ : Termination} (hst : v'.state = .terminating τ) (hfirst : v'.first = some (t, τ))
    (hclean : ∀ u k e g, v'.token u = some (.clean k e g) →
      v.token u = some (.clean k e g) ∨ τ = ⟨e, k⟩)
    (hstop : ∀ u, v'.stopper u = true → v.stopper u = true ∨ u = t ∧ τ.explicit = true) :
    v'.Elected := by
  obtain ⟨-, hnoclean, hnostop⟩ := h.fresh ho hlive
  refine ⟨by simp [hfirst, hst, SessionState.live], ?_, ?_, ?_⟩
  · intro τ' hst'
    obtain rfl : τ = τ' := by simpa [hst] using hst'
    exact ⟨t, hfirst⟩
  · intro u k e g hu
    rcases hclean u k e g hu with hu | rfl
    · exact absurd hu (hnoclean u k e g)
    · exact ⟨t, hfirst⟩
  · intro u hu
    rcases hstop u hu with hu | ⟨rfl, hexplicit⟩
    · exact absurd hu (hnostop u)
    · exact ⟨τ.owner, by rw [hfirst, ← hexplicit]⟩

end

theorem settled (h : v.Elected) (hst : v.state.live = false)
    (hst' : v'.state = v.state ∨ ∃ r, v'.state = .terminated r) (hfirst : v'.first = v.first)
    (hstop : v'.stopper = v.stopper) (hclean : ∀ t k e g, v'.token t = some (.clean k e g) →
      v.state = .terminating ⟨e, k⟩ ∨ ∃ g', v.token t = some (.clean k e g')) : v'.Elected := by
  have hsome : v.first ≠ none := by
    rw [Ne, h.live, hst]
    simp
  refine ⟨?_, ?_, ?_, by rw [hstop, hfirst]; exact h.stopper⟩
  · rw [hfirst]
    rcases hst' with hst' | ⟨r, hst'⟩
    · rw [hst', h.live]
    · simp [hst', SessionState.live, hsome]
  · intro τ hτ
    rw [hfirst]
    rcases hst' with hst' | ⟨r, hst'⟩
    · exact h.terminating τ (hst' ▸ hτ)
    · rw [hst'] at hτ
      cases hτ
  · intro t k e g ht
    rw [hfirst]
    rcases hclean t k e g ht with hterm | ⟨g', hu⟩
    · exact h.terminating _ hterm
    · exact h.clean t k e g' hu

theorem step (h : v.Elected) (ho : v.Owned) (hs : v.Step strays v') : v'.Elected := by
  cases hs with
  | skip => exact h
  | begin t hst ht => exact h.continued ho (by rw [hst]; rfl) rfl rfl rfl (by grind)
  | start t k st n hst ht hk hrun =>
    exact h.continued ho (by rw [hst]; rfl) hrun.live rfl rfl (by grind)
  | release t k now ht hrun =>
    exact h.continued ho hrun.live rfl rfl rfl (by grind)
  | elect t e stops hidle ht hstops =>
    exact h.ended ho (live_of_idle hidle) rfl rfl (by grind) (by grind)
  | mark t k e stops hst hstops =>
    exact h.ended ho (live_of_operation hst) rfl rfl (by grind) (by grind)
  | finish t k ht hrun =>
    exact h.ended ho hrun.live rfl rfl (by grind) (fun u hu => .inl hu)
  | panicElect t ht hst =>
    exact h.ended ho (by rw [hst]; rfl) rfl rfl (by grind) (fun u hu => .inl hu)
  | strayElect hstrays t u ht hst =>
    exact h.ended ho (by rw [hst]; rfl) rfl rfl (by grind) (fun u hu => .inl hu)
  | join t k e ht hst => exact h.settled (by rw [hst]; rfl) (.inl rfl) rfl rfl (by grind)
  | strayJoin hstrays t k e ht hst =>
    exact h.settled (by rw [hst]; rfl) (.inl rfl) rfl rfl (by grind)
  | lost t k ht hst hreg => exact h.settled hst (.inl rfl) rfl rfl (by grind)
  | abort hstrays t e ht => exact h.settled (ho.clean_not_live ht) (.inl rfl) rfl rfl (by grind)
  | unregister t k e ht => exact h.settled (ho.clean_not_live ht) (.inl rfl) rfl rfl (by grind)
  | publish t k e r ht =>
    exact h.settled (ho.clean_not_live ht) (.inr ⟨r, rfl⟩) rfl rfl (by grind)
  | releasePermit t k e ht => exact ⟨h.1, h.2, h.3, h.4⟩
  | spawn t ht => exact ⟨h.1, h.2, h.3, h.4⟩

end Elected

/-! ### Without strays: one owner, one cleanup -/

/-- At most one thread holds a token, and the session is cleaned up once. -/
structure Single (v : Life) : Prop where
  unique : ∀ t u, v.token t ≠ none → v.token u ≠ none → t = u
  untouched : (∀ r, v.state ≠ .terminated r) → (∀ t k e g, v.token t ≠ some (.clean k e g)) →
    v.cleanups = 0
  counted : ∀ t k e g, v.token t = some (.clean k e g) → v.cleanups = 1
  done : ∀ r, v.state = .terminated r → v.cleanups = 1 ∧ ∀ t, v.token t = none
  permit : v.permit = false →
    (∃ r, v.state = .terminated r) ∨ ∃ t k e, v.token t = some (.clean k e true)

namespace Single

variable {v : Life}

theorem others (h : v.Single) {token : Token} (ht : v.token t = some token) (hut : u ≠ t) :
    v.token u = none := by
  by_contra hu
  exact hut (h.unique u t hu (by simp [ht]))

theorem not_terminated (h : v.Single) {token : Token} (ht : v.token t = some token)
    (r : SessionStopResponse) : v.state ≠ .terminated r := by
  intro hst
  rw [(h.done r hst).2 t] at ht
  cases ht

theorem fresh (h : v.Single) (hst : ∀ r, v.state ≠ .terminated r)
    (hnoclean : ∀ t k e g, v.token t ≠ some (.clean k e g)) :
    v.cleanups = 0 ∧ v.permit = true := by
  refine ⟨h.untouched hst hnoclean, ?_⟩
  by_contra hp
  rcases h.permit (by simpa using hp) with ⟨r, hr⟩ | ⟨u, k, e, hu⟩
  · exact hst r hr
  · exact hnoclean u k e true hu

/-- A worker that still holds its token precedes every cleanup. -/
theorem cleanups_of_work (h : v.Single) (ht : v.token t = some (.work k)) :
    v.cleanups = 0 ∧ v.permit = true := by
  refine h.fresh (h.not_terminated ht) ?_
  intro u k' e g hu
  obtain rfl := h.unique t u (by simp [ht]) (by simp [hu])
  simp [ht] at hu

theorem cleanups_of_idle (h : v.Single) (ho : v.Owned) (hidle : v.state.idle = true) :
    v.cleanups = 0 ∧ v.permit = true := by
  refine h.fresh ?_ (by simp [ho.token_of_idle hidle])
  intro r hst
  simp [hst, idle] at hidle

theorem unique_of_others (hothers : ∀ u, u ≠ t → v.token u = none) (u u' : Nat)
    (hu : v.token u ≠ none) (hu' : v.token u' ≠ none) : u = u' := by
  have hall : ∀ w, v.token w ≠ none → w = t := fun w hw => by_contra fun hwt => hw (hothers w hwt)
  rw [hall u hu, hall u' hu']

theorem of_work {token : Option Token} (ht : v.token t = token)
    (hothers : ∀ u, u ≠ t → v.token u = none) (hwork : ∀ k e g, token ≠ some (.clean k e g))
    (hst : ∀ r, v.state ≠ .terminated r) (hcount : v.cleanups = 0 ∧ v.permit = true) :
    v.Single := by
  have hnoclean : ∀ u k e g, v.token u ≠ some (.clean k e g) := by
    intro u k e g hu
    by_cases hut : u = t
    · exact hwork k e g (by rw [← ht, ← hut, hu])
    · simp [hothers u hut] at hu
  refine ⟨unique_of_others hothers, fun _ _ => hcount.1, ?_, ?_, by simp [hcount.2]⟩
  · exact fun u k e g hu => absurd hu (hnoclean u k e g)
  · exact fun r hr => absurd hr (hst r)

theorem of_clean (ht : v.token t = some (.clean k e g)) (hothers : ∀ u, u ≠ t → v.token u = none)
    (hst : ∀ r, v.state ≠ .terminated r) (hcount : v.cleanups = 1)
    (hpermit : v.permit = false → g = true) : v.Single := by
  refine ⟨unique_of_others hothers, ?_, fun _ _ _ _ _ => hcount, ?_, ?_⟩
  · exact fun _ hno => absurd ht (hno t k e g)
  · exact fun r hr => absurd hr (hst r)
  · exact fun hp => .inr ⟨t, k, e, hpermit hp ▸ ht⟩

theorem cleanUp_of_work (h : v.Single) {k' : CleanupOwner} (ht : v.token t = some (.work k))
    (htoken : v'.token = (v.cleanUp t k' e).token) (hst : ∀ r, v'.state ≠ .terminated r)
    (hcount : v'.cleanups = v.cleanups + 1) (hpermit : v'.permit = v.permit) : v'.Single := by
  obtain ⟨hzero, hheld⟩ := h.cleanups_of_work ht
  exact of_clean (t := t) (k := k') (e := e) (g := false) (by simp [htoken])
    (htoken ▸ Owned.update_others fun _ => h.others ht) hst (by rw [hcount, hzero])
    (by simp [hpermit, hheld])

theorem step (h : v.Single) (ho : v.Owned) (hs : v.Step false v') : v'.Single := by
  cases hs with
  | skip => exact h
  | begin t hst ht =>
    have hidle : v.state.idle = true := by rw [hst]; rfl
    exact of_work (t := t) rfl (Owned.update_others fun u _ => ho.token_of_idle hidle u) (by simp)
      (by simp [give]) (h.cleanups_of_idle ho hidle)
  | start t k st n hst ht hk hrun =>
    have hidle : v.state.idle = true := by rw [hst]; rfl
    refine of_work (t := t) rfl (Owned.update_others fun u _ => ho.token_of_idle hidle u) (by simp) ?_
      (h.cleanups_of_idle ho hidle)
    rintro r rfl
    cases hrun
  | release t k now ht hrun =>
    exact of_work (t := t) rfl (Owned.update_others fun _ => h.others ht) (by simp) (by simp [give])
      (h.cleanups_of_work ht)
  | elect t e stops hidle ht hstops =>
    obtain ⟨hcount, hpermit⟩ := h.cleanups_of_idle ho hidle
    exact of_clean (t := t) (by simp; exact ⟨rfl, rfl, rfl⟩)
      (Owned.update_others fun u _ => ho.token_of_idle hidle u) (by simp [awaits, cleanUp, terminate])
      (by simp [awaits, cleanUp, terminate, hcount]) (by simp [awaits, cleanUp, terminate, hpermit])
  | mark t k e stops hst hstops =>
    obtain ⟨u, hu, hrun⟩ := ho.operated k hst
    exact of_work (t := u) hu (fun w hw => h.others hu hw) (by simp) (by simp [awaits, terminate])
      (h.cleanups_of_work hu)
  | finish t k ht hrun => exact h.cleanUp_of_work ht rfl (by simp [cleanUp, terminate]) rfl rfl
  | panicElect t ht hst => exact h.cleanUp_of_work ht rfl (by simp [cleanUp, terminate]) rfl rfl
  | join t k e ht hst => exact h.cleanUp_of_work ht rfl (by simp [cleanUp, hst]) rfl rfl
  | lost t k ht hst hreg =>
    -- a worker with the only token is the owner of the termination
    exfalso
    rcases not_live_cases hst with ⟨⟨e, k'⟩, hst⟩ | ⟨r, hst⟩
    · obtain ⟨u, hu⟩ := ho.owned e k' hst
      obtain rfl : t = u := h.unique t u (by simp [ht]) (by rcases hu with hu | ⟨g, hu⟩ <;> simp [hu])
      obtain rfl : k = k' := by simpa [ht] using hu
      rcases ho.unregistered (hreg e hst) with ⟨r, hr⟩ | ⟨w, k'', e'', hw⟩
      · simp [hst] at hr
      · obtain rfl := h.unique t w (by simp [ht]) (by simp [hw])
        simp [ht] at hw
    · exact h.not_terminated ht r hst
  | unregister t k e ht =>
    exact of_clean (t := t) (k := k) (e := e) (g := true) (by simp)
      (Owned.update_others fun _ => h.others ht) (h.not_terminated ht) (h.counted t k e false ht)
      fun _ => rfl
  | releasePermit t k e ht =>
    exact of_clean ht (fun u hut => h.others ht hut) (h.not_terminated ht)
      (h.counted t k e true ht) (fun _ => rfl)
  | publish t k e r ht =>
    have hnone : ∀ u, (({ v with state := .terminated r } : Life).give t none).token u = none := by
      intro u
      by_cases hut : u = t
      · simp [hut]
      · simpa [hut] using h.others ht hut
    refine ⟨?_, ?_, ?_, ?_, fun _ => .inl ⟨r, rfl⟩⟩
    · exact fun u u' hu _ => absurd (hnone u) hu
    · exact fun hno => absurd rfl (hno r)
    · exact fun u k' e' g hu => absurd ((hnone u).symm.trans hu) (by simp)
    · exact fun _ _ => ⟨h.counted t k e true ht, hnone⟩
  | spawn t ht => exact ⟨h.1, h.2, h.3, h.4, h.5⟩
  | strayJoin hstrays | strayElect hstrays | abort hstrays => cases hstrays

end Single

end Life

end IndenturedServer.Sessions
