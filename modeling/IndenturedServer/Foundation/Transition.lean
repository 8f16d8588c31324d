import Mathlib

/-!
Guarded transition systems, replayed as functions.

A system is a partial step function `step : σ → ε → Option σ`: the event
`e` is enabled in `s` exactly when `step s e` is a value, and the value is
the next state. A run is a list of events, and `exec` replays it. Keeping
the guard inside the function that replays means that a concrete run can
be evaluated and that an invariant proof reads the very same guards.

`exec_invariant` turns a step lemma into a run lemma, for the runs whose steps
all satisfy a condition `ok`; with `ok` always true these are all runs.
`exec_turn` finds the step of a run in which a property is lost. A system that
is given as a relation has the invariant rule `reflTransGen_invariant`.
-/

namespace IndenturedServer.Foundation

variable {σ ε τ : Type*}

/-- Replay a list of events; `none` as soon as one of them is disabled. -/
def exec (step : σ → ε → Option σ) : σ → List ε → Option σ
  | s, [] => some s
  | s, e :: es => (step s e).bind fun s' => exec step s' es

/-- Every step that a replay from `s` takes satisfies the condition `ok`,
which sees the state before the step and the event. -/
def Meets (step : σ → ε → Option σ) (ok : σ → ε → Prop) : σ → List ε → Prop
  | _, [] => True
  | s, e :: es => ok s e ∧ ∀ s' ∈ step s e, Meets step ok s' es

/-- The condition is decided along the replay itself, so that a concrete
run is checked by evaluation. -/
instance Meets.decidable (step : σ → ε → Option σ) (ok : σ → ε → Prop)
    [∀ s e, Decidable (ok s e)] : ∀ (s : σ) (es : List ε), Decidable (Meets step ok s es)
  | _, [] => isTrue trivial
  | s, e :: es =>
    match hs : step s e with
    | none => decidable_of_iff (ok s e) (by simp [Meets, hs])
    | some s' =>
      have := Meets.decidable step ok s' es
      decidable_of_iff (ok s e ∧ Meets step ok s' es) (by simp [Meets, hs])

variable {step : σ → ε → Option σ} {ok : σ → ε → Prop}

@[simp] theorem exec_nil (s : σ) : exec step s [] = some s := rfl

variable {s s' : σ} {es : List ε}

theorem exec_cons_eq_some {e : ε} :
    exec step s (e :: es) = some s' ↔ ∃ m, step s e = some m ∧ exec step m es = some s' := by
  simp [exec, Option.bind_eq_some_iff]

theorem exec_append (s : σ) (es fs : List ε) :
    exec step s (es ++ fs) = (exec step s es).bind fun m => exec step m fs := by
  induction es generalizing s with
  | nil => simp
  | cons e es ih =>
    simp only [List.cons_append, exec, Option.bind_assoc]
    congr 1
    funext m
    exact ih m

/-- A condition on the events alone. -/
theorem meets_of_forall (h : ∀ e ∈ es, ∀ s, ok s e) : Meets step ok s es := by
  induction es generalizing s with
  | nil => trivial
  | cons e es ih =>
    refine ⟨h e List.mem_cons_self s, fun s' _ => ?_⟩
    exact ih fun e' he' => h e' (List.mem_cons_of_mem e he')

variable {ok' : σ → ε → Prop}

theorem Meets.and (h : Meets step ok s es) (h' : Meets step ok' s es) :
    Meets step (fun s e => ok s e ∧ ok' s e) s es := by
  induction es generalizing s with
  | nil => trivial
  | cons e es ih => exact ⟨⟨h.1, h'.1⟩, fun m hm => ih (h.2 m hm) (h'.2 m hm)⟩

variable {P : σ → Prop}

/-- **The invariant rule.** What holds at the start and is preserved by
every step that satisfies the condition holds at the end of every run
whose steps all satisfy it. -/
theorem exec_invariant (hstep : ∀ s e s', P s → ok s e → step s e = some s' → P s') (hs : P s)
    (hok : Meets step ok s es) (hrun : exec step s es = some s') : P s' := by
  induction es generalizing s with
  | nil => simpa using (Option.some.inj hrun) ▸ hs
  | cons e es ih =>
    obtain ⟨m, hm, hrest⟩ := exec_cons_eq_some.mp hrun
    exact ih (hstep s e m hs hok.1 hm) (hok.2 m hm) hrest

theorem exec_invariant_all (hstep : ∀ s e s', P s → step s e = some s' → P s') (hs : P s)
    (hrun : exec step s es = some s') : P s' := by
  have hok : Meets step (fun _ _ => True) s es := meets_of_forall fun _ _ _ => trivial
  exact exec_invariant (fun s e s' hP _ => hstep s e s' hP) hs hok hrun

/-- A condition on the steps that follows from another one and an invariant. -/
theorem Meets.of_invariant (hstep : ∀ s e s', P s → ok s e → step s e = some s' → P s')
    (hok' : ∀ s e, P s → ok s e → ok' s e) (hs : P s) (hok : Meets step ok s es) :
    Meets step ok' s es := by
  induction es generalizing s with
  | nil => trivial
  | cons e es ih =>
    refine ⟨hok' s e hs hok.1, fun m hm => ?_⟩
    exact ih (hstep s e m hs hok.1 hm) (hok.2 m hm)

/-- **The turning point.** A property that holds at the start of a run and
not at its end is lost in one of its steps. -/
theorem exec_turn {p : σ → Prop} (hs : p s) (hs' : ¬ p s') (hrun : exec step s es = some s') :
    ∃ before e after m m', es = before ++ e :: after ∧ exec step s before = some m ∧ p m ∧
      step m e = some m' ∧ ¬ p m' ∧ exec step m' after = some s' := by
  induction es generalizing s with
  | nil =>
    rw [Option.some.inj hrun] at hs
    exact absurd hs hs'
  | cons e es ih =>
    obtain ⟨m, hm, hrest⟩ := exec_cons_eq_some.mp hrun
    by_cases hpm : p m
    · -- the property survives the first step: look for the turn behind it
      obtain ⟨before, e', after, n, n', rfl, hbefore, hn, hstep, hn', hafter⟩ := ih hpm hrest
      exact ⟨e :: before, e', after, n, n', rfl, exec_cons_eq_some.mpr ⟨m, hm, hbefore⟩, hn, hstep,
        hn', hafter⟩
    · exact ⟨[], e, es, s, m, rfl, rfl, hs, hm, hpm, hrest⟩

theorem reflTransGen_invariant {R : τ → τ → Prop} {P : τ → Prop}
    (hmove : ∀ a b, P a → R a b → P b) {a b : τ} (ha : P a)
    (h : Relation.ReflTransGen R a b) : P b := by
  induction h with
  | refl => exact ha
  | tail _ hab ih => exact hmove _ _ ih hab

end IndenturedServer.Foundation
