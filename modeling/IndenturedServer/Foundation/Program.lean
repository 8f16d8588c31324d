import Mathlib

/-!
Pre- and postconditions for programs that can fail.

A program of `EStateM` changes a state and returns a value or stops with an
error; what it did to the state before it stopped stays done. A `Triple` has
therefore two postconditions, one for either end. The rules follow the
constructs that the programs are written with: sequence, failure, `tryCatch`,
and a change of the type of errors. A loop is a recursive function, and its
rule is induction.

A triple allows every failure. Its second postcondition names what must have
been in the way; where nothing can be, the program `Succeeds`.
-/

namespace IndenturedServer.Foundation

open EStateM (Result)

variable {σ ε δ α β : Type}

/-- An early return. -/
def refuse (c : Prop) [Decidable c] (e : ε) : Except ε Unit :=
  if c then .error e else .ok ()

variable {c : Prop} {e : ε}

@[simp] theorem refuse_eq_ok [Decidable c] {u : Unit} : refuse c e = .ok u ↔ ¬ c := by
  unfold refuse
  split <;> simp [*]

/-- A sequence that succeeds, taken apart. -/
theorem bind_eq_ok {x : Except ε α} {f : α → Except ε β} {b : β} :
    x >>= f = .ok b ↔ ∃ a, x = .ok a ∧ f a = .ok b := by
  cases x with
  | ok a => simp [bind, Except.bind]
  | error e => simp [bind, Except.bind]

/-- A check, and what follows it. -/
theorem check_eq_ok {x : Except ε Unit} {f : Unit → Except ε β} {b : β} :
    x >>= f = .ok b ↔ x = .ok () ∧ f () = .ok b :=
  bind_eq_ok.trans ⟨fun ⟨_, h⟩ => h, fun h => ⟨(), h⟩⟩

theorem forM_ok_iff {l : List α} {f : α → Except ε Unit} :
    l.forM f = .ok () ↔ ∀ a ∈ l, f a = .ok () := by
  induction l with
  | nil => simp [pure, Except.pure]
  | cons a rest ih =>
    show f a >>= (fun _ => rest.forM f) = .ok () ↔ _
    rw [check_eq_ok, ih, List.forall_mem_cons]

variable {x : EStateM ε σ α} {f : α → EStateM ε σ β} {s s' : σ} {a : α}

theorem bind_of_ok (h : x s = .ok a s') : (x >>= f) s = f a s' := by
  show EStateM.bind x f s = _
  simp only [EStateM.bind, h]

theorem bind_of_error (h : x s = .error e s') : (x >>= f) s = .error e s' := by
  show EStateM.bind x f s = _
  simp only [EStateM.bind, h]

/-- A program whose failure is looked at. -/
def outcome (x : EStateM ε σ α) : EStateM δ σ (Except ε α) := fun s =>
  match x s with
  | .ok a s' => .ok (.ok a) s'
  | .error e s' => .ok (.error e) s'

/-- Which of the two postconditions counts. -/
def Ends (Q : α → σ → Prop) (E : ε → σ → Prop) : Result ε σ α → Prop
  | .ok a s => Q a s
  | .error e s => E e s

def Triple (P : σ → Prop) (x : EStateM ε σ α) (Q : α → σ → Prop) (E : ε → σ → Prop) : Prop :=
  ∀ s, P s → Ends Q E (x.run s)

variable {P : σ → Prop} {Q : α → σ → Prop} {R : β → σ → Prop} {E : ε → σ → Prop}

variable {Q' : α → σ → Prop} {E' : ε → σ → Prop}

theorem Ends.mono {r : Result ε σ α} (h : Ends Q E r) (hQ : ∀ a s, Q a s → Q' a s)
    (hE : ∀ e s, E e s → E' e s) : Ends Q' E' r := by
  cases r with
  | ok a s => exact hQ a s h
  | error e s => exact hE e s h

namespace Triple

variable {P' : σ → Prop}

theorem mono (h : Triple P x Q E) (hP : ∀ s, P' s → P s) (hQ : ∀ a s, Q a s → Q' a s)
    (hE : ∀ e s, E e s → E' e s) : Triple P' x Q' E' :=
  fun s hs => (h s (hP s hs)).mono hQ hE

/-- A stronger condition for the start. -/
theorem onEntry (h : Triple P x Q E) (hP : ∀ s, P' s → P s) : Triple P' x Q E :=
  h.mono hP (fun _ _ hs => hs) fun _ _ hs => hs

/-- A weaker condition for the case of a result. -/
theorem onReturn (h : Triple P x Q E) (hQ : ∀ a s, Q a s → Q' a s) : Triple P x Q' E :=
  h.mono (fun _ hs => hs) hQ fun _ _ hs => hs

/-- A weaker condition for the case of an error. -/
theorem onError (h : Triple P x Q E) (hE : ∀ e s, E e s → E' e s) : Triple P x Q E' :=
  h.mono (fun _ hs => hs) (fun _ _ hs => hs) hE

theorem any : Triple P x (fun _ _ => True) fun _ _ => True := by
  intro s _
  cases x.run s with
  | ok a s' => trivial
  | error e s' => trivial

variable {p : Prop}

/-- A fact that is not about the state outlasts the program. -/
theorem keep : Triple (fun _ => p) x (fun _ _ => p) fun _ _ => True := by
  intro s hp
  cases x.run s with
  | ok a s' => exact hp
  | error e s' => trivial

theorem and (h : Triple P x Q E) (h' : Triple P x Q' E') :
    Triple P x (fun a s => Q a s ∧ Q' a s) fun e s => E e s ∧ E' e s := by
  intro s hs
  have hends := h s hs
  have hends' := h' s hs
  cases hr : x.run s with
  | ok a s' => rw [hr] at hends hends'; exact ⟨hends, hends'⟩
  | error e s' => rw [hr] at hends hends'; exact ⟨hends, hends'⟩

/-- What does not depend on the state is a hypothesis. -/
theorem given (h : p → Triple P x Q E) : Triple (fun s => p ∧ P s) x Q E :=
  fun s hs => h hs.1 s hs.2

/-- What the state has been reached with is a parameter. -/
theorem ofExists {ι : Sort*} {P : ι → σ → Prop} (h : ∀ i, Triple (P i) x Q E) :
    Triple (fun s => ∃ i, P i s) x Q E :=
  fun s hs => hs.elim fun i hi => h i s hi

theorem pure (h : ∀ s, P s → Q a s) : Triple P (Pure.pure a : EStateM ε σ α) Q E :=
  h

theorem ite [Decidable c] {y : EStateM ε σ α} (hthen : c → Triple P x Q E)
    (helse : ¬ c → Triple P y Q E) : Triple P (if c then x else y) Q E := by
  split
  · exact hthen ‹_›
  · exact helse ‹_›

theorem throw (h : ∀ s, P s → E e s) : Triple P (MonadExcept.throw e : EStateM ε σ α) Q E :=
  h

theorem modify {f : σ → σ} {Q : PUnit → σ → Prop} (h : ∀ s, P s → Q ⟨⟩ (f s)) :
    Triple P (modify f : EStateM ε σ PUnit) Q E :=
  h

theorem ofExcept {x : Except ε α} (hok : ∀ a s, x = .ok a → P s → Q a s)
    (herror : ∀ e s, x = .error e → P s → E e s) :
    Triple P (MonadExcept.ofExcept x : EStateM ε σ α) Q E := by
  intro s hs
  cases x with
  | ok a => exact hok a s rfl hs
  | error e => exact herror e s rfl hs

theorem run_cases (h : Triple P x Q E) (hs : P s) :
    (∃ a s', x s = .ok a s' ∧ Q a s') ∨ ∃ e s', x s = .error e s' ∧ E e s' := by
  have hends : Ends Q E (x s) := h s hs
  cases hr : x s with
  | ok a s' => exact .inl ⟨a, s', rfl, by simpa [hr, Ends] using hends⟩
  | error e s' => exact .inr ⟨e, s', rfl, by simpa [hr, Ends] using hends⟩

/-- Sequence: an error of the first part is the error of the whole. -/
theorem bind (hx : Triple P x Q E) (hf : ∀ a, Triple (Q a) (f a) R E) : Triple P (x >>= f) R E := by
  intro s hs
  show Ends R E (EStateM.bind x f s)
  obtain ⟨a, s', hr, ha⟩ | ⟨e, s', hr, he⟩ := hx.run_cases hs
  · simp only [EStateM.bind, hr]
    exact hf a s' ha
  · simp only [EStateM.bind, hr]
    exact he

/-- The handler starts where the error left the state. -/
theorem tryCatch {handle : ε → EStateM ε σ α} {H : ε → σ → Prop} (hx : Triple P x Q H)
    (hhandle : ∀ e, Triple (H e) (handle e) Q E) :
    Triple P (MonadExcept.tryCatch x handle) Q E := by
  intro s hs
  show Ends Q E (EStateM.tryCatch x handle s)
  obtain ⟨a, s', hr, ha⟩ | ⟨e, s', hr, he⟩ := hx.run_cases hs
  · simp only [EStateM.tryCatch, hr]
    exact ha
  · simp only [EStateM.tryCatch, hr]
    exact hhandle e s' he

theorem outcome {H : δ → σ → Prop} {x : EStateM δ σ α} (hx : Triple P x Q H) :
    Triple P (outcome x) (fun r s => Ends Q H (match r with | .ok a => .ok a s | .error e => .error e s))
      E := by
  intro s hs
  show Ends _ E (Foundation.outcome x s)
  obtain ⟨a, s', hr, ha⟩ | ⟨e, s', hr, he⟩ := hx.run_cases hs
  · simp only [Foundation.outcome, hr]
    exact ha
  · simp only [Foundation.outcome, hr]
    exact he

theorem outcome_of_either {R : σ → Prop} {x : EStateM δ σ α}
    (hx : Triple P x (fun _ => R) fun _ => R) : Triple P (Foundation.outcome x) (fun _ => R) E := by
  refine (Triple.outcome hx).onReturn fun r s hs => ?_
  cases r with
  | ok a => exact hs
  | error e => exact hs

theorem adaptExcept {f : δ → ε} {x : EStateM δ σ α} (hx : Triple P x Q fun e => E (f e)) :
    Triple P (EStateM.adaptExcept f x) Q E := by
  intro s hs
  show Ends Q E (EStateM.adaptExcept f x s)
  obtain ⟨a, s', hr, ha⟩ | ⟨e, s', hr, he⟩ := hx.run_cases hs
  · simp only [EStateM.adaptExcept, hr]
    exact ha
  · simp only [EStateM.adaptExcept, hr]
    exact he

theorem adapt {E : σ → Prop} {f : δ → ε} {x : EStateM δ σ α} (hx : Triple P x Q fun _ => E) :
    Triple P (EStateM.adaptExcept f x) Q fun _ => E :=
  adaptExcept hx

end Triple

/-- From such a state the program returns. -/
def Succeeds (P : σ → Prop) (x : EStateM ε σ α) : Prop :=
  ∀ s, P s → ∃ a s', x s = .ok a s'

theorem Triple.succeeds (h : Triple P x Q fun _ _ => False) : Succeeds P x := by
  intro s hs
  obtain ⟨a, s', hr, -⟩ | ⟨e, s', -, hfalse⟩ := h.run_cases hs
  · exact ⟨a, s', hr⟩
  · exact hfalse.elim

end IndenturedServer.Foundation
