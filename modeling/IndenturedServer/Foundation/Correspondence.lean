import IndenturedServer.Foundation.Program

/-!
Lists that correspond entry by entry, and passes over them.

What one stage of a pipeline produces is related to what the next one reads by
`List.Forall₂`. These are the facts by which a property of one list becomes a
property of the other. Two passes over such lists `Agree` if they go on
together, in states that are related, or fail at the same entry.
-/

namespace IndenturedServer.Foundation

variable {α β γ : Type*} {R : α → β → Prop} {S : β → γ → Prop}

theorem forall₂_exists_left {as : List α} {bs : List β} (h : List.Forall₂ R as bs) {b : β}
    (hb : b ∈ bs) : ∃ a ∈ as, R a b := by
  induction h with
  | nil => simp at hb
  | @cons a b' as bs hab _ ih =>
    obtain rfl | hb := List.mem_cons.mp hb
    · exact ⟨a, List.mem_cons_self, hab⟩
    · obtain ⟨a', ha', hR⟩ := ih hb
      exact ⟨a', List.mem_cons_of_mem _ ha', hR⟩

theorem forall₂_exists_right {as : List α} {bs : List β} (h : List.Forall₂ R as bs) {a : α}
    (ha : a ∈ as) : ∃ b ∈ bs, R a b :=
  forall₂_exists_left h.flip ha

theorem forall₂_comp {as : List α} {bs : List β} {cs : List γ} (h : List.Forall₂ R as bs)
    (h' : List.Forall₂ S bs cs) : List.Forall₂ (fun a c => ∃ b, R a b ∧ S b c) as cs := by
  induction h generalizing cs with
  | nil =>
    cases h'
    exact .nil
  | cons hab _ ih =>
    cases h' with
    | cons hbc hrest => exact .cons ⟨_, hab, hbc⟩ (ih hrest)

theorem forall₂_pairwise {P : α → α → Prop} {Q : β → β → Prop} {as : List α} {bs : List β}
    (h : List.Forall₂ R as bs) (hPQ : ∀ a a' b b', R a b → R a' b' → P a a' → Q b b')
    (hP : as.Pairwise P) : bs.Pairwise Q := by
  induction h with
  | nil => exact .nil
  | @cons a b as bs hab hrest ih =>
    obtain ⟨hhead, htail⟩ := List.pairwise_cons.mp hP
    refine List.pairwise_cons.mpr ⟨fun b' hb' => ?_, ih htail⟩
    obtain ⟨a', ha', hab'⟩ := forall₂_exists_left hrest hb'
    exact hPQ a a' b b' hab hab' (hhead a' ha')

theorem forall₂_of_mapM {α β ε : Type} {f : α → Except ε β} {as : List α} {bs : List β}
    (h : as.mapM f = .ok bs) : List.Forall₂ (fun a b => f a = .ok b) as bs := by
  induction as generalizing bs with
  | nil =>
    obtain rfl := Except.ok.inj h
    exact .nil
  | cons a as ih =>
    simp only [List.mapM_cons, bind_eq_ok, pure, Except.pure, Except.ok.injEq] at h
    obtain ⟨b, hb, bs, hbs, rfl⟩ := h
    exact .cons hb (ih hbs)

/-! ### Passes -/

section
variable {ε δ σ τ : Type} {x : Except ε σ} {y : Except δ τ} {P : σ → τ → Prop}

/-- Both succeed, with results that are related, or both fail. -/
def Agree (P : σ → τ → Prop) : Except ε σ → Except δ τ → Prop
  | .ok s, .ok t => P s t
  | .error _, .error _ => True
  | _, _ => False

namespace Agree

theorem ok_iff (h : Agree P x y) : (∃ s, x = .ok s) ↔ ∃ t, y = .ok t := by
  cases x with
  | ok s =>
    cases y with
    | ok t => simp
    | error e => exact h.elim
  | error e =>
    cases y with
    | ok t => exact h.elim
    | error e' => simp

theorem of_iff (h : (∃ s, x = .ok s) ↔ ∃ t, y = .ok t)
    (hP : ∀ s t, x = .ok s → y = .ok t → P s t) : Agree P x y := by
  cases x with
  | ok s =>
    obtain ⟨t, rfl⟩ := h.mp ⟨s, rfl⟩
    exact hP s t rfl rfl
  | error e =>
    cases y with
    | ok t =>
      obtain ⟨s, hs⟩ := h.mpr ⟨t, rfl⟩
      cases hs
    | error e' => trivial

theorem bind {α β : Type} {Q : α → β → Prop} {f : σ → Except ε α} {g : τ → Except δ β}
    (h : Agree P x y) (hfg : ∀ s t, P s t → Agree Q (f s) (g t)) :
    Agree Q (x >>= f) (y >>= g) := by
  cases x with
  | ok s =>
    cases y with
    | ok t => exact hfg s t h
    | error e => exact h.elim
  | error e =>
    cases y with
    | ok t => exact h.elim
    | error e' => trivial

theorem foldlM {α β : Type} {S : α → β → Prop} {f : σ → α → Except ε σ} {g : τ → β → Except δ τ}
    (hstep : ∀ s t a b, P s t → S a b → Agree P (f s a) (g t b)) {as : List α} {bs : List β}
    (hlists : List.Forall₂ S as bs) {s : σ} {t : τ} (hstart : P s t) :
    Agree P (as.foldlM f s) (bs.foldlM g t) := by
  induction hlists generalizing s t with
  | nil => exact hstart
  | cons hab _ ih =>
    exact (hstep s t _ _ hstart hab).bind fun s' t' hnext => ih hnext

end Agree

end

end IndenturedServer.Foundation
