import IndenturedServer.Foundation.Program

/-!
Process groups, and loops that wait for them.

A program starts processes, each as the first member of a group of its own,
and later asks whether a group still has a member. Members come and go between
any two calls of the program, but a group without a member stays without one:
only a member brings in another, and the number of a group is given once. A
query is truthful, and what it has found is remembered.

`Later` says what no call changes but the start of a process. Loops sleep
between their turns and give up when a limit of time has passed. `poll` gives
such a loop a number of turns, and by `poll_triple`, the rule for it, the
number that follows from the limit is always enough.
-/

namespace IndenturedServer.Foundation

variable {σ ε α β : Type}

structure Processes (σ : Type) where
  members : Nat → Nat := fun _ => 0
  next : Nat := 0
  /-- The groups that a query has found without a member. -/
  found : List Nat := []
  time : Nat := 0
  clock : Nat := 0
  own : σ

/-- The new process is the only member of its group. -/
def Processes.started (w : Processes σ) (note : Processes σ → σ) : Processes σ :=
  { w with
    members := Function.update w.members w.next 1
    next := w.next + 1
    own := note w }

/-- Why a program has no result. -/
inductive Halted (ε : Type)
  | failed (error : ε)
  /-- A loop has had all its turns. -/
  | unfinished
  deriving DecidableEq, Repr

def Halted.map {δ : Type} (f : ε → δ) : Halted ε → Halted δ
  | .failed error => .failed (f error)
  | .unfinished => .unfinished

/-- What the program does not determine. -/
structure Host (σ : Type) where
  /-- The members that a group has when a call is made. -/
  becomes : Processes σ → Nat → Nat
  delay : Nat → Nat
  fault : Nat → Option String
  /-- The exit code of the first member of a group, once it has exited. -/
  exited : Processes σ → Nat → Option Int

namespace Host

variable (host : Host σ)

/-- The state that a call finds. -/
def passed (w : Processes σ) : Processes σ :=
  { w with
    members := fun group => if w.members group = 0 then 0 else host.becomes w group
    time := w.time + host.delay w.clock
    clock := w.clock + 1 }

def call (effect : Processes σ → α × Processes σ) :
    EStateM (Halted String) (Processes σ) α := fun w =>
  match host.fault w.clock with
  | some message => .error (.failed message) (host.passed w)
  | none => .ok (effect (host.passed w)).1 (effect (host.passed w)).2

def observe (f : Processes σ → α) : EStateM ε (Processes σ) α := fun w =>
  .ok (f (host.passed w)) (host.passed w)

def now : EStateM ε (Processes σ) Nat :=
  host.observe (·.time)

def sleep (duration : Nat) : EStateM ε (Processes σ) Unit := fun w =>
  .ok () { host.passed w with time := (host.passed w).time + duration }

def spawn (note : Processes σ → σ) : EStateM (Halted String) (Processes σ) Nat :=
  host.call fun w => (w.next, w.started note)

def groupExists (group : Nat) : EStateM (Halted String) (Processes σ) Bool :=
  host.call fun w =>
    if w.members group = 0 then (false, { w with found := group :: w.found }) else (true, w)

def signalGroup (_group : Nat) : EStateM (Halted String) (Processes σ) Unit :=
  host.call fun w => ((), w)

def tryWait (group : Nat) : EStateM (Halted String) (Processes σ) (Option Int) :=
  host.call fun w => (host.exited w group, w)

/-- A loop that sleeps after a turn without a result. -/
def poll (pause : Nat) (turn : β → EStateM (Halted ε) (Processes σ) (α ⊕ β)) :
    Nat → β → EStateM (Halted ε) (Processes σ) α
  | 0, _ => throw .unfinished
  | turns + 1, b => do
      match ← turn b with
      | .inl a => pure a
      | .inr b' => do
          host.sleep pause
          poll pause turn turns b'

/-- The turns of a loop that gives up after `limit`. -/
def turnsWithin (limit pause : Nat) : Nat :=
  limit / pause + 2

end Host

/-! ### What every call but the start of a process keeps -/

def Processes.Sound (w : Processes σ) : Prop :=
  ∀ group ∈ w.found, group < w.next ∧ w.members group = 0

theorem Processes.Sound.started {w : Processes σ} (h : w.Sound) (note : Processes σ → σ) :
    (w.started note).Sound := by
  intro group hgroup
  obtain ⟨hold, hgone⟩ := h group hgroup
  refine ⟨Nat.lt_succ_of_lt hold, ?_⟩
  show Function.update w.members w.next 1 group = 0
  rw [Function.update_of_ne (Nat.ne_of_lt hold)]
  exact hgone

/-- The second state is a later one, and no process was started in between. -/
structure Later (w₀ w : Processes σ) : Prop where
  next : w.next = w₀.next
  own : w.own = w₀.own
  time : w₀.time ≤ w.time
  found : ∀ group ∈ w₀.found, group ∈ w.found
  sound : w₀.Sound → w.Sound

theorem Later.refl (w : Processes σ) : Later w w :=
  ⟨rfl, rfl, Nat.le_refl _, fun _ h => h, id⟩

theorem Later.trans {w₀ w₁ w₂ : Processes σ} (h : Later w₀ w₁) (h' : Later w₁ w₂) :
    Later w₀ w₂ where
  next := h'.next.trans h.next
  own := h'.own.trans h.own
  time := Nat.le_trans h.time h'.time
  found group hgroup := h'.found group (h.found group hgroup)
  sound := h'.sound ∘ h.sound

namespace Host

variable {host : Host σ} {w₀ w : Processes σ}

variable {group : Nat}

theorem passed_gone (h : w.members group = 0) : (host.passed w).members group = 0 := by
  simp [passed, h]

theorem later_passed (w : Processes σ) : Later w (host.passed w) where
  next := rfl
  own := rfl
  time := Nat.le_add_right ..
  found _ h := h
  sound h group hgroup := ⟨(h group hgroup).1, passed_gone (h group hgroup).2⟩

theorem later_slept (w : Processes σ) (duration : Nat) :
    Later w { host.passed w with time := (host.passed w).time + duration } :=
  (later_passed w).trans ⟨rfl, rfl, Nat.le_add_right .., fun _ h => h, id⟩

theorem later_found (hold : group < w.next) (h : w.members group = 0) :
    Later w { w with found := group :: w.found } where
  next := rfl
  own := rfl
  time := Nat.le_refl _
  found _ h := List.mem_cons_of_mem _ h
  sound hsound other hother := by
    obtain rfl | hother := List.mem_cons.mp hother
    · exact ⟨hold, h⟩
    · exact hsound other hother

/-! ### The calls -/

/-- The end of a program that did not get through, if its loops have turns enough. -/
def Fails (w₀ : Processes σ) (e : Halted ε) (w : Processes σ) : Prop :=
  Later w₀ w ∧ e ≠ .unfinished

theorem call_triple {Q : α → Processes σ → Prop} {effect : Processes σ → α × Processes σ}
    (h : ∀ w, Later w₀ w → Q (effect w).1 (effect w).2) :
    Triple (Later w₀) (host.call effect) Q (Fails w₀) := by
  intro w hw
  have hpassed : Later w₀ (host.passed w) := hw.trans (later_passed w)
  show Ends Q _ (host.call effect w)
  simp only [call]
  cases host.fault w.clock with
  | none => exact h _ hpassed
  | some message => exact ⟨hpassed, nofun⟩

variable {E : ε → Processes σ → Prop}

theorem observe_triple {f : Processes σ → α} :
    Triple (Later w₀) (host.observe f) (fun a w => Later w₀ w ∧ a = f w) E :=
  fun w hw => ⟨hw.trans (later_passed w), rfl⟩

theorem sleep_triple {duration : Nat} : Triple (Later w₀) (host.sleep duration)
      (fun _ w => Later w₀ w ∧ w₀.time + duration ≤ w.time) E := by
  intro w hw
  refine ⟨hw.trans (later_slept w duration), ?_⟩
  have htime : w₀.time ≤ (host.passed w).time := (hw.trans (later_passed w)).time
  exact Nat.add_le_add_right htime duration

theorem groupExists_triple (hold : group < w₀.next) : Triple (Later w₀) (host.groupExists group)
      (fun answer w => Later w₀ w ∧ (answer = false → group ∈ w.found)) (Fails w₀) := by
  refine call_triple fun w hw => ?_
  by_cases hgone : w.members group = 0
  · simp only [hgone, if_true]
    have hfound : group < w.next := hw.next ▸ hold
    exact ⟨hw.trans (later_found hfound hgone), fun _ => List.mem_cons_self ..⟩
  · simp only [hgone, if_false]
    exact ⟨hw, nofun⟩

theorem spawn_triple {note : Processes σ → σ} : Triple (Later w₀) (host.spawn note)
      (fun group w => ∃ w', Later w₀ w' ∧ group = w'.next ∧ w = w'.started note) (Fails w₀) :=
  call_triple fun w hw => ⟨w, hw, rfl, rfl⟩

theorem signalGroup_triple :
    Triple (Later w₀) (host.signalGroup group) (fun _ => Later w₀) (Fails w₀) :=
  call_triple fun _ hw => hw

theorem tryWait_triple : Triple (Later w₀) (host.tryWait group) (fun _ => Later w₀) (Fails w₀) :=
  call_triple fun _ hw => hw

/-! ### Loops -/

variable {pause limit start : Nat} {turn : β → EStateM (Halted ε) (Processes σ) (α ⊕ β)}
  {Q : α → Processes σ → Prop}

/-- A turn that goes on has seen a time before the deadline. -/
def Turns (w₀ : Processes σ) (deadline : Nat) (turn : β → EStateM (Halted ε) (Processes σ) (α ⊕ β))
    (Q : α → Processes σ → Prop) : Prop :=
  ∀ b w, Later w₀ w →
    Triple (Later w) (turn b)
      (fun r w' => r.elim (fun a => Q a w') fun _ => Later w w' ∧ w.time < deadline) (Fails w)

theorem Fails.trans {w : Processes σ} {e : Halted ε} {w' : Processes σ} (hw : Later w₀ w)
    (h : Fails w e w') : Fails w₀ e w' :=
  ⟨hw.trans h.1, h.2⟩

variable {deadline : Nat}

theorem poll_turn {turns : Nat} (hturn : Turns w₀ deadline turn Q) (hw : Later w₀ w)
    (hrest : w.time < deadline → ∀ b, Triple (fun w' => Later w₀ w' ∧ w.time + pause ≤ w'.time)
      (host.poll pause turn turns b) Q (Fails w₀)) (b : β) :
    Ends Q (Fails w₀) ((host.poll pause turn (turns + 1) b).run w) := by
  have hfirst := (hturn b w hw).onError fun _ _ he => he.trans hw
  refine (hfirst.bind fun r => ?_) w (Later.refl w)
  cases r with
  | inl a => exact Triple.pure fun w' hw' => hw'
  | inr b' =>
    intro w' hw'
    have hslept : Triple (Later w) (host.sleep pause)
        (fun _ w'' => Later w₀ w'' ∧ w.time + pause ≤ w''.time) (Fails (ε := ε) w₀) :=
      sleep_triple.onReturn fun _ _ hs => ⟨hw.trans hs.1, hs.2⟩
    exact (hslept.bind fun _ => hrest hw'.2 b') w' hw'.1

theorem poll_turns (hturn : Turns w₀ deadline turn Q) (n : Nat) (b : β) (t : Nat)
    (hn : deadline ≤ t + pause * n) :
    Triple (fun w => Later w₀ w ∧ t ≤ w.time) (host.poll pause turn (n + 1) b) Q (Fails w₀) := by
  induction n generalizing b t with
  | zero =>
    intro w hw
    exact poll_turn hturn hw.1 (fun hbefore => absurd hw.2 (by omega)) b
  | succ n ih =>
    intro w hw
    refine poll_turn hturn hw.1 (fun _ b' => ih b' (w.time + pause) ?_) b
    rw [Nat.mul_succ] at hn
    omega

theorem poll_triple (hpause : 0 < pause) (hturn : Turns w₀ (start + limit) turn Q) (b : β) :
    Triple (fun w => Later w₀ w ∧ start ≤ w.time)
      (host.poll pause turn (turnsWithin limit pause) b) Q (Fails w₀) := by
  refine poll_turns hturn (limit / pause + 1) b start ?_
  have hlimit : limit < pause * (limit / pause + 1) := Nat.lt_mul_div_succ limit hpause
  omega

end Host

end IndenturedServer.Foundation
