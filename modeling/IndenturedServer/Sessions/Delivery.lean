import IndenturedServer.Sessions.Frame

/-!
The hand-over of the final event of an action.

The worker puts the event in the channel and waits for an acknowledgement;
the response stream takes the event out, asks the session manager whether the
delivery counts, and sends the answer back. `Slot.Tidy` ties the points of
the worker to the phases of the stream. It is a statement about one slot: what
other threads do cannot break it.
-/

namespace IndenturedServer.Sessions

/-- The stream has not sent an acknowledgement. -/
def StreamPhase.unsettled : StreamPhase → Bool
  | .absent | .polling | .holding | .answered _ => true
  | _ => false

/-- The stream has not been handed the final event, and will not be while
the channel is empty. -/
def StreamPhase.unserved : StreamPhase → Bool
  | .polling | .dropping | .dropped => true
  | _ => false

structure Slot.Tidy (x : Slot) : Prop where
  absent : x.thread = .absent → x.stream = {} ∧ x.accepted = false ∧ x.published = false
  accepted : x.accepted = true ↔ x.stream.phase = .answered true ∨ x.stream.ack = some true
  unsettled : x.stream.phase.unsettled = true → x.stream.ack = none
  closed : x.stream.closed = true → x.stream.phase = .dropped
  unsent : ∀ pc, x.thread = .action pc → pc.unsent = true →
    x.stream.queued = false ∧ x.stream.phase.unserved = true ∧ x.stream.ack = none
  unpublished : x.thread = .action .run ∨ x.thread = .action .snapshot → x.published = false
  archive : ∀ pc, x.thread = .action pc → pc.holdsArchive = true →
    x.published = true → x.archive = true
  delivered : x.thread = .returned (.action true) →
    x.accepted = true ∧ (x.published = true → x.archive = true)
  ofAction : x.published = true → x.thread.ofAction = true

variable {pc : ActionPc}

namespace Slot.Tidy

variable {x : Slot}

section
variable (hx : x.Tidy)
include hx

theorem not_accepted_of_unserved (hphase : x.stream.phase.unserved = true)
    (hack : x.stream.ack = none) : x.accepted = false := by
  by_contra hacc
  rcases hx.accepted.mp (by simpa using hacc) with h | h
  · simp [h, StreamPhase.unserved] at hphase
  · simp [hack] at h

theorem plain {th : Thread} {r : Bool} (hth : th.plain = true)
    (hof : th.ofAction = x.thread.ofAction) : Slot.Tidy { x with thread := th, rewrote := r } := by
  refine ⟨?_, hx.accepted, hx.unsettled, hx.closed, ?_, ?_, ?_, ?_, ?_⟩
  · rintro rfl
    cases hth
  · rintro pc rfl
    cases hth
  · rintro (rfl | rfl) <;> cases hth
  · rintro pc rfl
    cases hth
  · rintro rfl
    cases hth
  · intro hpub
    rw [hof]
    exact hx.ofAction hpub

section
variable (hth : x.thread = .action pc)
include hth

theorem move (pc' : ActionPc) (b p : Bool) (hunsent : pc'.unsent = true → pc.unsent = true)
    (hpub : pc' = .run ∨ pc' = .snapshot → p = false)
    (harch : pc'.holdsArchive = true → p = true → b = true) :
    Slot.Tidy { x with thread := .action pc', archive := b, published := p } := by
  refine ⟨?_, hx.accepted, hx.unsettled, hx.closed, ?_, ?_, ?_, ?_, fun _ => rfl⟩
  · rintro ⟨⟩
  · rintro pc'' ⟨⟩ hpc
    exact hx.unsent pc hth (hunsent hpc)
  · rintro (h | h) <;> cases h
    · exact hpub (.inl rfl)
    · exact hpub (.inr rfl)
  · rintro pc'' ⟨⟩ hpc hp
    exact harch hpc hp
  · rintro ⟨⟩

variable {pc' : ActionPc}

theorem advance (hleads : pc.leads pc' = true) : Slot.Tidy { x with thread := .action pc' } := by
  simp only [ActionPc.leads, Bool.and_eq_true, Bool.or_eq_true, Bool.not_eq_true'] at hleads
  obtain ⟨⟨hunsent, hholds⟩, hholds'⟩ := hleads
  refine hx.move hth pc' _ _ ?_ ?_ fun _ => hx.archive pc hth hholds
  · intro hpc
    exact hunsent.resolve_left (by simp [hpc])
  · rintro (rfl | rfl) <;> cases hholds'

theorem giveUp (hpc' : pc' = .discard ∨ pc' = .finish) (b : Bool) :
    Slot.Tidy { x with thread := .action pc', archive := b } := by
  refine hx.move hth pc' b _ ?_ ?_ ?_
  · rcases hpc' with rfl | rfl <;> rintro ⟨⟩
  · rcases hpc' with rfl | rfl <;> rintro (h | h) <;> cases h
  · rcases hpc' with rfl | rfl <;> rintro ⟨⟩

theorem deliver (hpc : pc.holdsArchive = true) (hack : x.stream.ack = some true) :
    Slot.Tidy { x with thread := .returned (.action true) } := by
  refine ⟨?_, hx.accepted, hx.unsettled, hx.closed, ?_, ?_, ?_, fun _ => ?_, fun _ => rfl⟩
  · rintro ⟨⟩
  · rintro pc' ⟨⟩
  · rintro (h | h) <;> cases h
  · rintro pc' ⟨⟩
  · exact ⟨hx.accepted.mpr (.inr hack), hx.archive pc hth hpc⟩

end

theorem stream (st : ActionStream) (hanswered : st.phase = .answered true ∨ st.ack = some true ↔
      x.stream.phase = .answered true ∨ x.stream.ack = some true)
    (hunsettled : st.phase.unsettled = true → st.ack = none)
    (hclosed : st.closed = true → st.phase = .dropped) (habsent : x.thread ≠ .absent)
    (hunsent : ∀ pc, x.thread = .action pc → pc.unsent = true →
      st.queued = false ∧ st.phase.unserved = true ∧ st.ack = none) :
    Slot.Tidy { x with stream := st } :=
  ⟨fun h => absurd h habsent, hx.accepted.trans hanswered.symm, hunsettled, hclosed, hunsent,
    hx.unpublished, hx.archive, hx.delivered, hx.ofAction⟩

theorem accept (hphase : x.stream.phase = .holding) (habsent : x.thread ≠ .absent) :
    Slot.Tidy { x with
      stream := { x.stream with phase := .answered true }
      accepted := true } := by
  refine ⟨fun h => absurd h habsent, by simp, fun _ => hx.unsettled (by rw [hphase]; rfl), ?_, ?_,
    hx.unpublished, hx.archive, fun h => ⟨rfl, (hx.delivered h).2⟩, hx.ofAction⟩
  · intro hclosed
    have hdropped := hx.closed hclosed
    rw [hphase] at hdropped
    cases hdropped
  · intro pc hth hpc
    have hunserved := (hx.unsent pc hth hpc).2.1
    rw [hphase] at hunserved
    cases hunserved

end

end Slot.Tidy

section
variable {cfg : SessionConfig} {s s' : Session} {t : Nat}

theorem ActionStep.tidy {answer : Answer} (h : ActionStep s t pc answer s') (hx : (s.slot t).Tidy)
    (hth : s.threads t = .action pc) : (s'.slot t).Tidy := by
  have hslot : (s.slot t).thread = .action pc := hth
  cases h with
  | ran =>
    rw [Session.slot_setThread_self]
    exact hx.move hslot .snapshot _ _ (fun _ => rfl) (fun _ => hx.unpublished (.inl hslot))
      (by rintro ⟨⟩)
  | fail hpc =>
    rw [Session.slot_setThread_self]
    exact hx.giveUp hslot (.inr rfl) _
  | collect archive restrictions =>
    rw [Session.slot_setThread_self]
    have hmove := hx.move hslot .canPublish archive.isSome archive.isSome (fun _ => rfl) (by simp)
      (fun _ h => h)
    simpa [Session.slot] using hmove
  | collectFail left =>
    rw [Session.slot_setThread_self]
    have hend := hx.giveUp hslot (.inl rfl) left
    simpa [Session.slot] using hend
  | move pc' hleads =>
    rw [Session.slot_setThread_self]
    exact hx.advance hslot hleads
  | send dl =>
    have hadv : Slot.Tidy { s.slot t with thread := .action .enqueued } := hx.advance hslot rfl
    have hsent := hadv.stream { s.streams t with queued := true } Iff.rfl hx.unsettled
      hx.closed (by simp) (by rintro pc' ⟨⟩ ⟨⟩)
    simpa [Session.slot, Session.setStream, Session.setThread] using hsent
  | giveUp hwhy =>
    rw [Session.slot_setThread_self]
    exact hx.giveUp hslot (.inl rfl) _
  | receive dl hack =>
    rw [Session.slot_setThread_self]
    exact hx.deliver hslot rfl hack
  | discard succeeded =>
    rw [Session.slot_setThread_self]
    have hend := hx.giveUp hslot (.inr rfl) (s.archives t && !succeeded)
    simpa [Session.slot] using hend
  | finish =>
    rcases Session.slot_perform_self (s := s) (t := t) (finishAction t false s.now s.state) .action
      (fun _ => .returned (.action false)) with ⟨e, -, hself⟩ | ⟨-, hself⟩
    · rw [hself]
      exact hx.plain rfl (by rw [hslot]; rfl)
    · rw [hself]
      exact hx.plain rfl (by rw [hslot]; rfl)

theorem StreamStep.tidy {op : StreamOp} (h : StreamStep cfg s t op s') (hx : (s.slot t).Tidy) :
    (s'.slot t).Tidy := by
  have hunsettled : (s.streams t).phase.unsettled = true → (s.streams t).ack = none := hx.unsettled
  have hclosed : (s.streams t).closed = true → (s.streams t).phase = .dropped := hx.closed
  have hunsent : ∀ pc, s.threads t = .action pc → pc.unsent = true →
    (s.streams t).queued = false ∧ (s.streams t).phase.unserved = true ∧
      (s.streams t).ack = none := hx.unsent
  -- a stream that has begun belongs to an action that has
  have habsent : (s.streams t).phase ≠ .absent → (s.slot t).thread ≠ .absent := by
    intro hphase hth
    exact hphase (by rw [show s.streams t = _ from (hx.absent hth).1])
  have hstream : ∀ (s₀ : Session) st, s₀.slot t = s.slot t → (s.streams t).phase ≠ .absent →
      ((st.phase = .answered true ∨ st.ack = some true) ↔
        ((s.streams t).phase = .answered true ∨ (s.streams t).ack = some true)) →
      (st.phase.unsettled = true → st.ack = none) → (st.closed = true → st.phase = .dropped) →
      (∀ pc, s.threads t = .action pc → pc.unsent = true →
        st.queued = false ∧ st.phase.unserved = true ∧ st.ack = none) →
      ((s₀.setStream t st).slot t).Tidy := by
    intro s₀ st hslot hphase h1 h2 h3 h4
    rw [Session.slot_setStream_self, hslot]
    exact hx.stream st h1 h2 h3 (habsent hphase) h4
  cases h with
  | receive hphase hqueued =>
    rw [hphase] at hunsettled hclosed hunsent
    refine hstream _ _ rfl (by simp [hphase]) (by simp [hphase]) (fun _ => hunsettled rfl) ?_ ?_
    · intro hc
      cases hclosed hc
    · intro pc hth hpc
      have hempty := (hunsent pc hth hpc).1
      rw [hqueued] at hempty
      cases hempty
  | accept hphase hst ho =>
    have haccept := hx.accept hphase (habsent (by simp [hphase]))
    simpa [Session.slot, Session.noteAccepted, Session.setStream, Session.enter] using haccept
  | refuse hphase o ho =>
    rw [hphase] at hunsettled hclosed hunsent
    refine hstream _ _ rfl (by simp [hphase]) (by simp [hphase]) (fun _ => hunsettled rfl) ?_ ?_
    · intro hc
      cases hclosed hc
    · intro pc hth hpc
      cases (hunsent pc hth hpc).2.1
  | sendAck b hphase =>
    rw [hphase] at hunsettled hclosed hunsent
    refine hstream _ _ rfl (by simp [hphase]) ?_ (by simp [StreamPhase.unsettled]) ?_ ?_
    · simp [hphase, hunsettled rfl]
    · intro hc
      cases hclosed hc
    · intro pc hth hpc
      cases (hunsent pc hth hpc).2.1
  | drop hphase o ho =>
    refine hstream _ _ rfl ?_ ?_ (by simp [StreamPhase.unsettled]) ?_ ?_
    · rcases hphase with h | h | h <;> simp [h]
    · rcases hphase with h | h | h <;> simp [h]
    · intro hc
      rcases hphase with h | h | h <;> simp [h] at hclosed <;> simp [hclosed] at hc
    · intro pc hth hpc
      obtain ⟨hqueued, -, hack⟩ := hunsent pc hth hpc
      exact ⟨hqueued, rfl, hack⟩
  | close hphase =>
    refine hstream _ _ rfl (by simp [hphase]) (by simp [hphase]) (by simp [StreamPhase.unsettled])
      (fun _ => rfl) ?_
    intro pc hth hpc
    exact ⟨rfl, rfl, (hunsent pc hth hpc).2.2⟩

end

end IndenturedServer.Sessions
