import IndenturedServer.Sessions.Refinement

/-!
Which action archives survive their worker.

The session accepts the delivery of an action in the thread of the response
stream; whether the archive stays is decided by the worker, from the
acknowledgement it receives, its cancellation flag and a deadline. The two
decisions agree as long as neither side acts on the other's silence
(`Session.disagrees`).
-/

namespace IndenturedServer.Sessions

open Foundation

/-- The worker has given up on the delivery of its archive. -/
def Thread.gaveUp : Thread → Bool
  | .action .discard | .action .finish | .cleaning .action _ | .returned (.action false) => true
  | _ => false

/-- The worker has given up and is past the removal of the archive. -/
def Thread.discarded : Thread → Bool
  | .action .finish | .cleaning .action _ | .returned (.action false) => true
  | _ => false

variable {th : Thread}

theorem Thread.gaveUp_of_discarded (h : th.discarded = true) : th.gaveUp = true := by
  unfold Thread.discarded at h
  split at h <;> first | rfl | cases h

/-- Thread `t` decides against what the other side of the delivery has
decided: the worker gives up a delivery that was accepted, the session
accepts one that the worker has given up, or the archive of a refused
delivery cannot be removed. -/
def Session.disagrees (cfg : SessionConfig) (s : Session) : Event → Bool
  | .run t answer =>
    match s.threads t with
    | .action (.ackCancel _) => s.cancellation t && s.log.accepted t
    | .action (.ackDeadline dl) => decide (dl ≤ s.now) && s.log.accepted t
    | .action .discard => answer == .removed false
    | _ => false
  | .stream t .acknowledge =>
    (s.threads t).gaveUp &&
      (acknowledgeActionDelivery (s.cancellation t) (s.expired cfg) t s.now s.state).verdict
        == .proceed
  | _ => false

/-- A published archive that the worker has given up was not accepted, and
is gone once the worker has removed it. -/
structure Slot.Agrees (x : Slot) : Prop where
  refused : x.published = true → x.thread.gaveUp = true → x.accepted = false
  removed : x.published = true → x.thread.discarded = true → x.archive = false

namespace Slot.Agrees

variable {x : Slot}

theorem of_unpublished (hpub : x.published = false) : x.Agrees := by
  refine ⟨?_, ?_⟩ <;> simp [hpub]

theorem of_trying (hth : x.thread.gaveUp = false) : x.Agrees := by
  refine ⟨fun _ h => ?_, fun _ h => ?_⟩
  · rw [hth] at h
    cases h
  · rw [Thread.gaveUp_of_discarded h] at hth
    cases hth

theorem of_refused (hth : x.thread = .action .discard) (hacc : x.accepted = false) : x.Agrees := by
  refine ⟨fun _ _ => hacc, fun _ h => ?_⟩
  rw [hth] at h
  cases h

theorem discarded (hx : x.Agrees) (hth : x.thread.discarded = true) (th : Thread) (r : Bool) :
    Slot.Agrees { x with thread := th, rewrote := r } :=
  ⟨fun hpub _ => hx.refused hpub (Thread.gaveUp_of_discarded hth), fun hpub _ => hx.removed hpub hth⟩

end Slot.Agrees

section
variable {cfg : SessionConfig} {s s' : Session} {t : Nat}

variable {pc : ActionPc} {answer : Answer}

theorem Session.GivesUp.not_accepted (h : s.GivesUp t pc) (htidy : (s.slot t).Tidy)
    (hth : s.threads t = .action pc) (hagree : s.disagrees cfg (.run t answer) = false) :
    s.log.accepted t = false := by
  cases h with
  | unsent hpc =>
    obtain ⟨-, hphase, hack⟩ := htidy.unsent pc hth hpc
    exact htidy.not_accepted_of_unserved hphase hack
  | cancelled dl hcancelled => simpa [Session.disagrees, hth, hcancelled] using hagree
  | expired dl hexpired => simpa [Session.disagrees, hth, hexpired] using hagree
  | closed dl hack hclosed =>
    exact htidy.not_accepted_of_unserved (by rw [htidy.closed hclosed]; rfl) hack
  | refused dl hack =>
    by_contra hacc
    rcases htidy.accepted.mp (by simpa [Session.slot] using hacc) with hphase | hack'
    · have hnone := htidy.unsettled (by rw [hphase]; rfl)
      rw [show (s.slot t).stream.ack = _ from hack] at hnone
      cases hnone
    · rw [show (s.slot t).stream.ack = _ from hack] at hack'
      cases hack'

theorem ActionStep.agrees (h : ActionStep s t pc answer s') (htidy : (s.slot t).Tidy)
    (hx : (s.slot t).Agrees) (hth : s.threads t = .action pc)
    (hagree : s.disagrees cfg (.run t answer) = false) : (s'.slot t).Agrees := by
  have hslot : (s.slot t).thread = .action pc := hth
  cases h with
  | ran | collect =>
    rw [Session.slot_setThread_self]
    exact .of_trying rfl
  | receive =>
    rw [Session.slot_setThread_self]
    exact .of_trying rfl
  | move pc' hleads =>
    rw [Session.slot_setThread_self]
    refine .of_trying ?_
    simp only [ActionPc.leads, Bool.and_eq_true] at hleads
    cases pc' <;> first | rfl | cases hleads.2
  | send dl =>
    rw [Session.slot_setStream_self, Session.slot_setThread_self]
    exact .of_trying rfl
  | fail hpc =>
    refine .of_unpublished (htidy.unpublished ?_)
    rcases hpc with rfl | rfl
    · exact .inl hslot
    · exact .inr hslot
  | collectFail left => exact .of_unpublished (htidy.unpublished (.inr hslot))
  | giveUp hwhy =>
    rw [Session.slot_setThread_self]
    exact .of_refused rfl (hwhy.not_accepted htidy hth hagree)
  | discard succeeded =>
    have hsucceeded : succeeded = true := by simpa [Session.disagrees, hth] using hagree
    rw [Session.slot_setThread_self]
    refine ⟨fun hpub _ => hx.refused hpub (by rw [hslot]; rfl), fun _ _ => ?_⟩
    simp [Session.slot, hsucceeded]
  | finish =>
    have hdiscarded : (s.slot t).thread.discarded = true := by rw [hslot]; rfl
    rcases Session.slot_perform_self (s := s) (t := t) (finishAction t false s.now s.state) .action
      (fun _ => .returned (.action false)) with ⟨e, -, hself⟩ | ⟨-, hself⟩
    · rw [hself]
      exact hx.discarded hdiscarded _ _
    · rw [hself]
      exact hx.discarded hdiscarded _ _

theorem StreamStep.agrees {op : StreamOp} (h : StreamStep cfg s t op s') (hx : (s.slot t).Agrees)
    (hagree : s.disagrees cfg (.stream t op) = false) : (s'.slot t).Agrees := by
  cases h with
  | accept hphase hst ho =>
    have htrying : (s.threads t).gaveUp = false := by simpa [Session.disagrees, ho] using hagree
    exact .of_trying htrying
  | _ =>
    exact ⟨hx.refused, hx.removed⟩

theorem Thread.discarded_of_plain (hplain : th.plain = true) (hof : th.ofAction = true) :
    th.discarded = true := by
  unfold Thread.ofAction at hof
  split at hof
  · cases hplain
  · rfl
  · rename_i delivered
    cases delivered with
    | false => rfl
    | true => cases hplain
  · cases hof

/-- Away from `execute_action` proper a thread published nothing, or it is
past the removal of its archive. -/
theorem Session.Plain.agrees {s s' : Session} {t : Nat} (h : s.Plain s' t) (htidy : (s.slot t).Tidy)
    (hx : (s.slot t).Agrees) (hbefore : (s.threads t).plain = true) : (s'.slot t).Agrees := by
  obtain ⟨th, r, hth, hof, hslot⟩ := h
  rw [hslot]
  cases hpub : (s.slot t).published with
  | false => exact .of_unpublished hpub
  | true => exact hx.discarded (Thread.discarded_of_plain hbefore (htidy.ofAction hpub)) th r

theorem SessionStep.agrees {e : Event} (h : SessionStep cfg s e s') (hs : s.Sound)
    (hx : ∀ t, (s.slot t).Agrees) (hagree : s.disagrees cfg e = false) (t : Nat) :
    (s'.slot t).Agrees := by
  by_cases ht : e.thread = some t
  · have hplain : s.Plain s' t → (s.threads t).plain = true → (s'.slot t).Agrees :=
      fun h hbefore => h.agrees (hs.tidy t) (hx t) hbefore
    cases h with
    | tick | cancelInitialization | cancelAction => cases ht
    | call u op hth h =>
      cases ht
      have hpub : (s.slot t).published = false := ((hs.tidy t).absent hth).2.2
      rcases h.plain hth with ⟨th, r, -, -, hslot⟩ | hslot
      · rw [hslot]
        exact .of_unpublished hpub
      · rw [hslot]
        exact .of_unpublished hpub
    | init u pc answer hth h =>
      cases ht
      exact hplain (h.plain hth) (by rw [hth]; rfl)
    | action u pc answer hth h =>
      cases ht
      exact h.agrees (hs.tidy t) (hx t) hth hagree
    | update u request pc answer hth h =>
      cases ht
      exact hplain (h.plain hth) (by rw [hth]; rfl)
    | cleanup u role call answer hth h =>
      cases ht
      exact hplain (h.plain hth) (by rw [hth]; rfl)
    | answer u answer response hth hst =>
      cases ht
      exact hplain (Session.plain_setThread rfl (by rw [hth]; rfl) rfl) (by rw [hth]; rfl)
    | stream u op h =>
      cases ht
      exact h.agrees (hx t) hagree
    | panic u request late hpoint =>
      cases ht
      rw [Session.slot_setThread_self]
      exact .of_trying rfl
  · rw [h.slot ht]
    exact hx t

end

/-- As long as neither side of a delivery acts against the other, an action
that has ended has left its published archive exactly if the session accepted
the delivery. -/
theorem archive_kept_iff_accepted {cfg : SessionConfig} {es : List Event} {s : Session}
    (hrun : exec (step cfg) .reserved es = some s)
    (hagree : Meets (step cfg) (fun s e => s.disagrees cfg e = false) .reserved es) :
    ∀ t delivered, s.threads t = .returned (.action delivered) → s.log.published t = true →
      (s.archives t = true ↔ s.log.accepted t = true) := by
  have hinv : s.Sound ∧ ∀ t, (s.slot t).Agrees := by
    refine exec_invariant (P := fun s => s.Sound ∧ ∀ t, (s.slot t).Agrees) ?_
      ⟨Session.reserved_sound, fun t => .of_unpublished rfl⟩ hagree hrun
    rintro m e m' ⟨hm, hx⟩ hok hstep
    exact ⟨hm.step hstep, (step_cases hstep).agrees hm hx hok⟩
  obtain ⟨hs, hx⟩ := hinv
  intro t delivered hth hpub
  have hslot : (s.slot t).thread = .returned (.action delivered) := hth
  cases delivered with
  | true =>
    obtain ⟨hacc, harch⟩ := (hs.tidy t).delivered hslot
    exact iff_of_true (harch hpub) hacc
  | false =>
    have hacc : s.log.accepted t = false := (hx t).refused hpub (by rw [hslot]; rfl)
    have harch : s.archives t = false := (hx t).removed hpub (by rw [hslot]; rfl)
    simp [hacc, harch]

/-- A delivery that is accepted in time, and one whose client goes away. -/
def twoDeliveriesRun : List Event :=
  readyRun ++ deliveryRun 1 (some ⟨"a.zip", 7⟩) ++
    [.stream 1 .receiveFinal, .stream 1 .acknowledge, .stream 1 .sendAck, .run 1 .go, .run 1 .go,
      .run 1 .go] ++
    deliveryRun 2 (some ⟨"b.zip", 7⟩) ++
    [.stream 2 .drop, .stream 2 .close, .run 2 .go, .run 2 .go, .run 2 (.removed true)]

theorem archive_kept_iff_accepted_two : ∃ s,
    exec (step sampleConfig) .reserved twoDeliveriesRun = some s ∧
    s.threads 1 = .returned (.action true) ∧ s.log.published 1 = true ∧
    s.archives 1 = true ∧ s.archives 2 = false ∧
    (s.archives 1 = true ↔ s.log.accepted 1 = true) := by
  have hrun : exec (step sampleConfig) .reserved twoDeliveriesRun = some _ := rfl
  exact ⟨_, hrun, rfl, rfl, rfl, rfl, archive_kept_iff_accepted hrun (by decide) 1 true rfl rfl⟩

/-- The session accepts the delivery after the worker polled its channel and
before it tests its deadline: the archive that the client was promised is
deleted. -/
theorem accepted_archive_deleted : ∃ s n,
    exec (step sampleConfig) .reserved (readyRun ++ deliveryRun 1 (some ⟨"a.zip", 7⟩) ++
      [.stream 1 .receiveFinal, .tick 5000, .stream 1 .acknowledge, .run 1 .go,
        .run 1 (.removed true), .run 1 .go]) = some s ∧
    s.threads 1 = .returned (.action false) ∧ s.log.published 1 = true ∧ s.state = .ready n ∧
    s.log.accepted 1 = true ∧ s.archives 1 = false :=
  ⟨_, _, rfl, rfl, rfl, rfl, rfl, rfl⟩

end IndenturedServer.Sessions
