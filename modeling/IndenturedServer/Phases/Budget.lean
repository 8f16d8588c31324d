import IndenturedServer.Phases.Task

/-!
The output budget of a task.

A reader adds the length of a chunk to the shared counter before it compares
the sum with `max_output_bytes`, and what it added stays there. The chunk is
forwarded if the sum is within the budget; otherwise the reader stops. So the
counter is at least what has been forwarded or is on its way, and beyond the
budget it has at most one chunk for each reader that has stopped.

`output_within_budget` has both halves of this. A chunk that was counted in time
can be forwarded when the budget has already been crossed by another reader:
`forwarded_after_crossing` is a run in which that happens.
-/

namespace IndenturedServer.Phases

open Foundation Sessions ReaderPc List
open Source (Text saturatingAdd)

/-! ### Sums over the readers -/

def allReaders : List Reader :=
  [(.setup, .stdout), (.setup, .stderr), (.run, .stdout), (.run, .stderr)]

/-- The bytes of a chunk that was counted within the budget and is not placed. -/
def ReaderPc.accepted : ReaderPc → Nat
  | .forwarding chunk _ => chunk.length
  | _ => 0

def ReaderPc.stopped : ReaderPc → Nat
  | .exceeding _ | .cancelling | .ended => 1
  | _ => 0

namespace TaskRun

variable {cfg : TaskConfig} {lossy : Text → String} {s s' : TaskRun}

def total (s : TaskRun) (f : ReaderPc → Nat) : Nat :=
  (allReaders.map fun r => f (s.reader r)).sum

variable {r : Reader}

theorem total_update (h : ∀ r', r' ≠ r → s'.reader r' = s.reader r') (f : ReaderPc → Nat) :
    s'.total f + f (s.reader r) = s.total f + f (s'.reader r) := by
  have hall : ∀ r', s'.reader r' = if r' = r then s'.reader r else s.reader r' := by
    intro r'
    split
    · rename_i heq
      rw [heq]
    · rename_i hne
      exact h r' hne
  obtain ⟨p, kind⟩ := r
  simp only [total, allReaders, map_cons, map_nil, sum_cons, sum_nil]
  rw [hall (.setup, .stdout), hall (.setup, .stderr), hall (.run, .stdout), hall (.run, .stderr)]
  cases p <;> cases kind <;> simp <;> omega

theorem total_congr {f : ReaderPc → Nat} (h : ∀ r, f (s'.reader r) = f (s.reader r)) :
    s'.total f = s.total f := by
  simp only [total, h]

theorem stopped_le_one (pc : ReaderPc) : pc.stopped ≤ 1 := by
  cases pc <;> simp [stopped]

/-- At most three readers have stopped as long as one counts. -/
theorem total_stopped_le (h : (s.reader r).stopped = 0) : s.total stopped ≤ 3 := by
  have hle : ∀ r', (s.reader r').stopped ≤ 1 := fun r' => stopped_le_one _
  have h₁ := hle (.setup, .stdout)
  have h₂ := hle (.setup, .stderr)
  have h₃ := hle (.run, .stdout)
  have h₄ := hle (.run, .stderr)
  simp only [total, allReaders, map_cons, map_nil, sum_cons, sum_nil]
  obtain ⟨p, kind⟩ := r
  cases p <;> cases kind <;> omega

variable {pc : ReaderPc}

theorem reader_update {p : BuildPhase} {kind : StreamKind} {after : PhaseRun} {e : PhaseEvent}
    (hreaders : after.readers = Function.update (s.phases p).readers kind pc) (r : Reader) :
    (s.advance p after e).reader r = if r = (p, kind) then pc else s.reader r := by
  obtain ⟨q, kind'⟩ := r
  rw [reader_advance]
  by_cases hq : q = p
  · subst hq
    by_cases hkind : kind' = kind
    · simp [hreaders, hkind]
    · simp [hreaders, hkind, reader]
  · simp [hq]

/-! ### The invariant -/

def forwardedBytes (s : TaskRun) : Nat :=
  (s.forwarded.map fun f => f.2.length).sum

def carried (lossy : Text → String) (forwarded : List (Reader × Text)) : List ResponseEvent :=
  forwarded.map fun f => f.1.2.event (lossy f.2)

structure Budgeted (cfg : TaskConfig) (lossy : Text → String) (start : List ResponseEvent)
    (s : TaskRun) : Prop where
  unspawned : ∀ p, (s.phases p).waiter.unspawned = true → ∀ kind, s.reader (p, kind) = .absent
  chunks : ∀ r chunk, s.reader r = .counting chunk → chunk.length ≤ outputChunkSize
  counter : ∀ p, (s.phases p).outputBytes = s.counted
  bounded : s.counted ≤ cfg.maxOutputBytes + outputChunkSize * s.total ReaderPc.stopped
  spent : s.forwardedBytes + s.total ReaderPc.accepted ≤ s.counted
  within : s.forwardedBytes + s.total ReaderPc.accepted ≤ cfg.maxOutputBytes
  events : ∀ p, outputs (s.phases p).channel.placed = outputs start ++ carried lossy s.forwarded

theorem budgeted_initial (channel : Channel ResponseEvent channelCapacity) :
    (initial channel).Budgeted cfg lossy channel.placed where
  unspawned _ _ _ := rfl
  chunks := nofun
  counter _ := rfl
  bounded := Nat.zero_le _
  spent := Nat.le_refl 0
  within := Nat.zero_le _
  events _ := (append_nil _).symm

variable {e : BuildPhase × PhaseEvent} {chunk : Text}

section
variable {start : List ResponseEvent} {p : BuildPhase} {kind : StreamKind} {answer : ReadAnswer}
  {after : PhaseRun}

theorem Budgeted.counted_lt (h : s.Budgeted cfg lossy start)
    (hmax : cfg.maxOutputBytes + 4 * outputChunkSize < 2 ^ 64) (hpc : s.reader r = .counting chunk) :
    s.counted + chunk.length < 2 ^ 64 := by
  have hstopped : s.total stopped ≤ 3 := total_stopped_le (by rw [hpc]; rfl)
  have hchunk := h.chunks r chunk hpc
  have hbounded := h.bounded
  have hsum : outputChunkSize * s.total stopped ≤ outputChunkSize * 3 :=
    Nat.mul_le_mul_left _ hstopped
  omega

/-- The bytes that a step from the first point to the second one has placed. -/
def placedBytes (r : Reader) (pc pc' : ReaderPc) : Nat :=
  ((places r pc pc').map fun f => f.2.length).sum

/-- A step of one reader. Either it accepts nothing, and what it counts is paid
for by its stopping, or what it counts is within the budget. -/
theorem Budgeted.reader_step (h : s.Budgeted cfg lossy start)
    (hreaders : after.readers = Function.update (s.phases p).readers kind pc)
    (hwaiter : after.waiter = (s.phases p).waiter) (hstarted : s.reader (p, kind) ≠ .absent)
    (hchunks : ∀ chunk, pc = .counting chunk → chunk.length ≤ outputChunkSize)
    (hcounter : after.outputBytes = s.counted + counts (s.reader (p, kind)))
    (hevents : outputs after.channel.placed = outputs (s.phases p).channel.placed ++
      carried lossy (places (p, kind) (s.reader (p, kind)) pc)) (hbudget :
      counts (s.reader (p, kind)) + outputChunkSize * (s.reader (p, kind)).stopped ≤
          outputChunkSize * pc.stopped ∧
        placedBytes (p, kind) (s.reader (p, kind)) pc + pc.accepted ≤
          (s.reader (p, kind)).accepted ∨
      s.counted + counts (s.reader (p, kind)) ≤ cfg.maxOutputBytes ∧
        placedBytes (p, kind) (s.reader (p, kind)) pc + pc.accepted ≤
          counts (s.reader (p, kind)) + (s.reader (p, kind)).accepted) :
    (s.advance p after (.reader kind answer)).Budgeted cfg lossy start := by
  have hreader := reader_update (e := .reader kind answer) hreaders
  have hself : (s.advance p after (.reader kind answer)).reader (p, kind) = pc := by
    rw [hreader, if_pos rfl]
  have hothers : ∀ r, r ≠ (p, kind) →
      (s.advance p after (.reader kind answer)).reader r = s.reader r := by
    intro r hr
    rw [hreader, if_neg hr]
  have hstopped := total_update hothers stopped
  have haccepted := total_update hothers accepted
  rw [hself] at hstopped haccepted
  have hforwarded : (s.advance p after (.reader kind answer)).forwarded =
      s.forwarded ++ places (p, kind) (s.reader (p, kind)) pc := by
    show s.forwarded ++ places _ _ (after.readers kind) = _
    rw [hreaders, Function.update_self]
  have hbytes : (s.advance p after (.reader kind answer)).forwardedBytes = s.forwardedBytes +
      placedBytes (p, kind) (s.reader (p, kind)) pc := by
    rw [forwardedBytes, hforwarded, map_append, sum_append]
    rfl
  have hcounted : (s.advance p after (.reader kind answer)).counted =
      s.counted + counts (s.reader (p, kind)) := rfl
  have hbounded := h.bounded
  have hspent := h.spent
  have hwithin := h.within
  simp only [outputChunkSize] at hbounded hbudget
  refine ⟨fun q hq kind' => ?_, fun r chunk hpc => ?_, fun q => ?_, ?_, ?_, ?_, fun q => ?_⟩
  · -- a phase that has not spawned its process has not started its readers
    rw [(phases_advance s p q after _).2.2] at hq
    have hunspawned : (s.phases q).waiter.unspawned = true := by
      split at hq
      · rename_i heq
        rw [heq, ← hwaiter]
        exact hq
      · exact hq
    have habsent := h.unspawned q hunspawned
    rw [hothers]
    · exact habsent kind'
    · rintro ⟨⟩
      exact hstarted (habsent kind)
  · rw [hreader] at hpc
    split at hpc
    · exact hchunks chunk hpc
    · exact h.chunks r chunk hpc
  · rw [(phases_advance s p q after _).1, hcounter, hcounted]
  · rw [hcounted]
    simp only [outputChunkSize]
    omega
  · rw [hbytes, hcounted]
    omega
  · rw [hbytes]
    omega
  · rw [(phases_advance s p q after _).2.1, hevents, h.events p, hforwarded, carried, carried,
      carried, map_append, append_assoc]

theorem outputs_event {events : List ResponseEvent} (data : String) :
    outputs (events ++ [kind.event data]) = outputs events ++ [kind.event data] := by
  cases kind <;> simp [outputs, StreamKind.owns, StreamKind.event]

variable (h : s.Budgeted cfg lossy start)
include h

theorem Budgeted.reader_move (hmax : cfg.maxOutputBytes + 4 * outputChunkSize < 2 ^ 64)
    (hmove : PhaseRun.ReaderMove (cfg.phase p) lossy (s.phases p) kind after) :
    (s.advance p after (.reader kind answer)).Budgeted cfg lossy start := by
  have hsame : outputs (s.phases p).channel.placed =
      outputs (s.phases p).channel.placed ++ carried lossy [] := (append_nil _).symm
  -- the sum of the counter and a chunk, as the reader computes it and as it is
  have hsum : ∀ chunk, s.reader (p, kind) = .counting chunk →
      ((s.phases p).outputBytes + chunk.length) % 2 ^ 64 = s.counted + chunk.length ∧
      saturatingAdd (s.phases p).outputBytes chunk.length = s.counted + chunk.length := by
    intro chunk hpc
    have hlt := h.counted_lt hmax hpc
    rw [h.counter p]
    exact ⟨Nat.mod_eq_of_lt hlt, Nat.min_eq_left (by omega)⟩
  cases hmove with
  | @reads chunk unread hpc hlength =>
    have hreader : s.reader (p, kind) = .reading := hpc
    refine h.reader_step rfl rfl (by simp [hreader]) ?_ ?_ ?_ (.inl ?_)
    · rintro _ ⟨⟩
      exact hlength
    · rw [hreader]
      exact h.counter p
    · rw [hreader]
      exact hsame
    · rw [hreader]
      exact ⟨Nat.le_refl _, Nat.le_refl _⟩
  | @accepts chunk pc hpc hwithin =>
    have hreader : s.reader (p, kind) = .counting chunk := hpc
    obtain ⟨hmod, hsaturating⟩ := hsum chunk hreader
    rw [hsaturating, cfg.phase_maxOutputBytes] at hwithin
    refine h.reader_step rfl rfl (by simp [hreader]) nofun ?_ ?_ (.inr ?_)
    · rw [hreader]
      exact hmod
    · rw [hreader]
      exact hsame
    · rw [hreader]
      exact ⟨hwithin, by simp [placedBytes, places, counts, accepted]⟩
  | @crosses chunk hpc hover =>
    have hreader : s.reader (p, kind) = .counting chunk := hpc
    refine h.reader_step rfl rfl (by simp [hreader]) nofun ?_ ?_ (.inl ?_)
    · rw [hreader]
      exact (hsum chunk hreader).1
    · rw [hreader]
      exact hsame
    · have hlength := h.chunks _ chunk hreader
      rw [hreader]
      simpa [counts, stopped, placedBytes, places, accepted] using hlength
  | @waits chunk pc pc' hpc =>
    have hreader : s.reader (p, kind) = .forwarding chunk pc := hpc
    refine h.reader_step rfl rfl (by simp [hreader]) nofun ?_ ?_ (.inl ?_)
    · rw [hreader]
      exact h.counter p
    · rw [hreader]
      exact hsame
    · rw [hreader]
      simp [counts, stopped, placedBytes, places, accepted]
  | @sends chunk pc channel hpc hsend =>
    have hreader : s.reader (p, kind) = .forwarding chunk pc := hpc
    refine h.reader_step rfl rfl (by simp [hreader]) nofun ?_ ?_ (.inl ?_)
    · rw [hreader]
      exact h.counter p
    · rw [hreader]
      rw [(Channel.trySend_ok hsend).1, outputs_event]
      rfl
    · rw [hreader]
      simp [counts, stopped, placedBytes, places, accepted]
  | @stops pc exceeded cancelled hstarted hpc hpc' =>
    have hcounts : counts (s.reader (p, kind)) = 0 := by
      cases hreader : s.reader (p, kind) with
      | counting chunk => exact absurd hreader (hpc chunk)
      | _ => rfl
    have hplaces : places (p, kind) (s.reader (p, kind)) pc = [] := by
      rcases hpc' with rfl | rfl
      · cases s.reader (p, kind) <;> rfl
      · cases s.reader (p, kind) <;> rfl
    have hstopped : pc.stopped = 1 ∧ pc.accepted = 0 := by
      rcases hpc' with rfl | rfl
      · exact ⟨rfl, rfl⟩
      · exact ⟨rfl, rfl⟩
    have hbefore := stopped_le_one (s.reader (p, kind))
    refine h.reader_step rfl rfl hstarted ?_ ?_ ?_ (.inl ⟨?_, ?_⟩)
    · rcases hpc' with rfl | rfl
      · nofun
      · nofun
    · rw [hcounts]
      exact h.counter p
    · rw [hplaces]
      exact hsame
    · rw [hcounts, hstopped.1, Nat.zero_add]
      exact Nat.mul_le_mul_left _ hbefore
    · rw [placedBytes, hplaces, hstopped.2]
      exact Nat.zero_le _

theorem Budgeted.keep {e : PhaseEvent} (he : ∀ kind answer, e ≠ .reader kind answer)
    (hkeeps : (s.phases p).Keeps after) : (s.advance p after e).Budgeted cfg lossy start := by
  have hhistory : (s.advance p after e).counted = s.counted ∧
      (s.advance p after e).forwarded = s.forwarded := by
    cases e with
    | reader kind answer => exact absurd rfl (he kind answer)
    | _ => exact ⟨rfl, rfl⟩
  -- readers that are started have counted nothing and hold nothing
  have hreader : ∀ r, (s.advance p after e).reader r = s.reader r ∨
      s.reader r = .absent ∧ (s.advance p after e).reader r = .reading := by
    rintro ⟨q, kind⟩
    rw [reader_advance]
    split
    · rename_i hq
      obtain rfl : q = p := hq
      rcases hkeeps.readers with hreaders | ⟨hunspawned, hreaders⟩
      · exact .inl (congrFun hreaders kind)
      · exact .inr ⟨h.unspawned q hunspawned kind, congrFun hreaders kind⟩
    · exact .inl rfl
  have htotal : ∀ f : ReaderPc → Nat, f .absent = f .reading →
      (s.advance p after e).total f = s.total f := by
    intro f hf
    apply total_congr
    intro r
    rcases hreader r with hr | ⟨hbefore, hafter⟩
    · rw [hr]
    · rw [hbefore, hafter, hf]
  have hbytes : (s.advance p after e).forwardedBytes = s.forwardedBytes := by
    rw [forwardedBytes, forwardedBytes, hhistory.2]
  refine ⟨fun q hq kind => ?_, fun r chunk hpc => ?_, fun q => ?_, ?_, ?_, ?_, fun q => ?_⟩
  · rw [(phases_advance s p q after e).2.2] at hq
    rw [reader_advance]
    split at hq
    · rename_i heq
      subst heq
      obtain ⟨hunspawned, hreaders⟩ := hkeeps.unspawned hq
      rw [if_pos rfl, hreaders]
      exact h.unspawned q hunspawned kind
    · rename_i hne
      rw [if_neg hne]
      exact h.unspawned q hq kind
  · rcases hreader r with hr | ⟨-, hr⟩
    · exact h.chunks r chunk (hr ▸ hpc)
    · rw [hr] at hpc
      cases hpc
  · rw [(phases_advance s p q after e).1, hkeeps.outputBytes, h.counter p, hhistory.1]
  · rw [hhistory.1, htotal stopped rfl]
    exact h.bounded
  · rw [hhistory.1, hbytes, htotal accepted rfl]
    exact h.spent
  · rw [hbytes, htotal accepted rfl]
    exact h.within
  · rw [(phases_advance s p q after e).2.1, hkeeps.outputs, h.events p, hhistory.2]

theorem Budgeted.step (hmax : cfg.maxOutputBytes + 4 * outputChunkSize < 2 ^ 64)
    (hstep : s.step cfg lossy e = some s') : s'.Budgeted cfg lossy start := by
  obtain ⟨-, after, hafter, rfl⟩ := step_cases hstep
  obtain ⟨kind, answer, he, hmove⟩ | ⟨he, hkeeps⟩ := PhaseRun.step_output hafter
  · rw [he]
    exact h.reader_move hmax hmove
  · exact h.keep he hkeeps

end

theorem budgeted_of_exec {channel : Channel ResponseEvent channelCapacity}
    {es : List (BuildPhase × PhaseEvent)}
    (hmax : cfg.maxOutputBytes + 4 * outputChunkSize < 2 ^ 64)
    (hrun : exec (step cfg lossy) (initial channel) es = some s) :
    s.Budgeted cfg lossy channel.placed :=
  exec_invariant_all (fun _ _ _ h hstep => h.step hmax hstep) (budgeted_initial channel) hrun

/-! ### After the crossing -/

/-- Since `s₀` nothing has been forwarded but chunks that were on their way, one
from each reader. -/
structure Winding (s₀ s : TaskRun) (later : List (Reader × Text)) : Prop where
  forwarded : s.forwarded = s₀.forwarded ++ later
  distinct : (later.map Prod.fst).Nodup
  accepted : ∀ f ∈ later, ∃ pc, s₀.reader f.1 = .forwarding f.2 pc
  inHand : ∀ r chunk pc, s.reader r = .forwarding chunk pc →
    r ∉ later.map Prod.fst ∧ ∃ pc₀, s₀.reader r = .forwarding chunk pc₀

theorem Winding.refl (s : TaskRun) : Winding s s [] where
  forwarded := (append_nil _).symm
  distinct := nodup_nil
  accepted := nofun
  inHand _ _ pc h := ⟨not_mem_nil, pc, h⟩

section
variable {s₀ : TaskRun} {later : List (Reader × Text)} {start : List ResponseEvent}

theorem Winding.keep (h : Winding s₀ s later) (hforwarded : s'.forwarded = s.forwarded)
    (hinHand : ∀ r chunk pc, s'.reader r = .forwarding chunk pc →
      ∃ pc', s.reader r = .forwarding chunk pc') : Winding s₀ s' later where
  forwarded := hforwarded.trans h.forwarded
  distinct := h.distinct
  accepted := h.accepted
  inHand r chunk pc hpc := by
    obtain ⟨pc', hpc'⟩ := hinHand r chunk pc hpc
    exact h.inHand r chunk pc' hpc'

theorem Winding.send (h : Winding s₀ s later) {pc : ForwardPc}
    (hpc : s.reader r = .forwarding chunk pc)
    (hforwarded : s'.forwarded = s.forwarded ++ [(r, chunk)]) (hafter : s'.reader r = .reading)
    (hothers : ∀ r', r' ≠ r → s'.reader r' = s.reader r') :
    Winding s₀ s' (later ++ [(r, chunk)]) := by
  obtain ⟨hnew, hheld⟩ := h.inHand r chunk pc hpc
  refine ⟨?_, ?_, ?_, ?_⟩
  · rw [hforwarded, h.forwarded, append_assoc]
  · rw [map_append, nodup_append_comm]
    exact nodup_cons.mpr ⟨hnew, h.distinct⟩
  · intro f hf
    rcases mem_append.mp hf with hf | hf
    · exact h.accepted f hf
    · rw [mem_singleton.mp hf]
      exact hheld
  · intro r' chunk' pc' hpc'
    have hne : r' ≠ r := by
      rintro rfl
      rw [hafter] at hpc'
      cases hpc'
    rw [hothers r' hne] at hpc'
    obtain ⟨hnot, hheld'⟩ := h.inHand r' chunk' pc' hpc'
    refine ⟨?_, hheld'⟩
    rw [map_append, mem_append, not_or]
    exact ⟨hnot, by simpa using hne⟩

theorem Winding.reader_move {p : BuildPhase} {kind : StreamKind} {answer : ReadAnswer}
    {after : PhaseRun} (h : Winding s₀ s later) (hbudgeted : s.Budgeted cfg lossy start)
    (hmax : cfg.maxOutputBytes + 4 * outputChunkSize < 2 ^ 64)
    (hcrossed : cfg.maxOutputBytes < s.counted)
    (hmove : PhaseRun.ReaderMove (cfg.phase p) lossy (s.phases p) kind after) :
    ∃ later', Winding s₀ (s.advance p after (.reader kind answer)) later' := by
  -- the point to which the reader has gone, if it has no new chunk there
  have hkeep : ∀ {pc : ReaderPc}, after.readers = Function.update (s.phases p).readers kind pc →
      places (p, kind) (s.reader (p, kind)) pc = [] →
      (∀ chunk pc', pc = .forwarding chunk pc' → ∃ pc₀, s.reader (p, kind) = .forwarding chunk pc₀) →
      Winding s₀ (s.advance p after (.reader kind answer)) later := by
    intro pc hreaders hplaces hheld
    refine h.keep ?_ fun r chunk pc' hpc' => ?_
    · show s.forwarded ++ places _ _ (after.readers kind) = s.forwarded
      rw [hreaders, Function.update_self, hplaces, append_nil]
    · rw [reader_update hreaders] at hpc'
      split at hpc'
      · rename_i hr
        rw [hr]
        exact hheld chunk pc' hpc'
      · exact ⟨pc', hpc'⟩
  cases hmove with
  | @reads chunk unread hpc =>
    refine ⟨later, hkeep rfl ?_ (by rintro _ _ ⟨⟩)⟩
    rw [show s.reader (p, kind) = _ from hpc]
    rfl
  | @accepts chunk pc hpc hwithin =>
    -- the counter is beyond the budget, so that nothing is accepted
    have hlt := hbudgeted.counted_lt hmax (show s.reader (p, kind) = _ from hpc)
    rw [hbudgeted.counter p, cfg.phase_maxOutputBytes, saturatingAdd] at hwithin
    omega
  | @crosses chunk hpc =>
    refine ⟨later, hkeep rfl ?_ (by rintro _ _ ⟨⟩)⟩
    rw [show s.reader (p, kind) = _ from hpc]
    rfl
  | @waits chunk pc pc' hpc =>
    have hreader : s.reader (p, kind) = .forwarding chunk pc := hpc
    refine ⟨later, hkeep rfl (by rw [hreader]; rfl) ?_⟩
    rintro _ _ ⟨⟩
    exact ⟨pc, hreader⟩
  | @sends chunk pc channel hpc =>
    have hreader : s.reader (p, kind) = .forwarding chunk pc := hpc
    refine ⟨_, h.send hreader ?_ ?_ fun r hr => ?_⟩
    · show s.forwarded ++ places _ _ _ = _
      rw [hreader]
      simp [PhaseRun.setReader, places]
    · rw [reader_update rfl, if_pos rfl]
    · rw [reader_update rfl, if_neg hr]
  | @stops pc exceeded cancelled hstarted hpc hpc' =>
    refine ⟨later, hkeep rfl ?_ ?_⟩
    · rcases hpc' with rfl | rfl
      · cases s.reader (p, kind) <;> rfl
      · cases s.reader (p, kind) <;> rfl
    · rcases hpc' with rfl | rfl
      · rintro _ _ ⟨⟩
      · rintro _ _ ⟨⟩

theorem counted_le_advance (s : TaskRun) (p : BuildPhase) (after : PhaseRun) (e : PhaseEvent) :
    s.counted ≤ (s.advance p after e).counted := by
  cases e with
  | reader kind answer => exact Nat.le_add_right _ _
  | _ => exact Nat.le_refl _

theorem Winding.step (h : Winding s₀ s later) (hbudgeted : s.Budgeted cfg lossy start)
    (hmax : cfg.maxOutputBytes + 4 * outputChunkSize < 2 ^ 64)
    (hcrossed : cfg.maxOutputBytes < s.counted) (hstep : s.step cfg lossy e = some s') :
    ∃ later', Winding s₀ s' later' := by
  obtain ⟨-, after, hafter, rfl⟩ := step_cases hstep
  obtain ⟨p, e⟩ := e
  obtain ⟨kind, answer, he, hmove⟩ | ⟨he, hkeeps⟩ := PhaseRun.step_output hafter
  · obtain rfl : e = .reader kind answer := he
    exact h.reader_move hbudgeted hmax hcrossed hmove
  · refine ⟨later, h.keep ?_ fun r chunk pc hpc => ?_⟩
    · cases e with
      | reader kind answer => exact absurd rfl (he kind answer)
      | _ => rfl
    · rw [reader_advance] at hpc
      split at hpc
      · rename_i hr
        rcases hkeeps.readers with hreaders | ⟨-, hreaders⟩
        · refine ⟨pc, ?_⟩
          rw [← hpc, hreaders, ← hr]
          rfl
        · rw [hreaders] at hpc
          cases hpc
      · exact ⟨pc, hpc⟩

end

end TaskRun

/-- Every run of a task, with any output in any reads and any interleaving of its
threads, when the budget is so far below `2 ^ 64` that four more chunks can be
counted. The output events on the channel are those of the forwarded chunks, and
these have no more bytes than the budget allows. If the counter has crossed the
budget at some point of the run, then whatever is forwarded after it was counted
before, one chunk from each reader at the most. -/
theorem output_within_budget (cfg : TaskConfig) (lossy : Text → String)
    (channel : Channel ResponseEvent channelCapacity)
    (hmax : cfg.maxOutputBytes + 4 * outputChunkSize < 2 ^ 64)
    {before after : List (BuildPhase × PhaseEvent)} {s s' : TaskRun}
    (hbefore : exec (TaskRun.step cfg lossy) (.initial channel) before = some s)
    (hafter : exec (TaskRun.step cfg lossy) s after = some s') :
    (∀ p, outputs (s'.phases p).channel.placed =
      outputs channel.placed ++ TaskRun.carried lossy s'.forwarded) ∧
    s'.forwardedBytes ≤ cfg.maxOutputBytes ∧
    (cfg.maxOutputBytes < s.counted → ∃ later, s'.forwarded = s.forwarded ++ later ∧
      (later.map Prod.fst).Nodup ∧ ∀ f ∈ later, ∃ pc, s.reader f.1 = .forwarding f.2 pc) := by
  have hs := TaskRun.budgeted_of_exec hmax hbefore
  have hs' : s'.Budgeted cfg lossy channel.placed :=
    exec_invariant_all (fun _ _ _ h hstep => h.step hmax hstep) hs hafter
  refine ⟨hs'.events, ?_, fun hcrossed => ?_⟩
  · have hwithin := hs'.within
    omega
  · have hwound : s'.Budgeted cfg lossy channel.placed ∧ cfg.maxOutputBytes < s'.counted ∧
        ∃ later, TaskRun.Winding s s' later := by
      refine exec_invariant_all (P := fun m => m.Budgeted cfg lossy channel.placed ∧
        cfg.maxOutputBytes < m.counted ∧ ∃ later, TaskRun.Winding s m later) ?_
        ⟨hs, hcrossed, [], .refl s⟩ hafter
      rintro m e m' ⟨hbudgeted, hcrossed, later, hwinding⟩ hstep
      refine ⟨hbudgeted.step hmax hstep, ?_, hwinding.step hbudgeted hmax hcrossed hstep⟩
      obtain ⟨-, next, -, rfl⟩ := TaskRun.step_cases hstep
      exact hcrossed.trans_le (TaskRun.counted_le_advance m e.1 next e.2)
    obtain ⟨-, -, later, hwinding⟩ := hwound
    exact ⟨later, hwinding.forwarded, hwinding.distinct, hwinding.accepted⟩

/-! ### A sample task

A task without a setup command that writes one byte on either stream, with a
budget of one byte.
-/

def tightConfig : TaskConfig := ⟨"bld_0", none, 60000, 1⟩

/-- Both readers have a byte; one is about to forward it, the other one is about
to count it. -/
def bothRead : List (BuildPhase × PhaseEvent) :=
  ([.waiter none, .waiter none, .waiter none, .write .stdout [0x61], .write .stderr [0x62],
    .reader .stdout (.bytes 1), .reader .stdout .eof, .reader .stdout .eof,
    .reader .stderr (.bytes 1)] : List PhaseEvent).map (Prod.mk .run)

/-- The other reader crosses the budget, says so and cancels the task. -/
def crossBudget : List (BuildPhase × PhaseEvent) :=
  ([.reader .stderr .eof, .reader .stderr .eof, .reader .stderr .eof] : List PhaseEvent).map
    (Prod.mk .run)

theorem output_within_budget_tight : ∃ s s',
    exec (TaskRun.step tightConfig fun _ => "a") (.initial .empty) (bothRead ++ crossBudget) =
      some s ∧
    exec (TaskRun.step tightConfig fun _ => "a") s [(.run, .reader .stdout .eof)] = some s' ∧
    s'.forwardedBytes ≤ 1 ∧ s'.forwarded = [((.run, .stdout), [0x61])] := by
  have hrun := @output_within_budget tightConfig (fun _ => "a") .empty (by decide)
    (bothRead ++ crossBudget) [(.run, .reader .stdout .eof)] _ _ rfl rfl
  exact ⟨_, _, rfl, rfl, hrun.2.1, rfl⟩

/-- A byte is forwarded after another reader has crossed the budget, has said so
and has cancelled the task. -/
theorem forwarded_after_crossing :
    ¬ ∀ (cfg : TaskConfig) (lossy : Text → String) (channel : Channel ResponseEvent channelCapacity)
      (before after : List (BuildPhase × PhaseEvent)) (s s' : TaskRun),
      exec (TaskRun.step cfg lossy) (.initial channel) before = some s →
      cfg.maxOutputBytes < s.counted → (s.phases .run).outputExceeded = true →
      (s.phases .run).cancelled = true →
      exec (TaskRun.step cfg lossy) s after = some s' → s'.forwarded = s.forwarded := by
  intro hall
  have hsame := hall tightConfig (fun _ => "a") .empty (bothRead ++ crossBudget)
    [(.run, .reader .stdout .eof)] _ _ rfl (by decide) rfl rfl rfl
  cases hsame

end IndenturedServer.Phases
