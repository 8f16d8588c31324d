import Mathlib

/-!
Bounded channels with one receiver.

A `Channel α n` queues at most `n` values. Beside the queue it keeps its
history: what has been placed in it and what the receiver has taken out of
it. That the queue is within its bound, and that an open channel hands its
values over in order and without loss, are fields of the structure; every
operation has to prove them, and its users can rely on them.
-/

namespace IndenturedServer.Foundation

inductive TrySendError
  | full
  | closed
  deriving DecidableEq, Repr

structure Channel (α : Type*) (n : Nat) where
  queue : List α
  placed : List α
  taken : List α
  /-- The receiver is gone. -/
  closed : Bool
  bounded : queue.length ≤ n
  ordered : closed = false → placed = taken ++ queue

namespace Channel

variable {α : Type*} {n : Nat}

def empty : Channel α n := ⟨[], [], [], false, Nat.zero_le n, fun _ => rfl⟩

/-- One attempt to place a value, without waiting. -/
def trySend (c : Channel α n) (x : α) : Except TrySendError (Channel α n) :=
  if hopen : c.closed = false then
    if hroom : c.queue.length < n then
      .ok {
        queue := c.queue ++ [x]
        placed := c.placed ++ [x]
        taken := c.taken
        closed := false
        bounded := by
          rw [List.length_append]
          exact hroom
        ordered := fun _ => by rw [c.ordered hopen, List.append_assoc] }
    else .error .full
  else .error .closed

/-- The receiver takes the oldest value, if there is one. -/
def tryRecv (c : Channel α n) : Option (α × Channel α n) :=
  match hqueue : c.queue with
  | [] => none
  | x :: rest =>
    some (x, {
      queue := rest
      placed := c.placed
      taken := c.taken ++ [x]
      closed := c.closed
      bounded := by
        have hlength := c.bounded
        rw [hqueue, List.length_cons] at hlength
        omega
      ordered := fun hopen => by
        rw [c.ordered hopen, hqueue, List.append_assoc, List.singleton_append] })

/-- The receiver is dropped, and what it had not taken with it. -/
def close (c : Channel α n) : Channel α n :=
  ⟨[], c.placed, c.taken, true, Nat.zero_le n, by rintro ⟨⟩⟩

variable {c c' : Channel α n} {x : α}

theorem trySend_ok (h : c.trySend x = .ok c') :
    c'.placed = c.placed ++ [x] ∧ c'.closed = c.closed := by
  unfold trySend at h
  split at h
  · rename_i hopen
    split at h <;> cases h
    exact ⟨rfl, hopen.symm⟩
  · cases h

theorem trySend_of_room (hopen : c.closed = false) (hroom : c.queue.length < n) (x : α) :
    ∃ c', c.trySend x = .ok c' := by
  simp [trySend, hopen, hroom]

theorem closed_of_trySend (h : c.trySend x = .error .closed) : c.closed = true := by
  by_contra hopen
  unfold trySend at h
  rw [dif_pos (Bool.eq_false_iff.mpr hopen)] at h
  split at h <;> cases h

theorem tryRecv_some (h : c.tryRecv = some (x, c')) :
    c'.placed = c.placed ∧ c'.closed = c.closed := by
  unfold tryRecv at h
  split at h <;> cases h
  exact ⟨rfl, rfl⟩

theorem tryRecv_taken (h : c.tryRecv = some (x, c')) : c'.taken = c.taken ++ [x] := by
  unfold tryRecv at h
  split at h <;> cases h
  rfl

theorem tryRecv_eq_none : c.tryRecv = none ↔ c.queue = [] := by
  unfold tryRecv
  split
  · rename_i hqueue
    simp [hqueue]
  · rename_i hqueue
    simp [hqueue]

theorem trySend_taken (h : c.trySend x = .ok c') : c.closed = false ∧ c'.taken = c.taken := by
  unfold trySend at h
  split at h
  · rename_i hopen
    split at h <;> cases h
    exact ⟨hopen, rfl⟩
  · cases h

end Channel

end IndenturedServer.Foundation
