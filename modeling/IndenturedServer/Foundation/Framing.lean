import IndenturedServer.Foundation.Program

/-!
Lines that arrive in chunks.

The reader keeps what has arrived of a line that is not complete yet. When a
chunk arrives it takes the complete lines out of its buffer, one after the other,
and what is done with a line may fail. When a line has brought the reader to its
end, the rest is left to `close`.

The chunks do not matter as long as the last line that is read is the last thing
that arrives (`run_eq`).
-/

namespace IndenturedServer.Foundation

section
variable {α : Type} [DecidableEq α] (sep : α)

/-- The complete lines of a buffer, without their separators, and what is left in
it. -/
def drainLines : List α → List (List α) × List α
  | [] => ([], [])
  | a :: rest =>
    if a = sep then ([] :: (drainLines rest).1, (drainLines rest).2)
    else match (drainLines rest).1 with
      | [] => ([], a :: (drainLines rest).2)
      | line :: lines => ((a :: line) :: lines, (drainLines rest).2)

variable {sep}

theorem drainLines_sep (rest : List α) :
    drainLines sep (sep :: rest) = ([] :: (drainLines sep rest).1, (drainLines sep rest).2) := by
  simp [drainLines]

variable {a : α} {rest : List α}

theorem drainLines_cons_of_nil (ha : a ≠ sep) (h : (drainLines sep rest).1 = []) :
    drainLines sep (a :: rest) = ([], a :: (drainLines sep rest).2) := by
  simp [drainLines, ha, h]

theorem drainLines_cons_of_cons (ha : a ≠ sep) {line : List α} {lines : List (List α)}
    (h : (drainLines sep rest).1 = line :: lines) :
    drainLines sep (a :: rest) = ((a :: line) :: lines, (drainLines sep rest).2) := by
  simp [drainLines, ha, h]

theorem drainLines_append (first second : List α) : drainLines sep (first ++ second) =
      ((drainLines sep first).1 ++ (drainLines sep ((drainLines sep first).2 ++ second)).1,
        (drainLines sep ((drainLines sep first).2 ++ second)).2) := by
  induction first with
  | nil => simp [drainLines]
  | cons a rest ih =>
    rw [List.cons_append]
    by_cases ha : a = sep
    · subst ha
      rw [drainLines_sep, drainLines_sep, ih]
      rfl
    · cases hrest : (drainLines sep rest).1 with
      | nil =>
        rw [hrest, List.nil_append] at ih
        rw [drainLines_cons_of_nil ha hrest, List.cons_append, List.nil_append]
        cases hsecond : (drainLines sep ((drainLines sep rest).2 ++ second)).1 with
        | nil =>
          rw [drainLines_cons_of_nil ha hsecond,
            drainLines_cons_of_nil ha (by rw [ih]; exact hsecond), ih]
        | cons line lines =>
          rw [drainLines_cons_of_cons ha hsecond,
            drainLines_cons_of_cons ha (by rw [ih]; exact hsecond), ih]
      | cons line lines =>
        rw [hrest] at ih
        rw [drainLines_cons_of_cons ha hrest,
          drainLines_cons_of_cons ha (by rw [ih]; exact List.cons_append), ih]
        rfl

theorem drainLines_line {line : List α} (hline : sep ∉ line) (rest : List α) :
    drainLines sep (line ++ sep :: rest) =
      (line :: (drainLines sep rest).1, (drainLines sep rest).2) := by
  induction line with
  | nil => exact drainLines_sep rest
  | cons a line ih =>
    rw [List.mem_cons, not_or] at hline
    rw [List.cons_append, drainLines_cons_of_cons (Ne.symm hline.1) (by rw [ih hline.2]),
      ih hline.2]

theorem drainLines_left (text : List α) :
    drainLines sep (drainLines sep text).2 = ([], (drainLines sep text).2) := by
  induction text with
  | nil => rfl
  | cons a rest ih =>
    by_cases ha : a = sep
    · subst ha
      rw [drainLines_sep]
      exact ih
    · cases hrest : (drainLines sep rest).1 with
      | nil =>
        rw [drainLines_cons_of_nil ha hrest, drainLines_cons_of_nil ha (by rw [ih]), ih]
      | cons line lines =>
        rw [drainLines_cons_of_cons ha hrest]
        exact ih

theorem length_drainLines_left_le (sep : α) (text : List α) :
    (drainLines sep text).2.length ≤ text.length := by
  induction text with
  | nil => exact Nat.le_refl _
  | cons a rest ih =>
    simp only [drainLines]
    split
    · exact Nat.le_succ_of_le ih
    · split
      · exact Nat.succ_le_succ ih
      · exact Nat.le_succ_of_le ih

theorem eq_nil_of_drainLines {text : List α} (h : drainLines sep text = ([], [])) : text = [] := by
  cases text with
  | nil => rfl
  | cons a rest =>
    simp only [drainLines] at h
    split at h
    · simp at h
    · split at h <;> simp at h

end

/-! ### Readers -/

/-- How a stream of chunks is read in lines. -/
structure LineReader (α δ ε σ : Type) where
  sep : α
  /-- The buffer may not be longer than this. -/
  limit : Nat
  tooLong : ε
  /-- The stream has failed. -/
  lost : δ → ε
  line : List α → EStateM ε σ Unit
  done : σ → Bool
  /-- What is made of the rest of the buffer and of the stream when the reader is
  done. -/
  close : List α → List (Except δ (List α)) → EStateM ε σ Unit

namespace LineReader

variable {α δ ε σ : Type} [DecidableEq α] (r : LineReader α δ ε σ)

/-- A chunk arrives; the value is what is left in the buffer. -/
def feed (pending chunk : List α) : EStateM ε σ (List α) :=
  if r.limit < (pending ++ chunk).length then throw r.tooLong
  else do
    forM (drainLines r.sep (pending ++ chunk)).1 r.line
    return (drainLines r.sep (pending ++ chunk)).2

def run : List (Except δ (List α)) → List α → EStateM ε σ Unit
  | [], _ => return ()
  | .error e :: _, _ => throw (r.lost e)
  | .ok chunk :: rest, pending => do
      let left ← r.feed pending chunk
      if r.done (← get) then r.close left rest else run rest left

/-- The buffer stays within its limit. -/
def Fits : List α → List (List α) → Prop
  | _, [] => True
  | pending, chunk :: rest =>
    (pending ++ chunk).length ≤ r.limit ∧ Fits (drainLines r.sep (pending ++ chunk)).2 rest

/-- A stream that is short enough fits in any chunks. -/
theorem fits_of_length (chunks : List (List α)) (pending : List α)
    (h : (pending ++ chunks.flatten).length ≤ r.limit) : r.Fits pending chunks := by
  induction chunks generalizing pending with
  | nil => trivial
  | cons chunk rest ih =>
    have hleft := length_drainLines_left_le r.sep (pending ++ chunk)
    simp only [List.flatten_cons, List.length_append] at h hleft
    refine ⟨by rw [List.length_append]; omega, ih _ ?_⟩
    rw [List.length_append]
    omega

/-- From this state, nothing follows the line that brings the reader to its end. -/
def NothingFollows (s : σ) (text : List α) : Prop :=
  ∀ first rest, (drainLines r.sep text).1 = first ++ rest →
    ∀ s', forM first r.line s = .ok () s' → r.done s' = true →
      rest = [] ∧ (drainLines r.sep text).2 = []

/-- A stream that has nothing more is closed without a word. -/
def ClosesQuietly : Prop :=
  ∀ chunks : List (List α), chunks.flatten = [] →
    r.close [] (chunks.map .ok) = pure ()

variable {r}

/-- The induction is on the chunks; the buffer holds the start of a line. -/
theorem run_eq (hquiet : r.ClosesQuietly) (chunks : List (List α)) (pending : List α) (s : σ)
    (hpending : (drainLines r.sep pending).1 = []) (hfits : r.Fits pending chunks)
    (hfinal : r.NothingFollows s (pending ++ chunks.flatten)) :
    r.run (chunks.map .ok) pending s =
      forM (drainLines r.sep (pending ++ chunks.flatten)).1 r.line s := by
  induction chunks generalizing pending s with
  | nil =>
    rw [List.flatten_nil, List.append_nil, hpending]
    rfl
  | cons chunk rest ih =>
    obtain ⟨hlimit, hfits⟩ := hfits
    rw [List.flatten_cons, ← List.append_assoc] at hfinal ⊢
    have hsplit : drainLines r.sep (pending ++ chunk ++ rest.flatten) = _ :=
      drainLines_append (pending ++ chunk) rest.flatten
    have hleft : drainLines r.sep (drainLines r.sep (pending ++ chunk)).2 = _ := drainLines_left _
    generalize hdrained : drainLines r.sep (pending ++ chunk) = drained at hsplit hfits hleft
    obtain ⟨lines, left⟩ := drained
    simp only [hsplit, List.map_cons, run, feed, hdrained, if_neg (Nat.not_lt.mpr hlimit),
      List.forM_append, bind_assoc, pure_bind]
    cases hlines : forM lines r.line s with
    | error e s' => rw [bind_of_error hlines, bind_of_error hlines]
    | ok u s' =>
      rw [bind_of_ok hlines, bind_of_ok hlines]
      by_cases hdone : r.done s' = true
      · -- the reader is done: the other chunks are empty
        obtain ⟨hlast, hempty⟩ := hfinal lines _ (by rw [hsplit]) s' hlines hdone
        rw [hsplit] at hempty
        have hnothing : left ++ rest.flatten = [] := eq_nil_of_drainLines (Prod.ext hlast hempty)
        obtain ⟨rfl, hrest⟩ := List.append_eq_nil_iff.mp hnothing
        simp only [hlast, hquiet rest hrest]
        show (if r.done s' = true then (pure () : EStateM ε σ Unit) else _) s' = _
        rw [if_pos hdone]
        rfl
      · show (if r.done s' = true then _ else r.run (rest.map .ok) left) s' = _
        rw [if_neg hdone]
        refine ih left s' (by rw [hleft]) hfits fun first others hothers s'' hfirst => ?_
        have hfirst' : forM (lines ++ first) r.line s = .ok () s'' := by
          rw [List.forM_append, bind_of_ok hlines, hfirst]
        have hnext := hfinal (lines ++ first) others (by rw [hsplit, hothers, List.append_assoc])
          s'' hfirst'
        rwa [hsplit] at hnext

end LineReader

end IndenturedServer.Foundation
