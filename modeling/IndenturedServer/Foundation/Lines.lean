import Mathlib

/-!
Texts that come in lines.

A line ends with the separator; the last line of a text may be without one.
-/

namespace IndenturedServer.Foundation

section
variable {α : Type*} [DecidableEq α] (sep : α)

/-- The lines of a text, each with its separator. -/
def splitInclusive : List α → List (List α)
  | [] => []
  | a :: rest =>
    if a = sep then [a] :: splitInclusive rest
    else match splitInclusive rest with
      | [] => [[a]]
      | line :: lines => (a :: line) :: lines

variable {sep}

theorem splitInclusive_eq_nil {text : List α} : splitInclusive sep text = [] ↔ text = [] := by
  cases text with
  | nil => simp [splitInclusive]
  | cons a rest =>
    simp only [splitInclusive, reduceCtorEq, iff_false]
    split
    · simp
    · split <;> simp

/-- How the first element of a text is taken into its first line. -/
theorem splitInclusive_cons_of_ne {a : α} (ha : a ≠ sep) (rest : List α) :
    (rest = [] ∧ splitInclusive sep (a :: rest) = [[a]]) ∨
      ∃ line lines, splitInclusive sep rest = line :: lines ∧
        splitInclusive sep (a :: rest) = (a :: line) :: lines := by
  simp only [splitInclusive, if_neg ha]
  split
  · next hnil => exact .inl ⟨splitInclusive_eq_nil.mp hnil, rfl⟩
  · next line lines hcons => exact .inr ⟨line, lines, hcons, rfl⟩

theorem ne_nil_of_mem_splitInclusive {text line : List α} (h : line ∈ splitInclusive sep text) :
    line ≠ [] := by
  induction text generalizing line with
  | nil => simp [splitInclusive] at h
  | cons a rest ih =>
    by_cases ha : a = sep
    · rw [splitInclusive, if_pos ha, List.mem_cons] at h
      obtain rfl | h := h
      · simp
      · exact ih h
    · obtain ⟨-, hsplit⟩ | ⟨first, lines, hrest, hsplit⟩ := splitInclusive_cons_of_ne ha rest
      · rw [hsplit, List.mem_singleton] at h
        simp [h]
      · rw [hsplit, List.mem_cons] at h
        obtain rfl | h := h
        · simp
        · exact ih (hrest ▸ List.mem_cons_of_mem _ h)

/-- Only the last line can be without its separator. -/
theorem getLast?_of_mem_splitInclusive_dropLast {text line : List α}
    (h : line ∈ (splitInclusive sep text).dropLast) : line.getLast? = some sep := by
  induction text generalizing line with
  | nil => simp [splitInclusive] at h
  | cons a rest ih =>
    by_cases ha : a = sep
    · rw [splitInclusive, if_pos ha] at h
      cases hrest : splitInclusive sep rest with
      | nil => simp [hrest] at h
      | cons first lines =>
        rw [hrest, List.dropLast_cons_cons, List.mem_cons] at h
        obtain rfl | h := h
        · simp [ha]
        · exact ih (hrest ▸ h)
    · obtain ⟨-, hsplit⟩ | ⟨first, lines, hrest, hsplit⟩ := splitInclusive_cons_of_ne ha rest
      · simp [hsplit] at h
      · rw [hsplit] at h
        cases lines with
        | nil => simp at h
        | cons second lines =>
          rw [List.dropLast_cons_cons, List.mem_cons] at h
          have hfirst : first.getLast? = some sep := by
            refine ih ?_
            rw [hrest, List.dropLast_cons_cons]
            exact List.mem_cons_self
          obtain rfl | h := h
          · rw [List.getLast?_cons, hfirst]
            rfl
          · refine ih ?_
            rw [hrest, List.dropLast_cons_cons]
            exact List.mem_cons_of_mem _ h

end

end IndenturedServer.Foundation
