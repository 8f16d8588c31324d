import IndenturedServer.Foundation.Lines

/-!
The line limit of the client's output.

A `LineLimiter` is fed with the chunks of one stream. It prints the first
`max_lines` lines, says once that it suppresses the others, and keeps the last
`tail_lines` of them for the summary. A chunk may end anywhere in a line, so the
limiter remembers whether it is inside one.

Texts are lists of characters, and the writer is what has been written to it.
-/

namespace IndenturedServer.Client

open Foundation List

abbrev Str := List Char

def outputPrefix : String := "[indentured-server]"

structure LineLimiter where
  label : String
  envVar : String
  maxLines : Option Nat
  tailLines : Nat
  printedLines : Nat := 0
  suppressedLines : Nat := 0
  atLineStart : Bool := true
  currentLineAllowed : Bool := true
  suppressionNotified : Bool := false
  suppressedLine : Str := []
  tailBuffer : List Str := []
  logPath : Option String := none
  deriving DecidableEq, Repr

namespace LineLimiter

def new (label envVar : String) (maxLines : Option Nat) (tailLines : Nat) : LineLimiter where
  label := label
  envVar := envVar
  maxLines := maxLines
  tailLines := tailLines

def suppressionNotice (l : LineLimiter) : Str :=
  match l.logPath with
  | some path =>
    (outputPrefix ++ " suppressing " ++ l.label ++ " output due to limits (full log: " ++ path ++
      ")\n").toList
  | none =>
    (outputPrefix ++ " suppressing " ++ l.label ++
      " output due to limits (increase output lines with " ++ l.envVar ++ "=<lines>)\n").toList

def pushTailLine (l : LineLimiter) : LineLimiter :=
  if l.tailLines = 0 then l
  else
    let buffer := l.tailBuffer ++ [l.suppressedLine]
    { l with tailBuffer := if l.tailLines < buffer.length then buffer.tail else buffer }

def finishLine (l : LineLimiter) : LineLimiter :=
  let l :=
    if l.currentLineAllowed then { l with printedLines := l.printedLines + 1 }
    else { l with suppressedLines := l.suppressedLines + 1 }.pushTailLine
  { l with suppressedLine := [], atLineStart := true }

/-- What happens at the start of a line, and what is printed for it. -/
def beginLine (l : LineLimiter) : LineLimiter × Str :=
  if l.atLineStart then
    let allowed := (l.maxLines.map fun max => decide (l.printedLines < max)).getD true
    if !allowed && !l.suppressionNotified then
      ({ l with currentLineAllowed := allowed, atLineStart := false, suppressionNotified := true },
        l.suppressionNotice)
    else ({ l with currentLineAllowed := allowed, atLineStart := false }, [])
  else (l, [])

def takeSegment (segment : Str) (l : LineLimiter) : LineLimiter × Str :=
  if l.currentLineAllowed then (l, segment)
  else if 0 < l.tailLines then ({ l with suppressedLine := l.suppressedLine ++ segment }, [])
  else (l, [])

/-- What is written next is printed behind what was printed. -/
def andThen (first : LineLimiter × Str) (next : LineLimiter → LineLimiter × Str) :
    LineLimiter × Str :=
  ((next first.1).1, first.2 ++ (next first.1).2)

/-- One turn of the loop in `write_chunk`. -/
def writeSegment (segment : Str) (l : LineLimiter) : LineLimiter × Str :=
  let (l, printed) := andThen l.beginLine (takeSegment segment)
  (if segment.getLast? = some '\n' then l.finishLine else l, printed)

def writeSegments : List Str → LineLimiter → LineLimiter × Str
  | [], l => (l, [])
  | segment :: rest, l => andThen (l.writeSegment segment) (writeSegments rest)

def writeChunk (data : Str) (l : LineLimiter) : LineLimiter × Str :=
  if l.maxLines.isNone then (l, data) else l.writeSegments (splitInclusive '\n' data)

def writeChunks : List Str → LineLimiter → LineLimiter × Str
  | [], l => (l, [])
  | chunk :: rest, l => andThen (l.writeChunk chunk) (writeChunks rest)

def finish (l : LineLimiter) : LineLimiter :=
  if l.maxLines.isNone then l
  else if !l.atLineStart then l.finishLine else l

def writeSummary (l : LineLimiter) (label : String) : Str :=
  if l.maxLines.isNone || l.suppressedLines = 0 then []
  else
    (outputPrefix ++ " " ++ toString l.suppressedLines ++ " more " ++ label ++
      " lines suppressed\n").toList ++ l.tailBuffer.flatten

/-! ### Chunks -/

theorem andThen_assoc (p : LineLimiter × Str) (f g : LineLimiter → LineLimiter × Str) :
    andThen (andThen p f) g = andThen p fun l => andThen (f l) g := by
  simp [andThen]

variable {segment : Str}

section
variable (l : LineLimiter)

@[simp] theorem maxLines_pushTailLine : l.pushTailLine.maxLines = l.maxLines := by
  unfold pushTailLine
  split <;> rfl

@[simp] theorem maxLines_finishLine : l.finishLine.maxLines = l.maxLines := by
  simp only [finishLine]
  split <;> simp

@[simp] theorem maxLines_beginLine : l.beginLine.1.maxLines = l.maxLines := by
  simp only [beginLine]
  split_ifs <;> rfl

@[simp] theorem maxLines_takeSegment (segment : Str) :
    (l.takeSegment segment).1.maxLines = l.maxLines := by
  simp only [takeSegment]
  split_ifs <;> rfl

theorem maxLines_writeSegment (segment : Str) :
    (l.writeSegment segment).1.maxLines = l.maxLines := by
  simp only [writeSegment, andThen]
  split_ifs <;> simp

theorem maxLines_writeSegments (segments : List Str) :
    (l.writeSegments segments).1.maxLines = l.maxLines := by
  induction segments generalizing l with
  | nil => rfl
  | cons segment rest ih => simp only [writeSegments, andThen, ih, maxLines_writeSegment]

theorem atLineStart_beginLine : l.beginLine.1.atLineStart = false := by
  simp only [beginLine]
  split_ifs <;> simp_all

theorem atLineStart_takeSegment (segment : Str) :
    (l.takeSegment segment).1.atLineStart = l.atLineStart := by
  simp only [takeSegment]
  split_ifs <;> rfl

theorem takeSegment_append (first second : Str) :
    l.takeSegment (first ++ second) = andThen (l.takeSegment first) (takeSegment second) := by
  simp only [takeSegment, andThen]
  split_ifs <;> simp_all

/-- A character that does not end a line may be written on its own. -/
theorem writeSegment_cons {c : Char} (hc : c ≠ '\n') (hsegment : segment ≠ []) :
    l.writeSegment (c :: segment) = andThen (l.writeSegment [c]) (writeSegment segment) := by
  have hfirst : l.writeSegment [c] = andThen l.beginLine (takeSegment [c]) := by
    simp [writeSegment, hc]
  have hstarted : (l.writeSegment [c]).1.beginLine = ((l.writeSegment [c]).1, []) := by
    have hinside : (l.writeSegment [c]).1.atLineStart = false := by
      rw [hfirst]
      exact (atLineStart_takeSegment _ _).trans l.atLineStart_beginLine
    simp [beginLine, hinside]
  have hlast : (c :: segment).getLast? = segment.getLast? := by
    rw [getLast?_cons, getLast?_eq_some_getLast hsegment]
    rfl
  have hwhole : andThen l.beginLine (takeSegment (c :: segment)) =
      andThen (l.writeSegment [c]) (takeSegment segment) := by
    rw [hfirst, andThen_assoc]
    simp only [← takeSegment_append, singleton_append]
  rw [writeSegment, hwhole, hlast]
  generalize l.writeSegment [c] = first at hstarted
  simp [andThen, writeSegment, hstarted]

/-- A text may be written one character at a time. -/
theorem writeSegments_cons (c : Char) (rest : Str) :
    l.writeSegments (splitInclusive '\n' (c :: rest)) =
      andThen (l.writeSegment [c]) (writeSegments (splitInclusive '\n' rest)) := by
  by_cases hc : c = '\n'
  · rw [splitInclusive, if_pos hc]
    rfl
  · obtain ⟨rfl, hsplit⟩ | ⟨line, lines, hrest, hsplit⟩ := splitInclusive_cons_of_ne hc rest
    · rw [hsplit]
      rfl
    · have hline : line ≠ [] := ne_nil_of_mem_splitInclusive (hrest ▸ mem_cons_self)
      rw [hsplit, hrest, writeSegments, writeSegment_cons l hc hline, andThen_assoc]
      rfl

theorem writeSegments_append (first second : Str) :
    l.writeSegments (splitInclusive '\n' (first ++ second)) =
      andThen (l.writeSegments (splitInclusive '\n' first))
        (writeSegments (splitInclusive '\n' second)) := by
  induction first generalizing l with
  | nil => simp [splitInclusive, writeSegments, andThen]
  | cons c rest ih =>
    rw [cons_append, writeSegments_cons, writeSegments_cons, andThen_assoc]
    congr 1
    ext l' : 1
    exact ih l'

/-- The chunks are written as the text that they make up. -/
theorem writeChunks_eq {m : Nat} (hmax : l.maxLines = some m) (chunks : List Str) :
    l.writeChunks chunks = l.writeSegments (splitInclusive '\n' chunks.flatten) := by
  induction chunks generalizing l with
  | nil => rfl
  | cons chunk rest ih =>
    have hchunk : l.writeChunk chunk = l.writeSegments (splitInclusive '\n' chunk) := by
      simp [writeChunk, hmax]
    have hnext := ih (l.writeChunk chunk).1 (by rw [hchunk, maxLines_writeSegments, hmax])
    rw [flatten_cons, writeSegments_append, ← hchunk]
    simp only [writeChunks, andThen, hnext]

end

/-! ### Lines -/

section
variable {l : LineLimiter} {m t : Nat} {notice : Str} {lines : List Str}

structure Behind (m t : Nat) (notice : Str) (lines : List Str) (l : LineLimiter) : Prop where
  maxLines : l.maxLines = some m
  tailLines : l.tailLines = t
  printedLines : l.printedLines = min m lines.length
  suppressedLines : l.suppressedLines = lines.length - m
  atLineStart : l.atLineStart = true
  suppressionNotified : l.suppressionNotified = decide (m < lines.length)
  suppressedLine : l.suppressedLine = []
  tailBuffer : l.tailBuffer = lines.drop (max m (lines.length - t))
  suppressionNotice : l.suppressionNotice = notice

def printedOf (m : Nat) (notice : Str) (lines : List Str) : Str :=
  (lines.take m).flatten ++ if m < lines.length then notice else []

/-- `finish` ends the line that a segment is on, if the segment has not done so. -/
theorem finish_writeSegment (hmax : l.maxLines = some m) (segment : Str) :
    (l.writeSegment segment).1.finish =
      (andThen l.beginLine (takeSegment segment)).1.finishLine := by
  have hinside : (andThen l.beginLine (takeSegment segment)).1.atLineStart = false :=
    (atLineStart_takeSegment _ _).trans l.atLineStart_beginLine
  have hmax' : (andThen l.beginLine (takeSegment segment)).1.maxLines = some m := by
    simp [andThen, hmax]
  simp only [writeSegment]
  split
  · simp [finish, finishLine]
  · simp [finish, hmax', hinside]

/-- The notice is printed at the start of the first line that is too many. -/
theorem Behind.beginLine (h : Behind m t notice lines l) : l.beginLine = ({ l with
        currentLineAllowed := decide (lines.length < m)
        atLineStart := false
        suppressionNotified := decide (m ≤ lines.length) },
      if lines.length = m then notice else []) := by
  have hallowed : min m lines.length < m ↔ lines.length < m := by omega
  simp only [LineLimiter.beginLine, h.atLineStart, if_true, h.maxLines, h.printedLines,
    h.suppressionNotified, h.suppressionNotice, Option.map_some, Option.getD_some, hallowed]
  obtain hlt | rfl | hgt := Nat.lt_trichotomy lines.length m
  · have hne : lines.length ≠ m := by omega
    have hnot : ¬ m < lines.length := by omega
    have hnot' : ¬ m ≤ lines.length := by omega
    simp [hlt, hne, hnot, hnot']
  · simp
  · have hne : lines.length ≠ m := by omega
    have hle : m ≤ lines.length := by omega
    simp [hgt, hne, hle]

theorem Behind.taken (h : Behind m t notice lines l) (segment : Str) :
    andThen l.beginLine (takeSegment segment) = ({ l with
        currentLineAllowed := decide (lines.length < m)
        atLineStart := false
        suppressionNotified := decide (m ≤ lines.length)
        suppressedLine := if lines.length < m ∨ t = 0 then [] else segment },
      if lines.length < m then segment else if lines.length = m then notice else []) := by
  rw [h.beginLine]
  simp only [andThen, takeSegment, h.tailLines, h.suppressedLine, nil_append]
  by_cases hlt : lines.length < m
  · have hne : lines.length ≠ m := by omega
    simp [hlt, hne]
  · obtain rfl | ht := Nat.eq_zero_or_pos t
    · simp [hlt]
    · have ht' : t ≠ 0 := by omega
      simp [hlt, ht, ht']

theorem pushTailLine_eq (l : LineLimiter) : l.pushTailLine = { l with
        tailBuffer :=
          if l.tailLines = 0 then l.tailBuffer
          else if l.tailLines < (l.tailBuffer ++ [l.suppressedLine]).length then
            (l.tailBuffer ++ [l.suppressedLine]).tail
          else l.tailBuffer ++ [l.suppressedLine] } := by
  unfold pushTailLine
  split <;> rfl

/-- The tail moves on by one line once it is full. -/
theorem drop_tail (lines : List Str) (segment : Str) (hm : m ≤ lines.length) (ht : 0 < t) :
    (if t < (lines.drop (max m (lines.length - t)) ++ [segment]).length then
      (lines.drop (max m (lines.length - t)) ++ [segment]).tail
    else lines.drop (max m (lines.length - t)) ++ [segment]) =
      (lines ++ [segment]).drop (max m (lines.length + 1 - t)) := by
  have hle : max m (lines.length - t) ≤ lines.length := by omega
  rw [← drop_append_of_le_length hle, tail_drop, length_drop, length_append, length_singleton]
  split
  · congr 1
    omega
  · congr 1
    omega

theorem Behind.line (h : Behind m t notice lines l) (segment : Str) :
    Behind m t notice (lines ++ [segment]) (l.writeSegment segment).1.finish := by
  rw [finish_writeSegment h.maxLines, h.taken]
  have hlength : (lines ++ [segment]).length = lines.length + 1 := by simp
  by_cases hlt : lines.length < m
  · have hdrop : lines.length + 1 ≤ max m (lines.length + 1 - t) := by omega
    have hempty : l.tailBuffer = [] := by
      rw [h.tailBuffer]
      exact drop_eq_nil_of_le (by omega)
    simp only [finishLine, hlt, decide_true, if_true, true_or]
    refine ⟨h.maxLines, h.tailLines, ?_, ?_, rfl, ?_, rfl, ?_, h.suppressionNotice⟩
    · show l.printedLines + 1 = _
      rw [h.printedLines, hlength]
      omega
    · show l.suppressedLines = _
      rw [h.suppressedLines, hlength]
      omega
    · rw [hlength]
      exact decide_eq_decide.mpr (by omega)
    · show l.tailBuffer = _
      rw [hempty, hlength, drop_eq_nil_of_le (by omega)]
  · have hm : m ≤ lines.length := by omega
    simp only [finishLine, hlt, hm, decide_false, decide_true, Bool.false_eq_true, if_false,
      false_or]
    rw [pushTailLine_eq]
    refine ⟨h.maxLines, h.tailLines, ?_, ?_, rfl, ?_, rfl, ?_, h.suppressionNotice⟩
    · show l.printedLines = _
      rw [h.printedLines, hlength]
      omega
    · show l.suppressedLines + 1 = _
      rw [h.suppressedLines, hlength]
      omega
    · rw [hlength]
      exact (decide_eq_true (by omega)).symm
    · show (if l.tailLines = 0 then l.tailBuffer else _) = _
      rw [h.tailLines, h.tailBuffer, hlength]
      obtain rfl | ht := Nat.eq_zero_or_pos t
      · rw [if_pos rfl, drop_eq_nil_of_le (by omega), drop_eq_nil_of_le (by omega)]
      · have ht' : t ≠ 0 := by omega
        simpa only [if_neg ht'] using drop_tail lines segment hm ht

theorem Behind.printed (h : Behind m t notice lines l) (segment : Str) :
    printedOf m notice lines ++ (l.writeSegment segment).2 =
      printedOf m notice (lines ++ [segment]) := by
  have hprinted : (l.writeSegment segment).2 = (andThen l.beginLine (takeSegment segment)).2 := rfl
  rw [hprinted, h.taken]
  simp only [printedOf, length_append, length_singleton, append_assoc]
  obtain hlt | rfl | hgt := Nat.lt_trichotomy lines.length m
  · have hnot : ¬ m < lines.length := by omega
    have hnot' : ¬ m < lines.length + 1 := by omega
    have htake : (lines ++ [segment]).take m = lines ++ [segment] :=
      take_of_length_le (by simp; omega)
    rw [htake, take_of_length_le (by omega)]
    simp [hlt, hnot, hnot']
  · simp
  · have hnot : ¬ lines.length < m := by omega
    have hne : lines.length ≠ m := by omega
    have hmore : m < lines.length + 1 := by omega
    rw [take_append_of_le_length (by omega)]
    simp [hgt, hnot, hne, hmore]

/-- A line that ends itself leaves nothing for `finish`. -/
theorem finish_of_newline (hends : segment.getLast? = some '\n') :
    (l.writeSegment segment).1.finish = (l.writeSegment segment).1 := by
  simp [writeSegment, hends, finish, finishLine]

/-- The induction is on the lines that are still to be written. Every line but
the last ends itself, so that `finish` changes nothing behind it. -/
theorem Behind.text (h : Behind m t notice lines l) (more : List Str)
    (hends : ∀ line ∈ more.dropLast, line.getLast? = some '\n') :
    Behind m t notice (lines ++ more) (l.writeSegments more).1.finish ∧
      printedOf m notice lines ++ (l.writeSegments more).2 =
        printedOf m notice (lines ++ more) := by
  induction more generalizing lines l with
  | nil =>
    have hfinish : l.finish = l := by simp [finish, h.atLineStart]
    simpa [writeSegments, hfinish] using h
  | cons segment rest ih =>
    cases rest with
    | nil => simpa [writeSegments, andThen] using ⟨h.line segment, h.printed segment⟩
    | cons second rest =>
      have hline := h.line segment
      rw [finish_of_newline (hends segment (by simp))] at hline
      have hrest := ih hline fun line hmem => hends line (by simp [hmem])
      rw [← h.printed segment, append_assoc, append_assoc] at hrest
      simpa [writeSegments, andThen] using hrest

end

/-- The first lines are printed as they are, the notice stands where the next one
would start, and the summary has the number of the others and the last of them. -/
theorem limiter_prints (label envVar summaryLabel : String) (logPath : Option String) (m t : Nat)
    (chunks : List Str) :
    let l := { new label envVar (some m) t with logPath := logPath }
    let lines := splitInclusive '\n' chunks.flatten
    let n := lines.length
    let written := l.writeChunks chunks
    written.2 = (lines.take m).flatten ++ (if m < n then l.suppressionNotice else []) ∧
      written.1.finish.writeSummary summaryLabel =
        if m < n then
          (outputPrefix ++ " " ++ toString (n - m) ++ " more " ++ summaryLabel ++
            " lines suppressed\n").toList ++ (lines.drop (n - min t (n - m))).flatten
        else [] := by
  intro l lines n written
  have hwritten : written = l.writeSegments lines := writeChunks_eq l rfl chunks
  have hstart : Behind m t l.suppressionNotice [] l :=
    ⟨rfl, rfl, by simp [l, new], by simp [l, new], rfl, by simp [l, new], rfl, by simp [l, new], rfl⟩
  obtain ⟨hbehind, hprinted⟩ :=
    hstart.text lines fun line hline => getLast?_of_mem_splitInclusive_dropLast hline
  rw [List.nil_append, ← hwritten] at hbehind hprinted
  refine ⟨?_, ?_⟩
  · simpa [printedOf] using hprinted
  · have hcount : lines.length - m = 0 ↔ ¬ m < n := by omega
    have htail : m < n → max m (lines.length - t) = n - min t (n - m) := by omega
    simp only [writeSummary, hbehind.maxLines, hbehind.suppressedLines, hbehind.tailBuffer,
      Option.isNone_some, Bool.false_or, decide_eq_true_eq, hcount]
    by_cases hmore : m < n
    · simp only [hmore, not_true_eq_false, if_false, if_true, htail]
      rfl
    · simp only [hmore, not_false_eq_true, if_true, if_false]

/-- A text of three lines and a limit of one line, with a chunk that ends in a
line. -/
example :
    let l := new "stdout" "X" (some 1) 1
    let written := l.writeChunks ["a\nb".toList, "b\nc".toList]
    written.2 = "a\n".toList ++ l.suppressionNotice ∧
      written.1.finish.writeSummary "stdout" =
        "[indentured-server] 2 more stdout lines suppressed\nc".toList := by
  decide +kernel

end LineLimiter

end IndenturedServer.Client
