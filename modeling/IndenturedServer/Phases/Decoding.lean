import IndenturedServer.Artifacts.Utf8
import IndenturedServer.Phases.Output

/-!
The text of the output.

`stream_output` decodes what one `read` returns and sends it as one event. The
bytes of a character that two reads share are decoded on their own, on both
sides, and come out as replacement characters. `spawn_output_drain` does the
same with what a service writes before it is ready.

`output_preserved_iff` says for which reads the events spell the output: those
that are UTF-8 one by one.
-/

namespace IndenturedServer.Phases

open Foundation Source
open Artifacts (fromUtf8Lossy)

/-! ### The output of a phase -/

/-- What a turn of the loop in `stream_output` meets. -/
structure Turn where
  /-- The bytes that other readers have counted since the last turn. -/
  others : Nat
  /-- What `read` returns, and nothing for an error. -/
  read : Option Text
  /-- Whether `forward_output` has placed the event. -/
  forwarded : Bool
  deriving DecidableEq, Repr

/-- What `stream_output` shares with others: two atomics, the cancellation, and
the channel with the data of the events. -/
structure SharedOutput where
  outputBytes : Nat
  outputExceeded : Bool := false
  cancelled : Bool := false
  events : List (StreamKind × Text) := []
  deriving DecidableEq, Repr

def SharedOutput.count (s : SharedOutput) (bytes : Nat) : SharedOutput :=
  { s with outputBytes := (s.outputBytes + bytes) % 2 ^ 64 }

def SharedOutput.push (s : SharedOutput) (kind : StreamKind) (data : Text) : SharedOutput :=
  { s with events := s.events ++ [(kind, data)] }

/-- The loop, up to the end of the output or of what the environment does. -/
def streamOutput (kind : StreamKind) (maxBytes : Nat) : List Turn → SharedOutput → SharedOutput
  | [], s => s
  | turn :: rest, s =>
    match turn.read with
    | none => s
    | some bytes =>
      if bytes = [] then s
      else
        let previous := (s.count turn.others).outputBytes
        let s := (s.count turn.others).count bytes.length
        if maxBytes < saturatingAdd previous bytes.length then
          { s with outputExceeded := true, cancelled := true }
        else if turn.forwarded then
          streamOutput kind maxBytes rest (s.push kind (fromUtf8Lossy bytes))
        else { s with cancelled := true }

/-- What a turn counts, with what has been counted by others. -/
def Turn.weight (turn : Turn) : Nat :=
  turn.others + (turn.read.getD []).length

def SharedOutput.text (s : SharedOutput) (kind : StreamKind) : Text :=
  ((s.events.filter (·.1 = kind)).map Prod.snd).flatten

/-- Within the budget every read becomes an event. -/
theorem streamOutput_events (kind : StreamKind) {maxBytes : Nat} (hmax : maxBytes < 2 ^ 64)
    (turns : List Turn) : ∀ (chunks : List Text) (s : SharedOutput),
    turns.map Turn.read = chunks.map some → (∀ chunk ∈ chunks, chunk ≠ []) →
    (∀ turn ∈ turns, turn.forwarded = true) →
    s.outputBytes + (turns.map Turn.weight).sum ≤ maxBytes →
    (streamOutput kind maxBytes turns s).events =
      s.events ++ chunks.map fun chunk => (kind, fromUtf8Lossy chunk) := by
  induction turns with
  | nil =>
    intro chunks s hreads _ _ _
    rw [List.map_eq_nil_iff.mp hreads.symm, List.map_nil, List.append_nil]
    rfl
  | cons turn rest ih =>
    intro chunks s hreads hchunks hforwarded hbudget
    cases chunks with
    | nil => cases hreads
    | cons chunk chunks =>
      rw [List.map_cons, List.map_cons, List.cons.injEq] at hreads
      obtain ⟨hchunk, hchunks⟩ := List.forall_mem_cons.mp hchunks
      obtain ⟨hturn, hforwarded⟩ := List.forall_mem_cons.mp hforwarded
      have hweight : turn.weight = turn.others + chunk.length := by
        rw [Turn.weight, hreads.1]
        rfl
      rw [List.map_cons, List.sum_cons, hweight] at hbudget
      -- nothing wraps around below the budget
      have hprevious : (s.count turn.others).outputBytes = s.outputBytes + turn.others :=
        Nat.mod_eq_of_lt (by omega)
      have hcounted : ((s.count turn.others).count chunk.length).outputBytes =
          s.outputBytes + turn.others + chunk.length := by
        rw [SharedOutput.count, hprevious]
        exact Nat.mod_eq_of_lt (by omega)
      have hwithin : ¬ maxBytes < saturatingAdd (s.outputBytes + turn.others) chunk.length := by
        have hle : saturatingAdd (s.outputBytes + turn.others) chunk.length ≤ _ :=
          Nat.min_le_left _ _
        omega
      rw [streamOutput, hreads.1]
      simp only [if_neg hchunk, hprevious, if_neg hwithin, hturn, if_true]
      rw [ih chunks _ hreads.2 hchunks hforwarded]
      · simp [SharedOutput.push, SharedOutput.count]
      · show ((s.count turn.others).count chunk.length).outputBytes + _ ≤ maxBytes
        omega

/-- The output of a stream, in any reads that are not empty, within the budget
and with all events placed: the events of the stream spell the output if every
read is UTF-8 by itself, and only then. -/
theorem output_preserved_iff (kind : StreamKind) {maxBytes : Nat} (hmax : maxBytes < 2 ^ 64)
    (start : Nat) {turns : List Turn} {chunks : List Text}
    (hreads : turns.map Turn.read = chunks.map some)
    (hchunks : ∀ chunk ∈ chunks, chunk ≠ [])
    (hforwarded : ∀ turn ∈ turns, turn.forwarded = true)
    (hbudget : start + (turns.map Turn.weight).sum ≤ maxBytes) :
    (streamOutput kind maxBytes turns { outputBytes := start }).text kind = chunks.flatten ↔
      ∀ chunk ∈ chunks, isUtf8 chunk = true := by
  have hevents := streamOutput_events kind hmax turns chunks { outputBytes := start } hreads hchunks
    hforwarded hbudget
  rw [← Artifacts.flatten_fromUtf8Lossy_iff, SharedOutput.text, hevents]
  simp [List.filter_map, Function.comp_def]

/-- The same character in one read. -/
theorem output_preserved_whole :
    (streamOutput .stdout 1000 [⟨0, some [0xc3, 0xa9], true⟩] { outputBytes := 0 }).text .stdout =
      [[0xc3, 0xa9]].flatten :=
  (output_preserved_iff .stdout (by decide) 0 rfl (by decide) (by decide) (by decide)).mpr
    (by decide +kernel)

/-- A character of two bytes that comes in two reads. -/
theorem split_character_replaced :
    ∃ (chunks : List Text) (turns : List Turn), isUtf8 chunks.flatten = true ∧
      turns.map Turn.read = chunks.map some ∧
      (∀ chunk ∈ chunks, chunk ≠ [] ∧ chunk.length ≤ outputChunkSize) ∧
      (∀ turn ∈ turns, turn.forwarded = true) ∧ (turns.map Turn.weight).sum ≤ 1000 ∧
      (streamOutput .stdout 1000 turns { outputBytes := 0 }).text .stdout ≠ chunks.flatten :=
  ⟨[[0xc3], [0xa9]], [⟨0, some [0xc3], true⟩, ⟨0, some [0xa9], true⟩], by decide +kernel⟩

/-! ### The output of a service that starts -/

/-- What a turn of the loop in `spawn_output_drain` meets. -/
structure DrainTurn where
  /-- What `read` returns, or the text of an error. -/
  read : Except String Text
  retaining : Bool
  /-- Whether the event is sent, if there is a sender. -/
  sent : Option Bool
  stopping : Bool

structure Drained where
  tail : Text := []
  events : List (StreamKind × Text) := []
  failed : Bool := false
  exits : List String := []
  deriving DecidableEq, Repr

/-- The thread ends, and says why unless the service is being stopped. -/
def Drained.fail (s : Drained) (stopping : Bool) (message : String) : Drained :=
  { s with failed := true, exits := if stopping then s.exits else s.exits ++ [message] }

def Drained.retain (s : Drained) (limit : Nat) (bytes : Text) : Drained :=
  { s with tail := (s.tail ++ bytes).drop ((s.tail ++ bytes).length - limit) }

def spawnOutputDrain (kind : StreamKind) (name : String) (tailLimit : Nat) :
    List DrainTurn → Drained → Drained
  | [], s => s
  | turn :: rest, s =>
    match turn.read with
    | .error err => s.fail turn.stopping (name ++ " output read failed: " ++ err)
    | .ok bytes =>
      if bytes = [] then s
      else if turn.retaining then
        spawnOutputDrain kind name tailLimit rest (s.retain tailLimit bytes)
      else
        match turn.sent with
        | none => spawnOutputDrain kind name tailLimit rest s
        | some true => spawnOutputDrain kind name tailLimit rest
            { s with events := s.events ++ [(kind, fromUtf8Lossy bytes)] }
        | some false => s.fail turn.stopping (name ++ " startup output could not be drained")

/-- A turn before the service is ready that goes well: what is read, and
whether the service is being stopped. -/
def sends (turn : Text × Bool) : DrainTurn :=
  ⟨.ok turn.1, false, some true, turn.2⟩

section
variable (kind : StreamKind) (name : String) (tailLimit : Nat) {turns : List (Text × Bool)}
  (h : ∀ turn ∈ turns, turn.1 ≠ [])
include h

theorem spawnOutputDrain_events (s : Drained) :
    (spawnOutputDrain kind name tailLimit (turns.map sends) s).events =
      s.events ++ turns.map fun turn => (kind, fromUtf8Lossy turn.1) := by
  induction turns generalizing s with
  | nil => exact (List.append_nil _).symm
  | cons turn rest ih =>
    obtain ⟨hturn, hrest⟩ := List.forall_mem_cons.mp h
    simp [spawnOutputDrain, sends, hturn, ih hrest]

/-- The startup output of a service has the same fate. -/
theorem startup_output_preserved_iff :
    ((spawnOutputDrain kind name tailLimit (turns.map sends) {}).events.map Prod.snd).flatten =
      (turns.map Prod.fst).flatten ↔ ∀ turn ∈ turns, isUtf8 turn.1 = true := by
  have hiff := Artifacts.flatten_fromUtf8Lossy_iff (turns.map Prod.fst)
  rw [List.forall_mem_map] at hiff
  rw [← hiff, spawnOutputDrain_events kind name tailLimit h]
  simp [Function.comp_def]

end

/-- Two reads share a letter. -/
theorem startup_output_preserved_iff_shared :
    ((spawnOutputDrain .stdout "db" 9 ([([0xc3], false), ([0xa9], false)].map sends)
      {}).events.map Prod.snd).flatten ≠ [0xc3, 0xa9] :=
  (startup_output_preserved_iff .stdout "db" 9 (by decide)).not.mpr (by decide)

end IndenturedServer.Phases
