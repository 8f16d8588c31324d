import IndenturedServer.Foundation.FileCalls
import IndenturedServer.Foundation.Inodes
import IndenturedServer.Foundation.Program

/-!
System calls on descriptors.

A descriptor denotes an inode, wherever that inode is moved. The calls take a
descriptor of a directory and one name in it, as the `*at` calls do without
following links. Between any two calls others may change the file system in
any way, a call may fail, and a call may take effect and fail all the same.
The log keeps what was opened from where, with the file system at that moment,
and which entries of which directories were changed.
-/

namespace IndenturedServer.Foundation

/-- The inode that was opened, and a number of its own for every opening. -/
structure Descriptor where
  id : Nat
  ino : Ino
  deriving DecidableEq, Repr

inductive Event (K : Type)
  | opened (parent : Descriptor) (name : K) (child : Descriptor) (fs : Fs K)
  /-- An entry was made, replaced or removed. -/
  | mutated (dir : Descriptor) (name : K)

structure Machine (K σ : Type) where
  fs : Fs K
  /-- Files of the program that nobody else touches. -/
  own : σ
  log : List (Event K) := []
  clock : Nat := 0

inductive CallFault
  /-- The call fails, a write after some bytes. -/
  | fails (bytes : Nat)
  /-- The call takes effect and is reported as failed. -/
  | late
  deriving DecidableEq, Repr

structure Kernel (K σ : Type) where
  /-- What the file system has become when a call is made. -/
  interfere : Machine K σ → Fs K
  fault : Nat → Option CallFault
  /-- The number that a new file gets. -/
  alloc : Nat → Ino

inductive StatKind
  | dir
  | file (attributes : Attributes) (size : Nat)
  | link
  | special
  deriving DecidableEq, Repr

def Shape.kind : Shape → StatKind
  | .dir => .dir
  | .file data => .file data.attributes data.content.length
  | .link => .link
  | .special => .special

structure Stat where
  ino : Ino
  kind : StatKind
  deriving DecidableEq, Repr

def Machine.advance {K σ : Type} (w : Machine K σ) (fs : Fs K) (events : List (Event K)) :
    Machine K σ :=
  { w with fs := fs, log := w.log ++ events, clock := w.clock + 1 }

def Machine.withOwn {K σ : Type} (w : Machine K σ) (own : σ) : Machine K σ :=
  { w with own := own }

section
variable {K σ : Type} {w : Machine K σ} {fs : Fs K} {events : List (Event K)} {own : σ}

@[simp] theorem Machine.advance_log : (w.advance fs events).log = w.log ++ events := rfl
@[simp] theorem Machine.withOwn_own : (w.withOwn own).own = own := rfl
end

def Fs.modify {K : Type} (fs : Fs K) (ino : Ino) (f : FileData → FileData) : Fs K :=
  match fs ino with
  | some (.file data) => fs.put ino (.file (f data))
  | _ => fs

def FileData.append (bytes : List UInt8) (data : FileData) : FileData :=
  { data with content := data.content ++ bytes }

def FileData.chown (uid gid : Nat) (data : FileData) : FileData :=
  { data with attributes := { data.attributes with uid := uid, gid := gid } }

def FileData.chmod (mode : Nat) (data : FileData) : FileData :=
  { data with attributes := { data.attributes with mode := mode } }

/-! ### The calls -/

/-- What a call returns, the file system behind it, and what it adds to the log. -/
abbrev Outcome (K α : Type) := Except Errno (α × Fs K × List (Event K))

namespace Kernel

variable {K σ α : Type}

section
variable (k : Kernel K σ)

/-- A call. If it fails after a part of its effect, `torn` is that part. -/
def tornCall (torn : Nat → Fs K → Fs K) (effect : Nat → Fs K → Outcome K α) :
    EStateM Errno (Machine K σ) α := fun w =>
  let fs := k.interfere w
  match k.fault w.clock with
  | some (.fails n) => .error .other (w.advance (torn n fs) [])
  | some .late =>
    match effect w.clock fs with
    | .error e => .error e (w.advance fs [])
    | .ok (_, fs', events) => .error .other (w.advance fs' events)
  | none =>
    match effect w.clock fs with
    | .error e => .error e (w.advance fs [])
    | .ok (a, fs', events) => .ok a (w.advance fs' events)

def call (effect : Nat → Fs K → Outcome K α) : EStateM Errno (Machine K σ) α :=
  k.tornCall (fun _ fs => fs) effect

/-- A call on files of the program. -/
def aside (effect : σ → Except Errno (α × σ)) : EStateM Errno (Machine K σ) α := fun w =>
  let w' := w.advance (k.interfere w) []
  match k.fault w.clock with
  | some (.fails _) => .error .other w'
  | some .late =>
    match effect w.own with
    | .error e => .error e w'
    | .ok (_, own) => .error .other (w'.withOwn own)
  | none =>
    match effect w.own with
    | .error e => .error e w'
    | .ok (a, own) => .ok a (w'.withOwn own)

def ask (query : Fs K → Except Errno α) : EStateM Errno (Machine K σ) α :=
  k.call fun _ fs => (query fs).map fun a => (a, fs, [])

def edit (d : Descriptor) (f : FileData → FileData) : EStateM Errno (Machine K σ) Unit :=
  k.call fun _ fs => .ok ((), fs.modify d.ino f, [])

/-- A call of which only the failure matters: `dup`, `fsync`. -/
def touch : EStateM Errno (Machine K σ) Unit :=
  k.ask fun _ => .ok ()

/-- `openat` with `O_NOFOLLOW | O_DIRECTORY`. -/
def openDirectory (dir : Descriptor) (name : K) : EStateM Errno (Machine K σ) Descriptor :=
  k.call fun now fs =>
    match fs.entry dir.ino name with
    | none => .error .noEntry
    | some ino =>
      if fs.shape ino = some .dir then
        .ok (⟨now, ino⟩, fs, [.opened dir name ⟨now, ino⟩ fs])
      else .error .notDirectory

/-- `openat` with `O_NOFOLLOW`, for reading. -/
def openFile (dir : Descriptor) (name : K) : EStateM Errno (Machine K σ) Descriptor :=
  k.call fun now fs =>
    match fs.entry dir.ino name with
    | none => .error .noEntry
    | some ino =>
      match fs.shape ino with
      | none => .error .noEntry
      | some .link => .error .tooManyLinks
      | some _ => .ok (⟨now, ino⟩, fs, [.opened dir name ⟨now, ino⟩ fs])

/-- `fstatat` with `AT_SYMLINK_NOFOLLOW`; nothing for an entry that is not there. -/
def statAt (dir : Descriptor) (name : K) : EStateM Errno (Machine K σ) (Option Stat) :=
  k.ask fun fs =>
    if fs.shape dir.ino = some .dir then
      .ok ((fs.entry dir.ino name).bind fun ino =>
        (fs.shape ino).map fun shape => ⟨ino, shape.kind⟩)
    else .error .notDirectory

def fstat (d : Descriptor) : EStateM Errno (Machine K σ) Stat :=
  k.ask fun fs =>
    match fs.shape d.ino with
    | none => .error .other
    | some shape => .ok ⟨d.ino, shape.kind⟩

/-- All the reads of a file up to its end. -/
def readAll (d : Descriptor) : EStateM Errno (Machine K σ) (List UInt8) :=
  k.ask fun fs =>
    match fs.shape d.ino with
    | some (.file data) => .ok data.content
    | _ => .error .other

def writeAll (d : Descriptor) (bytes : List UInt8) : EStateM Errno (Machine K σ) Unit :=
  k.tornCall (fun n fs => fs.modify d.ino (.append (bytes.take n)))
    fun _ fs => .ok ((), fs.modify d.ino (.append bytes), [])

def fchown (d : Descriptor) (uid gid : Nat) : EStateM Errno (Machine K σ) Unit :=
  k.edit d (.chown uid gid)

def fchmod (d : Descriptor) (mode : Nat) : EStateM Errno (Machine K σ) Unit :=
  k.edit d (.chmod mode)

variable [DecidableEq K]

/-- `openat` with `O_CREAT | O_EXCL`. -/
def createNew (dir : Descriptor) (name : K) (attributes : Attributes) :
    EStateM Errno (Machine K σ) Descriptor :=
  k.call fun now fs =>
    if fs.shape dir.ino = some .dir then
      match fs.entry dir.ino name with
      | some _ => .error .alreadyExists
      | none =>
        let ino := k.alloc now
        if (fs ino).isSome then .error .noSpace
        else .ok (⟨now, ino⟩,
          (fs.put ino (.file ⟨[], attributes⟩)).setEntry dir.ino name (some ino),
          [.mutated dir name])
    else .error .notDirectory

/-- `renameat` within a directory. Two names of one file stay as they are. -/
def rename (dir : Descriptor) (source target : K) : EStateM Errno (Machine K σ) Unit :=
  k.call fun _ fs =>
    match fs.entry dir.ino source with
    | none => .error .noEntry
    | some ino =>
      match fs.entry dir.ino target with
      | some old =>
        if old = ino then .ok ((), fs, [])
        else if fs.shape old = some .dir ∨ fs.shape ino = some .dir then .error .other
        else .ok ((), (fs.setEntry dir.ino target (some ino)).setEntry dir.ino source none,
          [.mutated dir source, .mutated dir target])
      | none => .ok ((), (fs.setEntry dir.ino target (some ino)).setEntry dir.ino source none,
          [.mutated dir source, .mutated dir target])

def unlink (dir : Descriptor) (name : K) : EStateM Errno (Machine K σ) Unit :=
  k.call fun _ fs =>
    match fs.entry dir.ino name with
    | none => .error .noEntry
    | some ino =>
      if fs.shape ino = some .dir then .error .other
      else .ok ((), fs.setEntry dir.ino name none, [.mutated dir name])

end

/-! ### Rules -/

variable {k : Kernel K σ}

theorem tornCall_triple {P : Machine K σ → Prop} {Q : α → Machine K σ → Prop}
    {E : Machine K σ → Prop} {torn : Nat → Fs K → Fs K} {effect : Nat → Fs K → Outcome K α}
    (htorn : ∀ w n, P w → E (w.advance (torn n (k.interfere w)) []))
    (herror : ∀ w, P w → E (w.advance (k.interfere w) []))
    (hok : ∀ w a fs events, P w → effect w.clock (k.interfere w) = .ok (a, fs, events) →
      Q a (w.advance fs events) ∧ E (w.advance fs events)) :
    Triple P (k.tornCall torn effect) Q fun _ => E := by
  intro w hw
  show Ends _ _ (k.tornCall torn effect w)
  simp only [tornCall]
  cases k.fault w.clock with
  | none =>
    cases hr : effect w.clock (k.interfere w) with
    | error e => exact herror w hw
    | ok r => exact (hok w r.1 r.2.1 r.2.2 hw hr).1
  | some fault =>
    cases fault with
    | fails n => exact htorn w n hw
    | late =>
      cases hr : effect w.clock (k.interfere w) with
      | error e => exact herror w hw
      | ok r => exact (hok w r.1 r.2.1 r.2.2 hw hr).2

theorem call_triple {P : Machine K σ → Prop} {Q : α → Machine K σ → Prop}
    {E : Machine K σ → Prop} {effect : Nat → Fs K → Outcome K α}
    (herror : ∀ w, P w → E (w.advance (k.interfere w) []))
    (hok : ∀ w a fs events, P w → effect w.clock (k.interfere w) = .ok (a, fs, events) →
      Q a (w.advance fs events) ∧ E (w.advance fs events)) :
    Triple P (k.call effect) Q fun _ => E :=
  tornCall_triple (fun w _ hw => herror w hw) herror hok

theorem aside_triple {P : Machine K σ → Prop} {Q : α → Machine K σ → Prop}
    {E : Machine K σ → Prop} {effect : σ → Except Errno (α × σ)}
    (herror : ∀ w, P w → E (w.advance (k.interfere w) []))
    (hok : ∀ w a own, P w → effect w.own = .ok (a, own) →
      Q a ((w.advance (k.interfere w) []).withOwn own) ∧
        E ((w.advance (k.interfere w) []).withOwn own)) :
    Triple P (k.aside effect) Q fun _ => E := by
  intro w hw
  show Ends _ _ (k.aside effect w)
  simp only [aside]
  cases k.fault w.clock with
  | none =>
    cases hr : effect w.own with
    | error e => exact herror w hw
    | ok r => exact (hok w r.1 r.2 hw hr).1
  | some fault =>
    cases fault with
    | fails n => exact herror w hw
    | late =>
      cases hr : effect w.own with
      | error e => exact herror w hw
      | ok r => exact (hok w r.1 r.2 hw hr).2

end Kernel

/-! ### What is in the log -/

variable {K σ τ α : Type}

/-- A descriptor was reached from another by opening the names of a path one by
one, and each was then an entry for a directory, not for a link. -/
inductive Reached (log : List (Event K)) : Descriptor → List K → Descriptor → Prop
  | here (d : Descriptor) : Reached log d [] d
  | into {parent child d : Descriptor} {name : K} {fs : Fs K} {rest : List K}
      (hopened : .opened parent name child fs ∈ log)
      (hentry : fs.entry parent.ino name = some child.ino)
      (hdir : fs.shape child.ino = some .dir) (hrest : Reached log child rest d) :
      Reached log parent (name :: rest) d

theorem Reached.mono {log log' : List (Event K)} {d d' : Descriptor} {path : List K}
    (h : Reached log d path d') (hsub : log ⊆ log') : Reached log' d path d' := by
  induction h with
  | here d => exact .here d
  | into hopened hentry hdir _ ih => exact .into (hsub hopened) hentry hdir ih

/-- The event changes at most entries of the directories in question. -/
def Event.Within (may : Descriptor → Prop) : Event K → Prop
  | .opened _ _ _ _ => True
  | .mutated dir _ => may dir

/-- What has happened since the log was `log`: entries of some directories may
have changed, and a part of the program's own files is what it was. -/
structure Since (f : σ → τ) (may : Descriptor → Prop) (log : List (Event K)) (own : τ)
    (w : Machine K σ) : Prop where
  own : f w.own = own
  log : ∃ more, w.log = log ++ more ∧ ∀ event ∈ more, event.Within may

/-- A program that adds events of this kind, whether it fails or not. -/
def Keeps {ε : Type} (f : σ → τ) (may : Descriptor → Prop)
    (x : EStateM ε (Machine K σ) α) : Prop :=
  ∀ log own, Triple (Since f may log own) x (fun _ => Since f may log own)
    fun _ => Since f may log own

section
variable {f : σ → τ} {may : Descriptor → Prop} {log : List (Event K)} {own : τ} {w : Machine K σ}
  {ε : Type}

theorem Since.refl (f : σ → τ) (may : Descriptor → Prop) (w : Machine K σ) :
    Since f may w.log (f w.own) w :=
  ⟨rfl, [], by simp, by simp⟩

theorem Since.advance (h : Since f may log own w) (fs : Fs K) {events : List (Event K)}
    (hevents : ∀ event ∈ events, event.Within may) : Since f may log own (w.advance fs events) := by
  obtain ⟨more, hlog, hmore⟩ := h.log
  refine ⟨h.own, more ++ events, ?_, ?_⟩
  · rw [Machine.advance_log, hlog, List.append_assoc]
  · intro event hevent
    obtain hevent | hevent := List.mem_append.mp hevent
    · exact hmore event hevent
    · exact hevents event hevent

theorem Since.trans {more : List (Event K)} (h : Since f may (log ++ more) own w)
    (hmore : ∀ event ∈ more, event.Within may) : Since f may log own w := by
  obtain ⟨later, hlog, hlater⟩ := h.log
  refine ⟨h.own, more ++ later, ?_, ?_⟩
  · rw [hlog, List.append_assoc]
  · intro event hevent
    obtain hevent | hevent := List.mem_append.mp hevent
    · exact hmore event hevent
    · exact hlater event hevent

/-- The answer is about the file system of some moment. -/
theorem ask_since {k : Kernel K σ} (query : Fs K → Except Errno α) :
    Triple (Since f may log own) (k.ask query)
      (fun a w => (∃ fs, query fs = .ok a) ∧ Since f may log own w)
      fun _ => Since f may log own := by
  apply Kernel.call_triple
  · intro w hw
    exact hw.advance _ (by simp)
  · intro w a fs events hw heffect
    cases hquery : query (k.interfere w) with
    | error e =>
      rw [hquery] at heffect
      cases heffect
    | ok answer =>
      rw [hquery] at heffect
      cases heffect
      have hadvanced : Since f may log own (w.advance (k.interfere w) []) :=
        hw.advance _ (by simp)
      exact ⟨⟨⟨_, hquery⟩, hadvanced⟩, hadvanced⟩

namespace Keeps

theorem bind {β : Type} {x : EStateM ε (Machine K σ) α} {g : α → EStateM ε (Machine K σ) β}
    (hx : Keeps f may x) (hg : ∀ a, Keeps f may (g a)) : Keeps f may (x >>= g) :=
  fun log own => (hx log own).bind fun a => hg a log own

theorem pure (a : α) : Keeps f may (Pure.pure a : EStateM ε (Machine K σ) α) :=
  fun _ _ => Triple.pure fun _ hw => hw

theorem throw (e : ε) : Keeps f may (MonadExcept.throw e : EStateM ε (Machine K σ) α) :=
  fun _ _ => Triple.throw fun _ hw => hw

theorem ofExcept (x : Except ε α) :
    Keeps f may (MonadExcept.ofExcept x : EStateM ε (Machine K σ) α) :=
  fun _ _ => Triple.ofExcept (fun _ _ _ hw => hw) fun _ _ _ hw => hw

theorem adaptExcept {δ : Type} {g : δ → ε} {x : EStateM δ (Machine K σ) α} (hx : Keeps f may x) :
    Keeps f may (EStateM.adaptExcept g x) :=
  fun log own => Triple.adaptExcept (hx log own)

theorem tryCatch {x : EStateM ε (Machine K σ) α} {handle : ε → EStateM ε (Machine K σ) α}
    (hx : Keeps f may x) (hhandle : ∀ e, Keeps f may (handle e)) :
    Keeps f may (MonadExcept.tryCatch x handle) :=
  fun log own => (hx log own).tryCatch fun e => hhandle e log own

theorem outcome {δ : Type} {x : EStateM δ (Machine K σ) α} (hx : Keeps f may x) :
    Keeps f may (Foundation.outcome x : EStateM ε (Machine K σ) (Except δ α)) :=
  fun log own => Triple.outcome_of_either (hx log own)

variable {k : Kernel K σ}

theorem tornCall {torn : Nat → Fs K → Fs K} {effect : Nat → Fs K → Outcome K α}
    (h : ∀ {now fs a fs' events}, effect now fs = .ok (a, fs', events) →
      ∀ event ∈ events, event.Within may) :
    Keeps f may (k.tornCall torn effect) := by
  intro log own
  apply Kernel.tornCall_triple
  · intro w n hw
    exact hw.advance _ (by simp)
  · intro w hw
    exact hw.advance _ (by simp)
  · intro w a fs events hw heffect
    have hadvanced := hw.advance fs (h heffect)
    exact ⟨hadvanced, hadvanced⟩

theorem aside {effect : σ → Except Errno (α × σ)}
    (h : ∀ {own a own'}, effect own = .ok (a, own') → f own' = f own) :
    Keeps f may (k.aside effect) := by
  intro log own
  apply Kernel.aside_triple
  · intro w hw
    exact hw.advance _ (by simp)
  · intro w a own' hw heffect
    have hadvanced : Since f may log own (w.advance (k.interfere w) []) := hw.advance _ (by simp)
    have hkept : Since f may log own ((w.advance (k.interfere w) []).withOwn own') :=
      ⟨(h heffect).trans hw.own, hadvanced.log⟩
    exact ⟨hkept, hkept⟩

theorem ask (query : Fs K → Except Errno α) : Keeps f may (k.ask query) :=
  fun _ _ => (ask_since query).onReturn fun _ _ hw => hw.2

theorem edit (d : Descriptor) (g : FileData → FileData) : Keeps f may (k.edit d g) := by
  unfold Kernel.edit Kernel.call
  apply tornCall
  intro now fs a fs' events heffect
  cases heffect
  simp

theorem writeAll (d : Descriptor) (bytes : List UInt8) : Keeps f may (k.writeAll d bytes) := by
  apply tornCall
  intro now fs a fs' events heffect
  cases heffect
  simp

theorem openFile (dir : Descriptor) (name : K) : Keeps f may (k.openFile dir name) := by
  unfold Kernel.openFile Kernel.call
  apply tornCall
  intro now fs a fs' events heffect
  split at heffect
  · cases heffect
  · split at heffect
    · cases heffect
    · cases heffect
    · cases heffect
      simp [Event.Within]

variable [DecidableEq K]

theorem createNew {dir : Descriptor} (hdir : may dir) (name : K) (attributes : Attributes) :
    Keeps f may (k.createNew dir name attributes) := by
  unfold Kernel.createNew Kernel.call
  apply tornCall
  intro now fs a fs' events heffect
  split at heffect
  · split at heffect
    · cases heffect
    · dsimp only at heffect
      split at heffect
      · cases heffect
      · cases heffect
        simpa [Event.Within] using hdir
  · cases heffect

theorem rename {dir : Descriptor} (hdir : may dir) (source target : K) :
    Keeps f may (k.rename dir source target) := by
  unfold Kernel.rename Kernel.call
  apply tornCall
  intro now fs a fs' events heffect
  split at heffect
  · cases heffect
  · split at heffect
    · split at heffect
      · cases heffect
        simp
      · split at heffect
        · cases heffect
        · cases heffect
          simpa [Event.Within] using hdir
    · cases heffect
      simpa [Event.Within] using hdir

theorem unlink {dir : Descriptor} (hdir : may dir) (name : K) :
    Keeps f may (k.unlink dir name) := by
  unfold Kernel.unlink Kernel.call
  apply tornCall
  intro now fs a fs' events heffect
  split at heffect
  · cases heffect
  · split at heffect
    · cases heffect
    · cases heffect
      simpa [Event.Within] using hdir

end Keeps

variable {k : Kernel K σ}

/-- An open directory was an entry of the one it was opened from. -/
theorem openDirectory_since (dir : Descriptor) (name : K) :
    Triple (Since f may log own) (k.openDirectory dir name)
      (fun child w => ∃ more fs, (∀ event ∈ more, event.Within may) ∧
        (Event.opened dir name child fs ∈ more ∧ fs.entry dir.ino name = some child.ino ∧
          fs.shape child.ino = some .dir) ∧ Since f may (log ++ more) own w)
      fun _ => Since f may log own := by
  apply Kernel.call_triple
  · intro w hw
    exact hw.advance _ (by simp)
  · intro w child fs' events hw heffect
    split at heffect
    · cases heffect
    · next ino hentry =>
        split at heffect
        · next hdir =>
            cases heffect
            obtain ⟨more, hlog, hmore⟩ := hw.log
            have hwithin : ∀ event ∈ more ++
                [Event.opened dir name ⟨w.clock, ino⟩ (k.interfere w)], event.Within may := by
              intro event hevent
              obtain hevent | hevent := List.mem_append.mp hevent
              · exact hmore event hevent
              · rw [List.mem_singleton.mp hevent]
                trivial
            refine ⟨⟨_, k.interfere w, hwithin, ⟨by simp, hentry, hdir⟩, hw.own, [], ?_, by simp⟩, ?_⟩
            · simp [hlog]
            · exact hw.advance _ (by simp [Event.Within])
        · cases heffect

end

end IndenturedServer.Foundation
