import IndenturedServer.Foundation.Undisturbed

/-!
Files that are opened for reading.

An open file is the inode that was opened, whatever becomes of its name, and
an inode does not change its kind as long as it is open. The call that opens a
special file need not come back: a FIFO waits for somebody who writes to it.
-/

namespace IndenturedServer.Foundation

structure Reading where
  descriptor : Descriptor
  /-- It was a regular file when it was opened, and still is. -/
  regular : Bool
  deriving DecidableEq, Repr

def Shape.isFile : Shape → Bool
  | .file _ => true
  | _ => false

namespace Kernel

variable {K σ : Type} (k : Kernel K σ)

/-- `openat` with `O_NOFOLLOW`, for reading; nothing if the call does not return.
Whether there is anybody at the other end of a FIFO is up to `waits`. -/
def openReading (waits : Nat → Ino → Bool) (dir : Descriptor) (name : K) :
    EStateM Errno (Machine K σ) (Option Reading) :=
  k.call fun now fs =>
    match fs.entry dir.ino name with
    | none => .error .noEntry
    | some ino =>
      match fs.shape ino with
      | none => .error .noEntry
      | some .link => .error .tooManyLinks
      | some shape =>
        if shape = .special ∧ waits now ino = true then .ok (none, fs, [])
        else .ok (some ⟨⟨now, ino⟩, shape.isFile⟩, fs, [.opened dir name ⟨now, ino⟩ fs])

/-- Others can put a special file under this name that makes the opening wait. -/
def Blocks (waits : Nat → Ino → Bool) (name : K) : Prop :=
  ∃ (w : Machine K σ) (dir ino : Ino), (k.interfere w).entry dir name = some ino ∧
    (k.interfere w).shape ino = some .special ∧ waits w.clock ino = true

def fstatReading (file : Reading) : EStateM Errno (Machine K σ) Stat :=
  k.ask fun fs =>
    match fs.shape file.descriptor.ino with
    | none => .error .other
    | some shape => .ok ⟨file.descriptor.ino, if file.regular then shape.kind else .special⟩

/-- One `read`, from where the last one ended. -/
def readAt (d : Descriptor) (offset count : Nat) : EStateM Errno (Machine K σ) (List UInt8) :=
  k.ask fun fs =>
    match fs.shape d.ino with
    | some (.file data) => .ok ((data.content.drop offset).take count)
    | _ => .error .other

end Kernel

/-! ### What was opened -/

variable {K σ τ : Type}

/-- The descriptor is that of a regular file, opened as an entry of a directory
that was reached along the path. -/
def OpenedAt (log : List (Event K)) (root : Descriptor) (path : List K) (d : Descriptor) : Prop :=
  ∃ parents name parent fs data, path = parents ++ [name] ∧ Reached log root parents parent ∧
    Event.opened parent name d fs ∈ log ∧ fs.entry parent.ino name = some d.ino ∧
    fs.shape d.ino = some (.file data)

variable {d : Descriptor}

theorem OpenedAt.mono {log log' : List (Event K)} {root : Descriptor} {path : List K}
    (h : OpenedAt log root path d) (hsub : log ⊆ log') : OpenedAt log' root path d := by
  obtain ⟨parents, name, parent, fs, data, hpath, hreached, hopened, hfile⟩ := h
  exact ⟨parents, name, parent, fs, data, hpath, hreached.mono hsub, hsub hopened, hfile⟩

theorem OpenedAt.into {log : List (Event K)} {parent child : Descriptor} {name : K} {fs : Fs K}
    {path : List K} (h : OpenedAt log child path d) (hopened : .opened parent name child fs ∈ log)
    (hentry : fs.entry parent.ino name = some child.ino) (hdir : fs.shape child.ino = some .dir) :
    OpenedAt log parent (name :: path) d := by
  obtain ⟨parents, last, holder, fs', data, rfl, hreached, hfile⟩ := h
  exact ⟨name :: parents, last, holder, fs', data, rfl, .into hopened hentry hdir hreached, hfile⟩

section
variable {k : Kernel K σ} {f : σ → τ} {may : Descriptor → Prop} {log : List (Event K)} {own : τ}

theorem Since.subset {w : Machine K σ} (h : Since f may log own w) : log ⊆ w.log := by
  obtain ⟨more, hlog, -⟩ := h.log
  rw [hlog]
  exact List.subset_append_left log more

variable {ε α : Type} {x : EStateM ε (Machine K σ) α} {F : List (Event K) → Prop}

theorem Since.carry {G : α → Machine K σ → Prop} (hF : ∀ {log log'}, F log → log ⊆ log' → F log')
    (hx : ∀ log, Triple (Since f may log own) x (fun a w => Since f may log own w ∧ G a w)
      fun _ => Since f may log own) :
    Triple (fun w => Since f may log own w ∧ F w.log) x
      (fun a w => (Since f may log own w ∧ F w.log) ∧ G a w) fun _ => Since f may log own := by
  intro w hw
  obtain ⟨hsince, hlog⟩ := hw
  obtain ⟨more, hmore, hwithin⟩ := hsince.log
  have hlater : ∀ {w'}, Since f may w.log own w' → Since f may log own w' := by
    intro w' hw'
    rw [hmore] at hw'
    exact hw'.trans hwithin
  have hstart : Since f may w.log own w := ⟨hsince.own, [], by simp, by simp⟩
  refine (hx w.log w hstart).mono (fun a w' hw' => ?_) fun _ w' hw' => hlater hw'
  exact ⟨⟨hlater hw'.1, hF hlog hw'.1.subset⟩, hw'.2⟩

theorem Keeps.carry (hx : Keeps f may x) (hF : ∀ {log log'}, F log → log ⊆ log' → F log') :
    Triple (fun w => Since f may log own w ∧ F w.log) x
      (fun _ w => Since f may log own w ∧ F w.log) fun _ => Since f may log own := by
  have hkept : ∀ log, Triple (Since f may log own) x
      (fun _ w => Since f may log own w ∧ True) fun _ => Since f may log own :=
    fun log => (hx log own).onReturn fun _ _ hw => ⟨hw, trivial⟩
  exact (Since.carry hF hkept).onReturn fun _ _ hw => hw.1

/-- A program that leaves the program's own files alone leaves true what is true
of them. -/
theorem Keeps.own_stays (hx : Keeps (fun own : σ => own) may x) (p : σ → Prop) :
    Triple (fun w => p w.own) x (fun _ w => p w.own) fun _ w => p w.own := by
  intro w hw
  refine (hx w.log w.own w (Since.refl _ may w)).mono (fun a w' hw' => ?_) fun e w' hw' => ?_
  · rw [hw'.own]
    exact hw
  · rw [hw'.own]
    exact hw

section
variable (waits : Nat → Ino → Bool) (dir : Descriptor) (name : K)

/-- A regular file was an entry of the directory it was opened from. -/
theorem openReading_since :
    Triple (Since f may log own) (k.openReading waits dir name)
      (fun file w => Since f may log own w ∧ ∀ reading ∈ file, reading.regular = true →
        OpenedAt w.log dir [name] reading.descriptor)
      fun _ => Since f may log own := by
  apply Kernel.call_triple
  · intro w hw
    exact hw.advance _ (by simp)
  · intro w file fs' events hw heffect
    split at heffect
    · cases heffect
    · next ino hentry =>
        split at heffect
        · cases heffect
        · cases heffect
        · next shape _ hshape =>
            split at heffect
            · cases heffect
              have hwaited : Since f may log own (w.advance (k.interfere w) []) :=
                hw.advance _ (by simp)
              exact ⟨⟨hwaited, by simp⟩, hwaited⟩
            · cases heffect
              have hopened : Since f may log own (w.advance (k.interfere w)
                  [.opened dir name ⟨w.clock, ino⟩ (k.interfere w)]) :=
                hw.advance _ (by simp [Event.Within])
              refine ⟨⟨hopened, ?_⟩, hopened⟩
              intro reading hreading hregular
              cases hreading
              cases shape with
              | file data => exact ⟨[], name, dir, _, data, rfl, .here dir, by simp, hentry, hshape⟩
              | dir => cases hregular
              | link => cases hregular
              | special => cases hregular

theorem openReading_blocks :
    Triple (fun _ => True) (k.openReading waits dir name)
      (fun file _ => file = none → k.Blocks waits name) fun _ _ => True := by
  apply Kernel.call_triple
  · exact fun _ _ => trivial
  · intro w file fs events _ heffect
    refine ⟨?_, trivial⟩
    split at heffect
    · cases heffect
    · next ino hentry =>
        split at heffect
        · cases heffect
        · cases heffect
        · next shape _ hshape =>
            split at heffect
            · next hwaits =>
                cases heffect
                exact fun _ => ⟨w, dir.ino, ino, hentry, by rw [hshape, hwaits.1], hwaits.2⟩
            · cases heffect
              exact nofun

end

/-- What `fstat` takes for a regular file is one. -/
theorem fstatReading_since (file : Reading) : Triple (Since f may log own) (k.fstatReading file)
      (fun stat w => Since f may log own w ∧ stat.ino = file.descriptor.ino ∧
        ∀ attributes size, stat.kind = .file attributes size → file.regular = true)
      fun _ => Since f may log own := by
  refine (ask_since _).onReturn fun stat w hw => ⟨hw.2, ?_⟩
  obtain ⟨⟨fs, hquery⟩, -⟩ := hw
  split at hquery
  · cases hquery
  · next shape hshape =>
      cases hquery
      refine ⟨rfl, ?_⟩
      intro attributes size hkind
      cases hregular : file.regular with
      | true => rfl
      | false => simp [hregular] at hkind

/-- A call that changes nothing leaves what the paths lead to. -/
theorem call_still {root : Ino} {view : View K} {since : Nat} {own : σ} (hquiet : k.Quiet root)
    {effect : Nat → Fs K → Outcome K α}
    (heffect : ∀ {now fs a fs' events}, effect now fs = .ok (a, fs', events) → fs' = fs) :
    Triple (Sees root view since own) (k.call effect) (fun _ => Sees root view since own)
      fun _ => Sees root view since own := by
  apply Kernel.call_triple
  · exact fun w hw => hw.waited hquiet
  · intro w a fs' events hw hok
    obtain ⟨hsound, hlook⟩ := hw.interfered hquiet
    have hsees := hw.advance hsound events
    rw [hlook] at hsees
    rw [heffect hok]
    exact ⟨hsees, hsees⟩

end

end IndenturedServer.Foundation
