import IndenturedServer.Foundation.Descriptors

/-!
System calls on a tree that nobody else changes.

When others leave what can be reached from the root alone, the calls of a
program are changes of what the paths lead to, a `View`. Each call has one
specification here: what it answers and what becomes of the view, and in which
views it can leave when it fails.
-/

namespace IndenturedServer.Foundation

open Fs Function

/-- What the paths lead to. -/
abbrev View (K : Type) : Type := List K → Option (Ino × Shape)

variable {K σ α : Type}

/-- Others change nothing that can be reached from the root. -/
def Kernel.Quiet (k : Kernel K σ) (root : Ino) : Prop :=
  ∀ w, Fs.Agrees w.fs (k.interfere w) root

structure Sees (root : Ino) (view : View K) (since : Nat) (own : σ) (w : Machine K σ) : Prop where
  sound : w.fs.Sound root
  look : w.fs.look root = view
  clock : since ≤ w.clock
  own : w.own = own

section
variable {k : Kernel K σ} {root : Ino} {view : View K} {since : Nat} {own : σ}
  {w : Machine K σ}

theorem Sees.interfered (h : Sees root view since own w) (hquiet : k.Quiet root) :
    (k.interfere w).Sound root ∧ (k.interfere w).look root = view :=
  ⟨(hquiet w).sound h.sound, (hquiet w).look_eq.trans h.look⟩

variable {fs : Fs K}

theorem Sees.advance (h : Sees root view since own w) (hsound : fs.Sound root)
    (events : List (Event K)) : Sees root (fs.look root) since own (w.advance fs events) :=
  ⟨hsound, rfl, Nat.le_succ_of_le h.clock, h.own⟩

theorem Sees.waited (h : Sees root view since own w) (hquiet : k.Quiet root) :
    Sees root view since own (w.advance (k.interfere w) []) := by
  obtain ⟨hsound, hlook⟩ := h.interfered hquiet
  exact hlook ▸ h.advance hsound []

variable {effect : Nat → Fs K → Outcome K α} {Q : α → View K → Prop} {E : View K → Prop}

section
variable (hquiet : k.Quiet root)
include hquiet

theorem tornCall_sees {torn : Nat → Fs K → Fs K}
    (htorn : ∀ n fs, fs.Sound root → fs.look root = view →
      (torn n fs).Sound root ∧ E ((torn n fs).look root)) (herror : E view)
    (hok : ∀ {now fs a fs' events}, fs.Sound root → fs.look root = view →
      effect now fs = .ok (a, fs', events) →
      fs'.Sound root ∧ Q a (fs'.look root) ∧ E (fs'.look root)) :
    Triple (Sees root view since own) (k.tornCall torn effect)
      (fun a w => ∃ view', Q a view' ∧ Sees root view' since own w)
      fun _ w => ∃ view', E view' ∧ Sees root view' since own w := by
  apply Kernel.tornCall_triple
  · intro w n hw
    obtain ⟨hsound, hlook⟩ := hw.interfered hquiet
    obtain ⟨hsound', hE⟩ := htorn n _ hsound hlook
    exact ⟨_, hE, hw.advance hsound' []⟩
  · intro w hw
    exact ⟨view, herror, hw.waited hquiet⟩
  · intro w a fs events hw heffect
    obtain ⟨hsound, hlook⟩ := hw.interfered hquiet
    obtain ⟨hsound', hQ, hE⟩ := hok hsound hlook heffect
    exact ⟨⟨_, hQ, hw.advance hsound' events⟩, _, hE, hw.advance hsound' events⟩

theorem call_sees (herror : E view)
    (hok : ∀ {now fs a fs' events}, fs.Sound root → fs.look root = view →
      effect now fs = .ok (a, fs', events) →
      fs'.Sound root ∧ Q a (fs'.look root) ∧ E (fs'.look root)) :
    Triple (Sees root view since own) (k.call effect)
      (fun a w => ∃ view', Q a view' ∧ Sees root view' since own w)
      fun _ w => ∃ view', E view' ∧ Sees root view' since own w :=
  tornCall_sees hquiet (fun _ _ hsound hlook => ⟨hsound, hlook ▸ herror⟩) herror hok

theorem aside_sees (effect : σ → Except Errno (α × σ)) :
    Triple (Sees root view since own) (k.aside effect)
      (fun a w => ∃ own', effect own = .ok (a, own') ∧ Sees root view since own' w)
      fun _ w => ∃ own', (own' = own ∨ ∃ a, effect own = .ok (a, own')) ∧
        Sees root view since own' w := by
  apply Kernel.aside_triple
  · intro w hw
    exact ⟨own, .inl rfl, hw.waited hquiet⟩
  · intro w a own' hw heffect
    have hwaited := hw.waited hquiet
    have hsees : Sees root view since own' ((w.advance (k.interfere w) []).withOwn own') :=
      ⟨hwaited.sound, hwaited.look, hwaited.clock, rfl⟩
    rw [hw.own] at heffect
    exact ⟨⟨own', heffect, hsees⟩, own', .inr ⟨a, heffect⟩, hsees⟩

/-! ### Asking -/

theorem ask_sees (query : Fs K → Except Errno α) :
    Triple (Sees root view since own) (k.ask query)
      (fun a w => (∃ fs, fs.Sound root ∧ fs.look root = view ∧ query fs = .ok a) ∧
        Sees root view since own w)
      fun _ => Sees root view since own := by
  apply Kernel.call_triple
  · intro w hw
    exact hw.waited hquiet
  · intro w a fs events hw heffect
    obtain ⟨hsound, hlook⟩ := hw.interfered hquiet
    cases hquery : query (k.interfere w) with
    | error e =>
      rw [hquery] at heffect
      cases heffect
    | ok answer =>
      rw [hquery] at heffect
      cases heffect
      exact ⟨⟨⟨_, hsound, hlook, hquery⟩, hw.waited hquiet⟩, hw.waited hquiet⟩

theorem touch_sees :
    Triple (Sees root view since own) k.touch (fun _ => Sees root view since own)
      fun _ => Sees root view since own :=
  (ask_sees hquiet _).onReturn fun _ _ hw => hw.2

theorem statAt_sees {dir : Descriptor} {path : List K} (hdir : view path = some (dir.ino, .dir))
    (name : K) :
    Triple (Sees root view since own) (k.statAt dir name)
      (fun stat w => stat = (view (path ++ [name])).map (fun found => ⟨found.1, found.2.kind⟩) ∧
        Sees root view since own w)
      fun _ => Sees root view since own := by
  refine (ask_sees hquiet _).onReturn fun stat w hw => ⟨?_, hw.2⟩
  obtain ⟨⟨fs, hsound, rfl, hquery⟩, -⟩ := hw
  rw [if_pos (look_eq_some.mp hdir).2] at hquery
  cases hquery
  obtain ⟨hentry, hlook⟩ | ⟨ino, shape, hentry, hshape, hlook⟩ := hsound.entry_cases name hdir
  · rw [hentry, hlook]
    rfl
  · rw [hentry, hlook]
    simp [hshape]

variable {d : Descriptor}

theorem fstat_sees {path : List K} {shape : Shape} (hd : view path = some (d.ino, shape)) :
    Triple (Sees root view since own) (k.fstat d)
      (fun stat w => stat = ⟨d.ino, shape.kind⟩ ∧ Sees root view since own w)
      fun _ => Sees root view since own := by
  refine (ask_sees hquiet _).onReturn fun stat w hw => ⟨?_, hw.2⟩
  obtain ⟨⟨fs, hsound, rfl, hquery⟩, -⟩ := hw
  rw [(look_eq_some.mp hd).2] at hquery
  cases hquery
  rfl

variable {data : FileData}

theorem readAll_sees {path : List K} (hd : view path = some (d.ino, .file data)) :
    Triple (Sees root view since own) (k.readAll d)
      (fun content w => content = data.content ∧ Sees root view since own w)
      fun _ => Sees root view since own := by
  refine (ask_sees hquiet _).onReturn fun stat w hw => ⟨?_, hw.2⟩
  obtain ⟨⟨fs, hsound, rfl, hquery⟩, -⟩ := hw
  rw [(look_eq_some.mp hd).2] at hquery
  cases hquery
  rfl

/-! ### Opening -/

theorem openDirectory_sees {dir : Descriptor} {path : List K}
    (hdir : view path = some (dir.ino, .dir)) (name : K) :
    Triple (Sees root view since own) (k.openDirectory dir name)
      (fun child w => view (path ++ [name]) = some (child.ino, .dir) ∧ Sees root view since own w)
      fun _ => Sees root view since own := by
  apply Kernel.call_triple
  · intro w hw
    exact hw.waited hquiet
  · intro w child fs' events hw heffect
    obtain ⟨hsound, hlook⟩ := hw.interfered hquiet
    split at heffect
    · cases heffect
    · next ino hentry =>
        split at heffect
        · next hshape =>
            cases heffect
            have hsees := hw.advance hsound [.opened dir name ⟨w.clock, ino⟩ (k.interfere w)]
            rw [hlook] at hsees
            rw [← hlook] at hdir
            refine ⟨⟨?_, hsees⟩, hsees⟩
            rw [← hlook, look_concat name hdir, hentry]
            simp [hshape]
        · cases heffect

theorem openFile_sees {dir : Descriptor} {path : List K} (hdir : view path = some (dir.ino, .dir))
    (name : K) :
    Triple (Sees root view since own) (k.openFile dir name)
      (fun file w => (∃ shape, view (path ++ [name]) = some (file.ino, shape)) ∧
        Sees root view since own w)
      fun _ => Sees root view since own := by
  apply Kernel.call_triple
  · intro w hw
    exact hw.waited hquiet
  · intro w file fs' events hw heffect
    obtain ⟨hsound, hlook⟩ := hw.interfered hquiet
    rw [← hlook] at hdir
    split at heffect
    · cases heffect
    · next ino hentry =>
        split at heffect
        · cases heffect
        · cases heffect
        · next shape _ hshape =>
            cases heffect
            have hsees := hw.advance hsound [.opened dir name ⟨w.clock, ino⟩ (k.interfere w)]
            rw [hlook] at hsees
            refine ⟨⟨⟨shape, ?_⟩, hsees⟩, hsees⟩
            rw [← hlook, look_concat name hdir, hentry]
            simp [hshape]

end

/-! ### Changing -/

/-- No other path leads to the file. -/
def Alone (view : View K) (path : List K) (ino : Ino) : Prop :=
  ∀ path' shape, view path' = some (ino, shape) → path' = path

variable {ino : Ino}

theorem modify_sound (hsound : fs.Sound root) (f : FileData → FileData) :
    (fs.modify ino f).Sound root := by
  unfold Fs.modify
  split
  · next data hnode =>
      apply sound_put hsound
      simp [shape, hnode, Inode.shape]
  · exact hsound

variable [DecidableEq K]

theorem look_modify {path : List K} (hsound : fs.Sound root)
    (hpath : fs.look root path = some (ino, .file data)) (halone : Alone (fs.look root) path ino)
    (f : FileData → FileData) :
    (fs.modify ino f).look root =
      update (fs.look root) path (some (ino, .file (f data))) := by
  obtain ⟨hfind, hshape⟩ := look_eq_some.mp hpath
  have hnode : fs ino = some (.file data) := by
    unfold shape at hshape
    cases hnode : fs ino with
    | none => rw [hnode] at hshape; cases hshape
    | some node =>
      rw [hnode] at hshape
      cases node with
      | file data' => cases hshape; rfl
      | dir entries => cases hshape
      | link => cases hshape
      | special => cases hshape
  have hmodify : fs.modify ino f = fs.put ino (.file (f data)) := by
    simp [Fs.modify, hnode]
  rw [hmodify]
  apply look_put
  · rw [hshape]
    simp
  · exact hfind
  · intro path' hfind'
    obtain ⟨shape, hlook⟩ := hsound.exists_shape hfind'
    exact halone path' shape hlook

variable (hquiet : k.Quiet root)
include hquiet

theorem writeAll_sees {path : List K} (hd : view path = some (d.ino, .file data))
    (halone : Alone view path d.ino) (bytes : List UInt8) :
    Triple (Sees root view since own) (k.writeAll d bytes)
      (fun _ w => ∃ view', view' = update view path
        (some (d.ino, .file (data.append bytes))) ∧ Sees root view' since own w)
      fun _ w => ∃ view', (∃ data', view' = update view path
        (some (d.ino, .file data'))) ∧ Sees root view' since own w := by
  apply tornCall_sees (Q := fun _ view' => view' = _) hquiet
  · rintro n fs hsound rfl
    exact ⟨modify_sound hsound _, _, look_modify hsound hd halone _⟩
  · exact ⟨data, by rw [← hd, update_eq_self]⟩
  · rintro now fs a fs' events hsound rfl heffect
    cases heffect
    exact ⟨modify_sound hsound _, look_modify hsound hd halone _, _, look_modify hsound hd halone _⟩

theorem edit_sees {path : List K} (hd : view path = some (d.ino, .file data))
    (halone : Alone view path d.ino) (f : FileData → FileData) :
    Triple (Sees root view since own) (k.edit d f)
      (fun _ w => ∃ view', view' = update view path
        (some (d.ino, .file (f data))) ∧ Sees root view' since own w)
      fun _ w => ∃ view', (∃ data', view' = update view path
        (some (d.ino, .file data'))) ∧ Sees root view' since own w := by
  apply call_sees (Q := fun _ view' => view' = _) hquiet
  · exact ⟨data, by rw [← hd, update_eq_self]⟩
  · rintro now fs a fs' events hsound rfl heffect
    cases heffect
    exact ⟨modify_sound hsound _, look_modify hsound hd halone _, _, look_modify hsound hd halone _⟩

/-- The new file has one path. If the call fails it may be there all the same. -/
theorem createNew_sees {dir : Descriptor} {path : List K} (hdir : view path = some (dir.ino, .dir))
    (name : K) (attributes : Attributes) :
    Triple (Sees root view since own) (k.createNew dir name attributes)
      (fun file w => ∃ view', (view (path ++ [name]) = none ∧
          view' = update view (path ++ [name])
            (some (file.ino, .file ⟨[], attributes⟩)) ∧
          Alone view' (path ++ [name]) file.ino) ∧
        Sees root view' since own w)
      fun _ w => ∃ view', (view' = view ∨ view (path ++ [name]) = none ∧
          ∃ ino, view' = update view (path ++ [name])
            (some (ino, .file ⟨[], attributes⟩))) ∧
        Sees root view' since own w := by
  apply call_sees hquiet
  · exact .inl rfl
  · rintro now fs file fs' events hsound rfl heffect
    obtain ⟨hfind, hshape⟩ := look_eq_some.mp hdir
    rw [if_pos hshape] at heffect
    split at heffect
    · cases heffect
    · next hentry =>
        dsimp only at heffect
        split at heffect
        · cases heffect
        · next hfree =>
            cases heffect
            have hnone : fs (k.alloc now) = none := by simpa using hfree
            have hshapeNone : fs.shape (k.alloc now) = none := by simp [shape, hnone]
            have hnot : fs.shape (k.alloc now) ≠ some .dir := by simp [hshapeNone]
            -- nothing leads to an inode that is not there
            have hunreached : ∀ path', fs.find root path' ≠ some (k.alloc now) := by
              intro path' hfind'
              have hsome := hsound.present hfind'
              rw [hnone] at hsome
              cases hsome
            have hlook : (fs.put (k.alloc now) (.file ⟨[], attributes⟩)).look root = fs.look root :=
              look_put_of_unreached hnot hunreached
            have habsent : fs.look root (path ++ [name]) = none := by
              rw [look_concat name hdir, hentry]
              rfl
            have hleaf : Leaf (fs.put (k.alloc now) (.file ⟨[], attributes⟩)) root dir.ino path
                name (some (k.alloc now)) := by
              refine ⟨sound_put hsound hnot, by rw [hlook, hdir], ?_, ?_⟩
              · intro ino
                rw [hlook, habsent]
                simp
              · intro ino hino
                cases hino
                exact ⟨_, shape_put_self _, by simp [Inode.shape]⟩
            have hview := hleaf.look_eq
            rw [hlook] at hview
            simp only [Option.bind_some, shape_put_self, Inode.shape, Option.map_some] at hview
            refine ⟨hleaf.sound_setEntry, ⟨habsent, hview, ?_⟩, .inr ⟨habsent, _, hview⟩⟩
            intro path' shape hpath'
            by_contra hne
            rw [hview, update_of_ne hne] at hpath'
            exact hunreached path' (look_eq_some.mp hpath').1

theorem unlink_sees {dir : Descriptor} {path : List K} (hdir : view path = some (dir.ino, .dir))
    (name : K) :
    Triple (Sees root view since own) (k.unlink dir name)
      (fun _ w => ∃ view', view' = update view (path ++ [name]) none ∧
        Sees root view' since own w)
      fun _ w => ∃ view', (view' = view ∨ view' = update view (path ++ [name]) none) ∧
        Sees root view' since own w := by
  apply call_sees (Q := fun _ view' => view' = _) hquiet
  · exact .inl rfl
  · rintro now fs a fs' events hsound rfl heffect
    split at heffect
    · cases heffect
    · next ino hentry =>
        split at heffect
        · cases heffect
        · next hshape =>
            cases heffect
            have hleaf : Leaf fs root dir.ino path name none := by
              refine ⟨hsound, hdir, ?_, by simp⟩
              intro other hother
              obtain ⟨hfind, hdirectory⟩ := look_eq_some.mp hother
              rw [find_concat, (look_eq_some.mp hdir).1, Option.bind_some, hentry] at hfind
              cases hfind
              exact hshape hdirectory
            exact ⟨hleaf.sound_setEntry, hleaf.look_eq, .inr hleaf.look_eq⟩

/-- A file with one path takes the place of another name. -/
theorem rename_sees {dir : Descriptor} {path : List K} (hdir : view path = some (dir.ino, .dir))
    {source target : K} (hne : source ≠ target)
    (hsource : view (path ++ [source]) = some (ino, .file data))
    (halone : Alone view (path ++ [source]) ino)
    (htarget : ∀ old, view (path ++ [target]) ≠ some (old, .dir)) :
    Triple (Sees root view since own) (k.rename dir source target)
      (fun _ w => ∃ view', view' = update (update view (path ++ [target])
        (some (ino, .file data))) (path ++ [source]) none ∧ Sees root view' since own w)
      fun _ w => ∃ view', (view' = view ∨ view' = update (update view
        (path ++ [target]) (some (ino, .file data))) (path ++ [source]) none) ∧
        Sees root view' since own w := by
  apply call_sees (Q := fun _ view' => view' = _) hquiet
  · exact .inl rfl
  · rintro now fs a fs' events hsound rfl heffect
    obtain ⟨hfind, hshape⟩ := look_eq_some.mp hdir
    obtain ⟨hfindSource, hshapeSource⟩ := look_eq_some.mp hsource
    have hentrySource : fs.entry dir.ino source = some ino := by
      rw [find_concat, hfind] at hfindSource
      exact hfindSource
    have hpaths : path ++ [source] ≠ path ++ [target] := by
      simpa using hne
    -- first the new name, then the old one goes
    have hleaf : Leaf fs root dir.ino path target (some ino) := by
      refine ⟨hsound, hdir, htarget, ?_⟩
      intro ino' hino'
      cases hino'
      exact ⟨_, hshapeSource, by simp⟩
    have hview := hleaf.look_eq
    simp only [Option.bind_some, hshapeSource, Option.map_some] at hview
    have hdir' : (fs.setEntry dir.ino target (some ino)).look root path = some (dir.ino, .dir) := by
      rw [hview, update_of_ne (by simp)]
      exact hdir
    have hleaf' : Leaf (fs.setEntry dir.ino target (some ino)) root dir.ino path source none := by
      refine ⟨hleaf.sound_setEntry, hdir', ?_, by simp⟩
      intro old
      rw [hview, update_of_ne hpaths, hsource]
      simp
    have hview' := hleaf'.look_eq
    rw [hview] at hview'
    have hdone : Sound ((fs.setEntry dir.ino target (some ino)).setEntry dir.ino source none)
        root ∧ ((fs.setEntry dir.ino target (some ino)).setEntry dir.ino source none).look root =
          update (update (fs.look root) (path ++ [target])
            (some (ino, .file data))) (path ++ [source]) none :=
      ⟨hleaf'.sound_setEntry, hview'⟩
    rw [hentrySource] at heffect
    dsimp only at heffect
    split at heffect
    · next old hentry =>
        split at heffect
        · next hsame =>
            -- the file would have two paths
            subst hsame
            have hfindTarget : fs.find root (path ++ [target]) = some old := by
              rw [find_concat, hfind]
              exact hentry
            exact absurd (halone _ _ (look_eq_some.mpr ⟨hfindTarget, hshapeSource⟩)) hpaths.symm
        · split at heffect
          · cases heffect
          · cases heffect
            exact ⟨hdone.1, hdone.2, .inr hdone.2⟩
    · cases heffect
      exact ⟨hdone.1, hdone.2, .inr hdone.2⟩

end

end IndenturedServer.Foundation
