import IndenturedServer.Foundation.Program
import IndenturedServer.Source.Layout

/-!
What the calls of the extraction do, when the entry they are for fits.

Every call is logged; `Confined` says what must hold of such a log entry. The
program is followed with pre- and postconditions of one form, `Going`:
something about the tree, the log confined, and not more written than a number
of bytes. A call that fails leaves all three as they are, and where nothing
disturbs it (`Environment.Calm`) there is something in its way.
-/

namespace IndenturedServer.Source

open Foundation

/-- No link was on the way; what is made is strictly beneath the destination;
and where something is to be made there is nothing, or a directory for one
that is to be a directory. -/
structure Confined (a : Access Text) : Prop where
  direct : a.followed = false
  beneath : a.call.creates = true → a.found = none → a.place ≠ some []
  vacant : a.call.creates = true → a.found = none ∨ a.call = .mkdir ∧ a.found = some .dir

def Going (T : Tree Text Text → Prop) (n : Nat) (w : World) : Prop :=
  T w.tree ∧ (∀ a ∈ w.log, Confined a) ∧ w.written ≤ n

theorem Going.mono {T T' : Tree Text Text → Prop} {n m : Nat} {w : World} (h : Going T n w)
    (hT : ∀ t, T t → T' t) (hn : n ≤ m) : Going T' m w :=
  ⟨hT _ h.1, h.2.1, h.2.2.trans hn⟩

/-- Nothing goes wrong at any interaction. -/
def Environment.Calm (env : Environment) : Prop :=
  ∀ n, env.fault n = none

variable {env : Environment} {T : Tree Text Text → Prop} {n : Nat}

/-! ### Interactions -/

theorem check_triple : Triple (Going T n) (checkOptionalInitializationCancel env)
    (fun _ => Going T n) fun _ w => Going T n w ∧ ¬ env.Calm := by
  intro w hw
  simp only [EStateM.run, checkOptionalInitializationCancel]
  split
  · next hfault => exact ⟨hw, fun hcalm => by simp [hcalm w.clock] at hfault⟩
  · next hfault => exact ⟨hw, fun hcalm => by simp [hcalm w.clock] at hfault⟩
  · exact hw

theorem askArchive_triple (e : SourceError) :
    Triple (Going T n) (askArchive env e) (fun _ => Going T n)
      fun _ w => Going T n w ∧ ¬ env.Calm := by
  intro w hw
  simp only [EStateM.run, askArchive]
  split
  · next hfault => exact ⟨hw, fun hcalm => by simp [hcalm w.clock] at hfault⟩
  · exact hw

theorem call_triple {f : Tree Text Text → Except Errno (Tree Text Text) × Access Text}
    {R : Access Text → Tree Text Text → Prop}
    (hok : ∀ t t' a, T t → f t = (.ok t', a) → Confined a ∧ R a t')
    (herror : ∀ t e a, T t → f t = (.error e, a) → Confined a) :
    Triple (Going T n) (call env f) (fun a => Going (R a) n)
      fun e w => Going T n w ∧ (env.Calm → ∃ a, f w.tree = (.error e, a)) := by
  intro w ⟨htree, hlog, hwritten⟩
  have hcons : ∀ {a}, Confined a → ∀ b ∈ a :: w.log, Confined b := by
    intro a ha
    simpa [ha] using hlog
  simp only [EStateM.run, call]
  split
  · next hfault =>
    exact ⟨⟨htree, hlog, hwritten⟩, fun hcalm => by simp [hcalm w.clock] at hfault⟩
  · split
    · next tree access hf =>
      obtain ⟨haccess, htree'⟩ := hok _ _ _ htree hf
      exact ⟨htree', hcons haccess, hwritten⟩
    · next e access hf =>
      exact ⟨⟨htree, hcons (herror _ _ _ htree hf), hwritten⟩, fun _ => ⟨access, hf⟩⟩

theorem Confined.of_missed (c : Call) : Confined ⟨c, none, false, none⟩ :=
  ⟨rfl, by simp, by simp⟩

theorem make_triple (c : Call) (node : Node Text) {d : List Text} {name : Text}
    (hclear : ∀ t, T t → Clear t d)
    (htaken : ∀ t other, T t → t (d ++ [name]) = some other →
      Confined ⟨c, some (d ++ [name]), false, some other.kind⟩) :
    Triple (Going T n) (make env c node ((d ++ [name]).map .into))
      (fun a => Going (fun t' => ∃ t, T t ∧ t.IsDirectory d ∧ t (d ++ [name]) = none ∧
        t' = t.set (d ++ [name]) node ∧ a.place = some (d ++ [name])) n)
      fun e w => Going T n w ∧ (env.Calm → ∃ a, Creates c node w.tree d name (.error e, a)) := by
  have hspec : ∀ t, T t → Creates c node t d name
      (create (moves env.caseRule) env.maxLinks c node t ((d ++ [name]).map .into)) :=
    fun t ht => create_spec (moves env.caseRule) env.maxLinks c node name (hclear t ht)
  refine Triple.onError (call_triple (fun t t' a ht hf => ?_) (fun t err a ht hf => ?_))
    fun err w hw => ⟨hw.1, fun hcalm => ?_⟩
  rotate_right
  · obtain ⟨a, hf⟩ := hw.2 hcalm
    exact ⟨a, hf ▸ hspec _ hw.1.1⟩
  · have h := hspec t ht
    rw [hf] at h
    cases h with
    | made hparent hnone => exact ⟨⟨rfl, by simp, by simp⟩, t, ht, hparent, hnone, rfl, rfl⟩
  · have h := hspec t ht
    rw [hf] at h
    cases h with
    | orphan => exact .of_missed c
    | taken hother => exact htaken t _ ht hother

/-! ### Directories -/

theorem ne_none_of_isDirectory {t : Tree Text Text} {p : List Text} (h : t.IsDirectory p)
    (hp : p ≠ []) : t p ≠ none := by
  obtain ⟨mode, hmode⟩ := h
  rw [t.get_of_ne_nil hp] at hmode
  simp [hmode]

section
variable {files dirs : List Entry} {e : Entry}

theorem Holds.above {rule : CaseRule} {t : Tree Text Text} (h : Holds rule files dirs t)
    {d : List Text} (hd : t.IsDirectory d) {q : List Text} (hq : q <+: d) (hne : q ≠ []) :
    t.IsDirectory q := by
  induction d using List.reverseRecOn with
  | nil => exact absurd (List.prefix_nil.mp hq) hne
  | append_singleton d name ih =>
    obtain rfl | hq := List.prefix_concat_iff.mp hq
    · exact hd
    · obtain ⟨mode, hmode⟩ := hd
      rw [t.get_of_ne_nil (by simp)] at hmode
      exact ih (h.closed d name _ hmode) hq

structure Fits (files dirs : List Entry) (e : Entry) : Prop where
  mem : e ∈ dirs
  compatible : ∀ b ∈ files, Compatible b e

variable (hfits : Fits files dirs e)
include hfits

theorem mkdir_triple {p : List Text} (hp : e.Through env.caseRule p)
    (hT : ∀ t, T t → Holds env.caseRule files dirs t) :
    Triple (Going T n) (mkdir env (p.map .into))
      (fun _ => Going (fun t => Holds env.caseRule files dirs t ∧ t.IsDirectory p) n)
      fun err w => Going T n w ∧ (env.Calm → w.tree.IsDirectory p ∨
        err = .noEntry ∧ ¬ w.tree.IsDirectory p.dropLast) := by
  have hclear : ∀ t, T t → Clear t p := fun t ht => (hT t ht).clear hfits.compatible hp.1
  rcases List.eq_nil_or_concat p with rfl | ⟨d, name, rfl⟩
  · -- the destination is there
    refine Triple.bind ((call_triple (R := fun _ _ => False) ?_ ?_).onError fun _ w hw =>
      ⟨hw.1, fun _ => .inl ⟨none, rfl⟩⟩) fun _ => .pure fun _ h => h.1.elim
    · intro t t' a ht hf
      rw [List.map_nil, create_nil] at hf
      cases hf
    · intro t err a ht hf
      rw [List.map_nil, create_nil] at hf
      cases hf
      exact ⟨rfl, by simp, by simp⟩
  · rw [List.concat_eq_append] at hp hclear ⊢
    have hkind : ∀ t other, T t → t (d ++ [name]) = some other → other.kind = .dir :=
      fun t other ht hother => hclear t ht _ (List.prefix_refl _) (by simp) other hother
    have hmake := @make_triple env T n .mkdir (.dir none) d name
      (fun t ht => (hclear t ht).upTo (List.prefix_append d [name]))
      (fun t other ht hother => ⟨rfl, by simp, by simp [hkind t other ht hother]⟩)
    refine (hmake.onError fun err w hw => ⟨hw.1, fun hcalm => ?_⟩).bind fun a =>
      .pure fun w hw => hw.mono (fun t' h => ?_) le_rfl
    · obtain ⟨t, ht, hparent, hnone, rfl, -⟩ := h
      refine ⟨(hT t ht).setDir hfits.mem hp (by simp [hnone]) (fun d' name' heq => ?_) none,
        t.isDirectory_set_self _ none⟩
      obtain ⟨rfl, -⟩ := List.append_inj' heq rfl
      exact hparent
    · obtain ⟨a, hspec⟩ := hw.2 hcalm
      cases hspec with
      | orphan hq hne hnone =>
        refine .inr ⟨rfl, fun hd => ?_⟩
        rw [List.dropLast_concat] at hd
        exact ne_none_of_isDirectory ((hT _ hw.1.1).above hd hq hne) hne hnone
      | @taken other hother =>
        have hdir := hkind _ _ hw.1.1 hother
        cases other with
        | dir mode => exact .inl ⟨mode, by rw [Tree.get_of_ne_nil _ (by simp)]; exact hother⟩
        | file content mode => cases hdir
        | link text => cases hdir

/-- A directory that is there is found, and without one the error stands. -/
theorem orIsDir_triple {p : List Text} (hp : p <+: e.key env.caseRule) (err : Errno) :
    Triple (fun w => Going (Holds env.caseRule files dirs) n w ∧ (env.Calm → w.tree.IsDirectory p))
      (orIsDir env (p.map .into) err)
      (fun _ => Going (fun t => Holds env.caseRule files dirs t ∧ t.IsDirectory p) n)
      fun _ w => Going (Holds env.caseRule files dirs) n w ∧ ¬ env.Calm := by
  refine Triple.bind (Q := fun b w => Going (Holds env.caseRule files dirs) n w ∧
    (b = true → w.tree.IsDirectory p) ∧ (b = false → ¬ env.Calm)) ?_ fun b => ?_
  · intro w ⟨⟨hholds, hlog, hwritten⟩, hthere⟩
    have hpass : Passable w.tree p := (hholds.clear hfits.compatible hp).passable
    show Ends _ _ (isDir env (p.map .into) w)
    unfold isDir
    split
    · next hfault =>
      exact ⟨⟨hholds, hlog, hwritten⟩, nofun, fun _ hcalm => by simp [hcalm w.clock] at hfault⟩
    · rcases stat_spec (moves env.caseRule) env.maxLinks hpass with ⟨hstat, q, hq, hne, hnone⟩ | hstat
      · rw [hstat]
        refine ⟨⟨hholds, by simpa [Confined.of_missed] using hlog, hwritten⟩, nofun, fun _ hcalm => ?_⟩
        exact ne_none_of_isDirectory (hholds.above (hthere hcalm) hq hne) hne hnone
      · rw [hstat]
        have haccess : Confined ⟨.stat, some p, false, (w.tree.get p).map Node.kind⟩ :=
          ⟨rfl, by simp [Call.creates], by simp [Call.creates]⟩
        refine ⟨⟨hholds, by simpa [haccess] using hlog, hwritten⟩, fun hfound => ?_,
          fun hfound hcalm => ?_⟩
        · have hkind : (w.tree.get p).map Node.kind = some .dir := by simpa using hfound
          obtain ⟨node, hnode, hdir⟩ := Option.map_eq_some_iff.mp hkind
          cases node with
          | dir mode => exact ⟨mode, hnode⟩
          | file content mode => cases hdir
          | link text => cases hdir
        · obtain ⟨mode, hmode⟩ := hthere hcalm
          simp [hmode, Node.kind] at hfound
  · cases b with
    | true => exact .pure fun w hw => ⟨⟨hw.1.1, hw.2.1 rfl⟩, hw.1.2⟩
    | false => exact .throw fun w hw => ⟨hw.1, hw.2.2 rfl⟩

theorem mkdirOrIsDir_triple {p : List Text} (hp : e.Through env.caseRule p)
    (hT : ∀ t, T t → Holds env.caseRule files dirs t)
    (hparent : ∀ t, T t → t.IsDirectory p.dropLast) :
    Triple (Going T n) (tryCatch (mkdir env (p.map .into)) (orIsDir env (p.map .into)))
      (fun _ => Going (fun t => Holds env.caseRule files dirs t ∧ t.IsDirectory p) n)
      fun _ w => Going (Holds env.caseRule files dirs) n w ∧ ¬ env.Calm := by
  refine (mkdir_triple hfits hp hT).tryCatch fun err => (orIsDir_triple hfits hp.1 err).onEntry
    fun w hw => ⟨hw.1.mono hT le_rfl, fun hcalm => ?_⟩
  exact (hw.2 hcalm).resolve_right fun hmissing => hmissing.2 (hparent _ hw.1.1)

theorem createDirAll_triple {p : List Text} (hp : e.Through env.caseRule p) :
    Triple (Going (Holds env.caseRule files dirs) n) (createDirAll env (p.map .into))
      (fun _ => Going (fun t => Holds env.caseRule files dirs t ∧ t.IsDirectory p) n)
      fun _ w => Going (Holds env.caseRule files dirs) n w ∧ ¬ env.Calm := by
  rw [createDirAll, ← List.map_reverse]
  induction hr : p.reverse generalizing p with
  | nil =>
    obtain rfl : p = [] := by simpa using hr
    exact mkdirOrIsDir_triple hfits hp (fun _ ht => ht) fun _ _ => ⟨none, rfl⟩
  | cons name up ih =>
    obtain rfl : p = up.reverse ++ [name] := by
      rw [← List.reverse_reverse p, hr, List.reverse_cons]
    have hpath : (Move.into name :: up.map Move.into).reverse =
        (up.reverse ++ [name]).map Move.into := by simp
    -- the parent is on the way to the entry, and not the entry
    have hparent : e.Through env.caseRule up.reverse := by
      refine ⟨(List.prefix_append _ _).trans hp.1, fun heq => ?_⟩
      have hlength := hp.1.length_le
      rw [← heq, List.length_append, List.length_singleton] at hlength
      omega
    rw [List.map_cons, createDirAllFrom]
    simp only [hpath]
    refine (mkdir_triple hfits hp fun _ ht => ht).tryCatch fun err => ?_
    split
    · refine ((ih hparent (by simp)).onEntry fun w hw => hw.1).bind fun _ =>
        mkdirOrIsDir_triple hfits hp (fun _ ht => ht.1) fun t ht => ?_
      rw [List.dropLast_concat]
      exact ht.2
    · next hother =>
      refine (orIsDir_triple hfits hp.1 err).onEntry fun w hw => ⟨hw.1, fun hcalm => ?_⟩
      exact (hw.2 hcalm).resolve_right fun hmissing => hother hmissing.1

end

/-! ### Modes -/

theorem setPermissions_triple (mode : UInt32) {p : List Text} (hp : p ≠ [])
    (hpass : ∀ t, T t → Passable t p)
    (hthere : ∀ t, T t → ∀ q, q <+: p → q ≠ [] → t q ≠ none) :
    Triple (Going T n) (setPermissions env mode (p.map .into))
      (fun _ => Going (fun t' => ∃ t node, T t ∧ t p = some node ∧
        t' = t.set p (node.withMode (mode &&& 0o777).toNat)) n)
      fun _ w => Going T n w ∧ ¬ env.Calm := by
  have hchmod : ∀ t, T t → ∃ node, t p = some node ∧
      chmod (moves env.caseRule) env.maxLinks (mode &&& 0o777).toNat t (p.map .into) =
        (.ok (t.set p (node.withMode (mode &&& 0o777).toNat)), ⟨.chmod, some p, false, some node.kind⟩) := by
    intro t ht
    rcases chmod_spec (moves env.caseRule) env.maxLinks (mode &&& 0o777).toNat (hpass t ht)
      with ⟨-, -, -, -, q, hq, hne, hnone⟩ | ⟨node, hnode, hchmod⟩
    · exact absurd hnone (hthere t ht q hq hne)
    · rw [t.get_of_ne_nil hp] at hnode
      exact ⟨node, hnode, hchmod⟩
  refine Triple.bind (Triple.onError (call_triple (fun t t' a ht hf => ?_) fun t err a ht hf => ?_)
    fun err w hw => ⟨hw.1, fun hcalm => ?_⟩) fun _ => .pure fun w hw => hw
  · obtain ⟨node, hnode, heq⟩ := hchmod t ht
    rw [hf] at heq
    cases heq
    exact ⟨⟨rfl, by simp [Call.creates], by simp [Call.creates]⟩, t, node, ht, hnode, rfl⟩
  · obtain ⟨node, -, heq⟩ := hchmod t ht
    cases hf.symm.trans heq
  · obtain ⟨a, hf⟩ := hw.2 hcalm
    obtain ⟨node, -, heq⟩ := hchmod _ hw.1.1
    cases hf.symm.trans heq

theorem applyMode_triple (e : Entry) {p : List Text} (hp : p ≠ []) (hpass : ∀ t, T t → Passable t p)
    (hthere : ∀ t, T t → ∀ q, q <+: p → q ≠ [] → t q ≠ none) :
    Triple (Going T n) (applyMode env e (p.map .into))
      (fun _ => Going (fun t' => ∃ t, T t ∧ (e.permissions = none → t' = t) ∧
        ∀ mode, e.permissions = some mode →
          ∃ node, t p = some node ∧ t' = t.set p (node.withMode mode)) n)
      fun _ w => Going T n w ∧ ¬ env.Calm := by
  unfold applyMode Entry.permissions
  cases e.unixMode with
  | none => exact .pure fun w hw => hw.mono (fun t ht => ⟨t, ht, by simp, by simp⟩) le_rfl
  | some mode =>
    refine .adaptExcept ((setPermissions_triple mode hp hpass hthere).onReturn fun _ w hw => ?_)
    refine hw.mono (fun t' h => ?_) le_rfl
    obtain ⟨t, node, ht, hnode, rfl⟩ := h
    refine ⟨t, ht, by simp, fun m hm => ⟨node, hnode, ?_⟩⟩
    rw [Option.map_some, Option.some_inj] at hm
    rw [hm]

end IndenturedServer.Source
