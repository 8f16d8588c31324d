import IndenturedServer.Artifacts.Names
import IndenturedServer.Artifacts.Utf8

/-!
The walk over a workspace leaves out no artifact.

`collect_artifacts_zip` does not enter a directory that no include pattern can
match anything in. What it compares with is made of the components of a
pattern, up to the first one with a wildcard, whereas the pattern is matched
as text. A text that the pattern matches starts with everything in front of
the first wildcard, and so the two agree.
-/

namespace IndenturedServer.Artifacts

open Foundation Source List

/-! ### What a pattern can match -/

/-- The pattern and the text agree up to the first wildcard, which may stand for
any text. -/
def literallyMatches : Text → Text → Bool
  | [], text => text = []
  | p :: pattern, text =>
    if isWildcard p then true
    else match text with
      | [] => false
      | b :: text => p = b && literallyMatches pattern text

/-- Nothing but the wildcards is special in a pattern. -/
def Globs.Literal (globs : Globs) : Prop :=
  ∀ pattern text, globs.matchesText pattern text = true → literallyMatches pattern text = true

variable {pattern : Text}

/-- The text that both begin with. -/
theorem literallyMatches_cases {text : Text} (h : literallyMatches pattern text = true) :
    pattern = text ∧ pattern.any isWildcard = false ∨
    ∃ literal w pattern' text', pattern = literal ++ w :: pattern' ∧ text = literal ++ text' ∧
      literal.any isWildcard = false ∧ isWildcard w = true := by
  fun_induction literallyMatches pattern text with
  | case1 text =>
    left
    exact ⟨(of_decide_eq_true h).symm, rfl⟩
  | case2 p pattern text hp => exact .inr ⟨[], p, pattern, text, rfl, rfl, rfl, hp⟩
  | case3 => contradiction
  | case4 p pattern hp b text ih =>
    obtain ⟨hpb, hrest⟩ := Bool.and_eq_true_iff.mp h
    obtain rfl := of_decide_eq_true hpb
    have hp := eq_false_of_ne_true hp
    obtain ⟨rfl, hwild⟩ | ⟨literal, w, pattern', text', rfl, rfl, hwild, hw⟩ := ih hrest
    · left
      exact ⟨rfl, by rw [any_cons, hp, hwild]; rfl⟩
    · right
      refine ⟨p :: literal, w, pattern', text', rfl, rfl, ?_, hw⟩
      rw [any_cons, hp, hwild]
      rfl

/-! ### The parts of a text -/

/-- A text that goes on: the parts that are complete stay, and the last one goes
on. -/
theorem splitOn_append (literal : Text) :
    ∃ done last, done.flatten ⊆ literal ∧ ∀ text,
      (literal ++ text).splitOn slash = done ++ (text.splitOn slash).modifyHead (last ++ ·) := by
  induction literal with
  | nil =>
    refine ⟨[], [], nil_subset _, fun text => ?_⟩
    cases h : text.splitOn slash <;> simp [h]
  | cons b literal ih =>
    obtain ⟨done, last, hsub, hsplit⟩ := ih
    by_cases hb : b = slash
    · refine ⟨[] :: done, last, fun c hc => mem_cons_of_mem _ (hsub hc), fun text => ?_⟩
      rw [cons_append, splitOn_cons_eq_if_modifyHead, if_pos (beq_iff_eq.mpr hb), hsplit]
      rfl
    · have hcons : ∀ text, (b :: literal ++ text).splitOn slash =
          (done ++ (text.splitOn slash).modifyHead (last ++ ·)).modifyHead (b :: ·) := by
        intro text
        rw [cons_append, splitOn_cons_eq_if_modifyHead, if_neg (by simpa using hb), hsplit]
      cases done with
      | nil =>
        refine ⟨[], b :: last, nil_subset _, fun text => ?_⟩
        rw [hcons, nil_append, nil_append, modifyHead_modifyHead]
        rfl
      | cons first done =>
        refine ⟨(b :: first) :: done, last, ?_, fun text => (hcons text).trans rfl⟩
        intro c hc
        obtain rfl | hc := mem_cons.mp hc
        · exact mem_cons_self
        · exact mem_cons_of_mem _ (hsub hc)

theorem components_append {path : Text} {names parts : List Text} (hne : names ≠ [])
    (hnames : ∀ name ∈ names, component name = some (.normal name))
    (hpath : path.splitOn slash = names ++ parts) :
    components path = names.map .normal ++ parts.filterMap component := by
  obtain ⟨first, names, rfl⟩ := exists_cons_of_ne_nil hne
  obtain ⟨hfirst, hnames⟩ := forall_mem_cons.mp hnames
  have hrest : (names ++ parts).filterMap component =
      names.map .normal ++ parts.filterMap component := by
    rw [filterMap_append, filterMap_congr hnames, filterMap_eq_map']
  have hdot : first ≠ [dot] := by
    rintro rfl
    cases hfirst
  cases first with
  | nil => cases hfirst
  | cons b first =>
    rw [components, hpath]
    simp only [cons_append, if_neg hdot, hfirst, hrest]
    rfl

theorem literalComponents_append {names : List Text} (parts : List Component)
    (hnames : ∀ name ∈ names, name.any isWildcard = false) :
    literalComponents (names.map .normal ++ parts) = names ++ literalComponents parts := by
  induction names with
  | nil => rfl
  | cons name names ih =>
    obtain ⟨hname, hnames⟩ := forall_mem_cons.mp hnames
    rw [map_cons, cons_append, literalComponents, hname, ih hnames]
    rfl

/-- What a pattern matches is below its literal components. -/
theorem literalComponents_isPrefix {path : List Text} (hne : path ≠ [])
    (hnames : ∀ name ∈ path, OsName name) (h : literallyMatches pattern (join path) = true) :
    literalComponents (components pattern) <+: path := by
  have hsplit := split_join hne hnames
  have hcomponent : ∀ name ∈ path, component name = some (.normal name) := fun name hname =>
    component_of_proper (hnames name hname).ne_nil (hnames name hname).ne_dot (hnames name hname).ne_dots
  obtain ⟨rfl, hwild⟩ | ⟨literal, w, pattern', text, rfl, htext, hwild, hw⟩ := literallyMatches_cases h
  · -- without a wildcard, the pattern is the path
    have hpath := components_append hne hcomponent (hsplit.trans (append_nil path).symm)
    rw [hpath, literalComponents_append]
    · simp [literalComponents]
    · intro name hname
      rw [any_eq_false] at hwild ⊢
      exact fun b hb => hwild b (mem_join_of_part hname hb)
  · obtain ⟨done, last, hsub, happend⟩ := splitOn_append literal
    -- the parts in front of the one with the wildcard
    have hdone : done <+: path := by
      rw [← hsplit, htext, happend]
      exact prefix_append _ _
    have hliteral : ∀ name ∈ done, name.any isWildcard = false := by
      intro name hname
      rw [any_eq_false] at hwild ⊢
      exact fun b hb => hwild b (hsub (mem_flatten.mpr ⟨name, hname, hb⟩))
    obtain ⟨part, parts, hparts, hpart⟩ : ∃ part parts,
        (literal ++ w :: pattern').splitOn slash = (done ++ [part]) ++ parts ∧
          part.any isWildcard = true := by
      have hslash : ¬ (w == slash) = true := by
        intro heq
        rw [beq_iff_eq.mp heq] at hw
        exact absurd hw (by decide)
      obtain ⟨first, parts, hfirst⟩ := exists_cons_of_ne_nil (splitOn_ne_nil slash pattern')
      refine ⟨last ++ w :: first, parts, ?_, by simp [hw]⟩
      rw [happend, splitOn_cons_eq_if_modifyHead, if_neg hslash, hfirst]
      simp
    have hcomponents := components_append (by simp) ?_ hparts
    · rw [hcomponents, map_append, append_assoc, literalComponents_append _ hliteral]
      simpa [literalComponents, hpart] using hdone
    · intro name hname
      obtain hname | hname := mem_append.mp hname
      · exact hcomponent name (hdone.subset hname)
      · obtain rfl := mem_singleton.mp hname
        apply component_of_proper
        all_goals
          rintro rfl
          revert hpart
          decide

/-! ### Where the walk goes -/

/-- The loop that drops what is below another prefix. -/
theorem foldl_minimal (paths : List (List Text)) :
    ∀ minimal : List (List Text),
      let kept := paths.foldl (fun minimal path =>
        if minimal.any (·.isPrefixOf path) then minimal else minimal ++ [path]) minimal
      minimal ⊆ kept ∧ ∀ path ∈ paths, ∃ root ∈ kept, root <+: path := by
  induction paths with
  | nil => exact fun minimal => ⟨Subset.refl _, fun path hpath => nomatch hpath⟩
  | cons path paths ih =>
    intro minimal
    rw [foldl_cons]
    by_cases h : minimal.any (·.isPrefixOf path) = true
    · rw [if_pos h]
      obtain ⟨hsub, hkept⟩ := ih minimal
      obtain ⟨root, hroot, hbelow⟩ := any_eq_true.mp h
      refine ⟨hsub, forall_mem_cons.mpr ⟨⟨root, hsub hroot, ?_⟩, hkept⟩⟩
      exact isPrefixOf_iff_prefix.mp hbelow
    · rw [if_neg h]
      obtain ⟨hsub, hkept⟩ := ih (minimal ++ [path])
      obtain ⟨hsub, hpath⟩ := append_subset.mp hsub
      refine ⟨hsub, forall_mem_cons.mpr ⟨⟨path, ?_, prefix_refl path⟩, hkept⟩⟩
      exact hpath mem_cons_self

variable {patterns : List Text}

theorem exists_walkPrefix (h : pattern ∈ patterns) :
    ∃ root ∈ artifactWalkPrefixes patterns, root <+: literalComponents (components pattern) := by
  apply (foldl_minimal _ _).2
  rw [mem_insertionSort]
  exact mem_map_of_mem h

variable {roots : List (List Text)}

theorem isWalked_iff {path : List Text} :
    isWalked roots path = true ↔ path = [] ∨ ∃ root ∈ roots, path <+: root ∨ root <+: path := by
  simp [isWalked]

variable {ancestor : List Text}

theorem isWalked_of_isPrefix {path : List Text} (h : isWalked roots path = true)
    (hancestor : ancestor <+: path) : isWalked roots ancestor = true := by
  rw [isWalked_iff] at h ⊢
  obtain rfl | ⟨root, hroot, hpath | hroot'⟩ := h
  · exact .inl (prefix_nil.mp hancestor)
  · exact .inr ⟨root, hroot, .inl (hancestor.trans hpath)⟩
  · exact .inr ⟨root, hroot, prefix_or_prefix_of_prefix hancestor hroot'⟩

theorem isUtf8_join {path : List Text} (h : ∀ name ∈ path, isUtf8 name = true) :
    isUtf8 (join path) = true := by
  induction path with
  | nil => rfl
  | cons name path ih =>
    obtain ⟨hname, hpath⟩ := forall_mem_cons.mp h
    cases path with
    | nil => simpa [join, intercalate, intersperse] using hname
    | cons next path =>
      rw [join_cons_cons, isUtf8_append _ hname, isUtf8.eq_def]
      exact ih hpath

theorem mem_inits_tail {path : List Text} (h : ancestor ∈ path.inits.tail) :
    ancestor <+: path ∧ ancestor ≠ [] := by
  cases path with
  | nil => cases h
  | cons name path =>
    obtain ⟨rest, hrest, rfl⟩ := mem_map.mp h
    exact ⟨(prefix_cons_inj name).mpr ((mem_inits _ _).mp hrest), cons_ne_nil _ _⟩

theorem isWalked_of_isIncluded {globs : Globs} {path : List Text} (hglobs : globs.Literal)
    (hnames : ∀ name ∈ path, OsName name ∧ isUtf8 name = true)
    (h : isIncluded globs patterns path = true) :
    isWalked (artifactWalkPrefixes patterns) path = true := by
  obtain ⟨pattern, hpattern, hany⟩ := any_eq_true.mp h
  obtain ⟨ancestor, hancestor, hmatch⟩ := any_eq_true.mp hany
  obtain ⟨habove, hne⟩ := mem_inits_tail hancestor
  have hnames' := fun name hname => hnames name (habove.subset hname)
  rw [toStringLossy, fromUtf8Lossy_of_isUtf8 (isUtf8_join fun name hname => (hnames' name hname).2)]
    at hmatch
  have hliteral := literalComponents_isPrefix hne (fun name hname => (hnames' name hname).1)
    (hglobs pattern _ hmatch)
  obtain ⟨root, hroot, hbelow⟩ := exists_walkPrefix hpattern
  exact isWalked_iff.mpr (.inr ⟨root, hroot, .inr (hbelow.trans (hliteral.trans habove))⟩)

/-! ### The walk over a tree -/

/-- The entries of a directory. What is not a directory itself is a leaf. -/
inductive WalkTree
  | nil
  | leaf (name : Text) (metadata : Except Errno Stat) (rest : WalkTree)
  | dir (name : Text) (metadata : Except Errno Stat) (content rest : WalkTree)

/-- The walk with `filter_entry`: a directory that does not meet the condition is
not entered. -/
def WalkTree.walk (keep : List Text → Bool) (path : List Text) : WalkTree → List WalkEntry
  | .nil => []
  | .leaf name metadata rest =>
    (if keep (path ++ [name]) then [⟨path ++ [name], false, metadata⟩] else []) ++
      rest.walk keep path
  | .dir name metadata content rest =>
    (if keep (path ++ [name]) then
      ⟨path ++ [name], true, metadata⟩ :: content.walk keep (path ++ [name]) else []) ++
      rest.walk keep path

def WalkTree.entries (tree : WalkTree) : List WalkEntry :=
  tree.walk (fun _ => true) []

def WalkTree.prunedEntries (patterns : List Text) (tree : WalkTree) : List WalkEntry :=
  tree.walk (isWalked (artifactWalkPrefixes patterns)) []

theorem WalkTree.isPrefix_of_mem_walk {keep : List Text → Bool} {entry : WalkEntry} (tree : WalkTree) :
    ∀ path, entry ∈ tree.walk keep path → path <+: entry.relative := by
  induction tree with
  | nil => exact fun path h => nomatch h
  | leaf name metadata rest ih =>
    intro path h
    obtain h | h := mem_append.mp h
    · split at h
      · obtain rfl := mem_singleton.mp h
        exact prefix_append _ _
      · cases h
    · exact ih path h
  | dir name metadata content rest ihc ihr =>
    intro path h
    obtain h | h := mem_append.mp h
    · split at h
      · obtain rfl | h := mem_cons.mp h
        · exact prefix_append _ _
        · exact (prefix_append _ _).trans (ihc _ h)
      · cases h
    · exact ihr path h

/-- Where a condition holds for the ancestors too, nothing is cut off with an
ancestor. -/
theorem WalkTree.walk_eq_filter {keep : List Text → Bool}
    (hkeep : ∀ path ancestor, keep path = true → ancestor <+: path → keep ancestor = true)
    (tree : WalkTree) :
    ∀ path, tree.walk keep path =
      (tree.walk (fun _ => true) path).filter fun entry => keep entry.relative := by
  induction tree with
  | nil => exact fun path => rfl
  | leaf name metadata rest ih =>
    intro path
    rw [WalkTree.walk, WalkTree.walk, filter_append, ih path]
    congr 1
    cases h : keep (path ++ [name]) <;> simp [h]
  | dir name metadata content rest ihc ihr =>
    intro path
    rw [WalkTree.walk, WalkTree.walk, filter_append, ihr path, ihc]
    congr 1
    cases h : keep (path ++ [name]) with
    | true => simp [h]
    | false =>
      symm
      apply filter_eq_nil_iff.mpr
      intro entry hentry hkept
      have hbelow : path ++ [name] <+: entry.relative := by
        obtain rfl | hentry := mem_cons.mp hentry
        · exact prefix_refl _
        · exact content.isPrefix_of_mem_walk _ hentry
      rw [hkeep _ _ hkept hbelow] at h
      cases h

theorem WalkTree.prunedEntries_eq (patterns : List Text) (tree : WalkTree) :
    tree.prunedEntries patterns =
      tree.entries.filter fun entry => isWalked (artifactWalkPrefixes patterns) entry.relative :=
  tree.walk_eq_filter (fun _ _ => isWalked_of_isPrefix) []

def includedFiles (globs : Globs) (patterns : List Text) (entries : List WalkEntry) :
    List WalkEntry :=
  entries.filter fun entry => !entry.isDir && isIncluded globs patterns entry.relative

/-- The pruned walk finds every file that is included. -/
theorem pruned_walk_lossless (globs : Globs) (hglobs : globs.Literal) (patterns : List Text)
    (tree : WalkTree) (hnames : ∀ entry ∈ tree.entries, ∀ name ∈ entry.relative,
      OsName name ∧ isUtf8 name = true) :
    includedFiles globs patterns (tree.prunedEntries patterns) =
      includedFiles globs patterns tree.entries := by
  rw [WalkTree.prunedEntries_eq, includedFiles, includedFiles, List.filter_filter]
  apply List.filter_congr
  intro entry hentry
  cases hincluded : isIncluded globs patterns entry.relative with
  | false => simp
  | true => rw [isWalked_of_isIncluded hglobs (hnames entry hentry) hincluded, Bool.and_true]

def starGlobs : Globs where
  compiles := fun pattern => !pattern.contains 0x5b
  matchesText := starMatches
where
  starMatches : Text → Text → Bool
    | [], text => text = []
    | p :: pattern, text =>
      if p = 0x2a then text.tails.any (starMatches pattern)
      else match text with
        | [] => false
        | b :: text => (p = b && p ≠ 0x5b || p = 0x3f) && starMatches pattern text

theorem starGlobs_literal : starGlobs.Literal := by
  intro pattern
  induction pattern with
  | nil => exact fun text h => h
  | cons p pattern ih =>
    intro text h
    by_cases hp : isWildcard p = true
    · exact if_pos hp
    · have hstar : p ≠ 0x2a := by
        rintro rfl
        exact hp rfl
      have hmark : p ≠ 0x3f := by
        rintro rfl
        exact hp rfl
      change (if p = 0x2a then _ else _) = true at h
      rw [if_neg hstar] at h
      refine (if_neg hp).trans ?_
      cases text with
      | nil => exact h
      | cons b text =>
        simp only [hmark, decide_false, Bool.or_false, Bool.and_eq_true] at h ⊢
        exact ⟨h.1.1, ih text h.2⟩

/-- The files `a/b` and `c/d`. -/
def twoDirectories : WalkTree :=
  .dir [0x61] (.ok ⟨2, .dir⟩) (.leaf [0x62] (.ok ⟨3, .file ⟨1000, 1000, 0o644⟩ 1⟩) .nil)
    (.dir [0x63] (.ok ⟨4, .dir⟩) (.leaf [0x64] (.ok ⟨5, .file ⟨1000, 1000, 0o644⟩ 1⟩) .nil) .nil)

/-- The pattern `a/*` keeps the walk out of `c`. -/
theorem pruned_walk_lossless_small :
    twoDirectories.entries.length = 4 ∧
    (twoDirectories.prunedEntries [[0x61, 0x2f, 0x2a]]).map WalkEntry.relative =
      [[[0x61]], [[0x61], [0x62]]] ∧
    includedFiles starGlobs [[0x61, 0x2f, 0x2a]] (twoDirectories.prunedEntries [[0x61, 0x2f, 0x2a]]) =
      includedFiles starGlobs [[0x61, 0x2f, 0x2a]] twoDirectories.entries :=
  ⟨rfl, by decide, pruned_walk_lossless starGlobs starGlobs_literal _ twoDirectories (by decide)⟩

end IndenturedServer.Artifacts
