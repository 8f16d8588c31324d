import IndenturedServer.Foundation.FileCalls
import IndenturedServer.Foundation.Program

/-!
A directory as part of a larger one.

A program that works in a directory makes its calls on paths that lead through
that directory. As long as there is no link in it, these calls do there what the
same calls do in a tree that has the directory for its base; everything else in
the larger tree stays as it is. `Embeds` says so for whole programs: the one on
the larger tree does what the one on the smaller tree does.
-/

namespace IndenturedServer.Foundation

open List

/-! ### Programs -/

section
variable {σ τ ε δ α β γ κ : Type}

/-- Started where `f` puts a state, `y` does what `x` does in that state, and
the invariant `I` of `x` is kept. -/
def Embeds (I : σ → Prop) (f : σ → τ) (g : α → β) (x : EStateM ε σ α) (y : EStateM ε τ β) : Prop :=
  ∀ s, I s → Ends (fun a s' => I s' ∧ y (f s) = .ok (g a) (f s'))
    (fun e s' => I s' ∧ y (f s) = .error e (f s')) (x s)

namespace Embeds

variable {I : σ → Prop} {f : σ → τ} {g : α → β} {x : EStateM ε σ α} {y : EStateM ε τ β}

theorem pure (a : α) :
    Embeds I f g (Pure.pure a : EStateM ε σ α) (Pure.pure (g a) : EStateM ε τ β) :=
  fun _ hs => ⟨hs, rfl⟩

theorem throw (e : ε) :
    Embeds I f g (MonadExcept.throw e : EStateM ε σ α) (MonadExcept.throw e : EStateM ε τ β) :=
  fun _ hs => ⟨hs, rfl⟩

theorem run_cases (h : Embeds I f g x y) {s : σ} (hs : I s) :
    (∃ a s', x s = .ok a s' ∧ I s' ∧ y (f s) = .ok (g a) (f s')) ∨
      ∃ e s', x s = .error e s' ∧ I s' ∧ y (f s) = .error e (f s') := by
  have hends := h s hs
  cases hx : x s with
  | ok a s' => exact .inl ⟨a, s', rfl, by simpa [hx, Ends] using hends⟩
  | error e s' => exact .inr ⟨e, s', rfl, by simpa [hx, Ends] using hends⟩

variable {handle : ε → EStateM ε σ α} {handle' : ε → EStateM ε τ β}

section
variable (hxy : Embeds I f g x y)
include hxy

/-- What is known of the error helps with its handler. -/
theorem tryCatch_of {H : ε → Prop} (hH : Triple I x (fun _ _ => True) fun e _ => H e)
    (hhandle : ∀ e, H e → Embeds I f g (handle e) (handle' e)) :
    Embeds I f g (MonadExcept.tryCatch x handle) (MonadExcept.tryCatch y handle') := by
  intro s hs
  have herror : Ends (fun _ _ => True) (fun e _ => H e) (x s) := hH s hs
  show Ends (fun a s' => I s' ∧ EStateM.tryCatch y handle' (f s) = .ok (g a) (f s'))
    (fun e s' => I s' ∧ EStateM.tryCatch y handle' (f s) = .error e (f s'))
    (EStateM.tryCatch x handle s)
  obtain ⟨a, s', hx, hs', hy⟩ | ⟨e, s', hx, hs', hy⟩ := hxy.run_cases hs
  · simp only [EStateM.tryCatch, hx, hy]
    exact ⟨hs', rfl⟩
  · rw [hx] at herror
    simp only [EStateM.tryCatch, hx, hy]
    exact hhandle e herror s' hs'

theorem tryCatch (hhandle : ∀ e, Embeds I f g (handle e) (handle' e)) :
    Embeds I f g (MonadExcept.tryCatch x handle) (MonadExcept.tryCatch y handle') :=
  hxy.tryCatch_of Triple.any fun e _ => hhandle e

variable {h : γ → κ} {k : α → EStateM ε σ γ} {k' : β → EStateM ε τ κ}

/-- What is known of the value helps with the rest. -/
theorem bind_of {Q : α → Prop} (hQ : Triple I x (fun a _ => Q a) fun _ _ => True)
    (hk : ∀ a, Q a → Embeds I f h (k a) (k' (g a))) : Embeds I f h (x >>= k) (y >>= k') := by
  intro s hs
  have hvalue : Ends (fun a _ => Q a) (fun _ _ => True) (x s) := hQ s hs
  obtain ⟨a, s', hx, hs', hy⟩ | ⟨e, s', hx, hs', hy⟩ := hxy.run_cases hs
  · rw [hx] at hvalue
    rw [bind_of_ok hx, bind_of_ok hy]
    exact hk a hvalue s' hs'
  · rw [bind_of_error hx, bind_of_error hy]
    exact ⟨hs', rfl⟩

theorem bind (hk : ∀ a, Embeds I f h (k a) (k' (g a))) : Embeds I f h (x >>= k) (y >>= k') :=
  hxy.bind_of Triple.any fun a _ => hk a

end

theorem foldlM {F : β → γ → EStateM ε σ β} {F' : β → γ → EStateM ε τ β} {cs : List γ}
    (hstep : ∀ c ∈ cs, ∀ b, Embeds I f id (F b c) (F' b c)) (b : β) :
    Embeds I f id (cs.foldlM F b) (cs.foldlM F' b) := by
  induction cs generalizing b with
  | nil => exact pure b
  | cons c rest ih =>
    exact (hstep c mem_cons_self b).bind fun b' => ih (fun c' hc' => hstep c' (by simp [hc'])) b'

end Embeds

end

/-! ### Trees -/

section
variable {K T : Type*} [DecidableEq K]

variable {p : List K}

namespace Tree

omit [DecidableEq K] in
def below (t : Tree K T) (d : K) : Tree K T :=
  fun p => t (d :: p)

def graft (t : Tree K T) (d : K) (u : Tree K T) : Tree K T
  | [] => t []
  | name :: p => if name = d ∧ p ≠ [] then u p else t (name :: p)

def NoLinks (t : Tree K T) : Prop :=
  ∀ p text, t p ≠ some (.link text)

variable (t u : Tree K T) (d : K)

theorem graft_below (hp : p ≠ []) : t.graft d u (d :: p) = u p := by
  rw [graft, if_pos ⟨rfl, hp⟩]

@[simp] theorem graft_self : t.graft d u [d] = t [d] := by
  rw [graft, if_neg (by simp)]

theorem graft_of_ne (hp : p.head? ≠ some d) : t.graft d u p = t p := by
  cases p with
  | nil => rfl
  | cons name rest =>
    rw [head?_cons, ne_eq, Option.some_inj] at hp
    rw [graft, if_neg fun h => hp h.1]

theorem graft_set (hp : p ≠ []) (node : Node T) :
    (t.graft d u).set (d :: p) node = t.graft d (u.set p node) := by
  funext q
  by_cases hq : q = d :: p
  · rw [hq, set_self, graft_below _ _ _ hp, set_self]
  · rw [set_of_ne _ hq]
    by_cases hhead : q.head? = some d
    · obtain ⟨rest, rfl⟩ := head?_eq_some_iff.mp hhead
      by_cases hrest : rest = []
      · rw [hrest, graft_self, graft_self]
      · rw [graft_below _ _ _ hrest, graft_below _ _ _ hrest, set_of_ne]
        exact fun heq => hq (by rw [heq])
    · rw [graft_of_ne _ _ _ hhead, graft_of_ne _ _ _ hhead]

/-- What there is, is in a directory. -/
def Closed (t : Tree K T) : Prop :=
  ∀ d name node, t (d ++ [name]) = some node → t.IsDirectory d

variable {t d} in
omit [DecidableEq K] in
theorem Closed.nothing_below (h : t.Closed) (hd : t [d] = none) (p : List K) : t (d :: p) = none := by
  induction p using reverseRecOn with
  | nil => exact hd
  | append_singleton p name ih =>
    by_contra hne
    obtain ⟨node, hnode⟩ := Option.ne_none_iff_exists'.mp hne
    obtain ⟨mode, hmode⟩ := h (d :: p) name node hnode
    rw [get_of_ne_nil _ (cons_ne_nil d p), ih] at hmode
    cases hmode

variable {t d} in
theorem graft_empty (h : ∀ p, p ≠ [] → t (d :: p) = none) : t.graft d empty = t := by
  funext q
  by_cases hhead : q.head? = some d
  · obtain ⟨rest, rfl⟩ := head?_eq_some_iff.mp hhead
    by_cases hrest : rest = []
    · rw [hrest, graft_self]
    · rw [graft_below _ _ _ hrest, h rest hrest]
      rfl
  · rw [graft_of_ne _ _ _ hhead]

variable {t d} in
theorem graft_kind (hd : t.IsDirectory [d]) (p : List K) :
    ((t.graft d u).get (d :: p)).map Node.kind = (u.get p).map Node.kind := by
  rw [get_of_ne_nil _ (cons_ne_nil d p)]
  by_cases hp : p = []
  · obtain ⟨mode, hmode⟩ := hd
    rw [get_of_ne_nil _ (cons_ne_nil d [])] at hmode
    rw [hp, graft_self, hmode]
    rfl
  · rw [graft_below _ _ _ hp, get_of_ne_nil _ hp]

end Tree

/-! ### Calls -/

/-- The same access, seen from the larger tree. -/
def Access.under (d : K) (a : Access K) : Access K :=
  { a with place := a.place.map (d :: ·) }

variable {t u : Tree K T} {d : K} (expand : T → List (Move K)) (links : Nat)

theorem scan_graft (hu : u.NoLinks) (dir names : List K) :
    ∃ result, scan u dir (names.map .into) = .done result ∧
      scan (t.graft d u) (d :: dir) (names.map .into) = .done (result.map (d :: ·)) ∧
      ∀ q, result = .ok q → q = dir ++ names := by
  induction names generalizing dir with
  | nil => exact ⟨.ok dir, by simp [scan], by simp [scan, Except.map], by simp⟩
  | cons name rest ih =>
    have hbelow : t.graft d u (d :: (dir ++ [name])) = u (dir ++ [name]) :=
      Tree.graft_below _ _ _ (by simp)
    cases hnode : u (dir ++ [name]) with
    | none =>
      exact ⟨.error .noEntry, by simp [scan, hnode], by simp [scan, hbelow, hnode, Except.map],
        by simp⟩
    | some node =>
      cases node with
      | dir mode =>
        obtain ⟨result, hscan, hgraft, hresult⟩ := ih (dir ++ [name])
        exact ⟨result, by simpa [scan, hnode] using hscan,
          by simpa [scan, hbelow, hnode] using hgraft, by simpa using hresult⟩
      | file content mode =>
        refine ⟨if (rest.map Move.into).isEmpty then .ok (dir ++ [name]) else .error .notDirectory,
          by simp [scan, hnode], ?_, ?_⟩
        · cases rest <;> simp [scan, hbelow, hnode, Except.map]
        · cases rest <;> simp
      | link text => exact absurd hnode (hu _ text)

theorem resolve_graft (hd : t.IsDirectory [d]) (hu : u.NoLinks) (names : List K) :
    ∃ result, resolve expand u links [] (names.map .into) = ⟨result, false⟩ ∧
      resolve expand (t.graft d u) links [] ((d :: names).map .into) =
        ⟨result.map (d :: ·), false⟩ ∧
      ∀ q, result = .ok q → q = names := by
  obtain ⟨result, hscan, hgraft, hresult⟩ := scan_graft (t := t) (d := d) hu [] names
  obtain ⟨mode, hmode⟩ := hd
  have hnode : t [d] = some (.dir mode) := hmode
  have hstart : scan (t.graft d u) [] ((d :: names).map .into) = .done (result.map (d :: ·)) := by
    rw [map_cons, scan, nil_append, Tree.graft_self, hnode]
    exact hgraft
  refine ⟨result, ?_, ?_, hresult⟩
  · cases links <;> simp only [resolve, hscan]
  · cases links <;> simp only [resolve, hstart]

theorem isDirectory_graft (hd : t.IsDirectory [d]) (p : List K) :
    (t.graft d u).IsDirectory (d :: p) ↔ u.IsDirectory p := by
  have hkind := Tree.graft_kind u hd p
  have hdir : ∀ node : Option (Node T), (∃ mode, node = some (.dir mode)) ↔
      node.map Node.kind = some .dir := by
    intro node
    cases node with
    | none => simp
    | some node => cases node <;> simp [Node.kind]
  unfold Tree.IsDirectory
  rw [hdir, hdir, hkind]

section
variable {t : Tree K T} {q dir : List K} {followed : Bool} (call : Call) (node : Node T) (name : K)

theorem create_orphan {e : Errno}
    (hresolve : resolve expand t links [] (q.map .into) = ⟨.error e, followed⟩) :
    create expand links call node t ((q ++ [name]).map .into) =
      (.error e, ⟨call, none, followed, none⟩) := by
  simp [create, ← map_reverse, hresolve]

variable (hresolve : resolve expand t links [] (q.map .into) = ⟨.ok dir, followed⟩)
include hresolve

theorem create_notDirectory (hdir : ¬ t.IsDirectory dir) :
    create expand links call node t ((q ++ [name]).map .into) =
      (.error .notDirectory, ⟨call, none, followed, none⟩) := by
  simp only [create, map_append, map_singleton, reverse_append,
    reverse_singleton, singleton_append, reverse_reverse, hresolve]
  split
  · next mode hmode => exact absurd ⟨mode, hmode⟩ hdir
  · rfl

theorem create_beside (hdir : t.IsDirectory dir) :
    create expand links call node t ((q ++ [name]).map .into) = (match t (dir ++ [name]) with
        | none => .ok (t.set (dir ++ [name]) node)
        | some _ => .error .alreadyExists,
        ⟨call, some (dir ++ [name]), followed, (t (dir ++ [name])).map Node.kind⟩) := by
  obtain ⟨mode, hmode⟩ := hdir
  simp only [create, map_append, map_singleton, reverse_append,
    reverse_singleton, singleton_append, reverse_reverse, hresolve, hmode]
  cases t (dir ++ [name]) <;> rfl

end

variable {t' : Tree K T}

theorem create_eq_set {t : Tree K T} {call : Call} {node : Node T} {path : List (Move K)}
    (h : (create expand links call node t path).1 = .ok t') :
    ∃ p, p ≠ [] ∧ t' = t.set p node ∧ (create expand links call node t path).2.place = some p := by
  rcases hcreate : create expand links call node t path with ⟨result, access⟩
  rw [hcreate] at h
  obtain rfl : result = .ok t' := h
  unfold create at hcreate
  split at hcreate
  · next name up hpath =>
    dsimp only at hcreate
    split at hcreate
    · cases hcreate
    · next dir hresolve =>
      split at hcreate
      · split at hcreate
        · cases hcreate
          exact ⟨dir ++ [name], by simp, rfl, rfl⟩
        · cases hcreate
      · cases hcreate
  · dsimp only at hcreate
    split at hcreate <;> cases hcreate

theorem chmod_eq_set {t : Tree K T} {mode : Nat} {path : List (Move K)}
    (h : (chmod expand links mode t path).1 = .ok t') :
    ∃ p node, t.get p = some node ∧ t' = t.set p (node.withMode mode) := by
  rcases hchmod : chmod expand links mode t path with ⟨result, access⟩
  rw [hchmod] at h
  obtain rfl : result = .ok t' := h
  simp only [chmod] at hchmod
  split at hchmod
  · cases hchmod
  · next p hresolve =>
    split at hchmod
    · cases hchmod
    · next node hnode =>
      cases hchmod
      exact ⟨p, node, hnode, rfl⟩

variable (hd : t.IsDirectory [d]) (hu : u.NoLinks)
include hd hu

theorem create_graft (call : Call) (node : Node T) (p : List K) :
    create expand links call node (t.graft d u) ((d :: p).map .into) =
      (Except.map (t.graft d) (create expand links call node u (p.map .into)).1,
        (create expand links call node u (p.map .into)).2.under d) := by
  rcases eq_nil_or_concat p with rfl | ⟨q, name, rfl⟩
  · have hroot : resolve expand (t.graft d u) links [] (([] : List K).map .into) =
        ⟨.ok [], false⟩ := by
      cases links <;> simp [resolve, scan]
    obtain ⟨mode, hmode⟩ := hd
    have hnode : t [d] = some (.dir mode) := hmode
    rw [map_nil, create_nil]
    show create expand links call node (t.graft d u) (([] ++ [d]).map .into) = _
    rw [create_beside expand links call node d hroot ⟨none, rfl⟩, nil_append, Tree.graft_self,
      hnode]
    rfl
  · rw [concat_eq_append]
    obtain ⟨result, hresolve, hgraft, -⟩ := resolve_graft expand links hd hu q
    show create expand links call node (t.graft d u) (((d :: q) ++ [name]).map .into) = _
    cases result with
    | error e =>
      rw [create_orphan expand links call node name hresolve,
        create_orphan expand links call node name hgraft]
      rfl
    | ok dir =>
      have hdirectory := isDirectory_graft (u := u) hd dir
      by_cases hparent : u.IsDirectory dir
      · have hplace : t.graft d u (d :: dir ++ [name]) = u (dir ++ [name]) :=
          Tree.graft_below _ _ _ (by simp)
        rw [create_beside expand links call node name hresolve hparent,
          create_beside expand links call node name hgraft (hdirectory.mpr hparent), hplace]
        cases u (dir ++ [name]) with
        | none =>
          refine Prod.ext ?_ rfl
          exact congrArg Except.ok (Tree.graft_set t u d (by simp) node)
        | some other => rfl
      · rw [create_notDirectory expand links call node name hresolve hparent,
          create_notDirectory expand links call node name hgraft (mt hdirectory.mp hparent)]
        rfl

theorem stat_graft (p : List K) : stat expand links (t.graft d u) ((d :: p).map .into) =
      ((stat expand links u (p.map .into)).1, (stat expand links u (p.map .into)).2.under d) := by
  obtain ⟨result, hresolve, hgraft, -⟩ := resolve_graft expand links hd hu p
  simp only [stat, hresolve, hgraft]
  cases result with
  | error e => rfl
  | ok q => simp [Except.map, Access.under, Tree.graft_kind u hd]

theorem chmod_graft (mode : Nat) (hp : p ≠ []) :
    chmod expand links mode (t.graft d u) ((d :: p).map .into) =
      (Except.map (t.graft d) (chmod expand links mode u (p.map .into)).1,
        (chmod expand links mode u (p.map .into)).2.under d) := by
  obtain ⟨result, hresolve, hgraft, hresult⟩ := resolve_graft expand links hd hu p
  simp only [chmod, hresolve, hgraft]
  cases result with
  | error e => rfl
  | ok q =>
    obtain rfl := hresult q rfl
    have hget : (t.graft d u).get (d :: q) = u.get q := by
      rw [Tree.get_of_ne_nil _ (cons_ne_nil d q), Tree.graft_below _ _ _ hp,
        Tree.get_of_ne_nil _ hp]
    simp only [Except.map, hget]
    cases u.get q with
    | none => rfl
    | some node => exact Prod.ext (congrArg Except.ok (Tree.graft_set t u d hp _)) rfl

end

end IndenturedServer.Foundation
