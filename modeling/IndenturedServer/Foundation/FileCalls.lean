import IndenturedServer.Foundation.FileTree

/-!
System calls on a `Tree`.

`resolve` is path resolution as a function, in the form the kernel has it: it
gives up after a number of links. The calls are built on it. Each returns,
besides its result, an `Access` that says what it came across: the place it
acted on, whether a link led there, and what was at the place before.

The specification of a call is for paths that are `Clear`, which have only
directories on them as far as they exist. On such a path no link is followed
and the place is the path itself.
-/

namespace IndenturedServer.Foundation

/-! ### Resolution -/

inductive Errno
  | noEntry
  | notDirectory
  | alreadyExists
  | tooManyLinks
  | noSpace
  /-- The call would have acted above the base, where there is no model. -/
  | outside
  /-- Anything else that a call can fail with. -/
  | other
  deriving DecidableEq, Repr

/-- A walk up to its first link. -/
inductive Scan (K T : Type*)
  | done (result : Except Errno (List K))
  | link (dir : List K) (text : T) (todo : List (Move K))

section
variable {K T : Type*}

def scan (t : Tree K T) : List K → List (Move K) → Scan K T
  | dir, [] => .done (.ok dir)
  | _, .root :: _ => .done (.error .outside)
  | [], .up :: _ => .done (.error .outside)
  | name :: dir, .up :: todo => scan t (name :: dir).dropLast todo
  | dir, .into name :: todo =>
    match t (dir ++ [name]) with
    | none => .done (.error .noEntry)
    | some (.dir _) => scan t (dir ++ [name]) todo
    | some (.file _ _) =>
      .done (if todo.isEmpty then .ok (dir ++ [name]) else .error .notDirectory)
    | some (.link text) => .link dir text todo

structure Lookup (K : Type*) where
  result : Except Errno (List K)
  /-- A link was on the way. -/
  followed : Bool

variable (expand : T → List (Move K))

/-- Resolve a path from a directory, through at most `links` links. -/
def resolve (t : Tree K T) : Nat → List K → List (Move K) → Lookup K
  | 0, dir, todo =>
    match scan t dir todo with
    | .done result => ⟨result, false⟩
    | .link _ _ _ => ⟨.error .tooManyLinks, true⟩
  | links + 1, dir, todo =>
    match scan t dir todo with
    | .done result => ⟨result, false⟩
    | .link dir' text rest => ⟨(resolve t links dir' (expand text ++ rest)).result, true⟩

/-- If the function says that a path leads outside, the walk gets there. -/
theorem escapes_of_scan_outside {t : Tree K T} {dir : List K} {todo : List (Move K)}
    (h : scan t dir todo = .done (.error .outside)) : Walk.Escapes t expand ⟨dir, todo⟩ := by
  fun_induction scan t dir todo with
  | case1 dir => cases h
  | case2 dir todo => exact ⟨_, .refl, .root dir todo⟩
  | case3 todo => exact ⟨_, .refl, .up todo⟩
  | case4 name dir todo ih =>
    have hlast : (name :: dir).dropLast ++ [(name :: dir).getLast (by simp)] = name :: dir :=
      List.dropLast_append_getLast _
    rw [← hlast]
    exact .head (.up _ _ _) (ih h)
  | case5 dir name todo hnode => cases h
  | case6 dir name todo mode hnode ih => exact .head (.enter dir name todo mode hnode) (ih h)
  | case7 dir name todo content mode hnode => split at h <;> cases h
  | case8 dir name todo text hnode => cases h

theorem scan_link_steps {t : Tree K T} {dir dir' : List K} {todo rest : List (Move K)} {text : T}
    (h : scan t dir todo = .link dir' text rest) :
    Relation.ReflTransGen (Walk.Step t expand) ⟨dir, todo⟩ ⟨dir', expand text ++ rest⟩ := by
  fun_induction scan t dir todo with
  | case1 dir => cases h
  | case2 dir todo => cases h
  | case3 todo => cases h
  | case4 name dir todo ih =>
    have hlast : (name :: dir).dropLast ++ [(name :: dir).getLast (by simp)] = name :: dir :=
      List.dropLast_append_getLast _
    rw [← hlast]
    exact .head (.up _ _ _) (ih h)
  | case5 dir name todo hnode => cases h
  | case6 dir name todo mode hnode ih => exact .head (.enter dir name todo mode hnode) (ih h)
  | case7 dir name todo content mode hnode => cases h
  | case8 dir name todo text hnode =>
    obtain ⟨rfl, rfl, rfl⟩ := Scan.link.inj h
    exact .single (.follow _ name _ _ hnode)

theorem escapes_of_resolve_outside {t : Tree K T} {links : Nat} {dir : List K}
    {todo : List (Move K)} (h : (resolve expand t links dir todo).result = .error .outside) :
    Walk.Escapes t expand ⟨dir, todo⟩ := by
  induction links generalizing dir todo with
  | zero =>
    unfold resolve at h
    split at h
    case h_1 result hscan => exact escapes_of_scan_outside expand (h ▸ hscan)
    case h_2 => cases h
  | succ links ih =>
    unfold resolve at h
    split at h
    case h_1 result hscan => exact escapes_of_scan_outside expand (h ▸ hscan)
    case h_2 dir' text rest hscan =>
      obtain ⟨w, hsteps, hleaves⟩ := ih h
      exact ⟨w, (scan_link_steps expand hscan).trans hsteps, hleaves⟩

/-- As far as the path exists, it consists of directories. -/
def Clear (t : Tree K T) (p : List K) : Prop :=
  ∀ q, q <+: p → q ≠ [] → ∀ node, t q = some node → node.kind = .dir

theorem Clear.upTo {t : Tree K T} {p q : List K} (h : Clear t p) (hq : q <+: p) : Clear t q :=
  fun r hr => h r (hr.trans hq)

/-- The same, but at its end the path may have a file. -/
def Passable (t : Tree K T) (p : List K) : Prop :=
  ∀ q, q <+: p → q ≠ [] → ∀ node, t q = some node → node.kind = .dir ∨ q = p ∧ node.kind = .file

theorem Clear.passable {t : Tree K T} {p : List K} (h : Clear t p) : Passable t p :=
  fun q hq hne node hnode => .inl (h q hq hne node hnode)

/-- The scan goes the whole way or finds a part of the path missing. -/
theorem scan_names {t : Tree K T} {d names : List K}
    (hpass : Passable (fun q => t (d ++ q)) names) :
    (scan t d (names.map .into) = .done (.ok (d ++ names)) ∧
      ∀ q, q <+: names → q ≠ [] → ∃ node, t (d ++ q) = some node) ∨
    (scan t d (names.map .into) = .done (.error .noEntry) ∧
      ∃ q, q <+: names ∧ q ≠ [] ∧ t (d ++ q) = none) := by
  induction names generalizing d with
  | nil =>
    left
    refine ⟨by simp [scan], fun q hq hne => ?_⟩
    exact absurd (List.prefix_nil.mp hq) hne
  | cons name names ih =>
    have hname : [name] <+: name :: names := ⟨names, rfl⟩
    have hassoc : ∀ q, d ++ name :: q = d ++ [name] ++ q := by simp
    cases hnode : t (d ++ [name]) with
    | none =>
      right
      exact ⟨by simp [scan, hnode], [name], hname, by simp, hnode⟩
    | some node =>
      -- every part of the path is the first name or a longer one
      have hparts : ∀ {q}, q <+: name :: names → q ≠ [] →
          (∀ q', q' <+: names → q' ≠ [] → ∃ node, t (d ++ [name] ++ q') = some node) →
          ∃ node, t (d ++ q) = some node := by
        intro q hq hne hall
        obtain rfl | ⟨q', rfl, hq'⟩ := List.prefix_cons_iff.mp hq
        · exact absurd rfl hne
        · rw [hassoc]
          by_cases hempty : q' = []
          · rw [hempty, List.append_nil]
            exact ⟨node, hnode⟩
          · exact hall q' hq' hempty
      cases node with
      | dir mode =>
        have hscan : scan t d ((name :: names).map .into) =
            scan t (d ++ [name]) (names.map .into) := by simp [scan, hnode]
        have hrest := ih (d := d ++ [name]) fun q hq hne node h => by
          have hq' : name :: q <+: name :: names := List.cons_prefix_cons.mpr ⟨rfl, hq⟩
          have hnode' : t (d ++ name :: q) = some node := by
            rw [hassoc]
            exact h
          simpa using hpass (name :: q) hq' (by simp) node hnode'
        rw [hscan, hassoc names]
        refine hrest.imp (And.imp_right fun hall q hq hne => hparts hq hne hall) (And.imp_right ?_)
        rintro ⟨q, hq, -, hnone⟩
        refine ⟨name :: q, List.cons_prefix_cons.mpr ⟨rfl, hq⟩, by simp, ?_⟩
        rw [hassoc]
        exact hnone
      | file content mode =>
        have hlast : [name] = name :: names := by
          simpa [Node.kind] using hpass [name] hname (by simp) _ hnode
        obtain rfl : names = [] := by simpa using hlast.symm
        left
        refine ⟨by simp [scan, hnode], fun q hq hne => hparts hq hne fun q' hq' hne' => ?_⟩
        exact absurd (List.prefix_nil.mp hq') hne'
      | link text => simpa [Node.kind] using hpass [name] hname (by simp) _ hnode

/-- On such a path no link is followed. -/
theorem resolve_names {t : Tree K T} {p : List K} (links : Nat) (hpass : Passable t p) :
    (resolve expand t links [] (p.map .into) = ⟨.ok p, false⟩ ∧
      ∀ q, q <+: p → q ≠ [] → ∃ node, t q = some node) ∨
    (resolve expand t links [] (p.map .into) = ⟨.error .noEntry, false⟩ ∧
      ∃ q, q <+: p ∧ q ≠ [] ∧ t q = none) := by
  have hdone : ∀ {result}, scan t [] (p.map .into) = .done result →
      resolve expand t links [] (p.map .into) = ⟨result, false⟩ := by
    intro result hscan
    cases links <;> simp [resolve, hscan]
  exact (scan_names (d := []) hpass).imp (And.imp_left hdone) (And.imp_left hdone)

end

/-! ### The calls -/

inductive Call
  | mkdir
  | createNew
  | symlink
  | stat
  | chmod
  deriving DecidableEq, Repr

/-- The calls that make something new. -/
def Call.creates : Call → Bool
  | .mkdir | .createNew | .symlink => true
  | .stat | .chmod => false

/-- What a call came across. -/
structure Access (K : Type*) where
  call : Call
  /-- Where it acted; `none` if it did not get there. -/
  place : Option (List K)
  /-- A link was on the way. -/
  followed : Bool
  found : Option NodeKind
  deriving DecidableEq, Repr

def Node.withMode {T : Type*} (mode : Nat) : Node T → Node T
  | .dir _ => .dir (some mode)
  | .file content _ => .file content (some mode)
  | .link text => .link text

section
variable {K T : Type*} [DecidableEq K] (expand : T → List (Move K)) (links : Nat)

/-- Make a new node. The last name of the path is not resolved. -/
def create (call : Call) (node : Node T) (t : Tree K T) (path : List (Move K)) :
    Except Errno (Tree K T) × Access K :=
  match path.reverse with
  | .into name :: up =>
    let parent := resolve expand t links [] up.reverse
    match parent.result with
    | .error e => (.error e, ⟨call, none, parent.followed, none⟩)
    | .ok dir =>
      match t.get dir with
      | some (.dir _) =>
        let p := dir ++ [name]
        let access := ⟨call, some p, parent.followed, (t p).map Node.kind⟩
        match t p with
        | none => (.ok (t.set p node), access)
        | some _ => (.error .alreadyExists, access)
      | _ => (.error .notDirectory, ⟨call, none, parent.followed, none⟩)
  -- the path ends in a directory that is there
  | _ =>
    let whole := resolve expand t links [] path
    match whole.result with
    | .error e => (.error e, ⟨call, none, whole.followed, none⟩)
    | .ok dir => (.error .alreadyExists, ⟨call, some dir, whole.followed, some .dir⟩)

def stat (t : Tree K T) (path : List (Move K)) : Option NodeKind × Access K :=
  let whole := resolve expand t links [] path
  match whole.result with
  | .error _ => (none, ⟨.stat, none, whole.followed, none⟩)
  | .ok p =>
    let found := (t.get p).map Node.kind
    (found, ⟨.stat, some p, whole.followed, found⟩)

def chmod (mode : Nat) (t : Tree K T) (path : List (Move K)) :
    Except Errno (Tree K T) × Access K :=
  let whole := resolve expand t links [] path
  match whole.result with
  | .error e => (.error e, ⟨.chmod, none, whole.followed, none⟩)
  | .ok p =>
    let access := ⟨.chmod, some p, whole.followed, (t.get p).map Node.kind⟩
    match t.get p with
    | none => (.error .noEntry, access)
    | some node => (.ok (t.set p (node.withMode mode)), access)

theorem create_nil (call : Call) (node : Node T) (t : Tree K T) :
    create expand links call node t [] =
      (.error .alreadyExists, ⟨call, some [], false, some .dir⟩) := by
  have hresolve : resolve expand t links [] [] = ⟨.ok [], false⟩ := by
    cases links <;> simp [resolve, scan]
  simp [create, hresolve]

/-- The results that `create` can have on a clear path. -/
inductive Creates (call : Call) (node : Node T) (t : Tree K T) (d : List K) (name : K) :
    Except Errno (Tree K T) × Access K → Prop
  | orphan {q : List K} (hq : q <+: d) (hne : q ≠ []) (h : t q = none) :
      Creates call node t d name (.error .noEntry, ⟨call, none, false, none⟩)
  | taken {other : Node T} (h : t (d ++ [name]) = some other) :
      Creates call node t d name
        (.error .alreadyExists, ⟨call, some (d ++ [name]), false, some other.kind⟩)
  | made (hparent : t.IsDirectory d) (h : t (d ++ [name]) = none) :
      Creates call node t d name
        (.ok (t.set (d ++ [name]) node), ⟨call, some (d ++ [name]), false, none⟩)

theorem create_spec (call : Call) (node : Node T) {t : Tree K T} {d : List K} (name : K)
    (h : Clear t d) :
    Creates call node t d name (create expand links call node t ((d ++ [name]).map .into)) := by
  have hreverse : ((d ++ [name]).map Move.into).reverse = .into name :: (d.map Move.into).reverse := by
    simp
  rcases resolve_names expand links h.passable with
    ⟨hresolve, hall⟩ | ⟨hresolve, q, hq, hne, hnone⟩
  · have hdir : t.IsDirectory d := by
      by_cases hd : d = []
      · exact ⟨none, by rw [hd]; rfl⟩
      · obtain ⟨parent, hparent⟩ := hall d (List.prefix_refl d) hd
        have hkind := h d (List.prefix_refl d) hd parent hparent
        cases parent with
        | dir mode => exact ⟨mode, by rw [t.get_of_ne_nil hd, hparent]⟩
        | file content mode => cases hkind
        | link text => cases hkind
    obtain ⟨mode, hmode⟩ := hdir
    cases hplace : t (d ++ [name]) with
    | none => simpa [create, hreverse, hresolve, hmode, hplace] using Creates.made ⟨mode, hmode⟩ hplace
    | some other => simpa [create, hreverse, hresolve, hmode, hplace] using Creates.taken hplace
  · simpa [create, hreverse, hresolve] using Creates.orphan hq hne hnone

omit [DecidableEq K] in
theorem stat_spec {t : Tree K T} {p : List K} (hpass : Passable t p) :
    (stat expand links t (p.map .into) = (none, ⟨.stat, none, false, none⟩) ∧
      ∃ q, q <+: p ∧ q ≠ [] ∧ t q = none) ∨
    stat expand links t (p.map .into) =
      ((t.get p).map Node.kind, ⟨.stat, some p, false, (t.get p).map Node.kind⟩) := by
  rcases resolve_names expand links hpass with ⟨hresolve, -⟩ | ⟨hresolve, hmissing⟩
  · right
    simp [stat, hresolve]
  · left
    exact ⟨by simp [stat, hresolve], hmissing⟩

theorem chmod_spec (mode : Nat) {t : Tree K T} {p : List K} (hpass : Passable t p) :
    (∃ access, chmod expand links mode t (p.map .into) = (.error .noEntry, access) ∧
      access.call = .chmod ∧ access.followed = false ∧ ∃ q, q <+: p ∧ q ≠ [] ∧ t q = none) ∨
    ∃ node, t.get p = some node ∧ chmod expand links mode t (p.map .into) =
      (.ok (t.set p (node.withMode mode)), ⟨.chmod, some p, false, some node.kind⟩) := by
  rcases resolve_names expand links hpass with ⟨hresolve, hall⟩ | ⟨hresolve, hmissing⟩
  · right
    have hnode : ∃ node, t.get p = some node := by
      by_cases hp : p = []
      · exact ⟨.dir none, by rw [hp]; rfl⟩
      · obtain ⟨node, hnode⟩ := hall p (List.prefix_refl p) hp
        exact ⟨node, by rw [t.get_of_ne_nil hp, hnode]⟩
    obtain ⟨node, hnode⟩ := hnode
    exact ⟨node, hnode, by simp [chmod, hresolve, hnode]⟩
  · left
    exact ⟨⟨.chmod, none, false, none⟩, by simp [chmod, hresolve], rfl, rfl, hmissing⟩

end

end IndenturedServer.Foundation
