import IndenturedServer.Artifacts.Listing
import IndenturedServer.Foundation.Subdirectory

/-!
The run directory in which the client unpacks an archive.

In `Artifacts.Download` the staging directory is a tree of its own. Here it is
one entry of the run directory, beside others that the client has to leave alone,
and every call names it on its path. `artifacts` may be taken: by a directory
that the client does not get to see, or by a link that leads nowhere. The two
renditions of the loop over the entries do the same in the staging directory
(`copyEntries_embeds`), and the one here nothing elsewhere.
-/

namespace IndenturedServer.Artifacts.Unzip

open Foundation Source Download
open Download (DownloadError)

def artifactsName : Text :=
  [0x61, 0x72, 0x74, 0x69, 0x66, 0x61, 0x63, 0x74, 0x73]

def stagingName (uuid : Text) : Text :=
  dot :: artifactsName ++ 0x2d :: uuid

/-- What the client finds outside the archive. -/
structure Setting where
  env : Environment
  uuid : Text
  /-- The question whether `artifacts` exists fails. -/
  unanswered : Bool
  /-- A link leads out of the run directory, and there is something. -/
  outside : Bool
  /-- The kernel finds a directory empty. -/
  isEmpty : Tree Text Text → Text → Bool
  isEmpty_sound : ∀ t d, isEmpty t d = true → ∀ p, p ≠ [] → t (d :: p) = none
  /-- The removal of the staging directory fails and leaves these paths. -/
  leaves : Option (List Text → Bool)

namespace Setting

variable (k : Setting)

/-- The name of the staging directory as the file system looks it up. -/
def staging : Text :=
  k.env.caseRule.fold (stagingName k.uuid)

def destinationExists (t : Tree Text Text) : Bool :=
  if k.unanswered then false
  else match (resolve (moves k.env.caseRule) t k.env.maxLinks [] [.into artifactsName]).result with
    | .ok _ => true
    | .error e => e = .outside && k.outside

end Setting

/-! ### Calls on the run directory -/

/-- What is in `d` is now in `d'`. -/
def moveTo (d d' : Text) (t : Tree Text Text) : Tree Text Text
  | [] => t []
  | name :: p => if name = d' then t (d :: p) else if name = d then none else t (name :: p)

/-- What is in `d` is gone, but for these paths. -/
def removeBut (keep : List Text → Bool) (d : Text) (t : Tree Text Text) : Tree Text Text
  | [] => t []
  | name :: p => if name = d ∧ keep p = false then none else t (name :: p)

/-- `rename` of a directory. Only an empty directory can be in its place. -/
def rename (isEmpty : Tree Text Text → Text → Bool) (d d' : Text) (t : Tree Text Text) :
    Except Errno (Tree Text Text) :=
  match t [d'] with
  | none => .ok (moveTo d d' t)
  | some (.dir _) => if isEmpty t d' then .ok (moveTo d d' t) else .error .other
  | some _ => .error .notDirectory

abbrev Unzipping := EStateM DownloadError World

section
variable (k : Setting)

def io {α : Type} (x : EStateM Errno World α) : Unzipping α :=
  EStateM.adaptExcept (fun _ => .io) x

def interact (e : DownloadError) (change : Tree Text Text → Except Errno (Tree Text Text)) :
    Unzipping Unit := fun w =>
  match k.env.fault w.clock with
  | some (.fails _) => .error e w.tick
  | _ =>
    match change w.tree with
    | .ok tree => .ok () { w.tick with tree := tree }
    | .error _ => .error e w.tick

def ask (e : DownloadError) : Unzipping Unit :=
  interact k e .ok

/-- A path in the staging directory. -/
def inStaging (output : List (Move Text)) : List (Move Text) :=
  .into k.staging :: output

def applyMode (r : Record) (output : List (Move Text)) : Unzipping Unit :=
  match r.unixMode with
  | none => return ()
  | some mode => io (setPermissions k.env mode (inStaging k output))

def extractFile (actual : Nat) (r : Record) (output : List (Move Text)) : Unzipping Nat := do
  io (createDirAll k.env (inStaging k output).dropLast)
  let handle ← io (Download.createPrivate k.env (inStaging k output))
  let copied ← io (Download.ioCopy k.env handle 0 r.reads)
  let actual := saturatingAdd actual copied
  MonadExcept.ofExcept (refuse (Download.maxBytes < actual) DownloadError.extractedBytes)
  applyMode k r output
  return actual

def extractEntry (actual : Nat) (r : Record) : Unzipping Nat := do
  ask k .unreadable
  let output := moves k.env.caseRule (Download.trimmedName r)
  if r.isDir then do
    io (createDirAll k.env (inStaging k output))
    return actual
  else extractFile k actual r output

/-- The second pass over the archive. -/
def copyEntries (records : List Record) : Unzipping Nat := do
  ask k .io
  ask k .unreadable
  records.foldlM (extractEntry k) 0

/-- The first pass, which does not touch the run directory. -/
def listEntries (records : List Record) : Unzipping Unit := fun w =>
  match Download.listEntries k.env records { world := w } with
  | .ok _ d => .ok () d.world
  | .error e d => .error e d.world

def createStaging : Unzipping Unit :=
  interact k .io fun t =>
    match t [k.staging] with
    | none => .ok (t.set [k.staging] (.dir (some 0o700)))
    | some _ => .error .alreadyExists

def renameStaging : Unzipping Unit :=
  interact k .io (rename k.isEmpty k.staging artifactsName)

def removeStaging : Unzipping Unit :=
  modify fun w => { w.tick with tree := removeBut (k.leaves.getD fun _ => false) k.staging w.tree }

def extractZipAtomic (records : List Record) : Unzipping Unit := do
  let w ← get
  MonadExcept.ofExcept (refuse (k.destinationExists w.tree = true) DownloadError.alreadyExists)
  listEntries k records
  createStaging k
  tryCatch (do
    let _ ← copyEntries k records
    renameStaging k) fun e => do
      removeStaging k
      throw e

end

/-! ### Calls in the staging directory -/

/-- The staging directory has this in it; the rest of the run directory is `t`,
and `log` is what came before. -/
def within (t : Tree Text Text) (log : List (Access Text)) (d : Text) (w : World) : World :=
  { w with tree := t.graft d w.tree, log := w.log.map (Access.under d) ++ log }

def NoLinks (w : World) : Prop :=
  w.tree.NoLinks

section
variable {env : Environment} {t : Tree Text Text} {log : List (Access Text)} {d : Text}

theorem noLinks_set {u : Tree Text Text} (hu : u.NoLinks) {p : List Text} {node : Node Text}
    (hnode : node.kind ≠ .link) : (u.set p node).NoLinks := by
  intro q text hq
  by_cases heq : q = p
  · rw [heq, Tree.set_self, Option.some_inj] at hq
    rw [hq] at hnode
    exact hnode rfl
  · rw [u.set_of_ne heq] at hq
    exact hu q text hq

theorem call_runs {f : Tree Text Text → Except Errno (Tree Text Text) × Access Text} {w : World}
    (h : ∀ n, env.fault w.clock ≠ some (.fails n)) :
    call env f w = match f w.tree with
      | (.ok tree, access) => .ok access { w.tick with tree := tree, log := access :: w.log }
      | (.error e, access) => .error e { w.tick with log := access :: w.log } := by
  unfold call
  split
  · next n hfault => exact absurd hfault (h n)
  · rfl

theorem isDir_runs {path : List (Move Text)} {w : World}
    (h : ∀ n, env.fault w.clock ≠ some (.fails n)) :
    isDir env path w = .ok ((stat (moves env.caseRule) env.maxLinks w.tree path).1 = some .dir)
        { w.tick with log := (stat (moves env.caseRule) env.maxLinks w.tree path).2 :: w.log } := by
  unfold isDir
  split
  · next n hfault => exact absurd hfault (h n)
  · rfl

/-- A call that does the same in either tree, as a step of a program. -/
theorem call_embeds {f f' : Tree Text Text → Except Errno (Tree Text Text) × Access Text}
    (hf : ∀ u, u.NoLinks → f' (t.graft d u) = (Except.map (t.graft d) (f u).1, (f u).2.under d))
    (hlinks : ∀ u u', u.NoLinks → (f u).1 = .ok u' → u'.NoLinks) :
    Embeds NoLinks (within t log d) (Access.under d) (call env f) (call env f') := by
  intro w hw
  by_cases hfails : ∃ n, env.fault w.clock = some (.fails n)
  · obtain ⟨n, hfault⟩ := hfails
    have hfault' : env.fault (within t log d w).clock = some (.fails n) := hfault
    simp only [call, hfault, hfault']
    exact ⟨hw, rfl⟩
  · have hruns : ∀ n, env.fault w.clock ≠ some (.fails n) := not_exists.mp hfails
    have htree : (within t log d w).tree = t.graft d w.tree := rfl
    rw [call_runs hruns, call_runs (w := within t log d w) hruns, htree, hf w.tree hw]
    have hkept := hlinks w.tree
    generalize f w.tree = answer at hkept
    obtain ⟨result, access⟩ := answer
    cases result with
    | ok tree => exact ⟨hkept tree hw rfl, rfl⟩
    | error e => exact ⟨hw, rfl⟩

variable (hd : t.IsDirectory [d])
include hd

theorem make_embeds (c : Call) {node : Node Text} (hnode : node.kind ≠ .link) (p : List Text) :
    Embeds NoLinks (within t log d) (Access.under d) (make env c node (p.map .into))
      (make env c node ((d :: p).map .into)) := by
  refine call_embeds (fun u hu => create_graft _ _ hd hu c node p) fun u u' hu hcreated => ?_
  obtain ⟨q, -, rfl, -⟩ := create_eq_set _ _ hcreated
  exact noLinks_set hu hnode

theorem mkdir_embeds (p : List Text) :
    Embeds NoLinks (within t log d) id (mkdir env (p.map .into)) (mkdir env ((d :: p).map .into)) :=
  (make_embeds hd .mkdir (by simp [Node.kind]) p).bind fun _ => .pure ()

theorem isDir_embeds (p : List Text) :
    Embeds NoLinks (within t log d) id (isDir env (p.map .into)) (isDir env ((d :: p).map .into)) := by
  intro w hw
  have hstat := stat_graft (moves env.caseRule) env.maxLinks hd hw p
  by_cases hfails : ∃ n, env.fault w.clock = some (.fails n)
  · obtain ⟨n, hfault⟩ := hfails
    have hfault' : env.fault (within t log d w).clock = some (.fails n) := hfault
    simp only [isDir, hfault, hfault']
    exact ⟨hw, rfl⟩
  · have hruns : ∀ n, env.fault w.clock ≠ some (.fails n) := not_exists.mp hfails
    have htree : (within t log d w).tree = t.graft d w.tree := rfl
    rw [isDir_runs hruns, isDir_runs (w := within t log d w) hruns, htree, hstat]
    exact ⟨hw, rfl⟩

theorem orIsDir_embeds (p : List Text) (e : Errno) :
    Embeds NoLinks (within t log d) id (orIsDir env (p.map .into) e)
      (orIsDir env ((d :: p).map .into) e) := by
  refine (isDir_embeds hd p).bind fun found => ?_
  cases found with
  | true => exact .pure ()
  | false => exact .throw e

omit hd in
theorem mkdir_base_error {I : World → Prop} :
    Triple I (mkdir env []) (fun _ _ => True) fun e _ => e ≠ .noEntry := by
  intro w _
  show Ends _ _ (mkdir env [] w)
  by_cases hfails : ∃ n, env.fault w.clock = some (.fails n)
  · obtain ⟨n, hfault⟩ := hfails
    have hmake : make env .mkdir (.dir none) [] w = .error .other w.tick := by
      simp only [make, call, hfault]
    rw [mkdir, bind_of_error hmake]
    simp [Ends]
  · have hmake : make env .mkdir (.dir none) [] w =
        .error .alreadyExists { w.tick with log := ⟨.mkdir, some [], false, some .dir⟩ :: w.log } := by
      rw [make, call_runs (not_exists.mp hfails), create_nil]
    rw [mkdir, bind_of_error hmake]
    simp [Ends]

/-- The induction is on the path from its end. At the end of it is the staging
directory, which is there in either tree. -/
theorem createDirAll_embeds (p : List Text) :
    Embeds NoLinks (within t log d) id (createDirAll env (p.map .into))
      (createDirAll env ((d :: p).map .into)) := by
  rw [createDirAll, createDirAll, ← List.map_reverse, ← List.map_reverse, List.reverse_cons]
  induction hup : p.reverse generalizing p with
  | nil =>
    refine (mkdir_embeds hd []).tryCatch_of mkdir_base_error fun e he => ?_
    rw [if_neg he]
    exact orIsDir_embeds hd [] e
  | cons name up ih =>
    have hpath : ((name :: up).map Move.into).reverse = (up.reverse ++ [name]).map .into := by simp
    have hpath' : ((name :: up ++ [d]).map Move.into).reverse =
        (d :: (up.reverse ++ [name])).map .into := by simp
    have hup' := ih up.reverse (by simp)
    rw [List.map_cons] at hpath
    rw [List.cons_append, List.map_cons] at hpath' ⊢
    rw [List.map_cons, createDirAllFrom, createDirAllFrom]
    simp only [hpath, hpath']
    refine (mkdir_embeds hd _).tryCatch fun e => ?_
    split
    · exact hup'.bind fun _ => (mkdir_embeds hd _).tryCatch fun e => orIsDir_embeds hd _ e
    · exact orIsDir_embeds hd _ e

omit hd in
theorem make_place {I : World → Prop} (c : Call) (node : Node Text) (path : List (Move Text)) :
    Triple I (make env c node path) (fun a _ => ∃ p, p ≠ [] ∧ a.place = some p) fun _ _ => True := by
  intro w _
  show Ends _ _ (make env c node path w)
  by_cases hfails : ∃ n, env.fault w.clock = some (.fails n)
  · obtain ⟨n, hfault⟩ := hfails
    simp [make, call, hfault, Ends]
  · rw [make, call_runs (not_exists.mp hfails)]
    rcases hcreate : create (moves env.caseRule) env.maxLinks c node w.tree path
      with ⟨result, access⟩
    cases result with
    | ok tree =>
      obtain ⟨p, hp, -, hplace⟩ := create_eq_set _ _ (congrArg Prod.fst hcreate)
      rw [hcreate] at hplace
      exact ⟨p, hp, hplace⟩
    | error e => trivial

theorem createPrivate_embeds (p : List Text) :
    Embeds NoLinks (within t log d) (d :: ·) (createPrivate env (p.map .into))
      (createPrivate env ((d :: p).map .into)) := by
  refine (make_embeds hd .createNew (by simp [Node.kind]) p).bind_of (make_place _ _ _)
    fun a ⟨q, _, hplace⟩ => ?_
  have hhandle : (a.under d).place.getD [] = d :: a.place.getD [] := by
    simp [Access.under, hplace]
  rw [hhandle]
  exact .pure _

theorem setPermissions_embeds (mode : UInt32) {p : List Text} (hp : p ≠ []) :
    Embeds NoLinks (within t log d) id (setPermissions env mode (p.map .into))
      (setPermissions env mode ((d :: p).map .into)) := by
  refine (call_embeds (fun u hu => chmod_graft _ _ hd hu _ hp) fun u u' hu hchanged => ?_).bind
    fun _ => .pure ()
  obtain ⟨q, node, hnode, rfl⟩ := chmod_eq_set _ _ hchanged
  refine noLinks_set hu ?_
  cases q with
  | nil =>
    cases hnode
    simp [Node.withMode, Node.kind]
  | cons name rest =>
    cases node with
    | dir mode => simp [Node.withMode, Node.kind]
    | file content mode => simp [Node.withMode, Node.kind]
    | link text => exact absurd hnode (hu _ text)

omit hd in
theorem append_within {handle : List Text} (hhandle : handle ≠ []) (bytes : Text) (w : World) :
    (within t log d w).append (d :: handle) bytes = within t log d (w.append handle bytes) := by
  have hnode : (within t log d w).tree (d :: handle) = w.tree handle :=
    Tree.graft_below _ _ _ hhandle
  unfold World.append
  rw [hnode]
  cases w.tree handle with
  | none => rfl
  | some node =>
    cases node with
    | file content mode =>
      have hset := Tree.graft_set t w.tree d hhandle (.file (content ++ bytes) mode)
      exact congrArg (fun tree => World.mk tree _ _ _) hset
    | dir mode => rfl
    | link text => rfl

omit hd in
theorem noLinks_append {handle : List Text} (bytes : Text) {w : World} (hw : NoLinks w) :
    NoLinks (w.append handle bytes) := by
  unfold World.append
  split
  · exact noLinks_set hw (by simp [Node.kind])
  · exact hw

omit hd in
theorem writeAll_embeds {handle : List Text} (hhandle : handle ≠ []) (bytes : Text) :
    Embeds NoLinks (within t log d) id (writeAll env handle bytes)
      (writeAll env (d :: handle) bytes) := by
  intro w hw
  have happend : ∀ part, (within t log d w).tick.append (d :: handle) part =
      within t log d (w.tick.append handle part) := fun part => append_within hhandle part w.tick
  have hlinks : ∀ part, NoLinks (w.tick.append handle part) := fun part => noLinks_append part hw
  have hwritten : (within t log d w).written = w.written := rfl
  have hclock : (within t log d w).clock = w.clock := rfl
  simp only [writeAll, hwritten, hclock, happend]
  split
  · exact ⟨hlinks _, rfl⟩
  · split
    · exact ⟨hlinks _, rfl⟩
    · exact ⟨hlinks _, rfl⟩

omit hd in
theorem ioCopy_embeds {handle : List Text} (hhandle : handle ≠ []) (reads : List (Option Text))
    (copied : Nat) :
    Embeds NoLinks (within t log d) id (ioCopy env handle copied reads)
      (ioCopy env (d :: handle) copied reads) := by
  induction reads generalizing copied with
  | nil => exact .pure copied
  | cons read rest ih =>
    cases read with
    | none => exact .throw _
    | some bytes =>
      rw [ioCopy, ioCopy]
      split
      · exact .pure copied
      · exact (writeAll_embeds hhandle bytes).bind fun _ => ih _

end

/-! ### The entries -/

section
variable {k : Setting} {t : Tree Text Text} {log : List (Access Text)}

/-- The staging directory of `Artifacts.Download`, in its place. -/
def embed (k : Setting) (t : Tree Text Text) (log : List (Access Text))
    (d : Download.RunDirectory) : World :=
  within t log k.staging d.world

/-- The client makes no links. -/
def Linkless (d : Download.RunDirectory) : Prop :=
  NoLinks d.world

theorem inStaging_embeds {α β : Type} {g : α → β} {x : EStateM Errno World α}
    {y : EStateM Errno World β} (h : Embeds NoLinks (within t log k.staging) g x y) :
    Embeds Linkless (embed k t log) g (Download.inStaging x) (io y) := by
  intro d hd
  have hio : io y (embed k t log d) = EStateM.adaptExcept (fun _ => DownloadError.io) y
      (within t log k.staging d.world) := rfl
  unfold Download.inStaging
  obtain ⟨a, w, hx, hw, hy⟩ | ⟨e, w, hx, hw, hy⟩ := h.run_cases hd
  · rw [hx, hio]
    simp only [EStateM.adaptExcept, hy]
    exact ⟨hw, rfl⟩
  · rw [hx, hio]
    simp only [EStateM.adaptExcept, hy]
    exact ⟨hw, rfl⟩

theorem ask_embeds (e : DownloadError) :
    Embeds Linkless (embed k t log) id (Download.ask k.env e) (ask k e) := by
  intro d hd
  have hclock : (embed k t log d).clock = d.world.clock := rfl
  simp only [Download.ask, Download.interact, ask, interact, hclock]
  cases k.env.fault d.world.clock with
  | none => exact ⟨hd, rfl⟩
  | some fault => cases fault <;> exact ⟨hd, rfl⟩

theorem check_embeds {α : Type} (x : Except DownloadError α) :
    Embeds Linkless (embed k t log) id (Download.check x) (MonadExcept.ofExcept x : Unzipping α) := by
  cases x with
  | ok a => exact .pure a
  | error e => exact .throw e

theorem createPrivate_ne_nil (path : List (Move Text)) :
    Triple Linkless (Download.inStaging (Download.createPrivate k.env path))
      (fun handle _ => handle ≠ []) fun _ _ => True := by
  have hhandle : Triple (fun _ => True) (createPrivate k.env path)
      (fun handle _ => handle ≠ []) fun _ _ => True := by
    refine (make_place .createNew (.file [] (some 0o600)) path).bind fun a => .pure fun w ha => ?_
    obtain ⟨p, hp, hplace⟩ := ha
    rw [hplace]
    exact hp
  exact (inStaging_ends hhandle (R := fun _ => True) fun _ _ h => h).mono
    (fun _ _ => ⟨trivial, trivial⟩) (fun _ _ h => h.1) fun _ _ _ => trivial

variable (hd : t.IsDirectory [k.staging])
include hd

theorem applyMode_embeds (r : Record) {p : List Text} (hp : p ≠ []) :
    Embeds Linkless (embed k t log) id (Download.applyMode k.env r (p.map .into))
      (applyMode k r (p.map .into)) := by
  unfold Download.applyMode applyMode
  cases r.unixMode with
  | none => exact .pure ()
  | some mode => exact inStaging_embeds (setPermissions_embeds hd mode hp)

theorem extractFile_embeds (actual : Nat) (r : Record) {p : List Text} (hp : p ≠ []) :
    Embeds Linkless (embed k t log) id (Download.extractFile k.env actual r (p.map .into))
      (extractFile k actual r (p.map .into)) := by
  have hparent : (inStaging k (p.map .into)).dropLast = (k.staging :: p.dropLast).map .into := by
    rw [inStaging, List.dropLast_cons_of_ne_nil (by simpa using hp), ← List.map_dropLast]
    rfl
  unfold Download.extractFile extractFile
  rw [← List.map_dropLast, hparent]
  refine (inStaging_embeds (createDirAll_embeds hd _)).bind fun _ => ?_
  refine (inStaging_embeds (createPrivate_embeds hd p)).bind_of (createPrivate_ne_nil _)
    fun handle hhandle => ?_
  refine (inStaging_embeds (ioCopy_embeds hhandle r.reads 0)).bind fun copied => ?_
  refine (check_embeds _).bind fun _ => ?_
  exact (applyMode_embeds hd r hp).bind fun _ => .pure _

theorem extractEntry_embeds {r : Record} {p : List Text} (hp : p ≠ [])
    (hmoves : moves k.env.caseRule (trimmedName r) = p.map .into) (actual : Nat) :
    Embeds Linkless (embed k t log) id (Download.extractEntry k.env actual r)
      (extractEntry k actual r) := by
  refine (ask_embeds _).bind fun _ => ?_
  simp only [hmoves]
  split
  · exact (inStaging_embeds (createDirAll_embeds hd p)).bind fun _ => .pure actual
  · exact extractFile_embeds hd actual r hp

/-- The loop over the entries does in the staging directory what it does in a tree
of its own. -/
theorem copyEntries_embeds {records : List Record}
    (hnames : ∀ r ∈ records, ∃ p : List Text, p ≠ [] ∧
      moves k.env.caseRule (trimmedName r) = p.map .into) :
    Embeds Linkless (embed k t log) id (Download.copyEntries k.env records)
      (copyEntries k records) := by
  refine (ask_embeds _).bind fun _ => (ask_embeds _).bind fun _ => ?_
  refine Embeds.foldlM (fun r hr actual => ?_) 0
  obtain ⟨p, hp, hmoves⟩ := hnames r hr
  exact extractEntry_embeds hd hp hmoves actual

end

end IndenturedServer.Artifacts.Unzip
