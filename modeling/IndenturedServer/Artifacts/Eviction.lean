import IndenturedServer.Artifacts.Gc

/-!
What the pass for `max_bytes` removes.

Here nothing else changes the storage: `gc_artifacts` is a function of the
storage, the clock and the answers to its calls of `remove_dir_all`. The two
passes are written for any storage. They are what the collector of
`Artifacts.Gc` does behind its scan, and with a storage of whole trees they are
`gc_artifacts`.

The pass tries the directories in the order of their times, and each of them
only as long as what is left does not fit. The induction is on the directories
that are still to be tried, with the total that the code keeps.
-/

namespace IndenturedServer.Artifacts.Gc

open Foundation Source ArtifactEntry List

/-! ### The passes -/

def totalSize (entries : List ArtifactEntry) : Nat :=
  (entries.map ArtifactEntry.size).sum

/-- `sort_by_key` by the time -/
def byModified (entries : List ArtifactEntry) : List ArtifactEntry :=
  entries.insertionSort fun a b => a.modified ≤ b.modified

section
variable {σ : Type} (remove : ArtifactEntry → σ → Bool × σ)

/-- `retain` of the TTL pass; the entries that stay in the list. -/
def retainFresh (cutoff : Nat) : List ArtifactEntry → σ → List ArtifactEntry × σ
  | [], s => ([], s)
  | entry :: rest, s =>
    if entry.modified < cutoff then
      let (removed, s) := remove entry s
      let (kept, s) := retainFresh cutoff rest s
      (if removed then kept else entry :: kept, s)
    else
      let (kept, s) := retainFresh cutoff rest s
      (entry :: kept, s)

def evictUntil (maxBytes : Nat) : Nat → List ArtifactEntry → σ → σ
  | _, [], s => s
  | total, entry :: rest, s =>
    if total ≤ maxBytes then s
    else
      let (removed, s) := remove entry s
      evictUntil maxBytes (if removed then total - entry.size else total) rest s

variable (cfg : GcConfig)

def ttlPass (now : Nat) (entries : List ArtifactEntry) (s : σ) : List ArtifactEntry × σ :=
  match cfg.ttlSec with
  | none => (entries, s)
  | some _ => retainFresh remove (now - cfg.ttl) entries s

/-- The sum is one of `u64`. -/
def maxBytesPass (entries : List ArtifactEntry) (s : σ) : σ :=
  match cfg.maxBytes with
  | none => s
  | some maxBytes =>
    let total := totalSize entries % 2 ^ 64
    if maxBytes < total then evictUntil remove maxBytes total (byModified entries) s else s

/-- `gc_artifacts` behind the scan -/
def gcPasses (now : Nat) (entries : List ArtifactEntry) (s : σ) : σ :=
  if entries = [] then s
  else
    let (survivors, s) := ttlPass remove cfg now entries s
    maxBytesPass remove cfg survivors s

end

/-! ### Whole storages -/

/-- What is below the storage root. The names matter in the root only. -/
inductive StoredNode
  | file (size modified : Nat)
  | dir (children : List StoredNode)
  /-- Links and special files. -/
  | other
  /-- `WalkDir` reports an error, or `stat` fails. -/
  | unreadable

mutual

/-- `scan_entry`, with the size and the newest time so far -/
def StoredNode.scan : StoredNode → Nat × Nat → Except String (Nat × Nat)
  | .file size modified, (total, newest) => .ok (saturatingAdd total size, max newest modified)
  | .dir children, seen => scanAll children seen
  | .other, seen => .ok seen
  | .unreadable, _ => .error "walk artifacts"

def StoredNode.scanAll : List StoredNode → Nat × Nat → Except String (Nat × Nat)
  | [], seen => .ok seen
  | node :: rest, seen => do StoredNode.scanAll rest (← node.scan seen)

end

structure Storage where
  root : List (BuildId × StoredNode)
  nodup : (root.map Prod.fst).Nodup

def scanArtifactEntries : List (BuildId × StoredNode) → Except String (List ArtifactEntry)
  | [] => return []
  | (path, .dir children) :: rest => do
      let (size, modified) ← StoredNode.scanAll children (0, 0)
      return ⟨path, size, modified⟩ :: (← scanArtifactEntries rest)
  | (_, .unreadable) :: _ => .error "stat artifacts entry"
  | _ :: rest => scanArtifactEntries rest

namespace Storage

def remove (s : Storage) (path : BuildId) : Storage where
  root := s.root.filter fun entry => entry.1 ≠ path
  nodup := s.nodup.sublist (List.filter_sublist.map Prod.fst)

/-- A removal has failed and has left this. -/
def leave (s : Storage) (path : BuildId) (left : StoredNode → StoredNode) : Storage where
  root := s.root.map fun entry => if entry.1 = path then (entry.1, left entry.2) else entry
  nodup := by
    have hnames : (s.root.map fun entry =>
        if entry.1 = path then (entry.1, left entry.2) else entry).map Prod.fst =
        s.root.map Prod.fst := by
      rw [List.map_map]
      refine List.map_congr_left fun entry _ => ?_
      rw [Function.comp_apply]
      split <;> rfl
    rw [hnames]
    exact s.nodup

end Storage

/-- The storage, and the calls of `remove_dir_all` with their success. -/
structure Sweep where
  storage : Storage
  removals : List (ArtifactEntry × Bool) := []

/-- The n-th removal succeeds, or fails and leaves something. -/
abbrev Removals := Nat → Option (StoredNode → StoredNode)

section
variable (answers : Removals) (cfg : GcConfig)

def removeDirAll (entry : ArtifactEntry) (s : Sweep) : Bool × Sweep :=
  match answers s.removals.length with
  | none => (true, ⟨s.storage.remove entry.path, s.removals ++ [(entry, true)]⟩)
  | some left => (false, ⟨s.storage.leave entry.path left, s.removals ++ [(entry, false)]⟩)

/-- `validated` is the outcome of `validate_gc_root`. -/
def gcArtifacts (validated : Except String Unit) (now : Nat) (s : Sweep) : Except String Sweep := do
  validated
  let entries ← scanArtifactEntries s.storage.root
  return gcPasses (removeDirAll answers) cfg now entries s

end

/-! ### The TTL pass -/

section
variable {σ : Type} (remove : ArtifactEntry → σ → Bool × σ)

theorem retainFresh_sublist (cutoff : Nat) (entries : List ArtifactEntry) (s : σ) :
    (retainFresh remove cutoff entries s).1.Sublist entries := by
  induction entries generalizing s with
  | nil => exact Sublist.slnil
  | cons entry rest ih =>
    simp only [retainFresh]
    split
    · dsimp only
      split
      · exact (ih _).cons entry
      · exact (ih _).cons_cons entry
    · exact (ih _).cons_cons entry

section
variable (cfg : GcConfig) (now : Nat) (entries : List ArtifactEntry) (s : σ)

theorem ttlPass_sublist : (ttlPass remove cfg now entries s).1.Sublist entries := by
  unfold ttlPass
  split
  · exact Sublist.refl entries
  · exact retainFresh_sublist remove _ entries s

theorem gcPasses_eq :
    gcPasses remove cfg now entries s = maxBytesPass remove cfg (ttlPass remove cfg now entries s).1
        (ttlPass remove cfg now entries s).2 := by
  unfold gcPasses
  split
  · rename_i hentries
    subst hentries
    have httl : ttlPass remove cfg now [] s = ([], s) := by
      unfold ttlPass
      split <;> rfl
    rw [httl, maxBytesPass]
    split
    · rfl
    · simp [totalSize]
  · rfl

end

theorem evictUntil_of_le {maxBytes total : Nat} (h : total ≤ maxBytes) (todo : List ArtifactEntry)
    (s : σ) : evictUntil remove maxBytes total todo s = s := by
  cases todo with
  | nil => rfl
  | cons entry rest => rw [evictUntil, if_pos h]

/-- That the loop is entered only when the total does not fit makes no
difference. -/
theorem maxBytesPass_eq {cfg : GcConfig} {maxBytes : Nat} (hmax : cfg.maxBytes = some maxBytes)
    {entries : List ArtifactEntry} (hsum : totalSize entries < 2 ^ 64) (s : σ) :
    maxBytesPass remove cfg entries s =
      evictUntil remove maxBytes (totalSize entries) (byModified entries) s := by
  simp only [maxBytesPass, hmax, Nat.mod_eq_of_lt hsum]
  split
  · rfl
  · rename_i hfits
    rw [evictUntil_of_le remove (Nat.not_lt.mp hfits)]

end

theorem totalSize_append (entries entries' : List ArtifactEntry) :
    totalSize (entries ++ entries') = totalSize entries + totalSize entries' := by
  simp [totalSize]

/-! ### The pass for `max_bytes` -/

/-- What the removals that succeeded have freed. -/
def freed (tried : List (ArtifactEntry × Bool)) : Nat :=
  totalSize ((tried.filter (·.2)).map Prod.fst)

/-- What the loop tries, and with which success. -/
inductive Tries (maxBytes : Nat) :
    Nat → List ArtifactEntry → List (ArtifactEntry × Bool) → Prop
  | exhausted (total : Nat) : Tries maxBytes total [] []
  | fits {total : Nat} (todo : List ArtifactEntry) (h : total ≤ maxBytes) :
      Tries maxBytes total todo []
  | next {total : Nat} {entry : ArtifactEntry} {rest : List ArtifactEntry} {removed : Bool}
      {tried : List (ArtifactEntry × Bool)} (h : maxBytes < total)
      (hrest : Tries maxBytes (if removed then total - entry.size else total) rest tried) :
      Tries maxBytes total (entry :: rest) ((entry, removed) :: tried)

namespace Tries

variable {maxBytes total : Nat} {todo : List ArtifactEntry} {tried : List (ArtifactEntry × Bool)}

theorem isPrefix (h : Tries maxBytes total todo tried) : tried.map Prod.fst <+: todo := by
  induction h with
  | exhausted total => exact prefix_rfl
  | fits todo h => exact nil_prefix
  | next h hrest ih => exact (prefix_cons_inj _).mpr ih

theorem freed_cons (entry : ArtifactEntry) (removed : Bool) (tried : List (ArtifactEntry × Bool))
    (total : Nat) :
    total - freed ((entry, removed) :: tried) =
      (if removed then total - entry.size else total) - freed tried := by
  cases removed with
  | false => simp [freed]
  | true => simp [freed, totalSize, Nat.sub_sub]

theorem ends (h : Tries maxBytes total todo tried) :
    total - freed tried ≤ maxBytes ∨ tried.map Prod.fst = todo := by
  induction h with
  | exhausted total => exact Or.inr rfl
  | fits todo h => exact Or.inl (Nat.le_trans (Nat.sub_le _ _) h)
  | next h hrest ih =>
    rw [freed_cons]
    exact ih.imp_right (congrArg (_ :: ·))

theorem overfull (h : Tries maxBytes total todo tried) {front : List (ArtifactEntry × Bool)}
    (hfront : front <+: tried) (hne : front ≠ tried) : maxBytes < total - freed front := by
  induction h generalizing front with
  | exhausted total => exact absurd (prefix_nil.mp hfront) hne
  | fits todo h => exact absurd (prefix_nil.mp hfront) hne
  | next h hrest ih =>
    cases front with
    | nil => exact h
    | cons first front =>
      obtain ⟨rfl, hrest⟩ := cons_prefix_cons.mp hfront
      rw [freed_cons]
      exact ih hrest fun heq => hne (by rw [heq])

theorem freed_map (entries : List ArtifactEntry) : freed (entries.map (·, true)) = totalSize entries := by
  simp [freed, filter_map, Function.comp_def]

theorem eq_map_of_all (h : ∀ t ∈ tried, t.2 = true) : tried = (tried.map Prod.fst).map (·, true) := by
  rw [map_map]
  refine (map_id tried).symm.trans (map_congr_left fun t ht => ?_)
  rw [Function.comp_apply, ← h t ht, id]

/-- If the removals succeed, no shorter part of the directories would do. -/
theorem minimal (h : Tries maxBytes (totalSize todo) todo tried) (hall : ∀ t ∈ tried, t.2 = true) :
    ∃ evicted kept, todo = evicted ++ kept ∧ tried = evicted.map (·, true) ∧
      totalSize kept ≤ maxBytes ∧
      ∀ evicted' kept', todo = evicted' ++ kept' → totalSize kept' ≤ maxBytes →
        evicted.length ≤ evicted'.length := by
  obtain ⟨kept, hkept⟩ := h.isPrefix
  have htried := eq_map_of_all hall
  generalize tried.map Prod.fst = evicted at hkept htried
  subst htried hkept
  refine ⟨evicted, kept, rfl, rfl, ?_, ?_⟩
  · have hends := h.ends
    simp only [freed_map, totalSize_append, map_map, Function.comp_def, map_id',
      self_eq_append_right] at hends
    obtain hfits | rfl := hends
    · omega
    · exact Nat.zero_le maxBytes
  · intro evicted' kept' htodo hfits
    by_contra hshorter
    -- the shorter part would have been met on the way
    have hshort : evicted' <+: evicted :=
      prefix_of_prefix_length_le ⟨kept', htodo.symm⟩ ⟨kept, rfl⟩ (by omega)
    have hover := h.overfull (hshort.map (·, true)) fun heq => by
      have hlength := congrArg length heq
      rw [length_map, length_map] at hlength
      omega
    rw [freed_map, htodo, totalSize_append] at hover
    omega

end Tries

section
variable (answers : Removals) (maxBytes : Nat)

theorem removeDirAll_removals (entry : ArtifactEntry) (s : Sweep) :
    (removeDirAll answers entry s).2.removals =
      s.removals ++ [(entry, (removeDirAll answers entry s).1)] := by
  unfold removeDirAll
  split <;> rfl

variable {answers} in
theorem removeDirAll_of_none (entry : ArtifactEntry) {s : Sweep}
    (h : answers s.removals.length = none) :
    removeDirAll answers entry s =
      (true, ⟨s.storage.remove entry.path, s.removals ++ [(entry, true)]⟩) := by
  simp [removeDirAll, h]

theorem evictUntil_tries (todo : List ArtifactEntry) (total : Nat) (s : Sweep) :
    ∃ tried, Tries maxBytes total todo tried ∧
      (evictUntil (removeDirAll answers) maxBytes total todo s).removals = s.removals ++ tried ∧
      ((∀ n, s.removals.length ≤ n → answers n = none) → (∀ t ∈ tried, t.2 = true) ∧
        (evictUntil (removeDirAll answers) maxBytes total todo s).storage.root =
          s.storage.root.filter fun entry => entry.1 ∉ tried.map (·.1.path)) := by
  induction todo generalizing total s with
  | nil => exact ⟨[], .exhausted total, by simp [evictUntil], fun _ => by simp [evictUntil]⟩
  | cons entry rest ih =>
    rw [evictUntil]
    split
    · rename_i hfits
      exact ⟨[], .fits _ hfits, by simp, fun _ => by simp⟩
    · rename_i hover
      obtain ⟨tried, htries, hremovals, hroot⟩ :=
        ih (if (removeDirAll answers entry s).1 then total - entry.size else total)
          (removeDirAll answers entry s).2
      refine ⟨(entry, (removeDirAll answers entry s).1) :: tried, .next (Nat.not_le.mp hover) htries,
        ?_, fun hanswers => ?_⟩
      · rw [hremovals, removeDirAll_removals, append_assoc, singleton_append]
      · have hremoved := removeDirAll_of_none entry (hanswers _ (Nat.le_refl _))
        rw [hremoved] at hroot ⊢
        obtain ⟨hall, hroot⟩ := hroot fun n hn => hanswers n (by simp at hn; omega)
        refine ⟨forall_mem_cons.mpr ⟨rfl, hall⟩, hroot.trans ?_⟩
        rw [Storage.remove, filter_filter]
        refine filter_congr fun stored _ => ?_
        simp only [map_cons, mem_cons, not_or, Bool.decide_and]
        exact Bool.and_comm _ _

end

/-- The pass for `max_bytes` tries directories in the order of their times. With
removals that succeed it removes the fewest that bring the rest within the
bound, and otherwise it ends when the rest fits or all have been tried. -/
theorem max_bytes_pass_minimal (answers : Removals) (cfg : GcConfig) (maxBytes : Nat)
    (hmax : cfg.maxBytes = some maxBytes) (now : Nat) (storage : Storage)
    (entries : List ArtifactEntry) (hscan : scanArtifactEntries storage.root = .ok entries)
    (hsum : totalSize entries < 2 ^ 64) :
    ∃ survivors before after order tried,
      ttlPass (removeDirAll answers) cfg now entries ⟨storage, []⟩ = (survivors, before) ∧
      gcArtifacts answers cfg (.ok ()) now ⟨storage, []⟩ = .ok after ∧
      order.Perm survivors ∧ order.Pairwise (fun a b => a.modified ≤ b.modified) ∧
      after.removals = before.removals ++ tried ∧ tried.map Prod.fst <+: order ∧
      ((∀ n, before.removals.length ≤ n → answers n = none) →
        ∃ evicted kept, order = evicted ++ kept ∧ tried = evicted.map (·, true) ∧
          totalSize kept ≤ maxBytes ∧
          (∀ evicted' kept', order = evicted' ++ kept' → totalSize kept' ≤ maxBytes →
            evicted.length ≤ evicted'.length) ∧
          after.storage.root =
            before.storage.root.filter fun entry => entry.1 ∉ evicted.map ArtifactEntry.path) ∧
      (totalSize survivors ≤ maxBytes → after = before) ∧
      (totalSize survivors - freed tried ≤ maxBytes ∨ tried.map Prod.fst = order) := by
  have hafter : gcArtifacts answers cfg (.ok ()) now ⟨storage, []⟩ =
      .ok (gcPasses (removeDirAll answers) cfg now entries ⟨storage, []⟩) := by
    simp [gcArtifacts, hscan, bind, Except.bind, pure, Except.pure]
  have hsurvivors := ttlPass_sublist (removeDirAll answers) cfg now entries ⟨storage, []⟩
  rw [gcPasses_eq] at hafter
  generalize hpass : ttlPass (removeDirAll answers) cfg now entries ⟨storage, []⟩ = pass
    at hafter hsurvivors ⊢
  obtain ⟨survivors, before⟩ := pass
  have htotal : totalSize survivors < 2 ^ 64 :=
    Nat.lt_of_le_of_lt ((hsurvivors.map size).sum_le_sum fun size _ => Nat.zero_le size) hsum
  have hperm : (byModified survivors).Perm survivors := List.perm_insertionSort _ survivors
  have hsize : totalSize (byModified survivors) = totalSize survivors :=
    (hperm.map ArtifactEntry.size).sum_eq
  rw [maxBytesPass_eq _ hmax htotal] at hafter
  obtain ⟨tried, htries, hremovals, hroot⟩ :=
    evictUntil_tries answers maxBytes (byModified survivors) (totalSize survivors) before
  refine ⟨survivors, before, _, byModified survivors, tried, rfl, hafter, hperm,
    List.pairwise_insertionSort _ survivors, hremovals, htries.isPrefix, ?_, ?_, htries.ends⟩
  · intro hanswers
    obtain ⟨hall, hroot⟩ := hroot hanswers
    rw [← hsize] at htries
    obtain ⟨evicted, kept, horder, rfl, hfits, hleast⟩ := htries.minimal hall
    refine ⟨evicted, kept, horder, rfl, hfits, hleast, hroot.trans ?_⟩
    rw [List.map_map]
    rfl
  · intro hfits
    exact evictUntil_of_le _ hfits _ _

def twoBuilds : Storage where
  root := [("new", .dir [.file 5 2]), ("old", .dir [.dir [.file 2 0, .other], .file 3 1])]
  nodup := by decide

/-- One of them has to go. -/
theorem max_bytes_pass_minimal_two :
    ∃ after, gcArtifacts (fun _ => none) ⟨none, some 5⟩ (.ok ()) 0 ⟨twoBuilds, []⟩ = .ok after ∧
      ∃ tried : List ArtifactEntry, after.removals = tried.map (·, true) := by
  obtain ⟨survivors, before, after, order, tried, hpass, hafter, -, -, hremovals, -, hevicted, -⟩ :=
    max_bytes_pass_minimal (fun _ => none) ⟨none, some 5⟩ 5 rfl 0 twoBuilds
      [⟨"new", 5, 2⟩, ⟨"old", 5, 1⟩] rfl (by decide)
  obtain ⟨evicted, kept, -, htried, -⟩ := hevicted fun _ _ => rfl
  cases hpass
  exact ⟨after, hafter, evicted, by rw [hremovals, htried]; rfl⟩

/-! ### The collector among the other threads -/

namespace GcState

/-- The removals of the collector; the n-th of them ends in this way. -/
def scripted (answers : Nat → Removal) (entry : ArtifactEntry) (s : GcState × Nat) :
    Bool × GcState × Nat :=
  (answers s.2 == .complete, ((s.1.removeDirAll entry.path (answers s.2)).getD s.1, s.2 + 1))

/-- The directories of these entries are there. -/
def Holds (s : GcState) (entries : List ArtifactEntry) : Prop :=
  ∀ entry ∈ entries, (s.dirs entry.path).isSome

section
variable {cfg : GcConfig} (answers : Nat → Removal)

/-- Only the collector takes steps. -/
abbrev Sweeps (cfg : GcConfig) : GcState → GcState → Prop :=
  Relation.ReflTransGen fun s s' => ∃ e, s.step cfg (.gc e) = some s'

variable {s s' : GcState} {entry : ArtifactEntry}

/-- A removal changes its own directory only, and takes it away if it
succeeds. -/
theorem scripted_holds (hentry : (s.dirs entry.path).isSome) (n : Nat) :
    ∃ s', s.removeDirAll entry.path (answers n) = some s' ∧
      scripted answers entry (s, n) = (answers n == .complete, s', n + 1) ∧
      ∀ entries, s.Holds entries → (answers n = .complete → entry.path ∉ entries.map path) →
        s'.Holds entries := by
  cases hanswer : answers n with
  | complete =>
    refine ⟨s.setDir entry.path none, by simp [removeDirAll, hentry],
      by simp [scripted, hanswer, removeDirAll, hentry], ?_⟩
    intro entries hentries hnot other hother
    have hne : other.path ≠ entry.path := fun heq => hnot rfl (mem_map.mpr ⟨other, hother, heq⟩)
    rw [setDir_dirs_of_ne s hne]
    exact hentries other hother
  | failed gone =>
    refine ⟨_, rfl, by simp [scripted, hanswer, removeDirAll], ?_⟩
    intro entries hentries _ other hother
    by_cases heq : other.path = entry.path
    · rw [heq, setDir_dirs_self, Option.isSome_map]
      exact hentry
    · rw [setDir_dirs_of_ne s heq]
      exact hentries other hother

variable {pc pc' : GcPc}

theorem Sweeps.remove {answer : Removal} (hnext : removeStep cfg answer pc = some (entry, pc'))
    (hremoved : s.removeDirAll entry.path answer = some s') :
    Sweeps cfg (s.setGc pc) (s'.setGc pc') := by
  refine .single ⟨.remove answer, ?_⟩
  have hsame : (s.setGc pc).removeDirAll entry.path answer = some (s'.setGc pc) := by
    cases answer with
    | complete =>
      obtain ⟨hthere, ⟨⟩⟩ := Option.ite_none_right_eq_some.mp hremoved
      exact if_pos hthere
    | failed gone =>
      cases hremoved
      rfl
  show (removeStep cfg answer pc).bind _ = _
  rw [hnext]
  exact congrArg (Option.map (·.setGc pc')) hsame

theorem Sweeps.proceed (hnext : proceedStep cfg (s.setGc pc) pc = some pc') :
    Sweeps cfg (s.setGc pc) (s.setGc pc') := by
  refine .single ⟨.proceed, ?_⟩
  show (proceedStep cfg (s.setGc pc) pc).map _ = _
  rw [hnext]
  rfl

/-- The induction is on the directories that are still to be tried. -/
theorem sweeps_evictUntil {maxBytes : Nat} (hmax : cfg.maxBytes = some maxBytes)
    (todo : List ArtifactEntry) (total : Nat) (s : GcState) (n : Nat) (hholds : s.Holds todo)
    (hnodup : (todo.map path).Nodup) :
    Sweeps cfg (s.setGc (.evicting total todo))
      ((evictUntil (scripted answers) maxBytes total todo (s, n)).1.setGc .idle) := by
  induction todo generalizing total s n with
  | nil => exact Sweeps.proceed (by simp [proceedStep])
  | cons entry rest ih =>
    rw [evictUntil]
    split
    · rename_i hfits
      exact Sweeps.proceed (by simp [proceedStep, hmax, hfits])
    · rename_i hover
      rw [map_cons, nodup_cons] at hnodup
      obtain ⟨s', hremoved, hscripted, hkeeps⟩ :=
        scripted_holds answers (hholds entry mem_cons_self) n
      rw [hscripted]
      refine (Sweeps.remove ?_ hremoved).trans (ih _ s' (n + 1) ?_ hnodup.2)
      · simp [removeStep, hmax, Nat.not_le.mp hover]
      · exact hkeeps rest (fun e he => hholds e (mem_cons_of_mem _ he)) fun _ => hnodup.1

/-- What the TTL pass has kept is still there. -/
theorem sweeps_retainFresh (cutoff : Nat) (todo kept : List ArtifactEntry) (s : GcState) (n : Nat)
    (hholds : s.Holds (kept ++ todo)) (hnodup : ((kept ++ todo).map path).Nodup) :
    ∃ survivors s' n', retainFresh (scripted answers) cutoff todo (s, n) = (survivors, s', n') ∧
      Sweeps cfg (s.setGc (.expiring cutoff todo kept))
        (s'.setGc (.expiring cutoff [] (kept ++ survivors))) ∧
      s'.Holds (kept ++ survivors) ∧ ((kept ++ survivors).map path).Nodup := by
  induction todo generalizing kept s n with
  | nil => exact ⟨[], s, n, rfl, by rw [append_nil], hholds, hnodup⟩
  | cons entry rest ih =>
    rw [retainFresh]
    by_cases hold : entry.modified < cutoff
    · obtain ⟨s₁, hremoved, hscripted, hkeeps⟩ := scripted_holds answers (hholds entry (by simp)) n
      have hremove : removeStep cfg (answers n) (.expiring cutoff (entry :: rest) kept) =
          some (entry, .expiring cutoff rest
            (if answers n = .complete then kept else kept ++ [entry])) := by
        rw [removeStep, if_pos hold]
      have hsweep := Sweeps.remove hremove hremoved
      rw [if_pos hold, hscripted]
      by_cases hcomplete : answers n = .complete
      · have hsub : (kept ++ rest).Sublist (kept ++ entry :: rest) :=
          (Sublist.refl kept).append (sublist_cons_self entry rest)
        rw [map_append, map_cons, nodup_middle, nodup_cons, ← map_append] at hnodup
        obtain ⟨survivors, s', n', hrest, hsweeps, hkept⟩ := ih kept s₁ (n + 1)
          (hkeeps _ (fun e he => hholds e (hsub.subset he)) fun _ => hnodup.1) hnodup.2
        rw [if_pos hcomplete] at hsweep
        exact ⟨survivors, s', n', by simp [hrest, hcomplete], hsweep.trans hsweeps, hkept⟩
      · rw [if_neg hcomplete] at hsweep
        rw [append_cons] at hholds hnodup
        obtain ⟨survivors, s', n', hrest, hkept⟩ := ih (kept ++ [entry]) s₁ (n + 1)
          (hkeeps _ hholds fun heq => absurd heq hcomplete) hnodup
        rw [← append_cons] at hkept
        exact ⟨entry :: survivors, s', n', by simp [hrest, hcomplete], hsweep.trans hkept.1, hkept.2⟩
    · rw [append_cons] at hholds hnodup
      obtain ⟨survivors, s', n', hrest, hkept⟩ := ih (kept ++ [entry]) s n hholds hnodup
      rw [if_neg hold, hrest]
      rw [← append_cons] at hkept
      have hsweep : Sweeps cfg (s.setGc (.expiring cutoff (entry :: rest) kept)) _ :=
        Sweeps.proceed (by rw [proceedStep, if_neg hold])
      exact ⟨entry :: survivors, s', n', rfl, hsweep.trans hkept.1, hkept.2⟩

variable (entries : List ArtifactEntry) (s : GcState)

theorem sweeps_maxBytesPass (n : Nat) (hholds : s.Holds entries) (hnodup : (entries.map path).Nodup) :
    Sweeps cfg (s.setGc (evict cfg entries))
      ((maxBytesPass (scripted answers) cfg entries (s, n)).1.setGc .idle) := by
  rw [evict, maxBytesPass]
  cases hmax : cfg.maxBytes with
  | none => exact .refl
  | some maxBytes =>
    have hperm : (byModified entries).Perm entries := perm_insertionSort _ entries
    have hsweeps := sweeps_evictUntil answers hmax (byModified entries)
      (totalSize entries % 2 ^ 64) s n (fun e he => hholds e (hperm.subset he))
      ((hperm.map _).nodup_iff.mpr hnodup)
    dsimp only
    split
    · exact hsweeps
    · rename_i hfits
      rwa [evictUntil_of_le _ (Nat.not_lt.mp hfits)] at hsweeps

/-- Behind the scan the collector does what `gc_artifacts` does, if it alone takes
steps. -/
theorem sweeps_gcPasses (hholds : s.Holds entries) (hnodup : (entries.map path).Nodup) :
    Sweeps cfg (s.setGc (.listing entries))
      ((gcPasses (scripted answers) cfg s.now entries (s, 0)).1.setGc .idle) := by
  refine (Sweeps.proceed rfl).trans ?_
  rw [scanned, gcPasses]
  split
  · exact .refl
  · rw [ttlPass]
    cases cfg.ttlSec with
    | none => exact sweeps_maxBytesPass answers entries s 0 hholds hnodup
    | some ttl =>
      obtain ⟨survivors, s', n', hretained, hsweeps, hholds', hnodup'⟩ :=
        sweeps_retainFresh answers (s.now - cfg.ttl) entries [] s 0 hholds hnodup
      rw [hretained]
      exact (Sweeps.proceed rfl).trans (hsweeps.trans ((Sweeps.proceed rfl).trans
        (sweeps_maxBytesPass answers survivors s' n' hholds' hnodup')))

end

theorem sweeps_gcPasses_evicts : ∃ s, Sweeps ⟨none, some 5⟩
    ⟨fun _ => some fun _ => none, fun _ => .idle, .listing [⟨"a", 7, 1⟩], 0⟩ s ∧
    s.gc = .idle ∧ s.dirs "a" = none :=
  ⟨_, sweeps_gcPasses (fun _ => .complete) [⟨"a", 7, 1⟩] ⟨_, _, .idle, 0⟩ (by simp [Holds])
    (by simp), rfl, rfl⟩

end GcState

end IndenturedServer.Artifacts.Gc
