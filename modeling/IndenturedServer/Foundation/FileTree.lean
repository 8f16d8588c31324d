import IndenturedServer.Foundation.Transition

/-!
A directory and what is below it, with symbolic links.

A `Tree` maps the paths below one directory, its base, to what is there. A
`Walk` is a path resolution in progress: the directory that has been reached
and the moves that are left. `..` goes to the parent of the directory that
was actually reached, and a symbolic link is replaced by the moves of its
text. Above the base there is no model: a walk that goes there has left, and
`Escapes` is all that is said about it.

What a link's text means is a parameter (`expand`), and so are the names.
-/

namespace IndenturedServer.Foundation

/-- A component of a path. -/
inductive Move (K : Type*)
  /-- A leading slash. -/
  | root
  | up
  | into (name : K)
  deriving DecidableEq, Repr

inductive Node (T : Type*)
  | dir (mode : Option Nat)
  | file (content : List UInt8) (mode : Option Nat)
  | link (text : T)
  deriving DecidableEq, Repr

inductive NodeKind
  | dir
  | file
  | link
  deriving DecidableEq, Repr

def Node.kind {T : Type*} : Node T → NodeKind
  | .dir _ => .dir
  | .file _ _ => .file
  | .link _ => .link

/-- What is at each path below the base; see `Tree.get` for the base itself. -/
def Tree (K T : Type*) : Type _ := List K → Option (Node T)

namespace Tree

variable {K T : Type*}

def empty : Tree K T := fun _ => none

/-- The base is a directory. -/
def get (t : Tree K T) : List K → Option (Node T)
  | [] => some (.dir none)
  | name :: rest => t (name :: rest)

def IsDirectory (t : Tree K T) (p : List K) : Prop :=
  ∃ mode, t.get p = some (.dir mode)

def set [DecidableEq K] (t : Tree K T) (p : List K) (node : Node T) : Tree K T :=
  Function.update t p (some node)

variable {p : List K}

theorem get_of_ne_nil (t : Tree K T) (hp : p ≠ []) : t.get p = t p := by
  cases p with
  | nil => exact absurd rfl hp
  | cons name rest => rfl

@[simp] theorem set_self [DecidableEq K] (t : Tree K T) (p : List K) (node : Node T) :
    t.set p node p = some node :=
  Function.update_self ..

variable {q : List K}

theorem set_of_ne [DecidableEq K] (t : Tree K T) (h : q ≠ p) (node : Node T) :
    t.set p node q = t q :=
  Function.update_of_ne h ..

theorem isDirectory_set_of_ne [DecidableEq K] {t : Tree K T} (h : t.IsDirectory q) (hne : q ≠ p)
    (node : Node T) : (t.set p node).IsDirectory q := by
  obtain ⟨mode, hmode⟩ := h
  refine ⟨mode, ?_⟩
  cases q with
  | nil => exact hmode
  | cons name rest => rw [get_of_ne_nil _ (by simp), t.set_of_ne hne]; exact hmode

theorem isDirectory_set_self [DecidableEq K] (t : Tree K T) (p : List K) (mode : Option Nat) :
    (t.set p (.dir mode)).IsDirectory p := by
  cases p with
  | nil => exact ⟨none, rfl⟩
  | cons name rest => exact ⟨mode, by rw [get_of_ne_nil _ (by simp), set_self]⟩

@[simp] theorem set_set [DecidableEq K] (t : Tree K T) (p : List K) (a b : Node T) :
    (t.set p a).set p b = t.set p b :=
  Function.update_idem ..

end Tree

/-! ### Walks -/

structure Walk (K : Type*) where
  dir : List K
  todo : List (Move K)

namespace Walk

variable {K T : Type*}

section
variable (t : Tree K T) (expand : T → List (Move K))

inductive Step : Walk K → Walk K → Prop
  | up (dir : List K) (name : K) (todo : List (Move K)) :
      Step ⟨dir ++ [name], .up :: todo⟩ ⟨dir, todo⟩
  | enter (dir : List K) (name : K) (todo : List (Move K)) (mode : Option Nat)
      (h : t (dir ++ [name]) = some (.dir mode)) :
      Step ⟨dir, .into name :: todo⟩ ⟨dir ++ [name], todo⟩
  | follow (dir : List K) (name : K) (todo : List (Move K)) (text : T)
      (h : t (dir ++ [name]) = some (.link text)) :
      Step ⟨dir, .into name :: todo⟩ ⟨dir, expand text ++ todo⟩

/-- The next move leads out of the base. -/
inductive Leaves : Walk K → Prop
  | up (todo : List (Move K)) : Leaves ⟨[], .up :: todo⟩
  | root (dir : List K) (todo : List (Move K)) : Leaves ⟨dir, .root :: todo⟩

/-- The resolution visits a directory outside the base. -/
def Escapes (w : Walk K) : Prop :=
  ∃ w', Relation.ReflTransGen (Step t expand) w w' ∧ w'.Leaves

end

variable {t : Tree K T} {expand : T → List (Move K)}

variable {w w' : Walk K}

theorem Escapes.head (hstep : Step t expand w w') (h : Escapes t expand w') :
    Escapes t expand w := by
  obtain ⟨w'', hsteps, hleaves⟩ := h
  exact ⟨w'', .head hstep hsteps, hleaves⟩

/-- A walk that has only names to go, after a part that comes from the text
of one link. -/
inductive FromLink (t : Tree K T) (expand : T → List (Move K)) : Walk K → Prop
  | names (dir : List K) (names : List K) : FromLink t expand ⟨dir, names.map .into⟩
  | text {w : Walk K} {dir : List K} {name : K} {text : T} (names : List K)
      (hlink : t (dir ++ [name]) = some (.link text))
      (hsteps : Relation.ReflTransGen (Step t expand) ⟨dir, expand text⟩ w) :
      FromLink t expand ⟨w.dir, w.todo ++ names.map .into⟩

theorem FromLink.of_names {names : List K} (htodo : w.todo = names.map .into)
    (hstep : Step t expand w w') : FromLink t expand w' := by
  cases hstep with
  | up dir name todo => cases names <;> cases htodo
  | enter dir name todo mode h =>
    cases names with
    | nil => cases htodo
    | cons head names =>
      cases htodo
      exact .names _ names
  | follow dir name todo text h =>
    cases names with
    | nil => cases htodo
    | cons head names =>
      cases htodo
      exact .text names h .refl

theorem FromLink.step (h : FromLink t expand w) (hstep : Step t expand w w') :
    FromLink t expand w' := by
  cases h with
  | names dir names => exact .of_names rfl hstep
  | @text w dir name text names hlink hsteps =>
    obtain ⟨wdir, todo⟩ := w
    cases todo with
    | nil => exact .of_names (w := ⟨wdir, names.map .into⟩) rfl hstep
    | cons move todo =>
      -- the step is one of the walk of the text alone
      have htext : ∀ {v : Walk K}, Step t expand ⟨wdir, move :: todo⟩ v →
          FromLink t expand ⟨v.dir, v.todo ++ names.map .into⟩ :=
        fun hv => .text names hlink (.tail hsteps hv)
      cases hstep with
      | up dir' name' => exact htext (.up dir' name' todo)
      | enter _ name' _ mode h => exact htext (.enter wdir name' todo mode h)
      | follow _ name' _ text' h =>
        have hfollow : FromLink t expand ⟨wdir, (expand text' ++ todo) ++ names.map .into⟩ :=
          htext (.follow wdir name' todo text' h)
        rw [List.append_assoc] at hfollow
        exact hfollow

/-- Names lead down, so only the part that comes from a link can leave. -/
theorem FromLink.escapes_text (h : FromLink t expand w) (hleaves : w.Leaves) :
    ∃ dir name text, t (dir ++ [name]) = some (.link text) ∧
      Escapes t expand ⟨dir, expand text⟩ := by
  have hnames : ∀ dir names : List K, ¬ Leaves (⟨dir, names.map .into⟩ : Walk K) := by
    intro dir names hl
    cases names <;> cases hl
  cases h with
  | names dir names => exact absurd hleaves (hnames dir names)
  | @text w dir name text names hlink hsteps =>
    obtain ⟨wdir, todo⟩ := w
    cases todo with
    | nil => exact absurd hleaves (hnames wdir names)
    | cons move todo =>
      refine ⟨dir, name, text, hlink, ⟨wdir, move :: todo⟩, hsteps, ?_⟩
      cases hleaves with
      | up => exact .up todo
      | root => exact .root wdir todo

/-- **Links one by one.** If no link leads out when its text is resolved on
its own, from the directory that holds it, then no path made of names does. -/
theorem not_escapes_of_links (hlinks : ∀ dir name text, t (dir ++ [name]) = some (.link text) →
      ¬ Escapes t expand ⟨dir, expand text⟩) (dir names : List K) :
    ¬ Escapes t expand ⟨dir, names.map .into⟩ := by
  rintro ⟨w, hsteps, hleaves⟩
  have hfrom : FromLink t expand w :=
    reflTransGen_invariant (fun _ _ h hstep => h.step hstep) (.names dir names) hsteps
  obtain ⟨dir', name, text, hlink, hescapes⟩ := hfrom.escapes_text hleaves
  exact hlinks dir' name text hlink hescapes

/-- Conversely, opening a link leads wherever its text does. -/
theorem escapes_of_link {dir : List K} {name : K} {text : T}
    (hlink : t (dir ++ [name]) = some (.link text)) (h : Escapes t expand ⟨dir, expand text⟩) :
    Escapes t expand ⟨dir, [.into name]⟩ := by
  apply Escapes.head (.follow dir name [] text hlink)
  rw [List.append_nil]
  exact h

/-- What is left goes up before it goes down, and no further than to the base. -/
def Rises (w : Walk K) : Prop :=
  ∃ (k : Nat) (names : List K),
    w.todo = List.replicate k .up ++ names.map .into ∧ k ≤ w.dir.length

theorem Rises.not_leaves (h : w.Rises) : ¬ w.Leaves := by
  obtain ⟨k, names, htodo, hk⟩ := h
  intro hleaves
  cases hleaves with
  | up todo =>
    obtain rfl : k = 0 := by simpa using hk
    cases names <;> simp at htodo
  | root dir todo =>
    cases k with
    | zero => cases names <;> simp at htodo
    | succ k => simp [List.replicate_succ] at htodo

section
variable (h : w.Rises)
  (hlinks : ∀ dir name text, t (dir ++ [name]) = some (.link text) → Rises ⟨dir, expand text⟩)
include h hlinks

theorem Rises.step (hstep : Step t expand w w') : w'.Rises := by
  obtain ⟨k, names, htodo, hk⟩ := h
  cases hstep with
  | up dir name todo =>
    cases k with
    | zero => cases names <;> simp at htodo
    | succ k =>
      rw [List.length_append, List.length_singleton] at hk
      exact ⟨k, names, by simpa [List.replicate_succ] using htodo, Nat.le_of_succ_le_succ hk⟩
  | enter dir name todo mode h =>
    cases k with
    | zero =>
      cases names with
      | nil => simp at htodo
      | cons first rest => exact ⟨0, rest, by simpa using (List.cons.inj htodo).2, Nat.zero_le _⟩
    | succ k => simp [List.replicate_succ] at htodo
  | follow dir name todo text h =>
    cases k with
    | zero =>
      cases names with
      | nil => simp at htodo
      | cons first rest =>
        -- the names that were left come after those of the text
        obtain ⟨j, down, htext, hj⟩ := hlinks dir name text h
        refine ⟨j, down ++ rest, ?_, hj⟩
        have hrest : todo = rest.map .into := by simpa using (List.cons.inj htodo).2
        have htext' : expand text = List.replicate j .up ++ down.map .into := htext
        rw [hrest, htext', List.map_append, List.append_assoc]
    | succ k => simp [List.replicate_succ] at htodo

/-- **Links that rise first.** If the text of every link does, then no walk that
does so leads out. -/
theorem Rises.not_escapes : ¬ Escapes t expand w := by
  rintro ⟨w', hsteps, hleaves⟩
  have hrises : w'.Rises :=
    reflTransGen_invariant (fun _ _ h hstep => h.step hlinks hstep) h hsteps
  exact hrises.not_leaves hleaves

end

end Walk

end IndenturedServer.Foundation
