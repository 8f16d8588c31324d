import IndenturedServer.SourceUpdates.Apply

/-!
The metadata of a source update.

An update is a JSON object and an archive. `parse_session_update_metadata`
reads the object and checks everything that can be checked without the archive
and without the configured patterns: the version of the schema, the identifier
of the request, the revision it starts from, and the path and the hash of every
change. The client checks the same paths and writes the same revisions, so that
these functions belong to both sides.

What a byte string means as JSON, and what a JSON value means as a request, is
up to the library; the parser here takes any reading. `checkRequest_ok_iff` says
which requests are then accepted.
-/

namespace IndenturedServer.SourceUpdates

open Foundation Source List

/-! ### The request as JSON -/

inductive Json
  | null
  | bool (value : Bool)
  | number (literal : Text)
  | string (value : Text)
  | array (items : List Json)
  | object (fields : List (Text × Json))

def Json.asObject : Json → Option (List (Text × Json))
  | .object fields => some fields
  | _ => none

def Json.asStr : Json → Option Text
  | .string value => some value
  | _ => none

inductive SourceFormat
  | zip
  deriving DecidableEq, Repr

structure SourceMetadata where
  format : SourceFormat
  deriving DecidableEq, Repr

structure SessionUpdateRequest where
  schemaVersion : Text
  requestId : Text
  baseRevision : Text
  source : SourceMetadata
  changes : List Change
  deriving DecidableEq, Repr

/-- `serde_json`, with the message of an error. -/
structure Serde where
  fromSlice : Text → Except Text Json
  fromValue : Json → Except Text SessionUpdateRequest

/-- What stands in the error for JSON that is no request. -/
inductive InvalidJson
  | serde (message : Text)
  /-- base_revision must be rev_<decimal> -/
  | baseRevision
  /-- changes must not be empty -/
  | noChanges
  /-- changes exceeds configured max_files (..) -/
  | tooManyChanges (maxFiles : Nat)
  | path (error : PathError)
  /-- changes contains duplicate or case-colliding paths -/
  | duplicatePaths
  /-- sha256 must be 64 lowercase hexadecimal characters -/
  | sha256
  deriving DecidableEq, Repr

inductive RequestError
  /-- metadata must be a JSON object -/
  | notObject
  /-- missing schema_version -/
  | missingSchemaVersion
  /-- schema_version must be a string -/
  | invalidSchemaVersionType
  /-- unsupported schema_version .. -/
  | unsupportedSchemaVersion (version : Text)
  /-- invalid metadata json: .. -/
  | invalidJson (problem : InvalidJson)
  /-- request_id must be 1..=128 ASCII letters, digits, '_', '-' or '.' -/
  | invalidRequestId
  deriving DecidableEq, Repr

/-! ### Identifiers and revisions -/

/-- `SESSION_UPDATE_SCHEMA_VERSION`, the text `1`. -/
def sessionUpdateSchemaVersion : Text := [0x31]

/-- ASCII of `schema_version`. -/
def schemaVersionField : Text :=
  [0x73, 0x63, 0x68, 0x65, 0x6d, 0x61, 0x5f, 0x76, 0x65, 0x72, 0x73, 0x69, 0x6f, 0x6e]

def maxRequestIdLen : Nat := 128
def maxSessionIdLen : Nat := 128
def maxActionIdLen : Nat := 128

def isDigit (b : UInt8) : Bool :=
  inRange 0x30 0x39 b

def isAsciiAlphanumeric (b : UInt8) : Bool :=
  isDigit b || inRange 0x41 0x5a b || inRange 0x61 0x7a b

def validateIdentifier (value : Text) (maxLen : Nat) (allowDot : Bool) : Except Unit Unit := do
  refuse (value = [] ∨ maxLen < value.length) ()
  refuse ((value.all fun b => isAsciiAlphanumeric b || b = 0x5f || b = 0x2d || allowDot && b = dot)
    = false) ()

def validRequestId (value : Text) : Bool :=
  (validateIdentifier value maxRequestIdLen true).isOk

def validSessionId (value : Text) : Bool :=
  (validateIdentifier value maxSessionIdLen false).isOk

def validActionId (value : Text) : Bool :=
  (validateIdentifier value maxActionIdLen false).isOk

/-- The bytes of ASCII characters. -/
def asciiBytes (chars : List Char) : Text :=
  chars.map fun c => UInt8.ofNat c.toNat

def decimal (n : Nat) : Text :=
  asciiBytes (Nat.toDigits 10 n)

/-- ASCII of `rev_`. -/
def revMark : Text := [0x72, 0x65, 0x76, 0x5f]

def revision (n : Nat) : Text :=
  revMark ++ decimal n

/-- The value of a row of digits. -/
def ofDecimal (digits : Text) : Nat :=
  digits.foldl (fun n b => 10 * n + (b.toNat - 0x30)) 0

/-- `parse::<u64>`, on digits. -/
def parseU64 (digits : Text) : Option Nat :=
  if ofDecimal digits < 2 ^ 64 then some (ofDecimal digits) else none

def parseRevision (value : Text) : Option Nat := do
  let digits ← revMark.isPrefixOf? value
  guard ¬ (digits = [] ∨ (1 < digits.length ∧ digits.head? = some 0x30) ∨ digits.all isDigit = false)
  let n ← parseU64 digits
  guard (revision n = value)
  return n

/-! ### The checks -/

/-- 64 lowercase hexadecimal characters. -/
def isSha256 (sha256 : Text) : Bool :=
  sha256.length = 64 && sha256.all fun b => isDigit b || inRange 0x61 0x66 b

def Change.hash : Change → Option Text
  | .file _ sha256 => some sha256
  | .delete _ => none

/-- One turn of the loop over the changes, with the sets `exact` and `folded`. -/
def checkChange (maxDepth : Nat) (seen : List Text × List Text) (change : Change) :
    Except RequestError (List Text × List Text) := do
  (validateUpdatePath change.path maxDepth).mapError fun e => .invalidJson (.path e)
  refuse (change.path ∈ seen.1 ∨ toAsciiLowercase change.path ∈ seen.2)
    (.invalidJson .duplicatePaths)
  refuse (∃ sha256 ∈ change.hash, isSha256 sha256 = false) (.invalidJson .sha256)
  return (change.path :: seen.1, toAsciiLowercase change.path :: seen.2)

/-- What is checked of the request once it is read. -/
def checkRequest (maxFiles maxDepth : Nat) (request : SessionUpdateRequest) :
    Except RequestError Unit := do
  (validateIdentifier request.requestId maxRequestIdLen true).mapError fun _ => .invalidRequestId
  refuse (parseRevision request.baseRevision = none) (.invalidJson .baseRevision)
  refuse (request.changes = []) (.invalidJson .noChanges)
  refuse (maxFiles < request.changes.length) (.invalidJson (.tooManyChanges maxFiles))
  let _ ← request.changes.foldlM (checkChange maxDepth) ([], [])

def parseSessionUpdateMetadata (serde : Serde) (data : Text) (maxFiles maxDepth : Nat) :
    Except RequestError SessionUpdateRequest := do
  let value ← (serde.fromSlice data).mapError fun message => .invalidJson (.serde message)
  let some object := value.asObject | throw .notObject
  let some field := object.lookup schemaVersionField | throw .missingSchemaVersion
  let some version := field.asStr | throw .invalidSchemaVersionType
  refuse (version ≠ sessionUpdateSchemaVersion) (.unsupportedSchemaVersion version)
  let request ← (serde.fromValue value).mapError fun message => .invalidJson (.serde message)
  checkRequest maxFiles maxDepth request
  return request

/-! ### Revisions -/

theorem toNat_of_isDigit {c : Char} (h : c.isDigit = true) :
    (UInt8.ofNat c.toNat).toNat = c.toNat ∧ 0x30 ≤ c.toNat ∧ c.toNat ≤ 0x39 := by
  have hrange : 0x30 ≤ c.toNat ∧ c.toNat ≤ 0x39 := by
    simpa [Char.isDigit, UInt32.le_iff_toNat_le] using h
  refine ⟨?_, hrange⟩
  rw [UInt8.toNat_ofNat']
  omega

theorem decimal_all_isDigit (n : Nat) : (decimal n).all isDigit = true := by
  apply all_eq_true.mpr
  intro b hb
  obtain ⟨c, hc, rfl⟩ := mem_map.mp hb
  obtain ⟨hnat, hlow, hhigh⟩ :=
    toNat_of_isDigit (Nat.isDigit_of_mem_toDigits (by omega) (by omega) hc)
  simp only [isDigit, inRange, Bool.and_eq_true, decide_eq_true_eq, UInt8.le_iff_toNat_le, hnat]
  exact ⟨hlow, hhigh⟩

theorem ofDecimal_decimal (n : Nat) : ofDecimal (decimal n) = n := by
  have hread : ∀ (chars : List Char) (m : Nat), (∀ c ∈ chars, c.isDigit = true) →
      (asciiBytes chars).foldl (fun n b => 10 * n + (b.toNat - 0x30)) m =
        Nat.ofDigitChars 10 chars m := by
    intro chars
    induction chars with
    | nil => intro m _; rfl
    | cons c rest ih =>
      intro m hdigits
      obtain ⟨hc, hrest⟩ := forall_mem_cons.mp hdigits
      show (asciiBytes rest).foldl _ (10 * m + ((UInt8.ofNat c.toNat).toNat - 0x30)) = _
      rw [(toNat_of_isDigit hc).1, ih _ hrest]
      rfl
  have hdigits : ∀ c ∈ Nat.toDigits 10 n, c.isDigit = true := fun c hc =>
    Nat.isDigit_of_mem_toDigits (by omega) (by omega) hc
  calc ofDecimal (decimal n) = Nat.ofDigitChars 10 (Nat.toDigits 10 n) 0 := hread _ 0 hdigits
    _ = n := Nat.ofDigitChars_toDigits (by omega) (by omega)

variable {n : Nat}

theorem head_toDigits (hn : n ≠ 0) : (Nat.toDigits 10 n).head? ≠ some '0' := by
  induction n using Nat.strong_induction_on with
  | _ n ih =>
    by_cases hlt : n < 10
    · rw [Nat.toDigits_of_lt_base hlt]
      intro hzero
      have hnat : n.digitChar.toNat = 48 + n := Nat.toNat_digitChar_of_lt_ten hlt
      rw [Option.some.inj hzero] at hnat
      exact hn (Nat.add_left_cancel hnat).symm
    · rw [Nat.toDigits_of_base_le (by omega) (by omega), head?_append]
      have hhead := ih (n / 10) (by omega) (by omega)
      cases hfirst : (Nat.toDigits 10 (n / 10)).head? with
      | none =>
        have := @Nat.length_toDigits_pos 10 (n / 10)
        rw [head?_eq_none_iff.mp hfirst] at this
        exact absurd this (by decide)
      | some c => rwa [hfirst] at hhead

theorem head_decimal (hn : 1 < (decimal n).length) : (decimal n).head? ≠ some 0x30 := by
  have hzero : n ≠ 0 := by
    rintro rfl
    exact absurd hn (by decide)
  unfold decimal asciiBytes
  rw [head?_map]
  intro hhead
  obtain ⟨c, hc, hbyte⟩ := Option.map_eq_some_iff.mp hhead
  obtain ⟨hnat, -⟩ := toNat_of_isDigit
    (Nat.isDigit_of_mem_toDigits (by omega) (by omega) (mem_of_mem_head? hc))
  rw [hbyte] at hnat
  have hchar : c = '0' := Char.ext (UInt32.toNat_inj.mp hnat.symm)
  exact head_toDigits hzero (hchar ▸ hc)

/-- A number as it is written: no sign, and no zero before other digits. -/
structure Canonical (digits : Text) : Prop where
  nonempty : digits ≠ []
  plain : digits.all isDigit = true
  unpadded : 1 < digits.length → digits.head? ≠ some 0x30

theorem decimal_canonical (n : Nat) : Canonical (decimal n) := by
  refine ⟨?_, decimal_all_isDigit n, head_decimal⟩
  have := @Nat.length_toDigits_pos 10 n
  intro hempty
  rw [map_eq_nil_iff.mp hempty] at this
  exact absurd this (by decide)

theorem parseRevision_revision (h : n < 2 ^ 64) : parseRevision (revision n) = some n := by
  have hstrip : revMark.isPrefixOf? (revision n) = some (decimal n) := by
    simp [revision, revMark, isPrefixOf?]
  have hplain : ¬ (decimal n = [] ∨ (1 < (decimal n).length ∧ (decimal n).head? = some 0x30) ∨
      (decimal n).all isDigit = false) := by
    simp only [(decimal_canonical n).nonempty, decimal_all_isDigit, false_or, Bool.true_eq_false, or_false, not_and]
    exact head_decimal
  simp only [parseRevision, hstrip, Option.bind_eq_bind, Option.bind_some, guard, if_pos hplain,
    parseU64, ofDecimal_decimal, if_pos h, pure]
  simp

theorem parseRevision_eq_some {value : Text} (h : parseRevision value = some n) :
    value = revision n ∧ n < 2 ^ 64 := by
  unfold parseRevision parseU64 at h
  simp only [bind, Option.bind_eq_some_iff, pure] at h
  obtain ⟨digits, -, -, -, m, hm, _, hsame, hresult⟩ := h
  cases hresult
  have hvalue : revision n = value := by
    by_contra hne
    rw [guard, if_neg hne] at hsame
    cases hsame
  split at hm
  · cases hm
    exact ⟨hvalue.symm, ‹_›⟩
  · cases hm

variable {digits : Text}

theorem ofNat_digitChar {b : UInt8} (h : isDigit b = true) :
    b.toNat - 0x30 < 10 ∧ UInt8.ofNat (b.toNat - 0x30).digitChar.toNat = b := by
  simp only [isDigit, inRange, Bool.and_eq_true, decide_eq_true_eq, UInt8.le_iff_toNat_le,
    UInt8.reduceToNat] at h
  have hlt : b.toNat - 0x30 < 10 := by omega
  refine ⟨hlt, UInt8.toNat_inj.mp ?_⟩
  rw [Nat.toNat_digitChar_of_lt_ten hlt, UInt8.toNat_ofNat']
  omega

/-- The induction is on the digits from the last one on, as `toDigits` makes them. -/
theorem decimal_ofDecimal (h : Canonical digits) : decimal (ofDecimal digits) = digits := by
  induction digits using reverseRecOn with
  | nil => exact absurd rfl h.nonempty
  | append_singleton rest b ih =>
    have hplain := all_eq_true.mp h.plain
    obtain ⟨hlt, hb⟩ := ofNat_digitChar (hplain b (by simp))
    by_cases hrest : rest = []
    · subst hrest
      simp [ofDecimal, decimal, asciiBytes, Nat.toDigits_of_lt_base hlt, hb]
    · obtain ⟨first, more, rfl⟩ := exists_cons_of_ne_nil hrest
      have hhead : first ≠ 0x30 := by simpa using h.unpadded (by simp)
      have hbefore := ih ⟨hrest, all_eq_true.mpr fun d hd => hplain d (mem_append_left _ hd), by
        simpa using fun _ => hhead⟩
      have hpos : ofDecimal (first :: more) ≠ 0 := by
        intro hzero
        rw [hzero] at hbefore
        exact hhead (cons_eq_cons.mp hbefore).1.symm
      have hvalue : ofDecimal (first :: more ++ [b]) =
          10 * ofDecimal (first :: more) + (b.toNat - 0x30) := by
        simp [ofDecimal]
      have hdiv : ofDecimal (first :: more ++ [b]) / 10 = ofDecimal (first :: more) := by omega
      have hmod : ofDecimal (first :: more ++ [b]) % 10 = b.toNat - 0x30 := by omega
      rw [decimal, Nat.toDigits_of_base_le (by omega) (by omega), hdiv, hmod, asciiBytes, map_append,
        ← asciiBytes, ← decimal, hbefore]
      simp [hb]

/-- A text is a revision if it is the mark and a number in its only spelling. -/
theorem revision_syntax (value : Text) (n : Nat) :
    (parseRevision value = some n ↔
      n < 2 ^ 64 ∧ ∃ digits, value = revMark ++ digits ∧ Canonical digits ∧ ofDecimal digits = n) ∧
    (parseRevision (revision n) = some n ↔ n < 2 ^ 64) ∧
    (parseRevision value = some n → revision n = value) ∧
    ∀ other, parseRevision value = some n → parseRevision other = some n → value = other := by
  have hwritten : ∀ text, parseRevision text = some n → text = revision n ∧ n < 2 ^ 64 :=
    fun text => parseRevision_eq_some
  refine ⟨⟨?_, ?_⟩, ⟨fun h => (hwritten _ h).2, parseRevision_revision⟩, ?_, ?_⟩
  · intro h
    obtain ⟨rfl, hlt⟩ := hwritten _ h
    exact ⟨hlt, decimal n, rfl, decimal_canonical n, ofDecimal_decimal n⟩
  · rintro ⟨hlt, digits, rfl, hdigits, rfl⟩
    have hsame := parseRevision_revision hlt
    rwa [revision, decimal_ofDecimal hdigits] at hsame
  · exact fun h => (hwritten _ h).1.symm
  · exact fun other h h' => (hwritten _ h).1.trans (hwritten _ h').1.symm

/-! ### What is accepted -/

/-- A path of an update, as the claims about it are put: its characters, its
parts, and where it does not lead. -/
structure UpdatePath (path : Text) : Prop where
  nonempty : path ≠ []
  ascii : isAscii path = true
  relative : path.head? ≠ some slash
  plain : backslash ∉ path ∧ nul ∉ path
  parts : ∀ part ∈ path.splitOn slash, part ≠ [] ∧ part ≠ [dot] ∧ part ≠ [dot, dot]
  unreserved : toAsciiLowercase ((path.splitOn slash).headD []) ∉ reservedNames

/-- The request passes the checks. -/
structure Acceptable (maxFiles maxDepth : Nat) (request : SessionUpdateRequest) : Prop where
  requestId : validRequestId request.requestId = true
  baseRevision : (parseRevision request.baseRevision).isSome
  nonempty : request.changes ≠ []
  count : request.changes.length ≤ maxFiles
  paths : ∀ change ∈ request.changes, validateUpdatePath change.path maxDepth = .ok ()
  distinct : (request.changes.map fun change => toAsciiLowercase change.path).Nodup
  hashes : ∀ change ∈ request.changes, ∀ sha256 ∈ change.hash, isSha256 sha256 = true

theorem mapError_eq_ok {ε δ α : Type} {f : ε → δ} {x : Except ε α} {a : α} :
    x.mapError f = .ok a ↔ x = .ok a := by
  cases x with
  | ok b => simp [Except.mapError]
  | error e => simp [Except.mapError]

theorem isOk_iff {ε : Type} {x : Except ε Unit} : x.isOk = true ↔ x = .ok () := by
  cases x with
  | ok u => simp [Except.isOk, Except.toBool]
  | error e => simp [Except.isOk, Except.toBool]

theorem validateUpdatePath_ok_iff {path : Text} {maxDepth : Nat} :
    validateUpdatePath path maxDepth = .ok () ↔
      UpdatePath path ∧ path.getLast? ≠ some slash ∧ (path.splitOn slash).length ≤ maxDepth := by
  simp only [validateUpdatePath, bind_eq_ok, refuse_eq_ok, exists_const]
  constructor
  · rintro ⟨hinvalid, hdepth, hreserved⟩
    push Not at hinvalid
    obtain ⟨hnonempty, hascii, hbackslash, hnul, hrelative, hlast, hparts⟩ := hinvalid
    exact ⟨⟨hnonempty, by simpa using hascii, hrelative, ⟨hbackslash, hnul⟩, hparts, hreserved⟩,
      hlast, Nat.le_of_not_lt hdepth⟩
  · rintro ⟨h, hlast, hdepth⟩
    refine ⟨?_, Nat.not_lt.mpr hdepth, h.unreserved⟩
    push Not
    exact ⟨h.nonempty, by simp [h.ascii], h.plain.1, h.plain.2, h.relative, hlast, h.parts⟩

section
variable {α ε : Type} {path : α → Text} {P : α → Prop}
  {f : List Text × List Text → α → Except ε (List Text × List Text)}

/-- The sets `exact` and `folded` after some items. -/
def seenBefore (path : α → Text) (before : List α) : List Text × List Text :=
  ((before.map path).reverse, (before.map fun a => toAsciiLowercase (path a)).reverse)

/-- One turn of a loop that checks an item and that its path is new, also in
another case. -/
def ChecksNew (path : α → Text) (P : α → Prop)
    (f : List Text × List Text → α → Except ε (List Text × List Text)) : Prop :=
  ∀ seen a after, f seen a = .ok after ↔
    P a ∧ path a ∉ seen.1 ∧ toAsciiLowercase (path a) ∉ seen.2 ∧
      after = (path a :: seen.1, toAsciiLowercase (path a) :: seen.2)

theorem ChecksNew.step (hf : ChecksNew path P f) {before : List α}
    (hbefore : (before.map fun a => toAsciiLowercase (path a)).Nodup) (a : α)
    (after : List Text × List Text) :
    f (seenBefore path before) a = .ok after ↔
      (P a ∧ ((before ++ [a]).map fun a => toAsciiLowercase (path a)).Nodup) ∧
        after = seenBefore path (before ++ [a]) := by
  have hexact : path a ∈ (seenBefore path before).1 →
      toAsciiLowercase (path a) ∈ (seenBefore path before).2 := by
    simp only [seenBefore, mem_reverse, mem_map]
    rintro ⟨b, hb, hpath⟩
    exact ⟨b, hb, by rw [hpath]⟩
  have hfolded : ((before ++ [a]).map fun a => toAsciiLowercase (path a)).Nodup ↔
      toAsciiLowercase (path a) ∉ (seenBefore path before).2 := by
    simp only [map_append, map_cons, map_nil, seenBefore, mem_reverse]
    rw [nodup_append_comm, singleton_append, nodup_cons]
    exact and_iff_left hbefore
  have hafter : seenBefore path (before ++ [a]) = (path a :: (seenBefore path before).1,
        toAsciiLowercase (path a) :: (seenBefore path before).2) := by
    simp [seenBefore]
  rw [hf, hfolded, hafter]
  tauto

/-- The loop accepts items that pass the check and differ in more than case. -/
theorem ChecksNew.foldlM (hf : ChecksNew path P f) (items : List α) :
    ∀ before : List α, (before.map fun a => toAsciiLowercase (path a)).Nodup →
    ((∃ after, items.foldlM f (seenBefore path before) = .ok after) ↔ (∀ a ∈ items, P a) ∧
        ((before ++ items).map fun a => toAsciiLowercase (path a)).Nodup) := by
  induction items with
  | nil =>
    intro before hbefore
    simp [pure, Except.pure, hbefore]
  | cons a rest ih =>
    intro before hbefore
    simp only [foldlM_cons, bind_eq_ok, hf.step hbefore]
    have hassoc : before ++ a :: rest = before ++ [a] ++ rest := by simp
    rw [hassoc, forall_mem_cons]
    constructor
    · rintro ⟨after, seen, ⟨⟨ha, hnodup⟩, rfl⟩, hrest⟩
      obtain ⟨hall, hdistinct⟩ := (ih (before ++ [a]) hnodup).mp ⟨after, hrest⟩
      exact ⟨⟨ha, hall⟩, hdistinct⟩
    · rintro ⟨⟨ha, hall⟩, hdistinct⟩
      have hnodup : ((before ++ [a]).map fun a => toAsciiLowercase (path a)).Nodup := by
        rw [map_append] at hdistinct
        exact hdistinct.of_append_left
      obtain ⟨after, hafter⟩ := (ih (before ++ [a]) hnodup).mpr ⟨hall, hdistinct⟩
      exact ⟨after, _, ⟨⟨ha, hnodup⟩, rfl⟩, hafter⟩

end

theorem checkChange_checksNew (maxDepth : Nat) :
    ChecksNew Change.path (fun change => validateUpdatePath change.path maxDepth = .ok () ∧
      ∀ sha256 ∈ change.hash, isSha256 sha256 = true) (checkChange maxDepth) := by
  intro seen change after
  simp only [checkChange, bind_eq_ok, refuse_eq_ok, mapError_eq_ok]
  constructor
  · rintro ⟨_, hpath, _, hseen, _, hhash, hafter⟩
    push Not at hseen hhash
    exact ⟨⟨hpath, by simpa using hhash⟩, hseen.1, hseen.2, (Except.ok.inj hafter).symm⟩
  · rintro ⟨⟨hpath, hhash⟩, hexact, hfolded, rfl⟩
    refine ⟨(), hpath, (), not_or.mpr ⟨hexact, hfolded⟩, (), ?_, rfl⟩
    simpa using hhash

variable {request : SessionUpdateRequest}

theorem checkRequest_ok_iff {maxFiles maxDepth : Nat} :
    checkRequest maxFiles maxDepth request = .ok () ↔ Acceptable maxFiles maxDepth request := by
  have hchanges : (∃ after, request.changes.foldlM (checkChange maxDepth) ([], []) = .ok after) ↔ _ :=
    (checkChange_checksNew maxDepth).foldlM request.changes [] nodup_nil
  simp only [checkRequest, bind_eq_ok, refuse_eq_ok, mapError_eq_ok, exists_const]
  constructor
  · rintro ⟨_, hid, hrevision, hnonempty, hcount, after, hafter, -⟩
    obtain ⟨hchecked, hdistinct⟩ := hchanges.mp ⟨after, hafter⟩
    exact ⟨isOk_iff.mpr hid, Option.isSome_iff_ne_none.mpr hrevision, hnonempty,
      Nat.le_of_not_lt hcount, fun change hchange => (hchecked change hchange).1, hdistinct,
      fun change hchange => (hchecked change hchange).2⟩
  · intro h
    obtain ⟨after, hafter⟩ := hchanges.mpr
      ⟨fun change hchange => ⟨h.paths change hchange, h.hashes change hchange⟩, h.distinct⟩
    exact ⟨(), isOk_iff.mp h.requestId, Option.isSome_iff_ne_none.mp h.baseRevision, h.nonempty,
      Nat.not_lt.mpr h.count, after, hafter, rfl⟩

theorem parseSessionUpdateMetadata_ok {serde : Serde} {data : Text} {maxFiles maxDepth : Nat}
    (h : parseSessionUpdateMetadata serde data maxFiles maxDepth = .ok request) :
    Acceptable maxFiles maxDepth request := by
  simp only [parseSessionUpdateMetadata, bind_eq_ok, mapError_eq_ok] at h
  obtain ⟨value, -, h⟩ := h
  split at h
  · split at h
    · split at h
      · simp only [bind_eq_ok, mapError_eq_ok] at h
        obtain ⟨_, -, read, -, _, hcheck, hread⟩ := h
        cases hread
        exact checkRequest_ok_iff.mp hcheck
      · contradiction
    · contradiction
  · contradiction

end IndenturedServer.SourceUpdates
