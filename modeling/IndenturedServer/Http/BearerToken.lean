import IndenturedServer.Foundation.Correspondence
import IndenturedServer.Source.Archive

/-!
Bearer tokens: from the credential files to the `Authorization` header.

`BearerToken::parse` goes over the bytes with two flags, one for a character
that is not padding and one for padding. `B64Token` is the grammar, and
`parse_eq_ok` says that the flags keep to it. The server stores digests of the
tokens of its credential files and compares them with the digest of the token
of a request.
-/

namespace IndenturedServer.Http

open Foundation Source

/-! ### Tokens -/

def maxBearerTokenFileBytes : Nat := 4096

def lineFeed : UInt8 := 0x0a
def equalsSign : UInt8 := 0x3d

/-- ALPHA, DIGIT, or one of `-._~+/`. -/
def baseCharacter (byte : UInt8) : Bool :=
  inRange 0x30 0x39 byte || inRange 0x41 0x5a byte || inRange 0x61 0x7a byte ||
    [0x2d, 0x2e, 0x5f, 0x7e, 0x2b, 0x2f].contains byte

/-- The loop over the bytes. -/
def scanToken : Bool → Bool → Text → Bool
  | _, _, [] => true
  | seenBaseCharacter, padding, byte :: rest =>
      if baseCharacter byte && !padding then scanToken true padding rest
      else if byte = equalsSign && seenBaseCharacter then scanToken seenBaseCharacter true rest
      else false

structure InvalidBearerToken where
  deriving DecidableEq, Repr

def BearerToken.parse (token : Text) : Except InvalidBearerToken Text := do
  refuse (token = [] ∨ maxBearerTokenFileBytes < token.length) ⟨⟩
  refuse (scanToken false false token = false) ⟨⟩
  refuse (isUtf8 token = false) ⟨⟩
  return token

def BearerToken.parseFile (contents : Text) : Except InvalidBearerToken Text := do
  refuse (contents = [] ∨ maxBearerTokenFileBytes < contents.length) ⟨⟩
  BearerToken.parse (if contents.getLast? = some lineFeed then contents.dropLast else contents)

/-! ### The credential files -/

/-- `HttpError::Credential`: what is wrong, and with which path. -/
structure CredentialError where
  message : String
  path : Text
  deriving DecidableEq, Repr

structure CredentialMetadata where
  isFile : Bool
  uid : UInt32
  mode : UInt32
  len : Nat

/-- What the calls on a credential file answer. -/
structure CredentialFile where
  path : Text
  /-- The result of `validate_credential_parent`. -/
  parent : Except CredentialError Unit
  opens : Bool
  metadata : Option CredentialMetadata
  /-- What a reader gets to see. -/
  contents : Option Text

section
variable (digest : Text → Vector UInt8 32)

def loadDigest (daemonUid : UInt32) (taskUid : Option UInt32) (file : CredentialFile) :
    Except CredentialError (Vector UInt8 32) := do
  file.parent
  refuse (file.opens = false) ⟨"cannot open credential file", file.path⟩
  let some metadata := file.metadata | throw ⟨"cannot inspect credential file", file.path⟩
  refuse (metadata.isFile = false ∨ metadata.uid ≠ daemonUid ∨ metadata.mode &&& 0o077 ≠ 0 ∨
    taskUid = some metadata.uid)
    ⟨"must be regular, daemon-owned, and inaccessible to the task identity", file.path⟩
  refuse (metadata.len = 0 ∨ maxBearerTokenFileBytes < metadata.len)
    ⟨"must contain 1-4096 bytes", file.path⟩
  let some contents := file.contents | throw ⟨"cannot read credential file", file.path⟩
  let raw := contents.take (maxBearerTokenFileBytes + 1)
  refuse (maxBearerTokenFileBytes < raw.length) ⟨"must contain 1-4096 bytes", file.path⟩
  match BearerToken.parseFile raw with
  | .ok token => return digest token
  | .error _ => throw ⟨"must contain one RFC 6750 b64token line", file.path⟩

structure AuthSecrets where
  digests : List (Vector UInt8 32)

def AuthSecrets.load (daemonUid : UInt32) (taskUid : Option UInt32) (files : List CredentialFile) :
    Except CredentialError AuthSecrets := do
  return ⟨← files.mapM (loadDigest digest daemonUid taskUid)⟩

def AuthSecrets.matches (auth : AuthSecrets) (token : Text) : Bool :=
  auth.digests.foldl (fun matched d => matched || d == digest token) false

/-! ### The header -/

/-- `HeaderValue::to_str`: visible ASCII, blanks and tabs. -/
def headerToStr (value : Text) : Option Text :=
  if value.all (fun byte => inRange 0x20 0x7e byte || byte = 0x09) then some value else none

/-- ASCII of `Bearer` and a blank. -/
def bearer : Text := [0x42, 0x65, 0x61, 0x72, 0x65, 0x72, 0x20]

def requestToken (values : List Text) : Option Text := do
  let value ← headerToStr (← values.head?)
  (BearerToken.parse (← value.dropPrefix? bearer)).toOption

/-- The status of the response to a request that is not let through. -/
def authorize (values : List Text) (auth : AuthSecrets) (enforce : Bool) : Option Nat :=
  if enforce = false then none
  else if 1 < values.length ∨ requestToken values = none ∨
      auth.matches digest ((requestToken values).getD []) = false then some 401
  else none

end

/-! ### The grammar -/

/-- 1 to 4096 bytes, with padding only behind all other characters. -/
structure B64Token (token : Text) : Prop where
  length : token.length ≤ maxBearerTokenFileBytes
  split : ∃ base padding, token = base ++ padding ∧ base ≠ [] ∧
    (∀ byte ∈ base, baseCharacter byte = true) ∧ ∀ byte ∈ padding, byte = equalsSign

theorem scanToken_padding {rest : Text} :
    scanToken true true rest = true ↔ ∀ byte ∈ rest, byte = equalsSign := by
  induction rest with
  | nil => simp [scanToken]
  | cons byte rest ih => simp [scanToken, ih]

theorem baseCharacter_ne {byte : UInt8} (h : baseCharacter byte = true) :
    byte ≠ equalsSign ∧ byte ≠ lineFeed ∧ inRange 0x20 0x7e byte = true ∧ byte < 0x80 := by
  simp only [baseCharacter, inRange, equalsSign, lineFeed, Bool.or_eq_true, Bool.and_eq_true,
    decide_eq_true_eq, List.contains_cons, List.contains_nil, Bool.or_false, beq_iff_eq, ne_eq,
    UInt8.le_iff_toNat_le, UInt8.lt_iff_toNat_lt, ← UInt8.toNat_inj, UInt8.reduceToNat] at h ⊢
  omega

theorem scanToken_base {rest : Text} :
    scanToken true false rest = true ↔ ∃ base padding, rest = base ++ padding ∧
      (∀ byte ∈ base, baseCharacter byte = true) ∧ ∀ byte ∈ padding, byte = equalsSign := by
  induction rest with
  | nil => exact iff_of_true rfl ⟨[], [], by simp⟩
  | cons byte rest ih =>
    by_cases hbase : baseCharacter byte = true
    · have hne := (baseCharacter_ne hbase).1
      simp only [scanToken, hbase, Bool.not_false, Bool.and_true, if_true, ih]
      constructor
      · rintro ⟨base, padding, rfl, hall, hpadding⟩
        exact ⟨byte :: base, padding, rfl, by simpa [hbase] using hall, hpadding⟩
      · rintro ⟨_ | ⟨first, base⟩, padding, heq, hall, hpadding⟩
        · -- the first byte would be padding
          rw [List.nil_append] at heq
          exact absurd (hpadding byte (heq ▸ List.mem_cons_self)) hne
        · obtain ⟨rfl, rfl⟩ := List.cons.inj heq
          exact ⟨base, padding, rfl, (List.forall_mem_cons.mp hall).2, hpadding⟩
    · have hscan : scanToken true false (byte :: rest) = true ↔
          byte = equalsSign ∧ scanToken true true rest = true := by
        simp [scanToken, hbase]
      rw [hscan, scanToken_padding, ← List.forall_mem_cons (p := (· = equalsSign))]
      constructor
      · exact fun hpadding => ⟨[], byte :: rest, rfl, by simp, hpadding⟩
      · rintro ⟨_ | ⟨first, base⟩, padding, heq, hall, hpadding⟩
        · rwa [heq]
        · rw [(List.cons.inj heq).1] at hbase
          exact absurd (hall first List.mem_cons_self) hbase

theorem B64Token.byte {token : Text} (h : B64Token token) {byte : UInt8} (hbyte : byte ∈ token) :
    byte ≠ lineFeed ∧ inRange 0x20 0x7e byte = true ∧ byte < 0x80 := by
  obtain ⟨base, padding, rfl, -, hbase, hpadding⟩ := h.split
  obtain hmem | hmem := List.mem_append.mp hbyte
  · exact (baseCharacter_ne (hbase byte hmem)).2
  · rw [hpadding byte hmem]
    decide

theorem B64Token.ne_nil {token : Text} (h : B64Token token) : token ≠ [] := by
  obtain ⟨base, padding, rfl, hbase, -⟩ := h.split
  simp [hbase]

theorem isUtf8_of_ascii {text : Text} (h : ∀ byte ∈ text, byte < 0x80) : isUtf8 text = true := by
  induction text with
  | nil => rfl
  | cons byte rest ih =>
    obtain ⟨hbyte, hrest⟩ := List.forall_mem_cons.mp h
    rw [isUtf8.eq_def]
    simp only [hbyte, if_true, ih hrest]

theorem scanToken_eq_true {token : Text} (hne : token ≠ []) :
    scanToken false false token = true ↔ ∃ base padding, token = base ++ padding ∧ base ≠ [] ∧
      (∀ byte ∈ base, baseCharacter byte = true) ∧ ∀ byte ∈ padding, byte = equalsSign := by
  obtain ⟨byte, rest, rfl⟩ := List.exists_cons_of_ne_nil hne
  have hscan : scanToken false false (byte :: rest) = true ↔
      baseCharacter byte = true ∧ scanToken true false rest = true := by
    cases hbase : baseCharacter byte <;> simp [scanToken, hbase]
  rw [hscan, scanToken_base]
  constructor
  · rintro ⟨hbase, base, padding, rfl, hall, hpadding⟩
    exact ⟨byte :: base, padding, rfl, by simp, by simpa [hbase] using hall, hpadding⟩
  · rintro ⟨_ | ⟨first, base⟩, padding, heq, hbase, hall, hpadding⟩
    · exact absurd rfl hbase
    · obtain ⟨rfl, rfl⟩ := List.cons.inj heq
      obtain ⟨hfirst, hall⟩ := List.forall_mem_cons.mp hall
      exact ⟨hfirst, base, padding, rfl, hall, hpadding⟩

theorem parse_eq_ok {token t : Text} :
    BearerToken.parse token = .ok t ↔ B64Token token ∧ t = token := by
  simp only [BearerToken.parse, bind_eq_ok, refuse_eq_ok, exists_const, pure, Except.pure,
    Except.ok.injEq, not_or, Nat.not_lt, Bool.not_eq_false]
  constructor
  · rintro ⟨⟨hne, hlength⟩, htoken, -, rfl⟩
    exact ⟨⟨hlength, (scanToken_eq_true hne).mp htoken⟩, rfl⟩
  · rintro ⟨h, rfl⟩
    exact ⟨⟨h.ne_nil, h.length⟩, (scanToken_eq_true h.ne_nil).mpr h.split,
      isUtf8_of_ascii fun b hb => (h.byte hb).2.2, rfl⟩

theorem parseFile_eq_ok {contents token : Text} :
    BearerToken.parseFile contents = .ok token ↔ contents.length ≤ maxBearerTokenFileBytes ∧
      B64Token token ∧ (contents = token ∨ contents = token ++ [lineFeed]) := by
  simp only [BearerToken.parseFile, bind_eq_ok, refuse_eq_ok, exists_const, not_or, Nat.not_lt,
    parse_eq_ok]
  constructor
  · rintro ⟨⟨hne, hlength⟩, htoken, rfl⟩
    refine ⟨hlength, htoken, ?_⟩
    by_cases hlast : contents.getLast? = some lineFeed
    · rw [if_pos hlast]
      exact .inr (List.dropLast_append_getLast? _ hlast).symm
    · rw [if_neg hlast]
      exact .inl rfl
  · rintro ⟨hlength, htoken, rfl | rfl⟩
    · -- the last character of a token is no line feed
      have hlast : contents.getLast? ≠ some lineFeed :=
        fun hlast => (htoken.byte (List.mem_of_getLast? hlast)).1 rfl
      rw [if_neg hlast]
      exact ⟨⟨htoken.ne_nil, hlength⟩, htoken, rfl⟩
    · rw [if_pos List.getLast?_concat, List.dropLast_concat]
      exact ⟨⟨by simp, hlength⟩, htoken, rfl⟩

/-! ### The decision -/

section
variable {digest : Text → Vector UInt8 32}

/-- The file was read, and its token is the one that is stored. -/
def CredentialFile.Holds (file : CredentialFile) (token : Text) : Prop :=
  ∃ contents, file.contents = some contents ∧ BearerToken.parseFile contents = .ok token

theorem CredentialFile.Holds.token {file : CredentialFile} {token : Text} (h : file.Holds token) :
    B64Token token := by
  obtain ⟨contents, -, hparse⟩ := h
  exact (parseFile_eq_ok.mp hparse).2.1

theorem CredentialFile.Holds.unique {file : CredentialFile} {token token' : Text}
    (h : file.Holds token) (h' : file.Holds token') : token = token' := by
  obtain ⟨contents, hcontents, hparse⟩ := h
  obtain ⟨contents', hcontents', hparse'⟩ := h'
  cases hcontents.symm.trans hcontents'
  exact Except.ok.inj (hparse.symm.trans hparse')

theorem loadDigest_ok {daemonUid : UInt32} {taskUid : Option UInt32} {file : CredentialFile}
    {d : Vector UInt8 32} (h : loadDigest digest daemonUid taskUid file = .ok d) :
    ∃ token, file.Holds token ∧ d = digest token := by
  rw [loadDigest, bind_eq_ok] at h
  obtain ⟨-, -, h⟩ := h
  simp only [bind_eq_ok, refuse_eq_ok, exists_const] at h
  obtain ⟨-, h⟩ := h
  cases hmetadata : file.metadata with
  | none => simp [hmetadata, throw, throwThe, MonadExceptOf.throw] at h
  | some metadata =>
    simp only [hmetadata, bind_eq_ok, refuse_eq_ok, exists_const] at h
    obtain ⟨-, -, h⟩ := h
    cases hcontents : file.contents with
    | none => simp [hcontents, throw, throwThe, MonadExceptOf.throw] at h
    | some contents =>
      simp only [hcontents, bind_eq_ok, refuse_eq_ok, exists_const] at h
      obtain ⟨hlength, h⟩ := h
      -- nothing was cut off
      have hraw : contents.take (maxBearerTokenFileBytes + 1) = contents := by
        rw [List.length_take] at hlength
        exact List.take_of_length_le (by omega)
      rw [hraw] at h
      cases hparse : BearerToken.parseFile contents with
      | error e => simp [hparse, throw, throwThe, MonadExceptOf.throw] at h
      | ok token =>
        rw [hparse] at h
        exact ⟨token, ⟨contents, hcontents, hparse⟩, (Except.ok.inj h).symm⟩

theorem matches_iff {auth : AuthSecrets} {token : Text} :
    auth.matches digest token = true ↔ digest token ∈ auth.digests := by
  have hfold : ∀ (l : List (Vector UInt8 32)) (matched : Bool),
      l.foldl (fun matched d => matched || d == digest token) matched = true ↔
        matched = true ∨ digest token ∈ l := by
    intro l
    induction l with
    | nil => simp
    | cons d l ih =>
      intro matched
      rw [List.foldl_cons, ih, Bool.or_eq_true, beq_iff_eq, List.mem_cons, or_assoc, @eq_comm _ d]
  rw [AuthSecrets.matches, hfold]
  simp

/-- The bytes of a token and of the word before it are visible. -/
theorem B64Token.headerToStr {token : Text} (h : B64Token token) :
    headerToStr (bearer ++ token) = some (bearer ++ token) := by
  have hbearer : ∀ byte ∈ bearer, (inRange 0x20 0x7e byte || byte = 0x09) = true := by
    decide +kernel
  refine if_pos (List.all_eq_true.mpr fun byte hbyte => ?_)
  obtain hmem | hmem := List.mem_append.mp hbyte
  · exact hbearer byte hmem
  · rw [(h.byte hmem).2.1, Bool.true_or]

theorem requestToken_eq_some {values : List Text} {token : Text} :
    requestToken values = some token ↔ B64Token token ∧ values.head? = some (bearer ++ token) := by
  simp only [requestToken, Option.bind_eq_bind, Option.bind_eq_some_iff]
  constructor
  · rintro ⟨value, hvalue, text, htext, rest, hrest, hparse⟩
    obtain rfl := Option.some.inj (Option.ite_none_right_eq_some.mp htext).2
    obtain ⟨word, rfl, hword⟩ := List.dropPrefix?_eq_some_iff.mp hrest
    rw [eq_of_beq hword] at hvalue
    cases hresult : BearerToken.parse rest with
    | error e => simp [hresult, Except.toOption] at hparse
    | ok t =>
      obtain ⟨htoken, rfl⟩ := parse_eq_ok.mp hresult
      obtain rfl : t = token := by simpa [hresult, Except.toOption] using hparse
      exact ⟨htoken, hvalue⟩
  · rintro ⟨htoken, hvalue⟩
    refine ⟨_, hvalue, _, htoken.headerToStr, token, ?_, ?_⟩
    · exact List.dropPrefix?_eq_some_iff.mpr ⟨bearer, rfl, BEq.rfl⟩
    · rw [parse_eq_ok.mpr ⟨htoken, rfl⟩]
      rfl

theorem authorize_eq_none {values : List Text} {auth : AuthSecrets} {enforce : Bool} :
    authorize digest values auth enforce = none ↔ enforce = false ∨
      ∃ token, values = [bearer ++ token] ∧ B64Token token ∧ digest token ∈ auth.digests := by
  have hone : ∀ value : Text, values = [value] ↔ values.length ≤ 1 ∧ values.head? = some value := by
    intro value
    rcases values with _ | ⟨first, _ | ⟨second, rest⟩⟩ <;> simp
  by_cases henforce : enforce = false
  · simp [authorize, henforce]
  · simp only [authorize, henforce, if_false, false_or, ite_eq_right_iff, reduceCtorEq, imp_false,
      not_or, Nat.not_lt, Bool.not_eq_false]
    constructor
    · rintro ⟨hlength, hsome, hmatches⟩
      obtain ⟨token, htoken⟩ := Option.ne_none_iff_exists'.mp hsome
      obtain ⟨hgrammar, hfirst⟩ := requestToken_eq_some.mp htoken
      rw [htoken, Option.getD_some, matches_iff] at hmatches
      exact ⟨token, (hone _).mpr ⟨hlength, hfirst⟩, hgrammar, hmatches⟩
    · rintro ⟨token, hvalues, hgrammar, hmem⟩
      obtain ⟨hlength, hfirst⟩ := (hone _).mp hvalues
      rw [requestToken_eq_some.mpr ⟨hgrammar, hfirst⟩]
      exact ⟨hlength, by simp, matches_iff.mpr hmem⟩

end

/-- A request is let through exactly if enforcement is off or its only
`Authorization` value is the token of a credential file, and tokens and files
are read as the grammar says. No other token has the digest of a stored one. -/
theorem bearer_credentials_exact (digest : Text → Vector UInt8 32) :
    (∀ token t, BearerToken.parse token = .ok t ↔ B64Token token ∧ t = token) ∧
    (∀ contents token, BearerToken.parseFile contents = .ok token ↔
      contents.length ≤ maxBearerTokenFileBytes ∧ B64Token token ∧
        (contents = token ∨ contents = token ++ [lineFeed])) ∧
    ∀ daemonUid taskUid files auth, AuthSecrets.load digest daemonUid taskUid files = .ok auth →
      (∀ file ∈ files, ∀ stored, file.Holds stored →
        ∀ token, B64Token token → digest token = digest stored → token = stored) →
      ∀ values enforce, authorize digest values auth enforce = none ↔ enforce = false ∨
        ∃ token, values = [bearer ++ token] ∧ ∃ file ∈ files, file.Holds token := by
  refine ⟨fun _ _ => parse_eq_ok, fun _ _ => parseFile_eq_ok, ?_⟩
  intro daemonUid taskUid files auth hload hdigest values enforce
  rw [AuthSecrets.load, bind_eq_ok] at hload
  obtain ⟨digests, hdigests, hauth⟩ := hload
  obtain rfl := Except.ok.inj hauth
  have hloaded := forall₂_of_mapM hdigests
  have hstored : ∀ token, B64Token token ∧ digest token ∈ digests ↔
      ∃ file ∈ files, file.Holds token := by
    intro token
    constructor
    · rintro ⟨htoken, hmem⟩
      obtain ⟨file, hfile, hload⟩ := forall₂_exists_left hloaded hmem
      obtain ⟨stored, hholds, hsame⟩ := loadDigest_ok hload
      obtain rfl := hdigest file hfile stored hholds token htoken hsame
      exact ⟨file, hfile, hholds⟩
    · rintro ⟨file, hfile, hholds⟩
      obtain ⟨d, hd, hload⟩ := forall₂_exists_right hloaded hfile
      obtain ⟨stored, hstored, rfl⟩ := loadDigest_ok hload
      rw [hholds.unique hstored]
      exact ⟨hstored.token, hd⟩
  rw [authorize_eq_none]
  simp only [hstored]

/-- The file holds `A=` and a line feed. -/
def sampleFile : CredentialFile :=
  ⟨[slash, 0x74], .ok (), true, some ⟨true, 0, 0o100600, 3⟩, some [0x41, equalsSign, lineFeed]⟩

def sampleDigest (token : Text) : Vector UInt8 32 :=
  .replicate 32 (if token = [0x41, equalsSign] then 1 else 0)

theorem bearer_credentials_exact_sample :
    AuthSecrets.load sampleDigest 0 (some 1000) [sampleFile] = .ok ⟨[.replicate 32 1]⟩ ∧
    authorize sampleDigest [bearer ++ [0x41, equalsSign]] ⟨[.replicate 32 1]⟩ true = none := by
  have hholds : sampleFile.Holds [0x41, equalsSign] := ⟨_, rfl, rfl⟩
  refine ⟨rfl, ((bearer_credentials_exact sampleDigest).2.2 0 (some 1000) [sampleFile] _ rfl ?_ _
    _).mpr (.inr ⟨_, rfl, _, List.mem_singleton_self _, hholds⟩)⟩
  intro file hfile stored hstored token _ hsame
  obtain rfl := List.mem_singleton.mp hfile
  obtain rfl := hholds.unique hstored
  by_contra hne
  rw [sampleDigest, if_neg hne] at hsame
  exact absurd hsame (by decide)

end IndenturedServer.Http
