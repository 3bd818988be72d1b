import TiramisuAgents.Core.Identity
import TiramisuAgents.Library.Encodings

/-!
`security/credentials.py`: bearer tokens of tenants.

A token is four parts with points between them: `tiramisu_v1`, the identities of the tenant and of
the credential, and a secret.  The hash function and the characters beyond ASCII are parameters.

* `parseUuid`: `UUID` of a text; what it accepts goes beyond what `str` writes.
* `issueCredential`, `parseCredential`, `credentialSecretMatches`.
* `parseUuid_text`: `UUID` reads what `str` writes.
* `parseCredential_ok_iff`, `parse_token`: what is accepted, and the canonical tokens among it.
* `tokens_read_as_issued`: tokens are read as what they were issued for.
-/

namespace TiramisuAgents.Security

open Encodings Json

/-! ### Identities -/

/-- `str.strip("\x7b\x7d")`. -/
def stripBraces (text : PyString) : PyString :=
  let isBrace (c : ℕ) : Bool := c = 123 ∨ c = 125
  ((text.dropWhile isBrace).reverse.dropWhile isBrace).reverse

/-- The digits of a text for `UUID`. -/
def uuidDigits (text : PyString) : PyString :=
  (stripBraces (removeAll (codePoints "uuid:") (removeAll (codePoints "urn:") text))).filter
    (· ≠ 45)

/-- `UUID(int=value)`, without the error. -/
def uuidOfInt (value : ℤ) : Option Uuid :=
  if h : 0 ≤ value ∧ value < 16 ^ 32 then some ⟨value.toNat, by omega⟩ else none

/-- `UUID(text)`, without the error. -/
def parseUuid (C : Characters) (text : PyString) : Option Uuid :=
  if (uuidDigits text).length ≠ 32 then none
  else (parseInt C 16 (uuidDigits text)).bind uuidOfInt

/-! ### Tokens -/

/-- `CredentialScope`. -/
inductive CredentialScope where
  | eventsIngest | quarantineRead | quarantineResolve | processesRead | reviewsRead
  | reviewsComment | reviewsDecide | processesControl | outboxRead | outboxRequeue
  deriving DecidableEq, Repr

/-- Its value. -/
def CredentialScope.value : CredentialScope → String
  | eventsIngest => "events:ingest"
  | quarantineRead => "quarantine:read"
  | quarantineResolve => "quarantine:resolve"
  | processesRead => "processes:read"
  | reviewsRead => "reviews:read"
  | reviewsComment => "reviews:comment"
  | reviewsDecide => "reviews:decide"
  | processesControl => "processes:control"
  | outboxRead => "outbox:read"
  | outboxRequeue => "outbox:requeue"

/-- `_TOKEN_PREFIX`. -/
def tokenPrefix : PyString := codePoints "tiramisu_v1"

/-- `ParsedCredential`. -/
@[ext]
structure ParsedCredential where
  tenantId : Uuid
  credentialId : Uuid
  secret : PyString
  deriving DecidableEq

/-- `IssuedCredential`. -/
structure IssuedCredential (H : Type) where
  tenantId : Uuid
  credentialId : Uuid
  actorId : Uuid
  token : PyString
  secretHash : H
  deriving DecidableEq

/-- The bytes of `secrets.token_urlsafe(32)`. -/
structure Entropy where
  bytes : List UInt8
  length_bytes : bytes.length = 32
  deriving DecidableEq

/-- Parts with points between them. -/
def joinParts (parts : List PyString) : PyString := [46].intercalate parts

/-- The token of a credential. -/
def ParsedCredential.token (c : ParsedCredential) : PyString :=
  joinParts [tokenPrefix, c.tenantId.text, c.credentialId.text, c.secret]

/-- `issue_credential`, with the identity of the credential and the bytes of its secret. -/
def issueCredential {H : Type} (sha256 : PyString → H) (tenantId actorId credentialId : Uuid)
    (entropy : Entropy) : IssuedCredential H :=
  let secret := base64 entropy.bytes
  { tenantId := tenantId
    credentialId := credentialId
    actorId := actorId
    token := ParsedCredential.token ⟨tenantId, credentialId, secret⟩
    secretHash := sha256 secret }

/-- `_SECRET_PATTERN`. -/
def IsSecret (secret : PyString) : Prop :=
  (∀ c ∈ secret, IsBase64Letter c) ∧ 43 ≤ secret.length ∧ secret.length ≤ 128

instance : DecidablePred IsSecret := fun _ => inferInstanceAs (Decidable (_ ∧ _))

/-- `parse_credential`. -/
def parseCredential (C : Characters) (token : PyString) : Except String ParsedCredential :=
  if token.length > 512 then .error "credential is malformed"
  else
    match token.splitOn 46 with
    | [start, tenant, credential, secret] =>
        if start ≠ tokenPrefix then .error "credential is malformed"
        else
          match parseUuid C tenant, parseUuid C credential with
          | some tenantId, some credentialId =>
              if IsSecret secret then .ok ⟨tenantId, credentialId, secret⟩
              else .error "credential is malformed"
          | _, _ => .error "credential is malformed"
    | _ => .error "credential is malformed"

/-- `credential_secret_matches`. -/
def credentialSecretMatches {H : Type} [DecidableEq H] (sha256 : PyString → H) (secret : PyString)
    (expectedHash : H) : Bool :=
  sha256 secret = expectedHash

/-! ### Identities that are read -/

/-- The values of the digits of a number. -/
def hexValues : ℕ → ℕ → List ℕ
  | 0, _ => []
  | k + 1, n => hexValues k (n / 16) ++ [n % 16]

lemma digitOf_hexDigit {d : ℕ} (h : d < 16) : digitOf 16 (hexDigit d) = some d := by
  have hall : ∀ d < 16, digitOf 16 (hexDigit d) = some d := by decide
  exact hall d h

lemma map_digitOf_hexDigits (k n : ℕ) :
    (hexDigits k n).map (digitOf 16) = (hexValues k n).map some := by
  induction k generalizing n with
  | zero => rfl
  | succ k ih =>
      rw [hexDigits, hexValues, List.map_append, List.map_append, ih, List.map_singleton,
        List.map_singleton, digitOf_hexDigit (Nat.mod_lt n (by decide))]

lemma ofDigitValues_hexValues {k n : ℕ} (h : n < 16 ^ k) :
    ofDigitValues 16 0 (hexValues k n) = n := by
  induction k generalizing n with
  | zero =>
      rw [pow_zero, Nat.lt_one_iff] at h
      rw [h]
      rfl
  | succ k ih =>
      rw [pow_succ] at h
      have hquotient : ofDigitValues 16 0 (hexValues k (n / 16)) = n / 16 := ih (by omega)
      rw [ofDigitValues] at hquotient ⊢
      rw [hexValues, List.foldl_append, hquotient]
      simp only [List.foldl_cons, List.foldl_nil]
      omega

/-- The digits of a number are not taken for the letters of the base. -/
lemma dropBase_hexDigits (k n : ℕ) : dropBase 16 (hexDigits k n) = hexDigits k n := by
  have hdigit : ∀ c ∈ hexDigits k n, c ∉ prefixLetters 16 := by
    intro c hc
    have hbounds := mem_hexDigits hc
    have hletters : prefixLetters 16 = [120, 88] := rfl
    rw [hletters, List.mem_pair]
    omega
  generalize hexDigits k n = text at hdigit
  match text, hdigit with
  | [], _ => rfl
  | [c], _ => rw [dropBase]; rintro c' rest h; cases h
  | c :: c' :: rest, hdigit =>
      by_cases hc : c = 48
      · subst hc
        rw [dropBase, if_neg (hdigit c' (List.mem_cons_of_mem _ List.mem_cons_self))]
      · rw [dropBase]
        rintro c'' rest' h
        cases h
        exact hc rfl

lemma parseInt_hexDigits (C : Characters) {k n : ℕ} (hk : k ≠ 0) (h : n < 16 ^ k) :
    parseInt C 16 (hexDigits k n) = some (n : ℤ) := by
  have hne : hexDigits k n ≠ [] := fun hnil => hk (by rw [← length_hexDigits k n, hnil]; rfl)
  rw [parseInt_of_digits C (map_digitOf_hexDigits k n) hne (dropBase_hexDigits k n),
    ofDigitValues_hexValues h]

/-- The characters of the text of an identity. -/
lemma mem_text {id : Uuid} {c : ℕ} (h : c ∈ id.text) :
    (48 ≤ c ∧ c ≤ 57) ∨ (97 ≤ c ∧ c ≤ 102) ∨ c = 45 := by
  by_cases hc : c = 45
  · exact .inr (.inr hc)
  · have hdigit : c ∈ hexDigits 32 id.val := by
      rw [← id.text_filter]
      exact List.mem_filter.mpr ⟨h, decide_eq_true hc⟩
    exact (mem_hexDigits hdigit).imp_right .inl

lemma stripBraces_text (id : Uuid) : stripBraces id.text = id.text := by
  have hkeep : ∀ l : PyString, (∀ c ∈ l, c ∈ id.text) →
      l.dropWhile (fun c => decide (c = 123 ∨ c = 125)) = l := by
    intro l hl
    cases l with
    | nil => rfl
    | cons c l =>
        have hc := mem_text (hl c List.mem_cons_self)
        exact List.dropWhile_cons_of_neg (by rw [decide_eq_true_eq]; omega)
  rw [stripBraces, hkeep _ fun _ hc => hc, hkeep _ fun c hc => List.mem_reverse.mp hc,
    List.reverse_reverse]

/-- **`UUID` reads what `str` writes.** -/
lemma parseUuid_text (C : Characters) (id : Uuid) : parseUuid C id.text = some id := by
  have hcolon : 58 ∉ id.text := id.colon_notMem
  have hlt : (id.val : ℤ) < 16 ^ 32 := by exact_mod_cast id.val_lt
  have hdigits : uuidDigits id.text = hexDigits 32 id.val := by
    rw [uuidDigits, removeAll_of_notMem (by decide : 58 ∈ codePoints "urn:") hcolon,
      removeAll_of_notMem (by decide : 58 ∈ codePoints "uuid:") hcolon, stripBraces_text,
      id.text_filter]
  rw [parseUuid, hdigits, length_hexDigits, if_neg (fun h => h rfl),
    parseInt_hexDigits C (by decide) id.val_lt, Option.bind_some, uuidOfInt,
    dif_pos ⟨Int.natCast_nonneg _, hlt⟩]
  rfl

/-- It reads other spellings, too. -/
example : (parseUuid ⟨fun _ => false, fun _ => none⟩
    (codePoints "\x7b0x_00000000-0000-0000-0000-00000001F\x7d")).map Uuid.val = some 31 := by
  decide

/-! ### Tokens that are read -/

/-- What is accepted as a token. -/
lemma parseCredential_ok_iff {C : Characters} {token : PyString} {c : ParsedCredential} :
    parseCredential C token = .ok c ↔
      token.length ≤ 512 ∧ IsSecret c.secret ∧ ∃ tenant credential,
        token = joinParts [tokenPrefix, tenant, credential, c.secret] ∧
        46 ∉ tenant ∧ 46 ∉ credential ∧
        parseUuid C tenant = some c.tenantId ∧ parseUuid C credential = some c.credentialId := by
  have hsplit : ∀ tenant credential secret,
      token.splitOn 46 = [tokenPrefix, tenant, credential, secret] ↔
        token = joinParts [tokenPrefix, tenant, credential, secret] ∧
          ∀ part ∈ [tokenPrefix, tenant, credential, secret], 46 ∉ part :=
    fun _ _ _ => splitOn_eq_iff (List.cons_ne_nil _ _)
  constructor
  · intro h
    rw [parseCredential] at h
    split_ifs at h with hlength
    split at h
    · rename_i start tenant credential secret hparts
      by_cases hstart : start = tokenPrefix
      · rw [if_neg (not_not.mpr hstart)] at h
        split at h
        · rename_i tenantId credentialId htenant hcredential
          split_ifs at h with hsecret
          cases h
          rw [hstart] at hparts
          obtain ⟨htoken, hpoints⟩ := (hsplit tenant credential secret).mp hparts
          exact ⟨not_lt.mp hlength, hsecret, tenant, credential, htoken,
            hpoints tenant (by simp), hpoints credential (by simp), htenant, hcredential⟩
        · cases h
      · rw [if_pos hstart] at h
        cases h
    · cases h
  · rintro ⟨hlength, hsecret, tenant, credential, htoken, htenant, hcredential, hid, hid'⟩
    have hpoints : ∀ part ∈ [tokenPrefix, tenant, credential, c.secret], 46 ∉ part := by
      rw [List.forall_mem_cons, List.forall_mem_cons, List.forall_mem_cons,
        List.forall_mem_singleton]
      refine ⟨by decide, htenant, hcredential, fun h => ?_⟩
      exact (by decide : ¬ IsBase64Letter 46) (hsecret.1 46 h)
    have hparts := (hsplit tenant credential c.secret).mpr ⟨htoken, hpoints⟩
    rw [parseCredential, if_neg (not_lt.mpr hlength), hparts]
    simp only [ne_eq, not_true_eq_false, if_false, hid, hid', if_pos hsecret]

lemma point_notMem_text (id : Uuid) : 46 ∉ id.text := by
  intro h
  have := mem_text h
  omega

lemma length_text (id : Uuid) : id.text.length = 36 := by
  rw [Uuid.text]
  simp only [List.length_append, List.length_cons, List.length_take, List.length_drop,
    length_hexDigits]
  omega

/-- The token of a credential is read as the credential. -/
lemma parse_token {C : Characters} {c : ParsedCredential} (h : IsSecret c.secret) :
    parseCredential C c.token = .ok c := by
  refine parseCredential_ok_iff.mpr ⟨?_, h, _, _, rfl, point_notMem_text _, point_notMem_text _,
    parseUuid_text C _, parseUuid_text C _⟩
  have hversion : tokenPrefix.length = 11 := rfl
  have hsecret := h.2.2
  rw [ParsedCredential.token, joinParts]
  simp only [List.intercalate, List.intersperse, List.flatten_cons, List.flatten_nil,
    List.length_append, List.length_cons, List.length_nil, length_text, hversion]
  omega

/-- A new secret has the form that is accepted. -/
lemma isSecret_entropy (entropy : Entropy) : IsSecret (base64 entropy.bytes) := by
  have hlength : (base64 entropy.bytes).length = 43 := by
    rw [length_base64, entropy.length_bytes]
  exact ⟨fun c hc => mem_base64 hc, by omega, by omega⟩

/-- **Tokens are read as what they were issued for.**  A token that is issued is accepted, as the
credential it was issued for and with the secret of its hash; two issues have the same token only if
they are for the same credential with the same bytes.  What is accepted in another spelling is
accepted, as the same credential, from the token of the credential. -/
theorem tokens_read_as_issued (C : Characters) {H : Type} [DecidableEq H] (sha256 : PyString → H) :
    (∀ tenantId actorId credentialId entropy,
      let issued := issueCredential sha256 tenantId actorId credentialId entropy
      ∃ secret, parseCredential C issued.token = .ok ⟨tenantId, credentialId, secret⟩ ∧
        credentialSecretMatches sha256 secret issued.secretHash = true) ∧
    (∀ tenantId tenantId' actorId actorId' credentialId credentialId' entropy entropy',
      (issueCredential sha256 tenantId actorId credentialId entropy).token
          = (issueCredential sha256 tenantId' actorId' credentialId' entropy').token →
        tenantId = tenantId' ∧ credentialId = credentialId' ∧ entropy = entropy') ∧
    ∀ token c, parseCredential C token = .ok c → parseCredential C c.token = .ok c := by
  refine ⟨?_, ?_, fun token c h => ?_⟩
  · intro tenantId actorId credentialId entropy
    exact ⟨_, parse_token (c := ⟨_, _, _⟩) (isSecret_entropy entropy), decide_eq_true rfl⟩
  · intro tenantId tenantId' actorId actorId' credentialId credentialId' entropy entropy' h
    have hparsed := parse_token (C := C) (c := ⟨tenantId, credentialId, _⟩)
      (isSecret_entropy entropy)
    have hparsed' := parse_token (C := C) (c := ⟨tenantId', credentialId', _⟩)
      (isSecret_entropy entropy')
    have hsame := hparsed.symm.trans ((congrArg (parseCredential C) h).trans hparsed')
    rw [Except.ok.injEq, ParsedCredential.mk.injEq] at hsame
    obtain ⟨htenant, hcredential, hsecret⟩ := hsame
    have hbytes := base64_inj hsecret
    cases entropy
    cases entropy'
    exact ⟨htenant, hcredential, by cases hbytes; rfl⟩
  · exact parse_token (parseCredential_ok_iff.mp h).2.1

end TiramisuAgents.Security
