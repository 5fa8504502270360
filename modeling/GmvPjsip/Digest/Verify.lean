import GmvPjsip.Digest.Nonces
import GmvPjsip.Digest.Parsing
import GmvPjsip.Lib.Except

/-!
# Checking a digest response

`verify_digest_response` recomputes the response from the stored credential and compares. The URI that
goes into the digest is the one the header names, and the URI of the request only if it names none.

* `verifyDigestResponse` is the check, with `createDigestResponse` for PJSIP's digest function.
* `Answers pj now req uri user`: the header of a request carries the digest of `user` for `uri`, under a
  nonce that is valid.
* `verify_eq_ok_iff`: a request is accepted exactly if its header carries the digest for the URI that
  the header names, and for the URI of the request only if it names none.
* `bound_iff`: when an accepted digest is bound to the URI of the request. `otherUri_accepted` has a
  request where it is not.
-/

namespace GmvPjsip.Digest

open GmvPjsip.Lib

/-- An error of the checks, by its text. -/
abbrev Result := Except (List Char)

/-- Source: `src/error.rs`, `auth_failed` -/
def authFailed (message : List Char) : List Char := "authentication failed: ".toList ++ message

/-! ## Credentials -/

/-- Source: `src/auth/mod.rs`, `CredentialKind` -/
inductive CredentialKind
  | plainPassword
  | digestHa1
  deriving DecidableEq, Repr

/-- Source: `src/auth/mod.rs`, `AuthCredential` -/
structure AuthCredential where
  username : List Char
  realm : List Char
  secret : List Char
  kind : CredentialKind
  algorithm : AuthAlgorithm
  deriving DecidableEq, Repr

/-- `PasswordProvider::credential_for`, by user name, realm and algorithm. -/
abbrev PasswordProvider := List Char → List Char → AuthAlgorithm → Option AuthCredential

/-- `str::to_ascii_uppercase`. -/
def toAsciiUppercase (text : List Char) : List Char := text.map Char.toUpper

/-- Source: `src/auth/mod.rs`, `AuthAlgorithm::from_header` -/
def AuthAlgorithm.fromHeader (value : Option (List Char)) (default : AuthAlgorithm) : AuthAlgorithm :=
  match value with
  | none => default
  | some value =>
    let name := toAsciiUppercase (trimMatches '"' value)
    if name = "SHA-256".toList ∨ name = "SHA256".toList then .sha256
    else if name = "SHA-512-256".toList ∨ name = "SHA512-256".toList ∨ name = "SHA512_256".toList then
      .sha512_256
    else if name = "MD5".toList then .md5
    else default

/-! ## The digest -/

/-- What the digest is computed from. -/
structure DigestInput where
  username : List Char
  realm : List Char
  secret : List Char
  kind : CredentialKind
  method : List Char
  uri : List Char
  nonce : List Char
  nc : List Char
  cnonce : List Char
  qop : List Char
  algorithm : AuthAlgorithm
  deriving DecidableEq, Repr

/-- What PJSIP brings: the algorithms it supports, and `pjsip_auth_create_digest2`, which returns a digest
or a status. -/
structure Pjsip where
  supported : AuthAlgorithm → Bool
  createDigest2 : DigestInput → Except ℤ (List Char)

/-- `format!("{status}")` of a signed number. -/
def statusText : ℤ → List Char
  | .ofNat n => decimalText n
  | .negSucc n => '-' :: decimalText (n + 1)

/-- Source: `src/auth/pjsip_digest.rs`, `cstring` -/
def cstring (name value : List Char) : Result (List Char) :=
  if Char.ofNat 0 ∈ value then .error (authFailed (name ++ " contains NUL byte".toList)) else .ok value

/-- Source: `src/auth/pjsip_digest.rs`, `create_digest_response` -/
def createDigestResponse (pj : Pjsip) (credential : AuthCredential) (method uri nonce : List Char)
    (nc cnonce qop : Option (List Char)) (algorithm : AuthAlgorithm) : Result (List Char) := do
  if !pj.supported algorithm then
    throw (authFailed ("PJSIP does not support digest algorithm ".toList ++ algorithm.ianaName))
  let username ← cstring "username".toList credential.username
  let realm ← cstring "realm".toList credential.realm
  let secret ← cstring "secret".toList credential.secret
  let method ← cstring "method".toList method
  let uri ← cstring "uri".toList uri
  let nonce ← cstring "nonce".toList nonce
  let nc ← cstring "nc".toList (nc.getD [])
  let cnonce ← cstring "cnonce".toList (cnonce.getD [])
  let qop ← cstring "qop".toList (qop.getD [])
  match pj.createDigest2
    ⟨username, realm, secret, credential.kind, method, uri, nonce, nc, cnonce, qop, algorithm⟩ with
  | .ok digest => pure digest
  | .error status =>
    throw (authFailed ("pjsip_auth_create_digest2 failed: pj_status=".toList ++ statusText status))

/-! ## The check -/

/-- Source: `src/auth/mod.rs`, `VerifyDigestRequest` -/
structure VerifyDigestRequest where
  method : List Char
  uri : List Char
  authorization : List Char
  realm : List Char
  defaultAlgorithm : AuthAlgorithm
  nonceStore : NonceStore
  provider : PasswordProvider

namespace VerifyDigestRequest

/-- A parameter of the header. -/
def param (req : VerifyDigestRequest) (name : List Char) : Option (List Char) :=
  (parseDigestAuthorization req.authorization).get name

/-- A parameter that must be there.

Source: `src/auth/mod.rs`, `verify_digest_response` -/
def required (req : VerifyDigestRequest) (name : List Char) : Result (List Char) :=
  match req.param name with
  | some value => .ok value
  | none => .error (authFailed ("missing ".toList ++ name))

/-- The URI the digest is computed for. -/
def digestUri (req : VerifyDigestRequest) : List Char := (req.param "uri".toList).getD req.uri

def algorithm (req : VerifyDigestRequest) : AuthAlgorithm :=
  .fromHeader (req.param "algorithm".toList) req.defaultAlgorithm

end VerifyDigestRequest

/-- Source: `src/auth/mod.rs`, `verify_digest_response`, with the reading of the clock -/
def verifyDigestResponse (pj : Pjsip) (now : ℕ) (req : VerifyDigestRequest) : Result (List Char) := do
  let username ← req.required "username".toList
  let nonce ← req.required "nonce".toList
  let response ← req.required "response".toList
  if !pj.supported req.algorithm then
    throw (authFailed ("digest algorithm ".toList ++ req.algorithm.ianaName ++
      " is not supported".toList))
  else if !req.nonceStore.valid now nonce then
    throw (authFailed "nonce expired or unknown".toList)
  else match req.provider username req.realm req.algorithm with
    | none => throw (authFailed "credential not found".toList)
    | some credential =>
      let expected ← createDigestResponse pj credential req.method req.digestUri nonce
        (req.param "nc".toList) (req.param "cnonce".toList) (req.param "qop".toList) req.algorithm
      if eqIgnoreAsciiCase expected response then pure username
      else throw (authFailed "digest response mismatch".toList)

/-! ## What is accepted -/

theorem VerifyDigestRequest.required_eq_ok {req : VerifyDigestRequest} {name value : List Char} :
    req.required name = .ok value ↔ req.param name = some value := by
  unfold required
  cases req.param name <;> simp

/-- The texts a digest is computed from. -/
def DigestInput.texts (input : DigestInput) : List (List Char) :=
  [input.username, input.realm, input.secret, input.method, input.uri, input.nonce, input.nc,
    input.cnonce, input.qop]

/-- What the digest of a request for `uri` is computed from. -/
def VerifyDigestRequest.digestInput (req : VerifyDigestRequest) (credential : AuthCredential)
    (uri nonce : List Char) : DigestInput :=
  ⟨credential.username, credential.realm, credential.secret, credential.kind, req.method, uri, nonce,
    (req.param "nc".toList).getD [], (req.param "cnonce".toList).getD [],
    (req.param "qop".toList).getD [], req.algorithm⟩

theorem cstring_eq_ok {name value text : List Char} :
    cstring name value = .ok text ↔ Char.ofNat 0 ∉ value ∧ value = text := by
  unfold cstring
  split_ifs with hnul
  · simp [hnul]
  · simp [hnul]

section accepted
variable (pj : Pjsip) (now : ℕ) (req : VerifyDigestRequest)

/-- A digest comes about if the algorithm is supported, no text holds a NUL and PJSIP computes it. -/
theorem createDigestResponse_eq_ok_iff {credential : AuthCredential} {uri nonce digest : List Char} :
    createDigestResponse pj credential req.method uri nonce (req.param "nc".toList)
        (req.param "cnonce".toList) (req.param "qop".toList) req.algorithm = .ok digest ↔
      pj.supported req.algorithm ∧
        (∀ text ∈ (req.digestInput credential uri nonce).texts, Char.ofNat 0 ∉ text) ∧
        pj.createDigest2 (req.digestInput credential uri nonce) = .ok digest := by
  have hcompute : ∀ input : DigestInput, (match pj.createDigest2 input with
        | .ok digest => pure digest
        | .error status => throw (authFailed
            ("pjsip_auth_create_digest2 failed: pj_status=".toList ++ statusText status)) :
          Result (List Char)) = .ok digest ↔ pj.createDigest2 input = .ok digest := by
    intro input
    cases pj.createDigest2 input with
    | ok value => simp [pure_eq_ok]
    | error status => simp
  unfold createDigestResponse
  cases hsupported : pj.supported req.algorithm with
  | false =>
    refine iff_of_false ?_ fun h => Bool.false_ne_true h.1
    rintro ⟨⟩
  | true =>
    rw [if_neg (by decide)]
    simp only [bind_eq_ok, cstring_eq_ok, hcompute, VerifyDigestRequest.digestInput,
      DigestInput.texts, List.forall_mem_cons, List.not_mem_nil, false_imp_iff, forall_const,
      and_assoc, exists_and_left, exists_eq_left', true_and]

/-- The header of a request carries the digest for `uri`: it names the user, a nonce that is valid and a
response, the user has a credential, and the response is, up to letter case, what PJSIP computes from that
credential, the method, the nonce and `uri`. None of these texts holds a NUL. -/
structure Answers (uri user : List Char) : Prop where
  username : req.param "username".toList = some user
  supported : pj.supported req.algorithm
  digest : ∃ nonce response credential expected,
    req.param "nonce".toList = some nonce ∧ req.param "response".toList = some response ∧
    req.nonceStore.valid now nonce ∧ req.provider user req.realm req.algorithm = some credential ∧
    (∀ text ∈ (req.digestInput credential uri nonce).texts, Char.ofNat 0 ∉ text) ∧
    pj.createDigest2 (req.digestInput credential uri nonce) = .ok expected ∧
    eqIgnoreAsciiCase expected response

/-- **What is accepted.** The header of the request carries the digest for the URI that it names, or for
the URI of the request if it names none. -/
theorem verify_eq_ok_iff {user : List Char} :
    verifyDigestResponse pj now req = .ok user ↔ Answers pj now req req.digestUri user := by
  unfold verifyDigestResponse
  simp only [bind_eq_ok, VerifyDigestRequest.required_eq_ok, ite_throw_eq_ok]
  constructor
  · rintro ⟨username, husername, nonce, hnonce, response, hresponse, hsupported, hvalid, h⟩
    split at h
    · cases h
    · rename_i credential hcredential
      obtain ⟨expected, hexpected, h⟩ := (bind_eq_ok ..).mp h
      obtain ⟨-, hplain, hdigest⟩ := (createDigestResponse_eq_ok_iff pj req).mp hexpected
      split_ifs at h with hequal
      obtain rfl := (pure_eq_ok ..).mp h
      exact ⟨husername, by simpa using hsupported, nonce, response, credential, expected, hnonce,
        hresponse, by simpa using hvalid, hcredential, hplain, hdigest, hequal⟩
  · rintro ⟨husername, hsupported, nonce, response, credential, expected, hnonce, hresponse, hvalid,
      hcredential, hplain, hdigest, hequal⟩
    refine ⟨user, husername, nonce, hnonce, response, hresponse, by simpa using hsupported,
      by simpa using hvalid, ?_⟩
    have hexpected := (createDigestResponse_eq_ok_iff pj req).mpr ⟨hsupported, hplain, hdigest⟩
    rw [hcredential]
    exact (bind_eq_ok ..).mpr ⟨expected, hexpected, if_pos hequal⟩

/-- **When an accepted digest is bound to the URI of the request.** The `uri` parameter of an accepted
request is the URI of the request exactly if a `uri` parameter that is another one comes without the
digest for itself. A request without the parameter, or with one that is the URI of the request, is
accepted exactly if the header carries the digest for the URI of the request. -/
theorem bound_iff : ((∀ user, verifyDigestResponse pj now req = .ok user →
        ∀ named, req.param "uri".toList = some named → named = req.uri) ↔
      ∀ named, req.param "uri".toList = some named → named ≠ req.uri →
        ∀ user, ¬Answers pj now req named user) ∧
    ((∀ named, req.param "uri".toList = some named → named = req.uri) →
      ∀ user, verifyDigestResponse pj now req = .ok user ↔ Answers pj now req req.uri user) := by
  have hnamed : ∀ named, req.param "uri".toList = some named → req.digestUri = named := by
    intro named hparam
    rw [VerifyDigestRequest.digestUri, hparam, Option.getD_some]
  refine ⟨⟨fun hbound named hparam hother user hanswers => ?_, fun hnever user hok named hparam => ?_⟩,
    fun hsame user => ?_⟩
  · refine hother (hbound user ?_ named hparam)
    rw [verify_eq_ok_iff, hnamed named hparam]
    exact hanswers
  · by_contra hother
    rw [verify_eq_ok_iff, hnamed named hparam] at hok
    exact hnever named hparam hother user hok
  · have huri : req.digestUri = req.uri := by
      cases hparam : req.param "uri".toList with
      | none => rw [VerifyDigestRequest.digestUri, hparam, Option.getD_none]
      | some named => rw [hnamed named hparam, hsame named hparam]
    rw [verify_eq_ok_iff, huri]

end accepted

/-- A digest that shows what it was computed from. -/
def openDigest : Pjsip where
  supported _ := true
  createDigest2 input := .ok (input.secret ++ input.method ++ input.uri ++ input.nonce)

/-- A response computed for `sip:a`, presented with a request for `sip:b`. -/
def otherUri : VerifyDigestRequest where
  method := "MESSAGE".toList
  uri := "sip:b".toList
  authorization :=
    "Digest username=\"u\", nonce=\"n\", uri=\"sip:a\", response=\"pMESSAGEsip:an\"".toList
  realm := ['r']
  defaultAlgorithm := .md5
  nonceStore := (NonceStore.new 5).issue 0 ['n']
  provider user realm algorithm := some ⟨user, realm, ['p'], .plainPassword, algorithm⟩

/-- It is accepted. -/
theorem otherUri_accepted : verifyDigestResponse openDigest 1 otherUri = .ok ['u'] ∧
      otherUri.param "uri".toList = some "sip:a".toList ∧ otherUri.uri = "sip:b".toList := by
  have hparts : parseDigestAuthorization otherUri.authorization =
      [("response".toList, "pMESSAGEsip:an".toList), ("uri".toList, "sip:a".toList),
       ("nonce".toList, ['n']), ("username".toList, ['u'])] := by decide +kernel
  have hparam : ∀ name, otherUri.param name = Parts.get _ name := fun name =>
    congrArg (fun parts => Parts.get parts name) hparts
  have huri : otherUri.param "uri".toList = some "sip:a".toList := hparam _
  have hdigest : otherUri.digestUri = "sip:a".toList := by
    rw [VerifyDigestRequest.digestUri, huri, Option.getD_some]
  have halgorithm : otherUri.algorithm = .md5 := by
    rw [VerifyDigestRequest.algorithm, hparam]
    rfl
  have hinput : otherUri.digestInput ⟨['u'], ['r'], ['p'], .plainPassword, .md5⟩ otherUri.digestUri ['n'] =
      ⟨['u'], ['r'], ['p'], .plainPassword, "MESSAGE".toList, "sip:a".toList, ['n'], [], [], [], .md5⟩ := by
    rw [hdigest, VerifyDigestRequest.digestInput, halgorithm, hparam, hparam, hparam]
    rfl
  have hplain : ∀ text ∈ (otherUri.digestInput ⟨['u'], ['r'], ['p'], .plainPassword, .md5⟩
      otherUri.digestUri ['n']).texts, Char.ofNat 0 ∉ text := by
    rw [hinput]
    decide
  have hanswers : Answers openDigest 1 otherUri otherUri.digestUri ['u'] :=
    ⟨hparam _, rfl, ['n'], "pMESSAGEsip:an".toList, ⟨['u'], ['r'], ['p'], .plainPassword, .md5⟩,
      "pMESSAGEsip:an".toList, hparam _, hparam _, rfl, by rw [halgorithm]; rfl, hplain,
      by rw [hinput]; rfl, decide_eq_true rfl⟩
  exact ⟨(verify_eq_ok_iff openDigest 1 otherUri).mpr hanswers, huri, rfl⟩

end GmvPjsip.Digest
