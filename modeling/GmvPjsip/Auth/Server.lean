import GmvPjsip.Auth.Machine

/-!
# An authentication server that meets the assumptions

The assumptions on PJSIP can be met. `Pjsip.server` verifies a header as `pjsip_auth_srv_verify`
does, over any parser of packets and with the secret and the covered parameters themselves in place
of their hash.

* `server_authSrvSound`, `server_digestIgnoresCnonce`: it meets the assumptions, whatever the parser.
* `Input.arrival`, `Input.lookup` and `Input.poll` are inputs in which nothing outside the runtime
  fails, and `Input.round` is a REGISTER with the completion of its lookup. The runs on which
  theorems about this runtime are tried out are made of them.
-/

namespace GmvPjsip.Auth

/-! ## The server -/

/-- What a digest covers. Without `qop` it covers neither `cnonce` nor the nonce count. -/
def digestOf (secret : Bytes) (digest : DigestCredential) : Bytes :=
  secret ++ digest.nonce ++ if digest.qop = [] then [] else digest.nc ++ digest.cnonce

/-- PJSIP with a given parser. -/
def Pjsip.server (parse : Bytes → Option SipMsg) : Pjsip where
  maxPktLen := 65535
  parseRdata := parse
  parseUri text := some (.other text)
  uriCmp a b := decide (a = b)
  digestMatches cred _ digest := decide (digest.response = digestOf cred.data digest)
  authSrvVerify lookup realm msg :=
    match msg.authorizations.find? (fun h => stricmp h.digest.realm realm) with
    | none => (.other 171201, 401)
    | some auth =>
      match lookup auth.digest.username realm with
      | .error _ => (.eauthaccnotfound, 403)
      | .ok cred =>
        if auth.digest.response = digestOf cred.data auth.digest then (.success, 200)
        else (.eauthinvaliddigest, 403)
  algorithmSupported _ := true

theorem server_authSrvSound (parse : Bytes → Option SipMsg) : (Pjsip.server parse).AuthSrvSound := by
  constructor
  · intro lookup realm msg
    simp only [Pjsip.server]
    rcases msg.authorizations.find? _ with _ | auth
    · simp
    · simp only
      rcases lookup auth.digest.username realm with status | cred
      · simp
      · by_cases hdigest : auth.digest.response = digestOf cred.data auth.digest
        · simp [hdigest]
        · simp [hdigest]
  · intro lookup realm msg hok
    simp only [Pjsip.server] at hok
    rcases hfind : msg.authorizations.find? (fun h => stricmp h.digest.realm realm) with _ | auth
    · simp [hfind] at hok
    · simp only [hfind] at hok
      rcases hlookup : lookup auth.digest.username realm with status | cred
      · simp [hlookup] at hok
      · simp only [hlookup] at hok
        split_ifs at hok with hdigest
        · exact ⟨auth, cred, hfind, hlookup, decide_eq_true hdigest⟩

theorem server_digestIgnoresCnonce (parse : Bytes → Option SipMsg) :
    (Pjsip.server parse).DigestIgnoresCnonce := by
  intro cred msg digest cnonce nc hqop
  simp [Pjsip.server, digestOf, hqop]

/-! ## Inputs in which nothing fails -/

/-- A REGISTER of the device `[7]` for the address `[1]`. -/
def registerMsg (authorizations : List AuthorizationHdr) (callId : Bytes) (cseq : Int)
    (expires : ℕ) : SipMsg where
  method := .register
  requestUri := some (.other [1])
  fromUri := some (.sip ⟨[7], [], 0, []⟩)
  authorizations := authorizations
  callId := some callId
  cseq := some cseq
  contactExpires := none
  expires := some expires

/-- A Digest header of the device `[7]` whose secret is `[5]`, in the realm `[2]`. -/
def digestHdr (nonce cnonce qop nc : Bytes) : AuthorizationHdr :=
  let digest : DigestCredential := ⟨[7], [2], nonce, [1], [], [], cnonce, qop, nc⟩
  ⟨ascii "Digest", { digest with response := digestOf [5] digest }⟩

/-- Some packets and the REGISTERs they parse to: one without a header, two with `qop` and a growing
nonce count, two that differ in their `cnonce` and have no `qop`, and two with a NUL in their Call-ID
and a falling CSeq. -/
def samplePackets : List (Bytes × SipMsg) := [([1], registerMsg [] [3] 1 60),
  ([2], registerMsg [digestHdr [9] [6] (ascii "auth") (ascii "00000001")] [3] 2 60),
  ([3], registerMsg [digestHdr [9] [6] (ascii "auth") (ascii "00000002")] [3] 3 60),
  ([4], registerMsg [digestHdr [9] [6] [] []] [3] 2 60),
  ([5], registerMsg [digestHdr [9] [8] [] []] [3] 3 60),
  ([6], registerMsg [] [0] 5 60),
  ([7], registerMsg [] [0] 4 60)]

/-- PJSIP with a parser for these packets. -/
def samplePjsip : Pjsip := Pjsip.server fun packet => samplePackets.lookup packet

/-- The settings of a runtime for the realm `[2]`. -/
def sampleConfig : Config where
  advertisedAddress := []
  authRealm := [2]
  requestedPort := 5060
  maxPendingAuth := 4
  authLookupTimeoutMs := 1000

/-- Every response is sent; a challenge carries the nonce `value`. -/
def SendEnv.ok (value : Bytes) (now : ℕ) : SendEnv :=
  ⟨.success, true, value, now, .success, .success, .success⟩

/-- A packet arrives. -/
def Input.arrival (value : Bytes) (now : ℕ) (packet : Bytes) : Input :=
  .packet ⟨now, ⟨true, true, .success, .success, .success, now⟩, .ok value now⟩
    ⟨.udp, 1, [], 5060⟩ packet

/-- A lookup for the device `[7]` is completed with its secret `[5]`. -/
def Input.lookup (lookupId : ℕ) (result : AuthResult) : Input :=
  .completeAuthLookup true
    ⟨completionSize, abiVersion, lookupId, some result, 0, 0, .bytes [7], .bytes [2], .bytes [5]⟩

/-- The completions are processed. -/
def Input.poll (value : Bytes) (now : ℕ) : Input :=
  .authCommands fun _ => ⟨now, true, true, .ok value now⟩

/-- A REGISTER arrives and its lookup is completed. -/
def Input.round (value : Bytes) (now : ℕ) (packet : Bytes) (lookupId : ℕ) (result : AuthResult) :
    List Input :=
  [.arrival value now packet, .lookup lookupId result, .poll value now]

/-- A REGISTER without a header is challenged with the nonce `[9]`; then two more REGISTERs come, each
with the credential of the device. -/
def sampleInputs (first second : Bytes) : List Input :=
  .start .success :: Input.round [9] 10 [1] 1 .credential ++
    Input.round [] 20 first 2 .credential ++ Input.round [] 30 second 3 .credential

end GmvPjsip.Auth
