import GmvPjsip.Basic

/-!
# REGISTER requests and what PJSIP does with them

The part of a parsed request that REGISTER authentication reads, PJSIP's functions as a record of
parameters, and the checks the shim makes on a single message.

* `SipMsg` is a parsed message, `RxData` a message with the packet and the place it came from.
* `Pjsip` collects the PJSIP functions the shim calls. `Pjsip.AuthSrvSound` is what is assumed of
  `pjsip_auth_srv_verify`: it reports 200 exactly when it succeeds, and it succeeds only on a digest
  that matches the credential the lookup callback returned for it. `Pjsip.DigestIgnoresCnonce` is
  what is assumed of a digest without `qop`.
* `authorizationUriMatches`, `authorizationShapeValid`, `parseNonceCount`, `registerDeviceId` and
  `registerExpires` are the shim's own functions of one message.
-/

namespace GmvPjsip.Auth

/-- The bytes of an ASCII string literal. -/
def ascii (s : String) : Bytes := s.toList.map fun c => c.toNat.toUInt8

/-! ## Machine integers -/

/-- The value of an unsigned sum in a `uint64_t`. -/
def u64 (n : ℕ) : ℕ := n % 2 ^ 64

/-- The conversion of a `uint32_t` to an `int32_t`. -/
def toInt32 (n : ℕ) : Int :=
  if n % 2 ^ 32 < 2 ^ 31 then ((n % 2 ^ 32 : ℕ) : Int) else ((n % 2 ^ 32 : ℕ) : Int) - 2 ^ 32

theorem u64_le (n : ℕ) : u64 n ≤ n := Nat.mod_le n _

theorem u64_of_lt {n : ℕ} (h : n < 2 ^ 64) : u64 n = n := Nat.mod_eq_of_lt h

theorem u64_u64_succ (n : ℕ) : u64 (u64 n + 1) = u64 (n + 1) := Nat.mod_add_mod n _ 1

/-! ## Parsed messages -/

/-- A `pjsip_sip_uri`. What the shim does not read of it is `rest`; port 0 is an absent port. -/
structure SipUri where
  user : Bytes
  host : Bytes
  port : ℕ
  rest : Bytes
  deriving DecidableEq, Repr

/-- A `pjsip_uri`: a SIP URI, a name-addr around a URI, or a URI of another scheme. -/
inductive Uri
  | sip (uri : SipUri)
  | nameAddr (display : Bytes) (uri : Uri)
  | other (text : Bytes)
  deriving DecidableEq, Repr

/-- `pjsip_uri_get_uri`: the URI without a name-addr around it. -/
def Uri.getUri : Uri → Uri
  | .nameAddr _ uri => uri.getUri
  | uri => uri

/-- A `pjsip_digest_credential`. An absent parameter is empty. -/
structure DigestCredential where
  username : Bytes
  realm : Bytes
  nonce : Bytes
  uri : Bytes
  response : Bytes
  algorithm : Bytes
  cnonce : Bytes
  qop : Bytes
  nc : Bytes
  deriving DecidableEq, Repr

/-- A `pjsip_authorization_hdr`. -/
structure AuthorizationHdr where
  scheme : Bytes
  digest : DigestCredential
  deriving DecidableEq, Repr

/-- `pjsip_method_e`, with the name of a method PJSIP does not know. -/
inductive SipMethod
  | invite
  | cancel
  | ack
  | bye
  | register
  | options
  | other (name : Bytes)
  deriving DecidableEq, Repr

/-- The part of a `pjsip_msg` that REGISTER handling reads. `contactExpires` is the `expires` field
of the first Contact header and `expires` the value of the first Expires header. -/
structure SipMsg where
  method : SipMethod
  requestUri : Option Uri
  fromUri : Option Uri
  authorizations : List AuthorizationHdr
  callId : Option Bytes
  cseq : Option Int
  contactExpires : Option ℕ
  expires : Option ℕ
  deriving DecidableEq, Repr

/-- The transport and the source address of a received packet. -/
structure Origin where
  transport : SipTransport
  associationId : ℕ
  sourceName : Bytes
  sourcePort : ℕ
  deriving DecidableEq, Repr

/-- A `pjsip_rx_data` with its parsed message. -/
structure RxData where
  origin : Origin
  packet : Bytes
  msg : SipMsg
  deriving DecidableEq, Repr

/-! ## PJSIP -/

/-- A `pjsip_cred_info`. -/
structure CredInfo where
  realm : Bytes
  scheme : Bytes
  username : Bytes
  dataType : Int
  data : Bytes
  algorithmType : Int
  deriving DecidableEq, Repr

/-- The lookup callback of an authentication server: account name and realm to a credential. -/
abbrev AuthLookup := Bytes → Bytes → Except PjStatus CredInfo

/-- The PJSIP functions that REGISTER handling calls and whose results depend on their arguments
only. `parseRdata` is `none` where PJSIP reports a parse error. -/
structure Pjsip where
  /-- `PJSIP_MAX_PKT_LEN`. -/
  maxPktLen : ℕ
  /-- `pjsip_parse_rdata`. -/
  parseRdata : Bytes → Option SipMsg
  /-- `pjsip_parse_uri`. -/
  parseUri : Bytes → Option Uri
  /-- `pjsip_uri_cmp(PJSIP_URI_IN_REQ_URI, ..) == PJ_SUCCESS`. -/
  uriCmp : Uri → Uri → Bool
  /-- `pjsip_auth_verify(..) == PJ_SUCCESS`: the digest of the header is the one of the
  credential. -/
  digestMatches : CredInfo → SipMsg → DigestCredential → Bool
  /-- `pjsip_auth_srv_verify` for a lookup callback and a realm: the status and the code. -/
  authSrvVerify : AuthLookup → Bytes → SipMsg → PjStatus × ℕ
  /-- `pjsip_auth_is_algorithm_supported`. -/
  algorithmSupported : Int → Bool

/-- What is assumed of `pjsip_auth_srv_verify`. It looks at the first Authorization header for the
server's realm, in any letter case. -/
structure Pjsip.AuthSrvSound (pj : Pjsip) : Prop where
  /-- The code is 200 exactly when the call succeeds. -/
  code_eq_ok : ∀ lookup realm msg, (pj.authSrvVerify lookup realm msg).2 = 200 ↔
    (pj.authSrvVerify lookup realm msg).1 = .success
  /-- A success rests on a credential from the lookup callback whose digest matches. -/
  credential : ∀ lookup realm msg, (pj.authSrvVerify lookup realm msg).1 = .success → ∃ auth cred,
      msg.authorizations.find? (fun h => stricmp h.digest.realm realm) = some auth ∧
        lookup auth.digest.username realm = .ok cred ∧
        pj.digestMatches cred msg auth.digest = true

/-- What is assumed of digests without `qop`: they do not cover `cnonce` and the nonce count. -/
def Pjsip.DigestIgnoresCnonce (pj : Pjsip) : Prop :=
  ∀ cred msg (digest : DigestCredential) cnonce nc, digest.qop = [] →
    pj.digestMatches cred msg { digest with cnonce := cnonce, nc := nc } =
      pj.digestMatches cred msg digest

/-! ## The shim's functions of one message -/

/-- The first Authorization header.
Source: `shim_auth.inc`, `gmv_auth_header` -/
def authHeader (msg : SipMsg) : Option AuthorizationHdr := msg.authorizations.head?

/-- The user of a SIP URI, empty for anything else. -/
def sipUriUser : Option Uri → Bytes
  | none => []
  | some uri => match uri.getUri with
    | .sip sip => sip.user
    | _ => []

/-- The digest username, or the From user where there is no Digest header.
Source: `shim_auth.inc`, `gmv_register_device_id` -/
def registerDeviceId (msg : SipMsg) : Bytes :=
  match authHeader msg with
  | some auth =>
    if stricmp auth.scheme (ascii "Digest") then auth.digest.username
    else sipUriUser msg.fromUri
  | none => sipUriUser msg.fromUri

/-- The value of a hexadecimal digit. -/
def hexDigit (ch : UInt8) : Option ℕ :=
  if 48 ≤ ch ∧ ch ≤ 57 then some (ch.toNat - 48)
  else if 97 ≤ ch ∧ ch ≤ 102 then some (ch.toNat - 97 + 10)
  else if 65 ≤ ch ∧ ch ≤ 70 then some (ch.toNat - 65 + 10)
  else none

/-- The digit loop. Eight digits fit a `uint32_t`, so the shifts lose nothing. -/
def parseNonceDigits : ℕ → Bytes → Option ℕ
  | parsed, [] => some parsed
  | parsed, ch :: rest => do
      let digit ← hexDigit ch
      parseNonceDigits (parsed * 16 + digit) rest

/-- Read a nonce count: exactly eight hexadecimal digits, not all zero.
Source: `shim_auth.inc`, `gmv_parse_nonce_count` -/
def parseNonceCount (value : Bytes) : Option ℕ :=
  if value.length ≠ 8 then none
  else (parseNonceDigits 0 value).filter (0 < ·)

/-- The settings of a runtime that REGISTER handling reads. -/
structure Config where
  advertisedAddress : Bytes
  authRealm : Bytes
  requestedPort : ℕ
  maxPendingAuth : ℕ
  authLookupTimeoutMs : ℕ
  deriving DecidableEq, Repr

/-- The port of a SIP URI, 5060 where it has none. -/
def SipUri.effectivePort (uri : SipUri) : ℕ := if uri.port = 0 then 5060 else uri.port

/-- The digest URI equals the request URI, or does so once its host, the advertised address, is
replaced by the host of the request URI.
Source: `shim_auth.inc`, `gmv_authorization_uri_matches` -/
def authorizationUriMatches (pj : Pjsip) (config : Config) (msg : SipMsg)
    (auth : AuthorizationHdr) : Bool :=
  if auth.digest.uri.length = 0 then false
  else match pj.parseUri auth.digest.uri, msg.requestUri with
    | some authorizationUri, some requestUri =>
      if pj.uriCmp authorizationUri requestUri then true
      else match authorizationUri.getUri, requestUri.getUri with
        | .sip authorizationSip, .sip requestSip =>
          if !stricmp authorizationSip.host config.advertisedAddress ||
              authorizationSip.effectivePort ≠ requestSip.effectivePort ||
              authorizationSip.effectivePort ≠ config.requestedPort then false
          else pj.uriCmp (.sip { authorizationSip with host := requestSip.host })
            (.sip requestSip)
        | _, _ => false
    | _, _ => false

/-- The digest URI matches, and a `qop` is `auth` with a `cnonce` and a nonce count.
Source: `shim_auth.inc`, `gmv_authorization_shape_valid` -/
def authorizationShapeValid (pj : Pjsip) (config : Config) (msg : SipMsg)
    (auth : AuthorizationHdr) : Bool :=
  if !authorizationUriMatches pj config msg auth then false
  else if auth.digest.qop.length = 0 then true
  else stricmp auth.digest.qop (ascii "auth") && decide (0 < auth.digest.cnonce.length) &&
    (parseNonceCount auth.digest.nc).isSome

/-- The expiry of the first Contact header, else of the Expires header, else -1.
Source: `shim.c`, `gmv_message_expires` -/
def messageExpires (msg : SipMsg) : Int :=
  match msg.contactExpires.filter (· ≠ 2 ^ 32 - 1), msg.expires with
  | some expires, _ => toInt32 expires
  | none, some expires => toInt32 expires
  | none, none => -1

/-- The expiry of a REGISTER, 3600 where none is given.
Source: `shim.c`, `gmv_register_expires` -/
def registerExpires (msg : SipMsg) : Int :=
  if 0 ≤ messageExpires msg then messageExpires msg else 3600

end GmvPjsip.Auth
