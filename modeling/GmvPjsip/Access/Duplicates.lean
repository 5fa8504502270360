import GmvPjsip.Access.Request

/-!
# The cache of recent requests

The shim remembers the requests it has seen for some seconds, so that a request that is sent again
is answered but not reported again.

* `requestDedupeKey` is the text a request is remembered by.
* `RecentRequests` is the list with its counter, `recentRequestSeen` the look-up that also stores.
* `recentRequestSeen_empty`: to an empty cache every request is new.
-/

namespace GmvPjsip.Access

open GmvPjsip.Auth

/-- `GMV_SIP_DUPLICATE_REQUEST_TTL_MS`. -/
def duplicateRequestTtlMs : ℕ := 5000

/-- `GMV_SIP_DUPLICATE_REQUEST_MAX`. -/
def duplicateRequestMax : ℕ := 512

/-- `GMV_SIP_DUPLICATE_KEY_CAPACITY`. -/
def duplicateKeyCapacity : ℕ := 768

/-- A `gmv_recent_request_t`. -/
structure RecentRequest where
  key : Bytes
  expiresAtMs : ℕ
  deriving DecidableEq, Repr

/-- `recent_requests` and `recent_request_count`. -/
structure RecentRequests where
  requests : List RecentRequest
  count : ℕ
  deriving DecidableEq, Repr

/-! ## Keys -/

/-- `%d` and `%llu` of a number that is not negative. -/
def decimal (n : ℕ) : Bytes := (Nat.toDigits 10 n).map fun c => c.toNat.toUInt8

/-- `%d`. -/
def signedDecimal : Int → Bytes
  | .ofNat n => decimal n
  | .negSucc n => ascii "-" ++ decimal (n + 1)

/-- `%.*s`: the text up to a NUL. -/
def upToNul (text : Bytes) : Bytes := text.takeWhile (· ≠ 0)

/-- The value of a `gmv_sip_transport_t`. -/
def transportNumber : SipTransport → ℕ
  | .unknown => 0
  | .udp => 1
  | .tcp => 2

/-- The text a request is remembered by, if the request has all its parts and the text fits.
Source: `shim_auth.inc`, `gmv_build_request_dedupe_key` -/
def requestDedupeKey (request : Request) : Option Bytes := do
  let callId ← request.rx.msg.callId
  let cseq ← request.rx.msg.cseq
  let branch ← request.viaBranch
  if callId.length = 0 ∨ request.cseqMethod.length = 0 ∨ branch.length = 0 then none
  else
    let bar := ascii "|"
    let key := decimal (transportNumber request.rx.origin.transport) ++ bar ++
      decimal request.rx.origin.associationId ++ bar ++ upToNul callId ++ bar ++
      signedDecimal cseq ++ bar ++ upToNul request.cseqMethod ++ bar ++ upToNul branch
    if key.length < duplicateKeyCapacity then some key else none

/-! ## The cache -/

/-- Unlink the requests that have expired; the counter goes down with each.
Source: `shim_auth.inc`, `gmv_cleanup_recent_requests` -/
def cleanupRecentRequests (now : ℕ) : List RecentRequest → ℕ → RecentRequests
  | [], count => ⟨[], count⟩
  | request :: rest, count =>
    if now < request.expiresAtMs then
      let cache := cleanupRecentRequests now rest count
      { cache with requests := request :: cache.requests }
    else cleanupRecentRequests now rest (count - 1)

/-- Drop requests from the end of the list while the counter is too large.
Source: `shim_auth.inc`, `gmv_trim_recent_requests` -/
def trimRecentRequests : ℕ → List RecentRequest → RecentRequests
  | 0, requests => ⟨requests, 0⟩
  | count + 1, requests =>
    if duplicateRequestMax < count + 1 ∧ requests ≠ [] then
      trimRecentRequests count requests.dropLast
    else ⟨requests, count + 1⟩

/-- The loop that looks for a key and extends the time of the request that has it. -/
def touchRecentRequest (key : Bytes) (expiresAtMs : ℕ) :
    List RecentRequest → Option (List RecentRequest)
  | [] => none
  | request :: rest =>
    if request.key = key then some ({ request with expiresAtMs := expiresAtMs } :: rest)
    else (touchRecentRequest key expiresAtMs rest).map (request :: ·)

/-- Whether a request was seen before; if not, it is remembered.
Source: `shim_auth.inc`, `gmv_recent_request_seen` -/
def recentRequestSeen (now : ℕ) (callocOk : Bool) (request : Request) (cache : RecentRequests) :
    Bool × RecentRequests :=
  match requestDedupeKey request with
  | none => (false, cache)
  | some key =>
    let cache := cleanupRecentRequests now cache.requests cache.count
    let expiresAtMs := u64 (now + duplicateRequestTtlMs)
    match touchRecentRequest key expiresAtMs cache.requests with
    | some requests => (true, { cache with requests := requests })
    | none =>
      if !callocOk then (false, cache)
      else (false, trimRecentRequests (cache.count + 1) (⟨key, expiresAtMs⟩ :: cache.requests))

/-- A request is new to an empty cache. -/
theorem recentRequestSeen_empty (now : ℕ) (callocOk : Bool) (request : Request) (count : ℕ) :
    (recentRequestSeen now callocOk request ⟨[], count⟩).1 = false := by
  unfold recentRequestSeen
  rcases requestDedupeKey request with _ | key
  · rfl
  · cases callocOk with
    | false => rfl
    | true => rfl

end GmvPjsip.Access
