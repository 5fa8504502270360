import GmvPjsip.Calls.Requests
import GmvPjsip.Io.Command
import GmvPjsip.Lib.RustStr

/-!
# Dialog snapshots

An event about a dialog carries a snapshot of it. The application stores the snapshot, and after a
restart sends a request inside the dialog from it. The snapshot is written by the shim, read by the
Rust side, checked by the Rust side when it comes back, and copied by the shim once more:

* `emitEvent` prints a dialog into an event, the route set joined by line feeds into one buffer.
* `copyDialogSnapshot` reads the snapshot off the event.
* `sendRestoredDialogRequest` checks a request and hands it to the shim, whose half is
  `Commands.sendRestoredDialogRequest`.
-/

namespace GmvPjsip.Snapshots

open GmvPjsip.Auth (Pjsip abiVersion callIdCapacity)
open GmvPjsip.Commands
open GmvPjsip.Io (SipTransportProtocol SocketAddr transportId)
open GmvPjsip.Lib

/-! ## Dialogs of PJSIP -/

/-- The places a URI is printed for. -/
inductive UriContext
  | reqUri
  | fromToHdr
  | routingHdr
  deriving DecidableEq, Repr

/-- `pjsip_uri_print`. The text of a URI depends on the place it is printed for. PJSIP gives up in
a buffer that is too small; how much room beyond the text it asks for is left open. -/
structure UriPrinter (Uri : Type) where
  text : UriContext → Uri → Bytes
  fits : UriContext → Uri → ℕ → Bool
  length_le : ∀ context uri size, fits context uri size → (text context uri).length ≤ size

/-- One end of a dialog: a `pjsip_fromto_hdr`. -/
structure DialogParty (Uri : Type) where
  uri : Uri
  tag : Bytes
  deriving DecidableEq, Repr

/-- A `pjsip_dialog`. The pointers the shim checks may be null. -/
structure Dialog (Uri : Type) where
  callId : Option Bytes
  localInfo : Option (DialogParty Uri)
  remoteInfo : Option (DialogParty Uri)
  target : Option Uri
  localCseq : ℤ
  routeSet : List Uri
  deriving DecidableEq, Repr

/-- The transport of a received message. A stream always has an association. -/
structure RxTransport where
  kind : SipTransport
  associationId : ℕ
  localAddress : Option Bytes
  associated : kind = .tcp → associationId ≠ 0

/-- A `pjsip_rx_data`, with its addresses as `pj_sockaddr_print` writes them. -/
structure RxMessage where
  transport : Option RxTransport
  callId : Option Bytes
  remoteAddress : Option Bytes

/-! ## The event -/

/-- The parts of a `gmv_sip_event_t` a snapshot is made of. -/
structure SipEvent where
  transport : SipTransport := .unknown
  associationId : ℕ := 0
  callId : StringView := .null 0
  localAddress : StringView := .null 0
  remoteAddress : StringView := .null 0
  dialogLocalCseq : ℕ := 0
  dialogLocalUri : StringView := .null 0
  dialogRemoteUri : StringView := .null 0
  dialogLocalTag : StringView := .null 0
  dialogRemoteTag : StringView := .null 0
  dialogRemoteTarget : StringView := .null 0
  dialogRouteSet : StringView := .null 0
  deriving DecidableEq, Repr

/-- `GMV_SIP_ROUTE_SET_CAPACITY`. -/
def routeSetCapacity : ℕ := 4096

/-- Source: `shim.c`, `gmv_bytes_view` -/
def bytesView (data : Bytes) : StringView := if data = [] then .null 0 else .bytes data

/-- Source: `shim.c`, `gmv_string_view` -/
def stringView : Option Bytes → StringView
  | none => .null 0
  | some text => .bytes text

section printing

variable {Uri : Type} (printer : UriPrinter Uri)

/-- What is printed into a buffer of `size` bytes, `none` where `pjsip_uri_print` fails. -/
def UriPrinter.print (context : UriContext) (uri : Uri) (size : ℕ) : Option Bytes :=
  if printer.fits context uri size then some (printer.text context uri) else none

/-- The buffer the next route is printed behind: a line feed parts it from the one before. -/
def routeStart (buffer : Bytes) : Bytes := if buffer = [] then buffer else buffer ++ [10]

/-- The loop over the route set, with the bytes in the buffer. A route that does not fit empties
the buffer and ends the loop.
Source: `shim.c`, `gmv_emit_event_ex` -/
def exportRoutes : Bytes → List Uri → Bytes
  | buffer, [] => buffer
  | buffer, route :: rest =>
    match printer.print .routingHdr route (routeSetCapacity - (routeStart buffer).length) with
    | none => []
    | some text =>
      if text = [] ∨ routeSetCapacity ≤ (routeStart buffer).length + text.length then []
      else exportRoutes (routeStart buffer ++ text) rest

/-- The dialog's part of an event. The three URIs have to be printed; the tags are handed out as
they are.
Source: `shim.c`, `gmv_emit_event_ex` -/
def exportDialog (dialog : Dialog Uri) (event : SipEvent) : SipEvent :=
  match dialog.callId, dialog.localInfo, dialog.remoteInfo, dialog.target with
  | some _, some localInfo, some remoteInfo, some target =>
    if 0 < dialog.localCseq ∧ localInfo.tag ≠ [] ∧ remoteInfo.tag ≠ [] then
      match printer.print .fromToHdr localInfo.uri uriCapacity,
        printer.print .fromToHdr remoteInfo.uri uriCapacity,
        printer.print .reqUri target uriCapacity with
      | some localUri, some remoteUri, some remoteTarget =>
        if localUri ≠ [] ∧ remoteUri ≠ [] ∧ remoteTarget ≠ [] then
          { event with
            dialogLocalCseq := (dialog.localCseq - 1).toNat
            dialogLocalUri := bytesView localUri
            dialogRemoteUri := bytesView remoteUri
            dialogLocalTag := stringView (some localInfo.tag)
            dialogRemoteTag := stringView (some remoteInfo.tag)
            dialogRemoteTarget := bytesView remoteTarget
            dialogRouteSet := bytesView (exportRoutes printer [] dialog.routeSet) }
        else event
      | _, _, _ => event
    else event
  | _, _, _, _ => event

/-- The message's part of an event. The Call-ID comes from here, not from the dialog.
Source: `shim.c`, `gmv_emit_event_ex` -/
def exportRx (rx : RxMessage) (event : SipEvent) : SipEvent :=
  { event with
    associationId := (rx.transport.map fun t => t.associationId).getD 0
    callId := stringView rx.callId
    localAddress := bytesView ((rx.transport.bind fun t => t.localAddress).getD [])
    remoteAddress := bytesView (rx.remoteAddress.getD []) }

/-- Source: `shim_transport.inc`, `gmv_transport_type` -/
def transportType : Option RxTransport → SipTransport
  | none => .unknown
  | some transport => transport.kind

/-- The event about a dialog. Both functions that hand over a dialog take the transport from the
message.
Source: `shim.c`, `gmv_emit_event_ex`, `gmv_emit_transaction_event`, `gmv_handle_incoming_invite` -/
def emitEvent (rx : Option RxMessage) (dialog : Dialog Uri) : SipEvent :=
  match rx with
  | none => exportDialog printer dialog {}
  | some rx => exportRx rx (exportDialog printer dialog { transport := transportType rx.transport })

end printing

/-! ## The snapshot -/

/-- What the Rust standard library does where the program does not depend on it: the text
`String::from_utf8_lossy` makes of invalid bytes, and `str::parse::<SocketAddr>`. The text of an IP
address has at most 45 bytes. -/
structure StdLib where
  replaced : Bytes → List Char
  parseAddr : List Char → Option SocketAddr
  parseAddr_ip : ∀ text addr, parseAddr text = some addr →
    addr.ip ≠ [] ∧ addr.ip.length ≤ 45 ∧ 0 ∉ addr.ip

/-- Source: `runtime.rs`, `SipDialogSnapshot` -/
structure SipDialogSnapshot where
  callId : List Char
  localUri : List Char
  remoteUri : List Char
  localTag : List Char
  remoteTag : List Char
  localCseq : ℕ
  remoteTarget : List Char
  routeSet : List (List Char)
  protocol : SipTransportProtocol
  associationId : ℕ
  localAddr : SocketAddr
  remoteAddr : SocketAddr
  deriving DecidableEq, Repr

section copying

variable (std : StdLib)

/-- Source: `runtime.rs`, `copy_string_view` -/
def copyStringView : StringView → Option (List Char)
  | .null _ => none
  | .bytes data => if data = [] then none else some (fromUtf8Lossy std.replaced data)

/-- Source: `runtime.rs`, `copy_transport` -/
def copyTransport : SipTransport → Option SipTransportProtocol
  | .udp => some .udp
  | .tcp => some .tcp
  | .unknown => none

/-- Source: `runtime.rs`, `copy_dialog_snapshot` -/
def copyDialogSnapshot (event : SipEvent) : Option SipDialogSnapshot :=
  if event.dialogLocalCseq = 0 then none
  else do
    let callId ← copyStringView std event.callId
    let localUri ← copyStringView std event.dialogLocalUri
    let remoteUri ← copyStringView std event.dialogRemoteUri
    let localTag ← copyStringView std event.dialogLocalTag
    let remoteTag ← copyStringView std event.dialogRemoteTag
    let remoteTarget ← copyStringView std event.dialogRemoteTarget
    let protocol ← copyTransport event.transport
    let localAddr ← (copyStringView std event.localAddress).bind std.parseAddr
    let remoteAddr ← (copyStringView std event.remoteAddress).bind std.parseAddr
    return {
      callId, localUri, remoteUri, localTag, remoteTag, remoteTarget, protocol, localAddr
      remoteAddr
      localCseq := event.dialogLocalCseq
      routeSet := ((copyStringView std event.dialogRouteSet).map lines).getD []
      associationId := event.associationId }

end copying

/-! ## The request -/

/-- Source: `runtime.rs`, `SipDialogMethod` -/
inductive SipDialogMethod
  | bye
  | info
  deriving DecidableEq, Repr

/-- Source: `runtime.rs`, `SipRestoredDialogRequest` -/
structure SipRestoredDialogRequest where
  operationId : ℕ
  method : SipDialogMethod
  snapshot : SipDialogSnapshot
  contentType : Option (List Char)
  body : Bytes
  deriving DecidableEq, Repr

/-- The errors of the Rust side: `invalid_config`, and `pjsip_error` with what the shim said. -/
inductive SendError
  | invalidConfig (message : String)
  | pjsip (operation : String) (refusal : Refusal)
  deriving DecidableEq, Repr

/-- Whether the runtime was stopped, and whether the shim's was started. -/
structure SipRuntime where
  stopped : Bool
  started : Bool
  deriving DecidableEq, Repr

/-- A NUL, a carriage return or a line feed. -/
def isSeparator (b : UInt8) : Bool := b = 0 ∨ b = 13 ∨ b = 10

/-- A text with one of these bytes. -/
def hasSeparator (text : List Char) : Bool := (utf8 text).any isSeparator

/-- The texts of a snapshot that are checked together. -/
def SipDialogSnapshot.strings (s : SipDialogSnapshot) : List (List Char) :=
  [s.callId, s.localUri, s.remoteUri, s.localTag, s.remoteTag, s.remoteTarget]

/-- `DIALOG_BYE` and `DIALOG_INFO`. -/
def dialogMethod : SipDialogMethod → DialogMethod
  | .bye => .bye
  | .info => .info

/-- The request as the shim gets it.
Source: `runtime.rs`, `SipRuntime::send_restored_dialog_request` -/
def ffiRequest (request : SipRestoredDialogRequest) : RestoredDialogRequest where
  size := 208
  version := abiVersion
  operationId := request.operationId
  method := dialogMethod request.method
  associationId := request.snapshot.associationId
  transport := transportId request.snapshot.protocol
  localCseq := request.snapshot.localCseq
  callId := .bytes (utf8 request.snapshot.callId)
  localUri := .bytes (utf8 request.snapshot.localUri)
  remoteUri := .bytes (utf8 request.snapshot.remoteUri)
  localTag := .bytes (utf8 request.snapshot.localTag)
  remoteTag := .bytes (utf8 request.snapshot.remoteTag)
  remoteTarget := .bytes (utf8 request.snapshot.remoteTarget)
  routeSet := .bytes (utf8 (['\n'].intercalate request.snapshot.routeSet))
  remoteAddress := .bytes request.snapshot.remoteAddr.ip
  remotePort := request.snapshot.remoteAddr.port
  contentType := stringView (request.contentType.map utf8)
  body := .bytes request.body

/-- Source: `runtime.rs`, `SipRuntime::send_restored_dialog_request` -/
def sendRestoredDialogRequest (pj : Pjsip) (alloc : Alloc) (runtime : SipRuntime)
    (request : SipRestoredDialogRequest) : Except SendError DialogCommand :=
  let snapshot := request.snapshot
  if runtime.stopped then
    .error (.invalidConfig "cannot send restored dialog request after runtime stop")
  else if request.operationId = 0 ∨ (∃ text ∈ snapshot.strings, text = []) ∨
      snapshot.localCseq = 0 ∨ int32Max < snapshot.localCseq then
    .error (.invalidConfig "restored dialog identity and reserved local_cseq are required")
  else if snapshot.protocol = .tls then
    .error (.invalidConfig "TLS restored dialogs are not supported")
  else if snapshot.protocol = .tcp ∧ snapshot.associationId = 0 then
    .error (.invalidConfig "TCP restored dialog requires a current association_id")
  else if (∃ text ∈ snapshot.strings, hasSeparator text) ∨
      (∃ text ∈ request.contentType, hasSeparator text) ∨
      (∃ route ∈ snapshot.routeSet, route = [] ∨ hasSeparator route) then
    .error (.invalidConfig
      "restored dialog strings and routes must be non-empty and contain no control separator")
  else if request.method = .info ∧
      (request.body = [] ∨ ¬∃ text ∈ request.contentType, '/' ∈ text) then
    .error (.invalidConfig "INFO requires content_type and body")
  else match Commands.sendRestoredDialogRequest pj alloc runtime.started (ffiRequest request) with
    | .ok command => .ok command
    | .error refusal => .error (.pjsip "send_restored_dialog_request" refusal)

end GmvPjsip.Snapshots
