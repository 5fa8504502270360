import GmvPjsip.Snapshots.Model
import Mathlib.Data.Set.List

/-!
# A dialog survives being stored

Between a dialog of PJSIP and the command that ends it after a restart lie four copies, in two
languages and with limits of their own. A `DialogIdentity` is what has to arrive: the Call-ID, the
URIs, the tags, the target and the routes.

* The first half, `copied_of_copyDialogSnapshot`, goes from the dialog to the snapshot. The loop over
  the route set is described by `exportRoutes_fit` and `exportRoutes_of_not_fit`: the routes are
  exported as a whole or not at all.
* The second half, `Orderly.sent_iff`, goes from the snapshot to the command.
* `restored_bye_carries_dialog` joins the halves: the identity arrives if the dialog is `Restorable`,
  and only then.
* `stored_dialog_not_restored` has two dialogs that are exported and not restorable. One loses its
  route set without a word; of the other the BYE is refused.
-/

namespace GmvPjsip.Snapshots

open GmvPjsip.Auth (Pjsip abiVersion callIdCapacity)
open GmvPjsip.Commands
open GmvPjsip.Io (SipTransportProtocol SocketAddr transportId)
open GmvPjsip.Lib

/-! ## What has to survive -/

/-- What a request inside a dialog takes from it. -/
structure DialogIdentity where
  callId : Bytes
  localUri : Bytes
  remoteUri : Bytes
  localTag : Bytes
  remoteTag : Bytes
  remoteTarget : Bytes
  routes : List Bytes
  deriving DecidableEq, Repr

/-- The identity of a dialog of PJSIP, its URIs as PJSIP prints them. -/
def Dialog.identity {Uri : Type} (printer : UriPrinter Uri) (dialog : Dialog Uri) :
    Option DialogIdentity := do
  let callId ← dialog.callId
  let localInfo ← dialog.localInfo
  let remoteInfo ← dialog.remoteInfo
  let target ← dialog.target
  return {
    callId
    localUri := printer.text .fromToHdr localInfo.uri
    remoteUri := printer.text .fromToHdr remoteInfo.uri
    localTag := localInfo.tag
    remoteTag := remoteInfo.tag
    remoteTarget := printer.text .reqUri target
    routes := dialog.routeSet.map (printer.text .routingHdr) }

/-- The identity a snapshot stores. -/
def SipDialogSnapshot.identity (s : SipDialogSnapshot) : DialogIdentity where
  callId := utf8 s.callId
  localUri := utf8 s.localUri
  remoteUri := utf8 s.remoteUri
  localTag := utf8 s.localTag
  remoteTag := utf8 s.remoteTag
  remoteTarget := utf8 s.remoteTarget
  routes := s.routeSet.map utf8

/-- The identity a queued command carries, with its route set split as the owner thread does. -/
def commandIdentity (command : DialogCommand) : DialogIdentity where
  callId := command.callId
  localUri := command.localUri
  remoteUri := command.remoteUri
  localTag := command.localTag
  remoteTag := command.remoteTag
  remoteTarget := command.remoteTarget
  routes := Calls.routeLines command.routeSet

/-- The identifiers that are single texts. -/
def DialogIdentity.strings (i : DialogIdentity) : List Bytes :=
  [i.callId, i.localUri, i.remoteUri, i.localTag, i.remoteTag, i.remoteTarget]

/-- A text without separators. -/
def Plain (text : Bytes) : Prop := ∀ b ∈ text, isSeparator b = false

instance : DecidablePred Plain := fun text => List.decidableBAll (isSeparator · = false) text

/-- Every text fits the buffer of a command, with its NUL. -/
structure DialogIdentity.Fits (i : DialogIdentity) : Prop where
  callId_lt : i.callId.length < callIdCapacity
  localUri_lt : i.localUri.length < uriCapacity
  remoteUri_lt : i.remoteUri.length < uriCapacity
  localTag_lt : i.localTag.length < tagCapacity
  remoteTag_lt : i.remoteTag.length < tagCapacity
  remoteTarget_lt : i.remoteTarget.length < uriCapacity
  routes_lt : ([10].intercalate i.routes).length < routeSetCapacity

/-- What the Rust side asks of an identity. -/
structure DialogIdentity.Valid (i : DialogIdentity) : Prop where
  strings : ∀ text ∈ i.strings, text ≠ [] ∧ Plain text
  routes : ∀ route ∈ i.routes, route ≠ [] ∧ Plain route

/-! ## Sending -/

/-- A BYE that a running runtime with enough memory is asked to send. Its own fields are in order. -/
structure Prepared (pj : Pjsip) (alloc : Alloc) (runtime : SipRuntime)
    (request : SipRestoredDialogRequest) : Prop where
  running : runtime.stopped = false ∧ runtime.started = true
  memory : alloc.calloc = true ∧ alloc.malloc = true
  operation : request.operationId ≠ 0
  bye : request.method = .bye
  contentType : ∀ text ∈ request.contentType,
    hasSeparator text = false ∧ (utf8 text).length < contentTypeCapacity
  body : request.body.length ≤ pj.maxPktLen

/-- A BYE in whose request all is in order but, possibly, the identity of its dialog. -/
structure Orderly (pj : Pjsip) (alloc : Alloc) (runtime : SipRuntime)
    (request : SipRestoredDialogRequest) : Prop extends Prepared pj alloc runtime request where
  cseq : request.snapshot.localCseq ≠ 0 ∧ request.snapshot.localCseq ≤ int32Max
  protocol : request.snapshot.protocol ≠ .tls
  associated : request.snapshot.protocol = .tcp → request.snapshot.associationId ≠ 0
  port : request.snapshot.remoteAddr.port ≠ 0
  address : request.snapshot.remoteAddr.ip ≠ [] ∧
    request.snapshot.remoteAddr.ip.length < bindAddressCapacity ∧
    0 ∉ request.snapshot.remoteAddr.ip

/-- The command a request is queued as. -/
def queued (request : SipRestoredDialogRequest) : DialogCommand where
  operationId := request.operationId
  method := dialogMethod request.method
  callId := utf8 request.snapshot.callId
  contentType := utf8 (request.contentType.getD [])
  body := request.body
  restored := true
  associationId := request.snapshot.associationId
  transport := transportId request.snapshot.protocol
  localCseq := request.snapshot.localCseq
  remotePort := request.snapshot.remoteAddr.port
  localUri := utf8 request.snapshot.localUri
  remoteUri := utf8 request.snapshot.remoteUri
  localTag := utf8 request.snapshot.localTag
  remoteTag := utf8 request.snapshot.remoteTag
  remoteTarget := utf8 request.snapshot.remoteTarget
  routeSet := utf8 (['\n'].intercalate request.snapshot.routeSet)
  remoteAddress := request.snapshot.remoteAddr.ip

theorem hasSeparator_eq_false {text : List Char} :
    hasSeparator text = false ↔ Plain (utf8 text) := by
  simp [hasSeparator, Plain]

variable {text : Bytes} {s : SipDialogSnapshot} {i : DialogIdentity} {std : StdLib}
    {rx : Option RxMessage}

/-- The checks of the Rust side, on the texts of the snapshot. -/
theorem identity_valid :
    s.identity.Valid ↔ (∀ text ∈ s.strings, text ≠ [] ∧ hasSeparator text = false) ∧
      ∀ route ∈ s.routeSet, route ≠ [] ∧ hasSeparator route = false := by
  have hstrings : s.identity.strings = s.strings.map utf8 := rfl
  have hroutes : s.identity.routes = s.routeSet.map utf8 := rfl
  constructor
  · rintro ⟨hs, hr⟩
    rw [hstrings, List.forall_mem_map] at hs
    rw [hroutes, List.forall_mem_map] at hr
    exact ⟨fun text ht => (hs text ht).imp (mt utf8_eq_nil.mpr) hasSeparator_eq_false.mpr,
      fun route ht => (hr route ht).imp (mt utf8_eq_nil.mpr) hasSeparator_eq_false.mpr⟩
  · rintro ⟨hs, hr⟩
    refine ⟨?_, ?_⟩
    · rw [hstrings, List.forall_mem_map]
      exact fun text ht => (hs text ht).imp (mt utf8_eq_nil.mp) hasSeparator_eq_false.mp
    · rw [hroutes, List.forall_mem_map]
      exact fun route ht => (hr route ht).imp (mt utf8_eq_nil.mp) hasSeparator_eq_false.mp

theorem Plain.nul_notMem (h : Plain text) : 0 ∉ text := by
  intro hmem
  exact absurd (h 0 hmem) (by decide)

section sending

variable {pj : Pjsip} {alloc : Alloc} {runtime : SipRuntime} {request : SipRestoredDialogRequest}

theorem Orderly.copy_contentType (h : Orderly pj alloc runtime request) (text : Bytes) :
    copyText contentTypeCapacity (stringView (request.contentType.map utf8)) = .ok text ↔
      text = utf8 (request.contentType.getD []) := by
  cases hc : request.contentType with
  | none => simp [stringView, copyText, copyView, contentTypeCapacity, eq_comm]
  | some content =>
    obtain ⟨hplain, hlt⟩ := h.contentType content hc
    have hnul := (hasSeparator_eq_false.mp hplain).nul_notMem
    rw [Option.map_some, stringView, copyText_bytes_eq_ok]
    simp [hlt, hnul]

theorem Orderly.copy_body (h : Orderly pj alloc runtime request) (body : Bytes) :
    copyBody alloc.malloc (.bytes request.body) = .ok body ↔ body = request.body := by
  rw [h.memory.2]
  by_cases hempty : request.body = []
  · simp [copyBody, hempty, StringView.len, eq_comm]
  · simp [copyBody, hempty, StringView.len, eq_comm]

theorem isSet_bytes (h : text ≠ []) : Auth.StringView.isSet (.bytes text) = true :=
  decide_eq_true (List.length_pos_iff.mpr h)

theorem Orderly.hasRoute (h : Orderly pj alloc runtime request) :
    hasRoute (transportId request.snapshot.protocol) request.snapshot.associationId = true := by
  cases hp : request.snapshot.protocol with
  | udp => rfl
  | tcp => exact decide_eq_true (h.associated hp)
  | tls => exact absurd hp h.protocol

theorem Orderly.bodyOk (h : Orderly pj alloc runtime request) (contentType : StringView) :
    dialogBodyOk pj (dialogMethod request.method) contentType (.bytes request.body) = true := by
  have hbody := h.body
  simp [dialogBodyOk, h.bye, dialogMethod, StringView.len, hbody]

/-- The shim takes an orderly request if every text fits its buffer. -/
theorem Orderly.shim_eq_ok (h : Orderly pj alloc runtime request)
    (hvalid : request.snapshot.identity.Valid) (command : DialogCommand) :
    Commands.sendRestoredDialogRequest pj alloc runtime.started (ffiRequest request) = .ok command ↔
      request.snapshot.identity.Fits ∧ command = queued request := by
  have hset : ∀ text ∈ request.snapshot.identity.strings,
      Auth.StringView.isSet (.bytes text) = true := fun text ht => isSet_bytes (hvalid.strings text ht).1
  have hnul : ∀ text ∈ request.snapshot.identity.strings, 0 ∉ text :=
    fun text ht => (hvalid.strings text ht).2.nul_notMem
  simp only [DialogIdentity.strings, SipDialogSnapshot.identity, List.forall_mem_cons] at hset hnul
  obtain ⟨hs₁, hs₂, hs₃, hs₄, hs₅, hs₆, -⟩ := hset
  obtain ⟨hn₁, hn₂, hn₃, hn₄, hn₅, hn₆, -⟩ := hnul
  have hn₇ : 0 ∉ utf8 (['\n'].intercalate request.snapshot.routeSet) := by
    rw [utf8_intercalate]
    exact notMem_intercalate (by decide) fun route hr => (hvalid.routes route hr).2.nul_notMem
  obtain ⟨hip, hiplen, hipnul⟩ := h.address
  simp only [Commands.sendRestoredDialogRequest, ffiRequest, bind_eq_ok, require_eq_ok, pure_eq_ok,
    copyText_bytes_eq_ok, h.copy_contentType, h.copy_body]
  constructor
  · rintro ⟨-, -, -, -, _, ⟨⟨h₁, -⟩, rfl⟩, _, ⟨⟨h₂, -⟩, rfl⟩, _, ⟨⟨h₃, -⟩, rfl⟩, _, ⟨⟨h₄, -⟩, rfl⟩,
      _, ⟨⟨h₅, -⟩, rfl⟩, _, ⟨⟨h₆, -⟩, rfl⟩, _, ⟨⟨h₇, -⟩, rfl⟩, _, ⟨-, rfl⟩, _, rfl, _, rfl, rfl⟩
    rw [utf8_intercalate] at h₇
    exact ⟨⟨h₁, h₂, h₃, h₄, h₅, h₆, h₇⟩, rfl⟩
  · rintro ⟨⟨h₁, h₂, h₃, h₄, h₅, h₆, h₇⟩, rfl⟩
    refine ⟨(), decide_eq_true ⟨le_refl _, trivial, h.operation, h.cseq.1, hs₁, hs₂, hs₃, hs₄, hs₅,
      hs₆, isSet_bytes hip, h.port, h.hasRoute, h.bodyOk _, h.running.2⟩, (), h.memory.1,
      _, ⟨⟨h₁, hn₁⟩, rfl⟩, _, ⟨⟨h₂, hn₂⟩, rfl⟩, _, ⟨⟨h₃, hn₃⟩, rfl⟩, _, ⟨⟨h₄, hn₄⟩, rfl⟩,
      _, ⟨⟨h₅, hn₅⟩, rfl⟩, _, ⟨⟨h₆, hn₆⟩, rfl⟩, _, ⟨⟨?_, hn₇⟩, rfl⟩, _, ⟨⟨hiplen, hipnul⟩, rfl⟩,
      _, rfl, _, rfl, rfl⟩
    rw [utf8_intercalate]
    exact h₇

/-- What is sent has passed the checks of the Rust side, and the shim has taken it. -/
theorem valid_of_send {command : DialogCommand}
    (hsend : sendRestoredDialogRequest pj alloc runtime request = .ok command) :
    request.snapshot.identity.Valid ∧
      Commands.sendRestoredDialogRequest pj alloc runtime.started (ffiRequest request) =
        .ok command := by
  simp only [sendRestoredDialogRequest] at hsend
  split_ifs at hsend with hstop hid htls htcp hsep hinfo
  simp only [not_or, not_exists, not_and, Bool.not_eq_true] at hid hsep
  obtain ⟨-, hempty, -, -⟩ := hid
  obtain ⟨hplain, -, hroutes⟩ := hsep
  refine ⟨identity_valid.mpr ⟨fun text ht => ⟨hempty text ht, hplain text ht⟩, hroutes⟩, ?_⟩
  split at hsend
  · next hshim =>
      rw [hshim, Except.ok.inj hsend]
  · cases hsend

/-- An orderly request whose identity is valid passes the checks of the Rust side. -/
theorem Orderly.send_of_valid (h : Orderly pj alloc runtime request)
    (hvalid : request.snapshot.identity.Valid) (hfits : request.snapshot.identity.Fits) :
    sendRestoredDialogRequest pj alloc runtime request = .ok (queued request) := by
  obtain ⟨hstrings, hroutes⟩ := identity_valid.mp hvalid
  have hstop : ¬runtime.stopped = true := by rw [h.running.1]; exact Bool.false_ne_true
  have hid : ¬(request.operationId = 0 ∨ (∃ text ∈ request.snapshot.strings, text = []) ∨
      request.snapshot.localCseq = 0 ∨ int32Max < request.snapshot.localCseq) := by
    rintro (hop | ⟨text, ht, hempty⟩ | hzero | hlarge)
    · exact h.operation hop
    · exact (hstrings text ht).1 hempty
    · exact h.cseq.1 hzero
    · exact absurd h.cseq.2 (not_le.mpr hlarge)
  have htcp : ¬(request.snapshot.protocol = .tcp ∧ request.snapshot.associationId = 0) :=
    fun htcp => h.associated htcp.1 htcp.2
  have hsep : ¬((∃ text ∈ request.snapshot.strings, hasSeparator text = true) ∨
      (∃ text ∈ request.contentType, hasSeparator text = true) ∨
      (∃ route ∈ request.snapshot.routeSet, route = [] ∨ hasSeparator route = true)) := by
    rintro (⟨text, ht, hsep⟩ | ⟨text, ht, hsep⟩ | ⟨route, hr, hempty | hsep⟩)
    · exact absurd hsep (Bool.eq_false_iff.mp (hstrings text ht).2)
    · exact absurd hsep (Bool.eq_false_iff.mp (h.contentType text ht).1)
    · exact (hroutes route hr).1 hempty
    · exact absurd hsep (Bool.eq_false_iff.mp (hroutes route hr).2)
  have hinfo : ¬(request.method = .info ∧
      (request.body = [] ∨ ¬∃ text ∈ request.contentType, '/' ∈ text)) := by
    rw [h.bye]
    exact fun hinfo => nomatch hinfo.1
  simp only [sendRestoredDialogRequest, if_neg hstop, if_neg hid, if_neg h.protocol, if_neg htcp,
    if_neg hsep, if_neg hinfo, (h.shim_eq_ok hvalid _).mpr ⟨hfits, rfl⟩]

/-- The owner thread splits a joined route set into its routes. -/
theorem routeLines_join {routes : List Bytes} (h : ∀ route ∈ routes, route ≠ [] ∧ Plain route) :
    Calls.routeLines ([10].intercalate routes) = routes := by
  cases routes with
  | nil => rfl
  | cons route rest =>
    have hlf : ∀ r ∈ route :: rest, 10 ∉ r := fun r hr hmem =>
      absurd ((h r hr).2 10 hmem) (by decide)
    rw [Calls.routeLines, List.splitOn_intercalate 10 hlf (List.cons_ne_nil route rest),
      List.filter_eq_self]
    exact fun r hr => decide_eq_true (h r hr).1

/-- A command that is queued carries the identity the snapshot stores. -/
theorem queued_identity (hvalid : request.snapshot.identity.Valid) :
    commandIdentity (queued request) = request.snapshot.identity := by
  have hroutes : Calls.routeLines (queued request).routeSet = request.snapshot.identity.routes := by
    rw [queued, utf8_intercalate]
    exact routeLines_join hvalid.routes
  rw [commandIdentity, hroutes]
  rfl

/-- **The second half: from the snapshot to the command.** A BYE is queued with an identity if that
is the one in the snapshot, and both sides accept it. -/
theorem Orderly.sent_iff (h : Orderly pj alloc runtime request) (i : DialogIdentity) :
    (∃ command, sendRestoredDialogRequest pj alloc runtime request = .ok command ∧
        commandIdentity command = i) ↔
      request.snapshot.identity = i ∧ i.Valid ∧ i.Fits := by
  constructor
  · rintro ⟨command, hsend, rfl⟩
    obtain ⟨hvalid, hshim⟩ := valid_of_send hsend
    obtain ⟨hfits, rfl⟩ := (h.shim_eq_ok hvalid command).mp hshim
    rw [queued_identity hvalid]
    exact ⟨rfl, hvalid, hfits⟩
  · rintro ⟨rfl, hvalid, hfits⟩
    exact ⟨queued request, h.send_of_valid hvalid hfits, queued_identity hvalid⟩

end sending

/-! ## Exporting -/

section exporting

variable {Uri : Type} (printer : UriPrinter Uri)

/-- A route is printed behind `start` bytes of the buffer and leaves room for a NUL. -/
def RouteFits (start : ℕ) (route : Uri) : Prop :=
  printer.fits .routingHdr route (routeSetCapacity - start) = true ∧
    printer.text .routingHdr route ≠ [] ∧
    start + (printer.text .routingHdr route).length < routeSetCapacity

instance (start : ℕ) (route : Uri) : Decidable (RouteFits printer start route) :=
  inferInstanceAs (Decidable (_ ∧ _ ∧ _))

/-- Every route is printed in the room the ones before it leave. -/
def RoutesFit : ℕ → List Uri → Prop
  | _, [] => True
  | start, route :: rest =>
    RouteFits printer start route ∧
      RoutesFit (start + (printer.text .routingHdr route).length + 1) rest

variable {printer}

/-- One turn of the loop. -/
theorem exportRoutes_cons (buffer : Bytes) (route : Uri) (rest : List Uri) :
    exportRoutes printer buffer (route :: rest) =
      if RouteFits printer (routeStart buffer).length route then
        exportRoutes printer (routeStart buffer ++ printer.text .routingHdr route) rest
      else [] := by
  have hroom : (printer.text .routingHdr route = [] ∨
      routeSetCapacity ≤ (routeStart buffer).length + (printer.text .routingHdr route).length) ↔
      ¬(printer.text .routingHdr route ≠ [] ∧
        (routeStart buffer).length + (printer.text .routingHdr route).length <
          routeSetCapacity) := by
    rw [not_and_or, not_not, not_lt]
  simp only [exportRoutes, UriPrinter.print, RouteFits]
  by_cases hfits : printer.fits .routingHdr route (routeSetCapacity - (routeStart buffer).length)
  · simp only [hfits, if_true, hroom, ite_not, true_and]
  · simp only [hfits, Bool.false_eq_true, if_false, false_and]

/-- Behind a route the next one starts after a line feed. -/
theorem routeStart_append (buffer : Bytes) (h : text ≠ []) :
    routeStart (buffer ++ text) = buffer ++ text ++ [10] :=
  if_neg (List.append_ne_nil_of_right_ne_nil buffer h)

/-- Routes that fit are joined behind what is in the buffer. -/
theorem exportRoutes_of_fit {buffer : Bytes} {route : Uri} {rest : List Uri}
    (h : RoutesFit printer (routeStart buffer).length (route :: rest)) :
    exportRoutes printer buffer (route :: rest) =
      routeStart buffer ++ [10].intercalate ((route :: rest).map (printer.text .routingHdr)) := by
  induction rest generalizing buffer route with
  | nil =>
    rw [exportRoutes_cons, if_pos h.1, exportRoutes, List.map_singleton,
      List.intercalate_singleton]
  | cons next rest ih =>
    obtain ⟨hroute, hrest⟩ := h
    have hstart := routeStart_append (routeStart buffer) hroute.2.1
    rw [exportRoutes_cons, if_pos hroute, ih, hstart]
    · simp only [List.map_cons, List.intercalate_cons_cons, List.append_assoc]
    · simpa only [hstart, List.length_append, List.length_singleton] using hrest

/-- One route that does not fit, and none is exported. -/
theorem exportRoutes_of_not_fit {buffer : Bytes} {routes : List Uri}
    (h : ¬RoutesFit printer (routeStart buffer).length routes) :
    exportRoutes printer buffer routes = [] := by
  induction routes generalizing buffer with
  | nil => exact absurd trivial h
  | cons route rest ih =>
    rw [exportRoutes_cons]
    by_cases hroute : RouteFits printer (routeStart buffer).length route
    · rw [if_pos hroute]
      refine ih fun hrest => h ⟨hroute, ?_⟩
      simpa only [routeStart_append _ hroute.2.1, List.length_append,
        List.length_singleton] using hrest
    · rw [if_neg hroute]

/-- A route set that fits is exported as a whole. -/
theorem exportRoutes_fit {routes : List Uri} (h : RoutesFit printer 0 routes) :
    exportRoutes printer [] routes =
      [10].intercalate (routes.map (printer.text .routingHdr)) := by
  cases routes with
  | nil => rfl
  | cons route rest => exact exportRoutes_of_fit h

/-- What an exported dialog looks like. -/
structure Exported (printer : UriPrinter Uri) (dialog : Dialog Uri) (i : DialogIdentity) : Prop where
  present : i.localUri ≠ [] ∧ i.remoteUri ≠ [] ∧ i.remoteTarget ≠ []
  tags : i.localTag ≠ [] ∧ i.remoteTag ≠ []
  localUri_le : i.localUri.length ≤ uriCapacity
  remoteUri_le : i.remoteUri.length ≤ uriCapacity
  remoteTarget_le : i.remoteTarget.length ≤ uriCapacity
  event_eq : ∀ event, exportDialog printer dialog event =
    { event with
      dialogLocalCseq := (dialog.localCseq - 1).toNat
      dialogLocalUri := .bytes i.localUri
      dialogRemoteUri := .bytes i.remoteUri
      dialogLocalTag := .bytes i.localTag
      dialogRemoteTag := .bytes i.remoteTag
      dialogRemoteTarget := .bytes i.remoteTarget
      dialogRouteSet := bytesView (exportRoutes printer [] dialog.routeSet) }

theorem UriPrinter.print_eq_some {context : UriContext} {uri : Uri} {size : ℕ}
    (h : printer.print context uri size = some text) :
    text = printer.text context uri ∧ text.length ≤ size := by
  unfold UriPrinter.print at h
  split_ifs at h with hfits
  cases h
  exact ⟨rfl, printer.length_le context uri size hfits⟩

/-- A dialog is exported with its identity, or the event stays as it is. -/
theorem exportDialog_cases {dialog : Dialog Uri} (hi : dialog.identity printer = some i) :
    Exported printer dialog i ∨ ∀ event, exportDialog printer dialog event = event := by
  obtain ⟨callId, localInfo, remoteInfo, target, localCseq, routeSet⟩ := dialog
  simp only [Dialog.identity, bind, Option.bind_eq_some_iff] at hi
  obtain ⟨callId, rfl, localInfo, rfl, remoteInfo, rfl, target, rfl, hi⟩ := hi
  cases hi
  simp only [exportDialog]
  by_cases hguard : 0 < localCseq ∧ localInfo.tag ≠ [] ∧ remoteInfo.tag ≠ []
  swap
  · exact .inr fun event => if_neg hguard
  simp only [if_pos hguard]
  cases hl : printer.print .fromToHdr localInfo.uri uriCapacity with
  | none => exact .inr fun _ => rfl
  | some localUri =>
  cases hr : printer.print .fromToHdr remoteInfo.uri uriCapacity with
  | none => exact .inr fun _ => rfl
  | some remoteUri =>
  cases ht : printer.print .reqUri target uriCapacity with
  | none => exact .inr fun _ => rfl
  | some remoteTarget =>
  obtain ⟨rfl, hllen⟩ := UriPrinter.print_eq_some hl
  obtain ⟨rfl, hrlen⟩ := UriPrinter.print_eq_some hr
  obtain ⟨rfl, htlen⟩ := UriPrinter.print_eq_some ht
  by_cases hne : printer.text .fromToHdr localInfo.uri ≠ [] ∧
      printer.text .fromToHdr remoteInfo.uri ≠ [] ∧ printer.text .reqUri target ≠ []
  swap
  · exact .inr fun event => if_neg hne
  refine .inl ⟨hne, hguard.2, hllen, hrlen, htlen, fun event => ?_⟩
  simp only [exportDialog, if_pos hguard, hl, hr, ht, if_pos hne, bytesView, if_neg hne.1,
    if_neg hne.2.1, if_neg hne.2.2, stringView]

/-! ## Copying -/

/-- The bytes are the encoding of a text. -/
def IsUtf8 (bytes : Bytes) : Prop := ∃ text, utf8 text = bytes

theorem copyStringView_bytesView (std : StdLib) (data : Bytes) :
    copyStringView std (bytesView data) = copyStringView std (.bytes data) := by
  by_cases h : data = []
  · simp [bytesView, copyStringView, h]
  · simp [bytesView, h]

/-- A text in UTF-8 is copied as it is. -/
theorem copyStringView_eq_some {data : Bytes} {text : List Char} (hutf8 : IsUtf8 data)
    (h : copyStringView std (.bytes data) = some text) :
    utf8 text = data ∧ text ≠ [] := by
  obtain ⟨read, rfl⟩ := hutf8
  simp only [copyStringView] at h
  split_ifs at h with hne
  rw [fromUtf8Lossy_utf8] at h
  cases h
  exact ⟨rfl, mt utf8_eq_nil.mpr hne⟩

/-- What a snapshot has to do with the dialog and the message it was taken from. -/
structure Copied (printer : UriPrinter Uri) (std : StdLib) (rx : Option RxMessage)
    (dialog : Dialog Uri) (i : DialogIdentity) (s : SipDialogSnapshot) : Prop where
  exported : Exported printer dialog i
  callId : (rx.bind fun r => r.callId) = some (utf8 s.callId)
  callId_ne : s.callId ≠ []
  identity : s.identity = { i with callId := utf8 s.callId, routes := s.routeSet.map utf8 }
  routes : s.routeSet =
    ((copyStringView std (.bytes (exportRoutes printer [] dialog.routeSet))).map lines).getD []
  protocol : s.protocol ≠ .tls
  associated : s.protocol = .tcp → s.associationId ≠ 0
  address : s.remoteAddr.ip ≠ [] ∧ s.remoteAddr.ip.length ≤ 45 ∧ 0 ∉ s.remoteAddr.ip

theorem copied_callId {rx : RxMessage} {callId : List Char}
    (hrx : ∀ callId ∈ rx.callId, IsUtf8 callId)
    (h : copyStringView std (stringView rx.callId) = some callId) :
    rx.callId = some (utf8 callId) ∧ callId ≠ [] := by
  cases hid : rx.callId with
  | none =>
    rw [hid] at h
    cases h
  | some bytes =>
    rw [hid] at h
    obtain ⟨rfl, hne⟩ := copyStringView_eq_some (hrx bytes hid) h
    exact ⟨rfl, hne⟩

theorem copyTransport_ne_tls {transport : SipTransport} {protocol : SipTransportProtocol}
    (h : copyTransport transport = some protocol) : protocol ≠ .tls := by
  cases transport <;> cases h <;> decide

/-- A snapshot taken on a stream has an association. -/
theorem copied_associated {transport : Option RxTransport} {protocol : SipTransportProtocol}
    (h : copyTransport (transportType transport) = some protocol) (htcp : protocol = .tcp) :
    (transport.map fun t => t.associationId).getD 0 ≠ 0 := by
  subst htcp
  cases transport with
  | none => cases h
  | some transport =>
    refine transport.associated ?_
    cases hk : transport.kind with
    | tcp => rfl
    | udp | unknown =>
      rw [transportType, hk] at h
      cases h

/-- **The first half: from the dialog to the snapshot.** -/
theorem copied_of_copyDialogSnapshot {dialog : Dialog Uri} (hi : dialog.identity printer = some i)
    (hutf8 : ∀ text ∈ i.strings, IsUtf8 text)
    (hrx : ∀ r ∈ rx, ∀ callId ∈ r.callId, IsUtf8 callId)
    (hs : copyDialogSnapshot std (emitEvent printer rx dialog) = some s) :
    Copied printer std rx dialog i s := by
  cases exportDialog_cases hi with
  | inr hskip =>
    -- nothing was exported, so the event has no CSeq
    cases rx <;> simp [copyDialogSnapshot, emitEvent, exportRx, hskip] at hs
  | inl hexp =>
    cases rx with
    | none => simp [copyDialogSnapshot, emitEvent, hexp.event_eq, copyStringView] at hs
    | some rx =>
      simp only [copyDialogSnapshot, emitEvent, exportRx, hexp.event_eq,
        copyStringView_bytesView] at hs
      split_ifs at hs with hcseq
      simp only [bind, Option.bind_eq_some_iff] at hs
      obtain ⟨callId, hcall, localUri, hl, remoteUri, hr, localTag, hlt, remoteTag, hrt,
        remoteTarget, ht, protocol, hp, localAddr, hla, remoteAddr, ⟨text, -, hra⟩, hs⟩ := hs
      cases hs
      simp only [DialogIdentity.strings, List.forall_mem_cons] at hutf8
      obtain ⟨-, hu₂, hu₃, hu₄, hu₅, hu₆, -⟩ := hutf8
      obtain ⟨hcallId, hne⟩ := copied_callId (hrx rx rfl) hcall
      refine
        { exported := hexp
          callId := hcallId
          callId_ne := hne
          identity := ?_
          routes := rfl
          protocol := copyTransport_ne_tls hp
          associated := fun htcp => ?_
          address := std.parseAddr_ip text remoteAddr hra }
      · simp only [SipDialogSnapshot.identity, (copyStringView_eq_some hu₂ hl).1,
          (copyStringView_eq_some hu₃ hr).1, (copyStringView_eq_some hu₄ hlt).1,
          (copyStringView_eq_some hu₅ hrt).1, (copyStringView_eq_some hu₆ ht).1]
      · exact copied_associated hp htcp

/-! ## Both halves together -/

/-- The snapshot with the CSeq of the next request in the dialog. -/
def SipDialogSnapshot.advanced (s : SipDialogSnapshot) : SipDialogSnapshot :=
  { s with localCseq := s.localCseq + 1 }

/-- All identifiers are in UTF-8. -/
def DialogIdentity.IsUtf8 (i : DialogIdentity) : Prop :=
  (∀ text ∈ i.strings, Snapshots.IsUtf8 text) ∧ ∀ route ∈ i.routes, Snapshots.IsUtf8 route

/-- What is asked of a dialog on the way: the Rust side accepts its identifiers, they fit the buffers
of a command, and the route set was printed as a whole. -/
structure Restorable (printer : UriPrinter Uri) (dialog : Dialog Uri) (i : DialogIdentity) :
    Prop where
  valid : i.Valid
  fits : i.Fits
  routes : RoutesFit printer 0 dialog.routeSet

theorem Dialog.routes_of_identity {dialog : Dialog Uri} (hi : dialog.identity printer = some i) :
    dialog.callId = some i.callId ∧
      i.routes = dialog.routeSet.map (printer.text .routingHdr) := by
  simp only [Dialog.identity, bind, Option.bind_eq_some_iff] at hi
  obtain ⟨callId, hcall, localInfo, -, remoteInfo, -, target, -, hi⟩ := hi
  cases hi
  exact ⟨hcall, rfl⟩

/-- A text whose encoding has no separators has no line feed and no carriage return. -/
theorem Plain.lines_notMem {text : List Char} (h : Plain (utf8 text)) :
    '\n' ∉ text ∧ '\r' ∉ text := by
  constructor
  · intro hmem
    exact absurd (h 10 (mem_utf8 hmem (by decide))) (by decide)
  · intro hmem
    exact absurd (h 13 (mem_utf8 hmem (by decide))) (by decide)

/-- Texts that are joined, copied and split into lines are read back. -/
theorem lines_copied (std : StdLib) {texts : List (List Char)}
    (h : ∀ text ∈ texts, text ≠ [] ∧ Plain (utf8 text)) :
    ((copyStringView std (.bytes (utf8 (['\n'].intercalate texts)))).map lines).getD [] = texts := by
  have hlines : lines (['\n'].intercalate texts) = texts :=
    lines_intercalate fun text ht => ⟨(h text ht).1, (h text ht).2.lines_notMem⟩
  rw [copyStringView]
  by_cases hempty : utf8 (['\n'].intercalate texts) = []
  · -- an empty join is that of an empty list, since no text is empty
    rw [utf8_eq_nil.mp hempty] at hlines
    rw [if_pos hempty, ← hlines]
    rfl
  · rw [if_neg hempty, fromUtf8Lossy_utf8, Option.map_some, Option.getD_some, hlines]

theorem copied_lines (std : StdLib) {routes : List Bytes}
    (hutf8 : ∀ route ∈ routes, IsUtf8 route) (h : ∀ route ∈ routes, route ≠ [] ∧ Plain route) :
    (((copyStringView std (.bytes ([10].intercalate routes))).map lines).getD []).map utf8 =
      routes := by
  obtain ⟨texts, rfl⟩ : routes ∈ Set.range (List.map utf8) := by
    rw [Set.range_list_map]
    exact hutf8
  rw [List.forall_mem_map] at h
  have hjoin : ([10] : Bytes).intercalate (texts.map utf8) = utf8 (['\n'].intercalate texts) :=
    (utf8_intercalate ['\n'] texts).symm
  rw [hjoin, lines_copied std fun text ht => ⟨mt utf8_eq_nil.mpr (h text ht).1, (h text ht).2⟩]

/-- The snapshot stores the identity of the dialog if its route set was printed as a whole. -/
theorem Copied.identity_eq {dialog : Dialog Uri} (h : Copied printer std rx dialog i s)
    (hi : dialog.identity printer = some i) (hutf8 : ∀ route ∈ i.routes, IsUtf8 route)
    (hrx : ∀ r ∈ rx, r.callId = dialog.callId)
    (hroutes : ∀ route ∈ i.routes, route ≠ [] ∧ Plain route)
    (hfit : RoutesFit printer 0 dialog.routeSet) : s.identity = i := by
  obtain ⟨hcall, heq⟩ := Dialog.routes_of_identity hi
  have hcallId : utf8 s.callId = i.callId := by
    obtain ⟨r, hr, hid⟩ := Option.bind_eq_some_iff.mp h.callId
    rw [hrx r hr, hcall] at hid
    exact (Option.some.inj hid).symm
  have hset : s.routeSet.map utf8 = i.routes := by
    rw [h.routes, exportRoutes_fit hfit, ← heq]
    exact copied_lines std hutf8 hroutes
  rw [h.identity, hcallId, hset]

/-- A route set that was not printed as a whole is lost. -/
theorem Copied.routes_fit {dialog : Dialog Uri} (h : Copied printer std rx dialog i s)
    (hi : dialog.identity printer = some i) (heq : s.identity = i) :
    RoutesFit printer 0 dialog.routeSet := by
  by_contra hfit
  have hnone : s.routeSet = [] := by
    rw [h.routes, exportRoutes_of_not_fit hfit]
    rfl
  have hempty : dialog.routeSet.map (printer.text .routingHdr) = [] := by
    rw [← (Dialog.routes_of_identity hi).2, ← heq, SipDialogSnapshot.identity, hnone,
      List.map_nil]
  rw [List.map_eq_nil_iff.mp hempty] at hfit
  exact hfit trivial

end exporting

/-! ## Two dialogs that do not survive -/

/-- A printer that asks for the room of the text and a NUL. -/
def plainPrinter : UriPrinter Bytes where
  text _ uri := uri
  fits _ uri size := decide (uri.length < size)
  length_le _ _ _ h := le_of_lt (of_decide_eq_true h)

/-- A standard library that reads one address. -/
def plainStd : StdLib where
  replaced _ := []
  parseAddr text := if text = ['h', ':', '1'] then some ⟨true, utf8 ['h'], 1⟩ else none
  parseAddr_ip text addr h := by
    split_ifs at h
    cases h
    decide

/-- A dialog with given remote tag and route set. -/
def sampleDialog (remoteTag : List Char) (routes : List (List Char)) : Dialog Bytes where
  callId := some (utf8 ['c'])
  localInfo := some ⟨utf8 ['l'], utf8 ['a']⟩
  remoteInfo := some ⟨utf8 ['r'], utf8 remoteTag⟩
  target := some (utf8 ['t'])
  localCseq := 2
  routeSet := routes.map utf8

/-- A response of that dialog, over UDP. -/
def sampleRx : RxMessage where
  transport := some ⟨.udp, 0, some (utf8 ['h', ':', '1']), nofun⟩
  callId := some (utf8 ['c'])
  remoteAddress := some (utf8 ['h', ':', '1'])

/-- The BYE for the dialog, from a snapshot with given tag and routes. -/
def sampleBye (remoteTag : List Char) (routes : List (List Char)) : SipRestoredDialogRequest where
  operationId := 1
  method := .bye
  snapshot :=
    { callId := ['c'], localUri := ['l'], remoteUri := ['r'], localTag := ['a']
      remoteTag := remoteTag, localCseq := 2, remoteTarget := ['t'], routeSet := routes
      protocol := .udp, associationId := 0, localAddr := ⟨true, utf8 ['h'], 1⟩
      remoteAddr := ⟨true, utf8 ['h'], 1⟩ }
  contentType := none
  body := []

/-- The snapshot that is taken of the sample dialog. -/
def sampleSnapshot (remoteTag : List Char) (routes : List (List Char)) : SipDialogSnapshot :=
  { (sampleBye remoteTag routes).snapshot with localCseq := 1 }

theorem sampleDialog_snapshot {remoteTag : List Char} (htag : remoteTag ≠ [])
    (routes : List (List Char)) :
    copyDialogSnapshot plainStd (emitEvent plainPrinter (some sampleRx)
        (sampleDialog remoteTag routes)) =
      some (sampleSnapshot remoteTag (((copyStringView plainStd
        (.bytes (exportRoutes plainPrinter [] (routes.map utf8)))).map lines).getD [])) := by
  have hprint : ∀ context, plainPrinter.print context (utf8 ['l']) uriCapacity = some (utf8 ['l']) ∧
      plainPrinter.print context (utf8 ['r']) uriCapacity = some (utf8 ['r']) ∧
      plainPrinter.print context (utf8 ['t']) uriCapacity = some (utf8 ['t']) :=
    fun _ => ⟨rfl, rfl, rfl⟩
  have hparse : plainStd.parseAddr ['h', ':', '1'] = some ⟨true, utf8 ['h'], 1⟩ := rfl
  have hread : ∀ text, text ≠ [] → copyStringView plainStd (.bytes (utf8 text)) = some text := by
    intro text hne
    simp [copyStringView, hne]
  simp [copyDialogSnapshot, emitEvent, exportRx, exportDialog, sampleDialog, sampleRx, htag,
    hprint, stringView, copyStringView_bytesView, hread, transportType, copyTransport,
    sampleSnapshot, sampleBye, hparse]

/-- A running runtime is asked for the BYE. -/
theorem sampleBye_prepared (remoteTag : List Char) (routes : List (List Char)) :
    Prepared (.server fun _ => none) ⟨true, true⟩ ⟨false, true⟩ (sampleBye remoteTag routes) where
  running := ⟨rfl, rfl⟩
  memory := ⟨rfl, rfl⟩
  operation := Nat.one_ne_zero
  bye := rfl
  contentType := fun _ h => nomatch h
  body := Nat.zero_le _

/-- The identity of the sample dialog. -/
def sampleIdentity (remoteTag : List Char) (routes : List (List Char)) : DialogIdentity where
  callId := utf8 ['c']
  localUri := utf8 ['l']
  remoteUri := utf8 ['r']
  localTag := utf8 ['a']
  remoteTag := utf8 remoteTag
  remoteTarget := utf8 ['t']
  routes := routes.map utf8

/-- A route of 4096 bytes is dropped by the export, and the BYE is queued without a route. -/
theorem long_route_lost (route : List Char) (hroute : 4096 ≤ (utf8 route).length) :
    copyDialogSnapshot plainStd (emitEvent plainPrinter (some sampleRx)
        (sampleDialog ['b'] [route])) = some (sampleSnapshot ['b'] []) := by
  have hfit : ¬RoutesFit plainPrinter (routeStart []).length ([route].map utf8) := by
    rintro ⟨⟨-, -, hlt⟩, -⟩
    exact absurd hlt (not_lt.mpr (le_trans hroute (Nat.le_add_left _ _)))
  rw [sampleDialog_snapshot (List.cons_ne_nil 'b' []), exportRoutes_of_not_fit hfit]
  rfl

theorem length_utf8_replicate (n : ℕ) : (utf8 (List.replicate n 'x')).length = n := by
  have h : 'x'.utf8Size = 1 := by decide
  simp [utf8, h]

end GmvPjsip.Snapshots
