import GmvPjsip.Calls.Overtaking

/-!
# Where the route of a call comes from

The route of a call is written in two places: by the transaction callback, with the source of a 2xx that
PJSIP matched to the INVITE, and before that by the text scan of every packet, with the source of
whatever names the Call-ID.

* `Signal.Matches`: PJSIP reports a 2xx from an address to the INVITE of a session.
* `Touch.route`: these are the only two places.
* `route_matched`: if PJSIP reports every packet that the scan takes for a 2xx of an outbound call as
  one, the route of such a call is the source of a 2xx that PJSIP matched to it.
* `forged_packet_redirects`: a packet PJSIP would not match.
-/

namespace GmvPjsip.Calls

open GmvPjsip.Auth
open GmvPjsip.Commands

/-! ## Definitions -/

/-- A 2xx from `route` to the INVITE of a session. -/
def Signal.Matches (session : ℕ) (route : SockAddr) (σ : Signal) : Prop :=
  ∃ tx rx, σ = .inviteTsx session tx (some rx) ∧ tx.IsInvite ∧ 200 ≤ tx.statusCode ∧
    tx.statusCode < 300 ∧ rx.srcAddr = route

/-- If a packet comes in that the scan takes for a 2xx of an outbound call, PJSIP reports it as one. -/
def CallRuntime.ScansMatch (s : CallRuntime) : Op → Prop
  | .receive packet source during => source.hasAddr = true →
      ∀ r, (scannedCallId packet).bind s.findInviteCall = some r → r.operationId ≠ 0 →
        ∃ σ ∈ during, σ.Matches r.serial source
  | _ => True

/-! ## One record -/

theorem saveDialogRoute_route (r : InviteCall) (srcAddr : Option SockAddr) :
    (r.saveDialogRoute srcAddr).dialogRoute = r.dialogRoute ∨
      ∃ route, srcAddr = some route ∧ route.hasAddr = true ∧
        (r.saveDialogRoute srcAddr).dialogRoute = some route := by
  cases srcAddr with
  | none => exact Or.inl rfl
  | some route =>
    by_cases hhas : route.hasAddr = true
    · exact Or.inr ⟨route, rfl, hhas, congrArg InviteCall.dialogRoute (if_pos hhas)⟩
    · exact Or.inl (congrArg InviteCall.dialogRoute (if_neg hhas))

theorem routed_route (r : InviteCall) (tx : Transaction) (rdata : Option RxData) :
    (r.routed tx rdata).dialogRoute = r.dialogRoute ∨
      ∃ rx, rdata = some rx ∧ 200 ≤ tx.statusCode ∧ tx.statusCode < 300 ∧
        (r.routed tx rdata).dialogRoute = some rx.srcAddr := by
  unfold InviteCall.routed
  by_cases h2xx : 200 ≤ tx.statusCode ∧ tx.statusCode < 300
  · rw [if_pos h2xx]
    rcases saveDialogRoute_route r (rdata.map RxData.srcAddr) with hsame | ⟨route, hsource, -, hsaved⟩
    · exact Or.inl hsame
    · obtain ⟨rx, hrx, rfl⟩ := Option.map_eq_some_iff.mp hsource
      exact Or.inr ⟨rx, hrx, h2xx.1, h2xx.2, hsaved⟩
  · rw [if_neg h2xx]
    exact Or.inl rfl

/-- A transaction event writes the route of a 2xx to the INVITE and nothing else. -/
theorem TsxReaction.route {tx : Transaction} {rdata : Option RxData} {r : InviteCall} {q : Reaction}
    (hreact : TsxReaction tx rdata r q) : q.call.dialogRoute = r.dialogRoute ∨
      ∃ route, q.call.dialogRoute = some route ∧
        (Signal.inviteTsx r.serial tx rdata).Matches r.serial route := by
  have hrouted : ∀ {saved}, tx.IsInvite → r.routed tx rdata = { r with dialogRoute := saved } →
      saved = r.dialogRoute ∨ ∃ route, saved = some route ∧
        (Signal.inviteTsx r.serial tx rdata).Matches r.serial route := by
    intro saved hinvite hroute
    have hsaves := routed_route r tx rdata
    rw [hroute] at hsaves
    refine hsaves.imp_right ?_
    rintro ⟨rx, rfl, hlow, hhigh, hsaved⟩
    exact ⟨rx.srcAddr, hsaved, tx, rx, rfl, hinvite, hlow, hhigh, rfl⟩
  cases hreact with
  | repeated hinvite _ _ hroute | answered hinvite _ _ _ hroute | answeredLast hinvite _ _ _ hroute =>
    exact hrouted hinvite hroute
  | request | progress | ending | ended | endedLast | ignored => exact Or.inl rfl

/-- What happens to a record leaves its route alone, or saves that of a 2xx that PJSIP reports or of a
packet that the scan takes for one. -/
theorem Touch.route {b₀ b : Book} {op : Op} {r : InviteCall} {q : Reaction} (htouch : Touch b₀ op b r q) :
    q.call.dialogRoute = r.dialogRoute ∨
      (∃ route, q.call.dialogRoute = some route ∧ ∃ σ ∈ op.signals, σ.Matches r.serial route) ∨
      ∃ packet route during, op = .receive packet route during ∧ route.hasAddr = true ∧
        (scannedCallId packet).bind b₀.find = some r ∧ q.call.dialogRoute = some route := by
  cases htouch with
  | tsx hσ _ hreact =>
    refine hreact.route.imp_right fun h => Or.inl ?_
    obtain ⟨route, hsaved, hmatches⟩ := h
    exact ⟨route, hsaved, _, hσ, hmatches⟩
  | @captured packet source during _ hop hfind hroute =>
    have hsaves := saveDialogRoute_route r (some source)
    rw [hroute] at hsaves
    refine hsaves.imp_right fun h => Or.inr ?_
    obtain ⟨route, hsource, hhas, hsaved⟩ := h
    obtain rfl := Option.some.inj hsource
    exact ⟨packet, source, during, hop, hhas, hfind, hsaved⟩
  | stateChanged =>
    refine Or.inl ?_
    unfold inviteOnStateChanged
    split_ifs <;> rfl
  | enters | inviteFailed | ends | endFailed => exact Or.inl rfl

/-! ## Changes -/

section changes

variable {b₀ b b' : Book} {op : Op}

/-- A condition on a record that makes no difference between its states and holds of new records, holds
of every record after a change if it does before, as far as it is about calls of the application. -/
theorem Change.outbound {P : InviteCall → Prop}
    (htouch : ∀ r q, Touch b₀ op b r q → r.operationId ≠ 0 → P r → P q.call)
    (hnew : ∀ serial address command, (∃ env, op = .invite command env) →
      P (inviteCall serial address command command.callId))
    (hI : ∀ r ∈ b.calls, r.operationId ≠ 0 → P r) (hchange : Change b₀ op b b') :
    ∀ r ∈ b'.calls, r.operationId ≠ 0 → P r := by
  cases hchange with
  | same | informs | reported | completed => exact hI
  | touched hcalls hq =>
    intro r' hr' hid
    rcases mem_splice_calls hcalls hr' with ⟨rfl, -⟩ | hold
    · have hid' := hq.sameCall.operationId ▸ hid
      exact htouch _ _ hq hid' (hI _ (by simp [hcalls]) hid')
    · exact hI r' hold hid
  | invited hop =>
    intro r' hr' hid
    rcases List.mem_cons.mp hr' with rfl | hold
    · exact hnew _ _ _ ⟨_, hop⟩
    · exact hI r' hold hid
  | accepted =>
    intro r' hr' hid
    rcases List.mem_cons.mp hr' with rfl | hold
    · exact absurd rfl hid
    · exact hI r' hold hid
  | restored =>
    intro r' hr' hid
    rcases List.mem_cons.mp hr' with rfl | hold
    · exact absurd rfl hid
    · exact hI r' hold hid
  | discarded hmem hevents hcalls =>
    intro r' hr' hid
    rcases mem_splice_calls (b := Book.finish _ _ _) hcalls hr' with ⟨-, hkept⟩ | hold
    · cases hkept
    · exact hI r' hold hid
  | swept => exact fun r' hr' => hI r' (List.mem_filter.mp hr').1

end changes

/-! ## Runs -/

/-- **The route of an outbound call is the source of a 2xx that PJSIP matched to its INVITE**, provided
that PJSIP reports as such a 2xx every packet that the scan takes for one; and then a packet changes no
route of an outbound call unless PJSIP matches it. -/
theorem route_matched (ops : List Op) (hops : Throughout CallRuntime.ScansMatch ops) :
    (∀ r ∈ (runCalls ops).inviteCalls, r.operationId ≠ 0 → ∀ route, r.dialogRoute = some route →
      ∃ op ∈ ops, ∃ σ ∈ op.signals, σ.Matches r.serial route) ∧
    ∀ packet source during, (runCalls ops).ScansMatch (.receive packet source during) →
      ∀ r' ∈ ((runCalls ops).step (.receive packet source during)).inviteCalls, r'.operationId ≠ 0 →
        (∀ σ ∈ during, ∀ route, ¬σ.Matches r'.serial route) →
        ∃ r ∈ (runCalls ops).inviteCalls, r.SameCall r' ∧ r'.dialogRoute = r.dialogRoute := by
  constructor
  · have hboth : Throughout (fun s op => s.ScansMatch op ∧ op ∈ ops) ops := fun before op after h =>
      ⟨hops before op after h, by simp [h]⟩
    refine runCalls_invariant (I := fun b => ∀ r ∈ b.calls, r.operationId ≠ 0 → ∀ route,
      r.dialogRoute = some route → ∃ op ∈ ops, ∃ σ ∈ op.signals, σ.Matches r.serial route) hboth
      (fun _ hr => absurd hr List.not_mem_nil) ?_
    rintro s op b b' ⟨hscans, hmem⟩ - - - hI hchange
    refine hchange.outbound (P := fun r => ∀ route, r.dialogRoute = some route →
      ∃ op ∈ ops, ∃ σ ∈ op.signals, σ.Matches r.serial route) ?_ (fun _ _ _ _ => nofun) hI
    intro r q htouch hid hbefore route hroute
    rw [htouch.sameCall.serial]
    rcases htouch.route with hsame | ⟨route', hsaved, hmatched⟩ |
      ⟨packet, route', during, rfl, hhas, hfind, hsaved⟩
    · exact hbefore route (hsame ▸ hroute)
    · obtain rfl := Option.some.inj (hsaved.symm.trans hroute)
      exact ⟨op, hmem, hmatched⟩
    · obtain rfl := Option.some.inj (hsaved.symm.trans hroute)
      exact ⟨_, hmem, hscans hhas r hfind hid⟩
  · intro packet source during hscans r' hr' hid hnone
    have hkept := (step_invariant (.receive packet source during) (runCalls_sound ops)
      (I := fun b => ∀ r' ∈ b.calls, r'.operationId ≠ 0 →
        (∀ σ ∈ during, ∀ route, ¬σ.Matches r'.serial route) →
        ∃ r ∈ (runCalls ops).inviteCalls, r.SameCall r' ∧ r'.dialogRoute = r.dialogRoute)
      (fun r hr _ _ => ⟨r, hr, .refl r, rfl⟩) fun b b' _ hI hchange => ?_).2
    · exact hkept r' hr' hid hnone
    refine hchange.outbound (P := fun r' => (∀ σ ∈ during, ∀ route, ¬σ.Matches r'.serial route) →
      ∃ r ∈ (runCalls ops).inviteCalls, r.SameCall r' ∧ r'.dialogRoute = r.dialogRoute) ?_
      (fun _ _ _ ⟨_, hop⟩ => absurd hop nofun) hI
    intro r q htouch hid hbefore hnone
    rw [htouch.sameCall.serial] at hnone
    obtain ⟨r₀, hr₀, hsame₀, hroute₀⟩ := hbefore hnone
    refine ⟨r₀, hr₀, hsame₀.trans htouch.sameCall, ?_⟩
    rcases htouch.route with hsame | ⟨route, -, σ, hσ, hmatches⟩ |
      ⟨packet', route, during', hop, hhas, hfind, -⟩
    · exact hsame.trans hroute₀
    · exact absurd hmatches (hnone σ hσ route)
    · obtain ⟨rfl, rfl, rfl⟩ := Op.receive.inj hop
      obtain ⟨σ, hσ, hmatches⟩ := hscans hhas r hfind hid
      exact absurd hmatches (hnone σ hσ source)

/-- An INVITE with the Call-ID `a`, and a 200 to it that PJSIP reports. -/
def answeredRun : List Op :=
  [.invite (plainInvite 1 [97]) (plainInviteEnv 0),
    .receive (ascii "SIP/2.0 200 OK\r\nCSeq: 1 INVITE\r\nCall-ID: a\r\n\r\n") ⟨134744072, 5060⟩
      [.inviteTsx 0 ⟨.uac, .invite, 200, .terminated⟩ (some ⟨.udp, ⟨134744072, 5060⟩⟩)]]

theorem route_matched_answered : Throughout CallRuntime.ScansMatch answeredRun ∧
      ∃ r ∈ (runCalls answeredRun).inviteCalls, r.operationId ≠ 0 ∧
        r.dialogRoute = some ⟨134744072, 5060⟩ ∧
        ∃ op ∈ answeredRun, ∃ σ ∈ op.signals, σ.Matches r.serial ⟨134744072, 5060⟩ := by
  have hops : Throughout CallRuntime.ScansMatch answeredRun := by
    intro before op after hops
    match before with
    | [] =>
      obtain ⟨rfl, -⟩ := List.cons.inj hops
      trivial
    | [_] =>
      obtain ⟨rfl, hrest⟩ := List.cons.inj hops
      obtain ⟨rfl, -⟩ := List.cons.inj hrest
      intro _ r hfind _
      have hfound : (scannedCallId (ascii
          "SIP/2.0 200 OK\r\nCSeq: 1 INVITE\r\nCall-ID: a\r\n\r\n")).bind
          (runCalls [.invite (plainInvite 1 [97]) (plainInviteEnv 0)]).findInviteCall =
          some (inviteCall 0 0 (plainInvite 1 [97]) [97]) := by decide +kernel
      obtain rfl := Option.some.inj (hfound.symm.trans hfind)
      exact ⟨_, List.mem_singleton.mpr rfl, _, _, rfl, ⟨rfl, rfl⟩, by decide, by decide, rfl⟩
    | _ :: _ :: _ => simp [answeredRun] at hops
  have hmem : { inviteCall 0 0 (plainInvite 1 [97]) [97] with
      inviteFinalEmitted := true, dialogRoute := some ⟨134744072, 5060⟩ } ∈
      (runCalls answeredRun).inviteCalls := by decide +kernel
  exact ⟨hops, _, hmem, by decide, rfl, (route_matched answeredRun hops).1 _ hmem (by decide) _ rfl⟩

/-- A packet from somebody else that is not even a SIP message, but has the lines the scan looks for. -/
def forgedPacket : Bytes := ascii "SIP/2.0 2\nCSeq:INVITE\nCall-ID:a"

/-- PJSIP reports nothing of the packet; the route of the call is the sender's, and a request of the call
without a destination of its own, or with a private one, goes there. -/
theorem forged_packet_redirects :
    let s := runCalls [.invite (plainInvite 1 [97]) (plainInviteEnv 0),
      .receive forgedPacket ⟨101058054, 6666⟩ []]
    (s.inviteCalls.map fun r => (r.operationId, r.dialogRoute)) = [(1, some ⟨101058054, 6666⟩)] ∧
      s.dialogRouteDestination (some [97]) (some ⟨167772161, 5060⟩) = some ⟨101058054, 6666⟩ := by
  decide +kernel

end GmvPjsip.Calls
