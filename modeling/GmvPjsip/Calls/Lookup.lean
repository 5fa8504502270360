import GmvPjsip.Calls.Restored

/-!
# Finding a call by its Call-ID

`gmv_find_invite_call` returns the first record with a Call-ID, and new records are put in front. A
record of a restored dialog has no session, so that a BYE or INFO that finds it is refused.

* `Unshadowed`: no record without a session stands in front of one with a session and the same Call-ID.
* `live_call_found`: this holds in every run in which no dialog is restored under the Call-ID of a call
  that has a session; the lookup then finds a call with a session wherever there is one.
* `restored_request_shadows`: the one way to lose a call.
-/

namespace GmvPjsip.Calls

open GmvPjsip.Auth
open GmvPjsip.Commands

/-! ## Definitions -/

/-- What the lookup and its caller read of a record: the Call-ID, and whether there is a session. -/
def InviteCall.entry (r : InviteCall) : Bytes × Bool := (r.callId, r.invite.isSome)

/-- No entry without a session in front of one with a session and the same Call-ID, and no entry
without a Call-ID. -/
structure Unshadowed (entries : List (Bytes × Bool)) : Prop where
  order : entries.Pairwise fun front back => front.1 = back.1 → back.2 = true → front.2 = true
  named : ∀ entry ∈ entries, entry.1 ≠ []

/-- A dialog is only restored if no call with a session has its Call-ID. PJSIP accepts no INVITE without
a Call-ID. -/
def CallRuntime.RestoresApart (s : CallRuntime) : Op → Prop
  | .dialog command _ => command.restored = true →
      ∀ r ∈ s.inviteCalls, r.callId = command.callId → r.invite = none
  | .incoming invite _ _ => invite.callId ≠ []
  | _ => True

/-! ## Changes -/

section changes

variable {b₀ b b' : Book} {op : Op} {entries entries' : List (Bytes × Bool)}

theorem Unshadowed.sublist (h : Unshadowed entries) (hsub : entries'.Sublist entries) :
    Unshadowed entries' :=
  ⟨h.order.sublist hsub, fun entry hentry => h.named entry (hsub.subset hentry)⟩

/-- A new entry in front. -/
theorem Unshadowed.cons (h : Unshadowed entries) {callId : Bytes} {live : Bool} (hnamed : callId ≠ [])
    (horder : live = false → ∀ entry ∈ entries, entry.1 = callId → entry.2 = false) :
    Unshadowed ((callId, live) :: entries) := by
  refine ⟨List.pairwise_cons.mpr ⟨fun entry hentry hsame hback => ?_, h.order⟩, ?_⟩
  · cases live with
    | true => rfl
    | false => exact absurd (hback.symm.trans (horder rfl entry hentry hsame.symm)) (by decide)
  · intro entry hentry
    rcases List.mem_cons.mp hentry with rfl | hold
    · exact hnamed
    · exact h.named entry hold

/-- A record with a session may come in front of any other. -/
theorem Unshadowed.cons_live (h : Unshadowed entries) {callId : Bytes} (hnamed : callId ≠ []) :
    Unshadowed ((callId, true) :: entries) :=
  h.cons hnamed fun hlive => absurd hlive (by decide)

/-- A record that stays in the list keeps its entry. -/
theorem Touch.entry {r : InviteCall} {q : Reaction} (htouch : Touch b₀ op b r q)
    (hkept : q.dropped = false) : q.call.entry = r.entry := by
  refine Prod.ext htouch.sameCall.callId ?_
  show q.call.invite.isSome = r.invite.isSome
  cases htouch with
  | enters _ hsession =>
    rw [Option.isSome_iff_ne_none.mpr hsession]
    rfl
  | stateChanged =>
    unfold inviteOnStateChanged at hkept ⊢
    split_ifs at hkept ⊢
    rfl
  | tsx _ _ hreact =>
    cases hreact with
    | answeredLast | endedLast => cases hkept
    | _ => rfl
  | inviteFailed => cases hkept
  | captured | ends | endFailed => rfl

theorem Change.unshadowed (hrestores : ∀ command env, op = .dialog command env →
      command.restored = true → ∀ r ∈ b₀.calls, r.callId = command.callId → r.invite = none)
    (hincoming : ∀ invite env calloc, op = .incoming invite env calloc → invite.callId ≠ [])
    (hI : Unshadowed (b.calls.map InviteCall.entry)) (hchange : Change b₀ op b b') :
    Unshadowed (b'.calls.map InviteCall.entry) := by
  cases hchange with
  | same => exact hI
  | @touched pre post r q hcalls htouch =>
    rw [hcalls] at hI
    cases hdropped : q.dropped with
    | false =>
      have hentries : (b.splice pre q post).calls.map InviteCall.entry =
          (pre ++ r :: post).map InviteCall.entry := by
        simp [Book.splice, hdropped, htouch.entry hdropped]
      rw [hentries]
      exact hI
    | true =>
      refine hI.sublist (List.Sublist.map _ ?_)
      simp [Book.splice, hdropped]
  | invited hop hb₀ hid hcallId => exact hI.cons_live hcallId
  | accepted hop => exact hI.cons_live (hincoming _ _ _ hop)
  | restored hop hkind hb₀ hid hcallId =>
    refine hI.cons hcallId fun _ entry hentry hsame => ?_
    obtain ⟨r, hr, rfl⟩ := List.mem_map.mp hentry
    have hnone := hrestores _ _ hop hkind r (hb₀ ▸ hr) hsame
    show r.invite.isSome = false
    rw [hnone]
    rfl
  | informs | reported | completed => exact hI
  | discarded hmem hevents hcalls =>
    rw [hcalls] at hI
    refine hI.sublist (List.Sublist.map _ ?_)
    simp [Book.splice]
  | swept => exact hI.sublist (List.filter_sublist.map _)

end changes

/-! ## Runs -/

section runs

/-- Where nothing is shadowed, a lookup finds a call with a session if there is one. -/
theorem findInviteCall_live {s : CallRuntime} (hI : Unshadowed (s.inviteCalls.map InviteCall.entry))
    {r : InviteCall} (hr : r ∈ s.inviteCalls) (hsession : r.invite ≠ none) :
    ∃ call ∈ s.inviteCalls, s.findInviteCall r.callId = some call ∧ call.callId = r.callId ∧
      call.invite ≠ none := by
  have hnamed : r.callId ≠ [] := hI.named r.entry (List.mem_map_of_mem hr)
  unfold CallRuntime.findInviteCall
  rw [if_neg hnamed]
  cases hfind : s.inviteCalls.find? fun r' => r'.callId = r.callId with
  | none => exact absurd (List.find?_eq_none.mp hfind r hr) (by simp)
  | some call =>
    -- the first match is `r` itself or stands in front of it
    obtain ⟨hmatch, front, back, hcalls, hfront⟩ := List.find?_eq_some_iff_append.mp hfind
    have hsame : call.callId = r.callId := of_decide_eq_true hmatch
    refine ⟨call, by simp [hcalls], rfl, hsame, ?_⟩
    rw [hcalls, List.mem_append, List.mem_cons] at hr
    rcases hr with hr | rfl | hr
    · exact absurd (hfront r hr) (by simp)
    · exact hsession
    · have horder := List.pairwise_map.mp hI.order
      rw [hcalls] at horder
      have hpair := (List.pairwise_cons.mp (List.pairwise_append.mp horder).2.1).1 r hr
      exact Option.isSome_iff_ne_none.mp (hpair hsame (Option.isSome_iff_ne_none.mpr hsession))

/-- **A call with a session is found by its Call-ID**, and a BYE or INFO for it is carried out on a call
with a session, in every run in which no dialog is restored under the Call-ID of such a call. -/
theorem live_call_found (ops : List Op) (hops : Throughout CallRuntime.RestoresApart ops) :
    ∀ r ∈ (runCalls ops).inviteCalls, r.invite ≠ none →
      ∃ call ∈ (runCalls ops).inviteCalls, (runCalls ops).findInviteCall r.callId = some call ∧
        call.callId = r.callId ∧ call.invite ≠ none ∧
        ∀ (command : DialogCommand) (env : DialogEnv), command.callId = r.callId →
          command.restored = false → command.operationId ≠ 0 → env.started = true →
          sendDialogOnOwner (runCalls ops) command env =
            if command.method = .bye then sendBye (runCalls ops) call command env.bye
            else sendInfo (runCalls ops) command env.info := by
  have hI : Unshadowed ((runCalls ops).book.calls.map InviteCall.entry) := by
    refine runCalls_invariant (I := fun b => Unshadowed (b.calls.map InviteCall.entry)) hops
      ⟨List.Pairwise.nil, nofun⟩ ?_
    intro s op b b' hop _ _ _ hI hchange
    refine hchange.unshadowed ?_ ?_ hI
    · rintro command env rfl hkind
      exact hop hkind
    · rintro invite env calloc rfl
      exact hop
  intro r hr hsession
  obtain ⟨call, hcall, hfind, hsame, hlive⟩ := findInviteCall_live hI hr hsession
  refine ⟨call, hcall, hfind, hsame, hlive, ?_⟩
  intro command env hcallId hkind hid hstarted
  have hnamed : command.callId ≠ [] := hcallId ▸ hI.named r.entry (List.mem_map_of_mem hr)
  unfold sendDialogOnOwner
  rw [if_neg (by simp [hid, hnamed, hstarted]), if_neg (by simp [hkind]), hcallId, hfind]
  simp only [if_neg hlive]

/-- A restored BYE, and then an INVITE, each with a Call-ID of its own. -/
def besideRun : List Op :=
  [.dialog (restoredBye 1 [1]) (plainDialogEnv 0), .invite (plainInvite 2 [2]) (plainInviteEnv 1)]

theorem live_call_found_beside_restored : Throughout CallRuntime.RestoresApart besideRun ∧
      ∃ r ∈ (runCalls besideRun).inviteCalls, r.invite ≠ none ∧
        ∃ call, (runCalls besideRun).findInviteCall r.callId = some call := by
  have hops : Throughout CallRuntime.RestoresApart besideRun := by
    intro before op after hops
    match before with
    | [] =>
      obtain ⟨rfl, -⟩ := List.cons.inj hops
      exact fun _ r hr => absurd hr List.not_mem_nil
    | [_] =>
      obtain ⟨-, hrest⟩ := List.cons.inj hops
      obtain ⟨rfl, -⟩ := List.cons.inj hrest
      trivial
    | _ :: _ :: _ => simp [besideRun] at hops
  refine ⟨hops, inviteCall 1 1 (plainInvite 2 [2]) [2], by decide, by decide, ?_⟩
  obtain ⟨call, -, hfind, -⟩ := live_call_found besideRun hops (inviteCall 1 1 (plainInvite 2 [2]) [2])
    (by decide) (by decide)
  exact ⟨call, hfind⟩

/-- An INVITE that was sent, and a BYE that is restored under the same Call-ID: the call has a session,
the lookup finds the restored record, and another BYE is refused. -/
theorem restored_request_shadows :
    let s := runCalls [.invite (plainInvite 1 [1]) (plainInviteEnv 0),
      .dialog (restoredBye 2 [1]) (plainDialogEnv 1)]
    (∃ r ∈ s.inviteCalls, r.callId = [1] ∧ r.invite ≠ none) ∧
      (s.findInviteCall [1]).map InviteCall.invite = some none ∧
      (sendDialogOnOwner s (plainBye 3 [1]) (plainDialogEnv 2)).1 = .enotfound := by
  decide

end runs

end GmvPjsip.Calls
