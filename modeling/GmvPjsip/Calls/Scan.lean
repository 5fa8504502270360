import GmvPjsip.Calls.Callbacks
import Mathlib.Data.List.DropRight
import Mathlib.Data.List.Infix

/-!
# The route of a dialog, read off a packet

Before a packet is handed to PJSIP the shim looks for a 2xx of an INVITE in its text, and saves the
source of the packet as the route of the call whose Call-ID it finds. Later requests of the call go to
that address when their own destination is private or missing.

* `packetHeaderCopy` finds a header line anywhere in the packet, the body included.
* `CallRuntime.captureInviteDialogRoute` saves the route.
* `dialogRouteDestination` is where a request goes.
-/

namespace GmvPjsip.Calls

open GmvPjsip.Auth

/-- What C string functions see of a buffer: the bytes in front of the first NUL. -/
def cString (buffer : Bytes) : Bytes := buffer.takeWhile (· ≠ 0)

/-- A space or a tab. -/
def isBlank (c : UInt8) : Bool := c = 32 || c = 9

/-- A line without the carriage return that ends it. -/
def stripCr (line : Bytes) : Bytes := if line.getLast? = some 13 then line.dropLast else line

/-- A value without the blanks around it. -/
def trimBlanks (value : Bytes) : Bytes := (value.dropWhile isBlank).rdropWhile isBlank

/-- The value of a header line, if the line has this name. -/
def headerValue (name text : Bytes) : Option Bytes :=
  if name.length < text.length ∧ text[name.length]? = some 58 ∧
      stricmp (text.take name.length) name then
    some (trimBlanks (text.drop (name.length + 1)))
  else none

/-- A line has a name exactly if it starts with it, in any letter case, and a colon follows. -/
theorem headerValue_eq_some_iff {name text v : Bytes} : headerValue name text = some v ↔
      ∃ name' value, text = name' ++ 58 :: value ∧ stricmp name' name ∧ v = trimBlanks value := by
  constructor
  · intro h
    simp only [headerValue] at h
    split_ifs at h with hline
    obtain ⟨hlen, hcolon, hname⟩ := hline
    refine ⟨text.take name.length, text.drop (name.length + 1), ?_, hname, (Option.some.inj h).symm⟩
    have hget : text[name.length] = 58 := by
      simpa [List.getElem?_eq_getElem hlen] using hcolon
    rw [← hget, List.cons_getElem_drop_succ, List.take_append_drop]
  · rintro ⟨name', value, rfl, hname, rfl⟩
    have hlen := length_of_stricmp hname
    simp [headerValue, ← hlen, hname]

/-- The value of the first line with a name, unless it does not fit the buffer.
Source: `shim_transport.inc`, `gmv_packet_header_copy` -/
def packetHeaderCopy (packet name : Bytes) (outLen : ℕ) : Option Bytes :=
  match (packet.splitOn 10).findSome? fun line => headerValue name (stripCr line) with
  | none => none
  | some value => if outLen ≤ value.length then none else some value

/-- Source: `shim_transport.inc`, `gmv_packet_is_2xx_invite_response` -/
def packetIs2xxInviteResponse (packet : Bytes) : Bool :=
  if packet.length < 9 ∨ packet.take 8 ≠ ascii "SIP/2.0 " ∨ packet[8]? ≠ some 50 then false
  else match packetHeaderCopy packet (ascii "CSeq") 128 with
    | none => false
    | some cseq => ascii "INVITE" <:+: cString cseq

/-- The Call-ID the scan finds in a packet that looks like a 2xx of an INVITE. -/
def scannedCallId (packet : Bytes) : Option Bytes :=
  if packetIs2xxInviteResponse packet then
    (packetHeaderCopy packet (ascii "Call-ID") callIdCapacity).map cString
  else none

/-- Source: `shim_transport.inc`, `gmv_capture_invite_dialog_route_from_packet` -/
def CallRuntime.captureInviteDialogRoute (s : CallRuntime) (packet : Bytes) (source : SockAddr) :
    CallRuntime :=
  match (scannedCallId packet).bind s.findInviteCall with
  | none => s
  | some call => s.write call.address fun r => r.saveDialogRoute (some source)

/-- Addresses that are of no use outside a local network.
Source: `shim_transport.inc`, `gmv_sockaddr_is_private_or_unusable_ipv4` -/
def SockAddr.isPrivateOrUnusable (address : SockAddr) : Bool :=
  let a := address.ip / 2 ^ 24 % 256
  let b := address.ip / 2 ^ 16 % 256
  a = 0 || a = 10 || a = 127 || (a = 100 && 64 ≤ b && b ≤ 127) || (a = 169 && b = 254) ||
    (a = 172 && 16 ≤ b && b ≤ 31) || (a = 192 && b = 168)

/-- Where a request with a Call-ID goes.
Source: `shim_transport.inc`, `gmv_dialog_route_destination` -/
def CallRuntime.dialogRouteDestination (s : CallRuntime) (callId : Option Bytes)
    (destination : Option SockAddr) : Option SockAddr :=
  match (callId.bind fun id => copyView callIdCapacity (.bytes id)).bind s.findInviteCall with
  | none => destination
  | some call =>
    match call.dialogRoute with
    | none => destination
    | some route =>
      if !route.hasAddr then destination
      else match destination with
        | none => some route
        | some address =>
          if !address.hasAddr || address.isPrivateOrUnusable then some route else destination

end GmvPjsip.Calls
