import GmvPjsip.Lib.Words

/-!
# Session descriptions

The offers for a live view and for a talk are built as text, and the answers of the devices are read
back by a parser of their own.

* `buildPlaySdp`, `buildTalkSdp` are the two builders.
* `SdpInfo.parseLossy` is the parser. It reads line by line; a later line of a kind overwrites an
  earlier one, and what it does not know it skips.
* `parseLossy_reads_built`: what the builders write, the parser reads.
-/

namespace GmvPjsip.Gb28181

open GmvPjsip.Lib

/-! ## The parser -/

/-- What is read off a session description.

Source: `src/gb28181/sdp.rs`, `SdpInfo` -/
structure SdpInfo where
  sessionName : Option (List Char)
  connectionAddr : Option (List Char)
  mediaPort : Option UInt16
  mediaProto : Option (List Char)
  mediaPayloads : List (List Char)
  ssrc : Option (List Char)
  raw : List Char
  deriving DecidableEq, Repr

/-- `str::parse::<u16>`. -/
def parseU16 (text : List Char) : Option UInt16 := (parseUnsigned UInt16.size text).map UInt16.ofNat

/-- One turn of the parser's loop.

Source: `src/gb28181/sdp.rs`, `SdpInfo::parse_lossy` -/
def SdpInfo.parseLine (out : SdpInfo) (line : List Char) : SdpInfo :=
  match stripPrefix ['s', '='] line with
  | some v => { out with sessionName := some v }
  | none =>
    match stripPrefix ['c', '='] line with
    | some v => { out with connectionAddr := (splitWhitespace v).getLast? }
    | none =>
      match stripPrefix ['m', '='] line with
      | some v =>
        match splitWhitespace v with
        | _ :: port :: proto :: payloads =>
          { out with mediaPort := parseU16 port, mediaProto := some proto, mediaPayloads := payloads }
        | _ => out
      | none =>
        match stripPrefix ['y', '='] line with
        | some v => { out with ssrc := some v }
        | none => out

/-- Source: `src/gb28181/sdp.rs`, `SdpInfo::parse_lossy` -/
def SdpInfo.parseLossy (sdp : List Char) : SdpInfo :=
  ((lines sdp).map trim).foldl parseLine ⟨none, none, none, none, [], none, sdp⟩

/-! ## The builders -/

/-- Source: `src/gb28181/sdp.rs`, `PlaySdpOptions` -/
structure PlaySdpOptions where
  ip : List Char
  port : UInt16
  ssrc : UInt32
  payloadType : UInt8
  deriving DecidableEq, Repr

/-- Source: `src/gb28181/sdp.rs`, `format_ssrc` -/
def formatSsrc (ssrc : UInt32) : List Char := zeroPadded 10 ssrc.toNat

/-- Source: `src/gb28181/sdp.rs`, `build_play_sdp` -/
def buildPlaySdp (opts : PlaySdpOptions) : List Char :=
  let ssrc := formatSsrc opts.ssrc
  let port := decimalText opts.port.toNat
  let payloadType := decimalText opts.payloadType.toNat
  "v=0\r\no=".toList ++ ssrc ++ " 0 0 IN IP4 ".toList ++ opts.ip ++
    "\r\ns=Play\r\nc=IN IP4 ".toList ++ opts.ip ++ "\r\nt=0 0\r\nm=video ".toList ++ port ++
    " RTP/AVP ".toList ++ payloadType ++ "\r\na=recvonly\r\na=rtpmap:".toList ++ payloadType ++
    " PS/90000\r\ny=".toList ++ ssrc ++ "\r\n".toList

/-- Source: `src/gb28181/sdp.rs`, `TalkAudioCodec` -/
inductive TalkAudioCodec
  | g711a
  | g711u
  | l16
  deriving DecidableEq, Repr

/-- Source: `src/gb28181/sdp.rs`, `TalkAudioCodec::rtpmap` -/
def TalkAudioCodec.rtpmap (codec : TalkAudioCodec) (payloadType : UInt8) : List Char :=
  match codec with
  | .g711a => decimalText payloadType.toNat ++ " PCMA/8000".toList
  | .g711u => decimalText payloadType.toNat ++ " PCMU/8000".toList
  | .l16 => decimalText payloadType.toNat ++ " L16/8000/1".toList

/-- Source: `src/gb28181/sdp.rs`, `TalkSdpMode` -/
inductive TalkSdpMode
  | sendRecv
  | sendOnly
  | recvOnly
  deriving DecidableEq, Repr

/-- Source: `src/gb28181/sdp.rs`, `TalkSdpMode::as_sdp_attr` -/
def TalkSdpMode.asSdpAttr : TalkSdpMode → List Char
  | .sendRecv => "sendrecv".toList
  | .sendOnly => "sendonly".toList
  | .recvOnly => "recvonly".toList

/-- Source: `src/gb28181/sdp.rs`, `TalkSdpOptions` -/
structure TalkSdpOptions where
  ip : List Char
  port : UInt16
  ssrc : UInt32
  payloadType : UInt8
  codec : TalkAudioCodec
  mode : TalkSdpMode
  deriving DecidableEq, Repr

/-- Source: `src/gb28181/sdp.rs`, `build_talk_sdp` -/
def buildTalkSdp (opts : TalkSdpOptions) : List Char :=
  let ssrc := formatSsrc opts.ssrc
  let port := decimalText opts.port.toNat
  let payloadType := decimalText opts.payloadType.toNat
  "v=0\r\no=".toList ++ ssrc ++ " 0 0 IN IP4 ".toList ++ opts.ip ++
    "\r\ns=Talk\r\nc=IN IP4 ".toList ++ opts.ip ++ "\r\nt=0 0\r\nm=audio ".toList ++ port ++
    " RTP/AVP ".toList ++ payloadType ++ "\r\na=".toList ++ opts.mode.asSdpAttr ++
    "\r\na=rtpmap:".toList ++ opts.codec.rtpmap opts.payloadType ++ "\r\ny=".toList ++ ssrc ++
    "\r\n".toList

/-! ## Reading one line -/

namespace SdpInfo

variable (out : SdpInfo) (v : List Char)

theorem parseLine_session : parseLine out ('s' :: '=' :: v) = { out with sessionName := some v } := rfl

theorem parseLine_connection :
    parseLine out ('c' :: '=' :: v) = { out with connectionAddr := (splitWhitespace v).getLast? } := rfl

theorem parseLine_media {v kind port proto : List Char} {payloads : List (List Char)}
    (h : splitWhitespace v = kind :: port :: proto :: payloads) :
    parseLine out ('m' :: '=' :: v) =
      { out with mediaPort := parseU16 port, mediaProto := some proto, mediaPayloads := payloads } := by
  show (match splitWhitespace v with
    | _ :: port :: proto :: payloads =>
      { out with mediaPort := parseU16 port, mediaProto := some proto, mediaPayloads := payloads }
    | _ => out) = _
  rw [h]

theorem parseLine_ssrc : parseLine out ('y' :: '=' :: v) = { out with ssrc := some v } := rfl

/-- The line of another key is skipped. -/
theorem parseLine_skipped (key : Char) (hkey : key ∉ ['s', 'c', 'm', 'y']) :
    parseLine out (key :: v) = out := by
  simp only [List.mem_cons, List.not_mem_nil, or_false, not_or] at hkey
  obtain ⟨hs, hc, hm, hy⟩ := hkey
  simp only [parseLine, stripPrefix, if_neg (Ne.symm hs), if_neg (Ne.symm hc), if_neg (Ne.symm hm),
    if_neg (Ne.symm hy)]

end SdpInfo

/-! ## The lines of an offer -/

/-- What an offer is about, and the words in which the two kinds of offer differ. -/
structure Offer where
  ip : List Char
  port : UInt16
  ssrc : UInt32
  payloadType : UInt8
  session : List Char
  media : List Char
  direction : List Char
  encoding : List Char

namespace Offer

/-- The lines of an offer, each by its key and the words behind it. -/
def lines (offer : Offer) : List (Char × List (List Char)) :=
  let ssrc := formatSsrc offer.ssrc
  let payloadType := decimalText offer.payloadType.toNat
  [('v', [['0']]), ('o', [ssrc, ['0'], ['0'], "IN".toList, "IP4".toList, offer.ip]),
   ('s', [offer.session]),
   ('c', ["IN".toList, "IP4".toList, offer.ip]),
   ('t', [['0'], ['0']]),
   ('m', [offer.media, decimalText offer.port.toNat, "RTP/AVP".toList, payloadType]),
   ('a', [offer.direction]),
   ('a', ["rtpmap:".toList ++ payloadType, offer.encoding]),
   ('y', [ssrc])]

/-- One line of the text. -/
def line (entry : Char × List (List Char)) : List Char := entry.1 :: '=' :: joinWords entry.2

/-- The text of an offer. -/
def text (offer : Offer) : List Char := crlf (offer.lines.map line)

/-- The parts that are not fixed are words. -/
structure Plain (offer : Offer) : Prop where
  ip : IsWord offer.ip
  session : IsWord offer.session
  media : IsWord offer.media
  direction : IsWord offer.direction
  encoding : IsWord offer.encoding

variable {offer : Offer}

theorem isWord_of_mem_lines (h : offer.Plain) :
    ∀ entry ∈ offer.lines, ∀ word ∈ entry.2, IsWord word := by
  have hfixed : IsWord ['0'] ∧ IsWord "IN".toList ∧ IsWord "IP4".toList ∧ IsWord "RTP/AVP".toList ∧
      IsWord "rtpmap:".toList := by decide
  obtain ⟨hzero, hin, hip4, hproto, hrtpmap⟩ := hfixed
  have hssrc : IsWord (formatSsrc offer.ssrc) := isWord_zeroPadded 10 offer.ssrc.toNat
  have hport := isWord_decimalText offer.port.toNat
  have hpayload := isWord_decimalText offer.payloadType.toNat
  simp only [lines, List.forall_mem_cons, List.not_mem_nil, false_implies, implies_true, and_true]
  exact ⟨hzero, ⟨hssrc, hzero, hzero, hin, hip4, h.ip⟩, h.session, ⟨hin, hip4, h.ip⟩, ⟨hzero, hzero⟩,
    ⟨h.media, hport, hproto, hpayload⟩, h.direction, ⟨hrtpmap.append hpayload.plain, h.encoding⟩, hssrc⟩

/-- A line holds no line feed and has no white space around it. -/
theorem trim_line {entry : Char × List (List Char)} (hkey : isWhitespace entry.1 = false)
    (hwords : ∀ word ∈ entry.2, IsWord word) : '\n' ∉ line entry ∧ trim (line entry) = line entry := by
  refine ⟨?_, trim_of_ends ?_ ?_⟩
  · intro hmem
    rcases List.mem_cons.mp hmem with heq | hrest
    · rw [← heq] at hkey
      exact absurd hkey (by decide)
    · exact notMem_joinWords hwords rfl (by decide) ((List.mem_cons.mp hrest).resolve_left (by decide))
  · rintro c ⟨⟩
    exact hkey
  · intro c hc
    rw [line, List.getLast?_cons_cons] at hc
    by_cases hnil : joinWords entry.2 = []
    · rw [hnil] at hc
      obtain rfl : '=' = c := Option.some.inj hc
      decide
    · rw [List.getLast?_cons_of_ne_nil hnil] at hc
      exact getLast?_joinWords hwords c hc

/-- The parser sees the lines of an offer as they were written. -/
theorem parseLossy_text (h : offer.Plain) : SdpInfo.parseLossy offer.text =
      (offer.lines.map line).foldl SdpInfo.parseLine
        ⟨none, none, none, none, [], none, offer.text⟩ := by
  have hkeys : ∀ entry ∈ offer.lines, isWhitespace entry.1 = false := by
    simp only [lines, List.forall_mem_cons, List.not_mem_nil, false_implies, implies_true, and_true]
    decide
  have hline := fun entry hmem =>
    trim_line (hkeys entry hmem) (isWord_of_mem_lines h entry hmem)
  have hlf : ∀ text ∈ offer.lines.map line, '\n' ∉ text :=
    List.forall_mem_map.mpr fun entry hmem => (hline entry hmem).1
  have htrim : (offer.lines.map line).map trim = offer.lines.map line := by
    rw [List.map_map]
    exact List.map_congr_left fun entry hmem => (hline entry hmem).2
  rw [SdpInfo.parseLossy, text, lines_crlf hlf, htrim]

/-- **An offer is read back.** -/
theorem parseLossy_eq (h : offer.Plain) : SdpInfo.parseLossy offer.text =
      { sessionName := some offer.session
        connectionAddr := some offer.ip
        mediaPort := some offer.port
        mediaProto := some "RTP/AVP".toList
        mediaPayloads := [decimalText offer.payloadType.toNat]
        ssrc := some (formatSsrc offer.ssrc)
        raw := offer.text } := by
  have hport : parseU16 (decimalText offer.port.toNat) = some offer.port := by
    rw [parseU16, parseUnsigned_decimalText offer.port.toNat_lt (by decide), Option.map_some,
      UInt16.ofNat_toNat]
  have hread := fun entry hmem => splitWhitespace_joinWords (isWord_of_mem_lines h entry hmem)
  have hconnection : splitWhitespace (joinWords ["IN".toList, "IP4".toList, offer.ip]) = _ :=
    hread _ (List.mem_of_getElem? (show offer.lines[3]? = some ('c', _) from rfl))
  have hmedia : splitWhitespace (joinWords [offer.media, decimalText offer.port.toNat,
      "RTP/AVP".toList, decimalText offer.payloadType.toNat]) = _ :=
    hread _ (List.mem_of_getElem? (show offer.lines[5]? = some ('m', _) from rfl))
  rw [parseLossy_text h]
  simp only [lines, List.map_cons, List.map_nil, List.foldl_cons, List.foldl_nil, line,
    SdpInfo.parseLine_session, SdpInfo.parseLine_connection, SdpInfo.parseLine_media _ hmedia,
    SdpInfo.parseLine_ssrc, SdpInfo.parseLine_skipped _ _ 'v' (by decide),
    SdpInfo.parseLine_skipped _ _ 'o' (by decide), SdpInfo.parseLine_skipped _ _ 't' (by decide),
    SdpInfo.parseLine_skipped _ _ 'a' (by decide), joinWords_singleton, hconnection, hport]
  rfl

/-- The text, written out. -/
theorem text_eq (offer : Offer) : offer.text =
      "v=0\r\no=".toList ++ (formatSsrc offer.ssrc ++ (" 0 0 IN IP4 ".toList ++ (offer.ip ++
      ("\r\ns=".toList ++ (offer.session ++ ("\r\nc=IN IP4 ".toList ++ (offer.ip ++
      ("\r\nt=0 0\r\nm=".toList ++ (offer.media ++ (' ' :: (decimalText offer.port.toNat ++
      (" RTP/AVP ".toList ++ (decimalText offer.payloadType.toNat ++ ("\r\na=".toList ++
      (offer.direction ++ ("\r\na=rtpmap:".toList ++ (decimalText offer.payloadType.toNat ++
      (' ' :: (offer.encoding ++ ("\r\ny=".toList ++ (formatSsrc offer.ssrc ++
      "\r\n".toList))))))))))))))))))))) := by
  unfold text lines crlf
  simp only [line, joinWords_cons_cons, joinWords_singleton, List.map_cons, List.map_nil,
    List.flatMap_cons, List.flatMap_nil]
  simp only [List.cons_append, List.append_assoc]
  rfl

end Offer

/-! ## The two builders -/

/-- What an offer built by `build_play_sdp` says. -/
def PlaySdpOptions.offer (opts : PlaySdpOptions) : Offer where
  ip := opts.ip
  port := opts.port
  ssrc := opts.ssrc
  payloadType := opts.payloadType
  session := "Play".toList
  media := "video".toList
  direction := "recvonly".toList
  encoding := "PS/90000".toList

theorem buildPlaySdp_eq (opts : PlaySdpOptions) : buildPlaySdp opts = opts.offer.text := by
  unfold buildPlaySdp
  rw [Offer.text_eq]
  simp only [List.append_assoc]
  rfl

theorem PlaySdpOptions.plain_offer {opts : PlaySdpOptions} (hip : IsWord opts.ip) :
    opts.offer.Plain where
  ip := hip
  session := (by decide : IsWord "Play".toList)
  media := (by decide : IsWord "video".toList)
  direction := (by decide : IsWord "recvonly".toList)
  encoding := (by decide : IsWord "PS/90000".toList)

/-- The name of the encoding, behind the payload type. -/
def TalkAudioCodec.encoding : TalkAudioCodec → List Char
  | .g711a => "PCMA/8000".toList
  | .g711u => "PCMU/8000".toList
  | .l16 => "L16/8000/1".toList

theorem TalkAudioCodec.rtpmap_eq (codec : TalkAudioCodec) (payloadType : UInt8) :
    codec.rtpmap payloadType = joinWords [decimalText payloadType.toNat, codec.encoding] := by
  cases codec <;> rw [joinWords_cons_cons, joinWords_singleton] <;> rfl

/-- What an offer built by `build_talk_sdp` says. -/
def TalkSdpOptions.offer (opts : TalkSdpOptions) : Offer where
  ip := opts.ip
  port := opts.port
  ssrc := opts.ssrc
  payloadType := opts.payloadType
  session := "Talk".toList
  media := "audio".toList
  direction := opts.mode.asSdpAttr
  encoding := opts.codec.encoding

theorem buildTalkSdp_eq (opts : TalkSdpOptions) : buildTalkSdp opts = opts.offer.text := by
  unfold buildTalkSdp
  rw [Offer.text_eq, TalkAudioCodec.rtpmap_eq, joinWords_cons_cons, joinWords_singleton]
  simp only [List.append_assoc]
  rfl

theorem TalkSdpOptions.plain_offer {opts : TalkSdpOptions} (hip : IsWord opts.ip) :
    opts.offer.Plain where
  ip := hip
  session := (by decide : IsWord "Talk".toList)
  media := (by decide : IsWord "audio".toList)
  direction := by
    show IsWord opts.mode.asSdpAttr
    cases opts.mode <;> decide
  encoding := by
    show IsWord opts.codec.encoding
    cases opts.codec <;> decide

/-! ## The round trip -/

/-- A description says this and nothing else. -/
structure SdpInfo.Describes (info : SdpInfo) (session ip : List Char) (port : UInt16) (ssrc : UInt32)
    (payloadType : UInt8) : Prop where
  sessionName : info.sessionName = some session
  connectionAddr : info.connectionAddr = some ip
  mediaPort : info.mediaPort = some port
  mediaProto : info.mediaProto = some "RTP/AVP".toList
  mediaPayloads : info.mediaPayloads = [decimalText payloadType.toNat]
  ssrc : ∃ digits, info.ssrc = some digits ∧ digits.length = 10 ∧ (∀ c ∈ digits, c.isDigit) ∧
    decimalValue 0 digits = ssrc.toNat

theorem Offer.describes {offer : Offer} (h : offer.Plain) :
    (SdpInfo.parseLossy offer.text).Describes offer.session offer.ip offer.port offer.ssrc
      offer.payloadType := by
  have hlength : (formatSsrc offer.ssrc).length = 10 :=
    length_zeroPadded (by decide) (offer.ssrc.toNat_lt.trans (by decide))
  rw [parseLossy_eq h]
  exact ⟨rfl, rfl, rfl, rfl, rfl, formatSsrc offer.ssrc, rfl, hlength,
    fun _ => isDigit_of_mem_zeroPadded, decimalValue_zeroPadded 10 _⟩

/-- **What the builders write, the parser reads.** For every address without white space, and for
every port, SSRC, payload type, codec and mode: the session name, the address, the port, the protocol
and the one payload type come back as they were given, and the SSRC in ten digits. -/
theorem parseLossy_reads_built {ip : List Char} (hne : ip ≠ [])
    (hip : ∀ c ∈ ip, isWhitespace c = false) (port : UInt16) (ssrc : UInt32) (payloadType : UInt8)
    (codec : TalkAudioCodec) (mode : TalkSdpMode) :
    (SdpInfo.parseLossy (buildPlaySdp ⟨ip, port, ssrc, payloadType⟩)).Describes "Play".toList ip port
        ssrc payloadType ∧
      (SdpInfo.parseLossy (buildTalkSdp ⟨ip, port, ssrc, payloadType, codec, mode⟩)).Describes
        "Talk".toList ip port ssrc payloadType := by
  rw [buildPlaySdp_eq, buildTalkSdp_eq]
  exact ⟨Offer.describes (PlaySdpOptions.plain_offer ⟨hne, hip⟩),
    Offer.describes (TalkSdpOptions.plain_offer ⟨hne, hip⟩)⟩

theorem parseLossy_reads_built_at_loopback :
    (SdpInfo.parseLossy (buildPlaySdp ⟨"127.0.0.1".toList, 6000, 42, 96⟩)).Describes "Play".toList
        "127.0.0.1".toList 6000 42 96 ∧
      (SdpInfo.parseLossy (buildTalkSdp ⟨"127.0.0.1".toList, 6000, 42, 96, .l16, .sendOnly⟩)).Describes
        "Talk".toList "127.0.0.1".toList 6000 42 96 :=
  have hip : IsWord "127.0.0.1".toList := by decide
  parseLossy_reads_built hip.ne_nil hip.plain 6000 42 96 .l16 .sendOnly

end GmvPjsip.Gb28181
