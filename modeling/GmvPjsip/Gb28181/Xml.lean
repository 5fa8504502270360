import GmvPjsip.Lib.Delimited
import GmvPjsip.Lib.Words

/-!
# Control messages in XML

Control messages are built by pasting the arguments into a template, without escaping, and fields are
read by searching for their tags.

* `extractXmlValueLossy` reads a field; `buildSnapshotControlXml` builds the message that orders
  snapshots.
* `extract_eq_iff`: a field is read back exactly if its value does not hold its closing tag, where no
  opening tag comes before.
* `snapshot_fields_iff`: which arguments of a snapshot order are read back.
-/

namespace GmvPjsip.Gb28181

open GmvPjsip.Lib

/-! ## Reading a field -/

/-- `format!("<{tag}>")`. -/
def openTag (tag : List Char) : List Char := '<' :: (tag ++ ['>'])

/-- `format!("</{tag}>")`. -/
def closeTag (tag : List Char) : List Char := '<' :: (('/' :: tag) ++ ['>'])

/-- Source: `src/gb28181/xml.rs`, `extract_xml_value_lossy` -/
def extractXmlValueLossy (xml tag : List Char) : Option (List Char) := do
  let start := (← indexOfSlice (openTag tag) xml) + (openTag tag).length
  let stop ← indexOfSlice (closeTag tag) (xml.drop start)
  pure (trim ((xml.drop start).take stop))

/-- Source: `src/gb28181/xml.rs`, `cmd_type_lossy` -/
def cmdTypeLossy (xml : List Char) : Option (List Char) := extractXmlValueLossy xml "CmdType".toList

/-- Source: `src/gb28181/xml.rs`, `device_id_lossy` -/
def deviceIdLossy (xml : List Char) : Option (List Char) := extractXmlValueLossy xml "DeviceID".toList

/-- Source: `src/gb28181/xml.rs`, `session_id_lossy` -/
def sessionIdLossy (xml : List Char) : Option (List Char) := extractXmlValueLossy xml "SessionID".toList

section extract
variable {tag before value : List Char} (htag : '<' ∉ tag ∧ '>' ∉ tag)
include htag

/-- An opening tag is delimited by its brackets. -/
theorem delimited_openTag : Delimited '<' '>' (openTag tag) :=
  ⟨by decide, tag, rfl, htag.1, htag.2⟩

omit htag in
/-- It ends with its bracket. -/
theorem getLast?_openTag : (openTag tag).getLast? = some '>' :=
  List.getLast?_concat (l := '<' :: tag)

/-- So is a closing tag. -/
theorem delimited_closeTag : Delimited '<' '>' (closeTag tag) :=
  ⟨by decide, '/' :: tag, rfl, by simpa using htag.1, by simpa using htag.2⟩

variable (hbefore : ¬ openTag tag <:+: before)
include hbefore

/-- What stands between the first opening tag and the first closing tag behind it is read. -/
theorem extract_eq (hvalue : ¬ closeTag tag <:+: value) (after : List Char) :
    extractXmlValueLossy (before ++ (openTag tag ++ (value ++ (closeTag tag ++ after)))) tag =
      some (trim value) := by
  have hopen := (delimited_openTag htag).indexOfSlice_append hbefore (value ++ (closeTag tag ++ after))
  have hclose := (delimited_closeTag htag).indexOfSlice_append hvalue after
  have hdrop : (before ++ (openTag tag ++ (value ++ (closeTag tag ++ after)))).drop
      (before.length + (openTag tag).length) = value ++ (closeTag tag ++ after) := by
    rw [← List.append_assoc, ← List.length_append, List.drop_left]
  rw [extractXmlValueLossy, hopen]
  show ((indexOfSlice (closeTag tag) ((before ++ (openTag tag ++ (value ++ (closeTag tag ++ after)))).drop
    (before.length + (openTag tag).length))).bind fun stop => _) = _
  rw [hdrop, hclose, Option.bind_some, List.take_left]
  rfl

/-- A field is read back exactly if its value does not hold its closing tag. -/
theorem extract_eq_iff (after : List Char) :
    extractXmlValueLossy (before ++ (openTag tag ++ (value ++ (closeTag tag ++ after)))) tag =
      some (trim value) ↔ ¬ closeTag tag <:+: value := by
  refine ⟨fun hread hholds => ?_, fun hvalue => extract_eq htag hbefore hvalue after⟩
  obtain ⟨first, rest, rfl, hfirst⟩ := exists_first_infix (delimited_closeTag htag).ne_nil hholds
  have hcut : extractXmlValueLossy (before ++ (openTag tag ++ ((first ++ (closeTag tag ++ rest)) ++
      (closeTag tag ++ after)))) tag = some (trim first) := by
    rw [List.append_assoc, List.append_assoc]
    exact extract_eq htag hbefore hfirst _
  have hsame : trim first = trim (first ++ (closeTag tag ++ rest)) :=
    Option.some.inj (hcut.symm.trans hread)
  -- trimming keeps the closing tag, which the first part does not hold
  have hkept : closeTag tag <:+: trim (first ++ (closeTag tag ++ rest)) := by
    have htext : first ++ (closeTag tag ++ rest) = first ++ '<' :: (('/' :: tag) ++ '>' :: rest) := by
      simp [closeTag]
    rw [htext, trim_between rfl rfl]
    exact ⟨first.dropWhile isWhitespace, rest.rdropWhile isWhitespace, by simp [closeTag]⟩
  rw [← hsame] at hkept
  exact hfirst (hkept.trans (isInfix_trim first))

end extract

/-- An opening tag in front misleads: what is read for the field does not depend on its value, or holds
the field's own opening tag. So a field is read back, for every value without its closing tag, exactly if
no opening tag comes before it. -/
theorem extract_all_iff {tag before : List Char} (htag : '<' ∉ tag ∧ '>' ∉ tag)
    (after : List Char → List Char) :
    (∀ value, ¬ closeTag tag <:+: value →
      extractXmlValueLossy (before ++ (openTag tag ++ (value ++ (closeTag tag ++ after value)))) tag =
        some (trim value)) ↔ ¬ openTag tag <:+: before := by
  refine ⟨fun hall hholds => ?_, fun hbefore value hvalue => extract_eq htag hbefore hvalue _⟩
  have hletter : ∀ c : Char, c ≠ '<' → ¬ closeTag tag <:+: [c] := fun c hc h =>
    hc (List.mem_singleton.mp (h.subset List.mem_cons_self)).symm
  have hread : ∀ c : Char, c ≠ '<' → isWhitespace c = false → extractXmlValueLossy
      (before ++ (openTag tag ++ ([c] ++ (closeTag tag ++ after [c])))) tag = some [c] := by
    intro c hc hws
    rw [hall [c] (hletter c hc), trim_eq_self (by simpa using hws)]
  obtain ⟨front, back, rfl, hfront⟩ := exists_first_infix (delimited_openTag htag).ne_nil hholds
  by_cases hclose : closeTag tag <:+: back
  · -- the first field ends before the second one begins
    obtain ⟨inner, rest, rfl, hinner⟩ := exists_first_infix (delimited_closeTag htag).ne_nil hclose
    have hinside : ∀ text, extractXmlValueLossy ((front ++ (openTag tag ++ (inner ++ (closeTag tag ++
        rest)))) ++ text) tag = some (trim inner) := by
      intro text
      simp only [List.append_assoc]
      exact extract_eq htag hfront hinner _
    have hfirst := (hinside _).symm.trans (hread 'a' (by decide) rfl)
    have hsecond := (hinside _).symm.trans (hread 'b' (by decide) rfl)
    exact absurd (hfirst.symm.trans hsecond) (by decide)
  · -- it runs on into the second one
    have hopen : ¬ closeTag tag <:+: openTag tag := by
      intro h
      have hlength := h.length_le
      simp only [closeTag, openTag, List.length_cons, List.length_append] at hlength
      omega
    have hinner : ¬ closeTag tag <:+: back ++ (openTag tag ++ ['a']) := by
      rw [(delimited_closeTag htag).infix_append_of_head rfl,
        (delimited_closeTag htag).infix_append_of_getLast getLast?_openTag, not_or, not_or]
      exact ⟨hclose, hopen, hletter 'a' (by decide)⟩
    have hinside : extractXmlValueLossy ((front ++ (openTag tag ++ back)) ++ (openTag tag ++ (['a'] ++
        (closeTag tag ++ after ['a'])))) tag = some (trim (back ++ (openTag tag ++ ['a']))) := by
      have hcut := extract_eq htag hfront hinner (after ['a'])
      simp only [List.append_assoc] at hcut ⊢
      exact hcut
    have hmem : '<' ∈ trim (back ++ (openTag tag ++ ['a'])) := mem_trim rfl (by simp [openTag])
    rw [← Option.some.inj ((hread 'a' (by decide) rfl).symm.trans hinside)] at hmem
    exact absurd hmem (by decide)

/-! ## The order for snapshots -/

/-- A sequence number: eight characters drawn at random.

Source: `src/gb28181/xml.rs`, `next_sn` -/
structure Sn where
  text : List Char
  length : text.length = 8
  alphanumeric : ∀ c ∈ text, c.isAlphanum

/-- The arguments of `build_snapshot_control_xml`, and the sequence number it draws. -/
structure SnapshotOrder where
  sn : Sn
  channelId : List Char
  snapNum : UInt8
  interval : UInt8
  uploadUrl : List Char
  sessionId : List Char

/-- The template, line by line.

Source: `src/gb28181/xml.rs`, `build_snapshot_control_xml` -/
def buildSnapshotControlXml (o : SnapshotOrder) : List Char :=
  "<?xml version=\"1.0\"?>\r\n".toList ++
  "<Control>\r\n".toList ++
  "<CmdType>".toList ++ "DeviceConfig".toList ++ "</CmdType>".toList ++ "\r\n".toList ++
  "<SN>".toList ++ o.sn.text ++ "</SN>\r\n".toList ++
  "<DeviceID>".toList ++ o.channelId ++ "</DeviceID>".toList ++ "\r\n".toList ++
  "<SnapShotConfig>\r\n".toList ++
  "<SnapNum>".toList ++ decimalText o.snapNum.toNat ++ "</SnapNum>\r\n".toList ++
  "<Interval>".toList ++ decimalText o.interval.toNat ++ "</Interval>\r\n".toList ++
  "<UploadURL>".toList ++ o.uploadUrl ++ "</UploadURL>".toList ++ "\r\n".toList ++
  "<SessionID>".toList ++ o.sessionId ++ "</SessionID>".toList ++ "\r\n".toList ++
  "</SnapShotConfig>\r\n".toList ++
  "</Control>\r\n".toList

namespace SnapshotOrder

variable (o : SnapshotOrder)

/-- The text in front of the type of the command. -/
def beforeCmdType : List Char := "<?xml version=\"1.0\"?>\r\n".toList ++ "<Control>\r\n".toList

/-- The text in front of the sequence number. -/
def beforeSn : List Char :=
  beforeCmdType ++ (openTag "CmdType".toList ++ ("DeviceConfig".toList ++ (closeTag "CmdType".toList ++
    ("\r\n".toList ++ "<SN>".toList))))

/-- The text in front of the channel's field. -/
def beforeDevice : List Char := beforeSn ++ (o.sn.text ++ "</SN>\r\n".toList)

/-- The text between the channel's field and the number of snapshots. -/
def beforeNum : List Char := "\r\n".toList ++ ("<SnapShotConfig>\r\n".toList ++ "<SnapNum>".toList)

/-- The text between the number of snapshots and the interval. -/
def beforeInterval : List Char := "</SnapNum>\r\n".toList ++ "<Interval>".toList

/-- The text in front of the URL's field. -/
def beforeUrl : List Char :=
  (o.beforeDevice ++ openTag "DeviceID".toList) ++ (o.channelId ++ (closeTag "DeviceID".toList ++
    (beforeNum ++ (decimalText o.snapNum.toNat ++ (beforeInterval ++ (decimalText o.interval.toNat ++
    "</Interval>\r\n".toList))))))

/-- The text in front of the session's field. -/
def beforeSession : List Char :=
  (o.beforeUrl ++ openTag "UploadURL".toList) ++ (o.uploadUrl ++ (closeTag "UploadURL".toList ++
    "\r\n".toList))

/-- The document, cut at the session id. -/
theorem xml_session :
    ∃ after, buildSnapshotControlXml o = o.beforeSession ++ (openTag "SessionID".toList ++
      (o.sessionId ++ (closeTag "SessionID".toList ++ after))) := by
  have hcmd : "<CmdType>".toList = openTag "CmdType".toList := rfl
  have hcmd' : "</CmdType>".toList = closeTag "CmdType".toList := rfl
  have hdevice : "<DeviceID>".toList = openTag "DeviceID".toList := rfl
  have hdevice' : "</DeviceID>".toList = closeTag "DeviceID".toList := rfl
  have hurl : "<UploadURL>".toList = openTag "UploadURL".toList := rfl
  have hurl' : "</UploadURL>".toList = closeTag "UploadURL".toList := rfl
  have hsession : "<SessionID>".toList = openTag "SessionID".toList := rfl
  have hsession' : "</SessionID>".toList = closeTag "SessionID".toList := rfl
  unfold buildSnapshotControlXml beforeSession beforeUrl beforeInterval beforeNum beforeDevice beforeSn
    beforeCmdType
  rw [hcmd, hcmd', hdevice, hdevice', hurl, hurl', hsession, hsession']
  simp only [List.append_assoc]
  exact ⟨_, rfl⟩

/-- The document, cut at the upload URL. -/
theorem xml_url :
    ∃ after, buildSnapshotControlXml o = o.beforeUrl ++ (openTag "UploadURL".toList ++ (o.uploadUrl ++
      (closeTag "UploadURL".toList ++ after))) := by
  obtain ⟨after, hsession⟩ := o.xml_session
  rw [hsession]
  unfold beforeSession
  simp only [List.append_assoc]
  exact ⟨_, rfl⟩

/-- The document, cut at the device id. -/
theorem xml_device :
    ∃ after, buildSnapshotControlXml o = o.beforeDevice ++ (openTag "DeviceID".toList ++ (o.channelId ++
      (closeTag "DeviceID".toList ++ after))) := by
  obtain ⟨after, hurl⟩ := o.xml_url
  rw [hurl]
  unfold beforeUrl
  simp only [List.append_assoc]
  exact ⟨_, rfl⟩

/-- The document, cut at the command type. -/
theorem xml_cmdType : ∃ after, buildSnapshotControlXml o = beforeCmdType ++ (openTag "CmdType".toList ++
      ("DeviceConfig".toList ++ (closeTag "CmdType".toList ++ after))) := by
  obtain ⟨after, hdevice⟩ := o.xml_device
  rw [hdevice]
  unfold beforeDevice beforeSn
  simp only [List.append_assoc]
  exact ⟨_, rfl⟩

/-! ## Opening tags in front of a field -/

/-- The fixed texts in front of the channel's field. -/
def deviceTexts : List (List Char) := [beforeSn, "</SN>\r\n".toList]

/-- The fixed texts between the channel's field and the URL's field. -/
def urlTexts : List (List Char) :=
  [openTag "DeviceID".toList, closeTag "DeviceID".toList, beforeNum, beforeInterval,
   "</Interval>\r\n".toList]

/-- The fixed texts between the URL's field and the session's field. -/
def sessionTexts : List (List Char) :=
  [openTag "UploadURL".toList, closeTag "UploadURL".toList, "\r\n".toList]

section before
variable {tag : List Char} (htag : '<' ∉ tag ∧ '>' ∉ tag)

/-- A text without `<` has no tag. -/
theorem not_infix_of_notMem {text : List Char} (h : '<' ∉ text) : ¬ openTag tag <:+: text :=
  fun hholds => h (hholds.subset List.mem_cons_self)

include htag

variable (hdevice : ∀ text ∈ deviceTexts, ¬ openTag tag <:+: text)
include hdevice

/-- Nothing in front of the device id is taken for its tag. -/
theorem not_infix_beforeDevice : ¬ openTag tag <:+: o.beforeDevice := by
  have hsn : '<' ∉ o.sn.text := fun hmem => absurd (o.sn.alphanumeric '<' hmem) (by decide)
  simp only [deviceTexts, List.forall_mem_cons] at hdevice
  obtain ⟨hhead, hback, -⟩ := hdevice
  unfold beforeDevice
  rw [(delimited_openTag htag).infix_paste rfl rfl, not_or, not_or]
  exact ⟨hhead, not_infix_of_notMem hsn, hback⟩

variable (hurl : ∀ text ∈ urlTexts, ¬ openTag tag <:+: text)
include hurl

/-- Only the channel can bring a tag in front of the URL. -/
theorem infix_beforeUrl : openTag tag <:+: o.beforeUrl ↔ openTag tag <:+: o.channelId := by
  have hdigits : ∀ n, ¬ openTag tag <:+: decimalText n := fun n =>
    not_infix_of_notMem fun hmem => absurd (isDigit_of_mem_decimalText hmem) (by decide)
  have hbefore := o.not_infix_beforeDevice htag hdevice
  simp only [urlTexts, List.forall_mem_cons] at hurl
  obtain ⟨hopen, hclose, hnum, hinterval, hback, -⟩ := hurl
  have hcut := delimited_openTag htag
  unfold beforeUrl
  rw [hcut.infix_paste (by simp [openTag]) rfl, hcut.infix_append_of_head rfl,
    hcut.infix_append_of_getLast rfl, hcut.infix_paste rfl rfl, hcut.infix_paste rfl rfl]
  simp only [hbefore, hopen, hclose, hnum, hinterval, hback, hdigits, false_or, or_false]

/-- Only the channel and the URL can bring one in front of the session. -/
theorem infix_beforeSession (hsession : ∀ text ∈ sessionTexts, ¬ openTag tag <:+: text) :
    openTag tag <:+: o.beforeSession ↔
      openTag tag <:+: o.channelId ∨ openTag tag <:+: o.uploadUrl := by
  simp only [sessionTexts, List.forall_mem_cons] at hsession
  obtain ⟨hopen, hclose, hback, -⟩ := hsession
  have hcut := delimited_openTag htag
  unfold beforeSession
  rw [hcut.infix_paste (by simp [openTag]) rfl, hcut.infix_append_of_head rfl,
    hcut.infix_append_of_getLast rfl, o.infix_beforeUrl htag hdevice hurl]
  simp only [hopen, hclose, hback, or_false]

end before

/-! ## Which orders are read back -/

/-- The command type is always read back. -/
theorem cmdType_xml : cmdTypeLossy (buildSnapshotControlXml o) = some "DeviceConfig".toList := by
  have htag : '<' ∉ "CmdType".toList ∧ '>' ∉ "CmdType".toList := by decide
  have hbefore : ¬ openTag "CmdType".toList <:+: beforeCmdType := by decide +kernel
  have hvalue : ¬ closeTag "CmdType".toList <:+: "DeviceConfig".toList := by decide +kernel
  obtain ⟨after, hxml⟩ := o.xml_cmdType
  rw [cmdTypeLossy, hxml, extract_eq htag hbefore hvalue]
  rfl

/-- The device id is read back unless it closes its own tag. -/
theorem deviceId_xml_iff : deviceIdLossy (buildSnapshotControlXml o) = some (trim o.channelId) ↔
      ¬ closeTag "DeviceID".toList <:+: o.channelId := by
  have htag : '<' ∉ "DeviceID".toList ∧ '>' ∉ "DeviceID".toList := by decide
  have hbefore := o.not_infix_beforeDevice htag (by decide +kernel)
  obtain ⟨after, hxml⟩ := o.xml_device
  rw [deviceIdLossy, hxml]
  exact extract_eq_iff htag hbefore after

/-- The name of the tag has no brackets. -/
theorem uploadUrl_tag : '<' ∉ "UploadURL".toList ∧ '>' ∉ "UploadURL".toList := by decide

/-- Nor has this one. -/
theorem sessionId_tag : '<' ∉ "SessionID".toList ∧ '>' ∉ "SessionID".toList := by decide

/-- `infix_beforeUrl` for the tag of the URL. -/
theorem infix_url_iff :
    openTag "UploadURL".toList <:+: o.beforeUrl ↔ openTag "UploadURL".toList <:+: o.channelId :=
  o.infix_beforeUrl uploadUrl_tag (by decide +kernel) (by decide +kernel)

/-- `infix_beforeSession` for the tag of the session. -/
theorem infix_session_iff : openTag "SessionID".toList <:+: o.beforeSession ↔
      openTag "SessionID".toList <:+: o.channelId ∨ openTag "SessionID".toList <:+: o.uploadUrl :=
  o.infix_beforeSession sessionId_tag (by decide +kernel) (by decide +kernel) (by decide +kernel)

/-- The URL is read back unless it closes its own tag. -/
theorem url_xml_iff (h : ¬ openTag "UploadURL".toList <:+: o.channelId) :
    extractXmlValueLossy (buildSnapshotControlXml o) "UploadURL".toList = some (trim o.uploadUrl) ↔
      ¬ closeTag "UploadURL".toList <:+: o.uploadUrl := by
  have hbefore : ¬ openTag "UploadURL".toList <:+: o.beforeUrl := by
    rw [o.infix_url_iff]
    exact h
  obtain ⟨after, hxml⟩ := o.xml_url
  rw [hxml]
  exact extract_eq_iff uploadUrl_tag hbefore after

/-- Every other URL is read back exactly if the channel opens no such tag. -/
theorem url_xml_all_iff : (∀ url, ¬ closeTag "UploadURL".toList <:+: url →
      extractXmlValueLossy (buildSnapshotControlXml { o with uploadUrl := url }) "UploadURL".toList =
        some (trim url)) ↔ ¬ openTag "UploadURL".toList <:+: o.channelId := by
  have hxml : ∀ url, ∃ after, buildSnapshotControlXml { o with uploadUrl := url } = o.beforeUrl ++
      (openTag "UploadURL".toList ++ (url ++ (closeTag "UploadURL".toList ++ after))) :=
    fun url => ({ o with uploadUrl := url } : SnapshotOrder).xml_url
  choose after hafter using hxml
  rw [← o.infix_url_iff, ← extract_all_iff uploadUrl_tag after]
  exact forall₂_congr fun url _ => by rw [hafter url]

/-- The session id is read back unless it closes its own tag. -/
theorem sessionId_xml_iff (h : ¬ openTag "SessionID".toList <:+: o.channelId)
    (hurl : ¬ openTag "SessionID".toList <:+: o.uploadUrl) :
    sessionIdLossy (buildSnapshotControlXml o) = some (trim o.sessionId) ↔
      ¬ closeTag "SessionID".toList <:+: o.sessionId := by
  obtain ⟨after, hxml⟩ := o.xml_session
  have hbefore : ¬ openTag "SessionID".toList <:+: o.beforeSession := by
    rw [o.infix_session_iff, not_or]
    exact ⟨h, hurl⟩
  rw [sessionIdLossy, hxml]
  exact extract_eq_iff sessionId_tag hbefore after

/-- Every other id is, exactly if neither channel nor URL opens such a tag. -/
theorem sessionId_xml_all_iff : (∀ session, ¬ closeTag "SessionID".toList <:+: session →
      sessionIdLossy (buildSnapshotControlXml { o with sessionId := session }) = some (trim session)) ↔
      ¬ openTag "SessionID".toList <:+: o.channelId ∧
        ¬ openTag "SessionID".toList <:+: o.uploadUrl := by
  have hxml : ∀ session, ∃ after, buildSnapshotControlXml { o with sessionId := session } =
      o.beforeSession ++ (openTag "SessionID".toList ++ (session ++ (closeTag "SessionID".toList ++
        after))) :=
    fun session => ({ o with sessionId := session } : SnapshotOrder).xml_session
  choose after hafter using hxml
  rw [← not_or, ← o.infix_session_iff, ← extract_all_iff sessionId_tag after]
  exact forall₂_congr fun session _ => by rw [sessionIdLossy, hafter session]

end SnapshotOrder

/-- **Which snapshot orders are read back.** The type of the command always is. The channel is read back
exactly if it does not hold its own closing tag. The URL is, for every URL without its closing tag,
exactly if the channel does not hold the URL's opening tag; and then exactly such URLs are. The session is,
for every session without its closing tag, exactly if neither the channel nor the URL holds the session's
opening tag; and then exactly such sessions are. -/
theorem snapshot_fields_iff (o : SnapshotOrder) :
    cmdTypeLossy (buildSnapshotControlXml o) = some "DeviceConfig".toList ∧
    (deviceIdLossy (buildSnapshotControlXml o) = some (trim o.channelId) ↔
      ¬ closeTag "DeviceID".toList <:+: o.channelId) ∧
    ((∀ url, ¬ closeTag "UploadURL".toList <:+: url →
      extractXmlValueLossy (buildSnapshotControlXml { o with uploadUrl := url }) "UploadURL".toList =
        some (trim url)) ↔ ¬ openTag "UploadURL".toList <:+: o.channelId) ∧
    (¬ openTag "UploadURL".toList <:+: o.channelId →
      (extractXmlValueLossy (buildSnapshotControlXml o) "UploadURL".toList = some (trim o.uploadUrl) ↔
        ¬ closeTag "UploadURL".toList <:+: o.uploadUrl)) ∧
    ((∀ session, ¬ closeTag "SessionID".toList <:+: session →
      sessionIdLossy (buildSnapshotControlXml { o with sessionId := session }) = some (trim session)) ↔
      ¬ openTag "SessionID".toList <:+: o.channelId ∧ ¬ openTag "SessionID".toList <:+: o.uploadUrl) ∧
    (¬ openTag "SessionID".toList <:+: o.channelId → ¬ openTag "SessionID".toList <:+: o.uploadUrl →
      (sessionIdLossy (buildSnapshotControlXml o) = some (trim o.sessionId) ↔
        ¬ closeTag "SessionID".toList <:+: o.sessionId)) :=
  ⟨o.cmdType_xml, o.deviceId_xml_iff, o.url_xml_all_iff, o.url_xml_iff, o.sessionId_xml_all_iff,
    o.sessionId_xml_iff⟩

/-- A channel that ends its own field and brings one for the URL, and a URL that brings one for the
session. -/
def forged : SnapshotOrder where
  sn := ⟨"00000000".toList, rfl, List.all_eq_true.mp rfl⟩
  channelId := "a</DeviceID><UploadURL>x</UploadURL>".toList
  snapNum := 1
  interval := 1
  uploadUrl := "<SessionID>y</SessionID>".toList
  sessionId := "s".toList

/-- No field but the type of the command is read back. -/
theorem forged_fields : deviceIdLossy (buildSnapshotControlXml forged) = some ['a'] ∧
      extractXmlValueLossy (buildSnapshotControlXml forged) "UploadURL".toList = some ['x'] ∧
      sessionIdLossy (buildSnapshotControlXml forged) = some ['y'] ∧
      trim forged.channelId ≠ ['a'] ∧ trim forged.uploadUrl ≠ ['x'] ∧
      trim forged.sessionId ≠ ['y'] := by
  refine ⟨?_, ?_, ?_, ?_, ?_, ?_⟩ <;> decide +kernel

end GmvPjsip.Gb28181
