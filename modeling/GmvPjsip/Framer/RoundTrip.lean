import GmvPjsip.Framer.Message

/-!
# Framing round trip

`FramedMessage` is a message as a peer is meant to write it: a header block with exactly one
`Content-Length` line, the delimiter, and a body of the declared length. The body is arbitrary, so
it may hold delimiters and header lines of its own.

A buffer that starts with such a message gives it back whole, whatever follows
(`nextSipMessage_bytes_append`), so the extraction loop recovers a list of messages from their
concatenation (`extractLoop_flatMap_bytes`).
-/

namespace GmvPjsip.Framer

open GmvPjsip.Lib

/-- The line has the name `Content-Length`, in any letter case and immediately followed by a
colon. -/
def NamesContentLength (line : List Char) : Prop :=
  ∃ name value, line = name ++ ':' :: value ∧ eqIgnoreAsciiCase name contentLengthName

/-- A well-formed message. The header block is the UTF-8 encoding of `text`. -/
structure FramedMessage where
  /-- The header block, without the delimiter. -/
  text : List Char
  /-- The body. -/
  body : Bytes
  /-- The lines before the `Content-Length` line. -/
  before : List (List Char)
  /-- The lines behind it. -/
  after : List (List Char)
  /-- The name of the line, as the peer spells it. -/
  name : List Char
  /-- The blanks in front of the value. -/
  blanks : List Char
  /-- The value. -/
  digits : List Char
  /-- The blanks behind the value. -/
  trailing : List Char
  lines_eq : lines text = before ++ (name ++ ':' :: (blanks ++ (digits ++ trailing))) :: after
  name_eq : eqIgnoreAsciiCase name contentLengthName
  others : ∀ line ∈ before ++ after, ¬ NamesContentLength line
  blank : ∀ c ∈ blanks ++ trailing, c = ' ' ∨ c = '\t'
  digits_ne : digits ≠ []
  decimal : ∀ c ∈ digits, c.isDigit
  /-- The declared length is the length of the body. -/
  value : decimalValue 0 digits = body.length
  /-- The delimiter behind the header block is the first one: the header block neither contains
  one nor forms an earlier one with it. -/
  delimiter : ∀ i < (utf8 text).length, ¬ crlfcrlf <+: (utf8 text ++ crlfcrlf).drop i
  /-- The message fits the address space. -/
  fits : (utf8 text).length + 4 + body.length < usizeSize

namespace FramedMessage

/-- The message on the wire. -/
def bytes (m : FramedMessage) : Bytes := utf8 m.text ++ crlfcrlf ++ m.body

instance : Inhabited FramedMessage where
  default :=
    { text := "Content-length: 2".toList
      body := [13, 10]
      before := []
      after := []
      name := "Content-length".toList
      blanks := [' ']
      digits := ['2']
      trailing := []
      lines_eq := by decide
      name_eq := by decide
      others := by simp
      blank := by simp
      digits_ne := by decide
      decimal := by simp
      value := by decide
      delimiter := by decide
      fits := by decide }

variable (m : FramedMessage)

theorem length_bytes : m.bytes.length = (utf8 m.text).length + 4 + m.body.length := by
  have hfour : crlfcrlf.length = 4 := rfl
  rw [bytes, List.length_append, List.length_append, hfour]

/-! ## The declared length -/

/-- A name that spells `Content-Length` has no colon. -/
theorem colon_notMem_name {name : List Char} (h : eqIgnoreAsciiCase name contentLengthName) :
    ':' ∉ name := by
  intro hmem
  have heq : name.map Char.toLower = contentLengthName.map Char.toLower := by
    simpa [eqIgnoreAsciiCase] using h
  have hlow : ':' ∈ name.map Char.toLower := List.mem_map.mpr ⟨':', hmem, by decide⟩
  rw [heq] at hlow
  exact absurd hlow (by decide)

/-- A line with another name declares nothing. -/
theorem contentLengthLine_of_not_names {line : List Char} (h : ¬ NamesContentLength line) :
    contentLengthLine line = none := by
  unfold contentLengthLine
  rcases hs : splitOnce ':' line with _ | ⟨name, value⟩
  · rfl
  · have hline := eq_append_of_splitOnce hs
    have hname : ¬ eqIgnoreAsciiCase name contentLengthName := fun hn =>
      h ⟨name, value, hline, hn⟩
    simp [hname]

/-- The `Content-Length` line declares the length of the body. -/
theorem contentLengthLine_line :
    contentLengthLine (m.name ++ ':' :: (m.blanks ++ (m.digits ++ m.trailing))) =
      some m.body.length := by
  have hblank : ∀ c, c = ' ' ∨ c = '\t' → isWhitespace c := by
    rintro c (rfl | rfl) <;> decide
  have htrim : trim (m.blanks ++ (m.digits ++ m.trailing)) = m.digits := by
    rw [trim_append (fun c hc => hblank c (m.blank c (List.mem_append_left _ hc)))
      (fun c hc => hblank c (m.blank c (List.mem_append_right _ hc)))]
    exact trim_eq_self fun c hc => isWhitespace_of_isDigit (m.decimal c hc)
  have hfit : decimalValue 0 m.digits < usizeSize := by
    have := m.fits
    rw [m.value]
    omega
  unfold contentLengthLine
  rw [splitOnce_append (colon_notMem_name m.name_eq)]
  simp only [Option.bind_eq_bind, Option.bind_some, m.name_eq, if_true, htrim]
  rw [parseUsize_eq_some m.digits_ne m.decimal hfit, m.value]

/-- The header block declares the length of the body. -/
theorem contentLength_header : contentLength (utf8 m.text) = some m.body.length := by
  have hbefore : m.before.findSome? contentLengthLine = none := by
    rw [List.findSome?_eq_none_iff]
    exact fun line hl =>
      contentLengthLine_of_not_names (m.others line (List.mem_append_left _ hl))
  rw [contentLength, fromUtf8_utf8]
  simp only [Option.bind_eq_bind, Option.bind_some]
  rw [m.lines_eq, List.findSome?_append, hbefore, List.findSome?_cons, m.contentLengthLine_line]
  rfl

/-! ## Taking the message off a buffer -/

/-- The first delimiter stands right behind the header block. -/
theorem headerEnd_bytes_append (rest : Bytes) :
    headerEnd (m.bytes ++ rest) = some (utf8 m.text).length := by
  have hend : indexOfSlice crlfcrlf (utf8 m.text ++ crlfcrlf) = some (utf8 m.text).length := by
    refine indexOfSlice_eq_some crlfcrlf_ne_nil ?_ m.delimiter
    rw [List.drop_left]
  have hsplit : m.bytes ++ rest = (utf8 m.text ++ crlfcrlf) ++ (m.body ++ rest) := by
    simp [bytes]
  rw [headerEnd, hsplit]
  exact indexOfSlice_append crlfcrlf_ne_nil hend _

/-- The message length is the length of the message. -/
theorem messageLen_bytes_append (rest : Bytes) :
    messageLen (m.bytes ++ rest) (utf8 m.text).length = m.bytes.length := by
  have hheader : (m.bytes ++ rest).take (utf8 m.text).length = utf8 m.text := by
    simp [bytes]
  rw [messageLen, hheader, m.contentLength_header, m.length_bytes]
  rfl

/-- **A message in front of a buffer is taken off it whole**, in either arithmetic. -/
theorem nextSipMessage_bytes_append (ar : Arith) (rest : Bytes) :
    nextSipMessage ar (m.bytes ++ rest) = some (m.bytes, rest) := by
  have hfits : m.bytes.length < usizeSize := by
    rw [m.length_bytes]
    exact m.fits
  have husize : ar.usize (messageLen (m.bytes ++ rest) (utf8 m.text).length) = m.bytes.length := by
    rw [m.messageLen_bytes_append]
    cases ar with
    | exact => rfl
    | wrapping => exact Nat.mod_eq_of_lt hfits
  refine nextSipMessage_eq_some_iff.mpr
    ⟨(utf8 m.text).length, m.headerEnd_bytes_append rest, ?_, ?_, ?_⟩
  · rw [husize, List.length_append]
    omega
  · rw [husize, List.take_left]
  · rw [husize, List.drop_left]

end FramedMessage

/-- The extraction loop on a concatenation of messages, with one unit of fuel for each and one
for the call that finds none. -/
theorem extractLoop_flatMap_bytes (ar : Arith) (ms : List FramedMessage) {fuel : ℕ}
    (hfuel : ms.length < fuel) :
    extractLoop ar fuel (ms.flatMap FramedMessage.bytes) = some (ms.map FramedMessage.bytes, []) := by
  induction ms generalizing fuel with
  | nil =>
    obtain ⟨k, rfl⟩ : ∃ k, fuel = k + 1 := ⟨fuel - 1, by omega⟩
    rfl
  | cons m ms ih =>
    obtain ⟨k, rfl⟩ : ∃ k, fuel = k + 1 := ⟨fuel - 1, by omega⟩
    rw [List.length_cons] at hfuel
    rw [List.flatMap_cons, extractLoop, m.nextSipMessage_bytes_append]
    simp only
    rw [ih (by omega)]
    rfl

/-- **Framing round trip.** Fed with the concatenation of any finite list of well-formed messages,
the extraction loop terminates with exactly that list and an empty buffer, in the wrapping
arithmetic of a release build as in exact arithmetic. -/
theorem extractLoop_roundTrip (ar : Arith) (ms : List FramedMessage) : ∃ fuel₀, ∀ fuel ≥ fuel₀,
      extractLoop ar fuel (ms.flatMap FramedMessage.bytes) = some (ms.map FramedMessage.bytes, []) :=
  ⟨ms.length + 1, fun _ hfuel => extractLoop_flatMap_bytes ar ms (by omega)⟩

end GmvPjsip.Framer
