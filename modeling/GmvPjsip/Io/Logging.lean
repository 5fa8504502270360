import GmvPjsip.Framer.Message
import GmvPjsip.Lib.Escape
import Mathlib.Data.List.Infix

/-!
# What is logged of a packet

The socket layer logs every packet it takes in or gives out, each in one line: the packet is decoded to
a text, and the text is escaped by three replacements, one after another.

* `decodeSipPayload` decodes a packet. The body may be in another encoding than the header block.
* `escapeDecoded` is the three replacements, and `escapePayload` both together.
* `escapeDecoded_eq`: the replacements do what one pass over the text does; none of them touches what
  an earlier one wrote.
* `log_text_safe`: the log text is one line, and the decoded text can be read back from it.
-/

namespace GmvPjsip.Io

open GmvPjsip.Lib GmvPjsip.Framer

/-! ## The code -/

/-- What the libraries make of bytes: `String::from_utf8_lossy` of invalid ones, and the decoders
`GB18030` and `GBK`. -/
structure Decoders where
  replaced : List UInt8 → List Char
  gb18030 : List UInt8 → List Char
  gbk : List UInt8 → List Char

/-- Source: `io.rs`, `decode_sip_payload` -/
def decodeSipPayload (d : Decoders) (data : Bytes) : List Char :=
  match indexOfSlice crlfcrlf data with
  | none => fromUtf8Lossy d.replaced data
  | some headerEnd =>
    let bodyOffset := headerEnd + 4
    let decoded := fromUtf8Lossy d.replaced (data.take bodyOffset)
    let body := data.drop bodyOffset
    let declaration := (fromUtf8Lossy d.replaced (body.take 256)).map Char.toUpper
    let body :=
      if "GB18030".toList <:+: declaration then d.gb18030 body
      else if "GB2312".toList <:+: declaration ∨ "GBK".toList <:+: declaration then d.gbk body
      else fromUtf8Lossy d.replaced body
    decoded ++ body

/-- The replacements.
Source: `io.rs`, `escape_payload` -/
def escapeDecoded (decoded : List Char) : List Char :=
  replace '\n' ['\\', 'n'] (replace '\r' ['\\', 'r'] (replace '\\' ['\\', '\\'] decoded))

/-- Source: `io.rs`, `escape_payload` -/
def escapePayload (d : Decoders) (data : Bytes) : List Char := escapeDecoded (decodeSipPayload d data)

/-! ## One pass -/

/-- What is escaped in the log: the backslash, the carriage return and the line feed. -/
def logTable : EscapeTable Char where
  mark := '\\'
  letter c :=
    if c = '\\' then some '\\' else if c = '\r' then some 'r' else if c = '\n' then some 'n' else none
  meaning l := if l = 'r' then '\r' else if l = 'n' then '\n' else l
  meaning_letter := by
    intro c l h
    split_ifs at h with hbackslash hreturn hfeed
    · rw [hbackslash, ← Option.some.inj h]
      rfl
    · rw [hreturn, ← Option.some.inj h]
      rfl
    · rw [hfeed, ← Option.some.inj h]
      rfl
  letter_mark := by
    rw [if_pos rfl]
    exact Option.some_ne_none _

/-- What the later replacements make of what the first one writes for a character. -/
theorem replace_code (c : Char) :
    replace '\n' ['\\', 'n'] (replace '\r' ['\\', 'r'] (if c = '\\' then ['\\', '\\'] else [c])) =
      logTable.code c := by
  by_cases hbackslash : c = '\\'
  · -- two backslashes are left alone
    rw [if_pos hbackslash, hbackslash]
    rfl
  rw [if_neg hbackslash]
  by_cases hreturn : c = '\r'
  · -- what is written for a carriage return holds no line feed
    rw [hreturn]
    rfl
  by_cases hfeed : c = '\n'
  · rw [hfeed]
    rfl
  · simp [replace, EscapeTable.code, logTable, hbackslash, hreturn, hfeed]

/-- **Three replacements do what one pass does.** -/
theorem escapeDecoded_eq (decoded : List Char) : escapeDecoded decoded = logTable.escape decoded := by
  have hfirst : replace '\\' ['\\', '\\'] decoded =
      decoded.flatMap fun c => if c = '\\' then ['\\', '\\'] else [c] := rfl
  rw [escapeDecoded, hfirst, replace_flatMap, replace_flatMap, EscapeTable.escape]
  exact congrArg decoded.flatMap (funext replace_code)

theorem escapeDecoded_injective : Function.Injective escapeDecoded := by
  intro decoded other h
  rw [escapeDecoded_eq, escapeDecoded_eq] at h
  exact logTable.escape_injective h

/-- A line end is neither the mark nor a letter, so it does not occur. -/
theorem notMem_escapeDecoded {c : Char} (hc : c = '\r' ∨ c = '\n') (decoded : List Char) :
    c ∉ escapeDecoded decoded := by
  rw [escapeDecoded_eq]
  refine logTable.notMem_escape ?_ ?_ (fun b hb => ?_) decoded
  · rcases hc with rfl | rfl <;> decide
  · rcases hc with rfl | rfl <;> decide
  · -- the letters are a backslash, `r` and `n`
    simp only [logTable] at hb
    split_ifs at hb <;> rcases hc with rfl | rfl <;> exact absurd hb (by decide)

/-- **The log text is safe and can be read back.** It has no line end, so a packet cannot begin a line of
its own in the log, and texts that differ are logged differently. -/
theorem log_text_safe (decoded : List Char) :
    '\r' ∉ escapeDecoded decoded ∧ '\n' ∉ escapeDecoded decoded ∧
      logTable.unescape (escapeDecoded decoded) = decoded ∧
      ∀ other, escapeDecoded other = escapeDecoded decoded ↔ other = decoded := by
  refine ⟨notMem_escapeDecoded (Or.inl rfl) decoded, notMem_escapeDecoded (Or.inr rfl) decoded, ?_,
    fun other => escapeDecoded_injective.eq_iff⟩
  rw [escapeDecoded_eq]
  exact logTable.unescape_escape decoded

/-- Two packets are logged alike exactly if they are decoded alike. -/
theorem escapePayload_eq_iff (d : Decoders) (data other : Bytes) :
    escapePayload d data = escapePayload d other ↔ decodeSipPayload d data = decodeSipPayload d other :=
  escapeDecoded_injective.eq_iff

end GmvPjsip.Io
