import Mathlib.Algebra.Ring.Int.Defs
import Mathlib.Algebra.Ring.Nat
import Mathlib.Data.List.Basic
import Mathlib.Tactic.Common

/-!
# Bytes, statuses and C strings

The vocabulary the shim and the socket layer share.

* `PjStatus` names the `pj_status_t` values the shim itself returns or compares with; whatever
  else a PJSIP call returns is `other`.
* `StringView` is `gmv_sip_string_view_t`. A `pj_str_t` and a NUL-terminated buffer are both
  modelled by their bytes; `pj_strcmp2` and `strcmp` are then equality of bytes, because a buffer
  is only ever filled through `copyView`, which refuses a NUL.
-/

namespace GmvPjsip

/-- A string of bytes: a `Vec<u8>`, a `pj_str_t`, or the contents of a C buffer. -/
abbrev Bytes := List UInt8

/-- A `pj_status_t`. -/
inductive PjStatus
  | success
  | epending
  | einval
  | enotfound
  | enomem
  | etoomany
  | ebusy
  | einvalidop
  | etoosmall
  | einvalidmsg
  | erxoverflow
  | eauthinvaliddigest
  | eauthaccnotfound
  | eshutdown
  | other (code : Int)
  deriving DecidableEq, Repr

/-- `gmv_sip_transport_t`. -/
inductive SipTransport
  | unknown
  | udp
  | tcp
  deriving DecidableEq, Repr

/-! ## String views -/

/-- `gmv_sip_string_view_t`: a null pointer with some length, or the bytes it points to. -/
inductive StringView
  | null (len : ℕ)
  | bytes (data : Bytes)
  deriving DecidableEq, Repr

/-- The `len` field. -/
def StringView.len : StringView → ℕ
  | .null len => len
  | .bytes data => data.length

/-- Copy a view into a buffer of `capacity` bytes: refused when the text and its NUL do not fit,
when the pointer is null or when the text holds a NUL.
Source: `shim.c`, `gmv_copy_view` -/
def copyView (capacity : ℕ) : StringView → Option Bytes
  | .null len => if len = 0 ∧ 0 < capacity then some [] else none
  | .bytes data => if data.length < capacity ∧ 0 ∉ data then some data else none

/-- What is copied from a `pj_str_t` is its text. -/
theorem copyView_bytes_eq_some {capacity : ℕ} {data out : Bytes}
    (h : copyView capacity (.bytes data) = some out) :
    out = data ∧ data.length < capacity ∧ 0 ∉ data := by
  simp only [copyView] at h
  split_ifs at h with hfit
  exact ⟨(Option.some.inj h).symm, hfit⟩

/-- What is copied fits the buffer. -/
theorem copyView_fits {capacity : ℕ} {view : StringView} {out : Bytes}
    (h : copyView capacity view = some out) : out.length < capacity ∧ 0 ∉ out := by
  cases view with
  | null =>
    simp only [copyView] at h
    split_ifs at h with hfit
    obtain rfl := Option.some.inj h
    exact ⟨hfit.2, List.not_mem_nil⟩
  | bytes =>
    obtain ⟨rfl, hfit⟩ := copyView_bytes_eq_some h
    exact hfit

/-! ## Case-insensitive comparison -/

/-- The lower-case form of an ASCII letter; other bytes are kept. -/
def toLowerAscii (b : UInt8) : UInt8 := if 65 ≤ b ∧ b ≤ 90 then b + 32 else b

/-- `pj_stricmp2(a, b) == 0`. -/
def stricmp (a b : Bytes) : Bool := a.map toLowerAscii = b.map toLowerAscii

@[simp] theorem stricmp_self (a : Bytes) : stricmp a a = true := by simp [stricmp]

/-- A byte of one text is, up to its case, a byte of the other. -/
theorem mem_map_of_stricmp {a b : Bytes} {c : UInt8} (h : stricmp a b) (hc : c ∈ a) :
    toLowerAscii c ∈ b.map toLowerAscii := by
  have heq : a.map toLowerAscii = b.map toLowerAscii := by simpa [stricmp] using h
  rw [← heq]
  exact List.mem_map_of_mem hc

theorem length_of_stricmp {a b : Bytes} (h : stricmp a b) : a.length = b.length := by
  have heq : a.map toLowerAscii = b.map toLowerAscii := by simpa [stricmp] using h
  simpa using congrArg List.length heq

end GmvPjsip
