import GmvPjsip.Auth.Message

/-!
# Received requests

What the shim reads of a request before it decides what to do with it.

* `Request` is a parsed request of any method; `fromUser` and `toUser` are its parties.
* `subjectContainsTarget_iff`: the search in the Subject header finds a target exactly when it occurs
  in the value.
-/

namespace GmvPjsip.Access

open GmvPjsip.Auth

/-- A received request: what REGISTER handling reads of it, the To URI, the value of the first
Subject header, the method name of the CSeq header and the branch of the topmost Via header. -/
structure Request where
  rx : RxData
  toUri : Option Uri
  subject : Option Bytes
  cseqMethod : Bytes
  viaBranch : Option Bytes
  deriving DecidableEq, Repr

/-- Source: `shim.c`, `gmv_from_user` -/
def fromUser (request : Request) : Bytes := sipUriUser request.rx.msg.fromUri

/-- Source: `shim.c`, `gmv_to_user` -/
def toUser (request : Request) : Bytes := sipUriUser request.toUri

/-- Whether a target occurs at some offset of the Subject value.
Source: `shim.c`, `gmv_subject_contains_target` -/
def subjectContainsTarget (request : Request) (targetId : Bytes) : Bool :=
  match request.subject with
  | none => false
  | some subject =>
    decide (targetId ≠ []) && decide (0 < subject.length) &&
      decide (targetId.length ≤ subject.length) &&
      (List.range (subject.length - targetId.length + 1)).any fun offset =>
        decide ((subject.drop offset).take targetId.length = targetId)

/-- The loop over the offsets finds the target where it is an infix of the value. -/
theorem any_offset_iff {subject targetId : Bytes} (hlen : targetId.length ≤ subject.length) :
    ((List.range (subject.length - targetId.length + 1)).any fun offset =>
      decide ((subject.drop offset).take targetId.length = targetId)) = true ↔
      targetId <:+: subject := by
  rw [List.any_eq_true]
  constructor
  · rintro ⟨offset, -, hfound⟩
    have hprefix : targetId <+: subject.drop offset := by
      rw [← of_decide_eq_true hfound]
      exact List.take_prefix _ _
    exact hprefix.isInfix.trans (List.drop_suffix _ _).isInfix
  · rintro ⟨before, after, rfl⟩
    refine ⟨before.length, List.mem_range.mpr ?_, decide_eq_true ?_⟩
    · simp only [List.length_append]
      omega
    · rw [List.append_assoc, List.drop_left, List.take_left]

/-- **The Subject search finds a target where it occurs.** -/
theorem subjectContainsTarget_iff {request : Request} {targetId : Bytes} (hnamed : targetId ≠ []) :
    subjectContainsTarget request targetId = true ↔
      ∃ subject, request.subject = some subject ∧ targetId <:+: subject := by
  unfold subjectContainsTarget
  rcases request.subject with _ | subject
  · simp
  · have hpos : 0 < targetId.length := List.length_pos_iff.mpr hnamed
    simp only [Bool.and_eq_true, decide_eq_true_eq, Option.some.injEq, exists_eq_left']
    constructor
    · rintro ⟨⟨-, hlen⟩, hany⟩
      exact (any_offset_iff hlen).mp hany
    · intro hinfix
      have hlen := hinfix.length_le
      exact ⟨⟨⟨hnamed, Nat.lt_of_lt_of_le hpos hlen⟩, hlen⟩, (any_offset_iff hlen).mpr hinfix⟩

end GmvPjsip.Access
