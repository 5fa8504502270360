import GmvPjsip.Lib.Memory
import GmvPjsip.Lib.Search
import GmvPjsip.Snapshots.RoundTrip

/-!
# The route set as one text

A route set goes from one side to the other as a single text, with line feeds between the routes. The
Rust side joins the routes and splits with `str::lines`; the shim splits a C string in a loop of its own.

* `routeLoop` is the loop, on a buffer in memory, and `walk` what it does to a list of routes.
* `routeLoop_eq`: on a buffer with a NUL behind its text the loop stays inside the buffer, ends, and walks
  the lines of the text that are not empty.
* `route_codec`: the loop walks the routes that were joined, and `str::lines` returns them.
-/

namespace GmvPjsip.Snapshots

open GmvPjsip.Lib GmvPjsip.Lib.Memory

/-! ## The loop of the shim -/

/-- What the loop did: the routes it handed to `pjsip_parse_hdr`, and whether the last one failed. -/
structure Walk where
  visited : List Bytes
  failed : Bool
  deriving DecidableEq, Repr

/-- One more route in front. -/
def Walk.cons (route : Bytes) (w : Walk) : Walk := { w with visited := route :: w.visited }

section
variable (parse : Bytes → Bool)

/-- The routes are visited in order, up to the first that does not parse. -/
def walk : List Bytes → Walk
  | [] => ⟨[], false⟩
  | route :: rest => if parse route then (walk rest).cons route else ⟨[route], true⟩

/-- The rest of a turn of the loop, from the route it found: parse it if it is not empty, and go on unless
it was the last. -/
def visit (buffer : Bytes) (cursor len : ℕ) (next : Option Walk) : Option Walk :=
  if 0 < len then do
    let route ← slice buffer cursor len
    if parse route then next.map (Walk.cons route) else some ⟨[route], true⟩
  else next

/-- The loop from a cursor, for at most `fuel` turns. A read outside of the buffer is `none`.

Source: `shim_dialog.inc`, `gmv_send_dialog_on_owner` -/
def routeLoop (buffer : Bytes) : ℕ → ℕ → Option Walk
  | 0, _ => none
  | fuel + 1, cursor => do
      let c ← load buffer cursor
      if c = 0 then some ⟨[], false⟩
      else match ← strchr buffer 0 10 cursor with
        | some stop => visit parse buffer cursor (stop - cursor) (routeLoop buffer fuel (stop + 1))
        | none => do
            let len ← strlen buffer 0 cursor
            visit parse buffer cursor len (some ⟨[], false⟩)

end

/-! ## What the loop does -/

section
variable {parse : Bytes → Bool} {buffer text rest : Bytes} {cursor fuel : ℕ}

/-- A line of the text is visited unless it is empty. -/
theorem visit_eq (h : buffer.drop cursor = text ++ rest) (hcursor : cursor ≤ buffer.length)
    (routes : List Bytes) :
    visit parse buffer cursor text.length (some (walk parse routes)) =
      some (walk parse (if text = [] then routes else text :: routes)) := by
  by_cases hnil : text = []
  · rw [if_pos hnil, hnil]
    rfl
  · rw [if_neg hnil, visit, if_pos (List.length_pos_iff.mpr hnil), slice_of_drop h hcursor, walk]
    show (if parse text then _ else _) = _
    split_ifs <;> rfl

theorem routeLines_append (line text : Bytes) (hline : 10 ∉ line) :
    Calls.routeLines (line ++ 10 :: text) =
      if line = [] then Calls.routeLines text else line :: Calls.routeLines text := by
  unfold Calls.routeLines
  rw [splitOn_append_cons hline]
  split_ifs with hnil
  · rw [List.filter_cons_of_neg (by simpa using hnil)]
  · rw [List.filter_cons_of_pos (by simpa using hnil)]

theorem routeLines_line {line : Bytes} (hline : 10 ∉ line) :
    Calls.routeLines line = if line = [] then [] else [line] := by
  unfold Calls.routeLines
  rw [splitOn_of_notMem hline]
  split_ifs with hnil
  · rw [List.filter_cons_of_neg (by simpa using hnil)]
    rfl
  · rw [List.filter_cons_of_pos (by simpa using hnil)]
    rfl

/-- A turn of the loop in front of a character that is not the NUL. -/
theorem routeLoop_succ {c : UInt8} (h : load buffer cursor = some c) (hc : c ≠ 0) :
    routeLoop parse buffer (fuel + 1) cursor = (strchr buffer 0 10 cursor).bind fun
      | some stop => visit parse buffer cursor (stop - cursor) (routeLoop parse buffer fuel (stop + 1))
      | none => (strlen buffer 0 cursor).bind fun len =>
        visit parse buffer cursor len (some ⟨[], false⟩) := by
  rw [routeLoop, h]
  exact if_neg hc

/-- On a buffer with a NUL behind its text the loop ends, stays inside, and visits the lines of the text
that are not empty. -/
theorem routeLoop_eq (h : buffer.drop cursor = text ++ 0 :: rest) (hnul : 0 ∉ text)
    (hfuel : text.length < fuel) :
    routeLoop parse buffer fuel cursor = some (walk parse (Calls.routeLines text)) := by
  induction fuel generalizing cursor text with
  | zero => exact absurd hfuel (Nat.not_lt_zero _)
  | succ fuel ih =>
    have hcursor : cursor ≤ buffer.length := by
      by_contra hpast
      rw [List.drop_eq_nil_of_le (by omega)] at h
      simp at h
    match text, h, hnul, hfuel with
    | [], h, _, _ =>
      rw [routeLoop, load_of_drop h]
      rfl
    | c :: text, h, hnul, hfuel =>
      have hc : c ≠ 0 := fun hzero => hnul (hzero ▸ List.mem_cons_self)
      rw [routeLoop_succ (load_of_drop h) hc]
      by_cases hlf : 10 ∈ c :: text
      · obtain ⟨line, after, heq, hline⟩ := List.eq_append_cons_of_mem hlf
        rw [heq] at h hnul hfuel ⊢
        rw [List.mem_append, List.mem_cons, not_or, not_or] at hnul
        rw [List.append_assoc] at h
        have hafter : buffer.drop (cursor + line.length + 1) = after ++ 0 :: rest :=
          drop_succ_of_drop (drop_add_of_drop h)
        have hshort : after.length < fuel := by
          rw [List.length_append, List.length_cons] at hfuel
          omega
        rw [strchr_found h hline hnul.1, Option.bind_some]
        show visit parse buffer cursor (cursor + line.length - cursor) _ = _
        rw [Nat.add_sub_cancel_left, ih hafter hnul.2.2 hshort, visit_eq h hcursor,
          routeLines_append line after hline]
      · rw [strchr_missing h hlf hnul (by decide), Option.bind_some]
        show (strlen buffer 0 cursor).bind _ = _
        rw [strlen_of_drop h hnul, Option.bind_some, routeLines_line hlf]
        exact visit_eq h hcursor []

/-- All routes that parse are visited. -/
theorem walk_visited {routes : List Bytes} (h : ∀ route ∈ routes, parse route) :
    walk parse routes = ⟨routes, false⟩ := by
  induction routes with
  | nil => rfl
  | cons route routes ih =>
    obtain ⟨hroute, hrest⟩ := List.forall_mem_cons.mp h
    rw [walk, if_pos hroute, ih hrest]
    rfl

/-- The loop fails exactly if a route does not parse. -/
theorem walk_failed (routes : List Bytes) : (walk parse routes).failed = !routes.all parse := by
  induction routes with
  | nil => rfl
  | cons route routes ih =>
    rw [walk, List.all_cons]
    split_ifs with hroute
    · rw [hroute, Bool.true_and]
      exact ih
    · rw [Bool.eq_false_iff.mpr hroute]
      rfl

/-- The loop returns early exactly where `Calls.prepareRestored` refuses the routes. -/
theorem routeLoop_failed (h : buffer.drop cursor = text ++ 0 :: rest) (hnul : 0 ∉ text)
    (hfuel : text.length < fuel) :
    (routeLoop parse buffer fuel cursor).map Walk.failed =
      some (!(Calls.routeLines text).all parse) := by
  rw [routeLoop_eq h hnul hfuel, Option.map_some, walk_failed]

end

/-! ## Joined and split -/

/-- A snapshot that is taken from an event splits the route set of the event into its lines. -/
theorem routeSet_of_copyDialogSnapshot {std : StdLib} {event : SipEvent} {s : SipDialogSnapshot}
    (h : copyDialogSnapshot std event = some s) :
    s.routeSet = ((copyStringView std event.dialogRouteSet).map lines).getD [] := by
  unfold copyDialogSnapshot at h
  split_ifs at h
  simp only [bind, Option.bind_eq_some_iff] at h
  obtain ⟨_, -, _, -, _, -, _, -, _, -, _, -, _, -, _, -, _, -, h⟩ := h
  exact (Option.some.inj h) ▸ rfl

/-- **The two sides agree on route sets.** For routes that are not empty and hold no NUL, CR or LF, and
that fit the buffer of a command when they are joined: the text that `send_restored_dialog_request` makes
of them is copied into the buffer, the loop of the shim visits exactly these routes in order, whatever
lies behind the text, and stops early only at a route that does not parse; and a snapshot taken of an
event with the same text has these routes again. -/
theorem route_codec (std : StdLib) (request : SipRestoredDialogRequest)
    (hroutes : ∀ route ∈ request.snapshot.routeSet, route ≠ [] ∧ hasSeparator route = false)
    (hlength : (utf8 (['\n'].intercalate request.snapshot.routeSet)).length < routeSetCapacity) :
    ∃ text, copyView routeSetCapacity (ffiRequest request).routeSet = some text ∧
      (∀ parse rest, routeLoop parse (text ++ 0 :: rest) routeSetCapacity 0 =
        some (walk parse (request.snapshot.routeSet.map utf8))) ∧
      (∀ parse, (∀ route ∈ request.snapshot.routeSet, parse (utf8 route)) →
        walk parse (request.snapshot.routeSet.map utf8) = ⟨request.snapshot.routeSet.map utf8, false⟩) ∧
      ((copyStringView std (bytesView text)).map lines).getD [] = request.snapshot.routeSet ∧
      ∀ event s, event.dialogRouteSet = bytesView text → copyDialogSnapshot std event = some s →
        s.routeSet = request.snapshot.routeSet := by
  have hplain : ∀ route ∈ request.snapshot.routeSet, route ≠ [] ∧ Plain (utf8 route) :=
    fun route hroute => ⟨(hroutes route hroute).1, hasSeparator_eq_false.mp (hroutes route hroute).2⟩
  have hbytes : ∀ route ∈ request.snapshot.routeSet.map utf8, route ≠ [] ∧ Plain route :=
    List.forall_mem_map.mpr fun route hroute =>
      ⟨mt utf8_eq_nil.mp (hplain route hroute).1, (hplain route hroute).2⟩
  have hjoin : utf8 (['\n'].intercalate request.snapshot.routeSet) =
      [10].intercalate (request.snapshot.routeSet.map utf8) := utf8_intercalate ['\n'] _
  have hnul : 0 ∉ utf8 (['\n'].intercalate request.snapshot.routeSet) := by
    rw [hjoin]
    refine notMem_intercalate (by decide) fun route hroute hmem => ?_
    exact absurd ((hbytes route hroute).2 0 hmem) (by decide)
  have hlines := lines_copied std hplain
  rw [← copyStringView_bytesView] at hlines
  refine ⟨_, if_pos ⟨hlength, hnul⟩, fun parse rest => ?_, fun parse hparse => ?_, hlines, ?_⟩
  · rw [routeLoop_eq (List.drop_zero) hnul hlength, hjoin, routeLines_join hbytes]
  · exact walk_visited (List.forall_mem_map.mpr hparse)
  · intro event s hevent hs
    rw [routeSet_of_copyDialogSnapshot hs, hevent]
    exact hlines

/-- Two routes, with something left over in the buffer. -/
theorem route_codec_two_routes :
    ∃ text, copyView routeSetCapacity (ffiRequest (sampleBye ['b'] [['p'], ['q']])).routeSet = some text ∧
      routeLoop (fun _ => true) (text ++ [0, 7]) routeSetCapacity 0 =
        some ⟨[utf8 ['p'], utf8 ['q']], false⟩ := by
  obtain ⟨text, hcopy, hloop, hwalk, -⟩ := route_codec plainStd (sampleBye ['b'] [['p'], ['q']])
    (by decide) (by decide)
  refine ⟨text, hcopy, ?_⟩
  rw [hloop, hwalk _ fun _ _ => rfl]
  rfl

end GmvPjsip.Snapshots
