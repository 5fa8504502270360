import GmvPjsip.Lib.Words

/-!
# Reading `From` and `To`

The helpers that take the URI and the tag out of a header value search the whole text for single
characters. Neither knows about quotes, and the one for parameters does not know about brackets.

* `extractUri`, `extractParam` and `extractTag` are the helpers.
* `Header` is a header value by its parts, and `Header.text` its text.
* `ReadsTag piece value`: a piece of text reads as a tag. `Header.decoys` are the pieces that
  `extract_tag` looks at before it comes to the tag of the header.
* `extractTag_right_iff` and `extractUri_right_iff`: the condition on a header under which each helper
  reads it right. `helpers_right_iff` puts them together, and `display_and_uri_mislead` has headers that
  are misread.
-/

namespace GmvPjsip.Message

open GmvPjsip.Lib

/-! ## The helpers -/

/-- The name and the value of one piece.

Source: `src/message.rs`, `extract_param` -/
def readParam (part : List Char) : List Char × List Char :=
  let fields := (splitOnce '=' (trim part)).getD (trim part, [])
  (trim fields.1, trimMatches '"' (trim fields.2))

/-- The value of a piece that has the name.

Source: `src/message.rs`, `extract_param` -/
def matchParam (key part : List Char) : Option (List Char) :=
  if eqIgnoreAsciiCase (readParam part).1 key then some (readParam part).2 else none

/-- Source: `src/message.rs`, `extract_param` -/
def extractParam (value key : List Char) : Option (List Char) :=
  ((value.splitOn ';').drop 1).findSome? (matchParam key)

def tagKey : List Char := "tag".toList

/-- Source: `src/message.rs`, `extract_tag` -/
def extractTag (value : List Char) : Option (List Char) := extractParam value tagKey

/-- What is taken for the URI of a value without a pair of brackets.

Source: `src/message.rs`, `extract_uri` -/
def bareUri (value : List Char) : Option (List Char) :=
  let uri := trim (value.take ((find ';' value).getD value.length))
  if uri = [] then none else some uri

/-- Source: `src/message.rs`, `extract_uri` -/
def extractUri (value : List Char) : Option (List Char) :=
  let value := trim value
  match find '<' value, find '>' value with
  | some start, some stop =>
    if stop > start + 1 then some (trim ((value.drop (start + 1)).take (stop - (start + 1))))
    else bareUri value
  | _, _ => bareUri value

/-! ## Header values -/

/-- A quoted display name, and the white space behind it. -/
structure Display where
  name : List Char
  plain : '"' ∉ name ∧ '\\' ∉ name
  gap : Blanks

/-- The value of a parameter. -/
inductive ParamValue
  | token (text : List Char) (plain : ∀ c ∈ text, isWhitespace c = false ∧ c ≠ ';' ∧ c ≠ '"')
  | quoted (text : List Char) (plain : '"' ∉ text ∧ '\\' ∉ text)

/-- A header parameter, with the white space that is allowed around its name and its value. -/
structure Param where
  lead : Blanks
  name : List Char
  isWord : IsWord name
  plain : ';' ∉ name ∧ '=' ∉ name
  trail : Blanks
  value : Option (Blanks × ParamValue × Blanks)

/-- A value of `From` or `To`. -/
structure Header where
  display : Option Display
  uri : List Char
  ne_nil : uri ≠ []
  plain : '<' ∉ uri ∧ '>' ∉ uri
  params : List Param

namespace ParamValue

/-- A value as it is written. -/
def text : ParamValue → List Char
  | token text _ => text
  | quoted text _ => '"' :: (text ++ ['"'])

/-- A value as it is meant. -/
def content : ParamValue → List Char
  | token text _ => text
  | quoted text _ => text

end ParamValue

namespace Param

/-- What stands behind the name. -/
def tail (p : Param) : List Char :=
  match p.value with
  | none => []
  | some (lead, value, trail) => '=' :: (lead.val ++ (value.text ++ trail.val))

/-- A parameter as it is written. -/
def text (p : Param) : List Char := p.lead.val ++ (p.name ++ (p.trail.val ++ p.tail))

/-- The value of a parameter, which is empty for one without. -/
def content (p : Param) : List Char :=
  match p.value with
  | none => []
  | some (_, value, _) => value.content

/-- The value of a parameter that is the tag. Names do not depend on the letter case. -/
def tag (p : Param) : Option (List Char) :=
  if eqIgnoreAsciiCase p.name tagKey then some p.content else none

end Param

/-- The tag of a header: the value of the parameter of that name. -/
def tagOf (params : List Param) : Option (List Char) := params.findSome? Param.tag

/-- A display name as it is written. -/
def Display.text (display : Display) : List Char := '"' :: (display.name ++ '"' :: display.gap.val)

namespace Header

/-- The text in front of the parameters. -/
def front (h : Header) : List Char :=
  ((h.display.map Display.text).getD []) ++ '<' :: (h.uri ++ ['>'])

/-- A header value as it is written. -/
def text (h : Header) : List Char := h.front ++ h.params.flatMap fun p => ';' :: p.text

end Header

/-! ## Pieces, read -/

/-- A piece of text reads as a tag: its name, without the white space around it, is `tag` in any letter
case. Its value is what stands behind the first equals sign, without white space and quotes around it,
and nothing if there is no such sign. -/
def ReadsTag (piece value : List Char) : Prop :=
  ∃ name, '=' ∉ name ∧ eqIgnoreAsciiCase (trim name) tagKey ∧ (piece = name ∧ value = [] ∨
      ∃ rest, piece = name ++ '=' :: rest ∧ value = trimMatches '"' (trim rest))

variable {name value uri : List Char}

/-- A piece is cut at its first equals sign, and white space around either half does not show. -/
theorem readParam_cut (hname : '=' ∉ name) (rest : List Char) :
    readParam (name ++ '=' :: rest) = (trim name, trimMatches '"' (trim rest)) := by
  have hfront : '=' ∉ name.dropWhile isWhitespace := fun hmem =>
    hname ((List.dropWhile_suffix _).subset hmem)
  have htrim : trim (name ++ '=' :: rest) =
      name.dropWhile isWhitespace ++ '=' :: rest.rdropWhile isWhitespace := by
    rw [trim, List.dropWhile_append]
    split_ifs with hempty
    · rw [List.isEmpty_iff.mp hempty]
      exact rdropWhile_append_cons rfl [] rest
    · exact rdropWhile_append_cons rfl _ rest
  rw [readParam, htrim, splitOnce_append hfront, Option.getD_some, trim_dropWhile, trim_rdropWhile]

/-- A piece without an equals sign is a name. -/
theorem readParam_name {piece : List Char} (h : '=' ∉ piece) : readParam piece = (trim piece, []) := by
  have htrim : '=' ∉ trim piece := fun hmem => h (mem_of_mem_trim hmem)
  rw [readParam, splitOnce_eq_none htrim, Option.getD_none, trim_trim]
  rfl

/-- `extract_param` takes a tag from the pieces that read as one. -/
theorem matchParam_eq_some_iff {piece : List Char} :
    matchParam tagKey piece = some value ↔ ReadsTag piece value := by
  rw [matchParam, Option.ite_none_right_eq_some, Option.some.injEq]
  by_cases hmem : '=' ∈ piece
  · obtain ⟨name, rest, rfl, hname⟩ := List.eq_append_cons_of_mem hmem
    rw [readParam_cut hname]
    constructor
    · rintro ⟨hkey, rfl⟩
      exact ⟨name, hname, hkey, Or.inr ⟨rest, rfl, rfl⟩⟩
    · rintro ⟨name', hname', hkey, ⟨rfl, -⟩ | ⟨rest', hcut, rfl⟩⟩
      · exact absurd hmem hname'
      · obtain ⟨rfl, rfl⟩ := (append_cons_inj hname hname').mp hcut
        exact ⟨hkey, rfl⟩
  · rw [readParam_name hmem]
    constructor
    · rintro ⟨hkey, rfl⟩
      exact ⟨piece, hmem, hkey, Or.inl ⟨rfl, rfl⟩⟩
    · rintro ⟨name, -, hkey, ⟨rfl, rfl⟩ | ⟨rest, rfl, -⟩⟩
      · exact ⟨hkey, rfl⟩
      · exact absurd (List.mem_append_right _ List.mem_cons_self) hmem

/-! ## Parameters, read -/

namespace ParamValue

theorem trim_text (value : ParamValue) : trim value.text = value.text := by
  cases value with
  | token text plain => exact trim_eq_self fun c hc => (plain c hc).1
  | quoted text =>
    show trim (('"' :: text) ++ '"' :: []) = _
    refine trim_append_cons ?_ rfl []
    rintro d ⟨⟩
    rfl

theorem trimMatches_text (value : ParamValue) : trimMatches '"' value.text = value.content := by
  cases value with
  | token text plain => exact trimMatches_eq_self fun hmem => (plain '"' hmem).2.2 rfl
  | quoted text plain => exact trimMatches_surround plain.1

theorem semicolon_notMem_text {value : ParamValue} (h : ';' ∉ value.content) : ';' ∉ value.text := by
  cases value with
  | token => exact h
  | quoted => simpa [ParamValue.text, ParamValue.content] using h

end ParamValue

namespace Param

variable (p : Param)

/-- The name is read whatever stands behind the equals sign. -/
theorem readParam_append (rest : List Char) :
    readParam (p.lead.val ++ (p.name ++ (p.trail.val ++ '=' :: rest))) =
      (p.name, trimMatches '"' (trim rest)) := by
  have hname : trim (p.lead.val ++ (p.name ++ p.trail.val)) = p.name := by
    rw [trim_append p.lead.property p.trail.property, trim_eq_self p.isWord.plain]
  have hequals : '=' ∉ p.lead.val ++ (p.name ++ p.trail.val) := by
    simp only [List.mem_append, not_or]
    exact ⟨notMem_blanks rfl p.lead, p.plain.2, notMem_blanks rfl p.trail⟩
  have hcut : p.lead.val ++ (p.name ++ (p.trail.val ++ '=' :: rest)) =
      (p.lead.val ++ (p.name ++ p.trail.val)) ++ '=' :: rest := by simp
  rw [hcut, readParam_cut hequals, hname]

/-- A parameter is read as it is meant. -/
theorem readParam_text : readParam p.text = (p.name, p.content) := by
  unfold text tail content
  match p.value with
  | none =>
    have hname : trim (p.lead.val ++ (p.name ++ (p.trail.val ++ []))) = p.name := by
      rw [List.append_nil, trim_append p.lead.property p.trail.property, trim_eq_self p.isWord.plain]
    rw [readParam, hname, splitOnce_eq_none p.plain.2, Option.getD_none, trim_eq_self p.isWord.plain]
    rfl
  | some (lead, value, trail) =>
    rw [readParam_append, trim_append lead.property trail.property, value.trim_text,
      value.trimMatches_text]

/-- What is read off the pieces of one parameter. -/
def read : Option (List Char) := (p.text.splitOn ';').findSome? (matchParam tagKey)

theorem semicolon_notMem_text (h : ';' ∉ p.content) : ';' ∉ p.text := by
  have htail : ';' ∉ p.tail := by
    match hvalue : p.value with
    | none =>
      rw [tail, hvalue]
      exact List.not_mem_nil
    | some (lead, value, trail) =>
      rw [content, hvalue] at h
      rw [tail, hvalue]
      simp only [List.mem_cons, List.mem_append, not_or]
      exact ⟨by decide, notMem_blanks rfl lead, ParamValue.semicolon_notMem_text h,
        notMem_blanks rfl trail⟩
  simp only [text, List.mem_append, not_or]
  exact ⟨notMem_blanks rfl p.lead, p.plain.1, notMem_blanks rfl p.trail, htail⟩

/-- A parameter is one piece, or it is cut inside its quoted value. -/
theorem splitOn_text : (';' ∉ p.content ∧ p.text.splitOn ';' = [p.text]) ∨
      ∃ first rest, p.text.splitOn ';' = first :: rest ∧ (readParam first).1 = p.name ∧
        ';' ∉ (readParam first).2 ∧ ';' ∈ p.content := by
  by_cases hmem : ';' ∈ p.content
  · right
    match hvalue : p.value with
    | none =>
      rw [content, hvalue] at hmem
      exact absurd hmem List.not_mem_nil
    | some (lead, .token text plain, trail) =>
      rw [content, hvalue] at hmem
      exact absurd rfl (plain ';' hmem).2.1
    | some (lead, .quoted text plain, trail) =>
      have hsemi : ';' ∈ text := by
        rw [content, hvalue] at hmem
        exact hmem
      obtain ⟨before, after, rfl, hbefore⟩ := List.eq_append_cons_of_mem hsemi
      have hcut : p.text = (p.lead.val ++ (p.name ++ (p.trail.val ++ '=' ::
          (lead.val ++ '"' :: before)))) ++ ';' :: (after ++ '"' :: trail.val) := by
        simp [Param.text, tail, hvalue, ParamValue.text]
      have hfree : ';' ∉ lead.val ++ '"' :: before := by
        simpa using ⟨notMem_blanks rfl lead, hbefore⟩
      have hfirst : ';' ∉ p.lead.val ++ (p.name ++ (p.trail.val ++ '=' ::
          (lead.val ++ '"' :: before))) := by
        simp only [List.mem_append, List.mem_cons, not_or] at hfree ⊢
        exact ⟨notMem_blanks rfl p.lead, p.plain.1, notMem_blanks rfl p.trail, by decide, hfree⟩
      refine ⟨_, _, hcut ▸ splitOn_append_cons hfirst _, ?_, ?_, hmem⟩
      · rw [readParam_append]
      · rw [readParam_append]
        exact fun h => hfree (mem_of_mem_trim (mem_of_mem_trimMatches h))
  · exact Or.inl ⟨hmem, splitOn_of_notMem (p.semicolon_notMem_text hmem)⟩

/-- The parameter is the tag. -/
def IsTag : Prop := eqIgnoreAsciiCase p.name tagKey

instance : Decidable p.IsTag := inferInstanceAs (Decidable (_ = true))

/-- The first piece of a parameter that is not the tag does not read as one, so that only those behind
its semicolons count. -/
theorem read_of_not_isTag (h : ¬p.IsTag) :
    p.read = ((p.text.splitOn ';').drop 1).findSome? (matchParam tagKey) := by
  have hfirst : ∃ first rest, p.text.splitOn ';' = first :: rest ∧ (readParam first).1 = p.name := by
    rcases p.splitOn_text with ⟨-, hone⟩ | ⟨first, rest, hcut, hname, -, -⟩
    · exact ⟨p.text, [], hone, by rw [readParam_text]⟩
    · exact ⟨first, rest, hcut, hname⟩
  obtain ⟨first, rest, hcut, hname⟩ := hfirst
  have hnone : matchParam tagKey first = none := by
    rw [matchParam, hname]
    exact if_neg h
  rw [read, hcut, List.findSome?_cons, hnone]
  rfl

/-- Off the tag something is read, and it is the tag exactly if that holds no semicolon. -/
theorem read_of_isTag (h : p.IsTag) :
    ∃ value, p.read = some value ∧ (value = p.content ↔ ';' ∉ p.content) := by
  rcases p.splitOn_text with ⟨hfree, hone⟩ | ⟨first, rest, hcut, hname, hvalue, hmem⟩
  · refine ⟨p.content, ?_, iff_of_true rfl hfree⟩
    rw [read, hone, List.findSome?_singleton, matchParam, readParam_text]
    exact if_pos h
  · -- a tag that is cut: what is read has no semicolon
    refine ⟨(readParam first).2, ?_, iff_of_false ?_ (not_not.mpr hmem)⟩
    · have hkey : eqIgnoreAsciiCase p.name tagKey = true := h
      rw [read, hcut, List.findSome?_cons, matchParam, hname, if_pos hkey]
    · intro heq
      rw [heq] at hvalue
      exact hvalue hmem

end Param

/-! ## The tag -/

namespace Header

variable (h : Header)

/-- The pieces of the front that are looked at for a tag. -/
def pieces : List (List Char) := (h.front.splitOn ';').drop 1

theorem splitOn_params (front : List Char) (params : List Param) :
    (front ++ params.flatMap fun p => ';' :: p.text).splitOn ';' =
      front.splitOn ';' ++ params.flatMap fun p => p.text.splitOn ';' := by
  induction params generalizing front with
  | nil => simp
  | cons p params ih =>
    have hcons : front ++ (p :: params).flatMap (fun p => ';' :: p.text) =
        (front ++ ';' :: p.text) ++ params.flatMap fun p => ';' :: p.text := by simp
    rw [hcons, ih, List.splitOn_append_cons_self, List.flatMap_cons, List.append_assoc]

theorem findSome?_params (params : List Param) :
    (params.flatMap fun p => p.text.splitOn ';').findSome? (matchParam tagKey) =
      params.findSome? Param.read := by
  induction params with
  | nil => rfl
  | cons p params ih =>
    rw [List.flatMap_cons, List.findSome?_append, ih, ← Param.read, List.findSome?_cons]
    cases p.read <;> rfl

/-- The tag is looked for in the pieces of the front, and then in those of the parameters. -/
theorem extractTag_text : extractTag h.text =
      (h.pieces.findSome? (matchParam tagKey)).or (h.params.findSome? Param.read) := by
  have hpos : 1 ≤ (h.front.splitOn ';').length :=
    List.length_pos_iff.mpr (List.splitOn_ne_nil _ _)
  rw [extractTag, extractParam, text, splitOn_params, List.drop_append_of_le_length hpos,
    List.findSome?_append, findSome?_params]
  rfl

/-- The pieces that are looked at before the tag of the header: those that follow a semicolon in the
display name or in the URI, and those that follow one in a parameter in front of the tag. -/
def decoys : List (List Char) :=
  h.pieces ++ (h.params.takeWhile (¬ ·.IsTag)).flatMap fun p => (p.text.splitOn ';').drop 1

/-- Parameters that are not the tag are searched behind their semicolons. -/
theorem findSome?_decoys {params : List Param} (hparams : ∀ p ∈ params, ¬p.IsTag) :
    params.findSome? Param.read =
      (params.flatMap fun p => (p.text.splitOn ';').drop 1).findSome? (matchParam tagKey) := by
  induction params with
  | nil => rfl
  | cons p params ih =>
    obtain ⟨hp, hrest⟩ := List.forall_mem_cons.mp hparams
    rw [List.findSome?_cons, List.flatMap_cons, List.findSome?_append, ← p.read_of_not_isTag hp,
      ih hrest]
    cases p.read <;> rfl

/-- The tag is the content of the first parameter of that name. -/
theorem tagOf_eq (params : List Param) :
    tagOf params = (params.dropWhile (¬ ·.IsTag)).head?.map Param.content := by
  induction params with
  | nil => rfl
  | cons p params ih =>
    by_cases hp : p.IsTag
    · have hkey : p.tag = some p.content := if_pos hp
      rw [tagOf, List.findSome?_cons, hkey, List.dropWhile_cons_of_neg (by simpa using hp)]
      rfl
    · have hkey : p.tag = none := if_neg hp
      rw [tagOf, List.findSome?_cons, hkey, List.dropWhile_cons_of_pos (by simpa using hp), ← ih]
      rfl

/-- What is read for the tag: a decoy, or else what the first parameter of that name gives. -/
theorem extractTag_decoys : extractTag h.text = (h.decoys.findSome? (matchParam tagKey)).or
      ((h.params.dropWhile (¬ ·.IsTag)).findSome? Param.read) := by
  have hparams : h.params.findSome? Param.read =
      ((h.params.takeWhile (¬ ·.IsTag)).findSome? Param.read).or
        ((h.params.dropWhile (¬ ·.IsTag)).findSome? Param.read) := by
    rw [← List.findSome?_append, List.takeWhile_append_dropWhile]
  have hothers : ∀ p ∈ h.params.takeWhile (¬ ·.IsTag), ¬p.IsTag := fun p hp => by
    simpa using List.mem_takeWhile_imp hp
  rw [extractTag_text, hparams, findSome?_decoys hothers, decoys, List.findSome?_append, Option.or_assoc]

/-- **When the tag is read right.** If a decoy reads as a tag, then the first one that does has to have
the value of the header's tag. If none does, the tag must not hold a semicolon. -/
theorem extractTag_right_iff : extractTag h.text = tagOf h.params ↔
      (∃ value, First ReadsTag h.decoys value ∧ tagOf h.params = some value) ∨
        (∀ piece ∈ h.decoys, ∀ value, ¬ReadsTag piece value) ∧ ∀ tag ∈ tagOf h.params, ';' ∉ tag := by
  simp only [← findSome?_eq_some_iff_first fun _ _ => matchParam_eq_some_iff,
    ← findSome?_eq_none_iff_forall fun _ _ => matchParam_eq_some_iff]
  rw [extractTag_decoys]
  cases h.decoys.findSome? (matchParam tagKey) with
  | some value => simp [eq_comm]
  | none =>
    rw [tagOf_eq, Option.none_or]
    cases hrest : h.params.dropWhile (¬ ·.IsTag) with
    | nil => simp
    | cons p rest =>
      have hp : p.IsTag := by
        have hstop := List.head?_dropWhile_not (fun p : Param => decide ¬p.IsTag) h.params
        rw [hrest] at hstop
        simpa using hstop
      obtain ⟨value, hread, hright⟩ := p.read_of_isTag hp
      rw [List.findSome?_cons, hread]
      simpa using hright

end Header

/-! ## The URI -/

/-- The URI is what the first pair of brackets holds, if a left one comes first. -/
theorem extractUri_bracketed {before : List Char}
    (hhead : ∀ d ∈ before.head?, isWhitespace d = false) (hleft : '<' ∉ before) (hright : '>' ∉ before)
    (huri : '>' ∉ uri) (hne : uri ≠ []) (after : List Char) :
    extractUri (before ++ '<' :: (uri ++ '>' :: after)) = some (trim uri) := by
  have hpos : 0 < uri.length := List.length_pos_iff.mpr hne
  have hcut : ∀ rest : List Char, before ++ '<' :: (uri ++ rest) = (before ++ '<' :: uri) ++ rest := by
    simp
  have hhead' : ∀ d ∈ (before ++ '<' :: uri).head?, isWhitespace d = false := by
    cases before with
    | nil =>
      rintro d ⟨⟩
      rfl
    | cons d ds => exact hhead
  have hstop : '>' ∉ before ++ '<' :: uri := by
    simp only [List.mem_append, List.mem_cons, not_or]
    exact ⟨hright, by decide, huri⟩
  have htrim : trim (before ++ '<' :: (uri ++ '>' :: after)) =
      (before ++ '<' :: uri) ++ '>' :: after.rdropWhile isWhitespace := by
    rw [hcut, trim_append_cons hhead' rfl]
  have hfind : find '<' ((before ++ '<' :: uri) ++ '>' :: after.rdropWhile isWhitespace) =
      some before.length := by
    rw [← hcut, find_append hleft]
  simp only [extractUri, htrim, hfind, find_append hstop]
  have hlength : (before ++ '<' :: uri).length = before.length + 1 + uri.length := by
    simp only [List.length_append, List.length_cons]
    omega
  have hdrop : ((before ++ '<' :: uri) ++ '>' :: after.rdropWhile isWhitespace).drop
      (before.length + 1) = uri ++ '>' :: after.rdropWhile isWhitespace := by
    simp
  rw [if_pos (by omega), hdrop, hlength, Nat.add_sub_cancel_left, List.take_left]

/-- Without such a pair the value is cut at its first semicolon. -/
theorem extractUri_bare
    (h : ∀ start stop, find '<' (trim value) = some start → find '>' (trim value) = some stop →
      stop ≤ start + 1) : extractUri value = bareUri (trim value) := by
  unfold extractUri
  dsimp only
  split
  · rename_i start stop hstart hstop
    exact if_neg (not_lt.mpr (h start stop hstart hstop))
  · rfl

theorem head?_quote (text : List Char) : ∀ d ∈ ('"' :: text).head?, isWhitespace d = false := by
  rintro d ⟨⟩
  rfl

/-- A right bracket comes first, alone or directly behind a left one. -/
def Closes (brackets : List Char) : Prop := brackets = ['>'] ∨ brackets = ['<', '>']

section quoted
variable {name brackets : List Char} (hbrackets : Closes brackets)
include hbrackets

/-- Such brackets are no pair that holds a URI. -/
theorem extractUri_of_closes (hleft : '<' ∉ name) (hright : '>' ∉ name) (after : List Char) :
    extractUri ('"' :: (name ++ (brackets ++ after))) =
      bareUri ('"' :: (name ++ (brackets ++ after.rdropWhile isWhitespace))) := by
  obtain ⟨opening, rfl, hopening⟩ :
      ∃ before, brackets = before ++ ['>'] ∧ (before = [] ∨ before = ['<']) := by
    rcases hbrackets with rfl | rfl
    · exact ⟨[], rfl, Or.inl rfl⟩
    · exact ⟨['<'], rfl, Or.inr rfl⟩
  have hcut : ∀ after : List Char, '"' :: (name ++ (opening ++ ['>'] ++ after)) =
      ('"' :: name ++ opening) ++ '>' :: after := by simp
  have htrim : trim ('"' :: (name ++ (opening ++ ['>'] ++ after))) =
      ('"' :: name ++ opening) ++ '>' :: after.rdropWhile isWhitespace := by
    rw [hcut]
    exact trim_append_cons (head?_quote _) rfl after
  have hstop : '>' ∉ '"' :: name ++ opening := by
    rcases hopening with rfl | rfl <;> simpa using hright
  have hrest : '"' :: (name ++ (opening ++ ['>'] ++ after.rdropWhile isWhitespace)) =
      trim ('"' :: (name ++ (opening ++ ['>'] ++ after))) := by rw [htrim, hcut]
  rw [hrest]
  refine extractUri_bare fun start stop hstart hstop' => ?_
  rw [htrim, List.append_assoc, find_append_of_notMem (by simpa using hleft)] at hstart
  rw [htrim, find_append hstop] at hstop'
  obtain ⟨k, -, rfl⟩ := Option.map_eq_some_iff.mp hstart
  obtain rfl := Option.some.inj hstop'
  rcases hopening with rfl | rfl
  · rw [List.append_nil]
    omega
  · rw [List.length_append, List.length_singleton]
    omega

/-- Without a semicolon in front of the brackets they are part of what is read. -/
theorem mem_of_bareUri (hfree : ';' ∉ name) {after : List Char}
    (h : bareUri ('"' :: (name ++ (brackets ++ after))) = some value) : '>' ∈ value := by
  have hcut : '"' :: (name ++ (brackets ++ after)) = ('"' :: name ++ brackets) ++ after := by simp
  have hsemi : ';' ∉ '"' :: name ++ brackets := by
    rcases hbrackets with rfl | rfl <;> simpa using hfree
  have hmem : '>' ∈ '"' :: name ++ brackets := by
    rcases hbrackets with rfl | rfl <;> simp
  have hlong : ('"' :: name ++ brackets).length ≤
      (find ';' (('"' :: name ++ brackets) ++ after)).getD (('"' :: name ++ brackets) ++ after).length := by
    rw [find_append_of_notMem hsemi]
    cases find ';' after with
    | none => simp
    | some k => simp
  rw [hcut, bareUri, Option.ite_none_left_eq_some, Option.some.injEq] at h
  rw [← h.2]
  refine mem_trim rfl ?_
  exact (List.prefix_take_iff.mpr ⟨List.prefix_append _ _, hlong⟩).subset hmem

end quoted

/-- A quoted text is cut at its first semicolon, and the quote stays. -/
theorem bareUri_cut {early : List Char} (h : ';' ∉ early) (rest : List Char) :
    bareUri ('"' :: (early ++ ';' :: rest)) = some (trim ('"' :: early)) := by
  have hfree : ';' ∉ '"' :: early := by simpa using h
  have hne : trim ('"' :: early) ≠ [] := by
    rw [trim_cons rfl]
    exact List.cons_ne_nil _ _
  rw [← List.cons_append, bareUri, find_append hfree, Option.getD_some, List.take_left, if_neg hne]

/-- A display name without brackets. -/
def AngleFree (display : Option Display) : Prop := ∀ d ∈ display, '<' ∉ d.name ∧ '>' ∉ d.name

theorem Display.head?_text (d : Display) : ∀ c ∈ d.text.head?, isWhitespace c = false := by
  rintro c ⟨⟩
  rfl

theorem Display.notMem_text {d : Display} {c : Char} (hc : c ∉ d.name) (hquote : c ≠ '"')
    (hws : isWhitespace c = false) : c ∉ d.text := by
  simp only [Display.text, List.mem_cons, List.mem_append, not_or]
  exact ⟨hquote, hc, hquote, notMem_blanks hws d.gap⟩

/-- Behind a display name without brackets the URI is read, without the white space around it. -/
theorem Header.extractUri_text (h : Header) (hangle : AngleFree h.display) :
    extractUri h.text = some (trim h.uri) := by
  have hparts : ∃ before, (∀ d ∈ before.head?, isWhitespace d = false) ∧ '<' ∉ before ∧ '>' ∉ before ∧
      h.front = before ++ '<' :: (h.uri ++ ['>']) := by
    cases hdisplay : h.display with
    | none => exact ⟨[], by simp, by simp, by simp, by rw [front, hdisplay]; rfl⟩
    | some d =>
      obtain ⟨hleft, hright⟩ := hangle d hdisplay
      exact ⟨d.text, d.head?_text, d.notMem_text hleft (by decide) rfl,
        d.notMem_text hright (by decide) rfl, by rw [front, hdisplay]; rfl⟩
  obtain ⟨before, hhead, hleft, hright, hfront⟩ := hparts
  have htext : h.text = before ++ '<' :: (h.uri ++ '>' :: h.params.flatMap fun p => ';' :: p.text) := by
    rw [text, hfront]
    simp
  rw [htext, extractUri_bracketed hhead hleft hright h.plain.2 h.ne_nil]

theorem exists_first_bracket (h : ¬ ('<' ∉ name ∧ '>' ∉ name)) :
    ∃ c before rest, name = before ++ c :: rest ∧ (c = '<' ∨ c = '>') ∧ '<' ∉ before ∧ '>' ∉ before := by
  have hsome : (name.find? fun c => c = '<' || c = '>').isSome := by
    rw [List.find?_isSome]
    by_cases hleft : '<' ∈ name
    · exact ⟨'<', hleft, rfl⟩
    · exact ⟨'>', not_not.mp fun hright => h ⟨hleft, hright⟩, rfl⟩
  obtain ⟨c, hc⟩ := Option.isSome_iff_exists.mp hsome
  obtain ⟨hbracket, before, rest, hname, hbefore⟩ := List.find?_eq_some_iff_append.mp hc
  refine ⟨c, before, rest, hname, by simpa using hbracket, fun hmem => ?_, fun hmem => ?_⟩
  · exact absurd (hbefore '<' hmem) (by decide)
  · exact absurd (hbefore '>' hmem) (by decide)

/-- A left bracket alone in the display name: the pair it begins ends with the URI, and holds the bracket
of the URI. -/
theorem extractUri_of_left_alone {rest : List Char} (gap : Blanks) (hleft : '<' ∉ name)
    (hright : '>' ∉ name) (hrest : '>' ∉ rest) (huri : '>' ∉ uri) (after : List Char) :
    ∃ value, extractUri ('"' :: (name ++ '<' :: (rest ++ '"' :: (gap.val ++ '<' ::
      (uri ++ '>' :: after))))) = some value ∧ '<' ∈ value := by
  refine ⟨trim (rest ++ '"' :: (gap.val ++ '<' :: uri)), ?_, mem_trim rfl (by simp)⟩
  have hinner : '>' ∉ rest ++ '"' :: (gap.val ++ '<' :: uri) := by
    simp only [List.mem_append, List.mem_cons, not_or]
    exact ⟨hrest, by decide, notMem_blanks rfl gap, by decide, huri⟩
  have hcut : rest ++ '"' :: (gap.val ++ '<' :: (uri ++ '>' :: after)) =
      (rest ++ '"' :: (gap.val ++ '<' :: uri)) ++ '>' :: after := by simp
  have hleft' : '<' ∉ '"' :: name := by simpa using hleft
  have hright' : '>' ∉ '"' :: name := by simpa using hright
  rw [hcut]
  exact extractUri_bracketed (head?_quote name) hleft' hright' hinner (by simp) after

/-- A display name is read for the URI: the text in its first pair of brackets, or, if its first
brackets close, the text in front of its first semicolon, with the quote. -/
inductive Display.Misread (d : Display) : List Char → Prop
  | pair {before inner after : List Char} (name_eq : d.name = before ++ '<' :: (inner ++ '>' :: after))
      (left : '<' ∉ before) (right : '>' ∉ before) (inner_right : '>' ∉ inner) (ne_nil : inner ≠ []) :
      d.Misread (trim inner)
  | cut {early late brackets after : List Char}
      (name_eq : d.name = early ++ ';' :: (late ++ (brackets ++ after))) (first : ';' ∉ early)
      (left : '<' ∉ early ++ late) (right : '>' ∉ early ++ late) (closes : Closes brackets) :
      d.Misread (trim ('"' :: early))

namespace Header

variable {h : Header} {d : Display}

theorem text_of_display (hd : h.display = some d) :
    h.text = '"' :: (d.name ++ '"' :: (d.gap.val ++ '<' :: (h.uri ++ '>' ::
      h.params.flatMap fun p => ';' :: p.text))) := by
  simp [text, front, hd, Display.text]

/-- What a display name is misread for is what `extract_uri` returns. -/
theorem extractUri_of_misread (hd : h.display = some d) (hread : d.Misread uri) :
    extractUri h.text = some uri := by
  rw [text_of_display hd]
  cases hread with
  | @pair before inner after name_eq left right inner_right ne_nil =>
    rw [name_eq, List.append_assoc, List.cons_append, List.append_assoc, List.cons_append,
      ← List.cons_append]
    exact extractUri_bracketed (head?_quote before) (by simpa using left) (by simpa using right)
      inner_right ne_nil _
  | @cut early late brackets after name_eq first left right closes =>
    have hcut : ∀ rest, d.name ++ rest = (early ++ ';' :: late) ++ (brackets ++ (after ++ rest)) := by
      simp [name_eq]
    rw [hcut, extractUri_of_closes closes (by simpa using left) (by simpa using right),
      List.append_assoc, List.cons_append, bareUri_cut first]

/-- A URI that is read right behind a display name with brackets is what the display name is misread
for: anything else that is read holds a bracket. -/
theorem misread_of_extractUri (hd : h.display = some d) (hangle : ¬ ('<' ∉ d.name ∧ '>' ∉ d.name))
    (hright : extractUri h.text = some h.uri) : d.Misread h.uri := by
  obtain ⟨c, name, rest, hname, hc, hleft, hright'⟩ := exists_first_bracket hangle
  rw [text_of_display hd, hname] at hright
  have hcloses : ∀ brackets after, Closes brackets → d.name = name ++ (brackets ++ after) →
      d.Misread h.uri := by
    intro brackets after hbrackets hname'
    rw [← hname, hname', List.append_assoc, List.append_assoc,
      extractUri_of_closes hbrackets hleft hright'] at hright
    by_cases hsemi : ';' ∈ name
    · obtain ⟨early, late, rfl, hearly⟩ := List.eq_append_cons_of_mem hsemi
      rw [List.append_assoc, List.cons_append, bareUri_cut hearly] at hright
      have hearlier : d.name = early ++ ';' :: (late ++ (brackets ++ after)) := by
        rw [hname', List.append_assoc, List.cons_append]
      rw [← Option.some.inj hright]
      exact .cut hearlier hearly (by simpa using hleft) (by simpa using hright') hbrackets
    · exact absurd (mem_of_bareUri hbrackets hsemi hright) h.plain.2
  rcases hc with rfl | rfl
  · by_cases hmem : '>' ∈ rest
    · obtain ⟨inner, after, rfl, hinner⟩ := List.eq_append_cons_of_mem hmem
      by_cases hnil : inner = []
      · subst hnil
        exact hcloses ['<', '>'] after (Or.inr rfl) hname
      · -- a pair in the display name: what it holds is read
        have hpair : d.Misread (trim inner) := .pair hname hleft hright' hinner hnil
        rw [← hname, ← text_of_display hd, extractUri_of_misread hd hpair] at hright
        rw [← Option.some.inj hright]
        exact hpair
    · -- a left bracket alone: what is read holds the bracket of the URI
      obtain ⟨value, hvalue, hbracket⟩ :=
        extractUri_of_left_alone d.gap hleft hright' hmem h.plain.2
          (h.params.flatMap fun p => ';' :: p.text)
      rw [List.append_assoc, List.cons_append, hvalue] at hright
      rw [Option.some.inj hright] at hbracket
      exact absurd hbracket h.plain.1
  · exact hcloses ['>'] rest (Or.inl rfl) hname

/-- **When the URI is read right.** Behind a display name without brackets, or behind none, it must have
no white space around it. Behind another display name it must be what is read off that. -/
theorem extractUri_right_iff (h : Header) : extractUri h.text = some h.uri ↔
      AngleFree h.display ∧ trim h.uri = h.uri ∨ ∃ d ∈ h.display, d.Misread h.uri := by
  constructor
  · intro hright
    by_cases hangle : AngleFree h.display
    · rw [h.extractUri_text hangle] at hright
      exact Or.inl ⟨hangle, Option.some.inj hright⟩
    · obtain ⟨d, hd, hbracket⟩ : ∃ d ∈ h.display, ¬ ('<' ∉ d.name ∧ '>' ∉ d.name) := by
        simpa only [AngleFree, not_forall, exists_prop] using hangle
      exact Or.inr ⟨d, hd, misread_of_extractUri hd hbracket hright⟩
  · rintro (⟨hangle, htrim⟩ | ⟨d, hd, hread⟩)
    · rw [h.extractUri_text hangle, htrim]
    · exact extractUri_of_misread hd hread

end Header

/-! ## Which headers are read right -/

/-- **Which headers the helpers read right.** The URI is read right exactly if the display name holds no
bracket and the URI has no white space around it, or if the URI is just the text that `extract_uri` finds
in such a display name. The tag is read right exactly if no decoy, a piece behind a semicolon of the
display name, of the URI or of a quoted value in front of the tag, reads as a tag and the tag holds no
semicolon, or if the first decoy that reads as a tag has just the value of the tag. -/
theorem helpers_right_iff (h : Header) : (extractUri h.text = some h.uri ↔
      AngleFree h.display ∧ trim h.uri = h.uri ∨ ∃ d ∈ h.display, d.Misread h.uri) ∧
    (extractTag h.text = tagOf h.params ↔
      (∃ value, First ReadsTag h.decoys value ∧ tagOf h.params = some value) ∨
        (∀ piece ∈ h.decoys, ∀ value, ¬ReadsTag piece value) ∧ ∀ tag ∈ tagOf h.params, ';' ∉ tag) :=
  ⟨h.extractUri_right_iff, h.extractTag_right_iff⟩

/-- The parameter `tag=y`. -/
def tagParam : Param where
  lead := noBlanks
  name := "tag".toList
  isWord := by decide
  plain := by decide
  trail := noBlanks
  value := some (noBlanks, .token ['y'] (by simp; rfl), noBlanks)

/-- `"<b>;tag=x"<sip:a>;tag=y` -/
def misleadingDisplay : Header where
  display := some ⟨"<b>;tag=x".toList, by decide, noBlanks⟩
  uri := "sip:a".toList
  ne_nil := by decide
  plain := by decide
  params := [tagParam]

/-- `<sip:a;tag=x>;tag=y` -/
def misleadingUri : Header where
  display := none
  uri := "sip:a;tag=x".toList
  ne_nil := by decide
  plain := by decide
  params := [tagParam]

/-- What a peer writes into the display name is read for the URI and for the tag, and a parameter of the
URI is read for the tag of the header. -/
theorem display_and_uri_mislead : extractUri misleadingDisplay.text = some ['b'] ∧
      extractTag misleadingDisplay.text = some "x\"<sip:a>".toList ∧
      extractTag misleadingUri.text = some "x>".toList ∧
      tagOf misleadingDisplay.params = some ['y'] ∧ tagOf misleadingUri.params = some ['y'] ∧
      ¬ ∀ h : Header, extractUri h.text = some h.uri ∧ extractTag h.text = tagOf h.params := by
  have huri : extractUri misleadingDisplay.text = some ['b'] := by decide +kernel
  refine ⟨huri, by decide +kernel, by decide +kernel, by decide +kernel, by decide +kernel, fun hall => ?_⟩
  have hright := (hall misleadingDisplay).1
  rw [huri] at hright
  exact absurd hright (by decide +kernel)

end GmvPjsip.Message
