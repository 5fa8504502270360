import GmvPjsip.Lib.Keyed
import GmvPjsip.Lib.Words

/-!
# Reading digest headers

`Authorization` values are split at every comma and each piece at its first equals sign. Commas inside
quotes are split at as well.

* `parseDigestAuthorization` is the parser, `buildWwwAuthenticate` the builder of a challenge.
* `Field` is one parameter of a header, `Credentials` a header with distinct names, and
  `Credentials.text` its text.
* `read_back_iff`: a header is read back exactly if no value holds a comma.
-/

namespace GmvPjsip.Digest

open GmvPjsip.Lib

/-! ## The parser -/

/-- The entries of a `HashMap<String, String>`. -/
abbrev Parts := List (List Char × List Char)

/-- `HashMap::get`. -/
def Parts.get (parts : Parts) (name : List Char) : Option (List Char) :=
  (Keyed.get Prod.fst name parts).map Prod.snd

/-- `str::to_ascii_lowercase`. -/
def toAsciiLowercase (text : List Char) : List Char := text.map Char.toLower

/-- What a trimmed piece adds to the map.

Source: `src/auth/mod.rs`, `parse_digest_authorization` -/
def readPart (part : List Char) : Option (List Char × List Char) :=
  (splitOnce '=' part).map fun field =>
    (toAsciiLowercase (trim field.1), trimMatches '"' (trim field.2))

/-- The text behind the name of the scheme.

Source: `src/auth/mod.rs`, `parse_digest_authorization`, `let s` -/
def stripScheme (value : List Char) : List Char :=
  trim ((stripPrefix "Digest".toList (trim value)).getD value)

/-- Source: `src/auth/mod.rs`, `parse_digest_authorization` -/
def parseDigestAuthorization (value : List Char) : Parts :=
  ((((stripScheme value).splitOn ',').map trim).filterMap readPart).foldl
    (fun out entry => Keyed.put Prod.fst entry out) []

/-! ## The challenge -/

/-- Source: `src/auth/mod.rs`, `AuthAlgorithm` -/
inductive AuthAlgorithm
  | md5
  | sha256
  | sha512_256
  deriving DecidableEq, Repr

/-- Source: `src/auth/mod.rs`, `AuthAlgorithm::iana_name` -/
def AuthAlgorithm.ianaName : AuthAlgorithm → List Char
  | .md5 => "MD5".toList
  | .sha256 => "SHA-256".toList
  | .sha512_256 => "SHA-512-256".toList

/-- Source: `src/auth/mod.rs`, `build_www_authenticate` -/
def buildWwwAuthenticate (realm nonce : List Char) (algorithm : AuthAlgorithm) : List Char :=
  "Digest realm=\"".toList ++ realm ++ "\", nonce=\"".toList ++ nonce ++ "\", algorithm=".toList ++
    algorithm.ianaName ++ ", qop=\"auth\"".toList

/-! ## Headers by their parameters -/

/-- A text that may stand between quotes without an escape. -/
abbrev Quotable := { text : List Char // '"' ∉ text ∧ '\\' ∉ text }

/-- A parameter: its name, its value, and the white space in front of it and behind it. A value without
quotes holds no white space. -/
structure Field where
  lead : Blanks
  name : List Char
  isWord : IsWord name
  plain : ',' ∉ name ∧ '=' ∉ name
  lowercase : toAsciiLowercase name = name
  value : Quotable
  quoted : Bool
  bare : quoted = false → ∀ c ∈ value.val, isWhitespace c = false
  trail : Blanks

/-- The value as it is written. -/
def Field.valueText (f : Field) : List Char :=
  if f.quoted then '"' :: (f.value.val ++ ['"']) else f.value.val

/-- A parameter as it is written. -/
def Field.text (f : Field) : List Char :=
  f.lead.val ++ ((f.name ++ '=' :: f.valueText) ++ f.trail.val)

/-- Parameters with distinct names. -/
structure Credentials where
  fields : List Field
  nodup : (fields.map Field.name).Nodup

/-- The value of the header. -/
def Credentials.text (c : Credentials) : List Char :=
  "Digest".toList ++ [','].intercalate (c.fields.map Field.text)

/-- The value of a parameter, if there is one of the name. -/
def Credentials.get (c : Credentials) (name : List Char) : Option (List Char) :=
  (Keyed.get Field.name name c.fields).map fun f => f.value.val

/-! ## Reading one parameter -/

namespace Field

variable (f : Field)

theorem trim_valueText : trim f.valueText = f.valueText := by
  unfold valueText
  split_ifs with hquoted
  · show trim (('"' :: f.value.val) ++ '"' :: []) = _
    refine trim_append_cons ?_ rfl []
    rintro d ⟨⟩
    rfl
  · exact trim_eq_self (f.bare (Bool.eq_false_iff.mpr hquoted))

theorem trimMatches_valueText : trimMatches '"' f.valueText = f.value.val := by
  unfold valueText
  split_ifs with hquoted
  · exact trimMatches_surround f.value.property.1
  · exact trimMatches_eq_self f.value.property.1

/-- A parameter is read as it is meant. -/
theorem readPart_text : readPart (trim f.text) = some (f.name, f.value.val) := by
  have hhead : ∀ d ∈ f.name.head?, isWhitespace d = false :=
    fun d hd => f.isWord.plain d (List.mem_of_head? hd)
  have htrim : trim f.text = f.name ++ '=' :: f.valueText.rdropWhile isWhitespace := by
    rw [text, trim_append f.lead.property f.trail.property, trim_append_cons hhead rfl]
  rw [htrim, readPart, splitOnce_append f.plain.2, Option.map_some, trim_eq_self f.isWord.plain,
    f.lowercase, trim_rdropWhile, trim_valueText, trimMatches_valueText]

theorem comma_notMem_text (h : ',' ∉ f.value.val) : ',' ∉ f.text := by
  have hvalue : ',' ∉ f.valueText := by
    unfold valueText
    split_ifs
    · simpa using h
    · exact h
  simp only [text, List.mem_append, List.mem_cons, not_or]
  exact ⟨notMem_blanks rfl f.lead, ⟨f.plain.1, by decide, hvalue⟩, notMem_blanks rfl f.trail⟩

end Field

/-! ## Reading a header -/

theorem stripScheme_append (rest : List Char) : stripScheme ("Digest".toList ++ rest) = trim rest := by
  have htrim : trim (['D', 'i', 'g', 'e', 's'] ++ 't' :: rest) =
      ['D', 'i', 'g', 'e', 's'] ++ 't' :: rest.rdropWhile isWhitespace := by
    refine trim_append_cons ?_ rfl rest
    rintro d ⟨⟩
    rfl
  have hstrip : stripPrefix ['D', 'i', 'g', 'e', 's', 't']
      (['D', 'i', 'g', 'e', 's'] ++ 't' :: rest.rdropWhile isWhitespace) =
      some (rest.rdropWhile isWhitespace) := rfl
  have hscheme : "Digest".toList = ['D', 'i', 'g', 'e', 's', 't'] := rfl
  unfold stripScheme
  rw [hscheme]
  show trim ((stripPrefix _ (trim (['D', 'i', 'g', 'e', 's'] ++ 't' :: rest))).getD _) = _
  rw [htrim, hstrip, Option.getD_some, trim_rdropWhile]

/-- What is read never holds a comma. -/
theorem comma_notMem_of_get {value name v : List Char}
    (h : (parseDigestAuthorization value).get name = some v) : ',' ∉ v := by
  obtain ⟨entry, hentry, rfl⟩ := Option.map_eq_some_iff.mp h
  have hmem := (Keyed.get_eq_some hentry).1
  rcases Keyed.mem_or_mem_of_mem_foldl_put hmem with hread | hnil
  · obtain ⟨part, hpart, hsome⟩ := List.mem_filterMap.mp hread
    obtain ⟨piece, hpiece, rfl⟩ := List.mem_map.mp hpart
    obtain ⟨⟨k, v⟩, hsplit, rfl⟩ := Option.map_eq_some_iff.mp hsome
    intro hcomma
    have hv : ',' ∈ v := mem_of_mem_trim (mem_of_mem_trimMatches hcomma)
    have hin : ',' ∈ trim piece := by
      rw [eq_append_of_splitOnce hsplit]
      exact List.mem_append_right k (List.mem_cons_of_mem '=' hv)
    exact notMem_of_mem_splitOn hpiece (mem_of_mem_trim hin)
  · exact absurd hnil List.not_mem_nil

/-- The pieces of a header without commas in its values. -/
theorem filterMap_pieces {fields : List Field} (h : ∀ f ∈ fields, ',' ∉ f.value.val) :
    ((([','].intercalate (fields.map Field.text)).splitOn ',').map trim).filterMap readPart =
      fields.map fun f => (f.name, f.value.val) := by
  by_cases hnil : fields = []
  · subst hnil
    rfl
  · have hsplit : ([','].intercalate (fields.map Field.text)).splitOn ',' = fields.map Field.text := by
      refine List.splitOn_intercalate ',' ?_ (by simpa using hnil)
      exact List.forall_mem_map.mpr fun f hf => f.comma_notMem_text (h f hf)
    rw [hsplit, List.map_map, List.filterMap_map]
    exact List.filterMap_eq_map_iff_forall_eq_some.mpr fun f _ => f.readPart_text

theorem Credentials.get_of_comma_free (c : Credentials) (h : ∀ f ∈ c.fields, ',' ∉ f.value.val)
    (name : List Char) : (parseDigestAuthorization c.text).get name = c.get name := by
  have hparse : parseDigestAuthorization c.text = (c.fields.map fun f => (f.name, f.value.val)).foldl
        (fun out entry => Keyed.put Prod.fst entry out) [] := by
    unfold parseDigestAuthorization text
    rw [stripScheme_append, map_trim_splitOn_trim rfl, filterMap_pieces h]
  have hnodup : ((c.fields.map fun f => (f.name, f.value.val)).map Prod.fst).Nodup := by
    rw [List.map_map]
    exact c.nodup
  have hget : Keyed.get Prod.fst name (c.fields.map fun f => (f.name, f.value.val)) =
      (Keyed.get Field.name name c.fields).map fun f => (f.name, f.value.val) :=
    Keyed.get_map fun f => rfl
  rw [Parts.get, hparse, Keyed.get_foldl_put hnodup, hget, Credentials.get]
  cases Keyed.get Field.name name c.fields <;> rfl

/-- A header is read back exactly if no value holds a comma. -/
theorem Credentials.get_eq_iff (c : Credentials) :
    (∀ name, (parseDigestAuthorization c.text).get name = c.get name) ↔
      ∀ f ∈ c.fields, ',' ∉ f.value.val := by
  refine ⟨fun hread f hf => ?_, c.get_of_comma_free⟩
  apply comma_notMem_of_get
  rw [hread f.name, get, Keyed.get_of_mem c.nodup hf, Option.map_some]

/-! ## The challenge, read back -/

section challenge
variable (realm nonce : Quotable) (algorithm : AuthAlgorithm)

def blank : Blanks := ⟨[' '], by simp; rfl⟩

/-- A quoted parameter behind one blank. -/
def quotedField (name : List Char) (isWord : IsWord name) (plain : ',' ∉ name ∧ '=' ∉ name)
    (lowercase : toAsciiLowercase name = name) (value : Quotable) : Field :=
  ⟨blank, name, isWord, plain, lowercase, value, true, fun h => absurd h (by decide), noBlanks⟩

theorem quotedField_text (name : List Char) (isWord : IsWord name) (plain : ',' ∉ name ∧ '=' ∉ name)
    (lowercase : toAsciiLowercase name = name) (value : Quotable) :
    (quotedField name isWord plain lowercase value).text =
      ' ' :: (name ++ '=' :: '"' :: (value.val ++ ['"'])) := by
  simp [Field.text, Field.valueText, quotedField, blank, noBlanks]

theorem AuthAlgorithm.plain_ianaName :
    ('"' ∉ algorithm.ianaName ∧ '\\' ∉ algorithm.ianaName) ∧ ',' ∉ algorithm.ianaName ∧
      IsWord algorithm.ianaName := by
  cases algorithm <;> decide

/-- The parameters of a challenge. -/
def challenge : Credentials where
  fields :=
    [quotedField "realm".toList (by decide) (by decide) (by decide) realm,
     quotedField "nonce".toList (by decide) (by decide) (by decide) nonce,
     { lead := blank
       name := "algorithm".toList
       isWord := by decide
       plain := by decide
       lowercase := by decide
       value := ⟨algorithm.ianaName, algorithm.plain_ianaName.1⟩
       quoted := false
       bare := fun _ => algorithm.plain_ianaName.2.2.plain
       trail := noBlanks },
     quotedField "qop".toList (by decide) (by decide) (by decide) ⟨"auth".toList, by decide⟩]
  nodup := by
    show ["realm".toList, "nonce".toList, "algorithm".toList, "qop".toList].Nodup
    decide

theorem buildWwwAuthenticate_eq :
    buildWwwAuthenticate realm.val nonce.val algorithm = (challenge realm nonce algorithm).text := by
  unfold buildWwwAuthenticate Credentials.text challenge
  simp only [List.map_cons, List.map_nil, List.intercalate_cons_cons, List.intercalate_singleton,
    quotedField_text]
  simp only [Field.text, Field.valueText, blank, noBlanks, List.append_nil, Bool.false_eq_true, if_false,
    List.append_assoc, List.cons_append]
  rfl

/-- The realm and the nonce of a challenge are read back exactly if neither holds a comma. -/
theorem challenge_read_back :
    ((parseDigestAuthorization (buildWwwAuthenticate realm.val nonce.val algorithm)).get "realm".toList =
          some realm.val ∧
        (parseDigestAuthorization (buildWwwAuthenticate realm.val nonce.val algorithm)).get
          "nonce".toList = some nonce.val) ↔
      ',' ∉ realm.val ∧ ',' ∉ nonce.val := by
  refine ⟨fun h => ⟨comma_notMem_of_get h.1, comma_notMem_of_get h.2⟩, fun ⟨hrealm, hnonce⟩ => ?_⟩
  have hfree : ∀ f ∈ (challenge realm nonce algorithm).fields, ',' ∉ f.value.val := by
    simp only [challenge, List.forall_mem_cons, List.not_mem_nil, false_implies, implies_true, and_true]
    exact ⟨hrealm, hnonce, algorithm.plain_ianaName.2.1, (by decide : ',' ∉ "auth".toList)⟩
  rw [buildWwwAuthenticate_eq]
  exact ⟨(challenge realm nonce algorithm).get_of_comma_free hfree _,
    (challenge realm nonce algorithm).get_of_comma_free hfree _⟩

end challenge

/-- **Which digest headers are read back.** A header with distinct names is read back as the map of its
parameters exactly if no value holds a comma, and the realm and the nonce of a challenge exactly if
neither does. -/
theorem read_back_iff (c : Credentials) (realm nonce : Quotable) (algorithm : AuthAlgorithm) :
    ((∀ name, (parseDigestAuthorization c.text).get name = c.get name) ↔
      ∀ f ∈ c.fields, ',' ∉ f.value.val) ∧
    (((parseDigestAuthorization (buildWwwAuthenticate realm.val nonce.val algorithm)).get
          "realm".toList = some realm.val ∧
        (parseDigestAuthorization (buildWwwAuthenticate realm.val nonce.val algorithm)).get
          "nonce".toList = some nonce.val) ↔
      ',' ∉ realm.val ∧ ',' ∉ nonce.val) :=
  ⟨c.get_eq_iff, challenge_read_back realm nonce algorithm⟩

/-- `Digest username="a,b"` -/
def commaInName : Credentials where
  fields := [quotedField "username".toList (by decide) (by decide) (by decide)
    ⟨"a,b".toList, by decide⟩]
  nodup := List.nodup_singleton _

/-- A value is cut at its comma. -/
theorem comma_cuts_value :
    (parseDigestAuthorization commaInName.text).get "username".toList = some ['a'] ∧
      commaInName.get "username".toList = some "a,b".toList ∧
      (parseDigestAuthorization (buildWwwAuthenticate "a,b".toList ['n'] .md5)).get "realm".toList =
        some ['a'] := by
  refine ⟨?_, ?_, ?_⟩ <;> decide +kernel

end GmvPjsip.Digest
