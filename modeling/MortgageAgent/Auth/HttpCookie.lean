import MortgageAgent.Lib.Bytes
import MortgageAgent.Auth.Request

/-!
# Cookies on the wire

The browser sends what it holds for the site in one header. `readCookie` takes it apart at the
semicolons, and reads the first pair of the name it looks for; the responses set a cookie to the
percent-encoded text of its value.

* **`encodeURIComponent`** / **`decodeURIComponent`** — of the language.
* **`readCookie`** — the parser; **`Request.ofHeaders`** is what the services see of a request.
* **`Jar`** — the cookies that a browser holds for the site, whoever has set them.
* **`CookieOp`** — what responses, and scripts of the page, do to the jar.
* **`reads_back`** — read over the wire, the jar is a map from names to texts.
-/

namespace MortgageAgent.Auth

open Bytes

/-! ## Percent-encoding -/

/-- The characters that `encodeURIComponent` leaves as they are. -/
def isUnreserved (c : Char) : Bool :=
  ('A' ≤ c && c ≤ 'Z') || ('a' ≤ c && c ≤ 'z') || ('0' ≤ c && c ≤ '9')
    || c ∈ "-_.!~*'()".toList

def hexDigitUpper (n : Nat) : Char := "0123456789ABCDEF".toList.getD n '0'

def percentByte (b : UInt8) : List Char :=
  ['%', hexDigitUpper (b.toNat / 16), hexDigitUpper (b.toNat % 16)]

def encodeChar (c : Char) : List Char :=
  if isUnreserved c then [c] else (utf8 (String.singleton c)).flatMap percentByte

def encodeURIComponent (s : String) : String := String.ofList (s.toList.flatMap encodeChar)

/-- The bytes of a text: those of its characters, and those that are written with a percent sign. -/
def percentBytes : List Char → Option (List UInt8)
  | [] => some []
  | '%' :: a :: b :: rest =>
    match Json.hexDigitValue? a, Json.hexDigitValue? b with
    | some x, some y => (percentBytes rest).map (UInt8.ofNat (16 * x + y) :: ·)
    | _, _ => none
  | c :: rest =>
    if c = '%' then none else (percentBytes rest).map (utf8 (String.singleton c) ++ ·)

/-- `none` is the `URIError`: of a percent sign without two digits, and of bytes that are no UTF-8. -/
def decodeURIComponent (s : String) : Option String := (percentBytes s.toList).bind utf8Text?

/-! ## The header -/

/-- The text before the first equals sign, and the text behind it. -/
def pairKey (pair : List Char) : String := jsTrim (String.ofList (pair.takeWhile (· ≠ '=')))

def pairValue (pair : List Char) : String :=
  jsTrim (String.ofList ((pair.dropWhile (· ≠ '=')).drop 1))

/-- The loop over the pairs. -/
def readPairs (name : String) : List (List Char) → Option String
  | [] => none
  | pair :: pairs =>
    if '=' ∈ pair ∧ pairKey pair = name then decodeURIComponent (pairValue pair)
    else readPairs name pairs

def readCookie (header : Option String) (name : String) : Option String :=
  match header.filter (· ≠ "") with
  | none => none
  | some header => readPairs name (header.toList.splitOn ';')

/-- A request with the given `cookie` and `x-csrf-token` headers. -/
def Request.ofHeaders (cookieHeader csrfHeader : Option String) : Request where
  cookie := readCookie cookieHeader
  csrfHeader := csrfHeader

-- A pair without a value, a value with equals signs, and a broken one.
example : readCookie (some "a; b = x%20=y; c=%E2%82") "b" = some "x =y"
    ∧ readCookie (some "a; b = x%20=y; c=%E2%82") "c" = none := by decide +kernel

/-! ## What is encoded is decoded -/

theorem percentBytes_of_ne {c : Char} (hc : c ≠ '%') (rest : List Char) :
    percentBytes (c :: rest) = (percentBytes rest).map (utf8 (String.singleton c) ++ ·) := by
  simp [percentBytes, hc]

theorem hexDigitValue?_hexDigitUpper :
    ∀ n < 16, Json.hexDigitValue? (hexDigitUpper n) = some n := by decide +kernel

theorem percentBytes_percentByte (b : UInt8) (rest : List Char) :
    percentBytes (percentByte b ++ rest) = (percentBytes rest).map (b :: ·) := by
  have hb : b.toNat < 256 := b.toNat_lt
  have hvalue : 16 * (b.toNat / 16) + b.toNat % 16 = b.toNat := by omega
  show percentBytes
    ('%' :: hexDigitUpper (b.toNat / 16) :: hexDigitUpper (b.toNat % 16) :: rest) = _
  rw [percentBytes, hexDigitValue?_hexDigitUpper _ (by omega),
    hexDigitValue?_hexDigitUpper _ (by omega)]
  simp only [hvalue, UInt8.ofNat_toNat]

theorem percentBytes_flatMap (bytes : List UInt8) (rest : List Char) :
    percentBytes (bytes.flatMap percentByte ++ rest) = (percentBytes rest).map (bytes ++ ·) := by
  induction bytes with
  | nil => simp
  | cons b bytes ih =>
    rw [List.flatMap_cons, List.append_assoc, percentBytes_percentByte, ih, Option.map_map]
    rfl

theorem percentBytes_encodeChar (c : Char) (rest : List Char) :
    percentBytes (encodeChar c ++ rest)
      = (percentBytes rest).map (utf8 (String.singleton c) ++ ·) := by
  unfold encodeChar
  split
  · next hunreserved =>
    apply percentBytes_of_ne
    intro hc
    rw [hc] at hunreserved
    exact absurd hunreserved (by decide)
  · exact percentBytes_flatMap _ rest

theorem percentBytes_encode (cs : List Char) :
    percentBytes (cs.flatMap encodeChar) = some (utf8 (String.ofList cs)) := by
  induction cs with
  | nil => rfl
  | cons c cs ih =>
    rw [List.flatMap_cons, percentBytes_encodeChar, ih, Option.map_some]
    congr 1
    simp [utf8, String.ofList_cons]

theorem decodeURIComponent_encodeURIComponent (s : String) :
    decodeURIComponent (encodeURIComponent s) = some s := by
  rw [decodeURIComponent, encodeURIComponent, String.toList_ofList, percentBytes_encode,
    Option.bind_some, utf8Text?_utf8, String.ofList_toList]

/-! ## What is encoded stays in one piece -/

/-- The characters that neither end a pair nor are trimmed off it. -/
def isCookieChar (c : Char) : Bool := c ≠ ';' && !isJsWhitespace c

theorem isCookieChar_of_isUnreserved {c : Char} (h : isUnreserved c = true) :
    isCookieChar c = true := by
  have hval : ∀ d : Char, c = d ↔ c.val.toNat = d.val.toNat := by
    intro d
    rw [Char.ext_iff, UInt32.toNat_inj]
  simp [isUnreserved, isCookieChar, isJsWhitespace, Char.le_def, UInt32.le_iff_toNat_le, hval,
    ← UInt32.toNat_inj] at h ⊢
  omega

theorem isCookieChar_hexDigitUpper : ∀ n < 16, isCookieChar (hexDigitUpper n) = true := by
  decide +kernel

theorem isCookieChar_percentByte {b : UInt8} {c : Char} (hc : c ∈ percentByte b) :
    isCookieChar c = true := by
  have hb : b.toNat < 256 := b.toNat_lt
  simp only [percentByte, List.mem_cons, List.not_mem_nil, or_false] at hc
  cases hc with
  | inl hpercent => rw [hpercent]; decide
  | inr hdigit =>
    cases hdigit with
    | inl hhigh => rw [hhigh]; exact isCookieChar_hexDigitUpper _ (by omega)
    | inr hlow => rw [hlow]; exact isCookieChar_hexDigitUpper _ (by omega)

theorem isCookieChar_encodeURIComponent {s : String} {c : Char}
    (hc : c ∈ (encodeURIComponent s).toList) : isCookieChar c = true := by
  rw [encodeURIComponent, String.toList_ofList, List.mem_flatMap] at hc
  obtain ⟨d, -, hc⟩ := hc
  unfold encodeChar at hc
  split at hc
  · next hunreserved =>
    rw [List.mem_singleton.mp hc]
    exact isCookieChar_of_isUnreserved hunreserved
  · obtain ⟨b, -, hc⟩ := List.mem_flatMap.mp hc
    exact isCookieChar_percentByte hc

theorem jsTrim_eq_self {s : String} (h : ∀ c ∈ s.toList, isJsWhitespace c = false) :
    jsTrim s = s := by
  have hkeep : ∀ cs : List Char, (∀ c ∈ cs, isJsWhitespace c = false) →
      cs.dropWhile isJsWhitespace = cs := by
    intro cs hcs
    cases cs with
    | nil => rfl
    | cons c cs => rw [List.dropWhile_cons, hcs c List.mem_cons_self, if_neg Bool.false_ne_true]
  rw [jsTrim, trimWhere, hkeep _ h, hkeep _ fun c hc => h c (List.mem_reverse.mp hc),
    List.reverse_reverse, String.ofList_toList]

theorem jsTrim_space (cs : List Char) :
    jsTrim (String.ofList (' ' :: cs)) = jsTrim (String.ofList cs) := by
  have hspace : isJsWhitespace ' ' = true := by decide
  rw [jsTrim, jsTrim, trimWhere, trimWhere, String.toList_ofList, String.toList_ofList,
    List.dropWhile_cons, hspace, if_pos rfl]

/-! ## The jar -/

/-- A name that a cookie can have. -/
@[ext]
structure CookieName where
  text : String
  chars : ∀ c ∈ text.toList, isCookieChar c = true ∧ c ≠ '='
  deriving DecidableEq

/-- A cookie as the browser holds it: its name, and the text that came behind it. -/
structure JarEntry where
  name : CookieName
  value : String
  noSemicolon : ';' ∉ value.toList

def JarEntry.text (e : JarEntry) : List Char := e.name.text.toList ++ '=' :: e.value.toList

/-- The cookies of one site, in the order in which they are sent. -/
abbrev Jar := List JarEntry

/-- The `cookie` header of a request. -/
def Jar.header (jar : Jar) : Option String :=
  if jar.isEmpty then none
  else some (String.ofList ([';', ' '].intercalate (jar.map JarEntry.text)))

/-- `response.cookie(name, value)`: the text that is sent is percent-encoded. -/
def JarEntry.ofResponse (name : CookieName) (value : String) : JarEntry where
  name := name
  value := encodeURIComponent value
  noSemicolon := fun h => absurd (isCookieChar_encodeURIComponent h) (by decide)

/-- What may happen to the jar between two requests. -/
inductive CookieOp where
  | cookie (name : CookieName) (value : String)
  | clearCookie (name : CookieName)
  /-- another service of the site, or a script of the page, has set the cookie -/
  | foreign (e : JarEntry)

def Jar.without (jar : Jar) (name : CookieName) : Jar := jar.filter fun e => e.name ≠ name

def Jar.after (jar : Jar) : CookieOp → Jar
  | .cookie name value => jar.without name ++ [.ofResponse name value]
  | .clearCookie name => jar.without name
  | .foreign e => jar.without e.name ++ [e]

/-- What the service reads of a cookie in the jar. -/
def JarEntry.read (e : JarEntry) : Option String := decodeURIComponent (jsTrim e.value)

/-- The same on a map from names to what is read. -/
def CookieOp.onMap (read : CookieName → Option String) : CookieOp → CookieName → Option String
  | .cookie name value => Function.update read name (some value)
  | .clearCookie name => Function.update read name none
  | .foreign e => Function.update read e.name e.read

theorem read_ofResponse (name : CookieName) (value : String) :
    (JarEntry.ofResponse name value).read = some value := by
  have htrim : jsTrim (encodeURIComponent value) = encodeURIComponent value := by
    apply jsTrim_eq_self
    intro c hc
    have hchar : isCookieChar c = true := isCookieChar_encodeURIComponent hc
    simp only [isCookieChar, Bool.and_eq_true, Bool.not_eq_true'] at hchar
    exact hchar.2
  show decodeURIComponent (jsTrim (encodeURIComponent value)) = some value
  rw [htrim, decodeURIComponent_encodeURIComponent]

/-! ## The header is taken apart into the jar -/

theorem takeWhile_text (e : JarEntry) : e.text.takeWhile (· ≠ '=') = e.name.text.toList := by
  rw [JarEntry.text, List.takeWhile_append_of_pos]
  · simp
  · intro c hc
    simpa using (e.name.chars c hc).2

theorem dropWhile_text (e : JarEntry) :
    e.text.dropWhile (· ≠ '=') = '=' :: e.value.toList := by
  rw [JarEntry.text, List.dropWhile_append_of_pos]
  · simp
  · intro c hc
    simpa using (e.name.chars c hc).2

theorem pairKey_text (e : JarEntry) : pairKey e.text = e.name.text := by
  rw [pairKey, takeWhile_text, String.ofList_toList]
  apply jsTrim_eq_self
  intro c hc
  have hchar : isCookieChar c = true := (e.name.chars c hc).1
  simp only [isCookieChar, Bool.and_eq_true, Bool.not_eq_true'] at hchar
  exact hchar.2

theorem pairValue_text (e : JarEntry) : pairValue e.text = jsTrim e.value := by
  rw [pairValue, dropWhile_text, List.drop_one, List.tail_cons, String.ofList_toList]

theorem not_mem_text (e : JarEntry) : ';' ∉ e.text := by
  intro h
  rw [JarEntry.text, List.mem_append, List.mem_cons] at h
  cases h with
  | inl hname => exact absurd (e.name.chars _ hname).1 (by decide)
  | inr hvalue =>
    cases hvalue with
    | inl hequals => exact absurd hequals (by decide)
    | inr hvalue => exact e.noSemicolon hvalue

/-- A blank in front of a pair is trimmed off its name. -/
theorem readPairs_space (name : String) (pair : List Char) (pairs : List (List Char)) :
    readPairs name ((' ' :: pair) :: pairs) = readPairs name (pair :: pairs) := by
  have hkey : pairKey (' ' :: pair) = pairKey pair := by
    rw [pairKey, pairKey, List.takeWhile_cons_of_pos (by decide), jsTrim_space]
  have hvalue : pairValue (' ' :: pair) = pairValue pair := by
    rw [pairValue, pairValue, List.dropWhile_cons_of_pos (by decide)]
  have hmem : '=' ∈ ' ' :: pair ↔ '=' ∈ pair := by simp
  simp only [readPairs, hkey, hvalue, hmem]

theorem readPairs_spaces (name : String) (pairs : List (List Char)) :
    readPairs name (pairs.map (' ' :: ·)) = readPairs name pairs := by
  induction pairs with
  | nil => rfl
  | cons pair pairs ih =>
    rw [List.map_cons, readPairs_space]
    simp only [readPairs, ih]

theorem readPairs_text (name : CookieName) (jar : Jar) :
    readPairs name.text (jar.map JarEntry.text)
      = (jar.find? fun e => e.name = name).bind JarEntry.read := by
  induction jar with
  | nil => rfl
  | cons e jar ih =>
    have hmem : '=' ∈ e.text := by simp [JarEntry.text]
    have hname : e.name.text = name.text ↔ e.name = name := by
      constructor
      · exact fun h => CookieName.ext h
      · exact fun h => h ▸ rfl
    simp only [List.map_cons, readPairs, pairKey_text, pairValue_text, List.find?_cons]
    by_cases he : e.name = name
    · rw [if_pos ⟨hmem, hname.mpr he⟩, decide_eq_true he]
      simp only [Option.bind_some, JarEntry.read]
    · rw [if_neg fun h => he (hname.mp h.2), decide_eq_false he]
      exact ih

/-- The separator is a semicolon, and the blank belongs to the pair behind it. -/
theorem intercalate_blank (pair : List Char) (pairs : List (List Char)) :
    [';', ' '].intercalate (pair :: pairs) = [';'].intercalate (pair :: pairs.map (' ' :: ·)) := by
  induction pairs generalizing pair with
  | nil => rfl
  | cons next pairs ih =>
    rw [List.map_cons, List.intercalate_cons_cons, List.intercalate_cons_cons, ih]
    cases pairs with
    | nil => simp [List.intercalate]
    | cons last pairs => simp [List.intercalate_cons_cons]

theorem readCookie_header (jar : Jar) (name : CookieName) :
    readCookie jar.header name.text = (jar.find? fun e => e.name = name).bind JarEntry.read := by
  cases jar with
  | nil => rfl
  | cons e jar =>
    have hne : String.ofList ([';', ' '].intercalate ((e :: jar).map JarEntry.text)) ≠ "" := by
      intro h
      have hmem : '=' ∈ [';', ' '].intercalate ((e :: jar).map JarEntry.text) := by
        cases jar with
        | nil => simp [List.intercalate, JarEntry.text]
        | cons e' jar => simp [List.intercalate_cons_cons, JarEntry.text]
      rw [← String.toList_inj, String.toList_ofList] at h
      rw [h] at hmem
      exact absurd hmem (by decide)
    have hsplit : ([';', ' '].intercalate ((e :: jar).map JarEntry.text)).splitOn ';'
        = e.text :: (jar.map JarEntry.text).map (' ' :: ·) := by
      rw [List.map_cons, intercalate_blank, List.splitOn_intercalate]
      · simp [not_mem_text]
      · exact List.cons_ne_nil _ _
    show readCookie (some _) name.text = _
    rw [readCookie, Option.filter_some, decide_eq_true hne, if_pos rfl]
    show readPairs name.text ((String.ofList _).toList.splitOn ';') = _
    rw [String.toList_ofList, hsplit, ← readPairs_text, List.map_cons]
    simp only [readPairs, readPairs_spaces]

/-! ## The jar is a map -/

theorem find?_without (jar : Jar) (name : CookieName) :
    ((jar.without name).find? fun e => e.name = name) = none := by
  rw [List.find?_eq_none]
  intro e he
  simpa using (List.mem_filter.mp he).2

theorem find?_without_of_ne {name other : CookieName} (jar : Jar) (h : other ≠ name) :
    ((jar.without name).find? fun e => e.name = other) = jar.find? fun e => e.name = other := by
  induction jar with
  | nil => rfl
  | cons e jar ih =>
    rw [Jar.without, List.filter_cons]
    by_cases he : e.name = name
    · rw [if_neg (by simpa using he), List.find?_cons, decide_eq_false (he ▸ Ne.symm h)]
      exact ih
    · rw [if_pos (by simpa using he), List.find?_cons, List.find?_cons]
      split
      · rfl
      · exact ih

/-- A cookie that is set anew is read, and every other as before. -/
theorem readCookie_set (jar : Jar) (e : JarEntry) (name : CookieName) :
    readCookie (Jar.header (jar.without e.name ++ [e])) name.text
      = Function.update (fun name => readCookie jar.header name.text) e.name e.read name := by
  rw [readCookie_header, List.find?_append]
  by_cases hname : name = e.name
  · rw [hname, find?_without, Function.update_self]
    simp
  · rw [find?_without_of_ne jar hname, Function.update_of_ne hname, readCookie_header]
    simp [Ne.symm hname]

theorem readCookie_after (jar : Jar) (op : CookieOp) :
    (fun name => readCookie (jar.after op).header name.text)
      = op.onMap fun name => readCookie jar.header name.text := by
  funext name
  cases op with
  | cookie set value =>
    have hset := readCookie_set jar (.ofResponse set value) name
    rw [read_ofResponse] at hset
    exact hset
  | clearCookie cleared =>
    show readCookie (Jar.header (jar.without cleared)) name.text = _
    rw [readCookie_header]
    by_cases hname : name = cleared
    · rw [hname, find?_without, CookieOp.onMap, Function.update_self]
      rfl
    · rw [find?_without_of_ne jar hname, CookieOp.onMap, Function.update_of_ne hname,
        readCookie_header]
  | foreign e => exact readCookie_set jar e name

end MortgageAgent.Auth
