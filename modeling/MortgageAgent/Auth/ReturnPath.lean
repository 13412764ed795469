import Mathlib.Data.List.Basic

/-!
# The way back from a login

`beginLogin` keeps the path to return to in a cookie, and `completeLogin` resolves the cookie
against the origin of the console. Both let a value through that starts with one slash and not with
two; the URL parser first drops tabs and line ends, and takes a backslash for a slash.

* **`validateReturnPath`**, **`beginLogin`**, **`completeLogin`** — as the service has them.
* **`resolve`** — the URL parser on a text that starts with a slash, under an `http` or `https`
  base.
* **`login_stays_iff`** — when the URL is one of the console.
-/

namespace MortgageAgent.Auth.ReturnPath

/-! ## The URL parser -/

structure Origin where
  scheme : String
  host : String
  /-- none where it is the default of the scheme -/
  port : Option Nat
  deriving DecidableEq

/-- What is left to the parser's host and port states: the host and the port of the text between
the slashes and the path, without its credentials. It fails on a text that is no host. -/
abbrev AuthorityParser := (scheme : String) → (authority : List Char) → Option (String × Option Nat)

structure Url where
  origin : Origin
  /-- the text of the path, the query and the fragment -/
  path : List Char

def isC0OrSpace (c : Char) : Bool := c.toNat ≤ 0x20

def isTabOrNewline (c : Char) : Bool := c = '\t' || c = '\n' || c = '\r'

/-- For `http` and `https` a backslash is a slash. -/
def isSlash (c : Char) : Bool := c = '/' || c = '\\'

/-- The text that the states of the parser read. -/
def cleaned (text : List Char) : List Char :=
  ((text.dropWhile isC0OrSpace).reverse.dropWhile isC0OrSpace).reverse.filter (!isTabOrNewline ·)

def endsAuthority (c : Char) : Bool := isSlash c || c = '?' || c = '#'

/-- "Special authority ignore slashes" and the states after it. -/
def parseAuthority (authority : AuthorityParser) (scheme : String) (text : List Char) :
    Option Url :=
  let text := text.dropWhile isSlash
  (authority scheme (text.takeWhile (!endsAuthority ·))).map fun (host, port) =>
    { origin := { scheme, host, port }, path := text.dropWhile (!endsAuthority ·) }

/-- "Relative slash", after the first slash. -/
def relativeSlash (authority : AuthorityParser) (base : Origin) (text : List Char) : Option Url :=
  match text with
  | c :: more =>
    if isSlash c then parseAuthority authority base.scheme more
    else some { origin := base, path := '/' :: text }
  | [] => some { origin := base, path := ['/'] }

/-- `new URL(text, base)`; `other` is what the parser makes of a text that starts with no slash. -/
def resolve (authority : AuthorityParser) (other : List Char → Option Url) (base : Origin)
    (text : String) : Option Url :=
  match cleaned text.toList with
  | c :: more => if isSlash c then relativeSlash authority base more else other (c :: more)
  | [] => other []

/-! ## The service -/

def validateReturnPath (value : String) : String :=
  if !"/".toList.isPrefixOf value.toList || "//".toList.isPrefixOf value.toList then "/" else value

/-- The value of the return cookie. -/
def beginLogin (returnTo : Option String) : String := validateReturnPath (returnTo.getD "/")

inductive LoginFailure where
  | unauthorized (message : String)
  /-- the `TypeError` of `new URL` -/
  | invalidUrl
  deriving DecidableEq

/-- `signIn` is what comes between: the check of the state, the exchange of the code, the user and
the session. -/
def completeLogin (authority : AuthorityParser) (other : List Char → Option Url)
    (consoleOrigin : Origin) (signIn : Except LoginFailure Unit) (returnCookie : Option String) :
    Except LoginFailure Url := do
  let returnTo := validateReturnPath (returnCookie.getD "/")
  signIn
  match resolve authority other consoleOrigin returnTo with
  | none => .error .invalidUrl
  | some url => .ok url

/-! ## When it stays -/

variable {authority : AuthorityParser} {other : List Char → Option Url} {consoleOrigin : Origin}

/-- Whatever comes of the sign-in, a URL that is returned is one of the console. -/
def Stays (authority : AuthorityParser) (other : List Char → Option Url) (consoleOrigin : Origin)
    (returnCookie : Option String) : Prop :=
  ∀ (signIn : Except LoginFailure Unit) (url : Url),
    completeLogin authority other consoleOrigin signIn returnCookie = .ok url →
    url.origin = consoleOrigin

def OneSlash (text : List Char) : Prop := ∃ more, text = '/' :: more ∧ more.head? ≠ some '/'

/-- Where the value starts with one slash, and its second character, but for tabs and line ends, is
a slash or a backslash, what follows is no host, or the console's own. -/
def Inside (authority : AuthorityParser) (consoleOrigin : Origin) (value : Option String) : Prop :=
  ∀ text ∈ value, OneSlash text.toList →
    ∀ c more, cleaned text.toList = '/' :: c :: more → isSlash c = true →
      ∀ hostPort ∈ authority consoleOrigin.scheme
          ((more.dropWhile isSlash).takeWhile (!endsAuthority ·)),
        hostPort = (consoleOrigin.host, consoleOrigin.port)

theorem validateReturnPath_cases (value : String) :
    validateReturnPath value = "/" ∨ validateReturnPath value = value := by
  rw [validateReturnPath]
  split
  · exact Or.inl rfl
  · exact Or.inr rfl

theorem validateReturnPath_root : validateReturnPath "/" = "/" := by decide

theorem validateReturnPath_of_oneSlash {value : String} (h : OneSlash value.toList) :
    validateReturnPath value = value := by
  obtain ⟨more, hmore, hhead⟩ := h
  rw [validateReturnPath, if_neg]
  simp only [hmore, Bool.or_eq_true, Bool.not_eq_true', not_or, Bool.not_eq_true]
  cases more with
  | nil => decide
  | cons c more =>
    have hc : ('/' == c) = false := beq_false_of_ne fun h => hhead (congrArg some h.symm)
    simp [List.isPrefixOf, hc]

theorem oneSlash_of_validateReturnPath {value : String} (h : validateReturnPath value = value) :
    OneSlash value.toList := by
  rw [validateReturnPath] at h
  split at h
  · exact ⟨[], congrArg String.toList h.symm, nofun⟩
  · rename_i hgood
    simp only [Bool.or_eq_true, Bool.not_eq_true', not_or, Bool.not_eq_false] at hgood
    obtain ⟨more, hmore⟩ := List.isPrefixOf_iff_prefix.mp hgood.1
    refine ⟨more, hmore.symm, fun hhead => hgood.2 ?_⟩
    obtain ⟨rest, rfl⟩ := List.head?_eq_some_iff.mp hhead
    exact List.isPrefixOf_iff_prefix.mpr ⟨rest, hmore⟩

theorem validateReturnPath_idem (value : String) :
    validateReturnPath (validateReturnPath value) = validateReturnPath value := by
  rcases validateReturnPath_cases value with h | h
  · rw [h, validateReturnPath_root]
  · rw [h, h]

/-- The slash at the start is neither of the ends nor in between: it stays first. -/
theorem cleaned_slash (more : List Char) : ∃ rest, cleaned ('/' :: more) = '/' :: rest := by
  have hlead : ('/' :: more).dropWhile isC0OrSpace = '/' :: more :=
    List.dropWhile_cons_of_neg (by decide)
  have htrail : ∃ kept, (('/' :: more).reverse.dropWhile isC0OrSpace).reverse = '/' :: kept := by
    rw [List.reverse_cons, List.dropWhile_append]
    split
    · exact ⟨[], by decide⟩
    · exact ⟨(more.reverse.dropWhile isC0OrSpace).reverse, by simp⟩
  obtain ⟨kept, hkept⟩ := htrail
  refine ⟨kept.filter (!isTabOrNewline ·), ?_⟩
  rw [cleaned, hlead, hkept]
  exact List.filter_cons_of_pos (by decide)

theorem parseAuthority_origin_iff {more : List Char} :
    (∀ url ∈ parseAuthority authority consoleOrigin.scheme more, url.origin = consoleOrigin) ↔
      ∀ hostPort ∈ authority consoleOrigin.scheme
          ((more.dropWhile isSlash).takeWhile (!endsAuthority ·)),
        hostPort = (consoleOrigin.host, consoleOrigin.port) := by
  obtain ⟨scheme, host, port⟩ := consoleOrigin
  constructor
  · intro hurl hostPort hhost
    have horigin := hurl _ (Option.mem_map_of_mem _ hhost)
    simp only [Origin.mk.injEq, true_and] at horigin
    exact Prod.ext horigin.1 horigin.2
  · intro hall url hurl
    obtain ⟨hostPort, hhost, rfl⟩ := Option.map_eq_some_iff.mp hurl
    rw [hall hostPort hhost]

/-- One slash and something else keeps the origin of the base. -/
theorem resolve_origin_iff {text : String} (h : OneSlash text.toList) :
    (∀ url ∈ resolve authority other consoleOrigin text, url.origin = consoleOrigin) ↔
      Inside authority consoleOrigin (some text) := by
  obtain ⟨more, hmore, -⟩ := id h
  obtain ⟨rest, hrest⟩ := cleaned_slash more
  rw [← hmore] at hrest
  have hslash : isSlash '/' = true := by decide
  have hresolve : resolve authority other consoleOrigin text =
      relativeSlash authority consoleOrigin rest := by
    simp only [resolve, hrest, hslash, if_true]
  rw [hresolve]
  constructor
  · rintro hurl _ ⟨⟩ - c tail hcleaned hc
    obtain rfl : rest = c :: tail := List.tail_eq_of_cons_eq (hrest.symm.trans hcleaned)
    rw [relativeSlash, if_pos hc] at hurl
    exact parseAuthority_origin_iff.mp hurl
  · intro hin url hurl
    cases rest with
    | nil =>
      rw [relativeSlash, Option.mem_some_iff] at hurl
      rw [← hurl]
    | cons c tail =>
      rw [relativeSlash] at hurl
      by_cases hc : isSlash c = true
      · rw [if_pos hc] at hurl
        exact parseAuthority_origin_iff.mpr (hin text rfl h c tail hrest hc) url hurl
      · rw [if_neg hc, Option.mem_some_iff] at hurl
        rw [← hurl]

theorem inside_root : Inside authority consoleOrigin (some "/") := by
  rintro _ ⟨⟩ - c more hcleaned
  have hroot : cleaned "/".toList = ['/'] := by decide
  rw [hroot] at hcleaned
  exact absurd hcleaned (by simp)

/-- What the check leaves of a value is inside where the value is. -/
theorem inside_validateReturnPath_iff (value : Option String) :
    Inside authority consoleOrigin (some (validateReturnPath (value.getD "/"))) ↔
      Inside authority consoleOrigin value := by
  cases value with
  | none =>
    rw [Option.getD_none, validateReturnPath_root]
    exact iff_of_true inside_root nofun
  | some text =>
    rw [Option.getD_some]
    rcases validateReturnPath_cases text with hroot | hsame
    · rw [hroot]
      refine iff_of_true inside_root ?_
      rintro _ ⟨⟩ hone c more hcleaned
      rw [validateReturnPath_of_oneSlash hone] at hroot
      exact inside_root _ rfl (hroot ▸ hone) c more (hroot ▸ hcleaned)
    · rw [hsame]

theorem stays_iff (cookie : Option String) :
    Stays authority other consoleOrigin cookie ↔ Inside authority consoleOrigin cookie := by
  have hone := oneSlash_of_validateReturnPath (validateReturnPath_idem (cookie.getD "/"))
  rw [← inside_validateReturnPath_iff cookie, ← resolve_origin_iff hone]
  constructor
  · intro hstays url hurl
    refine hstays (.ok ()) url ?_
    rw [completeLogin]
    simp only [Option.mem_def] at hurl
    rw [hurl]
    rfl
  · intro horigin signIn url hlogin
    cases signIn with
    | error failure => exact absurd hlogin nofun
    | ok _ =>
      refine horigin url ?_
      rw [completeLogin] at hlogin
      cases hfound : resolve authority other consoleOrigin
          (validateReturnPath (cookie.getD "/")) with
      | none =>
        rw [hfound] at hlogin
        exact absurd hlogin nofun
      | some found =>
        rw [hfound] at hlogin
        exact congrArg some (Except.ok.inj hlogin)

/-- For the text given to `beginLogin`, and for whatever the cookie holds. -/
theorem login_stays_iff (authority : AuthorityParser) (other : List Char → Option Url)
    (consoleOrigin : Origin) (returnTo cookie : Option String) :
    (Stays authority other consoleOrigin (some (beginLogin returnTo)) ∧
        Stays authority other consoleOrigin cookie) ↔
      Inside authority consoleOrigin returnTo ∧ Inside authority consoleOrigin cookie := by
  rw [stays_iff, stays_iff, beginLogin, inside_validateReturnPath_iff]

def console : Origin := { scheme := "https", host := "console.example", port := none }

/-- Every text is a host of that name, on the default port. -/
def plainHosts : AuthorityParser := fun _ text => some (String.ofList text, none)

theorem backslash_leaves : ¬ Stays plainHosts (fun _ => none) console
    (some (beginLogin (some "/\\evil.example/x"))) := by
  intro hstays
  have hurl := hstays (.ok ())
    { origin := { console with host := "evil.example" }, path := ['/', 'x'] } rfl
  exact absurd hurl (by decide)

end MortgageAgent.Auth.ReturnPath
