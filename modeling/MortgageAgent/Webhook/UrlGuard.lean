import MortgageAgent.Lib.JsonParse
import MortgageAgent.Platform

/-!
# The webhook target guard

`webhook-url-guard.ts`. A target is refused unless it is an `http` or `https` URL whose host is an
IP literal outside the blocked ranges, or a name that a lookup resolves to such addresses only.

* **`isIPv4`**, **`isIPv6`** — the texts `node:net` takes for addresses.
* **`ipv4ToInt`**, **`ipv6ToBigInt`** — their values, on 32-bit and on unbounded integers.
* **`isBlockedAddress`**, **`isLoopback`** — the ranges.
* **`assertPublicWebhookTarget`** — the guard, for one answer of the resolver.
* **`assertPublicWebhookTarget_ok_iff`** — what it lets through outside the sandbox.

`new URL` is a parameter, as far as the guard and `fetch` look at a URL. `none` stands for the
`RangeError` of `BigInt(NaN)`, which only a group inside a zone identifier can raise.
-/

namespace MortgageAgent.Webhook

/-! ## Address texts -/

/-- A number up to 255, with no leading zero. -/
def isV4Seg (cs : List Char) : Bool :=
  Json.isInt cs && Nat.ofDigitChars 10 cs 0 ≤ 255

def isIPv4Chars (cs : List Char) : Bool :=
  let segs := cs.splitOn '.'
  segs.length = 4 && segs.all isV4Seg

def isIPv4 (address : String) : Bool := isIPv4Chars address.toList

def isHexDigit (c : Char) : Bool := (Json.hexDigitValue? c).isSome

def isV6Seg (cs : List Char) : Bool := !cs.isEmpty && cs.length ≤ 4 && cs.all isHexDigit

/-- The groups that the segments stand for: an IPv4 text at the end stands for two. -/
def v6GroupCount (v4Tail : Bool) : List (List Char) → Option Nat
  | [] => some 0
  | [seg] =>
    if isV6Seg seg then some 1 else if v4Tail && isIPv4Chars seg then some 2 else none
  | seg :: segs => if isV6Seg seg then (v6GroupCount v4Tail segs).map (· + 1) else none

/-- What stands before the first `::`, and what stands after it. -/
def breakDoubleColon : List Char → Option (List Char × List Char)
  | ':' :: ':' :: after => some ([], after)
  | c :: cs => (breakDoubleColon cs).map fun (before, after) => (c :: before, after)
  | [] => none

/-- One side of a `::`, which may be empty. -/
def v6SideCount (v4Tail : Bool) (side : List Char) : Option Nat :=
  if side.isEmpty then some 0 else v6GroupCount v4Tail (side.splitOn ':')

/-- Eight groups, or fewer around one `::`. -/
def isV6Chars (cs : List Char) : Bool :=
  match breakDoubleColon cs with
  | none => v6GroupCount true (cs.splitOn ':') = some 8
  | some (head, tail) =>
    match v6SideCount false head, v6SideCount true tail with
    | some m, some n => m + n ≤ 7
    | _, _ => false

def isZoneChar (c : Char) : Bool := c.isAlphanum || c = '-' || c = '.' || c = ':'

/-- An address, perhaps with a zone behind a `%`. -/
def isIPv6 (address : String) : Bool :=
  let cs := address.toList
  let zone := cs.dropWhile (· ≠ '%')
  isV6Chars (cs.takeWhile (· ≠ '%'))
    && (zone.isEmpty || (!zone.tail.isEmpty && zone.tail.all isZoneChar))

/-! ## IPv4 -/

/-- The result of a bitwise operator: a signed 32-bit integer. -/
def toInt32 (n : Int) : Int := n.bmod (2 ^ 32)

/-- `n >>> k`. -/
def ushr (n : Int) (k : Nat) : Int := n % 2 ^ 32 / 2 ^ k

/-- `(acc << 8) + Number(octet)`, over the octets. -/
def ipv4ToInt (address : String) : Int :=
  (address.toList.splitOn '.').foldl
    (fun acc octet => toInt32 (acc * 2 ^ 8) + (Nat.ofDigitChars 10 octet 0 : Int)) 0

structure Ipv4Range where
  base : Int
  prefixLength : Nat
  deriving DecidableEq, Repr

def range (base : String) (prefixLength : Nat) : Ipv4Range where
  base := ipv4ToInt base
  prefixLength := prefixLength

def Ipv4Range.contains (r : Ipv4Range) (value : Int) : Bool :=
  ushr value (32 - r.prefixLength) = ushr r.base (32 - r.prefixLength)

def blockedIpv4Ranges : List Ipv4Range :=
  [range "0.0.0.0" 8,
    range "10.0.0.0" 8,
    range "100.64.0.0" 10,
    range "127.0.0.0" 8,
    range "169.254.0.0" 16,
    range "172.16.0.0" 12,
    range "192.0.0.0" 24,
    range "192.0.2.0" 24,
    range "192.168.0.0" 16,
    range "198.18.0.0" 15,
    range "198.51.100.0" 24,
    range "203.0.113.0" 24,
    range "224.0.0.0" 4,
    range "240.0.0.0" 4]

def isBlockedIpv4 (address : String) : Bool :=
  blockedIpv4Ranges.any fun r => r.contains (ipv4ToInt address)

/-! ## IPv6 -/

/-- `(\d+\.\d+\.\d+\.\d+)$`, matched as far to the left as it can. -/
def ipv4Tail : List Char → Option (List Char)
  | [] => none
  | c :: cs =>
    let octets := (c :: cs).splitOn '.'
    if octets.length = 4 && octets.all Json.isDigits then some (c :: cs) else ipv4Tail cs

/-- `Number(octet).toString(16).padStart(2, '0')`. -/
def hexOctet (octet : List Char) : List Char :=
  let digits := Nat.toDigits 16 (Nat.ofDigitChars 10 octet 0)
  List.replicate (2 - digits.length) '0' ++ digits

/-- The IPv4 tail as two groups. -/
def normalizeIpv4Tail (address : List Char) : List Char :=
  match ipv4Tail address with
  | none => address
  | some tail =>
    let hex := (tail.splitOn '.').map hexOctet
    address.take (address.length - tail.length) ++ hex.getD 0 [] ++ hex.getD 1 []
      ++ ':' :: (hex.getD 2 [] ++ hex.getD 3 [])

/-- `side.split(':').filter(Boolean)`. -/
def groupsOf (side : List Char) : List (List Char) :=
  (side.splitOn ':').filter fun group => !group.isEmpty

/-- The groups around the first `::`, with zeros for those it stands for. -/
def ipv6Groups (normalized : List Char) : List (List Char) :=
  let (head, tail) :=
    match breakDoubleColon normalized with
    | none => (normalized, [])
    | some (head, after) =>
      match breakDoubleColon after with
      | none => (head, after)
      | some (tail, _) => (head, tail)
  let headGroups := groupsOf head
  let tailGroups := groupsOf tail
  headGroups ++ List.replicate (8 - headGroups.length - tailGroups.length) ['0'] ++ tailGroups

def ofHexChars (cs : List Char) : Nat :=
  cs.foldl (fun acc c => acc * 16 + (Json.hexDigitValue? c).getD 0) 0

/-- `parseInt(group, 16)`, or `none` for `NaN`. -/
def parseInt16 (group : List Char) : Option Int :=
  let cs := group.dropWhile isJsWhitespace
  let negative := cs.head? = some '-'
  let cs := if cs.head? = some '-' || cs.head? = some '+' then cs.tail else cs
  let cs := if cs.take 2 = ['0', 'x'] || cs.take 2 = ['0', 'X'] then cs.drop 2 else cs
  let digits := cs.takeWhile isHexDigit
  if digits.isEmpty then none
  else some (if negative then -(ofHexChars digits : Int) else (ofHexChars digits : Int))

def ipv6ToBigInt (address : String) : Option Int :=
  (ipv6Groups (normalizeIpv4Tail address.toList)).foldlM
    (fun acc group => (parseInt16 group).map fun value => acc * 2 ^ 16 + value) 0

/-- The IPv4 address in the last 32 bits. -/
def embeddedIpv4 (value : Int) : String :=
  ".".intercalate
    [toString (value / 2 ^ 24 % 2 ^ 8), toString (value / 2 ^ 16 % 2 ^ 8),
      toString (value / 2 ^ 8 % 2 ^ 8), toString (value % 2 ^ 8)]

def isBlockedIpv6Value (value : Int) : Bool :=
  let firstGroup := value / 2 ^ 112
  if value = 0 then true
  else if value = 1 then true
  else if 0xfc00 ≤ firstGroup ∧ firstGroup ≤ 0xfdff then true
  else if 0xfe80 ≤ firstGroup ∧ firstGroup ≤ 0xfebf then true
  else if 0xff00 ≤ firstGroup ∧ firstGroup ≤ 0xffff then true
  else if value / 2 ^ 32 = 0xffff then isBlockedIpv4 (embeddedIpv4 value)
  else false

def isBlockedIpv6 (address : String) : Option Bool :=
  (ipv6ToBigInt address).map isBlockedIpv6Value

/-- A text that is no address is blocked. -/
def isBlockedAddress (address : String) : Option Bool :=
  if isIPv4 address then some (isBlockedIpv4 address)
  else if isIPv6 address then isBlockedIpv6 address
  else some true

def loopbackIpv4 : Ipv4Range := range "127.0.0.0" 8

def isLoopbackIpv4 (address : String) : Bool := loopbackIpv4.contains (ipv4ToInt address)

/-- The embedded address is an IPv4 text, so it is looked at as one. -/
def isLoopback (address : String) : Option Bool :=
  if isIPv4 address then some (isLoopbackIpv4 address)
  else if isIPv6 address then
    (ipv6ToBigInt address).map fun value =>
      if value = 1 then true
      else if value / 2 ^ 32 = 0xffff then isLoopbackIpv4 (embeddedIpv4 value)
      else false
  else some false

/-! ## The guard -/

inductive NodeEnvironment where
  | development
  | test
  | staging
  | production
  deriving DecidableEq, Repr

def isSandboxEnvironment (nodeEnv : NodeEnvironment) : Bool :=
  nodeEnv = .development || nodeEnv = .test

/-- A parsed URL. -/
structure Url where
  protocol : String
  hostname : String
  /-- `fetch` takes it: it has no credentials, and its port is none of those `fetch` refuses -/
  fetchable : Bool
  deriving DecidableEq, Repr

/-- The addresses a lookup answers, or the message of its error. -/
abbrev Lookup := Except String (List String)

inductive GuardFailure where
  | webhookTargetBlocked (message : String)
  | range (message : String)
  deriving DecidableEq, Repr

def GuardFailure.message : GuardFailure → String
  | .webhookTargetBlocked message | .range message => message

/-- `BigInt(NaN)`. -/
def notAnInteger : GuardFailure :=
  .range "The number NaN cannot be converted to a BigInt because it is not an integer"

/-- The host without the brackets of an IPv6 literal. -/
def Url.bareHostname (url : Url) : String :=
  if url.hostname.toList.head? = some '[' && url.hostname.toList.getLast? = some ']' then
    String.ofList url.hostname.toList.tail.dropLast
  else url.hostname

def Url.isLiteral (url : Url) : Bool := isIPv4 url.bareHostname || isIPv6 url.bareHostname

/-- The literal, or what the lookup answers for the name. -/
def Url.addresses (url : Url) (lookup : Lookup) : Lookup :=
  if url.isLiteral then .ok [url.bareHostname] else lookup

/-- `filter`, with a test that may throw. -/
def filterThrowing {α : Type} (p : α → Option Bool) : List α → Option (List α)
  | [] => some []
  | x :: xs =>
    match p x, filterThrowing p xs with
    | some true, some kept => some (x :: kept)
    | some false, some kept => some kept
    | _, _ => none

/-- The blocked ones of the addresses, but for loopback where that is allowed. -/
def blockedOf (allowLoopbackForSandbox : Bool) (addresses : List String) : Option (List String) :=
  (filterThrowing isBlockedAddress addresses).bind <| filterThrowing fun address =>
    if allowLoopbackForSandbox then (isLoopback address).map not else some true

def assertPublicWebhookTarget (parseUrl : String → Option Url) (targetUrl : String)
    (allowLoopbackForSandbox : Bool) (lookup : Lookup) : Except GuardFailure Unit :=
  match parseUrl targetUrl with
  | none => .error (.webhookTargetBlocked ("\"" ++ targetUrl ++ "\" is not a valid URL"))
  | some parsed =>
    if parsed.protocol ≠ "http:" ∧ parsed.protocol ≠ "https:" then
      .error (.webhookTargetBlocked
        ("webhook target must use http or https, got \"" ++ parsed.protocol ++ "\""))
    else
      let host := "webhook target host \"" ++ parsed.hostname ++ "\" "
      match parsed.addresses lookup with
      | .error message =>
        .error (.webhookTargetBlocked (host ++ "could not be resolved: " ++ message))
      | .ok [] => .error (.webhookTargetBlocked (host ++ "did not resolve to any address"))
      | .ok addresses =>
        match blockedOf allowLoopbackForSandbox addresses with
        | none => .error notAnInteger
        | some [] => .ok ()
        | some blocked =>
          .error (.webhookTargetBlocked (host ++ "resolves to a private or reserved address ("
            ++ ", ".intercalate blocked ++ ") and cannot be used"))

/-! ## What it lets through -/

theorem filterThrowing_eq_nil_iff {α : Type} {p : α → Option Bool} {xs : List α} :
    filterThrowing p xs = some [] ↔ ∀ x ∈ xs, p x = some false := by
  induction xs with
  | nil => simp [filterThrowing]
  | cons x xs ih =>
    rw [List.forall_mem_cons, ← ih, filterThrowing]
    cases p x with
    | none => simp
    | some blocked =>
      cases filterThrowing p xs with
      | none => cases blocked <;> simp
      | some kept => cases blocked <;> simp

/-- What the test keeps, and what it does not. -/
theorem filterThrowing_cases {α : Type} {p : α → Option Bool} {xs kept : List α}
    (h : filterThrowing p xs = some kept) : ∀ x ∈ xs, p x = some false ∨ x ∈ kept := by
  induction xs generalizing kept with
  | nil => simp
  | cons y ys ih =>
    rw [filterThrowing] at h
    split at h
    · next rest hy hrest =>
      cases h
      refine List.forall_mem_cons.mpr ⟨.inr List.mem_cons_self, fun x hx => ?_⟩
      exact (ih hrest x hx).imp_right (List.mem_cons_of_mem y)
    · next rest hy hrest =>
      cases h
      exact List.forall_mem_cons.mpr ⟨.inl hy, ih hrest⟩
    · cases h

theorem filterThrowing_true {α : Type} (xs : List α) :
    filterThrowing (fun _ => some true) xs = some xs := by
  induction xs with
  | nil => rfl
  | cons x xs ih => rw [filterThrowing, ih]

theorem blockedOf_eq_nil_iff {addresses : List String} :
    blockedOf false addresses = some [] ↔ ∀ a ∈ addresses, isBlockedAddress a = some false := by
  rw [← filterThrowing_eq_nil_iff, blockedOf]
  simp [filterThrowing_true]

/-- The guard returns when nothing is left of the addresses that it blocks. -/
theorem assertPublicWebhookTarget_ok_iff_blockedOf {parseUrl : String → Option Url}
    {targetUrl : String} {allowLoopbackForSandbox : Bool} {lookup : Lookup} :
    assertPublicWebhookTarget parseUrl targetUrl allowLoopbackForSandbox lookup = .ok () ↔
      ∃ url addresses, parseUrl targetUrl = some url
        ∧ (url.protocol = "http:" ∨ url.protocol = "https:")
        ∧ url.addresses lookup = .ok addresses ∧ addresses ≠ []
        ∧ blockedOf allowLoopbackForSandbox addresses = some [] := by
  unfold assertPublicWebhookTarget
  constructor
  · intro h
    split at h
    · cases h
    · next url hparse =>
      split at h
      · cases h
      · next hprotocol =>
        dsimp only at h
        split at h
        · cases h
        · cases h
        · next addresses hne haddresses =>
          split at h
          · cases h
          · next hnone =>
            refine ⟨url, addresses, hparse, ?_, haddresses, hne, hnone⟩
            by_contra hother
            exact hprotocol (not_or.mp hother)
          · cases h
  · rintro ⟨url, addresses, hparse, hprotocol, haddresses, hne, hnone⟩
    have hhttp : ¬ (url.protocol ≠ "http:" ∧ url.protocol ≠ "https:") := by
      rintro ⟨hnot, hnots⟩
      exact hprotocol.elim hnot hnots
    rw [hparse]
    dsimp only
    rw [if_neg hhttp, haddresses]
    cases addresses with
    | nil => exact absurd rfl hne
    | cons a rest =>
      dsimp only
      rw [hnone]

/-- **What the guard lets through** outside the sandbox: an `http` or `https` URL with at least one
address, none of them blocked. -/
theorem assertPublicWebhookTarget_ok_iff {parseUrl : String → Option Url} {targetUrl : String}
    {lookup : Lookup} :
    assertPublicWebhookTarget parseUrl targetUrl false lookup = .ok () ↔
      ∃ url addresses, parseUrl targetUrl = some url
        ∧ (url.protocol = "http:" ∨ url.protocol = "https:")
        ∧ url.addresses lookup = .ok addresses ∧ addresses ≠ []
        ∧ ∀ a ∈ addresses, isBlockedAddress a = some false := by
  simp only [assertPublicWebhookTarget_ok_iff_blockedOf, blockedOf_eq_nil_iff]

end MortgageAgent.Webhook
