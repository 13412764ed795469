import MortgageAgent.Webhook.AddressText

/-!
# What the target guard lets through

The guard tests its ranges with shifts of numbers. Here the ranges are intervals of addresses, and
every target that passes has addresses outside them only.

* **`Listed`**, **`Loopback`** — the ranges, as intervals.
* **`isBlockedIpv4_iff`**, **`isBlockedIpv6Value_iff`** — the shifts agree with the intervals.
* **`acceptedTarget_unlisted`** — what is known of the addresses of a target that passes.
-/

namespace MortgageAgent.Webhook

open IpText

/-! ## The ranges -/

def ipv4Block (base : Quad) (prefixLength : Nat) : Block where
  bits := 32
  base := base.value
  prefixLength := prefixLength

/-- The bases and the prefixes of the listed IPv4 ranges. -/
def listedBases : List (Quad × Nat) :=
  [(⟨0, 0, 0, 0⟩, 8),
    (⟨10, 0, 0, 0⟩, 8),
    (⟨100, 64, 0, 0⟩, 10),
    (⟨127, 0, 0, 0⟩, 8),
    (⟨169, 254, 0, 0⟩, 16),
    (⟨172, 16, 0, 0⟩, 12),
    (⟨192, 0, 0, 0⟩, 24),
    (⟨192, 0, 2, 0⟩, 24),
    (⟨192, 168, 0, 0⟩, 16),
    (⟨198, 18, 0, 0⟩, 15),
    (⟨198, 51, 100, 0⟩, 24),
    (⟨203, 0, 113, 0⟩, 24),
    (⟨224, 0, 0, 0⟩, 4),
    (⟨240, 0, 0, 0⟩, 4)]

def listedIpv4 : List Block := listedBases.map fun (base, prefixLength) => ipv4Block base prefixLength

/-- `::`, `::1`, `fc00::/7`, `fe80::/10` and `ff00::/8`. -/
def listedIpv6 : List Block :=
  [⟨128, 0, 128⟩, ⟨128, 1, 128⟩, ⟨128, 0xfc00 * 2 ^ 112, 7⟩, ⟨128, 0xfe80 * 2 ^ 112, 10⟩,
    ⟨128, 0xff00 * 2 ^ 112, 8⟩]

/-- The mapped form `::ffff:a.b.c.d` of an IPv4 address. -/
def mappedIpv4 (value : Nat) : Nat := 0xffff * 2 ^ 32 + value

def ListedIpv4 (value : Nat) : Prop := ∃ b ∈ listedIpv4, b.Mem value

def LoopbackIpv4 (value : Nat) : Prop := (ipv4Block ⟨127, 0, 0, 0⟩ 8).Mem value

def Listed : Address → Prop
  | .v4 value => ListedIpv4 value
  | .v6 value =>
    (∃ b ∈ listedIpv6, b.Mem value) ∨ ∃ w < 2 ^ 32, value = mappedIpv4 w ∧ ListedIpv4 w

def Loopback : Address → Prop
  | .v4 value => LoopbackIpv4 value
  | .v6 value => value = 1 ∨ ∃ w < 2 ^ 32, value = mappedIpv4 w ∧ LoopbackIpv4 w

/-! ## The shifts -/

theorem listed_aligned : ∀ b ∈ listedBases, (ipv4Block b.1 b.2).Aligned := by decide

/-- A range holds the addresses that agree with its base on the prefix. -/
theorem range_contains_iff {base : Quad} {prefixLength : Nat}
    (haligned : (ipv4Block base prefixLength).Aligned) {address : String} {q : Quad}
    (h : address.toList = q.text) :
    (range (String.ofList base.text) prefixLength).contains (ipv4ToInt address) = true
      ↔ (ipv4Block base prefixLength).Mem q.value := by
  have hbase : ipv4ToInt (String.ofList base.text) % 2 ^ 32 = (base.value : Int) :=
    ipv4ToInt_emod String.toList_ofList
  rw [Ipv4Range.contains, decide_eq_true_iff, range, ushr, ushr, ipv4ToInt_emod h, hbase,
    Block.mem_iff haligned]
  dsimp only [ipv4Block]
  exact_mod_cast Iff.rfl

theorem blockedIpv4Ranges_eq :
    blockedIpv4Ranges
      = listedBases.map fun (base, prefixLength) =>
          range (String.ofList base.text) prefixLength := rfl

theorem loopbackIpv4_eq : loopbackIpv4 = range (String.ofList (Quad.text ⟨127, 0, 0, 0⟩)) 8 := rfl

theorem isBlockedIpv4_iff {address : String} {q : Quad} (h : address.toList = q.text) :
    isBlockedIpv4 address = true ↔ ListedIpv4 q.value := by
  rw [isBlockedIpv4, blockedIpv4Ranges_eq, List.any_map, List.any_eq_true]
  simp only [ListedIpv4, listedIpv4, List.mem_map, exists_exists_and_eq_and]
  refine exists_congr fun b => and_congr_right fun hb => ?_
  exact range_contains_iff (listed_aligned b hb) h

theorem isLoopbackIpv4_iff {address : String} {q : Quad} (h : address.toList = q.text) :
    isLoopbackIpv4 address = true ↔ LoopbackIpv4 q.value := by
  rw [isLoopbackIpv4, loopbackIpv4_eq]
  exact range_contains_iff (by decide) h

/-- The embedded address is the text of the last 32 bits. -/
theorem embeddedIpv4_text (value : Nat) :
    (embeddedIpv4 value).toList = (Quad.ofNat value).text := by
  have hoctet : ∀ n : Nat, (toString ((n : Int) % 2 ^ 8)).toList = Nat.toDigits 10 (n % 256) := by
    intro n
    exact Json.digits_eq (n % 256)
  rw [embeddedIpv4, String.toList_intercalate, Quad.text, Quad.octets_eq]
  simp only [List.map_cons, List.map_nil, Quad.ofNat, Fin.val_ofNat]
  rw [← hoctet, ← hoctet, ← hoctet, ← hoctet]
  push_cast
  rfl

/-- The values with these leading 96 bits, and the rest of them. -/
theorem exists_mapped_iff {value : Nat} {p : Nat → Prop} :
    (∃ w < 2 ^ 32, value = mappedIpv4 w ∧ p w) ↔ value / 2 ^ 32 = 0xffff ∧ p (value % 2 ^ 32) := by
  unfold mappedIpv4
  constructor
  · rintro ⟨w, hw, rfl, hp⟩
    have hrest : (0xffff * 2 ^ 32 + w) % 2 ^ 32 = w := by omega
    exact ⟨by omega, by rwa [hrest]⟩
  · rintro ⟨hlead, hp⟩
    exact ⟨value % 2 ^ 32, by omega, by omega, hp⟩

/-- The IPv6 ranges are ranges of the first group. -/
theorem listedIpv6_iff {value : Nat} :
    (∃ b ∈ listedIpv6, b.Mem value) ↔
      value = 0 ∨ value = 1 ∨ (0xfc00 ≤ value / 2 ^ 112 ∧ value / 2 ^ 112 ≤ 0xfdff)
        ∨ (0xfe80 ≤ value / 2 ^ 112 ∧ value / 2 ^ 112 ≤ 0xfebf)
        ∨ (0xff00 ≤ value / 2 ^ 112 ∧ value / 2 ^ 112 ≤ 0xffff) := by
  simp only [listedIpv6, Block.Mem, List.mem_cons, List.not_mem_nil, or_false,
    exists_eq_or_imp, exists_eq_left]
  omega

theorem isBlockedIpv6Value_iff {value : Nat} :
    isBlockedIpv6Value value = true ↔ Listed (.v6 value) := by
  have hembedded := isBlockedIpv4_iff (embeddedIpv4_text value)
  rw [Quad.value_ofNat] at hembedded
  rw [Listed, exists_mapped_iff, ← hembedded, listedIpv6_iff, isBlockedIpv6Value]
  simp only [Bool.if_true_left, Bool.if_false_right, Bool.or_eq_true, Bool.and_eq_true,
    decide_eq_true_iff, or_assoc]
  norm_cast

theorem isLoopbackIpv6_iff {address : String} {value : Nat} (h : V6 address.toList value)
    (hv4 : isIPv4 address = false) (hv6 : isIPv6 address = true) :
    isLoopback address = some true ↔ Loopback (.v6 value) := by
  have hembedded := isLoopbackIpv4_iff (embeddedIpv4_text value)
  rw [Quad.value_ofNat] at hembedded
  rw [isLoopback, hv4, hv6, ipv6Value h, Loopback, exists_mapped_iff, ← hembedded]
  simp only [Bool.false_eq_true, if_false, if_true, Option.map_some, Option.some.injEq,
    Bool.if_true_left, Bool.if_false_right, Bool.or_eq_true, Bool.and_eq_true, decide_eq_true_iff]
  norm_cast

/-! ## One address -/

/-- **A text stands for one address at most.** -/
theorem denotes_unique {text : String} {x y : Address} (hx : Denotes text x)
    (hy : Denotes text y) : x = y := by
  cases hx with
  | v4 q hq =>
    cases hy with
    | v4 r hr =>
      have hvalue : (q.value : Int) = r.value := (ipv4ToInt_emod hq).symm.trans (ipv4ToInt_emod hr)
      rw [Int.ofNat_inj.mp hvalue]
    | v6 h => exact absurd (hq ▸ h.colon_mem) q.colon_not_mem
  | @v6 value h =>
    cases hy with
    | v4 q hq => exact absurd (hq ▸ h.colon_mem) q.colon_not_mem
    | @v6 other h' =>
      rw [v6_unique h h']

/-- A text that is not blocked stands for an address outside the ranges. -/
theorem unlisted_of_not_blocked {address : String} (hzone : '%' ∉ address.toList)
    (h : isBlockedAddress address = some false) :
    ∃ x, Denotes address x ∧ ¬ Listed x := by
  rw [isBlockedAddress] at h
  split at h
  · next hv4 =>
    obtain ⟨q, hq⟩ := isIPv4Chars_iff.mp hv4
    refine ⟨.v4 q.value, .v4 q hq, fun hlisted => ?_⟩
    rw [(isBlockedIpv4_iff hq).mpr hlisted] at h
    cases h
  · split at h
    · next hv6 =>
      obtain ⟨value, hvalue⟩ := exists_v6 (isV6Chars_of_isIPv6 hzone hv6)
      refine ⟨.v6 value, .v6 hvalue, fun hlisted => ?_⟩
      rw [isBlockedIpv6, ipv6Value hvalue, Option.map_some,
        isBlockedIpv6Value_iff.mpr hlisted] at h
      cases h
    · cases h

theorem loopback_of_isLoopback {address : String} (hzone : '%' ∉ address.toList)
    (h : isLoopback address = some true) : ∃ x, Denotes address x ∧ Loopback x := by
  cases hv4 : isIPv4 address with
  | true =>
    obtain ⟨q, hq⟩ := isIPv4Chars_iff.mp hv4
    rw [isLoopback, hv4] at h
    exact ⟨.v4 q.value, .v4 q hq, (isLoopbackIpv4_iff hq).mp (Option.some.inj h)⟩
  | false =>
    cases hv6 : isIPv6 address with
    | true =>
      obtain ⟨value, hvalue⟩ := exists_v6 (isV6Chars_of_isIPv6 hzone hv6)
      exact ⟨.v6 value, .v6 hvalue, (isLoopbackIpv6_iff hvalue hv4 hv6).mp h⟩
    | false =>
      rw [isLoopback, hv4, hv6] at h
      cases h

/-! ## The target -/

/-- The address that the text stands for is outside the ranges, or loopback where that is let in. -/
def Acceptable (allowLoopbackForSandbox : Bool) (text : String) : Prop :=
  ∃ x, (∀ y, Denotes text y ↔ y = x)
    ∧ (¬ Listed x ∨ allowLoopbackForSandbox = true ∧ Loopback x)

theorem Acceptable.of_denotes {allowLoopbackForSandbox : Bool} {text : String} {x : Address}
    (hx : Denotes text x) (h : ¬ Listed x ∨ allowLoopbackForSandbox = true ∧ Loopback x) :
    Acceptable allowLoopbackForSandbox text := by
  refine ⟨x, fun y => ⟨fun hy => denotes_unique hy hx, ?_⟩, h⟩
  rintro rfl
  exact hx

theorem acceptable_of_blockedOf {allowLoopbackForSandbox : Bool} {addresses : List String}
    (hzone : ∀ a ∈ addresses, '%' ∉ a.toList)
    (h : blockedOf allowLoopbackForSandbox addresses = some []) :
    ∀ a ∈ addresses, Acceptable allowLoopbackForSandbox a := by
  obtain ⟨blocked, hblocked, hkept⟩ := Option.bind_eq_some_iff.mp h
  intro a ha
  rcases filterThrowing_cases hblocked a ha with hnot | hmem
  · obtain ⟨x, hx, hunlisted⟩ := unlisted_of_not_blocked (hzone a ha) hnot
    exact .of_denotes hx (.inl hunlisted)
  · have hdropped := filterThrowing_eq_nil_iff.mp hkept a hmem
    cases allowLoopbackForSandbox with
    | false => cases hdropped
    | true =>
      obtain ⟨loopback, hloopback, hnot⟩ := Option.map_eq_some_iff.mp hdropped
      have hin : loopback = true := by simpa using hnot
      rw [hin] at hloopback
      obtain ⟨x, hx, hx'⟩ := loopback_of_isLoopback (hzone a ha) hloopback
      exact .of_denotes hx (.inr ⟨rfl, hx'⟩)

/-- The brackets of a literal go, and no character comes. -/
theorem bareHostname_subset (url : Url) : url.bareHostname.toList ⊆ url.hostname.toList := by
  unfold Url.bareHostname
  split
  · rw [String.toList_ofList]
    exact fun c hc => List.mem_of_mem_tail (List.dropLast_subset _ hc)
  · exact List.Subset.refl _

/-- **A target that passes** has addresses, a literal or what the lookup answers, and each of them
is outside the ranges, or loopback in the sandbox. The host of an `http` or `https` URL has no `%`,
and the answers of the lookup have no zones. -/
theorem acceptedTarget_unlisted {parseUrl : String → Option Url} {targetUrl : String}
    {allowLoopbackForSandbox : Bool} {lookup : Lookup}
    (hhost : ∀ text url, parseUrl text = some url →
      url.protocol = "http:" ∨ url.protocol = "https:" → '%' ∉ url.hostname.toList)
    (hlookup : ∀ addresses, lookup = .ok addresses → ∀ a ∈ addresses, '%' ∉ a.toList)
    (h : assertPublicWebhookTarget parseUrl targetUrl allowLoopbackForSandbox lookup = .ok ()) :
    ∃ url addresses, parseUrl targetUrl = some url ∧ url.addresses lookup = .ok addresses
      ∧ addresses ≠ [] ∧ ∀ a ∈ addresses, Acceptable allowLoopbackForSandbox a := by
  obtain ⟨url, addresses, hparse, hprotocol, haddresses, hne, hblocked⟩ :=
    assertPublicWebhookTarget_ok_iff_blockedOf.mp h
  have hzone : ∀ a ∈ addresses, '%' ∉ a.toList := by
    intro a ha
    unfold Url.addresses at haddresses
    split at haddresses
    · cases haddresses
      rw [List.mem_singleton.mp ha]
      exact fun hmem => hhost targetUrl url hparse hprotocol (bareHostname_subset url hmem)
    · exact hlookup addresses haddresses a ha
  exact ⟨url, addresses, hparse, haddresses, hne, acceptable_of_blockedOf hzone hblocked⟩

/-- A parser that knows one target. -/
def parseHook (text : String) : Option Url :=
  if text = "https://hooks.example.com/in" then
    some { protocol := "https:", hostname := "hooks.example.com", fetchable := true }
  else none

theorem acceptedTarget_unlisted_hook :
    ∃ url addresses, parseHook "https://hooks.example.com/in" = some url
      ∧ url.addresses (.ok ["93.184.216.34", "::ffff:127.0.0.1"]) = .ok addresses
      ∧ addresses ≠ [] ∧ ∀ a ∈ addresses, Acceptable true a := by
  refine acceptedTarget_unlisted ?_ ?_ (by decide +kernel)
  · intro text url hparse _
    unfold parseHook at hparse
    split at hparse
    · cases hparse
      decide
    · cases hparse
  · intro addresses haddresses
    cases haddresses
    decide

end MortgageAgent.Webhook
