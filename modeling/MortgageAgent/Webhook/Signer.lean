import Mathlib.Algebra.Order.Group.Abs
import Mathlib.Algebra.Order.Group.Int
import MortgageAgent.Lib.Cut
import MortgageAgent.Webhook.Dispatch

/-!
# Webhook signatures

`webhook-signer.ts`. The signature of a delivery is over its id, its timestamp and its body, joined
with points. A receiver takes the three parts from the request it got, and its verification says
that they make the signed text; where there are more than two points in that text, it does not say
which of them are the separators.

* **`verifyWebhookSignature`** — the receiver's half.
* **`Binds`** — the signature is good for the parts that were signed, and for no others.
* **`Untimely`** — no other cut of the signed text has a timestamp that is still good.
* **`binds_iff`** — the one is the other.
* **`not_binds_of_seconds`** — the point in the timestamp makes such a cut.

`Date.parse` reads texts besides the ISO ones as it likes, and those without a zone in the zone of
the receiver, so it is a parameter.
-/

namespace MortgageAgent.Webhook.Signer

open Bytes Cut

/-! ## `webhook-signer.ts` -/

/-- The string that is signed. -/
def signedText (deliveryId timestampIso rawBody : String) : String :=
  deliveryId ++ "." ++ timestampIso ++ "." ++ rawBody

structure VerifyWebhookSignatureOptions where
  maxAgeMs : Option Int
  now : Option Instant
  deriving DecidableEq, Repr

inductive VerifyWebhookSignatureResult where
  | valid
  | invalid (reason : String)
  deriving DecidableEq, Repr

def defaultMaxAgeMs : Int := 5 * 60 * 1000

section
variable (hmacSha256 : (secret text : String) → List UInt8) (dateParse : String → Option Instant)

def signWebhookDelivery (deliveryId timestampIso rawBody secret : String) : String :=
  String.ofList (hex (hmacSha256 secret (signedText deliveryId timestampIso rawBody)))

/-- `currentTime` is what `new Date()` gives. -/
def verifyWebhookSignature (currentTime : Instant)
    (deliveryId timestampIso rawBody signature secret : String)
    (options : VerifyWebhookSignatureOptions) : VerifyWebhookSignatureResult :=
  match dateParse timestampIso with
  | none => .invalid "timestamp is not a valid ISO 8601 date"
  | some timestampMs =>
    let now := options.now.getD currentTime
    let maxAgeMs := options.maxAgeMs.getD defaultMaxAgeMs
    if maxAgeMs < |now - timestampMs| then
      .invalid ("timestamp is more than " ++ toString maxAgeMs
        ++ "ms from now — possible replay")
    else
      let expected := signWebhookDelivery hmacSha256 deliveryId timestampIso rawBody secret
      let expectedBuf := ofHex expected.toList
      let actualBuf := ofHex signature.toList
      if expectedBuf.length == actualBuf.length && expectedBuf == actualBuf then .valid
      else .invalid "signature does not match"

/-- The dispatcher signs with it. -/
theorem dispatch_signature (deps : Deps) (deliveryId : Uuid)
    (timestampIso rawBody secret : String) :
    Webhook.signWebhookDelivery deps deliveryId timestampIso rawBody secret
      = signWebhookDelivery deps.hmacSha256 (toString deliveryId) timestampIso rawBody secret :=
  rfl

/-- A signature verifies when the timestamp is near, and the two texts have one authentication
code. -/
theorem verify_sign_iff {currentTime : Instant}
    {deliveryId timestampIso rawBody text secret : String} {options : VerifyWebhookSignatureOptions} :
    verifyWebhookSignature hmacSha256 dateParse currentTime deliveryId timestampIso rawBody
        (String.ofList (hex (hmacSha256 secret text))) secret options = .valid
      ↔ (∃ timestampMs, dateParse timestampIso = some timestampMs
          ∧ |options.now.getD currentTime - timestampMs| ≤ options.maxAgeMs.getD defaultMaxAgeMs)
        ∧ hmacSha256 secret (signedText deliveryId timestampIso rawBody)
          = hmacSha256 secret text := by
  unfold verifyWebhookSignature signWebhookDelivery
  simp only [String.toList_ofList, ofHex_hex]
  cases dateParse timestampIso with
  | none => simp
  | some timestampMs =>
    simp only [Option.some.injEq, exists_eq_left']
    split
    · next hold => simp [Int.not_le.mpr hold]
    · next hnear =>
      have hage := Int.not_lt.mp hnear
      split
      · next hsame =>
        rw [Bool.and_eq_true, beq_iff_eq, beq_iff_eq] at hsame
        simp [hage, hsame.2]
      · next hother =>
        have hne : hmacSha256 secret (signedText deliveryId timestampIso rawBody)
            ≠ hmacSha256 secret text := by
          intro hsame
          rw [hsame] at hother
          simp at hother
        simp [hne]

end

/-! ## What a signature binds -/

/-- What a receiver verifies with. -/
structure Receiver where
  dateParse : String → Option Instant
  maxAgeMs : Option Int

/-- The signature of a request that was signed at `signedAt` is good for its own parts only, now
and at any later time. -/
def Binds (hmacSha256 : (secret text : String) → List UInt8) (receiver : Receiver) (post : Post)
    (secret : String) (signedAt : Instant) : Prop :=
  ∀ (currentTime : Instant) (options : VerifyWebhookSignatureOptions),
    options.maxAgeMs = receiver.maxAgeMs → signedAt ≤ options.now.getD currentTime →
    ∀ deliveryId timestampIso rawBody : String,
      verifyWebhookSignature hmacSha256 receiver.dateParse currentTime deliveryId timestampIso
        rawBody post.signature secret options = .valid →
      deliveryId = toString post.deliveryId ∧ timestampIso = post.timestampIso
        ∧ rawBody = post.rawBody

def signedTextOf (post : Post) : String :=
  signedText (toString post.deliveryId) post.timestampIso post.rawBody

/-- The parts that were signed, as a cut of the signed text. -/
def ownCut (post : Post) : List Char × List Char × List Char :=
  ((toString post.deliveryId).toList, post.timestampIso.toList, post.rawBody.toList)

/-- No other cut of the signed text has a middle part that the receiver reads as a time which is
near `signedAt`, or after it. -/
def Untimely (receiver : Receiver) (post : Post) (signedAt : Instant) : Prop :=
  ∀ cut ∈ cutsTwice '.' (signedTextOf post).toList, cut ≠ ownCut post →
    ∀ timestampMs ∈ receiver.dateParse (String.ofList cut.2.1),
      receiver.maxAgeMs.getD defaultMaxAgeMs < 0
        ∨ timestampMs + receiver.maxAgeMs.getD defaultMaxAgeMs < signedAt

instance (receiver : Receiver) (post : Post) (signedAt : Instant) :
    Decidable (Untimely receiver post signedAt) :=
  inferInstanceAs (Decidable (∀ cut ∈ _, cut ≠ _ → ∀ timestampMs ∈ _, _ ∨ _))

theorem signedText_toList (deliveryId timestampIso rawBody : String) :
    (signedText deliveryId timestampIso rawBody).toList
      = deliveryId.toList ++ '.' :: (timestampIso.toList ++ '.' :: rawBody.toList) := by
  simp [signedText]

/-- A time stays near until `maxAge` after it. -/
theorem exists_near_iff {signedAt timestampMs maxAge : Int} :
    (∃ now, signedAt ≤ now ∧ |now - timestampMs| ≤ maxAge)
      ↔ ¬ (maxAge < 0 ∨ timestampMs + maxAge < signedAt) := by
  constructor
  · rintro ⟨now, hlater, hnear⟩
    have hbounds := abs_le.mp hnear
    omega
  · intro h
    refine ⟨max signedAt timestampMs, le_max_left _ _, abs_le.mpr ?_⟩
    omega

/-- The parts of a request make the signed text exactly when they are a cut of it. -/
theorem signedText_eq_iff {post : Post} {deliveryId timestampIso rawBody : String} :
    signedText deliveryId timestampIso rawBody = signedTextOf post
      ↔ (deliveryId.toList, timestampIso.toList, rawBody.toList)
          ∈ cutsTwice '.' (signedTextOf post).toList := by
  rw [mem_cutsTwice, ← signedText_toList, String.toList_inj]
  exact eq_comm

theorem eq_ownCut_iff {post : Post} {deliveryId timestampIso rawBody : String} :
    (deliveryId.toList, timestampIso.toList, rawBody.toList) = ownCut post
      ↔ deliveryId = toString post.deliveryId ∧ timestampIso = post.timestampIso
        ∧ rawBody = post.rawBody := by
  simp only [ownCut, Prod.mk.injEq, String.toList_inj]

section
variable {hmacSha256 : (secret text : String) → List UInt8} {receiver : Receiver} {post : Post}
  {secret : String} {signedAt : Instant}

theorem untimely_of_binds
    (hsignature : post.signature = String.ofList (hex (hmacSha256 secret (signedTextOf post))))
    (h : Binds hmacSha256 receiver post secret signedAt) : Untimely receiver post signedAt := by
  intro cut hcut hother timestampMs hread
  obtain ⟨deliveryId, timestampIso, rawBody⟩ := cut
  by_contra htimely
  obtain ⟨later, hlater, hnear⟩ := exists_near_iff.mpr htimely
  have hparts : signedText (String.ofList deliveryId) (String.ofList timestampIso)
      (String.ofList rawBody) = signedTextOf post := by
    rw [signedText_eq_iff]
    simpa only [String.toList_ofList] using hcut
  have hvalid : verifyWebhookSignature hmacSha256 receiver.dateParse later
      (String.ofList deliveryId) (String.ofList timestampIso) (String.ofList rawBody)
      post.signature secret ⟨receiver.maxAgeMs, none⟩ = .valid := by
    rw [hsignature, verify_sign_iff]
    exact ⟨⟨timestampMs, hread, hnear⟩, by rw [hparts]⟩
  have hown := h later ⟨receiver.maxAgeMs, none⟩ rfl hlater _ _ _ hvalid
  rw [← eq_ownCut_iff] at hown
  simp only [String.toList_ofList] at hown
  exact hother hown

theorem binds_of_untimely (hcollision : Function.Injective (hmacSha256 secret))
    (hsignature : post.signature = String.ofList (hex (hmacSha256 secret (signedTextOf post))))
    (h : Untimely receiver post signedAt) : Binds hmacSha256 receiver post secret signedAt := by
  intro currentTime options hmaxAge hlater deliveryId timestampIso rawBody hvalid
  rw [hsignature, verify_sign_iff, hmaxAge] at hvalid
  obtain ⟨⟨timestampMs, hread, hnear⟩, hcode⟩ := hvalid
  by_contra hother
  rw [← eq_ownCut_iff] at hother
  have hcut := signedText_eq_iff.mp (hcollision hcode)
  have hlate := h _ hcut hother timestampMs (by rwa [String.ofList_toList])
  exact exists_near_iff.mp ⟨_, hlater, hnear⟩ hlate

/-- A point in the timestamp cuts it in two, and what stands before it may be a timestamp. -/
theorem not_binds_of_point
    (hsignature : post.signature = String.ofList (hex (hmacSha256 secret (signedTextOf post))))
    {before after : List Char} (hpoint : post.timestampIso.toList = before ++ '.' :: after)
    {timestampMs : Instant} (hread : receiver.dateParse (String.ofList before) = some timestampMs)
    (hmaxAge : 0 ≤ receiver.maxAgeMs.getD defaultMaxAgeMs)
    (htimely : signedAt ≤ timestampMs + receiver.maxAgeMs.getD defaultMaxAgeMs) :
    ¬ Binds hmacSha256 receiver post secret signedAt := by
  intro hbinds
  have hcut : ((toString post.deliveryId).toList, before, after ++ '.' :: post.rawBody.toList)
      ∈ cutsTwice '.' (signedTextOf post).toList := by
    rw [mem_cutsTwice, signedTextOf, signedText_toList, hpoint, List.append_assoc,
      List.cons_append]
  have hother : ((toString post.deliveryId).toList, before, after ++ '.' :: post.rawBody.toList)
      ≠ ownCut post := by
    intro heq
    have htimestamp : before = post.timestampIso.toList := congrArg (fun cut => cut.2.1) heq
    rw [hpoint] at htimestamp
    have hlength := congrArg List.length htimestamp
    rw [List.length_append, List.length_cons] at hlength
    omega
  rcases untimely_of_binds hsignature hbinds _ hcut hother timestampMs hread with hnegative | hlate
  · exact absurd hnegative (Int.not_lt.mpr hmaxAge)
  · exact absurd hlate (Int.not_lt.mpr htimely)

end

section
variable {deps : Deps} {now : Instant} {delivery : WebhookDelivery} {endpoint : WebhookEndpoint}
  {event : OutboxEvent} {answer : PostAnswer} {receiver : Receiver}

/-- **What a signature binds.** Without collisions of the authentication code, the signature of a
request that the dispatcher made is good for no other id, timestamp and body, now or later, exactly
when the signed text has no other cut with a timely timestamp in the middle. -/
theorem binds_iff (hcollision : Function.Injective (deps.hmacSha256 endpoint.secret)) :
    Binds deps.hmacSha256 receiver (postOf deps now delivery endpoint event answer)
        endpoint.secret now
      ↔ Untimely receiver (postOf deps now delivery endpoint event answer) now :=
  ⟨untimely_of_binds rfl, binds_of_untimely hcollision rfl⟩

/-- A timestamp up to its fraction. -/
def isoSeconds (t : Instant) : String :=
  String.ofList ((toISOString t).toList.takeWhile (· ≠ '.'))

/-- **The point in the timestamp** is enough: no signature binds where the timestamp without its
fraction is read as a time that is near, as it is in UTC. -/
theorem not_binds_of_seconds {timestampMs : Instant}
    (hread : receiver.dateParse (isoSeconds now) = some timestampMs)
    (hmaxAge : 0 ≤ receiver.maxAgeMs.getD defaultMaxAgeMs)
    (htimely : now ≤ timestampMs + receiver.maxAgeMs.getD defaultMaxAgeMs) :
    ¬ Binds deps.hmacSha256 receiver (postOf deps now delivery endpoint event answer)
        endpoint.secret now := by
  have hpoint : '.' ∈ (toISOString now).toList := by
    have hmem : '.' ∈ ".".toList := by decide
    delta toISOString
    simp only [String.toList_append, List.mem_append, hmem, or_true, true_or]
  obtain ⟨fraction, hfraction⟩ := exists_first_cut hpoint
  exact not_binds_of_point rfl hfraction hread hmaxAge htimely

end

/-! ### One delivery, two receivers -/

def sampleDelivery : WebhookDelivery where
  id := 7
  tenantId := 9
  webhookEndpointId := 3
  outboxEventId := 5
  eventType := "loan_case.created"
  status := .PENDING
  attempts := []
  nextAttemptAt := none

def sampleEvent : OutboxEvent where
  id := 5
  tenantId := 9
  eventType := "loan_case.created"
  payload := .obj []
  createdAt := 1786795000000
  publishedAt := none

def sampleEndpoint : WebhookEndpoint where
  id := 3
  tenantId := 9
  targetUrl := "https://hooks.example.com/in"
  secret := "webhook-secret"
  eventTypes := ["loan_case.created"]
  status := .ACTIVE
  outboundRateLimitPerMinute := 60
  rateWindowStartedAt := none
  rateWindowAttempts := 0

def sampleText : String :=
  "7.2026-08-15T12:00:00.123Z.\x7b\"id\":\"7\",\"type\":\"loan_case.created\","
    ++ "\"timestamp\":\"2026-08-15T12:00:00.123Z\",\"data\":\x7b\x7d\x7d"

/-- HMAC-SHA-256 under the secret `webhook-secret`, at the text of the delivery. -/
def sampleHmac (_secret text : String) : List UInt8 :=
  if text = sampleText then
    [169, 106, 160, 127, 137, 166, 218, 123, 234, 142, 94, 111, 23, 64, 205, 139, 22, 164, 240, 98,
      135, 228, 195, 248, 27, 25, 89, 167, 147, 197, 178, 225]
  else 0 :: utf8 text

def samplePost : Post :=
  postOf ⟨sampleHmac⟩ 1786795200123 sampleDelivery sampleEndpoint sampleEvent (.responded 200)

/-- `Date.parse` where the zone is `offsetMs` ahead of UTC, on the cuts of the signed text. -/
def sampleReceiver (offsetMs : Int) : Receiver where
  dateParse text :=
    if text = "2026-08-15T12:00:00.123Z" then some 1786795200123
    else if text = "2026-08-15T12:00:00" then some (1786795200000 - offsetMs)
    else if text = "123Z" then some (-58285699200000)
    else none
  maxAgeMs := none

example : (signedTextOf samplePost) = sampleText := by decide +kernel

/-- In Tokyo the timestamp without its fraction is nine hours old, and nothing else is near. -/
theorem binds_iff_tokyo :
    Binds sampleHmac (sampleReceiver 32400000) samplePost "webhook-secret" 1786795200123 := by
  have hcollision : Function.Injective (sampleHmac "webhook-secret") := by
    intro text text' h
    unfold sampleHmac at h
    split at h
    · next htext =>
      split at h
      · next htext' => rw [htext, htext']
      · exact absurd (List.cons.inj h).1 (by decide)
    · split at h
      · exact absurd (List.cons.inj h).1 (by decide)
      · exact utf8_injective (List.cons.inj h).2
  exact (@binds_iff ⟨sampleHmac⟩ 1786795200123 sampleDelivery sampleEndpoint sampleEvent
    (.responded 200) (sampleReceiver 32400000) hcollision).mpr (by decide +kernel)

/-- **A cut inside the timestamp.** The id, the timestamp without its fraction, and the rest with
the fraction in front of the body: a receiver in UTC takes these for a delivery, too. -/
theorem fraction_in_body :
    ¬ Binds sampleHmac (sampleReceiver 0) samplePost "webhook-secret" 1786795200123 := by
  intro hbinds
  have hvalid : verifyWebhookSignature sampleHmac (sampleReceiver 0).dateParse 1786795201000 "7"
      "2026-08-15T12:00:00" ("123Z." ++ samplePost.rawBody) samplePost.signature "webhook-secret"
      ⟨none, none⟩ = .valid := by decide +kernel
  have hown := hbinds 1786795201000 ⟨none, none⟩ rfl (by decide) _ _ _ hvalid
  exact absurd hown.2.1 (by decide +kernel)

end MortgageAgent.Webhook.Signer
