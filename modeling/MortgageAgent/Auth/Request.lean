import MortgageAgent.Lib.Bytes
import MortgageAgent.Platform

/-!
# Requests with cookies

What the session services read of a request, what they throw, and the double-submit CSRF check
that they share.
-/

namespace MortgageAgent.Auth

/-- What `readCookie` returns for each name, and the `x-csrf-token` header. -/
structure Request where
  cookie : String → Option String
  csrfHeader : Option String

/-- The cookie, unless it is missing or empty. -/
def Request.presentCookie (request : Request) (name : String) : Option String :=
  (request.cookie name).filter (· ≠ "")

inductive Failure where
  | unauthorized (message : String)
  /-- an `Error` of the service -/
  | error (message : String)
  | database (error : PgError)
  /-- a connection failed, or the process died -/
  | unavailable
  deriving DecidableEq, Repr

def unauthorized : Failure := .unauthorized "Invalid or missing API credentials"

/-- `createHash('sha256').update(value).digest('hex')`. -/
def hash (sha256 : String → List UInt8) (value : String) : String :=
  String.ofList (Bytes.hex (sha256 value))

/-- The header repeats the cookie, and hashes to what the session expects; `safeEqual` compares the
bytes of two texts. -/
def assertCsrf (sha256 : String → List UInt8) (request : Request)
    (cookieToken expectedHash : String) : Except Failure Unit :=
  match request.csrfHeader with
  | none => .error unauthorized
  | some header =>
    if header ≠ cookieToken ∨ hash sha256 header ≠ expectedHash then .error unauthorized
    else .ok ()

end MortgageAgent.Auth
