import MortgageAgent.Platform

/-!
# People

A `User` is known by the subject of its OIDC claims, and acts in a tenant through a membership.
-/

namespace MortgageAgent.Auth

structure OidcClaims where
  sub : String
  email : Option String := none
  deriving DecidableEq, Repr

/-- `users`. -/
structure User where
  id : Uuid
  subject : String
  email : String
  deriving DecidableEq, Repr

inductive ApiClientRole where
  | PARTNER
  | REVIEWER
  deriving DecidableEq, Repr

/-- `tenants`, without its budget columns. -/
structure Tenant where
  id : Uuid
  name : String
  deriving DecidableEq, Repr

/-- `tenant_memberships`. -/
structure TenantMembership where
  id : Uuid
  tenantId : Uuid
  userId : Uuid
  role : ApiClientRole
  deriving DecidableEq, Repr

end MortgageAgent.Auth
