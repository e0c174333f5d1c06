import OidFed.Errors
import OidFed.Policy.Apply

/-!
# What the program runs on

* `Platform`: the third-party and host functions that the program calls: `jose` for decoding and
  verifying a JWT, `URL`, `zod`'s URL check, and conversions of the host. They are parameters;
  nothing is assumed of them unless a theorem says so.
* `Clock`: what each read of the configured clock shows, by the place of the read. Nothing relates
  two reads; a constant clock is `fun _ => t`.
* `Payload`, `ParsedEntityStatement`, `TrustAnchorSet`: the data that validation works on. Times
  are rationals, as a clock may be any function to numbers.
-/

namespace OidFed

open Js

/-- The parts of a parsed URL that the program reads. -/
structure Url where
  protocol : String
  username : String := ""
  password : String := ""
  hostname : String
  search : String := ""
  hash : String := ""
  href : String
  deriving DecidableEq, Repr

/-- An issue of a schema that refuses a value. -/
structure Issue where
  path : List String
  message : String
  deriving DecidableEq, Repr

/-- The claims of a JWT, or the parameters of its header. -/
abbrev Payload := Dict String Json

structure Platform where
  /-- `jose.decodeProtectedHeader`; an error is the message of the exception. -/
  decodeProtectedHeader : String → Except String Payload
  /-- `jose.decodeJwt`. -/
  decodeJwt : String → Except String Payload
  /-- `jose.importJWK` and `jose.jwtVerify` with a key, an algorithm, a tolerance and a time. -/
  jwtVerify : String → Json → String → Rat → Rat → Except String Payload
  /-- `new URL(s)`, `none` where it throws. -/
  parseUrl : String → Option Url
  /-- The output of `z.url()` on a string that it accepts. -/
  zodUrl : String → Option String
  /-- The first and the further issues that a schema, by name, reports on a value it refuses. -/
  zodIssues : String → Json → Issue × List Issue
  /-- `String(n)`. -/
  numberText : Rat → String
  /-- `Number(v)` of a value that is not a number, `none` for `NaN`. -/
  toNumber : Json → Option Rat
  /-- `atob`, `none` where it throws. -/
  atob : String → Option (List Nat)
  /-- `new TextDecoder().decode(bytes)`. -/
  decodeUtf8 : List Nat → String

/-- `String(v)` of a read; `none` where it throws. -/
def Platform.text (P : Platform) : Option Json → Option String
  | none => some "undefined"
  | some v => v.toText P.numberText

/-- The places where a clock is read. -/
inductive ClockSite where
  | start
  | leafKeys
  | link (index : Nat)
  | anchorKeys
  | mark (index : Nat)
  | markKeys (index : Nat)
  | delegationKeys (index : Nat)
  | completion
  | requestCheck
  | requestKeys
  | response
  deriving DecidableEq, Repr

abbrev Clock := ClockSite → Rat

/-- A decoded JWT. -/
structure ParsedEntityStatement where
  header : Payload
  payload : Payload
  deriving DecidableEq

instance : Inhabited ParsedEntityStatement := ⟨⟨.empty, .empty⟩⟩

/-- The string under a name. -/
def Payload.string? (p : Payload) (name : String) : Option String :=
  (p.get? name).bind Json.string?

theorem Payload.string?_eq_some {p : Payload} {name s : String} :
    p.string? name = some s ↔ p.get? name = some (.str s) := by
  unfold Payload.string?
  cases p.get? name with
  | none => simp
  | some v => cases v <;> simp [Json.string?]

/-- The number under a name. -/
def Payload.number? (p : Payload) (name : String) : Option Rat :=
  (p.get? name).bind Json.number?

/-- A JWK Set: its keys, as JSON objects. -/
abbrev JWKSet := List Json

/-- The keys of a JWK Set claim. -/
def jwksOf (v : Json) : JWKSet := ((v.get? "keys").bind Json.items?).getD []

/-- The configured Trust Anchors and their keys. -/
abbrev TrustAnchorSet := Dict String JWKSet

/-- The keys a map of key sets holds for an identifier read from a JWT. -/
def keysFor (m : Dict String JWKSet) (id : Option Json) : Option JWKSet :=
  (id.bind Json.string?).bind m.get?

/-! ## Constants -/

def defaultClockSkewSeconds : Rat := 60

namespace JwtTyp

def entityStatement : String := "entity-statement+jwt"

def trustMark : String := "trust-mark+jwt"

def trustMarkDelegation : String := "trust-mark-delegation+jwt"

end JwtTyp

def supportedAlgorithms : List String :=
  ["ES256", "ES384", "ES512", "PS256", "PS384", "PS512", "RS256"]

def standardEntityStatementClaims : List String :=
  ["iss", "sub", "iat", "exp", "jwks", "metadata", "metadata_policy", "constraints", "crit",
    "metadata_policy_crit", "authority_hints", "trust_anchor_hints", "trust_marks",
    "trust_mark_issuers", "trust_mark_owners", "aud", "source_endpoint", "trust_anchor"]

end OidFed
