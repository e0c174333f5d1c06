import OidFed.Platform

/-!
# Keys and signatures (`jose/keys.ts`, `jose/verify.ts`)

* `selectVerificationKey`: the key of a set that a header's `kid` selects.
* `verifyEntityStatement`: header checks, key selection, then the signature and the times.
* `Verifies`: the JWT verifies under a key set, at some time and tolerance.
* `verifyEntityStatement_eq_ok`, `selectVerificationKey_mem`: then it verifies under one key of
  the set, which carries the `kid` of the header.
-/

namespace OidFed

open Js

def isValidAlgorithm (alg : Option Json) : Bool :=
  match alg with
  | some (.str a) => a != "none" && supportedAlgorithms.contains a
  | _ => false

theorem isValidAlgorithm_eq_true {alg : Option Json} :
    isValidAlgorithm alg = true ↔ ∃ a ∈ supportedAlgorithms, alg = some (.str a) := by
  unfold isValidAlgorithm
  split
  · rename_i a
    simp only [Bool.and_eq_true, bne_iff_ne, ne_eq, List.contains_iff_mem, Option.some.injEq,
      Json.str.injEq, exists_eq_right']
    exact ⟨fun h => h.2, fun h => ⟨by rintro rfl; revert h; decide, h⟩⟩
  · rename_i hstr
    constructor
    · simp
    · rintro ⟨a, -, rfl⟩
      exact absurd rfl (hstr a)

def algToKty : List (String × String) :=
  [("ES256", "EC"), ("ES384", "EC"), ("ES512", "EC"), ("PS256", "RSA"), ("PS384", "RSA"),
    ("PS512", "RSA"), ("RS256", "RSA")]

/-- `!k.use || k.use === "sig"`. -/
def usableForSignature (k : Json) : Bool :=
  !Json.truthy? (k.get? "use") || k.get? "use" == some (.str "sig")

/-- The verification key of a set: by `kid`, or by algorithm for a header without one. -/
def selectVerificationKey (kid alg : Option String) (jwks : JWKSet) : Option Json :=
  if Json.truthy? (kid.map .str) then
    match jwks.find? fun k => k.get? "kid" == kid.map .str && usableForSignature k with
    | none => none
    | some byKid =>
      -- a key made for another algorithm is refused
      if Json.truthy? (byKid.get? "alg") && Json.truthy? (alg.map .str) &&
          byKid.get? "alg" != alg.map .str then none
      else some byKid
  else
    match alg.bind fun a => algToKty.lookup a with
    | none => none
    | some kty => jwks.find? fun k =>
        k.get? "kty" == some (.str kty) && usableForSignature k &&
          (!Json.truthy? (k.get? "alg") || k.get? "alg" == alg.map .str)

/-- A converted value between quotes. -/
def quotedText (text : Option String) : String := "'" ++ text.getD "" ++ "'"

def signatureError {α : Type} (description : String) : Except FederationError α :=
  .error (internalError .SignatureInvalid description)

section Verify

variable (P : Platform)

/-- Decode a JWT without verifying it. -/
def decodeEntityStatement (jwt : String) : Except FederationError ParsedEntityStatement :=
  match P.decodeProtectedHeader jwt with
  | .error message => signatureError message
  | .ok header =>
    match P.decodeJwt jwt with
    | .error message => signatureError message
    | .ok payload => .ok { header, payload }

theorem decodeEntityStatement_payload {P : Platform} {jwt : String} {es : ParsedEntityStatement}
    (h : decodeEntityStatement P jwt = .ok es) : P.decodeJwt jwt = .ok es.payload := by
  unfold decodeEntityStatement at h
  split at h
  · cases h
  · split at h
    · cases h
    · rename_i payload hpayload
      obtain rfl := Except.ok.inj h
      exact hpayload

/-- Verify a JWT against a key set. -/
def verifyEntityStatement (jwt : String) (jwks : JWKSet) (clockSkew now : Rat)
    (expectedTyp : String := JwtTyp.entityStatement) :
    Except FederationError ParsedEntityStatement :=
  match P.decodeProtectedHeader jwt with
  | .error message => signatureError message
  | .ok header =>
    if header.get? "typ" != some (.str expectedTyp) then
      signatureError
        (s!"Invalid typ header: expected '{expectedTyp}', got " ++ quotedText (P.text (header.get? "typ")))
    else if !isValidAlgorithm (header.get? "alg") then
      .error (internalError .UnsupportedAlg
        ("Unsupported algorithm: " ++ quotedText (P.text (header.get? "alg"))))
    else
      match header.string? "kid" with
      | none => signatureError "Missing or invalid kid header"
      | some kid =>
        if kid = "" then signatureError "Missing or invalid kid header"
        else
          let alg := (header.string? "alg").getD ""
          match selectVerificationKey (some kid) (some alg) jwks with
          | none => signatureError "No matching key found in JWKS for verification"
          | some key =>
            match P.jwtVerify jwt key alg clockSkew now with
            | .error message => signatureError message
            | .ok payload => .ok { header, payload }

/-- The JWT verifies under the keys, at some time and tolerance. -/
def Verifies (jwt : String) (jwks : JWKSet) : Prop :=
  ∃ clockSkew now es, verifyEntityStatement P jwt jwks clockSkew now = .ok es

variable {P}

/-- What a successful verification has checked. -/
theorem verifyEntityStatement_eq_ok {jwt : String} {jwks : JWKSet} {clockSkew now : Rat}
    {expectedTyp : String} {es : ParsedEntityStatement}
    (h : verifyEntityStatement P jwt jwks clockSkew now expectedTyp = .ok es) :
    P.decodeProtectedHeader jwt = .ok es.header ∧
      es.header.get? "typ" = some (.str expectedTyp) ∧
      ∃ kid alg key, es.header.get? "kid" = some (.str kid) ∧
        es.header.get? "alg" = some (.str alg) ∧ kid ≠ "" ∧ supportedAlgorithms.contains alg = true ∧
        selectVerificationKey (some kid) (some alg) jwks = some key ∧
        P.jwtVerify jwt key alg clockSkew now = .ok es.payload := by
  unfold verifyEntityStatement at h
  cases hd : P.decodeProtectedHeader jwt with
  | error m => rw [hd] at h; simp [signatureError] at h
  | ok header =>
    rw [hd] at h
    simp only at h
    split at h
    · simp [signatureError] at h
    rename_i htyp
    split at h
    · simp at h
    rename_i halg
    cases hk : header.string? "kid" with
    | none => rw [hk] at h; simp [signatureError] at h
    | some kid =>
      rw [hk] at h
      simp only at h
      split at h
      · simp [signatureError] at h
      rename_i hne
      cases hs : selectVerificationKey (some kid) (some ((header.string? "alg").getD "")) jwks with
      | none => rw [hs] at h; simp [signatureError] at h
      | some key =>
        rw [hs] at h
        simp only at h
        cases hv : P.jwtVerify jwt key ((header.string? "alg").getD "") clockSkew now with
        | error m => rw [hv] at h; simp [signatureError] at h
        | ok payload =>
          rw [hv] at h
          obtain rfl := Except.ok.inj h
          -- the algorithm was read before it was checked to be a string
          obtain ⟨alg, hal, hsup⟩ : ∃ alg, header.get? "alg" = some (.str alg) ∧
              supportedAlgorithms.contains alg = true := by
            cases ha : header.get? "alg" with
            | none => simp [isValidAlgorithm, ha] at halg
            | some v => cases v <;> simp_all [isValidAlgorithm]
          have hstr : header.string? "alg" = some alg := Payload.string?_eq_some.mpr hal
          rw [hstr] at hs hv
          exact ⟨rfl, by simpa using htyp, kid, alg, key, Payload.string?_eq_some.mp hk, hal, hne,
            hsup, hs, hv⟩

/-- The key that a `kid` selects is in the set, under that `kid`. -/
theorem selectVerificationKey_mem {kid : String} {alg : Option String} {jwks : JWKSet} {key : Json}
    (hkid : kid ≠ "") (h : selectVerificationKey (some kid) alg jwks = some key) :
    key ∈ jwks ∧ key.get? "kid" = some (.str kid) := by
  unfold selectVerificationKey at h
  rw [if_pos (by simp [Json.truthy?, Json.truthy, hkid])] at h
  cases hf : jwks.find? fun k =>
      k.get? "kid" == (some kid).map .str && usableForSignature k with
  | none => rw [hf] at h; simp at h
  | some k =>
    rw [hf] at h
    simp only at h
    split at h
    · simp at h
    · obtain rfl := Option.some.inj h
      have hk := List.find?_some hf
      simp only [Option.map_some, Bool.and_eq_true, beq_iff_eq] at hk
      exact ⟨List.mem_of_find?_eq_some hf, hk.1⟩

end Verify

/-! ## A platform over a table

A platform whose JWTs are the names of a table, for concrete runs. A JWT verifies under the key
whose `x` is that of the key it was signed with, until it expires. -/

structure SignedJwt where
  header : Payload
  payload : Payload
  key : String

def isHttps (s : String) : Bool := "https://".toList.isPrefixOf s.toList

def tablePlatform (table : List (String × SignedJwt)) : Platform where
  decodeProtectedHeader jwt :=
    match table.lookup jwt with
    | some j => .ok j.header
    | none => .error "Invalid Token or Protected Header formatting"
  decodeJwt jwt :=
    match table.lookup jwt with
    | some j => .ok j.payload
    | none => .error "Invalid JWT"
  jwtVerify jwt key _ tolerance now :=
    match table.lookup jwt with
    | none => .error "Invalid Compact JWS"
    | some j =>
      if key.get? "x" != some (.str j.key) then .error "signature verification failed"
      else if (j.payload.number? "exp").any (· ≤ now - tolerance) then
        .error "\"exp\" claim timestamp check failed"
      else .ok j.payload
  parseUrl s :=
    if isHttps s then
      some { protocol := "https:", hostname := String.ofList ((s.toList.drop 8).takeWhile (· ≠ '/'))
             href := s }
    else none
  zodUrl s := if isHttps s then some s else none
  zodIssues _ _ := ({ path := [], message := "Invalid input" }, [])
  numberText q := q.num.repr
  toNumber _ := none
  atob _ := none
  decodeUtf8 _ := ""

/-- A public key with a name. -/
def tableKey (name : String) : Json :=
  .obj [("kty", .str "EC"), ("kid", .str name), ("x", .str name)]

/-- A JWT signed with the key of a name, which is also its `kid`. -/
def signedJwt (typ key : String) (claims : List (String × Json)) : SignedJwt where
  header := Dict.ofEntries [("typ", .str typ), ("alg", .str "ES256"), ("kid", .str key)]
  payload := Dict.ofEntries claims
  key := key

/-- The claims of an Entity Statement valid from 1000 to 2000, with the key of a name. -/
def statementClaims (iss sub key : String) (rest : List (String × Json)) : List (String × Json) :=
  [("iss", .str iss), ("sub", .str sub), ("iat", .num 1000), ("exp", .num 2000),
    ("jwks", .obj [("keys", .arr [tableKey key])])] ++ rest

end OidFed
