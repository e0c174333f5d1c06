import OidFed.Js.Json

/-!
# Null values of metadata (`metadata-values.ts`)

`findInvalidMetadataNullPaths` gives the places where metadata holds `null`, but for the claim
paths of wallets, where it is a wildcard.
-/

namespace OidFed

open Js

/-- A step of a path: a member name or an array index. -/
inductive PathItem where
  | name (s : String)
  | index (i : Nat)
  deriving DecidableEq

def PathItem.text : PathItem → String
  | name s => s
  | index i => i.repr

/-- The two places where `null` is a wildcard of a claim path. -/
def isWalletClaimPath : List PathItem → Bool
  | [a, b, .name _, c, d, .index _, e] =>
    a == .name "openid_credential_issuer" && b == .name "credential_configurations_supported" &&
      c == .name "credential_metadata" && d == .name "claims" && e == .name "path"
  | [a, b, .index _, c, .index _, d, .index _, e] =>
    a == .name "openid_credential_verifier" && b == .name "dcql_queries" &&
      c == .name "credentials" && d == .name "claims" && e == .name "path"
  | _ => false

def isClaimPathComponent : Json → Bool
  | .null => true
  | .str _ => true
  | .num q => q.den == 1
  | _ => false

mutual

def nullPaths (path : List PathItem) : Json → List (List PathItem)
  | .null => [path]
  | .arr items =>
    if isWalletClaimPath path && !items.isEmpty && items.all isClaimPathComponent then []
    else nullPathsItems path 0 items
  | .obj members => nullPathsMembers path members
  | _ => []

def nullPathsItems (path : List PathItem) (i : Nat) : List Json → List (List PathItem)
  | [] => []
  | v :: rest => nullPaths (path ++ [.index i]) v ++ nullPathsItems path (i + 1) rest

def nullPathsMembers (path : List PathItem) : List (String × Json) → List (List PathItem)
  | [] => []
  | (k, v) :: rest => nullPaths (path ++ [.name k]) v ++ nullPathsMembers path rest

end

def findInvalidMetadataNullPaths (metadata : Json) : List (List PathItem) := nullPaths [] metadata

end OidFed
