import OidFed.Platform

/-!
# Repeated members of a metadata policy (`trust-chain/validate.ts`)

`JSON.parse` keeps the last of several members of one name, so the payload's text is scanned once
more: `findDuplicateMetadataPolicyMembers` lists the paths at which an object of the first three
levels of `metadata_policy` repeats a name.

Names are compared as the language compares them, by their UTF-16 units. A scan returns the
repeated paths and the rest of the text, or stops where the source throws; the fuel that it is
given is enough (`Chain/DuplicateScan`).
-/

namespace OidFed

/-- A name by its UTF-16 units. -/
abbrev Units := List Nat

def unitsOfChar (c : Char) : Units :=
  if c.toNat < 0x10000 then [c.toNat]
  else [0xD800 + (c.toNat - 0x10000) / 0x400, 0xDC00 + (c.toNat - 0x10000) % 0x400]

def unitsOf (s : String) : Units := s.toList.flatMap unitsOfChar

/-- The text of a name: `high` is a surrogate that waits for its second half. One that stands alone
shows as a replacement character. -/
def textOfUnits (high : Option Nat) : Units → List Char
  | [] => if high.isSome then ['\uFFFD'] else []
  | u :: rest =>
    let alone := if high.isSome then ['\uFFFD'] else []
    if 0xD800 ≤ u ∧ u < 0xDC00 then alone ++ textOfUnits (some u) rest
    else if 0xDC00 ≤ u ∧ u < 0xE000 then
      match high with
      | some h => Char.ofNat (0x10000 + (h - 0xD800) * 0x400 + (u - 0xDC00)) :: textOfUnits none rest
      | none => '\uFFFD' :: textOfUnits none rest
    else alone ++ Char.ofNat u :: textOfUnits none rest

def hexDigit (c : Char) : Option Nat :=
  if '0' ≤ c ∧ c ≤ '9' then some (c.toNat - '0'.toNat)
  else if 'a' ≤ c ∧ c ≤ 'f' then some (c.toNat - 'a'.toNat + 10)
  else if 'A' ≤ c ∧ c ≤ 'F' then some (c.toNat - 'A'.toNat + 10)
  else none

/-- The text between the quotes of a JSON string, parsed; `none` where `JSON.parse` throws. -/
def unescape : List Char → Option Units
  | [] => some []
  | '\\' :: 'u' :: a :: b :: c :: d :: rest => do
    let unit := (((← hexDigit a) * 16 + (← hexDigit b)) * 16 + (← hexDigit c)) * 16 + (← hexDigit d)
    return unit :: (← unescape rest)
  | '\\' :: c :: rest => do
    let unit ← ([('"', 34), ('\\', 92), ('/', 47), ('b', 8), ('f', 12), ('n', 10), ('r', 13),
      ('t', 9)] : List (Char × Nat)).lookup c
    return unit :: (← unescape rest)
  | ['\\'] => none
  | c :: rest => do
    if c.toNat < 0x20 then none
    else return unitsOfChar c ++ (← unescape rest)

/-- `/\s/`. -/
def isSpace (c : Char) : Bool :=
  [9, 10, 11, 12, 13, 32, 0xA0, 0x1680, 0x2028, 0x2029, 0x202F, 0x205F, 0x3000, 0xFEFF].contains
    c.toNat || (decide (0x2000 ≤ c.toNat) && decide (c.toNat ≤ 0x200A))

def skipWhitespace (text : List Char) : List Char := text.dropWhile isSpace

/-- From behind the opening quote: the characters up to the closing one, and the rest. -/
def scanString : List Char → Option (List Char × List Char)
  | [] => none
  | '"' :: rest => some ([], rest)
  | '\\' :: c :: rest => do
    let (inside, rest) ← scanString rest
    return ('\\' :: c :: inside, rest)
  | c :: rest => do
    let (inside, rest) ← scanString rest
    return (c :: inside, rest)

def parseString (text : List Char) : Option (Units × List Char) := do
  let (inside, rest) ← scanString text
  return (← unescape inside, rest)

def parsePrimitive (text : List Char) : List Char :=
  text.dropWhile fun c => !(isSpace c || c == ',' || c == ']' || c == '}')

/-- The names on the way from the payload to a value. -/
abbrev Path := List Units

def shouldCheckObject (path : Path) : Bool :=
  path.head? == some (unitsOf "metadata_policy") && decide (path.length ≤ 3)

/-- Why a scan ends without a result: the source throws, or the fuel is used up. -/
inductive ScanStop where
  | thrown
  | outOfFuel
  deriving DecidableEq, Repr

/-- A part of the scan that may throw. -/
def orThrow {α : Type} (result : Option α) : Except ScanStop α :=
  match result with
  | some a => .ok a
  | none => .error .thrown

mutual

def parseValue : Nat → Path → List Char → Except ScanStop (List Path × List Char)
  | 0, _, _ => .error .outOfFuel
  | fuel + 1, path, text =>
    match skipWhitespace text with
    | '{' :: rest =>
      match skipWhitespace rest with
      | '}' :: rest => .ok ([], rest)
      | rest => parseMembers fuel path [] rest
    | '[' :: rest =>
      match skipWhitespace rest with
      | ']' :: rest => .ok ([], rest)
      | rest => parseItems fuel path rest
    | '"' :: rest => (orThrow (parseString rest)).map fun s => ([], s.2)
    | rest => .ok ([], parsePrimitive rest)

def parseItems : Nat → Path → List Char → Except ScanStop (List Path × List Char)
  | 0, _, _ => .error .outOfFuel
  | _ + 1, _, [] => .ok ([], [])
  | fuel + 1, path, text => do
    let (found, rest) ← parseValue fuel path text
    match skipWhitespace rest with
    | ']' :: rest => return (found, rest)
    | ',' :: rest =>
      let (found', rest) ← parseItems fuel path (skipWhitespace rest)
      return (found ++ found', rest)
    | _ => .error .thrown

def parseMembers : Nat → Path → List Units → List Char → Except ScanStop (List Path × List Char)
  | 0, _, _, _ => .error .outOfFuel
  | _ + 1, _, _, [] => .ok ([], [])
  | fuel + 1, path, seen, '"' :: text => do
    let (key, rest) ← orThrow (parseString text)
    let repeated := if shouldCheckObject path && seen.contains key then [path ++ [key]] else []
    match skipWhitespace rest with
    | ':' :: rest =>
      let (found, rest) ← parseValue fuel (path ++ [key]) (skipWhitespace rest)
      match skipWhitespace rest with
      | '}' :: rest => return (repeated ++ found, rest)
      | ',' :: rest =>
        let (found', rest) ← parseMembers fuel path (key :: seen) (skipWhitespace rest)
        return (repeated ++ found ++ found', rest)
      | _ => .error .thrown
    | _ => .error .thrown
  | _ + 1, _, _, _ => .error .thrown

end

/-- The fuel for a text: a value and an item or a member are scanned for each character at most. -/
def scanFuel (text : List Char) : Nat := 2 * text.length + 2

def dottedPath (path : Path) : String :=
  ".".intercalate (path.map fun name => String.ofList (textOfUnits none name))

/-- The paths of `metadata_policy` that are stated twice; none where the scan throws. -/
def findDuplicateMetadataPolicyMembers (json : String) : List String :=
  match parseValue (scanFuel json.toList) [] json.toList with
  | .error _ => []
  | .ok (duplicates, _) => duplicates.map dottedPath

/-- The text of a JWT's payload, where it decodes. -/
def decodeJwtPayloadJson (P : Platform) (jwt : String) : Option String :=
  match (Js.Json.splitText '.' jwt)[1]? with
  | none => none
  | some payload =>
    if payload = "" then none
    else
      let base64 := payload.toList.map fun c =>
        if c = '-' then '+' else if c = '_' then '/' else c
      let padded := base64 ++ List.replicate ((4 - base64.length % 4) % 4) '='
      (P.atob (String.ofList padded)).map P.decodeUtf8

end OidFed
