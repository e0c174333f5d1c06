import OidFed.Chain.Shape
import OidFed.Js.Base64

/-!
# The text in which repeated members are looked for (`trust-chain/validate.ts`)

`jose.decodeJwt` and `decodeJwtPayloadJson` decode the same segment of a JWT, the second one with
padding by the length of the segment, white space included.

* `payloadText`, `ReadsPayload`: what `decodeJwt` parses, as an assumption on the platform.
* `ScansPayload`: the scan for repeated members gets that text.
* `scansPayload_iff`: it does where the segment needs no padding, or its white space is whole groups
  of four characters.
-/

namespace OidFed

open Js

/-- The payload segment of a JWT. -/
def payloadSegment (jwt : String) : Option String := (Json.splitText '.' jwt)[1]?

section Payload

variable (P : Platform) (parse : String → Option Payload)

/-- The text of a segment, which is not empty. -/
def segmentText (segment : Option String) : Option String :=
  match segment with
  | none => none
  | some segment => if segment = "" then none else (base64UrlDecode segment).map P.decodeUtf8

/-- The text of the payload as `jose.decodeJwt` decodes it. -/
def payloadText (jwt : String) : Option String := segmentText P (payloadSegment jwt)

/-- What `jose.decodeJwt` returns is parsed from the text of the payload. -/
def ReadsPayload : Prop :=
  ∀ jwt payload, P.decodeJwt jwt = .ok payload →
    ∃ text, payloadText P jwt = some text ∧ parse text = some payload

/-- The scan for repeated members gets the text that the payload is parsed from, and the errors are
those of what it finds there. -/
def ScansPayload (jwt : String) (payload : Payload) : Prop :=
  ∃ text, payloadText P jwt = some text ∧ parse text = some payload ∧
    decodeJwtPayloadJson P jwt = some text ∧
    ∀ j, duplicateMemberErrors P j jwt =
      (findDuplicateMetadataPolicyMembers text).map fun path =>
        chainError j "metadata_policy" 19
          s!"Duplicate metadata_policy member '{path}' at statement {j}"

/-- The segment is whole groups of four characters, or its white space is. -/
def WholeGroups (segment : String) : Prop :=
  4 ∣ segment.toList.length ∨ 4 ∣ segment.toList.countP isAsciiWhitespace

instance (segment : String) : Decidable (WholeGroups segment) :=
  inferInstanceAs (Decidable (_ ∨ _))

end Payload

variable {P : Platform} {parse : String → Option Payload} {jwt : String}

theorem countP_standardLetter (text : List Char) :
    (text.map standardLetter).countP isAsciiWhitespace = text.countP isAsciiWhitespace := by
  rw [List.countP_map]
  refine List.countP_congr fun c _ => ?_
  rw [Function.comp_apply, standardLetter]
  split_ifs with hminus hunderscore
  · subst hminus
    decide
  · subst hunderscore
    decide
  · rfl

theorem payloadText_eq_some {text : String} :
    payloadText P jwt = some text ↔ ∃ segment bytes, payloadSegment jwt = some segment ∧
      segment ≠ "" ∧ base64UrlDecode segment = some bytes ∧ P.decodeUtf8 bytes = text := by
  rw [payloadText, segmentText.eq_def]
  cases payloadSegment jwt with
  | none => simp
  | some segment =>
    by_cases hempty : segment = ""
    · simp [hempty]
    · simp [hempty, Option.map_eq_some_iff]

/-- The text for the scan, of a segment that decodes. -/
theorem decodeJwtPayloadJson_eq (hatob : ∀ text, P.atob text = atob text) {segment : String}
    (hsegment : payloadSegment jwt = some segment) (hne : segment ≠ "") {bytes : List Nat}
    (hbytes : base64UrlDecode segment = some bytes) :
    decodeJwtPayloadJson P jwt = if WholeGroups segment then some (P.decodeUtf8 bytes) else none := by
  have hpadded := atob_padded hbytes
  rw [List.length_map, countP_standardLetter] at hpadded
  have hletter : (fun c => if c = '-' then '+' else if c = '_' then '/' else c) = standardLetter := rfl
  rw [payloadSegment] at hsegment
  simp only [decodeJwtPayloadJson, hsegment, if_neg hne, hletter, List.length_map, hatob, hpadded]
  by_cases hwhole : WholeGroups segment
  · rw [if_pos (show 4 ∣ _ ∨ 4 ∣ _ from hwhole), if_pos hwhole, Option.map_some]
  · rw [if_neg (show ¬ (4 ∣ _ ∨ 4 ∣ _) from hwhole), if_neg hwhole, Option.map_none]

theorem duplicateMemberErrors_of_text {text : String} (h : decodeJwtPayloadJson P jwt = some text)
    (j : Nat) :
    duplicateMemberErrors P j jwt =
      (findDuplicateMetadataPolicyMembers text).map fun path =>
        chainError j "metadata_policy" 19
          s!"Duplicate metadata_policy member '{path}' at statement {j}" := by
  simp only [duplicateMemberErrors, h]
  split
  · rename_i hempty
    have hnone : findDuplicateMetadataPolicyMembers "" = [] := by decide
    rw [hempty, hnone, List.map_nil]
  · rfl

/-- The scan gets the text that an accepted JWT's payload is parsed from exactly if the payload
segment is whole groups of four characters, or its white space is. -/
theorem scansPayload_iff (hatob : ∀ text, P.atob text = atob text) (hreads : ReadsPayload P parse)
    {es : ParsedEntityStatement} (haccepted : decodeEntityStatement P jwt = .ok es) :
    ScansPayload P parse jwt es.payload ↔ ∀ segment, payloadSegment jwt = some segment →
      WholeGroups segment := by
  obtain ⟨text, htext, hparse⟩ := hreads jwt es.payload (decodeEntityStatement_payload haccepted)
  obtain ⟨segment, bytes, hsegment, hne, hbytes, hutf8⟩ := payloadText_eq_some.mp htext
  have hscan := decodeJwtPayloadJson_eq hatob hsegment hne hbytes
  rw [hutf8] at hscan
  constructor
  · rintro ⟨_, -, -, hjson, -⟩ segment' hsegment'
    obtain rfl := Option.some.inj (hsegment.symm.trans hsegment')
    by_contra hwhole
    rw [hscan, if_neg hwhole] at hjson
    cases hjson
  · intro hwhole
    rw [if_pos (hwhole segment hsegment)] at hscan
    exact ⟨text, htext, hparse, hscan, duplicateMemberErrors_of_text hscan⟩

/-! ## A payload with a space in its segment -/

/-- A platform that decodes ASCII texts, and parses them by a function. -/
def decodingPlatform (parse : String → Option Payload) : Platform :=
  let text : Platform :=
    { tablePlatform [] with
      atob := atob
      decodeUtf8 := fun bytes => String.ofList (bytes.map Char.ofNat) }
  let parsed (segment : Option String) : Except String Payload :=
    match (segmentText text segment).bind parse with
    | some payload => .ok payload
    | none => .error "Invalid JWT"
  { text with
    decodeProtectedHeader := fun jwt => parsed (Json.splitText '.' jwt)[0]?
    decodeJwt := fun jwt => parsed (payloadSegment jwt) }

theorem decodeJwt_decodingPlatform (parse : String → Option Payload) (jwt : String) :
    (decodingPlatform parse).decodeJwt jwt =
      match (payloadText (decodingPlatform parse) jwt).bind parse with
      | some payload => .ok payload
      | none => .error "Invalid JWT" := rfl

theorem decodeProtectedHeader_decodingPlatform (parse : String → Option Payload) (jwt : String) :
    (decodingPlatform parse).decodeProtectedHeader jwt =
      match (segmentText (decodingPlatform parse) (Json.splitText '.' jwt)[0]?).bind parse with
      | some payload => .ok payload
      | none => .error "Invalid JWT" := rfl

theorem readsPayload_decodingPlatform (parse : String → Option Payload) :
    ReadsPayload (decodingPlatform parse) parse := by
  intro jwt payload h
  rw [decodeJwt_decodingPlatform] at h
  split at h
  · rename_i payload' hparse
    obtain rfl := Except.ok.inj h
    exact Option.bind_eq_some_iff.mp hparse
  · cases h

/-- A header, and a payload that states the policy of an entity type twice. -/
def sampleStatement : ParsedEntityStatement :=
  { header := { members := [("alg", .str "ES256")], nodup := by simp }
    payload := { members := [("metadata_policy", .obj [("op", .obj [])])], nodup := by simp } }

def sampleText : String :=
  "\x7b\"metadata_policy\":\x7b\"op\":\x7b\x7d,\"op\":\x7b\x7d\x7d\x7d"

def parseSample (text : String) : Option Payload :=
  if text = "\x7b\"alg\":\"ES256\"\x7d" then some sampleStatement.header
  else if text = sampleText then some sampleStatement.payload
  else none

def sampleJwt (segment : String) : String := "eyJhbGciOiJFUzI1NiJ9." ++ segment ++ ".c2ln"

theorem decode_sampleJwt {segment : String}
    (hheader : segmentText (decodingPlatform parseSample)
      (Json.splitText '.' (sampleJwt segment))[0]? = some "\x7b\"alg\":\"ES256\"\x7d")
    (htext : payloadText (decodingPlatform parseSample) (sampleJwt segment) = some sampleText) :
    decodeEntityStatement (decodingPlatform parseSample) (sampleJwt segment) =
      .ok sampleStatement := by
  have hheader' : parseSample "\x7b\"alg\":\"ES256\"\x7d" = some sampleStatement.header := by
    rw [parseSample, if_pos rfl]
  have hpayload : parseSample sampleText = some sampleStatement.payload := by
    rw [parseSample, if_neg (by decide), if_pos rfl]
  simp only [decodeEntityStatement, decodeProtectedHeader_decodingPlatform, hheader,
    Option.bind_some, hheader', decodeJwt_decodingPlatform, htext, hpayload]

/-- White space of whole groups does no harm. -/
theorem scansPayload_iff_spaced :
    ScansPayload (decodingPlatform parseSample) parseSample
      (sampleJwt "eyJtZXRhZGF0YV9wb2xpY3kiOnsib3AiOnt9LCJvcCI6e319fQ    ") sampleStatement.payload ↔
        ∀ segment, payloadSegment (sampleJwt "eyJtZXRhZGF0YV9wb2xpY3kiOnsib3AiOnt9LCJvcCI6e319fQ    ") =
          some segment → WholeGroups segment :=
  scansPayload_iff (fun _ => rfl) (readsPayload_decodingPlatform parseSample)
    (decode_sampleJwt (by decide +kernel) (by decide +kernel))

/-- With one space in the segment the repeated member is not found. -/
theorem spaced_payload_unscanned :
    (∀ text, (decodingPlatform parseSample).atob text = atob text) ∧
      ReadsPayload (decodingPlatform parseSample) parseSample ∧
      decodeEntityStatement (decodingPlatform parseSample)
        (sampleJwt "eyJtZXRhZGF0YV9wb2xpY3kiOnsib3AiOnt9LCJvcCI6e319fQ ") = .ok sampleStatement ∧
      findDuplicateMetadataPolicyMembers sampleText = ["metadata_policy.op"] ∧
      (∀ j, duplicateMemberErrors (decodingPlatform parseSample) j
        (sampleJwt "eyJtZXRhZGF0YV9wb2xpY3kiOnsib3AiOnt9LCJvcCI6e319fQ ") = []) ∧
      ¬ ScansPayload (decodingPlatform parseSample) parseSample
        (sampleJwt "eyJtZXRhZGF0YV9wb2xpY3kiOnsib3AiOnt9LCJvcCI6e319fQ ")
        sampleStatement.payload := by
  have htext : payloadText (decodingPlatform parseSample)
      (sampleJwt "eyJtZXRhZGF0YV9wb2xpY3kiOnsib3AiOnt9LCJvcCI6e319fQ ") = some sampleText := by
    decide +kernel
  have hscan : decodeJwtPayloadJson (decodingPlatform parseSample)
      (sampleJwt "eyJtZXRhZGF0YV9wb2xpY3kiOnsib3AiOnt9LCJvcCI6e319fQ ") = none := by
    decide +kernel
  refine ⟨fun _ => rfl, readsPayload_decodingPlatform parseSample,
    decode_sampleJwt (by decide +kernel) htext, by decide +kernel, ?_, ?_⟩
  · intro j
    rw [duplicateMemberErrors, hscan]
  · rintro ⟨text, -, -, hjson, -⟩
    rw [hscan] at hjson
    cases hjson

end OidFed
