import OidFed.Platform

/-!
# HTTP (`core/src/http.ts`)

* `Headers`, `Request`, `Response`: what the handlers read of a request, and what they answer.
* `HttpHost`: a platform with the form parser of the host.
* `readBodyWithLimit`, `requireMethods`, `errorResponse`, `jwtResponse`: the helpers of the
  handlers.
-/

namespace OidFed

open Js

/-! ## Lists of named values -/

/-- The values of a name in the fields of a header or the parameters of a form. -/
def valuesOf (fields : List (String × String)) (name : String) : List String :=
  fields.filterMap fun f => if f.1 = name then some f.2 else none

def removeName (fields : List (String × String)) (name : String) : List (String × String) :=
  fields.filter fun f => f.1 != name

theorem valuesOf_eq_nil_iff {fields : List (String × String)} {name : String} :
    valuesOf fields name = [] ↔ ∀ f ∈ fields, f.1 ≠ name := by
  rw [valuesOf, List.filterMap_eq_nil_iff]
  refine forall₂_congr fun f _ => ?_
  by_cases hf : f.1 = name
  · simp [hf]
  · simp [hf]

@[simp] theorem valuesOf_removeName_self (fields : List (String × String)) (name : String) :
    valuesOf (removeName fields name) name = [] :=
  valuesOf_eq_nil_iff.mpr fun f hf => by simpa using (List.mem_filter.mp hf).2

theorem valuesOf_removeName_ne (fields : List (String × String)) {name other : String}
    (hne : other ≠ name) : valuesOf (removeName fields name) other = valuesOf fields other := by
  rw [valuesOf, valuesOf, removeName, List.filterMap_filter]
  congr 1
  funext f
  by_cases hf : f.1 = other
  · simp [hf, hne]
  · simp [hf]

theorem valuesOf_append (fields more : List (String × String)) (name : String) :
    valuesOf (fields ++ more) name = valuesOf fields name ++ valuesOf more name :=
  List.filterMap_append

/-! ## Headers -/

/-- Header fields in their order, with names in lower case. -/
abbrev Headers := List (String × String)

namespace Headers

/-- The values of a name, joined. -/
def get (h : Headers) (name : String) : Option String :=
  match valuesOf h name with
  | [] => none
  | value :: rest => some (rest.foldl (fun text v => text ++ ", " ++ v) value)

def delete (h : Headers) (name : String) : Headers := removeName h name

def isHttpWhitespace (c : Char) : Bool := c == ' ' || c == '\t' || c == '\n' || c == '\r'

/-- A header value without the white space around it. -/
def normalizeValue (value : String) : String :=
  String.ofList ((value.toList.dropWhile isHttpWhitespace).rdropWhile isHttpWhitespace)

/-- A byte string without a line break or a zero byte. -/
def isValue (value : String) : Bool :=
  value.toList.all fun c => decide (c.toNat < 256) && c != '\n' && c != '\r' && c.toNat != 0

def put (h : Headers) (name value : String) : Headers := h.delete name ++ [(name, value)]

/-- `headers.set(name, value)`, `none` where it throws. -/
def set (h : Headers) (name value : String) : Option Headers :=
  if isValue (normalizeValue value) then some (h.put name (normalizeValue value)) else none

@[simp] theorem get_delete_self (h : Headers) (name : String) :
    (h.delete name).get name = none := by
  rw [get, delete, valuesOf_removeName_self]

theorem get_delete_ne (h : Headers) {name other : String} (hne : other ≠ name) :
    (h.delete name).get other = h.get other := by
  rw [get, get, delete, valuesOf_removeName_ne h hne]

@[simp] theorem get_put_self (h : Headers) (name value : String) :
    (h.put name value).get name = some value := by
  rw [get, put, valuesOf_append, delete, valuesOf_removeName_self]
  simp [valuesOf]

theorem get_put_ne (h : Headers) {name other : String} (hne : other ≠ name) (value : String) :
    (h.put name value).get other = h.get other := by
  rw [get, get, put, valuesOf_append, delete, valuesOf_removeName_ne h hne]
  simp [valuesOf, Ne.symm hne]

theorem set_eq_some {h h' : Headers} {name value : String} :
    h.set name value = some h' ↔
      isValue (normalizeValue value) = true ∧ h' = h.put name (normalizeValue value) := by
  unfold set
  by_cases hvalue : isValue (normalizeValue value) = true
  · rw [if_pos hvalue]
    simp [hvalue, eq_comm]
  · rw [if_neg hvalue]
    simp [hvalue]

end Headers

/-! ## Requests -/

/-- A body: the chunks of a stream, and whether reading it fails after them; or a text. -/
inductive RequestBody where
  | stream (chunks : List (List Nat)) (fails : Bool)
  | text (value : String)

structure Request where
  method : String := "GET"
  /-- The path of the URL. -/
  pathname : String
  /-- The parameters of its query. -/
  searchParams : List (String × String) := []
  headers : Headers := []
  body : Option RequestBody := none

/-- The first value of a query parameter. -/
def queryParam (request : Request) (name : String) : Option String :=
  (valuesOf request.searchParams name).head?

/-- The header in which a handler finds the entity that has authenticated itself. -/
def xAuthenticatedEntity : String := "x-authenticated-entity"

/-- A platform with further functions of the host: the parameters that `URLSearchParams` reads in a
text, the text that it makes of them, and the path of a URL. -/
structure HttpHost extends Platform where
  searchParams : String → List (String × String)
  formText : List (String × String) → String
  urlPathname : Url → String

/-- `params.has(name)`. -/
def hasParam (params : List (String × String)) (name : String) : Bool :=
  params.any fun p => p.1 == name

theorem hasParam_iff {params : List (String × String)} {name : String} :
    hasParam params name = true ↔ valuesOf params name ≠ [] := by
  rw [Ne, valuesOf_eq_nil_iff]
  simp [hasParam]

def upperCase (s : String) : String := String.ofList (s.toList.map Char.toUpper)

/-! ### The body -/

def defaultMaxRequestBodyBytes : Nat := 65536

/-- `Number.parseInt(s, 10)`, `none` for `NaN`. -/
def parseDecimalPrefix (s : String) : Option Int :=
  let rest := s.toList.dropWhile Char.isWhitespace
  let signed := match rest with
    | '-' :: digits => (-1, digits)
    | '+' :: digits => (1, digits)
    | digits => ((1 : Int), digits)
  match signed.2.takeWhile Char.isDigit with
  | [] => none
  | digits => some (signed.1 * (digits.foldl (fun n c => 10 * n + (c.toNat - 48)) 0 : Nat))

/-- What a read of a body gives: its text, `none` where it is too large; an error where it fails. -/
abbrev BodyRead := Except JsError (Option String)

/-- The loop over the chunks of a stream, with the bytes read so far. -/
def readChunks (P : Platform) (maxBytes : Nat) (fails : Bool) (received : List Nat) :
    List (List Nat) → BodyRead
  | [] => if fails then .error .typeError else .ok (some (P.decodeUtf8 received))
  | chunk :: rest =>
    if maxBytes < (received ++ chunk).length then .ok none
    else readChunks P maxBytes fails (received ++ chunk) rest

def readStreamWithLimit (P : Platform) (maxBytes : Nat) : RequestBody → BodyRead
  | .stream chunks fails => readChunks P maxBytes fails [] chunks
  | .text value => .ok (if maxBytes < value.utf8ByteSize then none else some value)

def readBodyWithLimit (P : Platform) (request : Request) (maxBytes : Nat) : BodyRead :=
  match request.body with
  | none => .ok none
  | some body =>
    let contentLength := (request.headers.get "content-length").filter fun s => s != ""
    if (contentLength.bind parseDecimalPrefix).any fun n => decide ((maxBytes : Int) < n) then
      .ok none
    else readStreamWithLimit P maxBytes body

/-- The whole text of a body, `none` where reading it fails. -/
def RequestBody.wholeText (P : Platform) : RequestBody → Option String
  | .stream chunks fails => if fails then none else some (P.decodeUtf8 chunks.flatten)
  | .text value => some value

/-- The text that a request carries. -/
def Request.text (P : Platform) (request : Request) : Option String :=
  match request.body with
  | none => some ""
  | some body => body.wholeText P

theorem readChunks_eq_ok {P : Platform} {maxBytes : Nat} {fails : Bool} {received : List Nat}
    {chunks : List (List Nat)} {text : String}
    (h : readChunks P maxBytes fails received chunks = .ok (some text)) :
    fails = false ∧ text = P.decodeUtf8 (received ++ chunks.flatten) := by
  induction chunks generalizing received with
  | nil =>
    rw [readChunks] at h
    cases fails with
    | false => exact ⟨rfl, by simpa using (Option.some.inj (Except.ok.inj h)).symm⟩
    | true => cases h
  | cons chunk rest ih =>
    rw [readChunks] at h
    split at h
    · cases Except.ok.inj h
    · simpa using ih h

/-- A read within the limit gives the whole text. -/
theorem readBodyWithLimit_eq_ok {P : Platform} {request : Request} {maxBytes : Nat} {text : String}
    (h : readBodyWithLimit P request maxBytes = .ok (some text)) :
    request.text P = some text := by
  unfold readBodyWithLimit at h
  cases hbody : request.body with
  | none =>
    rw [hbody] at h
    cases Except.ok.inj h
  | some body =>
    rw [hbody] at h
    simp only at h
    split at h
    · cases Except.ok.inj h
    · rw [Request.text, hbody]
      cases body with
      | stream chunks fails =>
        obtain ⟨rfl, rfl⟩ := readChunks_eq_ok h
        rfl
      | text value =>
        rw [readStreamWithLimit] at h
        split at h
        · cases Except.ok.inj h
        · exact Except.ok.inj h

/-! ## Responses -/

inductive ResponseBody where
  | json (value : Json)
  | text (value : String)
  deriving DecidableEq

structure Response where
  status : Nat
  headers : Headers
  body : ResponseBody
  deriving DecidableEq

def securityHeaders : Headers :=
  [("cache-control", "no-store"), ("x-content-type-options", "nosniff"),
    ("strict-transport-security", "max-age=31536000; includeSubDomains"),
    ("x-frame-options", "DENY"), ("referrer-policy", "no-referrer")]

def jsonHeaders : Headers := securityHeaders ++ [("content-type", "application/json")]

def jsonResponse (body : Json) (status : Nat := 200) : Response where
  status := status
  headers := jsonHeaders
  body := .json body

def errorResponse (status : Nat) (code description : String) : Response where
  status := status
  headers := jsonHeaders
  body := .json (.obj [("error", .str code), ("error_description", .str description)])

def jwtResponse (jwt mediaType : String) : Response where
  status := 200
  headers := securityHeaders ++ [("content-type", mediaType)]
  body := .text jwt

/-- The response to a method that is not among `methods`. -/
def requireMethods (request : Request) (methods : List String) : Option Response :=
  if methods.any fun m => upperCase m == upperCase request.method then none
  else some
    { status := 405
      headers := securityHeaders ++
        [("allow", ", ".intercalate methods), ("content-type", "application/json")]
      body := .json (.obj [("error", .str "method_not_allowed")]) }

def requireMethod (request : Request) (method : String) : Option Response :=
  requireMethods request [method]

theorem requireMethod_of_method {request : Request} {method : String} (h : request.method = method) :
    requireMethod request method = none := by
  rw [requireMethod, requireMethods, h]
  simp

/-- A method is refused with the status 405. -/
theorem requireMethods_status {request : Request} {methods : List String} {response : Response}
    (h : requireMethods request methods = some response) : response.status = 405 := by
  unfold requireMethods at h
  split at h
  · cases h
  · obtain rfl := Option.some.inj h
    rfl

theorem jwtResponse_contentType (jwt mediaType : String) :
    (jwtResponse jwt mediaType).headers.get "content-type" = some mediaType := by
  have hvalues : valuesOf (jwtResponse jwt mediaType).headers "content-type" = [mediaType] := by
    rw [jwtResponse, valuesOf_append]
    rfl
  rw [Headers.get, hvalues]
  rfl

end OidFed
