/-
# LightNet.Http.Message — `http/http_message.cpp`: requests, header lookup, and responses.

Strings are byte strings.  `std::tolower` and `std::isspace` are those of the "C" locale, in which
only the ASCII letters have a case and only six ASCII bytes are white space.
-/
import LightNet.Foundation.Decimal
import LightNet.Foundation.UnorderedMap

namespace LightNet.Http

open LightNet.Foundation

/-! ## Characters -/

/-- `std::tolower`. -/
def tolower (c : UInt8) : UInt8 := if 65 ≤ c ∧ c ≤ 90 then c + 32 else c

/-- `std::isspace`. -/
def isspace (c : UInt8) : Bool := c == 32 || (9 ≤ c && c ≤ 13)

/-- `std::isdigit`. -/
def isdigit (c : UInt8) : Bool := 48 ≤ c && c ≤ 57

/-- The header names the code looks for. -/
def kContentLength : Bytes :=
  ascii ['C', 'o', 'n', 't', 'e', 'n', 't', '-', 'L', 'e', 'n', 'g', 't', 'h']
/-- `"Connection"`. -/
def kConnection : Bytes := ascii ['C', 'o', 'n', 'n', 'e', 'c', 't', 'i', 'o', 'n']
/-- `"connection"`. -/
def kConnectionLower : Bytes := ascii ['c', 'o', 'n', 'n', 'e', 'c', 't', 'i', 'o', 'n']
/-- `"close"`. -/
def kClose : Bytes := ascii ['c', 'l', 'o', 's', 'e']
/-- `"HTTP/1.1"`. -/
def kHttp11 : Bytes := ascii ['H', 'T', 'T', 'P', '/', '1', '.', '1']

/-! ## Requests -/

/-- `lightnet::HttpRequest`. -/
structure HttpRequest where
  method : Bytes := []
  path : Bytes := []
  version : Bytes := []
  headers : UnorderedMap Bytes Bytes := ∅
  body : Bytes := []
  deriving DecidableEq

/-- The comparison in the loop of `get_header`. -/
def keyMatch (k key : Bytes) : Bool :=
  k.length == key.length && (k.zip key).all fun c => tolower c.1 == tolower c.2

namespace HttpRequest

/-- `get_header(key, default_val)`: the exact name first, then the first match in iteration order
that differs at most in case. -/
def getHeader (ord : IterOrder Bytes) (req : HttpRequest) (key : Bytes)
    (defaultVal : Bytes := []) : Bytes :=
  match req.headers.lookup key with
  | some v => v
  | none =>
      match (UnorderedMap.iterate ord req.headers).find? fun kv => keyMatch kv.1 key with
      | some kv => kv.2
      | none => defaultVal

/-- `HttpRequest::keep_alive()`. -/
def keepAlive (ord : IterOrder Bytes) (req : HttpRequest) : Bool :=
  let conn := req.getHeader ord kConnection
  if conn ≠ [] then conn != kClose else req.version == kHttp11

end HttpRequest

/-- The loop in `get_header` compares names without their case. -/
theorem keyMatch_iff {k key : Bytes} : keyMatch k key = true ↔ k.map tolower = key.map tolower := by
  unfold keyMatch
  induction k generalizing key with
  | nil => cases key <;> simp
  | cons c k ih =>
      cases key with
      | nil => simp
      | cons d key =>
          have := @ih key
          simp only [Bool.and_eq_true, beq_iff_eq] at this
          simp only [List.length_cons, List.zip_cons_cons, List.all_cons, List.map_cons,
            List.cons.injEq, Bool.and_eq_true, beq_iff_eq, Nat.add_right_cancel_iff]
          rw [← this]
          tauto

namespace HttpRequest

/-- If every header whose name is `key` up to case has value `v`, and there is one, `v` is found. -/
theorem getHeader_eq {ord : IterOrder Bytes} {req : HttpRequest} {key name v d : Bytes}
    (hname : req.headers.lookup name = some v) (hkey : name.map tolower = key.map tolower)
    (huniq : ∀ n w, req.headers.lookup n = some w → n.map tolower = key.map tolower → w = v) :
    req.getHeader ord key d = v := by
  unfold getHeader
  cases hexact : req.headers.lookup key with
  | some w => exact huniq key w hexact rfl
  | none =>
      cases hfind : (UnorderedMap.iterate ord req.headers).find? fun kv => keyMatch kv.1 key with
      | some kv =>
          have hmem := (UnorderedMap.iterate_perm ord req.headers).mem_iff.mp
            (List.mem_of_find?_eq_some hfind)
          have hmatch : keyMatch kv.1 key = true := by
            simpa using List.find?_some hfind
          exact huniq kv.1 kv.2 (UnorderedMap.mem_pairs_iff.mp hmem) (keyMatch_iff.mp hmatch)
      | none =>
          have hmem := (UnorderedMap.iterate_perm ord req.headers).mem_iff.mpr
            (UnorderedMap.mem_pairs_iff.mpr hname)
          have hno := List.find?_eq_none.mp hfind _ hmem
          exact absurd (keyMatch_iff.mpr hkey) hno

/-- With no header of that name, up to case, the default is returned. -/
theorem getHeader_of_absent {ord : IterOrder Bytes} {req : HttpRequest} {key d : Bytes}
    (h : ∀ n w, req.headers.lookup n = some w → n.map tolower ≠ key.map tolower) :
    req.getHeader ord key d = d := by
  unfold getHeader
  cases hexact : req.headers.lookup key with
  | some w => exact absurd rfl (h key w hexact)
  | none =>
      cases hfind : (UnorderedMap.iterate ord req.headers).find? fun kv => keyMatch kv.1 key with
      | none => rfl
      | some kv =>
          have hmem := (UnorderedMap.iterate_perm ord req.headers).mem_iff.mp
            (List.mem_of_find?_eq_some hfind)
          have hmatch : keyMatch kv.1 key = true := by
            simpa using List.find?_some hfind
          exact absurd (keyMatch_iff.mp hmatch) (h kv.1 kv.2 (UnorderedMap.mem_pairs_iff.mp hmem))

end HttpRequest

/-! ## Responses -/

/-- `"Content-Type"`. -/
def kContentType : Bytes := ascii ['C', 'o', 'n', 't', 'e', 'n', 't', '-', 'T', 'y', 'p', 'e']

/-- `"\r\n"`. -/
def crlf : Bytes := [13, 10]

/-- What `<<` writes for an `int`. -/
def intDecimal (n : Int) : Bytes := if n < 0 then 45 :: decimal n.natAbs else decimal n.toNat

/-- `lightnet::HttpResponse`. -/
structure HttpResponse where
  statusCode : Int := 200
  statusMessage : Bytes := ascii ['O', 'K']
  headers : UnorderedMap Bytes Bytes := ∅
  body : Bytes := []
  deriving DecidableEq

namespace HttpResponse

/-- `set_content_type(type)`. -/
def setContentType (resp : HttpResponse) (type : Bytes) : HttpResponse :=
  { resp with headers := UnorderedMap.assign kContentType type resp.headers }

/-- `set_body(content)`, which declares the length too. -/
def setBody (resp : HttpResponse) (content : Bytes) : HttpResponse :=
  { resp with
    body := content
    headers := UnorderedMap.assign kContentLength (decimal content.length) resp.headers }

/-- `serialize()`: the headers come in iteration order. -/
def serialize (ord : IterOrder Bytes) (resp : HttpResponse) : Bytes :=
  kHttp11 ++ [32] ++ intDecimal resp.statusCode ++ [32] ++ resp.statusMessage ++ crlf
    ++ (UnorderedMap.iterate ord resp.headers).flatMap (fun kv => kv.1 ++ [58, 32] ++ kv.2 ++ crlf)
    ++ crlf ++ resp.body

end HttpResponse

end LightNet.Http
