/-
# LightNet.Http.Parser — the incremental parser of `http/http_parser.cpp`.

`parseLoop` is the `while` of `HttpParser::parse`, on the faithful `Buffer`.  The code may leave the
loop by `return state_` or by an exception out of `std::stoul`; either way the parser and the buffer
keep what was done so far, so a call answers with all three.  The loop is bounded by fuel here;
`parse` gives it more than it can use.
-/
import LightNet.Core.Buffer
import LightNet.Http.Message

namespace LightNet.Http

open LightNet.Foundation LightNet.Core

/-! ## `std::stoul` -/

/-- What `std::stoul` throws. -/
inductive StdError where
  | invalidArgument
  | outOfRange
  deriving DecidableEq, Repr

/-- The value of a string of decimal digits. -/
def decimalValue (ds : Bytes) : Nat := ds.foldl (fun n d => 10 * n + (d.toNat - 48)) 0

/-- An optional sign: whether it is a minus, and what follows. -/
def takeSign : Bytes → Bool × Bytes
  | 45 :: rest => (true, rest)
  | 43 :: rest => (false, rest)
  | s => (false, s)

/-- `std::stoul(s)` with a 64-bit `unsigned long`. -/
def stoul (s : Bytes) : Except StdError Nat :=
  let (negative, rest) := takeSign (s.dropWhile isspace)
  let digits := rest.takeWhile isdigit
  if digits = [] then .error .invalidArgument
  else
    let n := decimalValue digits
    if 2 ^ 64 ≤ n then .error .outOfRange
    else .ok (if negative then (2 ^ 64 - n) % 2 ^ 64 else n)

/-! ## The parser -/

/-- `lightnet::HttpParseState`. -/
inductive HttpParseState where
  | kStartLine
  | kHeaders
  | kBody
  | kComplete
  | kError
  deriving DecidableEq, Repr

/-- `lightnet::HttpParser`. -/
structure HttpParser where
  state : HttpParseState := .kStartLine
  request : HttpRequest := {}
  contentLength : Nat := 0
  keepAlive : Bool := true
  deriving DecidableEq

/-- What a call of `parse` leaves behind: the parser (whose `state` is the value returned), the
buffer, and the exception that ended the call, if one did. -/
structure ParseResult where
  parser : HttpParser
  buf : Buffer
  thrown : Option StdError

/-! ## Lines -/

/-- `std::find(begin, end, c)`: what is before the first `c`, and what is behind it. -/
def splitAtFirst (c : UInt8) : Bytes → Option (Bytes × Bytes)
  | [] => none
  | x :: xs => if x = c then some ([], xs) else (splitAtFirst c xs).map fun r => (x :: r.1, r.2)

/-- `"HTTP/"`. -/
def kHttpSlash : Bytes := ascii ['H', 'T', 'T', 'P', '/']

namespace HttpParser

/-- `HttpParser()`. -/
def new : HttpParser := {}

/-- `reset()`. -/
def reset (_ : HttpParser) : HttpParser :=
  { state := .kStartLine, request := {}, contentLength := 0, keepAlive := true }

/-- `parse_start_line`. -/
def parseStartLine (p : HttpParser) (line : Bytes) : Bool × HttpParser :=
  match splitAtFirst 32 line with
  | none => (false, p)
  | some (method, afterMethod) =>
      match splitAtFirst 32 afterMethod with
      | none => (false, p)
      | some (path, version) =>
          -- the parts are stored before they are checked
          let p := { p with request := { p.request with method, path, version } }
          if version.length < 8 ∨ version.take 5 ≠ kHttpSlash then (false, p)
          else if path = [] ∨ path.head? ≠ some 47 then (false, p)
          else (true, p)

/-- `parse_header_line`. -/
def parseHeaderLine (p : HttpParser) (line : Bytes) : Bool × HttpParser :=
  match splitAtFirst 58 line with
  | none => (false, p)
  | some (key, afterColon) =>
      let value := afterColon.dropWhile isspace
      -- `operator[]`: a repeated name keeps its last value
      let headers := UnorderedMap.assign key value p.request.headers
      let p := { p with request := { p.request with headers } }
      if key = kConnection ∨ key = kConnectionLower then
        (true, { p with keepAlive := value != kClose })
      else (true, p)

/-! ## The loop -/

/-- The `while` of `parse`. -/
def parseLoop (ord : IterOrder Bytes) : Nat → HttpParser → Buffer → ParseResult
  | 0, p, buf => ⟨p, buf, none⟩
  | fuel + 1, p, buf =>
      match p.state with
      | .kComplete => ⟨p, buf, none⟩
      | .kError => ⟨p, buf, none⟩
      | .kStartLine =>
          match buf.findCrlf with
          | none => ⟨p, buf, none⟩
          | some crlf =>
              match p.parseStartLine (buf.peek crlf) with
              -- a refused line is not consumed
              | (false, p) => ⟨{ p with state := .kError }, buf, none⟩
              | (true, p) => parseLoop ord fuel { p with state := .kHeaders } (buf.retrieve (crlf + 2))
      | .kHeaders =>
          match buf.findCrlf with
          | none => ⟨p, buf, none⟩
          | some 0 =>
              -- the blank line is consumed before `stoul` can throw
              let buf := buf.retrieve 2
              let cl := p.request.getHeader ord kContentLength
              if cl = [] then parseLoop ord fuel { p with state := .kComplete } buf
              else
                match stoul cl with
                | .error e => ⟨p, buf, some e⟩
                | .ok n => parseLoop ord fuel { p with contentLength := n, state := .kBody } buf
          | some crlf =>
              match p.parseHeaderLine (buf.peek crlf) with
              | (false, p) => ⟨{ p with state := .kError }, buf, none⟩
              | (true, p) => parseLoop ord fuel p (buf.retrieve (crlf + 2))
      | .kBody =>
          if buf.readableBytes < p.contentLength then ⟨p, buf, none⟩
          else
            let r := buf.retrieveAsString p.contentLength
            parseLoop ord fuel
              { p with request := { p.request with body := r.1 }, state := .kComplete } r.2

/-- `parse(buf)`. -/
def parse (ord : IterOrder Bytes) (p : HttpParser) (buf : Buffer) : ParseResult :=
  parseLoop ord (buf.readableBytes + 2) p buf

end HttpParser

end LightNet.Http
