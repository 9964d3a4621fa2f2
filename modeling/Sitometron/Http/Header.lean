import Sitometron.Http.Target
import Sitometron.Lib.Search

/-!
# Reading and parsing the header of a request

`ReadHeader` and `ParseHeader` of `http_server.cpp`. What arrives on the connection is a list of events; the answers of the HTTP
parser and of the network library are parameters.
-/

namespace Sitometron.Http

open Search

structure Options where
  targetLimitBytes : UInt64 := 8192
  headerLimitBytes : UInt64 := 16384
  bodyLimitBytes : UInt64 := 65536

structure HeaderField where
  name : Bytes
  value : Bytes
deriving DecidableEq, Repr

inductive EarlyError where
  | malformed | targetTooLong | notImplemented
deriving DecidableEq, Repr

structure RequestInfo where
  method : Bytes
  target : Bytes
  version : Bytes
  normalizedHeader : Bytes
  fields : List HeaderField
  targetInfo : TargetInfo
  contentLength : Option UInt64
  contentLengthOverflow : Bool
  hasContentLength : Bool
  hasTransferEncoding : Bool
  chunked : Bool
  bodyPresent : Bool
  expectContinue : Bool
  headerBytes : Nat
deriving DecidableEq, Repr

/-! ## Reading -/

def rewriteHttpVersion (version : Bytes) : Bytes :=
  let last := version.getLastD 0
  if version.length = 8 && (text "HTTP/1.").isPrefixOf version && last ≥ byte '2' && last ≤ byte '9' then text "HTTP/1.1" else version

/-- The line ends that a text of that length starts with: how many bytes they take. -/
def leading : Nat → Bytes → Nat
  | 0, _ => 0
  | _, [] => 0
  | 1, c :: _ => if c = byte '\n' then 1 else 0
  | n + 2, c :: rest =>
      if c = byte '\r' && rest.headD 0 = byte '\n' then 2 + leading n rest.tail
      else if c = byte '\n' then 1 + leading (n + 1) rest
      else 0

/-- The parameters of a coding: none where they are refused, and whether there was one. -/
def readParameters : Nat → Bytes → Option Bool
  | 0, _ => none
  | fuel + 1, s =>
      match skipOws s with
      | [] => some false
      | c :: rest =>
          if c ≠ byte ';' then none
          else
            let name := skipOws rest
            let afterName := name.dropWhile isTchar
            if afterName.length = name.length then none
            else
              match skipOws afterName with
              | [] => none
              | d :: next =>
                  if d ≠ byte '=' then none
                  else
                    match afterValue (skipOws next) with
                    | none => none
                    | some rest => (readParameters fuel rest).map fun _ => true

structure Codings where
  codings : List Bytes := []
  chunkedParameter : Bool := false
deriving DecidableEq, Repr

def parseTransferCoding (value : Bytes) (found : Codings) : Option Codings :=
  (splitList value).foldlM (fun found element =>
    let coding := lower (element.takeWhile isTchar)
    if coding.isEmpty then none
    else
      match readParameters (element.length + 1) (element.dropWhile isTchar) with
      | none => none
      | some parameter => some { codings := found.codings ++ [coding]
                                 chunkedParameter := found.chunkedParameter || (parameter && coding = text "chunked") }) found

/-! ## Content-Length -/

structure LengthState where
  lengthOverflow : Bool := false
  invalid : Bool := false
  length : Option UInt64 := none
  overflowValue : Option Bytes := none
deriving DecidableEq, Repr

def readLengthItem (s : LengthState) (item : Bytes) : LengthState :=
  if s.invalid then s
  else
    let (parsed, overflow) := parseUint64 item
    if overflow then
      let normalizedItem := normalizeDecimal item
      if s.length.isSome || s.overflowValue.any (· ≠ normalizedItem) then { s with invalid := true }
      else { s with lengthOverflow := true, overflowValue := some normalizedItem }
    else
      match parsed with
      | none => { s with invalid := true }
      | some n =>
          if s.lengthOverflow || s.overflowValue.isSome || s.length.any (· ≠ n) then { s with invalid := true }
          else { s with length := some n }

def readLengths (values : List Bytes) : LengthState :=
  let s := values.foldl (fun s value => (splitList value).foldl readLengthItem s) {}
  if s.invalid then { s with length := none, lengthOverflow := false } else s

/-! ## Fields -/

structure FieldState where
  normalized : Bytes
  fields : List HeaderField := []
  haveField : Bool := false

def FieldState.addLine (s : FieldState) (line : Bytes) : FieldState :=
  let s := { s with normalized := s.normalized ++ line ++ crlf }
  match cut (byte ':') line with
  | none => s
  | some (name, value) =>
      if isToken name then { s with fields := s.fields ++ [⟨lower name, value⟩], haveField := true } else s

/-- The loop over the field lines. A line takes two bytes or more, so that the end of the header bounds the rounds. -/
def readFields (bytes : Bytes) (headerEnd : Nat) : Nat → Nat → FieldState → Except EarlyError FieldState
  | 0, _, s => .ok s
  | fuel + 1, position, s =>
      if position < headerEnd then
        match find bytes crlf position with
        | none => .error .malformed
        | some lineEnd =>
            if lineEnd > headerEnd then .error .malformed
            else
              match (bytes.drop position).take (lineEnd - position) with
              | [] => .ok s
              | c :: line =>
                  if isOws c then
                    if s.haveField then .error .malformed else readFields bytes headerEnd fuel (lineEnd + 2) s
                  else readFields bytes headerEnd fuel (lineEnd + 2) (s.addLine (c :: line))
      else .ok s

def valuesOf (fields : List HeaderField) (name : String) : List Bytes :=
  (fields.filter fun field => field.name = text name).map HeaderField.value

/-- The name of a header line: what comes before its first colon. -/
def lineName (line : Bytes) : Bytes :=
  match cut (byte ':') line with
  | none => []
  | some (name, _) => lower name

def rebuildLine (canonical : Option Bytes) (chunked : Bool) (line : Bytes) : Bytes :=
  if line.isEmpty then
    (match canonical with
      | none => []
      | some length => text "Content-Length:" ++ length ++ crlf) ++
    (if chunked then text "Transfer-Encoding:chunked" ++ crlf else []) ++ crlf
  else if lineName line ≠ text "transfer-encoding" && !(canonical.isSome && lineName line = text "content-length") then line ++ crlf
  else []

def rebuild (canonical : Option Bytes) (chunked : Bool) (normalized : Bytes) : Nat → Nat → Bytes
  | 0, _ => []
  | fuel + 1, lineStart =>
      if lineStart < normalized.length then
        match find normalized crlf lineStart with
        | none => []
        | some lineEnd =>
            rebuildLine canonical chunked ((normalized.drop lineStart).take (lineEnd - lineStart)) ++
              rebuild canonical chunked normalized fuel (lineEnd + 2)
      else []

/-! ## Parsing -/

structure RequestLine where
  method : Bytes
  target : Bytes
  version : Bytes
  targetInfo : TargetInfo

def parseRequestLine (isV6 : Bytes → Bool) (options : Options) (line : Bytes) : Except EarlyError RequestLine :=
  match cut (byte ' ') line with
  | none => .error .malformed
  | some (method, rest) =>
      match cut (byte ' ') rest with
      | none => .error .malformed
      | some (target, version) =>
          if target.isEmpty then .error .malformed
          else
            match parseTarget isV6 method target with
            | none => .error .malformed
            | some targetInfo =>
                if target.length > options.targetLimitBytes.toNat then .error .targetTooLong
                else .ok { method, target, version, targetInfo }

def checkTransferEncoding (version : Bytes) (fields : List HeaderField) : Except EarlyError Bool :=
  let transferValues := valuesOf fields "transfer-encoding"
  if transferValues.isEmpty then .ok false
  else if !(valuesOf fields "content-length").isEmpty then .error .malformed
  else
    match transferValues.foldlM (fun found value => parseTransferCoding value found) ({} : Codings) with
    | none => .error .malformed
    | some found =>
        if version = text "HTTP/1.0" || found.chunkedParameter || found.codings.count (text "chunked") > 1 ||
            found.codings.getLast?.any (· ≠ text "chunked") then .error .malformed
        else if found.codings.any (· ≠ text "chunked") then .error .notImplemented
        else .ok !found.codings.isEmpty

/-- The length that is written into the rebuilt header; one that overflowed becomes the first length that is too large. -/
def canonicalLength (options : Options) (s : LengthState) : Option Bytes :=
  if s.invalid then none
  else if s.lengthOverflow then
    let sentinel := if options.bodyLimitBytes = 0xFFFFFFFFFFFFFFFF then options.bodyLimitBytes else options.bodyLimitBytes + 1
    some (decimal sentinel.toNat)
  else s.length.map fun n => decimal n.toNat

end Sitometron.Http
