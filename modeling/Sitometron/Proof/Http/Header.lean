import Sitometron.Http.Header

/-!
# What an accepted header says

The inversion of `ParseHeader`.
-/

namespace Sitometron.Http

open Search

section Accepted

variable {isV6 : Bytes → Bool} {bytes : Bytes} {headerEnd : Nat} {options : Options} {request : RequestInfo}

def RequestLine.normalized (line : RequestLine) : Bytes :=
  line.method ++ text " " ++ line.target ++ text " " ++ rewriteHttpVersion line.version

structure Accepted (isV6 : Bytes → Bool) (bytes : Bytes) (headerEnd : Nat) (options : Options) (request : RequestInfo)
    (firstEnd : Nat) (line : RequestLine) (read : FieldState) : Prop where
  found : find bytes crlf (leading headerEnd bytes) = some firstEnd
  inside : firstEnd ≤ headerEnd
  parsed : parseRequestLine isV6 options ((bytes.drop (leading headerEnd bytes)).take (firstEnd - leading headerEnd bytes)) = .ok line
  fieldsRead : readFields bytes headerEnd headerEnd (firstEnd + 2) { normalized := line.normalized ++ crlf } = .ok read
  copied : request.method = line.method ∧ request.target = line.target ∧ request.version = line.version
  fields : request.fields = read.fields.map fun field => { field with value := trimOws field.value }
  coding : checkTransferEncoding (rewriteHttpVersion line.version) request.fields = .ok request.chunked
  length : request.contentLength = (readLengths (valuesOf request.fields "content-length")).length
  overflow : request.contentLengthOverflow = (readLengths (valuesOf request.fields "content-length")).lengthOverflow
  header : request.normalizedHeader = rebuild (canonicalLength options (readLengths (valuesOf request.fields "content-length")))
    request.chunked (read.normalized ++ crlf) (read.normalized ++ crlf).length 0

end Accepted

end Sitometron.Http
