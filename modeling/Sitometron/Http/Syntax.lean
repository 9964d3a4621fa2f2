import Sitometron.Lib.Radix
import Sitometron.Lib.Bytes
import Mathlib.Data.List.DropRight

/-!
# Bytes, tokens and lists of a request

The lexical functions of `http_server.cpp`. A position in a text is the rest of the text from there.
-/

namespace Sitometron.Http

def isTchar (c : UInt8) : Bool :=
  (c ≥ byte 'a' && c ≤ byte 'z') || (c ≥ byte 'A' && c ≤ byte 'Z') || (c ≥ byte '0' && c ≤ byte '9') ||
    (text "!#$%&'*+-.^_`|~").contains c

def isHex (c : UInt8) : Bool :=
  (c ≥ byte '0' && c ≤ byte '9') || (c ≥ byte 'a' && c ≤ byte 'f') || (c ≥ byte 'A' && c ≤ byte 'F')

def isQdText (c : UInt8) : Bool :=
  c = 0x09 || c = 0x20 || c = 0x21 || (c ≥ 0x23 && c ≤ 0x5B) || (c ≥ 0x5D && c ≤ 0x7E) || c ≥ 0x80

def isQuotedPair (c : UInt8) : Bool := c = 0x09 || c = 0x20 || (c ≥ 0x21 && c ≤ 0x7E) || c ≥ 0x80

def isOws (c : UInt8) : Bool := c = byte ' ' || c = byte '\t'

def skipOws (s : Bytes) : Bytes := s.dropWhile isOws

def isToken (s : Bytes) : Bool := !s.isEmpty && s.all isTchar

def toLower (c : UInt8) : UInt8 := if c ≥ byte 'A' && c ≤ byte 'Z' then c + 32 else c

def lower (s : Bytes) : Bytes := s.map toLower

def trimOws (s : Bytes) : Bytes := (s.dropWhile isOws).rdropWhile isOws

/-- The rest of a text after a quoted string whose opening quote has been read. -/
def afterQuoted : Bytes → Option Bytes
  | [] => none
  | c :: rest =>
      if c = byte '\\' then
        match rest with
        | [] => none
        | escaped :: rest => if isQuotedPair escaped then afterQuoted rest else none
      else if c = byte '"' then some rest
      else if isQdText c then afterQuoted rest
      else none

def afterValue : Bytes → Option Bytes
  | [] => none
  | c :: rest =>
      if c = byte '"' then afterQuoted rest
      else if isTchar c then some (rest.dropWhile isTchar)
      else none

/-- The loop of `SplitList`: the element that is being read, and whether it is inside quotes. -/
def splitListFrom (element : Bytes) (inQuotes : Bool) : Bytes → List Bytes
  | [] => let element := trimOws element; if element.isEmpty then [] else [element]
  | c :: rest =>
      if inQuotes then
        if c = byte '\\' then
          match rest with
          | [] => splitListFrom (element ++ [c]) true []
          | escaped :: rest => splitListFrom (element ++ [c, escaped]) true rest
        else splitListFrom (element ++ [c]) (c ≠ byte '"') rest
      else if c = byte '"' then splitListFrom (element ++ [c]) true rest
      else if c = byte ',' then
        let element := trimOws element
        if element.isEmpty then splitListFrom [] false rest else element :: splitListFrom [] false rest
      else splitListFrom (element ++ [c]) false rest

def splitList (value : Bytes) : List Bytes := splitListFrom [] false value

/-- `ParseUint64`: the number, or none and whether it overflowed. -/
def parseUint64 (value : Bytes) : Option UInt64 × Bool :=
  if value.isEmpty || !value.all isDigit then (none, false)
  else
    let reading := value.foldl (fun r c => Radix.push 10 r (c - byte '0').toUInt64) {}
    (if reading.overflow then none else some reading.value, reading.overflow)

def normalizeDecimal (value : Bytes) : Bytes :=
  let significant := value.dropWhile (· = byte '0')
  if significant.isEmpty then text "0" else significant

def canonicalJobId (id : Bytes) : Bool :=
  if id.length ≠ 36 || id.getD 14 0 ≠ byte '7' || !(text "89ab").contains (id.getD 19 0) then false
  else (List.range id.length).all fun i =>
    if i = 8 || i = 13 || i = 18 || i = 23 then id.getD i 0 = byte '-'
    else (id.getD i 0 ≥ byte '0' && id.getD i 0 ≤ byte '9') || (id.getD i 0 ≥ byte 'a' && id.getD i 0 ≤ byte 'f')

end Sitometron.Http
