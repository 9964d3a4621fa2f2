import Sitometron.Http.Syntax

/-!
# Request targets

`ParseTarget` of `http_server.cpp`. Whether a text is an IPv6 address is asked of the network library, a parameter.
-/

namespace Sitometron.Http

inductive TargetKind where
  | origin | absolute | noPath
deriving DecidableEq, Repr

structure TargetInfo where
  kind : TargetKind := .origin
  path : Bytes := []
  hasQuery : Bool := false
  hasAuthorityHost : Bool := false
deriving DecidableEq, Repr

/-- The text before the first of a byte, and the text after it. -/
def cut (c : UInt8) : Bytes → Option (Bytes × Bytes)
  | [] => none
  | d :: rest => if d = c then some ([], rest) else (cut c rest).map fun (before, after) => (d :: before, after)

def cutLast (c : UInt8) (s : Bytes) : Option (Bytes × Bytes) :=
  (cut c s.reverse).map fun (after, before) => (before.reverse, after.reverse)

def isAlpha (c : UInt8) : Bool := (c ≥ byte 'a' && c ≤ byte 'z') || (c ≥ byte 'A' && c ≤ byte 'Z')

def hasInvalidTargetOctet (target : Bytes) : Bool := target.any fun c => c ≤ 0x20 || c = 0x7F

def isUnreserved (c : UInt8) : Bool :=
  isAlpha c || isDigit c || c = byte '-' || c = byte '.' || c = byte '_' || c = byte '~'

def isSubDelim (c : UInt8) : Bool := (text "!$&'()*+,;=").contains c

/-- A text of the allowed bytes and of percent-encoded ones. -/
def isPctText (allowed : UInt8 → Bool) : Bytes → Bool
  | [] => true
  | c :: rest =>
      if allowed c then isPctText allowed rest
      else
        match rest with
        | high :: low :: rest => c = byte '%' && isHex high && isHex low && isPctText allowed rest
        | _ => false

def isValidRegName (value : Bytes) : Bool := !value.isEmpty && isPctText (fun c => isUnreserved c || isSubDelim c) value

def isValidIpLiteral (isV6 : Bytes → Bool) (value : Bytes) : Bool :=
  match value with
  | [] => false
  | c :: rest =>
      if c = byte 'v' || c = byte 'V' then
        match cut (byte '.') rest with
        | none => false
        | some (version, address) =>
            !version.isEmpty && !address.isEmpty && version.all isHex &&
              address.all fun c => isUnreserved c || isSubDelim c || c = byte ':'
      else !value.contains (byte '%') && isV6 value

def isValidUriHost (value : Bytes) : Bool := isValidRegName value

/-- The host and the port of an authority without user information; none where it is refused. -/
def splitHostPort (isV6 : Bytes → Bool) (value : Bytes) (allowEmptyHost : Bool) : Option (Bytes × Option Bytes) :=
  match value with
  | [] => none
  | c :: rest =>
      if c = byte '[' then
        match cut (byte ']') rest with
        | none => none
        | some (host, suffix) =>
            if !isValidIpLiteral isV6 host then none
            else
              match suffix with
              | [] => some (host, none)
              | d :: port => if d ≠ byte ':' then none else some (host, some port)
      else
        match cut (byte ':') value with
        | some (host, port) =>
            if port.contains (byte ':') then none
            else if !(allowEmptyHost && host.isEmpty) && !isValidUriHost host then none
            else some (host, some port)
        | none => if !(allowEmptyHost && value.isEmpty) && !isValidUriHost value then none else some (value, none)

def isValidAuthority (isV6 : Bytes → Bool) (value : Bytes) (requirePort allowUserinfo allowEmptyHost : Bool) : Bool :=
  if value.isEmpty then allowEmptyHost && !requirePort
  else
    let userinfo := cutLast (byte '@') value
    if userinfo.isSome && !allowUserinfo then false
    else if userinfo.any fun (info, _) => !isPctText (fun c => isUnreserved c || isSubDelim c || c = byte ':') info then false
    else
      let value := (userinfo.map Prod.snd).getD value
      if value.isEmpty then allowEmptyHost && !requirePort
      else
        match splitHostPort isV6 value allowEmptyHost with
        | none => false
        | some (host, port) =>
            if value.headD 0 = byte '[' && host.isEmpty then false
            else
              match port with
              | none => !requirePort
              | some port => port.all isDigit

def isValidScheme (value : Bytes) : Bool :=
  match value with
  | [] => false
  | c :: rest => isAlpha c && rest.all fun c => isAlpha c || isDigit c || c = byte '+' || c = byte '-' || c = byte '.'

def splitQuery (value : Bytes) : Bytes × Option Bytes :=
  match cut (byte '?') value with
  | none => (value, none)
  | some (path, query) => (path, some query)

def isPchar (c : UInt8) : Bool := isUnreserved c || isSubDelim c || c = byte ':' || c = byte '@'

def isValidPathAndQuery (value : Bytes) : Bool :=
  let (path, query) := splitQuery value
  isPctText (fun c => c = byte '/' || isPchar c) path &&
    isPctText (fun c => c = byte '/' || c = byte '?' || isPchar c) (query.getD [])

def isPathDelimiter (c : UInt8) : Bool := c = byte '/' || c = byte '?'

def parseConnectTarget (isV6 : Bytes → Bool) (target : Bytes) : Option TargetInfo :=
  if !isValidAuthority isV6 target true false false then none
  else
    let afterHost := if target.headD 0 = byte '[' then (cut (byte ']') target).map Prod.snd else some (target.dropWhile (· ≠ byte ':'))
    match afterHost with
    | some (c :: port) =>
        if c ≠ byte ':' || port.isEmpty || !port.all isDigit || ofDecimal port > 65535 then none
        else some { kind := .noPath, hasAuthorityHost := true }
    | _ => none

def parseAbsoluteTarget (isV6 : Bytes → Bool) (scheme hierPart : Bytes) : Option TargetInfo :=
  let scheme := lower scheme
  let requiresHost := scheme = text "http" || scheme = text "https"
  if !isValidScheme scheme then none
  else if !(text "//").isPrefixOf hierPart then
    if requiresHost || !isValidPathAndQuery hierPart then none
    else
      let (path, query) := splitQuery hierPart
      some { kind := .absolute, path := if path.isEmpty then text "/" else path, hasQuery := query.isSome }
  else
    let authority := (hierPart.drop 2).takeWhile fun c => !isPathDelimiter c
    let rest := (hierPart.drop 2).dropWhile fun c => !isPathDelimiter c
    if !isValidAuthority isV6 authority false true (!requiresHost) then none
    else
      let hostPort := ((cutLast (byte '@') authority).map Prod.snd).getD authority
      let hasHost := !hostPort.isEmpty && hostPort.headD 0 ≠ byte ':'
      if rest.isEmpty then some { kind := .absolute, path := text "/", hasAuthorityHost := hasHost }
      else if !isValidPathAndQuery rest then none
      else if rest.headD 0 = byte '?' then some { kind := .absolute, path := text "/", hasQuery := true, hasAuthorityHost := hasHost }
      else
        let (path, query) := splitQuery rest
        some { kind := .absolute, path, hasQuery := query.isSome, hasAuthorityHost := hasHost }

def parseTarget (isV6 : Bytes → Bool) (method target : Bytes) : Option TargetInfo :=
  if hasInvalidTargetOctet target || target.contains (byte '#') then none
  else if target = text "*" then if method ≠ text "OPTIONS" then none else some { kind := .noPath }
  else if method = text "CONNECT" then parseConnectTarget isV6 target
  else
    -- Absolute: a colon before the first slash or question mark.
    match cut (byte ':') target with
    | some (scheme, hierPart) =>
        if scheme.any isPathDelimiter then parseOrigin else parseAbsoluteTarget isV6 scheme hierPart
    | none => parseOrigin
where
  parseOrigin : Option TargetInfo :=
    if target.headD 0 ≠ byte '/' || !isValidPathAndQuery target then none
    else
      let (path, query) := splitQuery target
      some { kind := .origin, path, hasQuery := query.isSome }

end Sitometron.Http
