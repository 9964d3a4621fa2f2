import Sitometron.Http.Syntax

/-!
# Chunked bodies

`ChunkScanner` of `http_server.cpp` watches a chunked body for sizes that do not fit in 64 bits, and `feed` holds the start of a
size line back from the HTTP parser until the line is complete. The parser is a parameter.
-/

namespace Sitometron.Http

inductive ScannerState where
  | size | data | dataCrlf | trailer
deriving DecidableEq, Repr

structure ChunkScanner where
  state : ScannerState := .size
  line : Bytes := []
  remaining : UInt64 := 0
  overflow : Bool := false
  stopped : Bool := false
  sizeCrSeen : Bool := false
  dataCrSeen : Bool := false
deriving DecidableEq, Repr

abbrev SizeResult := Radix.Reading

namespace ChunkScanner

def hexNumber (digit : UInt8) : UInt64 :=
  if digit ≥ byte '0' && digit ≤ byte '9' then (digit - byte '0').toUInt64
  else if digit ≥ byte 'a' && digit ≤ byte 'f' then (digit - byte 'a').toUInt64 + 10
  else (digit - byte 'A').toUInt64 + 10

/-- The loop over the chunk extensions: whether it comes to the end of the line. An extension takes two bytes or more, so that
the length of the line bounds the rounds. -/
def readExtensions : Nat → Bytes → Bool
  | 0, _ => false
  | fuel + 1, s =>
      match skipOws s with
      | [] => s.isEmpty
      | c :: rest =>
          if c ≠ byte ';' then false
          else
            let name := skipOws rest
            let afterName := name.dropWhile isTchar
            if afterName.length = name.length then false
            else
              match skipOws afterName with
              | [] => if afterName.isEmpty then readExtensions fuel [] else false
              | d :: next =>
                  if d = byte '=' then
                    match afterValue (skipOws next) with
                    | none => false
                    | some rest => readExtensions fuel rest
                  else if d ≠ byte ';' then false
                  else readExtensions fuel (d :: next)

def parseSizeLine (value : Bytes) : Option SizeResult :=
  if value.isEmpty || !isHex (value.headD 0) then none
  else
    let result : SizeResult := (value.takeWhile isHex).foldl (fun r c => Radix.push 16 r (hexNumber c)) {}
    if readExtensions (value.length + 1) (value.dropWhile isHex) then some result else none

def feedByte (s : ChunkScanner) (b : UInt8) : ChunkScanner :=
  if s.overflow || s.stopped then s
  else
    match s.state with
    | .size =>
        if s.sizeCrSeen then
          if b ≠ byte '\n' then { s with stopped := true }
          else
            let s := { s with line := s.line ++ [b], sizeCrSeen := false }
            match parseSizeLine (s.line.take (s.line.length - 2)) with
            | none => { s with stopped := true }
            | some parsed =>
                let s := { s with line := [] }
                if parsed.overflow then { s with overflow := true }
                else { s with remaining := parsed.value, state := if parsed.value = 0 then .trailer else .data }
        else if b = byte '\r' then { s with line := s.line ++ [b], sizeCrSeen := true }
        else if b = byte '\n' then { s with stopped := true }
        else { s with line := s.line ++ [b] }
    | .data =>
        let s := { s with remaining := s.remaining - 1 }
        if s.remaining = 0 then { s with state := .dataCrlf, dataCrSeen := false } else s
    | .dataCrlf =>
        if s.dataCrSeen then
          if b ≠ byte '\n' then { s with stopped := true } else { s with dataCrSeen := false, state := .size }
        else if b = byte '\r' then { s with dataCrSeen := true }
        else { s with stopped := true }
    | .trailer => s

def feed (s : ChunkScanner) (input : Bytes) : ChunkScanner := input.foldl feedByte s

end ChunkScanner

inductive ErrorCode where
  | needMore | bodyLimit | other (value : Nat)
deriving DecidableEq, Repr

/-- The HTTP parser: `put` answers how many of the bytes it is offered it consumes. -/
structure Parser where
  State : Type
  isDone : State → Bool
  put : State → Bytes → Nat × Option ErrorCode × State
  put_le : ∀ state bytes, (put state bytes).1 ≤ bytes.length

/-- What `feed` works on, with what the parser has consumed and what it has been offered, and where in the body. -/
structure Connection (parser : Parser) where
  scanner : ChunkScanner := {}
  pending : Bytes := []
  state : parser.State
  consumed : Bytes := []
  offers : List (Nat × Bytes) := []

namespace Connection

variable {parser : Parser}

/-- One call of the parser, with the pending bytes that are not held back. -/
def put (heldBack : Nat) (c : Connection parser) : Connection parser × Nat × Option ErrorCode :=
  let forward := c.pending.take (c.pending.length - heldBack)
  let (consumed, error, state) := parser.put c.state forward
  ({ c with
      pending := c.pending.drop consumed
      state
      consumed := c.consumed ++ c.pending.take consumed
      offers := c.offers ++ [(c.consumed.length, forward)] }, consumed, error)

/-- The loop of `feed` over the pending bytes: each round but the last consumes one of them. -/
def offer (heldBack : Nat) : Nat → Connection parser → Connection parser × Option ErrorCode
  | 0, c => (c, none)
  | fuel + 1, c =>
      if c.pending.isEmpty || parser.isDone c.state then (c, none)
      else if c.pending.length ≤ heldBack then (c, none)
      else
        match c.put heldBack with
        | (c, _, some .needMore) => (c, none)
        | (c, _, some error) => (c, some error)
        | (c, consumed, none) => if consumed = 0 then (c, none) else offer heldBack fuel c

def heldBack (s : ChunkScanner) : Nat :=
  if s.state = .size && !s.stopped && (!s.line.isEmpty || s.sizeCrSeen) then s.line.length else 0

def feed (chunked : Bool) (c : Connection parser) (bytes : Bytes) : Connection parser × Option ErrorCode :=
  let c := if chunked then { c with scanner := c.scanner.feed bytes } else c
  if chunked && c.scanner.overflow then (c, some .bodyLimit)
  else
    let c := { c with pending := c.pending ++ bytes }
    offer (if chunked then heldBack c.scanner else 0) c.pending.length c

end Connection

end Sitometron.Http
