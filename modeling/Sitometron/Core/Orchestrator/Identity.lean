import Sitometron.Core.Orchestrator.Types

/-!
# Source gates and retry identities

`GateFor`, `PrepareGateIdentity` and `SameIdentity`: which gate an input passes, and what makes a second delivery the same
as the one that holds the gate.
-/

namespace Sitometron.Core.Orchestrator

def occursIn (needle : Bytes) (haystack : Bytes) : Bool := haystack.tails.any fun rest => needle.isPrefixOf rest

def timeoutGate (payloadJson : Bytes) : GateKind :=
  if occursIn (text "\"preparation\"") payloadJson then .preparationTimer
  else if occursIn (text "\"execution\"") payloadJson then .executionTimer
  else if occursIn (text "\"cooperative_stop\"") payloadJson then .cooperativeStopTimer
  else .processExitTimer

def gateFor : Input → Option GateKind
  | .command _ => some .terminate
  | .shutdown => none
  | .candidate event =>
      if event.eventType = text "timeout_expired" then some (timeoutGate event.payloadJson)
      else if event.eventType = text "worker_completed" || event.eventType = text "worker_failed" then some .worker
      else if event.eventType = text "process_exit_confirmed" then some .processExit
      else if event.eventType = text "resources_released" then some .resourcesReleased
      else if event.eventType = text "cleanup_status_recorded" then some .cleanup
      else none

def isCriticalCandidate (event : RawCandidateEvent) : Bool :=
  event.eventType = text "timeout_expired" || event.eventType = text "worker_completed" ||
    event.eventType = text "worker_failed" || event.eventType = text "process_exit_confirmed" ||
    event.eventType = text "resources_released" || event.eventType = text "cleanup_status_recorded"

def isHyphenPlace (i : Nat) : Bool := i = 8 || i = 13 || i = 18 || i = 23

def isUpperHex (c : UInt8) : Bool := byte 'A' ≤ c && c ≤ byte 'F'

def copyCanonicalUuid (value : Bytes) : Option Bytes :=
  if value.length ≠ 36 then none
  else if (List.range value.length).any fun i =>
      (isHyphenPlace i && value.getD i 0 ≠ byte '-') ||
        (!isHyphenPlace i && !(isLowerHex (value.getD i 0) || isUpperHex (value.getD i 0))) then none
  else some value

def isUuidVersion (value : Bytes) (version : UInt8) : Bool :=
  if (copyCanonicalUuid value).isNone || value.getD 14 0 ≠ version ||
      !(value.getD 19 0 = byte '8' || value.getD 19 0 = byte '9' || value.getD 19 0 = byte 'a' || value.getD 19 0 = byte 'b')
  then false
  else !(List.range value.length).any fun i => !isHyphenPlace i && isUpperHex (value.getD i 0)

/-! ## Scanning a payload

A position in the text is the rest of the text from there. -/

/-- What follows the closing quote of the first such key. -/
def jsonKey (key : Bytes) : Bytes → Option Bytes
  | [] => none
  | b :: rest =>
      if b = byte '"' && key.isPrefixOf rest && rest[key.length]? = some (byte '"') then some (rest.drop (key.length + 1))
      else jsonKey key rest

def jsonValue (json key : Bytes) : Option Bytes :=
  match jsonKey key json with
  | none => none
  | some rest =>
      match rest.dropWhile (· ≠ byte ':') with
      | [] => none
      | _ :: rest => some (rest.dropWhile isJsonSpace)

/-- The text up to a quote that does not follow a backslash; empty where there is none. -/
def stringUpToQuote (previous : UInt8) (taken : Bytes) : Bytes → Bytes
  | [] => []
  | b :: rest =>
      if b = byte '"' && previous ≠ byte '\\' then taken.reverse else stringUpToQuote b (b :: taken) rest

def jsonString (json key : Bytes) : Bytes :=
  match jsonValue json key with
  | some (b :: rest) => if b = byte '"' then stringUpToQuote 0 [] rest else []
  | _ => []

def jsonDigits (value : Nat) : Bytes → Option Nat
  | [] => some value
  | b :: rest =>
      if !isDigit b then some value
      else if value > (uint64Max - digitValue b) / 10 then none
      else jsonDigits (value * 10 + digitValue b) rest

def jsonUint (json key : Bytes) : Option UInt64 :=
  match jsonValue json key with
  | some (b :: rest) => if isDigit b then (jsonDigits 0 (b :: rest)).map UInt64.ofNat else none
  | _ => none

/-! ## Identities -/

def timerPhases : List Bytes :=
  [text "preparation", text "execution", text "cooperative_stop", text "process_exit_confirmation"]

/-- The identity of a Worker event; a key that stands twice, at any depth, makes it ambiguous. -/
def workerIdentity (lib : Libraries) (jobId : Bytes) (event : RawCandidateEvent) : Option GateIdentity :=
  match lib.json.parse event.payloadJson with
  | none => none
  | some payload =>
      if !payload.isObject || payload.memberKeys.length ≠ 2 ||
          (lib.json.keys event.payloadJson).count (text "worker_id") ≠ 1 ||
          (lib.json.keys event.payloadJson).count (text "event_sequence") ≠ 1 then none
      else match payload.find (text "worker_id"), payload.find (text "event_sequence") with
        | some (.string worker), some (.unsigned sequence) =>
            if !isUuidVersion worker (byte '4') || sequence = 0 then none
            else (copyCanonicalUuid worker).map fun workerId =>
              { jobId, workerId, eventSequence := sequence
                eventKind := if event.eventType = text "worker_completed" then 1 else 2 }
        | _, _ => none

def timerIdentity (jobId : Bytes) (event : RawCandidateEvent) : Option GateIdentity :=
  match timerPhases.idxOf? (jsonString event.payloadJson (text "phase")),
      jsonUint event.payloadJson (text "timer_generation") with
  | some timerPhase, some timerGeneration => some { jobId, timerPhase, timerGeneration }
  | _, _ => none

def prepareGateIdentity (lib : Libraries) (kind : GateKind) (event : RawCandidateEvent) : Option GateIdentity :=
  if !isUuidVersion event.jobId.value (byte '7') then none
  else match copyCanonicalUuid event.jobId.value with
    | none => none
    | some jobId =>
        if kind = .worker then workerIdentity lib jobId event
        else if kind.isTimer then timerIdentity jobId event
        else none

def sameIdentity (lhs rhs : Option GateIdentity) : Bool := lhs.isSome && lhs = rhs

end Sitometron.Core.Orchestrator
