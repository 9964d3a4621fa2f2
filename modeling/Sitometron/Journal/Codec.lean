import Sitometron.Core.Types

/-!
# The canonical record codec

`record_codec.cpp`: one logical event is one JSON object followed by one line feed. The JSON parser is
a parameter.
-/

namespace Sitometron.Journal

open Core

def maxAllocationTextBytes : Nat := 65536
def maxStableIdChars : Nat := 128
def maxVersionChars : Nat := 128
def maxPrincipalChars : Nat := 256
def envelopeMembers : Nat := 6

/-- Upper bound of one record in bytes, with its line feed. -/
def maxRecordBytes : Nat := 1048576

/-! ## Closed enum spellings -/

def phaseNames : List (TimeoutPhase × Bytes) :=
  [(.preparation, text "preparation"), (.execution, text "execution"),
    (.cooperativeStop, text "cooperative_stop"),
    (.processExitConfirmation, text "process_exit_confirmation")]

def completionModeNames : List (CompletionMode × Bytes) :=
  [(.cooperative, text "cooperative"), (.forced, text "forced"),
    (.processAlreadyExited, text "process_already_exited")]

def outcomeNames : List (TerminalOutcome × Bytes) :=
  [(.succeeded, text "succeeded"), (.failed, text "failed"), (.cancelled, text "cancelled"),
    (.terminated, text "terminated"), (.timedOut, text "timed_out")]

def cleanupNames : List (CleanupStatus × Bytes) :=
  [(.completed, text "completed"), (.incomplete, text "incomplete")]

def lateOriginalNames : List (EventType × Bytes) :=
  [(.workerCompleted, text "worker_completed"), (.workerFailed, text "worker_failed")]

section Names

variable {α : Type} [DecidableEq α]

def nameOf (value : α) (table : List (α × Bytes)) : Option Bytes :=
  (table.find? fun entry => entry.1 = value).map (·.2)

def valueOf (name : Bytes) (table : List (α × Bytes)) : Option α :=
  (table.find? fun entry => entry.2 = name).map (·.1)

def validatedName (value : α) (table : List (α × Bytes)) : Bytes := (nameOf value table).getD []

end Names

def eventTypeOf (name : Bytes) : Option EventType := EventType.closed.find? fun type => type.toText = name

/-! ## Lexical validation -/

def isLowerHex (c : UInt8) : Bool := (byte '0' ≤ c && c ≤ byte '9') || (byte 'a' ≤ c && c ≤ byte 'f')

def isAlnum (c : UInt8) : Bool :=
  isDigit c || (byte 'a' ≤ c && c ≤ byte 'z') || (byte 'A' ≤ c && c ≤ byte 'Z')

def isUuidByte (version : UInt8) (i : Nat) (c : UInt8) : Bool :=
  if i = 8 || i = 13 || i = 18 || i = 23 then c = byte '-'
  else if i = 14 then c = version
  else if i = 19 then c = byte '8' || c = byte '9' || c = byte 'a' || c = byte 'b'
  else isLowerHex c

def isUuid (s : Bytes) (version : UInt8) : Bool :=
  s.length = 36 && (List.range s.length).all fun i => isUuidByte version i (s.getD i 0)

def isSha256 (s : Bytes) : Bool := s.length = 64 && s.all isLowerHex

def isStableId (s : Bytes) : Bool :=
  if s = [] || s.length > maxStableIdChars then false
  else if !isAlnum (s.getD 0 0) then false
  else (s.drop 1).all fun c => isAlnum c || c = byte '.' || c = byte '_' || c = byte ':' || c = byte '-'

/-- The length of a sequence and the bounds of its second byte. -/
def utf8Lead (lead : UInt8) : Option (Nat × UInt8 × UInt8) :=
  if lead ≤ 0x7F then some (1, 0x80, 0xBF)
  else if 0xC2 ≤ lead && lead ≤ 0xDF then some (2, 0x80, 0xBF)
  else if lead = 0xE0 then some (3, 0xA0, 0xBF)
  else if (0xE1 ≤ lead && lead ≤ 0xEC) || lead = 0xEE || lead = 0xEF then some (3, 0x80, 0xBF)
  else if lead = 0xED then some (3, 0x80, 0x9F)
  else if lead = 0xF0 then some (4, 0x90, 0xBF)
  else if 0xF1 ≤ lead && lead ≤ 0xF3 then some (4, 0x80, 0xBF)
  else if lead = 0xF4 then some (4, 0x80, 0x8F)
  else none

def utf8Follows (s : Bytes) (length : Nat) (secondMin secondMax : UInt8) : Bool :=
  (List.range' 1 (length - 1)).all fun k =>
    (if k = 1 then secondMin else 0x80) ≤ s.getD k 0 && s.getD k 0 ≤ if k = 1 then secondMax else 0xBF

/-- The loop of `Utf8CodePoints`; each turn consumes at least one byte. -/
def utf8CodePointsLoop : Nat → Bytes → Nat → Option Nat
  | _, [], count => some count
  | 0, _ :: _, _ => none
  | fuel + 1, lead :: rest, count =>
      match utf8Lead lead with
      | none => none
      | some (length, secondMin, secondMax) =>
          if length > (lead :: rest).length then none
          else if !utf8Follows (lead :: rest) length secondMin secondMax then none
          else utf8CodePointsLoop fuel ((lead :: rest).drop length) (count + 1)

def utf8CodePoints (s : Bytes) : Option Nat := utf8CodePointsLoop s.length s 0

def boundedText (s : Bytes) (maxChars : Nat) : Bool :=
  (utf8CodePoints s).any fun points => 1 ≤ points && points ≤ maxChars

def twoDigitValue (s : Bytes) (i : Nat) : Nat := digitValue (s.getD i 0) * 10 + digitValue (s.getD (i + 1) 0)

def twoDigits (s : Bytes) (i min max : Nat) : Bool :=
  if i + 2 > s.length then false
  else if !isDigit (s.getD i 0) || !isDigit (s.getD (i + 1) 0) then false
  else min ≤ twoDigitValue s i && twoDigitValue s i ≤ max

def isLeapYear (year : Nat) : Bool := (year % 4 = 0 && year % 100 ≠ 0) || year % 400 = 0

def daysInMonth (month : Nat) (leap : Bool) : Nat :=
  if month = 2 && leap then 29
  else [31, 28, 31, 30, 31, 30, 31, 31, 30, 31, 30, 31].getD (month - 1) 0

/-- What follows the optional fraction: `Z`, or a numeric offset that ends the text. -/
def isRfc3339Offset (s : Bytes) (i : Nat) : Bool :=
  if i ≥ s.length then false
  else if s.getD i 0 = byte 'Z' || s.getD i 0 = byte 'z' then i + 1 = s.length
  else if s.getD i 0 ≠ byte '+' && s.getD i 0 ≠ byte '-' then false
  else i + 6 = s.length && twoDigits s (i + 1) 0 23 && s.getD (i + 3) 0 = byte ':' && twoDigits s (i + 4) 0 59

def isRfc3339 (s : Bytes) : Bool :=
  if s.length < 20 then false
  else if !(s.take 4).all isDigit || ofDecimal (s.take 4) = 0 then false
  else if s.getD 4 0 ≠ byte '-' || !twoDigits s 5 1 12 || s.getD 7 0 ≠ byte '-' || !twoDigits s 8 1 31 ||
      (s.getD 10 0 ≠ byte 'T' && s.getD 10 0 ≠ byte 't') || !twoDigits s 11 0 23 || s.getD 13 0 ≠ byte ':' ||
      !twoDigits s 14 0 59 || s.getD 16 0 ≠ byte ':' || !twoDigits s 17 0 59 then false
  else if twoDigitValue s 8 > daysInMonth (twoDigitValue s 5) (isLeapYear (ofDecimal (s.take 4))) then false
  else if s.getD 19 0 = byte '.' then
    let digits := ((s.drop 20).takeWhile isDigit).length
    digits ≠ 0 && isRfc3339Offset s (20 + digits)
  else isRfc3339Offset s 19

/-! ## Semantic validation -/

def firstViolation (checks : List (Bool × String)) : Option String :=
  (checks.find? fun check => !check.1).map (·.2)

def payloadViolation (e : LogicalJobEvent) : Option String :=
  match e.eventType with
  | .jobCreated =>
      match e.payload with
      | .jobCreated v => firstViolation [(isUuid v.sessionId.value (byte '7'), "session_id is not a UUIDv7")]
      | _ => some "payload is not job_created"
  | .resourcesCommitted =>
      match e.payload with
      | .resourcesCommitted v => firstViolation
          [(isStableId v.allocationId.value, "allocation_id is not a stable id"),
            (isSha256 v.allocationDigest.value, "allocation_digest is not sha256"),
            (isStableId v.schemaId.value, "schema_id is not a stable id"),
            (v.schemaVersion ≥ 1, "resolved_allocation.schema_version below 1"),
            (v.payloadUtf8.length ≤ maxAllocationTextBytes, "payload_utf8 over 65536 bytes"),
            ((utf8CodePoints v.payloadUtf8).isSome, "payload_utf8 is not UTF-8")]
      | _ => some "payload is not resources_committed"
  | .workerLaunchIntent =>
      match e.payload with
      | .workerLaunchIntent v => firstViolation
          [(isStableId v.operationId.value, "operation_id is not a stable id"),
            (isStableId v.applicationId.value, "application_id is not a stable id"),
            (boundedText v.applicationVersion maxVersionChars, "version out of bounds"),
            (isSha256 v.bundleSha256.value, "bundle_sha256 is not sha256"),
            (isStableId v.allocationId.value, "allocation_id is not a stable id"),
            (isSha256 v.allocationDigest.value, "allocation_digest is not sha256"),
            (isUuid v.workerId.value (byte '4'), "worker_id is not a UUIDv4")]
      | _ => some "payload is not worker_launch_intent"
  | .workerLaunchObserved =>
      match e.payload with
      | .workerLaunchObserved v =>
          firstViolation [(isStableId v.operationId.value, "operation_id is not a stable id")]
      | _ => some "payload is not worker_launch_observed"
  | .workerRunning =>
      match e.payload with
      | .workerRunning v => firstViolation [(isUuid v.workerId.value (byte '4'), "worker_id is not a UUIDv4")]
      | _ => some "payload is not worker_running"
  | .cancelAccepted | .terminateAccepted =>
      match e.payload with
      | .principal v =>
          firstViolation [(boundedText v.principalSubject maxPrincipalChars, "principal_subject out of bounds")]
      | _ => some "payload is not a principal payload"
  | .timeoutExpired =>
      match e.payload with
      | .timeoutExpired v => firstViolation
          [((nameOf v.phase phaseNames).isSome, "phase is not a closed value"),
            (v.timerGeneration ≥ 1, "timer_generation below 1")]
      | _ => some "payload is not timeout_expired"
  | .workerCompleted | .workerFailed =>
      match e.payload with
      | .workerEvent v => firstViolation
          [(isUuid v.workerId.value (byte '4'), "worker_id is not a UUIDv4"),
            (v.eventSequence ≥ 1, "event_sequence below 1")]
      | _ => some "payload is not a worker event payload"
  | .processExitConfirmed =>
      match e.payload with
      | .processExitConfirmed v => firstViolation
          [((nameOf v.completionMode completionModeNames).isSome, "completion_mode is not a closed value"),
            (isStableId v.launchOperationId.value, "launch_operation_id is not a stable id")]
      | _ => some "payload is not process_exit_confirmed"
  | .sessionRetainRequested | .sessionRetained =>
      match e.payload with
      | .session v => firstViolation [(isUuid v.sessionId.value (byte '7'), "session_id is not a UUIDv7")]
      | _ => some "payload is not a session payload"
  | .finalizationCompleted | .finalizationFailed =>
      match e.payload with
      | .empty => none
      | _ => some "payload is not empty"
  | .terminalOutcomeCommitted =>
      match e.payload with
      | .terminalOutcome v => firstViolation [((nameOf v.outcome outcomeNames).isSome, "outcome is not a closed value")]
      | _ => some "payload is not terminal_outcome_committed"
  | .resourcesReleased =>
      match e.payload with
      | .resourcesReleased v => firstViolation
          [(isStableId v.allocationId.value, "allocation_id is not a stable id"),
            (isSha256 v.allocationDigest.value, "allocation_digest is not sha256")]
      | _ => some "payload is not resources_released"
  | .cleanupStatusRecorded =>
      match e.payload with
      | .cleanupStatus v => firstViolation [((nameOf v.status cleanupNames).isSome, "status is not a closed value")]
      | _ => some "payload is not cleanup_status_recorded"
  | .lateWorkerEvent =>
      match e.payload with
      | .lateWorkerEvent v => firstViolation
          [((nameOf v.originalEventType lateOriginalNames).isSome, "original_event_type is not a closed value"),
            (isUuid v.workerId.value (byte '4'), "worker_id is not a UUIDv4"),
            (v.eventSequence ≥ 1, "event_sequence below 1")]
      | _ => some "payload is not late_worker_event"
  | .invalid => some "event_type is not a closed value"

def violation (e : LogicalJobEvent) : Option String :=
  (firstViolation
    [(e.schemaVersion = 1, "schema_version is not 1"), (e.sequence ≥ 1, "sequence below 1"),
      (isRfc3339 e.recordedAt, "recorded_at is not an RFC 3339 date-time"),
      (isUuid e.jobId.value (byte '7'), "job_id is not a UUIDv7")]).or (payloadViolation e)

/-! ## The canonical emitter -/

/-- `first` has one entry for each open object, the innermost in front: whether no member was written. -/
structure Emitter where
  out : Bytes := []
  first : List Bool := []

def hexDigits : Bytes := text "0123456789abcdef"

def escape (c : UInt8) : Bytes :=
  if c = byte '"' then text "\\\""
  else if c = byte '\\' then text "\\\\"
  else if c < 0x20 then
    text "\\u00" ++ [hexDigits.getD (c >>> 4).toNat 0, hexDigits.getD (c &&& 0x0F).toNat 0]
  else [c]

namespace Emitter

def push (w : Emitter) (c : UInt8) : Emitter := { w with out := w.out ++ [c] }

def str (w : Emitter) (s : Bytes) : Emitter :=
  { w with out := s.foldl (fun out c => out ++ escape c) (w.out ++ [byte '"']) ++ [byte '"'] }

def num (w : Emitter) (v : UInt64) : Emitter := { w with out := w.out ++ decimal v.toNat }

def key (w : Emitter) (key : String) : Emitter :=
  let separated := if w.first.headD true then w else w.push (byte ',')
  (({ separated with first := false :: w.first.tail }).str (text key)).push (byte ':')

def beginObject (w : Emitter) : Emitter := { w.push 0x7B with first := true :: w.first }

def endObject (w : Emitter) : Emitter := { w.push 0x7D with first := w.first.tail }

end Emitter

/-- The members of the payload; nothing where `Violation` has refused the event. -/
def emitPayloadMembers (w : Emitter) : EventType → EventPayload → Emitter
  | .jobCreated, .jobCreated v => (w.key "session_id").str v.sessionId.value
  | .resourcesCommitted, .resourcesCommitted v =>
      let w := (w.key "allocation_id").str v.allocationId.value
      let w := (w.key "allocation_digest").str v.allocationDigest.value
      let w := (w.key "resolved_allocation").beginObject
      let w := (w.key "schema_id").str v.schemaId.value
      let w := (w.key "schema_version").num v.schemaVersion.toUInt64
      let w := (w.key "payload_utf8").str v.payloadUtf8
      w.endObject
  | .workerLaunchIntent, .workerLaunchIntent v =>
      let w := (w.key "operation_id").str v.operationId.value
      let w := (w.key "application").beginObject
      let w := (w.key "application_id").str v.applicationId.value
      let w := (w.key "version").str v.applicationVersion
      let w := (w.key "bundle_sha256").str v.bundleSha256.value
      let w := w.endObject
      let w := (w.key "allocation_id").str v.allocationId.value
      let w := (w.key "allocation_digest").str v.allocationDigest.value
      (w.key "worker_id").str v.workerId.value
  | .workerLaunchObserved, .workerLaunchObserved v =>
      let w := (w.key "operation_id").str v.operationId.value
      (w.key "outcome").str (if v.started then text "started" else text "failed")
  | .workerRunning, .workerRunning v => (w.key "worker_id").str v.workerId.value
  | .cancelAccepted, .principal v | .terminateAccepted, .principal v =>
      (w.key "principal_subject").str v.principalSubject
  | .timeoutExpired, .timeoutExpired v =>
      let w := (w.key "phase").str (validatedName v.phase phaseNames)
      (w.key "timer_generation").num v.timerGeneration
  | .workerCompleted, .workerEvent v | .workerFailed, .workerEvent v =>
      let w := (w.key "worker_id").str v.workerId.value
      (w.key "event_sequence").num v.eventSequence
  | .processExitConfirmed, .processExitConfirmed v =>
      let w := (w.key "completion_mode").str (validatedName v.completionMode completionModeNames)
      (w.key "launch_operation_id").str v.launchOperationId.value
  | .sessionRetainRequested, .session v | .sessionRetained, .session v =>
      (w.key "session_id").str v.sessionId.value
  | .terminalOutcomeCommitted, .terminalOutcome v =>
      (w.key "outcome").str (validatedName v.outcome outcomeNames)
  | .resourcesReleased, .resourcesReleased v =>
      let w := (w.key "allocation_id").str v.allocationId.value
      (w.key "allocation_digest").str v.allocationDigest.value
  | .cleanupStatusRecorded, .cleanupStatus v => (w.key "status").str (validatedName v.status cleanupNames)
  | .lateWorkerEvent, .lateWorkerEvent v =>
      let w := (w.key "original_event_type").str (validatedName v.originalEventType lateOriginalNames)
      let w := (w.key "worker_id").str v.workerId.value
      (w.key "event_sequence").num v.eventSequence
  | _, _ => w

def emitPayload (w : Emitter) (e : LogicalJobEvent) : Emitter :=
  (emitPayloadMembers w.beginObject e.eventType e.payload).endObject

def emit (e : LogicalJobEvent) : Bytes :=
  let w := ({} : Emitter).beginObject
  let w := (w.key "schema_version").num e.schemaVersion.toUInt64
  let w := (w.key "sequence").num e.sequence
  let w := (w.key "event_type").str e.eventType.toText
  let w := (w.key "recorded_at").str e.recordedAt
  let w := (w.key "job_id").str e.jobId.value
  let w := emitPayload (w.key "payload") e
  w.endObject.out ++ [0x0A]

/-! ## JSON to event

A `Reader` keeps its first error and reads defaults after it, so each read is a step that can fail. -/

namespace Reader

def get {α : Type} (object : Json) (key : String) (select : Json → Option α) : Except String α :=
  match object.find (text key) with
  | none => .error (key ++ " is missing")
  | some value =>
      match select value with
      | none => .error (key ++ " has the wrong type")
      | some a => .ok a

def str (object : Json) (key : String) : Except String Bytes :=
  get object key Json.asString

def u64 (object : Json) (key : String) : Except String UInt64 :=
  get object key Json.asUnsigned

def nested (object : Json) (key : String) : Except String Json :=
  get object key Json.asObject

def u32 (object : Json) (key : String) : Except String UInt32 := do
  let value ← u64 object key
  if value > 0xFFFFFFFF then throw (key ++ " exceeds 32 bits")
  return value.toUInt32

def checkMemberCount (object : Json) (expected : Nat) : Except String Unit :=
  if object.memberKeys.length ≠ expected then .error "unexpected member" else .ok ()

def closedValue {α : Type} (object : Json) (key : String) (table : List (α × Bytes)) : Except String α := do
  let name ← str object key
  match valueOf name table with
  | none => throw (key ++ " is not a closed value")
  | some value => return value

/-- The errors of a nested object are reported under its name. -/
def readNested {α : Type} (path : String) : Except String α → Except String α :=
  Except.mapError (path ++ ·)

end Reader

open Reader in
def payloadFromJson (type : EventType) (payload : Json) : Except String EventPayload :=
  if !payload.isObject then .error "payload is not an object"
  else match type with
  | .jobCreated => do
      let sessionId ← str payload "session_id"
      checkMemberCount payload 1
      return .jobCreated ⟨⟨sessionId⟩⟩
  | .resourcesCommitted => do
      let allocationId ← str payload "allocation_id"
      let allocationDigest ← str payload "allocation_digest"
      let resolved ← nested payload "resolved_allocation"
      let (schemaId, schemaVersion, payloadUtf8) ← readNested "resolved_allocation." do
        let schemaId ← str resolved "schema_id"
        let schemaVersion ← u32 resolved "schema_version"
        let payloadUtf8 ← str resolved "payload_utf8"
        checkMemberCount resolved 3
        return (schemaId, schemaVersion, payloadUtf8)
      checkMemberCount payload 3
      return .resourcesCommitted ⟨⟨allocationId⟩, ⟨allocationDigest⟩, ⟨schemaId⟩, schemaVersion, payloadUtf8⟩
  | .workerLaunchIntent => do
      let operationId ← str payload "operation_id"
      let application ← nested payload "application"
      let (applicationId, version, bundleSha256) ← readNested "application." do
        let applicationId ← str application "application_id"
        let version ← str application "version"
        let bundleSha256 ← str application "bundle_sha256"
        checkMemberCount application 3
        return (applicationId, version, bundleSha256)
      let allocationId ← str payload "allocation_id"
      let allocationDigest ← str payload "allocation_digest"
      let workerId ← str payload "worker_id"
      checkMemberCount payload 5
      return .workerLaunchIntent ⟨⟨operationId⟩, ⟨applicationId⟩, version, ⟨bundleSha256⟩, ⟨allocationId⟩,
        ⟨allocationDigest⟩, ⟨workerId⟩⟩
  | .workerLaunchObserved => do
      let operationId ← str payload "operation_id"
      let outcome ← str payload "outcome"
      if outcome ≠ text "started" && outcome ≠ text "failed" then throw "outcome is not a closed value"
      checkMemberCount payload 2
      return .workerLaunchObserved ⟨⟨operationId⟩, outcome = text "started"⟩
  | .workerRunning => do
      let workerId ← str payload "worker_id"
      checkMemberCount payload 1
      return .workerRunning ⟨⟨workerId⟩⟩
  | .cancelAccepted | .terminateAccepted => do
      let principalSubject ← str payload "principal_subject"
      checkMemberCount payload 1
      return .principal ⟨principalSubject⟩
  | .timeoutExpired => do
      let phase ← closedValue payload "phase" phaseNames
      let timerGeneration ← u64 payload "timer_generation"
      checkMemberCount payload 2
      return .timeoutExpired ⟨phase, timerGeneration⟩
  | .workerCompleted | .workerFailed => do
      let workerId ← str payload "worker_id"
      let eventSequence ← u64 payload "event_sequence"
      checkMemberCount payload 2
      return .workerEvent ⟨⟨workerId⟩, eventSequence⟩
  | .processExitConfirmed => do
      let completionMode ← closedValue payload "completion_mode" completionModeNames
      let launchOperationId ← str payload "launch_operation_id"
      checkMemberCount payload 2
      return .processExitConfirmed ⟨completionMode, ⟨launchOperationId⟩⟩
  | .sessionRetainRequested | .sessionRetained => do
      let sessionId ← str payload "session_id"
      checkMemberCount payload 1
      return .session ⟨⟨sessionId⟩⟩
  | .finalizationCompleted | .finalizationFailed => do
      checkMemberCount payload 0
      return .empty
  | .terminalOutcomeCommitted => do
      let outcome ← closedValue payload "outcome" outcomeNames
      checkMemberCount payload 1
      return .terminalOutcome ⟨outcome⟩
  | .resourcesReleased => do
      let allocationId ← str payload "allocation_id"
      let allocationDigest ← str payload "allocation_digest"
      checkMemberCount payload 2
      return .resourcesReleased ⟨⟨allocationId⟩, ⟨allocationDigest⟩⟩
  | .cleanupStatusRecorded => do
      let status ← closedValue payload "status" cleanupNames
      checkMemberCount payload 1
      return .cleanupStatus ⟨status⟩
  | .lateWorkerEvent => do
      let originalEventType ← closedValue payload "original_event_type" lateOriginalNames
      let workerId ← str payload "worker_id"
      let eventSequence ← u64 payload "event_sequence"
      checkMemberCount payload 3
      return .lateWorkerEvent ⟨originalEventType, ⟨workerId⟩, eventSequence⟩
  | .invalid => .error "event_type is not a closed value"

open Reader in
def eventFromJson (json : Json) : Except String LogicalJobEvent :=
  if !json.isObject then .error "record is not an object"
  else do
    let schemaVersion ← u32 json "schema_version"
    let sequence ← u64 json "sequence"
    let typeName ← str json "event_type"
    let recordedAt ← str json "recorded_at"
    let jobId ← str json "job_id"
    let payload ← nested json "payload"
    checkMemberCount json envelopeMembers
    match eventTypeOf typeName with
    | none => throw "event_type is not a closed value"
    | some type => do
        let payload ← payloadFromJson type payload
        return { schemaVersion, sequence, eventType := type, recordedAt, jobId := ⟨jobId⟩, payload }

/-! ## Records -/

inductive EncodeFailure where
  | schemaViolation | oversize
deriving DecidableEq, Repr

inductive DecodeFailure where
  | oversize | malformedJson | schemaViolation | nonCanonical
deriving DecidableEq, Repr

def sizeDetail (size : Nat) : String := "record is " ++ toString size ++ " bytes"

def encodeRecord (event : LogicalJobEvent) : Except (EncodeFailure × String) Bytes :=
  match violation event with
  | some detail => .error (.schemaViolation, detail)
  | none =>
      let bytes := emit event
      if bytes.length > maxRecordBytes then .error (.oversize, sizeDetail bytes.length)
      else .ok bytes

def decodeRecord (json : JsonLibrary) (record : Bytes) : Except (DecodeFailure × String) LogicalJobEvent :=
  if record.length > maxRecordBytes then .error (.oversize, sizeDetail record.length)
  else if record.getLast? ≠ some 0x0A then .error (.malformedJson, "record does not end with LF")
  else if record.dropLast.contains 0x0A then .error (.malformedJson, "record spans more than one line")
  else match json.parse record.dropLast with
    | none => .error (.malformedJson, "record is not valid JSON")
    | some value =>
        match eventFromJson value with
        | .error detail => .error (.schemaViolation, detail)
        | .ok event =>
            match violation event with
            | some detail => .error (.schemaViolation, detail)
            | none =>
                if emit event ≠ record then
                  .error (.nonCanonical, "record is not the canonical encoding of its event")
                else .ok event

end Sitometron.Journal
