import Sitometron.Core.Validation

/-!
# Candidate events

`ParseCandidatePayload` and `NormalizeCandidate` of `job_reducer.cpp`: how a raw candidate, with its
payload as JSON text, becomes an internal event.
-/

namespace Sitometron.Core

def hasOnly (object : Json) (fields : List Bytes) : Bool :=
  object.isObject && object.memberKeys.all fun key => fields.contains key

def stringField (o : Json) (key : Bytes) : Option Bytes :=
  match o.find key with
  | some (.string value) => some value
  | _ => none

def unsignedField (o : Json) (key : Bytes) : Option UInt64 :=
  match o.find key with
  | some (.unsigned value) => some value
  | _ => none

def objectField (o : Json) (key : Bytes) : Option Json :=
  (o.find key).filter Json.isObject

def uint64Field (o : Json) (key : Bytes) : Option UInt64 :=
  (unsignedField o key).filter (· ≠ 0)

def parsePhase (value : Bytes) : Option TimeoutPhase :=
  if value = text "preparation" then some .preparation
  else if value = text "execution" then some .execution
  else if value = text "cooperative_stop" then some .cooperativeStop
  else if value = text "process_exit_confirmation" then some .processExitConfirmation
  else none

def parseMode (value : Bytes) : Option CompletionMode :=
  if value = text "cooperative" then some .cooperative
  else if value = text "forced" then some .forced
  else if value = text "process_already_exited" then some .processAlreadyExited
  else none

def parseOutcome (value : Bytes) : Option TerminalOutcome :=
  if value = text "succeeded" then some .succeeded
  else if value = text "failed" then some .failed
  else if value = text "cancelled" then some .cancelled
  else if value = text "terminated" then some .terminated
  else if value = text "timed_out" then some .timedOut
  else none

/-- The first event type of that name; the source writes the comparisons out. -/
def parseEvent (value : Bytes) : Option EventType :=
  EventType.closed.find? fun type => value = type.toText

def parseJobCreatedPayload (payload : Json) (candidateJobId : Uuid) : Option EventPayload := do
  guard (hasOnly payload [text "session_id"])
  let sessionId ← stringField payload (text "session_id")
  guard (isUuid sessionId (byte '7') && sessionId = candidateJobId.value)
  return .jobCreated ⟨⟨sessionId⟩⟩

def parseResourcesCommittedPayload (lib : Libraries) (payload : Json) : Option EventPayload := do
  guard (hasOnly payload [text "allocation_id", text "allocation_digest", text "resolved_allocation"])
  let allocationId ← stringField payload (text "allocation_id")
  guard (isStable allocationId)
  let allocationDigest ← stringField payload (text "allocation_digest")
  guard (isDigest allocationDigest)
  let resolved ← objectField payload (text "resolved_allocation")
  guard (hasOnly resolved [text "schema_id", text "schema_version", text "payload_utf8"])
  let schemaId ← stringField resolved (text "schema_id")
  guard (isStable schemaId)
  let schemaVersion ← unsignedField resolved (text "schema_version")
  guard (schemaVersion ≠ 0 && schemaVersion ≤ 0xFFFFFFFF)
  let payloadUtf8 ← stringField resolved (text "payload_utf8")
  guard (parseResolvedAllocationJson lib payloadUtf8).isSome
  guard (lib.sha256 payloadUtf8 = allocationDigest)
  return .resourcesCommitted
    ⟨⟨allocationId⟩, ⟨allocationDigest⟩, ⟨schemaId⟩, schemaVersion.toUInt32, payloadUtf8⟩

def parseWorkerLaunchIntentPayload (payload : Json) : Option EventPayload := do
  guard (hasOnly payload [text "operation_id", text "application", text "allocation_id",
    text "allocation_digest", text "worker_id"])
  let operationId ← stringField payload (text "operation_id")
  guard (isStable operationId)
  let application ← objectField payload (text "application")
  guard (hasOnly application [text "application_id", text "version", text "bundle_sha256"])
  let applicationId ← stringField application (text "application_id")
  guard (isStable applicationId)
  let applicationVersion ← stringField application (text "version")
  guard (isUtf8ScalarString applicationVersion 128)
  let bundleSha256 ← stringField application (text "bundle_sha256")
  guard (isDigest bundleSha256)
  let allocationId ← stringField payload (text "allocation_id")
  guard (isStable allocationId)
  let allocationDigest ← stringField payload (text "allocation_digest")
  guard (isDigest allocationDigest)
  let workerId ← stringField payload (text "worker_id")
  guard (isUuid workerId (byte '4'))
  return .workerLaunchIntent ⟨⟨operationId⟩, ⟨applicationId⟩, applicationVersion, ⟨bundleSha256⟩,
    ⟨allocationId⟩, ⟨allocationDigest⟩, ⟨workerId⟩⟩

def parseWorkerLaunchObservedPayload (payload : Json) : Option EventPayload := do
  guard (hasOnly payload [text "operation_id", text "outcome"])
  let operationId ← stringField payload (text "operation_id")
  guard (isStable operationId)
  let outcome ← stringField payload (text "outcome")
  guard (outcome = text "started" || outcome = text "failed")
  return .workerLaunchObserved ⟨⟨operationId⟩, outcome = text "started"⟩

def parseWorkerRunningPayload (payload : Json) : Option EventPayload := do
  guard (hasOnly payload [text "worker_id"])
  let workerId ← stringField payload (text "worker_id")
  guard (isUuid workerId (byte '4'))
  return .workerRunning ⟨⟨workerId⟩⟩

def parseTimeoutExpiredPayload (payload : Json) : Option EventPayload := do
  guard (hasOnly payload [text "phase", text "timer_generation"])
  let phaseText ← stringField payload (text "phase")
  let generation ← uint64Field payload (text "timer_generation")
  let phase ← parsePhase phaseText
  return .timeoutExpired ⟨phase, generation⟩

def parseWorkerEventPayload (payload : Json) : Option EventPayload := do
  guard (hasOnly payload [text "worker_id", text "event_sequence"])
  let workerId ← stringField payload (text "worker_id")
  guard (isUuid workerId (byte '4'))
  let sequence ← uint64Field payload (text "event_sequence")
  return .workerEvent ⟨⟨workerId⟩, sequence⟩

def parseProcessExitConfirmedPayload (payload : Json) : Option EventPayload := do
  guard (hasOnly payload [text "completion_mode", text "launch_operation_id"])
  let modeText ← stringField payload (text "completion_mode")
  let operationId ← stringField payload (text "launch_operation_id")
  guard (isStable operationId)
  let mode ← parseMode modeText
  return .processExitConfirmed ⟨mode, ⟨operationId⟩⟩

def parseSessionPayload (payload : Json) : Option EventPayload := do
  guard (hasOnly payload [text "session_id"])
  let sessionId ← stringField payload (text "session_id")
  guard (isUuid sessionId (byte '7'))
  return .session ⟨⟨sessionId⟩⟩

def parseEmptyPayload (payload : Json) : Option EventPayload := do
  guard (hasOnly payload [])
  return .empty

def parseTerminalOutcomePayload (payload : Json) : Option EventPayload := do
  guard (hasOnly payload [text "outcome"])
  let outcomeText ← stringField payload (text "outcome")
  let outcome ← parseOutcome outcomeText
  return .terminalOutcome ⟨outcome⟩

def parseResourcesReleasedPayload (payload : Json) : Option EventPayload := do
  guard (hasOnly payload [text "allocation_id", text "allocation_digest"])
  let allocationId ← stringField payload (text "allocation_id")
  guard (isStable allocationId)
  let allocationDigest ← stringField payload (text "allocation_digest")
  guard (isDigest allocationDigest)
  return .resourcesReleased ⟨⟨allocationId⟩, ⟨allocationDigest⟩⟩

def parseCleanupStatusPayload (payload : Json) : Option EventPayload := do
  guard (hasOnly payload [text "status"])
  let status ← stringField payload (text "status")
  guard (status = text "completed" || status = text "incomplete")
  return .cleanupStatus ⟨if status = text "completed" then .completed else .incomplete⟩

def parseCandidatePayload (lib : Libraries) (type : EventType) (payload : Json)
    (candidateJobId : Uuid) : Option EventPayload :=
  match type with
  | .jobCreated => parseJobCreatedPayload payload candidateJobId
  | .resourcesCommitted => parseResourcesCommittedPayload lib payload
  | .workerLaunchIntent => parseWorkerLaunchIntentPayload payload
  | .workerLaunchObserved => parseWorkerLaunchObservedPayload payload
  | .workerRunning => parseWorkerRunningPayload payload
  | .timeoutExpired => parseTimeoutExpiredPayload payload
  | .workerCompleted | .workerFailed => parseWorkerEventPayload payload
  | .processExitConfirmed => parseProcessExitConfirmedPayload payload
  | .sessionRetainRequested | .sessionRetained => parseSessionPayload payload
  | .finalizationCompleted | .finalizationFailed => parseEmptyPayload payload
  | .terminalOutcomeCommitted => parseTerminalOutcomePayload payload
  | .resourcesReleased => parseResourcesReleasedPayload payload
  | .cleanupStatusRecorded => parseCleanupStatusPayload payload
  | .cancelAccepted | .terminateAccepted | .lateWorkerEvent | .invalid => none

def rejectCandidate (reason : RejectionReason) : NormalizedCandidate :=
  .error { schemaVersion := 1, reason }

def normalizeCandidate (lib : Libraries) (s : Snapshot) (candidate : RawCandidateEvent) :
    NormalizedCandidate :=
  if candidate.schemaVersion ≠ 1 || candidate.jobId ≠ s.jobId || !isUuid7 candidate.jobId then
    rejectCandidate .invariantViolation
  else match parseEvent candidate.eventType with
    | none | some .cancelAccepted | some .terminateAccepted => rejectCandidate .invalidEventPayload
    | some type =>
        match parseJson lib candidate.payloadJson with
        | none => rejectCandidate .invalidEventPayload
        | some payload =>
            match parseCandidatePayload lib type payload candidate.jobId with
            | none => rejectCandidate .invalidEventPayload
            | some parsed => .ok { schemaVersion := 1, jobId := s.jobId, eventType := type, payload := parsed }

end Sitometron.Core
