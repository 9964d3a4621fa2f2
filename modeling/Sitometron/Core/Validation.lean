import Sitometron.Core.Types

/-!
# Validators of the Job reducer

The lexical checks, `ValidInternalPayload` and `ValidSnapshot` of `job_reducer.cpp`. The JSON
library and SHA-256 are parameters.
-/

namespace Sitometron.Core

structure Libraries where
  json : JsonLibrary
  sha256 : Bytes → Bytes

def JobState.isTerminal : JobState → Bool
  | .succeeded | .failed | .cancelled | .terminated | .timedOut => true
  | _ => false

/-! ## Lexical checks -/

def isAsciiUpper (c : UInt8) : Bool := byte 'A' ≤ c && c ≤ byte 'Z'

def isAsciiLower (c : UInt8) : Bool := byte 'a' ≤ c && c ≤ byte 'z'

def isAsciiAlphanumeric (c : UInt8) : Bool := isDigit c || isAsciiUpper c || isAsciiLower c

def isLowerHex (c : UInt8) : Bool := isDigit c || (byte 'a' ≤ c && c ≤ byte 'f')

def isUuid (s : Bytes) (version : UInt8) : Bool :=
  if s.length ≠ 36 || s.getD 8 0 ≠ byte '-' || s.getD 13 0 ≠ byte '-' || s.getD 18 0 ≠ byte '-' ||
      s.getD 23 0 ≠ byte '-' then false
  else if (List.range s.length).any fun i =>
      !(i = 8 || i = 13 || i = 18 || i = 23) && !isLowerHex (s.getD i 0) then false
  else s.getD 14 0 = version && (s.getD 19 0 = byte '8' || s.getD 19 0 = byte '9' ||
    s.getD 19 0 = byte 'a' || s.getD 19 0 = byte 'b')

def isUuid7 (id : Uuid) : Bool := isUuid id.value (byte '7')

def isUuid4 (id : Uuid) : Bool := isUuid id.value (byte '4')

def isStable (s : Bytes) : Bool :=
  if s = [] || s.length > 128 || !isAsciiAlphanumeric (s.getD 0 0) then false
  else s.all fun c =>
    isAsciiAlphanumeric c || c = byte '.' || c = byte '_' || c = byte ':' || c = byte '-'

structure Utf8Sequence where
  length : Nat
  secondMin : UInt8
  secondMax : UInt8

def utf8SequenceForLead (lead : UInt8) : Option Utf8Sequence :=
  if lead ≤ 0x7F then some ⟨1, 0x80, 0xBF⟩
  else if 0xC2 ≤ lead && lead ≤ 0xDF then some ⟨2, 0x80, 0xBF⟩
  else if 0xE0 ≤ lead && lead ≤ 0xEF then
    some ⟨3, if lead = 0xE0 then 0xA0 else 0x80, if lead = 0xED then 0x9F else 0xBF⟩
  else if 0xF0 ≤ lead && lead ≤ 0xF4 then
    some ⟨4, if lead = 0xF0 then 0x90 else 0x80, if lead = 0xF4 then 0x8F else 0xBF⟩
  else none

def hasValidUtf8Continuation (value : Bytes) (sequence : Utf8Sequence) : Bool :=
  if sequence.length > value.length then false
  else if sequence.length = 1 then true
  else if value.getD 1 0 < sequence.secondMin || value.getD 1 0 > sequence.secondMax then false
  else ((value.drop 2).take (sequence.length - 2)).all fun b => 0x80 ≤ b && b ≤ 0xBF

/-- The loop of `IsUtf8ScalarString`; each turn consumes at least one byte. -/
def utf8ScalarLoop (maxScalars : Nat) : Nat → Bytes → Nat → Bool
  | _, [], _ => true
  | 0, _ :: _, _ => false
  | fuel + 1, lead :: rest, scalars =>
      match utf8SequenceForLead lead with
      | none => false
      | some sequence =>
          if !hasValidUtf8Continuation (lead :: rest) sequence then false
          else if scalars + 1 > maxScalars then false
          else utf8ScalarLoop maxScalars fuel ((lead :: rest).drop sequence.length) (scalars + 1)

def isUtf8ScalarString (value : Bytes) (maxScalars : Nat) : Bool :=
  if value = [] then false else utf8ScalarLoop maxScalars value.length value 0

def isPrincipal (s : Bytes) : Bool := isUtf8ScalarString s 256

def isDigest (s : Bytes) : Bool :=
  if s.length ≠ 64 then false
  else s.all fun c => (byte '0' ≤ c && c ≤ byte '9') || (byte 'a' ≤ c && c ≤ byte 'f')

def parseJson (lib : Libraries) (text : Bytes) : Option Json :=
  if text.contains 0 then none else lib.json.parse text

def parseResolvedAllocationJson (lib : Libraries) (text : Bytes) : Option Json :=
  if text.length ≤ 65536 then parseJson lib text else none

/-! ## Payloads -/

def payloadMatches (type : EventType) (payload : EventPayload) : Bool :=
  match type, payload with
  | .jobCreated, .jobCreated _ => true
  | .resourcesCommitted, .resourcesCommitted _ => true
  | .workerLaunchIntent, .workerLaunchIntent _ => true
  | .workerLaunchObserved, .workerLaunchObserved _ => true
  | .workerRunning, .workerRunning _ => true
  | .cancelAccepted, .principal _ | .terminateAccepted, .principal _ => true
  | .timeoutExpired, .timeoutExpired _ => true
  | .workerCompleted, .workerEvent _ | .workerFailed, .workerEvent _ => true
  | .processExitConfirmed, .processExitConfirmed _ => true
  | .sessionRetainRequested, .session _ | .sessionRetained, .session _ => true
  | .finalizationCompleted, .empty | .finalizationFailed, .empty => true
  | .terminalOutcomeCommitted, .terminalOutcome _ => true
  | .resourcesReleased, .resourcesReleased _ => true
  | .cleanupStatusRecorded, .cleanupStatus _ => true
  | .lateWorkerEvent, .lateWorkerEvent _ => true
  | _, _ => false

def validInternalPayload (lib : Libraries) (type : EventType) (payload : EventPayload) (jobId : Uuid) :
    Bool :=
  if type = .invalid || !payloadMatches type payload then false
  else match payload with
    | .jobCreated p => isUuid7 p.sessionId && p.sessionId = jobId
    | .resourcesCommitted p =>
        isStable p.allocationId.value && isDigest p.allocationDigest.value &&
          isStable p.schemaId.value && p.schemaVersion ≠ 0 &&
          (parseResolvedAllocationJson lib p.payloadUtf8).isSome &&
          lib.sha256 p.payloadUtf8 = p.allocationDigest.value
    | .workerLaunchIntent p =>
        isStable p.operationId.value && isStable p.applicationId.value &&
          isUtf8ScalarString p.applicationVersion 128 && isDigest p.bundleSha256.value &&
          isStable p.allocationId.value && isDigest p.allocationDigest.value && isUuid4 p.workerId
    | .workerLaunchObserved p => isStable p.operationId.value
    | .workerRunning p => isUuid4 p.workerId
    | .principal p => isPrincipal p.principalSubject
    | .timeoutExpired p => p.phase ≠ .invalid && p.timerGeneration ≠ 0
    | .workerEvent p => isUuid4 p.workerId && p.eventSequence ≠ 0
    | .processExitConfirmed p =>
        p.completionMode ≠ .invalid && p.completionMode ≠ .none && isStable p.launchOperationId.value
    | .session p => isUuid7 p.sessionId
    | .terminalOutcome p => p.outcome ≠ .invalid
    | .resourcesReleased p => isStable p.allocationId.value && isDigest p.allocationDigest.value
    | .cleanupStatus p => p.status ≠ .invalid && p.status ≠ .pending
    | .lateWorkerEvent p =>
        (p.originalEventType = .workerCompleted || p.originalEventType = .workerFailed) &&
          isUuid4 p.workerId && p.eventSequence ≠ 0
    | .empty => true

/-! ## Snapshots -/

def hasValidSnapshotIdentity (s : Snapshot) : Bool :=
  s.schemaVersion = 1 && isUuid7 s.jobId && isUuid7 s.sessionId && s.jobId = s.sessionId

def hasValidSnapshotEnums (s : Snapshot) : Bool :=
  s.state ≠ .invalid && s.completionMode ≠ .invalid && s.resourceStatus ≠ .invalid &&
    s.workerLaunchStatus ≠ .invalid && s.processPresence ≠ .invalid &&
    s.sessionRetentionStatus ≠ .invalid && s.finalizationStatus ≠ .invalid &&
    s.cleanupStatus ≠ .invalid

def hasValidSnapshotOptionalDomains (s : Snapshot) : Bool :=
  s.latchedReason.all (fun reason => reason ≠ .invalid && reason ≠ .succeeded) &&
    s.allocationId.all (fun id => isStable id.value) &&
    s.allocationDigest.all (fun digest => isDigest digest.value) &&
    s.launchOperationId.all (fun id => isStable id.value) &&
    s.workerId.all isUuid4 && s.pendingWorkerId.all isUuid4 &&
    s.pendingWorkerEventSequence.all (fun sequence => sequence ≠ 0)

def hasValidResourceFacts (s : Snapshot) : Bool :=
  if s.resourceStatus = .none then s.allocationId.isNone && s.allocationDigest.isNone
  else if s.allocationId.isNone || s.allocationDigest.isNone then false
  else s.resourceStatus ≠ .released || s.processExitConfirmed

def hasValidExitFacts (s : Snapshot) : Bool :=
  if s.processExitConfirmed && (s.processPresence ≠ .absent || s.pendingWorkerEventAck ||
      s.pendingWorkerId.isSome || s.pendingWorkerEventSequence.isSome) then false
  else s.completionMode ≠ .processAlreadyExited || s.processExitConfirmed

def hasValidLaunchFacts (s : Snapshot) : Bool :=
  if s.workerLaunchStatus = .notStarted then s.launchOperationId.isNone && s.workerId.isNone
  else s.launchOperationId.isSome && s.workerId.any isUuid4

def hasValidPendingAckFacts (s : Snapshot) : Bool :=
  if !s.pendingWorkerEventAck then s.pendingWorkerId.isNone && s.pendingWorkerEventSequence.isNone
  else s.pendingWorkerId.isSome && s.pendingWorkerEventSequence.any fun sequence => sequence ≠ 0

def hasValidStateFacts (s : Snapshot) : Bool :=
  if s.state = .admitted && (s.resourceStatus ≠ .none || s.workerLaunchStatus ≠ .notStarted ||
      s.processPresence ≠ .absent || s.processExitConfirmed) then false
  else if (s.state = .admitted || s.state = .preparing || s.state = .running || s.state = .stopping) &&
      s.finalizationStatus ≠ .notStarted then false
  else if s.state = .finalizing && s.finalizationStatus = .notStarted then false
  else !s.state.isTerminal || s.finalizationStatus = .completed || s.finalizationStatus = .failed

def validSnapshot (s : Snapshot) : Bool :=
  hasValidSnapshotIdentity s && hasValidSnapshotEnums s && hasValidSnapshotOptionalDomains s &&
    hasValidResourceFacts s && hasValidExitFacts s && hasValidLaunchFacts s &&
    hasValidPendingAckFacts s && hasValidStateFacts s

end Sitometron.Core
