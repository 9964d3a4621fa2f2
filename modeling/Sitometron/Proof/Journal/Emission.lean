import Sitometron.Core.Validation
import Sitometron.Journal.Codec

/-!
# What the emitter writes

The bytes of an event are the text of a JSON tree and a line feed.
-/

namespace Sitometron.Journal

open Core JsonText

def piece (c : UInt8) : Piece :=
  if c = 0x22 ∨ c = 0x5C then .short c else if c < 0x20 then .unicode c else .raw c

def pieces (s : Bytes) : List Piece := s.map piece

theorem piece_table : ∀ c : UInt8, (piece c).render = escape c ∧ (piece c).value = c ∧ (piece c).Valid :=
  of_each_byte (by decide +kernel)

@[simp] theorem stringValue_pieces (s : Bytes) : stringValue (pieces s) = s := by
  simp [stringValue, pieces, Function.comp_def, piece_table]

theorem valid_pieces {s : Bytes} (wellFormed : Utf8.WellFormed s) : ValidString (pieces s) := by
  refine ⟨fun p member => ?_, by simpa using wellFormed⟩
  obtain ⟨c, -, rfl⟩ := List.mem_map.1 member
  exact (piece_table c).2.2

namespace Emitter

variable {out : Bytes} {first : Bool} {stack : List Bool} {w : Emitter}

@[simp] theorem str_eq (s : Bytes) : w.str s = ⟨w.out ++ quote (pieces s), w.first⟩ := by
  have spelled : ∀ out : Bytes, s.foldl (fun out c => out ++ escape c) out =
      out ++ (pieces s).flatMap Piece.render := by
    induction s with
    | nil => simp [pieces]
    | cons c s ih =>
        intro out
        rw [List.foldl_cons, ih]
        simp [pieces, (piece_table c).1]
  rw [str, spelled]
  simp [quote, show byte '"' = 0x22 from rfl]

@[simp] theorem num_eq (v : UInt64) : w.num v = ⟨w.out ++ decimal v.toNat, w.first⟩ := rfl

@[simp] theorem key_eq (key : String) : (⟨out, first :: stack⟩ : Emitter).key key =
    ⟨out ++ ((if first then [] else [0x2C]) ++ (quote (pieces (text key)) ++ [0x3A])), false :: stack⟩ := by
  cases first <;> simp [Emitter.key, push, show byte ',' = 0x2C from rfl, show byte ':' = 0x3A from rfl]

@[simp] theorem beginObject_eq : w.beginObject = ⟨w.out ++ [0x7B], true :: w.first⟩ := rfl

@[simp] theorem endObject_eq : (⟨out, first :: stack⟩ : Emitter).endObject = ⟨out ++ [0x7D], stack⟩ := rfl

end Emitter

def members : List (String × Tree) → Members
  | [] => .nil
  | (key, value) :: rest => .cons (pieces (text key)) value (members rest)

def object (fields : List (String × Tree)) : Tree := .object (members fields)

def string (s : Bytes) : Tree := .string (pieces s)

def payloadFields : EventType → EventPayload → List (String × Tree)
  | .jobCreated, .jobCreated v => [("session_id", string v.sessionId.value)]
  | .resourcesCommitted, .resourcesCommitted v =>
      [("allocation_id", string v.allocationId.value), ("allocation_digest", string v.allocationDigest.value),
        ("resolved_allocation", object [("schema_id", string v.schemaId.value),
          ("schema_version", .number v.schemaVersion.toUInt64), ("payload_utf8", string v.payloadUtf8)])]
  | .workerLaunchIntent, .workerLaunchIntent v =>
      [("operation_id", string v.operationId.value),
        ("application", object [("application_id", string v.applicationId.value),
          ("version", string v.applicationVersion), ("bundle_sha256", string v.bundleSha256.value)]),
        ("allocation_id", string v.allocationId.value), ("allocation_digest", string v.allocationDigest.value),
        ("worker_id", string v.workerId.value)]
  | .workerLaunchObserved, .workerLaunchObserved v =>
      [("operation_id", string v.operationId.value),
        ("outcome", string (if v.started then text "started" else text "failed"))]
  | .workerRunning, .workerRunning v => [("worker_id", string v.workerId.value)]
  | .cancelAccepted, .principal v | .terminateAccepted, .principal v =>
      [("principal_subject", string v.principalSubject)]
  | .timeoutExpired, .timeoutExpired v =>
      [("phase", string (validatedName v.phase phaseNames)), ("timer_generation", .number v.timerGeneration)]
  | .workerCompleted, .workerEvent v | .workerFailed, .workerEvent v =>
      [("worker_id", string v.workerId.value), ("event_sequence", .number v.eventSequence)]
  | .processExitConfirmed, .processExitConfirmed v =>
      [("completion_mode", string (validatedName v.completionMode completionModeNames)),
        ("launch_operation_id", string v.launchOperationId.value)]
  | .sessionRetainRequested, .session v | .sessionRetained, .session v =>
      [("session_id", string v.sessionId.value)]
  | .terminalOutcomeCommitted, .terminalOutcome v =>
      [("outcome", string (validatedName v.outcome outcomeNames))]
  | .resourcesReleased, .resourcesReleased v =>
      [("allocation_id", string v.allocationId.value), ("allocation_digest", string v.allocationDigest.value)]
  | .cleanupStatusRecorded, .cleanupStatus v => [("status", string (validatedName v.status cleanupNames))]
  | .lateWorkerEvent, .lateWorkerEvent v =>
      [("original_event_type", string (validatedName v.originalEventType lateOriginalNames)),
        ("worker_id", string v.workerId.value), ("event_sequence", .number v.eventSequence)]
  | _, _ => []

def recordFields (e : LogicalJobEvent) : List (String × Tree) :=
  [("schema_version", .number e.schemaVersion.toUInt64), ("sequence", .number e.sequence),
    ("event_type", string e.eventType.toText), ("recorded_at", string e.recordedAt),
    ("job_id", string e.jobId.value), ("payload", object (payloadFields e.eventType e.payload))]

def recordTree (e : LogicalJobEvent) : Tree := object (recordFields e)

theorem emitPayloadMembers_eq {type : EventType} {payload : EventPayload}
    (agrees : payloadMatches type payload = true) (out : Bytes) (stack : List Bool) :
    ∃ first, emitPayloadMembers ⟨out, true :: stack⟩ type payload =
      ⟨out ++ (members (payloadFields type payload)).render true, first :: stack⟩ := by
  cases type <;> cases payload <;> cases agrees <;>
    simp [emitPayloadMembers, payloadFields, members, object, string, Members.render, Tree.render]

theorem emit_eq {e : LogicalJobEvent} (agrees : payloadMatches e.eventType e.payload = true) :
    emit e = (recordTree e).render ++ [0x0A] := by
  have payload (out : Bytes) (stack : List Bool) :
      emitPayload ⟨out, stack⟩ e = ⟨out ++ (object (payloadFields e.eventType e.payload)).render, stack⟩ := by
    obtain ⟨first, written⟩ := emitPayloadMembers_eq agrees (out ++ [0x7B]) stack
    simp [emitPayload, written, object, Tree.render]
  simp [emit, payload, recordTree, recordFields, members, object, string, Members.render, Tree.render]

end Sitometron.Journal
