import Sitometron.Proof.Journal.Replay

/-!
# The candidate normalizer

What the normalizer returns passes the reducer's own payload check, and every payload that passes it has a raw form.
-/

namespace Sitometron.Journal

open Core JsonText

section Parsed

variable {lib : Libraries} {json : Json} {job : Uuid} {payload : EventPayload}

theorem guard_eq_some {p : Prop} [Decidable p] {u : Unit} : (guard p : Option Unit) = some u ↔ p := by
  cases u
  by_cases h : p <;> simp [guard, h]

theorem uint64Field_ne_zero {key : Bytes} {value : UInt64} (read : uint64Field json key = some value) : value ≠ 0 := by
  simpa using (Option.filter_eq_some_iff.1 read).2

theorem parsePhase_closed {value : Bytes} {phase : TimeoutPhase} (parsed : parsePhase value = some phase) :
    phase ≠ .invalid := by
  unfold parsePhase at parsed
  repeat' split at parsed
  all_goals cases parsed
  all_goals nofun

theorem parseMode_closed {value : Bytes} {mode : CompletionMode} (parsed : parseMode value = some mode) :
    mode ≠ .invalid ∧ mode ≠ .none := by
  unfold parseMode at parsed
  repeat' split at parsed
  all_goals cases parsed
  all_goals exact ⟨nofun, nofun⟩

theorem parseOutcome_closed {value : Bytes} {outcome : TerminalOutcome} (parsed : parseOutcome value = some outcome) :
    outcome ≠ .invalid := by
  unfold parseOutcome at parsed
  repeat' split at parsed
  all_goals cases parsed
  all_goals nofun

theorem schemaVersion_ne_zero {version : UInt64} (nonzero : version ≠ 0) (bounded : version ≤ 0xFFFFFFFF) :
    version.toUInt32 ≠ 0 := by
  intro zero
  apply nonzero
  apply UInt64.toNat_inj.1
  have small : version.toNat ≤ 0xFFFFFFFF := UInt64.le_iff_toNat_le.1 bounded
  have rest : version.toNat % 2 ^ 32 = 0 := by simpa using congrArg UInt32.toNat zero
  rw [Nat.mod_eq_of_lt (by omega)] at rest
  exact rest

theorem parsedPayload_valid {type : EventType} (parsed : parseCandidatePayload lib type json job = some payload) :
    isCandidate type = true ∧ validInternalPayload lib type payload job = true := by
  cases type <;>
    simp only [parseCandidatePayload, parseJobCreatedPayload, parseResourcesCommittedPayload,
      parseWorkerLaunchIntentPayload, parseWorkerLaunchObservedPayload, parseWorkerRunningPayload,
      parseTimeoutExpiredPayload, parseWorkerEventPayload, parseProcessExitConfirmedPayload, parseSessionPayload,
      parseEmptyPayload, parseTerminalOutcomePayload, parseResourcesReleasedPayload, parseCleanupStatusPayload,
      Option.bind_eq_bind, Option.bind_eq_some_iff, guard_eq_some, exists_and_left, exists_const, Option.pure_def,
      Option.some_inj, Bool.and_eq_true, Bool.or_eq_true, decide_eq_true_eq, reduceCtorEq] at parsed
  case jobCreated =>
    obtain ⟨-, session, -, ⟨canonical, rfl⟩, rfl⟩ := parsed
    simp [validInternalPayload, payloadMatches, isCandidate, isUuid7, canonical]
  case resourcesCommitted =>
    obtain ⟨-, allocation, -, stable, digest, -, hex, resolved, -, -, schema, -, named, version, -, ⟨nonzero, bounded⟩, body, -,
      read, hashed, rfl⟩ := parsed
    simp [validInternalPayload, payloadMatches, isCandidate, stable, hex, named, read, hashed,
      schemaVersion_ne_zero nonzero bounded]
  case workerLaunchIntent =>
    obtain ⟨-, operation, -, stable, application, -, -, name, -, named, version, -, spelled, bundle, -, bundled, allocation, -,
      allocated, digest, -, hex, worker, -, canonical, rfl⟩ := parsed
    simp [validInternalPayload, payloadMatches, isCandidate, isUuid4, stable, named, spelled, bundled, allocated, hex, canonical]
  case workerLaunchObserved =>
    obtain ⟨-, operation, -, stable, outcome, -, -, rfl⟩ := parsed
    simp [validInternalPayload, payloadMatches, isCandidate, stable]
  case workerRunning =>
    obtain ⟨-, worker, -, canonical, rfl⟩ := parsed
    simp [validInternalPayload, payloadMatches, isCandidate, isUuid4, canonical]
  case timeoutExpired =>
    obtain ⟨-, name, -, generation, read, phase, closed, rfl⟩ := parsed
    simp [validInternalPayload, payloadMatches, isCandidate, uint64Field_ne_zero read, parsePhase_closed closed]
  case workerCompleted | workerFailed =>
    obtain ⟨-, worker, -, canonical, sequence, read, rfl⟩ := parsed
    simp [validInternalPayload, payloadMatches, isCandidate, isUuid4, canonical, uint64Field_ne_zero read]
  case processExitConfirmed =>
    obtain ⟨-, name, -, operation, -, stable, mode, closed, rfl⟩ := parsed
    simp [validInternalPayload, payloadMatches, isCandidate, stable, parseMode_closed closed]
  case sessionRetainRequested | sessionRetained =>
    obtain ⟨-, session, -, canonical, rfl⟩ := parsed
    simp [validInternalPayload, payloadMatches, isCandidate, isUuid7, canonical]
  case finalizationCompleted | finalizationFailed =>
    obtain ⟨-, rfl⟩ := parsed
    simp [validInternalPayload, payloadMatches, isCandidate]
  case terminalOutcomeCommitted =>
    obtain ⟨-, name, -, outcome, closed, rfl⟩ := parsed
    simp [validInternalPayload, payloadMatches, isCandidate, parseOutcome_closed closed]
  case resourcesReleased =>
    obtain ⟨-, allocation, -, stable, digest, -, hex, rfl⟩ := parsed
    simp [validInternalPayload, payloadMatches, isCandidate, stable, hex]
  case cleanupStatusRecorded =>
    obtain ⟨-, status, -, -, rfl⟩ := parsed
    have closed : (if status = text "completed" then CleanupStatus.completed else .incomplete) ≠ .invalid ∧
        (if status = text "completed" then CleanupStatus.completed else .incomplete) ≠ .pending := by
      split <;> exact ⟨by simp, by simp⟩
    simp [validInternalPayload, payloadMatches, isCandidate, closed]

theorem normalized_valid {s : Snapshot} {raw : RawCandidateEvent} {e : InternalEvent}
    (normalized : normalizeCandidate lib s raw = .ok e) :
    e.schemaVersion = 1 ∧ e.jobId = s.jobId ∧ isUuid7 s.jobId = true ∧ isCandidate e.eventType = true ∧
      validInternalPayload lib e.eventType e.payload s.jobId = true := by
  obtain ⟨⟨-, job, canonical⟩, type, json, payload, -, -, -, -, parsed, rfl⟩ := normalizeCandidate_eq_ok_iff.1 normalized
  rw [job] at canonical parsed
  obtain ⟨candidate, valid⟩ := parsedPayload_valid parsed
  exact ⟨rfl, rfl, canonical, candidate, valid⟩

end Parsed

def PayloadAccepted (decision : Decision) : Prop :=
  ∀ rejection, decision = .error rejection → rejection.reason ≠ .invalidEventPayload

theorem PayloadAccepted.reject {reason : RejectionReason} (other : reason ≠ .invalidEventPayload) :
    PayloadAccepted (reject reason) := by
  rintro rejection same
  cases same
  exact other

theorem PayloadAccepted.accept {s : Snapshot} {type : EventType} {payload : EventPayload} :
    PayloadAccepted (accept s type payload) := nofun

theorem decideByType_payloadAccepted {s : Snapshot} {version : UInt32} {job : Uuid} {type : EventType}
    {payload : EventPayload} (agrees : payloadMatches type payload = true) :
    PayloadAccepted (decideByType s ⟨version, job, type, payload⟩) := by
  cases type <;> cases payload <;> cases agrees <;>
    simp only [decideByType, decideResourcesCommitted, decideWorkerLaunchIntent, decideWorkerLaunchObserved,
      decideWorkerRunning, decideCancelAccepted, decideTerminateAccepted, decideTimeoutExpired, decideFinalizingTimeout,
      decideWorkerOutcome, decideProcessExitConfirmed, decideSessionRetain, decideFinalizationCompleted,
      decideFinalizationFailed, decideTerminalOutcomeCommitted, decideResourcesReleased, decideCleanupStatusRecorded,
      rejectState, acceptEvent] <;>
    repeat' split
  all_goals first
    | exact .accept
    | exact .reject (by simp)

theorem decideEvent_payloadAccepted {lib : Libraries} {s : Snapshot} {e : InternalEvent} (valid : validSnapshot s = true)
    (version : e.schemaVersion = 1) (job : e.jobId = s.jobId)
    (payload : validInternalPayload lib e.eventType e.payload s.jobId = true) : PayloadAccepted (decideEvent lib s e) := by
  have canonical := (validSnapshot_identity valid).1
  rw [← job] at payload canonical
  have given : ¬(decide (e.schemaVersion ≠ 1) || decide (e.jobId ≠ s.jobId) || !isUuid7 e.jobId ||
      !validInternalPayload lib e.eventType e.payload e.jobId) = true := by
    simp [version, canonical, payload, ← job]
  rw [decideEvent, if_neg (by simp [valid]), if_neg given]
  repeat' split
  · exact .reject (by simp)
  · exact .reject (by simp)
  · exact .accept
  · exact decideByType_payloadAccepted (payloadMatches_of_valid payload)

/-- The normalizer and the payload check agree: what is normalized is well formed, and every encodable payload that
passes the check is normalized from the text of its own record. -/
theorem normalizeCandidate_exact (lib : Libraries) (s : Snapshot) :
    (∀ raw e, normalizeCandidate lib s raw = .ok e →
        validInternalPayload lib e.eventType e.payload e.jobId = true ∧
          (validSnapshot s = true → ∀ rejection, decideEvent lib s e = .error rejection →
            rejection.reason ≠ .invalidEventPayload)) ∧
      ∀ record bytes, isCandidate record.eventType = true → record.jobId = s.jobId →
        validInternalPayload lib record.eventType record.payload record.jobId = true →
        encodeRecord record = .ok bytes → ∃ json, payloadJson lib record = some json ∧
          normalizeCandidate lib s ⟨1, record.jobId, record.eventType.toText, json⟩ =
            .ok ⟨1, record.jobId, record.eventType, record.payload⟩ := by
  constructor
  · intro raw e normalized
    obtain ⟨version, job, -, -, valid⟩ := normalized_valid normalized
    exact ⟨job ▸ valid, fun snapshot => decideEvent_payloadAccepted snapshot version job valid⟩
  · intro record bytes candidate job valid encoded
    obtain ⟨json, printed, read⟩ := payloadJson_parses lib encoded
    have canonical : isUuid7 s.jobId = true := by
      rw [← job, isUuid7_eq]
      exact (violation_eq_none.1 (encodeRecord_eq_ok_iff.1 encoded).1).2.2.2.1
    rw [job] at valid ⊢
    exact ⟨json, printed, normalizeCandidate_readBack candidate canonical valid read⟩

theorem normalizeCandidate_exact_allocation : ∃ bytes json,
    encodeRecord (recordOf sampleCommitted 2 sampleStamp) = .ok bytes ∧
      payloadJson sampleLibraries (recordOf sampleCommitted 2 sampleStamp) = some json ∧
      normalizeCandidate sampleLibraries sampleAdmitted ⟨1, sampleJob, text "resources_committed", json⟩ =
        .ok sampleCommitted.event := by
  have facts : sampleJob = sampleAdmitted.jobId ∧
      validInternalPayload sampleLibraries sampleCommitted.eventType sampleCommitted.payload sampleJob = true ∧
      violation (recordOf sampleCommitted 2 sampleStamp) = none ∧ sampleStamp.length ≤ 64 := by
    decide +kernel
  obtain ⟨job, valid, accepted, short⟩ := facts
  have encoded := encodeRecord_of_violation accepted short
  obtain ⟨json, printed, normalized⟩ := (normalizeCandidate_exact sampleLibraries sampleAdmitted).2
    (recordOf sampleCommitted 2 sampleStamp) _ rfl job valid encoded
  exact ⟨_, json, encoded, printed, normalized⟩

end Sitometron.Journal
