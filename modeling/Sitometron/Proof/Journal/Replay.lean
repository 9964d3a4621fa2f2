import Sitometron.Core.Timer
import Sitometron.Proof.Core.Invariant
import Sitometron.Proof.Journal.Derivation

/-!
# Replay against the reducer

What the writer journals is derived again by replay, and what replay accepts the writer could have
journaled, up to two kinds of record that replay does not compare with the snapshot.
-/

namespace Sitometron.Journal

open Core JsonText

def recordOf (proposal : PreEnvelopeProposal) (sequence : UInt64) (recordedAt : Bytes) : LogicalJobEvent :=
  ⟨proposal.schemaVersion, sequence, proposal.eventType, recordedAt, proposal.jobId, proposal.payload⟩

def proposalOf (record : LogicalJobEvent) : PreEnvelopeProposal :=
  ⟨record.schemaVersion, record.jobId, record.eventType, record.payload⟩

theorem replayRecord_eq_ok_iff {lib : Libraries} {before : Option Snapshot} {record : LogicalJobEvent}
    {after : Snapshot} :
    replayRecord lib before record = .ok after ↔
      ∃ s bytes, replayStart before record = .ok s ∧ encodeRecord record = .ok bytes ∧
        derive lib s record = some (.ok (proposalOf record)) ∧
        (apply lib s (proposalOf record)).rejection = none ∧
        (apply lib s (proposalOf record)).snapshot = after := by
  constructor
  · intro replayed
    unfold replayRecord at replayed
    split at replayed
    next => cases replayed
    next s start =>
    split at replayed
    next => cases replayed
    next => cases replayed
    next proposal derived =>
    dsimp only at replayed
    split at replayed
    next derivedBytes bytes encodedDerived encoded =>
      split at replayed
      next => cases replayed
      next same =>
      -- The codec is injective, so equal bytes are equal proposals.
      have equal := decodeRecord_encoded lib.json (not_not.1 same ▸ encodedDerived)
      rw [decodeRecord_encoded lib.json encoded] at equal
      have proposed : proposal = proposalOf record := by
        rw [Except.ok.inj equal]
        rfl
      subst proposed
      split at replayed
      next => cases replayed
      next applied =>
        exact ⟨s, bytes, start, encoded, derived, by simpa using applied, Except.ok.inj replayed⟩
    next => cases replayed
  · rintro ⟨s, bytes, start, encoded, derived, applied, rfl⟩
    have same : encodeRecord (recordOf (proposalOf record) record.sequence record.recordedAt) = .ok bytes := encoded
    simp only [recordOf] at same
    simp [replayRecord, start, derived, encoded, same, applied]

inductive Decided (lib : Libraries) (s : Snapshot) (proposal : PreEnvelopeProposal) : Prop
  | command (c : Command) : decideCommand s c = .ok proposal → Decided lib s proposal
  | candidate (raw : RawCandidateEvent) (e : InternalEvent) : normalizeCandidate lib s raw = .ok e →
      decideEvent lib s e = .ok proposal → Decided lib s proposal

section Decided

variable {lib : Libraries} {s : Snapshot} {proposal : PreEnvelopeProposal}

theorem Decided.again (decided : Decided lib s proposal) : decideEvent lib s proposal.event = .ok proposal := by
  cases decided with
  | command c accepted => exact decideCommand_proposes accepted
  | candidate raw e normalized accepted => exact decideEvent_proposes accepted

theorem candidate_proposes {raw : RawCandidateEvent} {e : InternalEvent}
    (normalized : normalizeCandidate lib s raw = .ok e) (accepted : decideEvent lib s e = .ok proposal) :
    isCandidate e.eventType = true ∧ (proposal = ⟨1, s.jobId, e.eventType, e.payload⟩ ∨
      ∃ p, e.payload = .workerEvent p ∧ Late s e.eventType p ∧ proposal = ⟨1, s.jobId, .lateWorkerEvent,
        .lateWorkerEvent ⟨e.eventType, p.workerId, p.eventSequence⟩⟩) := by
  obtain ⟨-, type, json, payload, -, notCancel, notTerminate, -, parsed, rfl⟩ :=
    normalizeCandidate_eq_ok_iff.1 normalized
  obtain ⟨-, -, -, -, valid, decided⟩ := decideEvent_eq_ok_iff.1 accepted
  constructor
  · cases type <;> first | rfl | exact absurd rfl notCancel | exact absurd rfl notTerminate | cases parsed
  · rcases decided with ⟨-, -, created⟩ | ⟨-, -, decided⟩
    · exact .inl (accept_eq_ok.1 created).symm
    · exact decideByType_proposes (payloadMatches_of_valid valid) decided

theorem Decided.textWellFormed (decided : Decided lib s proposal) : TextWellFormed proposal.payload := by
  cases decided with
  | command c accepted =>
      obtain ⟨-, -, -, -, -, -, ⟨-, rfl, -⟩ | ⟨-, rfl, -⟩⟩ := decideCommand_cases accepted <;> trivial
  | candidate raw e normalized accepted =>
      obtain ⟨-, -, -, -, valid, -⟩ := decideEvent_eq_ok_iff.1 accepted
      have wellFormed := normalized_textWellFormed (payloadMatches_of_valid valid) normalized
      rcases (candidate_proposes normalized accepted).2 with rfl | ⟨p, -, -, rfl⟩
      · exact wellFormed
      · trivial

theorem encodeRecord_of_decided (decided : Decided lib s proposal) {sequence : UInt64} {recordedAt : Bytes}
    (positive : 1 ≤ sequence) (stamp : isRfc3339 recordedAt = true) (short : recordedAt.length ≤ 64) :
    encodeRecord (recordOf proposal sequence recordedAt) = .ok (emit (recordOf proposal sequence recordedAt)) := by
  obtain ⟨-, version, -, canonical, valid, -⟩ := decideEvent_eq_ok_iff.1 decided.again
  refine encodeRecord_of_violation (violation_eq_none.2 ⟨version, positive, stamp, ?_, ?_⟩) short
  · rw [← isUuid7_eq]
    exact canonical
  · exact payloadViolation_of_valid valid decided.textWellFormed

theorem derive_candidate {record : LogicalJobEvent} (candidate : isCandidate record.eventType = true)
    (untimed : record.eventType ≠ .timeoutExpired) :
    derive lib s record = (payloadJson lib record).map fun json =>
      decideCandidate lib s ⟨record.schemaVersion, record.jobId, record.eventType.toText, json⟩ := by
  obtain ⟨version, sequence, type, recordedAt, job, payload⟩ := record
  cases type <;> first | rfl | cases candidate; done | exact absurd rfl untimed

theorem derive_of_event (candidate : isCandidate proposal.eventType = true)
    (again : decideEvent lib s proposal.event = .ok proposal) {sequence : UInt64} {recordedAt bytes : Bytes}
    (encoded : encodeRecord (recordOf proposal sequence recordedAt) = .ok bytes) :
    derive lib s (recordOf proposal sequence recordedAt) = some (.ok proposal) := by
  obtain ⟨-, version, job, canonical, valid, -⟩ := decideEvent_eq_ok_iff.1 again
  obtain ⟨schemaVersion, jobId, type, payload⟩ := proposal
  cases version
  cases job
  by_cases timed : type = .timeoutExpired
  · simp only [derive, recordOf, timed] at again ⊢
    exact congrArg some again
  · obtain ⟨json, read, parsed⟩ := payloadJson_parses lib encoded
    rw [derive_candidate candidate timed, read]
    have event := normalizeCandidate_readBack candidate canonical valid parsed
    exact congrArg some (decideCandidate_eq_ok_iff.2 ⟨_, event, again⟩)

theorem derive_of_decided (decided : Decided lib s proposal) {sequence : UInt64} {recordedAt bytes : Bytes}
    (encoded : encodeRecord (recordOf proposal sequence recordedAt) = .ok bytes) :
    derive lib s (recordOf proposal sequence recordedAt) = some (.ok proposal) := by
  have again := decided.again
  cases decided with
  | command c accepted =>
      obtain ⟨-, one, -, -, same, -, ⟨kind, rfl, -⟩ | ⟨kind, rfl, -⟩⟩ := decideCommand_cases accepted
      all_goals
        obtain ⟨schemaVersion, commandType, jobId, principal⟩ := c
        cases one
        cases same
        cases kind
        exact congrArg some accepted
  | candidate raw e normalized accepted =>
      obtain ⟨candidate, proposed⟩ := candidate_proposes normalized accepted
      rcases proposed with rfl | ⟨p, -, -, rfl⟩
      · exact derive_of_event candidate again encoded
      · exact congrArg some again

theorem replayStart_of_decided {job session : Uuid} (run : Reachable lib (initialSnapshot job session) s)
    (decided : Decided lib s proposal) (sequence : UInt64) (recordedAt : Bytes) :
    replayStart (if proposal.eventType = .jobCreated then none else some s)
      (recordOf proposal sequence recordedAt) = .ok s := by
  obtain ⟨valid, -, own, -, payload, created | existing⟩ := decideEvent_eq_ok_iff.1 decided.again
  · obtain ⟨type, absent, -⟩ := created
    have unborn := run.unborn absent
    have identity := (validSnapshot_identity valid).2
    obtain ⟨version, id, kind, body⟩ := proposal
    cases type
    obtain rfl : body = .jobCreated ⟨id⟩ := jobCreated_session payload
    have jobs : id = job := own.trans (unborn ▸ rfl)
    have sessions : session = job := by
      rw [unborn] at identity
      exact identity.symm
    simp [replayStart, recordOf, unborn, jobs, sessions]
  · obtain ⟨type, present, -⟩ := existing
    have other : proposal.eventType ≠ .jobCreated := type
    simp [replayStart, recordOf, other, present]

end Decided

/-- Every accepted decision is committable, and its record replays to the same snapshot. -/
theorem decided_replays (lib : Libraries) (job session : Uuid) (s : Snapshot)
    (run : Reachable lib (initialSnapshot job session) s) (proposal : PreEnvelopeProposal)
    (decided : (∃ c, decideCommand s c = .ok proposal) ∨
      ∃ raw e, normalizeCandidate lib s raw = .ok e ∧ decideEvent lib s e = .ok proposal)
    (sequence : UInt64) (positive : 1 ≤ sequence) (recordedAt : Bytes) (stamp : isRfc3339 recordedAt = true)
    (short : recordedAt.length ≤ 64) :
    (∃ bytes, encodeRecord (recordOf proposal sequence recordedAt) = .ok bytes) ∧
      replayRecord lib (if proposal.eventType = .jobCreated then none else some s)
        (recordOf proposal sequence recordedAt) = .ok (apply lib s proposal).snapshot := by
  have decided : Decided lib s proposal := by
    rcases decided with ⟨c, accepted⟩ | ⟨raw, e, normalized, accepted⟩
    · exact .command c accepted
    · exact .candidate raw e normalized accepted
  have encoded := encodeRecord_of_decided decided positive stamp short
  exact ⟨⟨_, encoded⟩, replayRecord_eq_ok_iff.2 ⟨s, _, replayStart_of_decided run decided sequence recordedAt, encoded,
    derive_of_decided decided encoded, apply_of_decided decided.again, rfl⟩⟩

def sampleStamp : Bytes := text "2026-01-31T23:59:59Z"

def sampleTimeout : PreEnvelopeProposal :=
  { jobId := sampleJob, eventType := .timeoutExpired, payload := .timeoutExpired ⟨.preparation, 1⟩ }

theorem decided_replays_timeout :
    (∃ bytes, encodeRecord (recordOf sampleTimeout 3 sampleStamp) = .ok bytes) ∧
      replayRecord sampleLibraries (if sampleTimeout.eventType = .jobCreated then none else some samplePreparing)
        (recordOf sampleTimeout 3 sampleStamp) =
        .ok (apply sampleLibraries samplePreparing sampleTimeout).snapshot := by
  have normalized : normalizeCandidate sampleLibraries samplePreparing ⟨1, sampleJob, text "timeout_expired",
      text "\x7b\"timer_generation\":1,\"phase\":\"preparation\"\x7d"⟩ = .ok sampleTimeout.event := by
    decide +kernel
  have accepted : decideEvent sampleLibraries samplePreparing sampleTimeout.event = .ok sampleTimeout := by
    decide +kernel
  exact decided_replays sampleLibraries sampleJob sampleJob samplePreparing samplePreparing_reachable sampleTimeout
    (.inr ⟨_, _, normalized, accepted⟩) 3 (by decide) sampleStamp (by decide +kernel) (by decide +kernel)

/-- What reaches a Job from outside. A timer notification meets the timers that the writer has armed. -/
inductive Input where
  | command (c : Command)
  | candidate (raw : RawCandidateEvent)
  | timer (timers : TimerState) (notification : TimerNotification)

def decideInput (lib : Libraries) (s : Snapshot) : Input → Option Decision
  | .command c => some (decideCommand s c)
  | .candidate raw => some (decideCandidate lib s raw)
  | .timer timers notification =>
      match ingestTimer timers notification with
      | .emitCandidateEvent jobId payload => (timeoutCandidate jobId payload).map (decideCandidate lib s)
      | _ => none

def Explained (lib : Libraries) (s : Snapshot) (record : LogicalJobEvent) : Prop :=
  ∃ input proposal, decideInput lib s input = some (.ok proposal) ∧
    proposal.eventType = record.eventType ∧ proposal.payload = record.payload

/-- Where replay compares the record with the snapshot: a late worker event is the bound Worker's, and a
created Job is the snapshot's own. -/
def Compared (s : Snapshot) (record : LogicalJobEvent) : Prop :=
  (∀ p, record.payload = .lateWorkerEvent p → s.workerId = some p.workerId) ∧
    (record.eventType = .jobCreated → record.jobId = s.jobId ∧ record.jobId = s.sessionId)

def Bound (s : Snapshot) : EventPayload → Prop
  | .jobCreated p | .session p => p.sessionId = s.sessionId
  | .resourcesCommitted p => s.allocationId.all (· = p.allocationId) ∧ s.allocationDigest.all (· = p.allocationDigest)
  | .workerLaunchIntent p =>
      s.launchOperationId.all (· = p.operationId) ∧ s.allocationId.all (· = p.allocationId) ∧
        s.allocationDigest.all (· = p.allocationDigest) ∧ s.workerId.all (· = p.workerId)
  | .workerLaunchObserved p => s.launchOperationId.all (· = p.operationId)
  | .workerRunning p | .workerEvent p | .lateWorkerEvent p => s.workerId.all (· = p.workerId)
  | .processExitConfirmed p => s.launchOperationId.all (· = p.launchOperationId)
  | .resourcesReleased p => s.allocationId.all (· = p.allocationId) ∧ s.allocationDigest.all (· = p.allocationDigest)
  | .principal _ | .timeoutExpired _ | .terminalOutcome _ | .cleanupStatus _ | .empty => True

section Sound

variable {lib : Libraries} {s after : Snapshot} {record : LogicalJobEvent}

theorem decideInput_cases {input : Input} {proposal : PreEnvelopeProposal}
    (accepted : decideInput lib s input = some (.ok proposal)) : Decided lib s proposal := by
  have candidate {raw : RawCandidateEvent} (given : decideCandidate lib s raw = .ok proposal) :
      Decided lib s proposal := by
    obtain ⟨e, normalized, accepted⟩ := decideCandidate_eq_ok_iff.1 given
    exact .candidate raw e normalized accepted
  cases input with
  | command c => exact .command c (Option.some.inj accepted)
  | candidate raw => exact candidate (Option.some.inj accepted)
  | timer timers notification =>
      simp only [decideInput] at accepted
      split at accepted
      next =>
        obtain ⟨raw, -, given⟩ := Option.map_eq_some_iff.1 accepted
        exact candidate given
      next => cases accepted

theorem created_start {start : Snapshot} (created : record.eventType = .jobCreated)
    (started : replayStart (some s) record = .ok start)
    (applied : (apply lib start (proposalOf record)).rejection = none) :
    s.entityExists = false ∧ record.payload = .jobCreated ⟨record.jobId⟩ ∧
      start = initialSnapshot record.jobId record.jobId := by
  have valid := (Transition.of_apply applied).payload
  obtain ⟨version, sequence, type, recordedAt, job, payload⟩ := record
  cases created
  simp only [replayStart, if_true] at started
  split at started
  next => cases started
  next absent =>
    cases started
    obtain rfl : payload = .jobCreated ⟨job⟩ := jobCreated_session valid
    exact ⟨by simpa using absent, rfl, rfl⟩

theorem replayStart_eq {job session : Uuid} {start : Snapshot} (run : Reachable lib (initialSnapshot job session) s)
    (started : replayStart (some s) record = .ok start)
    (applied : (apply lib start (proposalOf record)).rejection = none) (compared : Compared s record) :
    start = s := by
  by_cases created : record.eventType = .jobCreated
  · obtain ⟨absent, -, rfl⟩ := created_start created started applied
    have unborn := run.unborn absent
    obtain ⟨jobs, sessions⟩ := compared.2 created
    rw [unborn] at jobs sessions ⊢
    rw [show record.jobId = job from jobs] at sessions ⊢
    rw [show job = session from sessions]
  · simp only [replayStart, created, if_false] at started
    split at started
    · exact (Except.ok.inj started).symm
    · cases started

theorem compared_of_explained {start : Snapshot} (started : replayStart (some s) record = .ok start)
    (applied : (apply lib start (proposalOf record)).rejection = none) (explained : Explained lib s record) :
    Compared s record := by
  obtain ⟨input, proposal, accepted, type, payload⟩ := explained
  have decided := decideInput_cases accepted
  constructor
  · intro p late
    rw [late] at payload
    cases decided with
    | command c accepted =>
        obtain ⟨-, -, -, -, -, -, ⟨-, rfl, -⟩ | ⟨-, rfl, -⟩⟩ := decideCommand_cases accepted <;> cases payload
    | candidate raw e normalized accepted =>
        obtain ⟨-, -, -, -, valid, -⟩ := decideEvent_eq_ok_iff.1 accepted
        have agrees := payloadMatches_of_valid valid
        obtain ⟨candidate, rfl | ⟨q, -, tooLate, rfl⟩⟩ := candidate_proposes normalized accepted
        · obtain ⟨version, job, kind, body⟩ := e
          cases payload
          cases kind <;> first | cases agrees; done | cases candidate
        · cases payload
          exact tooLate.worker
  · intro created
    obtain ⟨-, body, -⟩ := created_start created started applied
    obtain ⟨valid, -, own, -, proposed, -⟩ := decideEvent_eq_ok_iff.1 decided.again
    obtain ⟨version, job, kind, carried⟩ := proposal
    cases type.trans created
    obtain rfl : carried = .jobCreated ⟨job⟩ := jobCreated_session proposed
    cases payload.trans body
    exact ⟨own, own.trans (validSnapshot_identity valid).2⟩

theorem candidate_exists {type : EventType} {payload : EventPayload} (candidate : isCandidate type = true)
    (canonical : isUuid7 s.jobId = true) (valid : validInternalPayload lib type payload s.jobId = true)
    (utf8 : TextWellFormed payload) :
    normalizeCandidate lib s ⟨1, s.jobId, type.toText, (object (payloadFields type payload)).render⟩ =
      .ok ⟨1, s.jobId, type, payload⟩ := by
  have accepted := @payloadViolation_of_valid lib ⟨1, 1, type, [], s.jobId, payload⟩ s.jobId valid utf8
  exact normalizeCandidate_readBack candidate canonical valid (parseJson_render lib (payload_valid accepted))

theorem timeoutCandidate_eq {job : Uuid} {p : TimeoutExpiredPayload} (closed : p.phase ≠ .invalid) :
    timeoutCandidate job p = some ⟨1, job, EventType.timeoutExpired.toText,
      (object (payloadFields .timeoutExpired (.timeoutExpired p))).render⟩ := by
  obtain ⟨phase, generation⟩ := p
  obtain ⟨name, listed, spelled⟩ : ∃ name, phaseText phase = some name ∧
      text "\x7b\"phase\":\"" ++ name ++ text "\",\"timer_generation\":" =
        [0x7B] ++ (quote (pieces (text "phase")) ++ [0x3A] ++ quote (pieces (validatedName phase phaseNames)) ++
          [0x2C] ++ quote (pieces (text "timer_generation")) ++ [0x3A]) := by
    cases phase
    case invalid => exact absurd rfl closed
    all_goals exact ⟨_, rfl, by decide +kernel⟩
  have brace : text "\x7d" = [0x7D] := by decide +kernel
  rw [timeoutCandidate, listed, Option.map_some, spelled, brace]
  simp [payloadFields, object, members, string, Members.render, Tree.render, EventType.toText]

theorem explained_of_derived (derived : derive lib s record = some (.ok (proposalOf record)))
    (applied : (apply lib s (proposalOf record)).rejection = none) (compared : Compared s record) :
    Explained lib s record := by
  have explained (input : Input) (accepted : decideInput lib s input = some (.ok (proposalOf record))) :
      Explained lib s record := ⟨input, _, accepted, rfl, rfl⟩
  obtain ⟨valid, version, job, payload, moves⟩ := Transition.of_apply applied
  have canonical := (validSnapshot_identity valid).1
  by_cases candidate : isCandidate record.eventType = true ∧ record.eventType ≠ .timeoutExpired
  · rw [derive_candidate candidate.1 candidate.2] at derived
    obtain ⟨json, -, accepted⟩ := Option.map_eq_some_iff.1 derived
    exact explained (.candidate _) (congrArg some accepted)
  obtain ⟨schemaVersion, sequence, type, recordedAt, jobId, body⟩ := record
  cases version
  cases job
  have agrees := payloadMatches_of_valid payload
  have kinds : type = .cancelAccepted ∨ type = .terminateAccepted ∨ type = .timeoutExpired ∨
      type = .lateWorkerEvent ∨ type = .invalid := by
    cases type <;> simp [isCandidate] at candidate ⊢
  rcases kinds with rfl | rfl | rfl | rfl | rfl
  · exact explained (.command _) derived
  · exact explained (.command _) derived
  · cases body <;> cases agrees
    rename_i p
    have closed : p.phase ≠ .invalid ∧ p.timerGeneration ≠ 0 := by
      simpa [validInternalPayload, payloadMatches, proposalOf] using payload
    have emitted : ingestTimer ⟨s.jobId, fun _ => true, fun _ => p.timerGeneration⟩
        ⟨s.jobId, p.phase, p.timerGeneration⟩ = .emitCandidateEvent s.jobId p := by
      simp [ingestTimer, show Core.isUuid s.jobId.value (byte '7') = true from canonical, closed]
    have normalized := @candidate_exists lib s .timeoutExpired (.timeoutExpired p) rfl canonical payload trivial
    have accepted := decideCandidate_eq_ok_iff.2 ⟨_, normalized, Option.some.inj derived⟩
    refine explained (.timer ⟨s.jobId, fun _ => true, fun _ => p.timerGeneration⟩
      ⟨s.jobId, p.phase, p.timerGeneration⟩) ?_
    simp only [decideInput, emitted, timeoutCandidate_eq closed.1, Option.map_some, accepted]
  · cases body <;> cases agrees
    rename_i p
    -- The writer journals the late record for the original event of the bound Worker.
    have bound := compared.1 p rfl
    have lateValid : (p.originalEventType = .workerCompleted ∨ p.originalEventType = .workerFailed) ∧
        isUuid4 p.workerId = true ∧ p.eventSequence ≠ 0 := by
      simpa [validInternalPayload, payloadMatches, proposalOf, and_assoc] using payload
    obtain ⟨original, worker, sequenceNumber⟩ := p
    have present := moves.late
    have sent : validInternalPayload lib original (.workerEvent ⟨worker, sequenceNumber⟩) s.jobId = true := by
      rcases lateValid.1 with rfl | rfl <;> simpa [validInternalPayload, payloadMatches] using lateValid.2
    have sendable : isCandidate original = true := by
      rcases lateValid.1 with rfl | rfl <;> rfl
    have normalized := candidate_exists sendable canonical sent trivial
    refine explained (.candidate _) (congrArg some (decideCandidate_eq_ok_iff.2 ⟨_, normalized, ?_⟩))
    refine decideEvent_eq_ok_iff.2 ⟨valid, rfl, rfl, canonical, sent, .inr ⟨?_, present.1, ?_⟩⟩
    · rcases lateValid.1 with rfl | rfl <;> simp
    · have decided : decideByType s ⟨1, s.jobId, original, .workerEvent ⟨worker, sequenceNumber⟩⟩ =
          decideWorkerOutcome s ⟨1, s.jobId, original, .workerEvent ⟨worker, sequenceNumber⟩⟩ := by
        rcases lateValid.1 with rfl | rfl <;> rfl
      rw [decided, decideWorkerOutcome]
      simp [present.2, bound, proposalOf]
  · cases body <;> cases agrees

theorem bound_of_moves {type : EventType} {payload : EventPayload} {u : Update} (valid : validSnapshot s = true)
    (moves : Moves s type payload u) (created : ∀ p, payload = .jobCreated p → p.sessionId = s.sessionId)
    (late : ∀ p, payload = .lateWorkerEvent p → s.workerId = some p.workerId) : Bound s payload := by
  simp only [validSnapshot, Bool.and_eq_true] at valid
  obtain ⟨⟨⟨⟨⟨-, resources⟩, -⟩, launch⟩, -⟩, state⟩ := valid
  cases moves
  case jobCreated p absent => exact created p rfl
  case lateWorkerEvent p present state => simp [Bound, late p rfl]
  case resourcesCommitted p present admitted =>
    have free := (hasValidResourceFacts_iff.1 resources).1 ((hasValidStateFacts_iff.1 state).1 admitted).1
    simp [Bound, free]
  case workerLaunchIntent p present preparing notStarted allocation digest =>
    have free := (hasValidLaunchFacts_iff.1 launch).1 notStarted
    simp [Bound, free, allocation, digest]
  case terminateAccepted | terminateEscalated | cancelAccepted | preparationTimeout | runningTimeout |
      stoppingTimeout | cooperativeStopTimeout | finalizingTimeout | exitConfirmationTimeout | finalizationCompleted |
      finalizationFailed | terminalOutcomeCommitted | cleanupStatusRecorded => trivial
  all_goals simp_all [Bound]

end Sound

/-- An accepted record is one the writer could have journaled exactly where replay has compared its
identity, and then it conflicts with nothing the snapshot has bound. -/
theorem replayRecord_sound_iff (lib : Libraries) (job session : Uuid) (s : Snapshot)
    (run : Reachable lib (initialSnapshot job session) s) (record : LogicalJobEvent) (after : Snapshot)
    (replayed : replayRecord lib (some s) record = .ok after) :
    (Explained lib s record ↔ Compared s record) ∧ (Compared s record → Bound s record.payload) := by
  obtain ⟨start, bytes, started, -, derived, applied, -⟩ := replayRecord_eq_ok_iff.1 replayed
  refine ⟨⟨compared_of_explained started applied, fun compared => ?_⟩, fun compared => ?_⟩
  · obtain rfl := replayStart_eq run started applied compared
    exact explained_of_derived derived applied compared
  · obtain rfl := replayStart_eq run started applied compared
    obtain ⟨valid, -, -, payload, moves⟩ := Transition.of_apply applied
    refine bound_of_moves valid moves (fun p created => ?_) compared.1
    have type : record.eventType = .jobCreated := by
      have agrees : payloadMatches record.eventType record.payload = true := payloadMatches_of_valid payload
      rw [created] at agrees
      cases kind : record.eventType <;> rw [kind] at agrees <;> first | rfl | cases agrees
    obtain ⟨-, body, -⟩ := created_start type started applied
    cases created.symm.trans body
    exact (compared.2 type).2

def sampleWorker : Uuid := ⟨text "01890000-0000-4000-8000-000000000001"⟩

def otherWorker : Uuid := ⟨text "01890000-0000-4000-8000-000000000002"⟩

def sampleDigest : Digest := ⟨text "44136fa355b3678a1146ad16f7e8649e94fb4fc21fe77e8310c060f61caaff8a"⟩

def sampleIntent : PreEnvelopeProposal :=
  { jobId := sampleJob
    eventType := .workerLaunchIntent
    payload := .workerLaunchIntent ⟨⟨text "launch-1"⟩, ⟨text "application-1"⟩, text "1.0", sampleDigest,
      ⟨text "allocation-1"⟩, sampleDigest, sampleWorker⟩ }

def sampleFailed : PreEnvelopeProposal :=
  { jobId := sampleJob, eventType := .workerFailed, payload := .workerEvent ⟨sampleWorker, 1⟩ }

def sampleLaunching : Snapshot :=
  { initialSnapshot sampleJob sampleJob with
    entityExists := true
    state := .preparing
    resourceStatus := .committed
    allocationId := some ⟨text "allocation-1"⟩
    allocationDigest := some sampleDigest
    workerLaunchStatus := .intentRecorded
    launchOperationId := some ⟨text "launch-1"⟩
    workerId := some sampleWorker
    processPresence := .unknown }

def sampleFinalizing : Snapshot :=
  { sampleLaunching with
    state := .finalizing
    latchedReason := some .failed
    finalizationStatus := .pending
    pendingWorkerEventAck := true
    pendingWorkerId := some sampleWorker
    pendingWorkerEventSequence := some 1 }

theorem sampleFinalizing_reachable :
    Reachable sampleLibraries (initialSnapshot sampleJob sampleJob) sampleFinalizing := by
  have intended : decideEvent sampleLibraries samplePreparing sampleIntent.event = .ok sampleIntent ∧
      (apply sampleLibraries samplePreparing sampleIntent).snapshot = sampleLaunching := by decide +kernel
  have failed : decideEvent sampleLibraries sampleLaunching sampleFailed.event = .ok sampleFailed ∧
      (apply sampleLibraries sampleLaunching sampleFailed).snapshot = sampleFinalizing := by decide +kernel
  rw [← failed.2]
  refine .step ?_ (.event _ failed.1)
  rw [← intended.2]
  exact .step samplePreparing_reachable (.event _ intended.1)

def foreignLate : LogicalJobEvent :=
  ⟨1, 5, .lateWorkerEvent, sampleStamp, sampleJob, .lateWorkerEvent ⟨.workerFailed, otherWorker, 1⟩⟩

def ownLate : LogicalJobEvent :=
  { foreignLate with payload := .lateWorkerEvent ⟨.workerFailed, sampleWorker, 1⟩ }

theorem late_replays :
    replayRecord sampleLibraries (some sampleFinalizing) foreignLate = .ok sampleFinalizing ∧
      replayRecord sampleLibraries (some sampleFinalizing) ownLate = .ok sampleFinalizing := by
  have evaluated : ∀ record ∈ [foreignLate, ownLate], violation record = none ∧ record.recordedAt.length ≤ 64 ∧
      derive sampleLibraries sampleFinalizing record = some (.ok (proposalOf record)) ∧
      (apply sampleLibraries sampleFinalizing (proposalOf record)).rejection = none ∧
      (apply sampleLibraries sampleFinalizing (proposalOf record)).snapshot = sampleFinalizing := by decide +kernel
  have replays (record : LogicalJobEvent) (member : record ∈ [foreignLate, ownLate])
      (started : replayStart (some sampleFinalizing) record = .ok sampleFinalizing) :
      replayRecord sampleLibraries (some sampleFinalizing) record = .ok sampleFinalizing := by
    obtain ⟨accepted, short, derived, applied, same⟩ := evaluated record member
    exact replayRecord_eq_ok_iff.2 ⟨_, _, started, encodeRecord_of_violation accepted short, derived, applied, same⟩
  exact ⟨replays _ (by simp) rfl, replays _ (by simp) rfl⟩

theorem replayRecord_foreign_worker :
    Reachable sampleLibraries (initialSnapshot sampleJob sampleJob) sampleFinalizing ∧
      replayRecord sampleLibraries (some sampleFinalizing) foreignLate = .ok sampleFinalizing ∧
      ¬Explained sampleLibraries sampleFinalizing foreignLate ∧ ¬Bound sampleFinalizing foreignLate.payload := by
  have replayed := late_replays.1
  obtain ⟨foreign, conflict⟩ : sampleFinalizing.workerId ≠ some otherWorker ∧
      sampleFinalizing.workerId.all (· = otherWorker) = false := by decide +kernel
  refine ⟨sampleFinalizing_reachable, replayed, fun explained => ?_, ne_true_of_eq_false conflict⟩
  obtain ⟨start, bytes, started, -, -, applied, -⟩ := replayRecord_eq_ok_iff.1 replayed
  exact foreign ((compared_of_explained started applied explained).1 _ rfl)

theorem replayRecord_sound_iff_own :
    replayRecord sampleLibraries (some sampleFinalizing) ownLate = .ok sampleFinalizing ∧
      Explained sampleLibraries sampleFinalizing ownLate := by
  have replayed := late_replays.2
  have bound : sampleFinalizing.workerId = some sampleWorker := rfl
  have compared : Compared sampleFinalizing ownLate := by
    refine ⟨fun p late => ?_, nofun⟩
    cases late
    exact bound
  exact ⟨replayed, (replayRecord_sound_iff sampleLibraries sampleJob sampleJob sampleFinalizing
    sampleFinalizing_reachable ownLate sampleFinalizing replayed).1.2 compared⟩

end Sitometron.Journal
