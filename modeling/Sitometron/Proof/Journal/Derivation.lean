import Sitometron.Journal.Replay
import Sitometron.Proof.Core.Transition
import Sitometron.Proof.Journal.Codec

/-!
# The reducer and the codec agree on payloads

A payload that the reducer accepts is encodable, and the candidate parser reads it back from the
record's own text.
-/

namespace Sitometron.Journal

open Core JsonText

/-- The one text the reducer does not check itself; a candidate's text comes out of the JSON library. -/
def TextWellFormed : EventPayload → Prop
  | .resourcesCommitted p => Utf8.WellFormed p.payloadUtf8
  | _ => True

theorem one_le_of_ne_zero {n : UInt64} (nonzero : n ≠ 0) : 1 ≤ n := by
  rw [UInt64.le_iff_toNat_le]
  exact Nat.one_le_iff_ne_zero.2 fun zero => nonzero (UInt64.toNat_inj.1 zero)

theorem one_le_of_ne_zero_32 {n : UInt32} (nonzero : n ≠ 0) : 1 ≤ n := by
  rw [UInt32.le_iff_toNat_le]
  exact Nat.one_le_iff_ne_zero.2 fun zero => nonzero (UInt32.toNat_inj.1 zero)

theorem allocation_bounded {lib : Libraries} {s : Bytes}
    (parsed : (parseResolvedAllocationJson lib s).isSome = true) : s.length ≤ maxAllocationTextBytes := by
  unfold parseResolvedAllocationJson at parsed
  split at parsed
  next small => exact small
  next => cases parsed

theorem payloadViolation_of_valid {lib : Libraries} {e : LogicalJobEvent} {job : Uuid}
    (valid : validInternalPayload lib e.eventType e.payload job = true) (utf8 : TextWellFormed e.payload) :
    payloadViolation e = none := by
  have agrees := payloadMatches_of_valid valid
  obtain ⟨version, sequence, type, recordedAt, id, payload⟩ := e
  cases type <;> cases payload <;> cases agrees <;>
    simp only [validInternalPayload, payloadMatches, isPrincipal, isUuid7_eq, isUuid4_eq, isDigest_eq, isStable_eq,
      isUtf8ScalarString_eq, Bool.and_eq_true, Bool.or_eq_true, decide_eq_true_eq, reduceCtorEq, decide_false,
      Bool.not_true, Bool.or_false, Bool.false_eq_true, if_false, ne_eq, decide_not, Bool.not_eq_true',
      decide_eq_false_iff_not] at valid <;>
    simp only [payloadViolation, firstViolation_eq_none, List.forall_mem_cons, List.not_mem_nil, false_implies,
      implies_true, and_true, decide_eq_true_eq]
  case resourcesCommitted.resourcesCommitted p =>
    obtain ⟨⟨⟨⟨⟨allocation, digest⟩, schema⟩, version⟩, parsed⟩, -⟩ := valid
    exact ⟨allocation, digest, schema, one_le_of_ne_zero_32 version, allocation_bounded parsed,
      utf8CodePoints_eq p.payloadUtf8 ▸ Utf8.wellFormed_iff.1 utf8⟩
  case workerLaunchIntent.workerLaunchIntent p =>
    obtain ⟨⟨⟨⟨⟨⟨operation, application⟩, version⟩, bundle⟩, allocation⟩, digest⟩, worker⟩ := valid
    exact ⟨operation, application, version, bundle, allocation, digest, worker⟩
  case jobCreated.jobCreated => exact valid.1
  case timeoutExpired.timeoutExpired p =>
    refine ⟨?_, one_le_of_ne_zero valid.2⟩
    cases phase : p.phase <;> first | rfl | exact absurd phase valid.1
  case workerCompleted.workerEvent | workerFailed.workerEvent => exact ⟨valid.1, one_le_of_ne_zero valid.2⟩
  case processExitConfirmed.processExitConfirmed p =>
    refine ⟨?_, valid.2⟩
    cases mode : p.completionMode <;> first | rfl | exact absurd mode valid.1.1 | exact absurd mode valid.1.2
  case terminalOutcomeCommitted.terminalOutcome p =>
    cases outcome : p.outcome <;> first | rfl | exact absurd outcome valid
  case cleanupStatusRecorded.cleanupStatus p =>
    cases status : p.status <;> first | rfl | exact absurd status valid.1 | exact absurd status valid.2
  case lateWorkerEvent.lateWorkerEvent p =>
    refine ⟨?_, valid.1.2, one_le_of_ne_zero valid.2⟩
    rcases valid.1.1 with original | original <;> rw [original] <;> rfl
  all_goals exact valid

theorem string_length (s : Bytes) : (string s).render.length ≤ 6 * s.length + 2 := by
  simpa [string, Tree.render, pieces] using quote_length (pieces s)

theorem number_length (n : UInt64) : (Tree.number n).render.length ≤ 20 := by
  have bound : n.toNat < 10 ^ 20 := lt_of_lt_of_le n.toNat_lt (by decide)
  exact (decimal_length_le (by decide)).2 bound

theorem object_length {fields : List (String × Tree)} (short : ∀ key ∈ fields.map (·.1), (text key).length ≤ 32) :
    (object fields).render.length ≤ 2 + (fields.map fun f => 200 + f.2.render.length).sum := by
  have each : ∀ first, ((members fields).render first).length ≤
      (fields.map fun f => 200 + f.2.render.length).sum := by
    induction fields with
    | nil => simp [members, Members.render]
    | cons field fields ih =>
        intro first
        have key := quote_length (pieces (text field.1))
        have small := short field.1 (by simp)
        have rest := ih (fun key member => short key (List.mem_cons_of_mem _ member)) false
        simp only [pieces, List.length_map] at key
        cases first <;>
          simp only [members, Members.render, pieces, List.length_append, List.length_cons, List.length_nil,
            List.map_cons, List.sum_cons, if_true, if_false, Bool.false_eq_true] <;> omega
  have := each true
  simp only [object, Tree.render, List.length_append, List.length_cons, List.length_nil]
  omega

theorem uuid_length {s : Bytes} {version : UInt8} (accepted : isUuid s version = true) :
    (string s).render.length ≤ 218 := by
  have written := string_length s
  have := (isUuid_iff.1 accepted).1
  omega

theorem sha256_length {s : Bytes} (accepted : isSha256 s = true) : (string s).render.length ≤ 386 := by
  have written := string_length s
  simp only [isSha256, Bool.and_eq_true, decide_eq_true_eq] at accepted
  omega

theorem stableId_length {s : Bytes} (accepted : isStableId s = true) : (string s).render.length ≤ 770 := by
  have written := string_length s
  unfold isStableId at accepted
  split at accepted
  next => cases accepted
  next short =>
    rw [Bool.or_eq_true, not_or] at short
    have : s.length ≤ 128 := by simpa [maxStableIdChars] using short.2
    omega

theorem bounded_length {s : Bytes} {maxChars : Nat} (accepted : boundedText s maxChars = true) :
    (string s).render.length ≤ 24 * maxChars + 2 := by
  have written := string_length s
  obtain ⟨n, counts, -, most⟩ := boundedText_iff.1 accepted
  have := counts.length
  omega

theorem literal_length {s : Bytes} (short : s.length ≤ 32) : (string s).render.length ≤ 194 := by
  have written := string_length s
  omega

theorem names_short :
    (∀ type : EventType, type.toText.length ≤ 32) ∧
      (∀ started : Bool, (if started then text "started" else text "failed").length ≤ 32) ∧
      (∀ phase, (validatedName phase phaseNames).length ≤ 32) ∧
      (∀ mode, (validatedName mode completionModeNames).length ≤ 32) ∧
      (∀ outcome, (validatedName outcome outcomeNames).length ≤ 32) ∧
      (∀ status, (validatedName status cleanupNames).length ≤ 32) ∧
      ∀ type, (validatedName type lateOriginalNames).length ≤ 32 := by
  refine ⟨?_, ?_, ?_, ?_, ?_, ?_, ?_⟩ <;> intro value <;> cases value <;> decide +kernel

theorem payload_length {e : LogicalJobEvent} (accepted : payloadViolation e = none) :
    (object (payloadFields e.eventType e.payload)).render.length ≤ 500000 := by
  have agrees := payloadMatches_of_violation accepted
  have whole := object_length (payloadFields_keys agrees ▸ (payloadKeys_writable e.eventType).short)
  refine whole.trans ?_
  obtain ⟨version, sequence, type, recordedAt, job, payload⟩ := e
  clear whole
  obtain ⟨-, starts, phases, modes, outcomes, statuses, originals⟩ := names_short
  cases type <;> cases payload <;> cases agrees <;>
    simp only [payloadViolation, firstViolation_eq_none, List.forall_mem_cons, List.not_mem_nil, false_implies,
      implies_true, and_true, decide_eq_true_eq] at accepted <;>
    simp only [payloadFields, List.map_cons, List.map_nil, List.sum_cons, List.sum_nil]
  case resourcesCommitted.resourcesCommitted p =>
    obtain ⟨allocation, digest, schema, -, bounded, -⟩ := accepted
    have resolved := @object_length [("schema_id", string p.schemaId.value),
      ("schema_version", .number p.schemaVersion.toUInt64), ("payload_utf8", string p.payloadUtf8)]
      fixedKeys_writable.1.short
    have := string_length p.payloadUtf8
    have := number_length p.schemaVersion.toUInt64
    have := stableId_length allocation
    have := sha256_length digest
    have := stableId_length schema
    simp only [List.map_cons, List.map_nil, List.sum_cons, List.sum_nil, maxAllocationTextBytes] at resolved bounded
    omega
  case workerLaunchIntent.workerLaunchIntent p =>
    obtain ⟨operation, application, version, bundle, allocation, digest, worker⟩ := accepted
    have nested := @object_length [("application_id", string p.applicationId.value),
      ("version", string p.applicationVersion), ("bundle_sha256", string p.bundleSha256.value)]
      fixedKeys_writable.2.1.short
    have := stableId_length operation
    have := stableId_length application
    have := bounded_length version
    have := sha256_length bundle
    have := stableId_length allocation
    have := sha256_length digest
    have := uuid_length worker
    simp only [List.map_cons, List.map_nil, List.sum_cons, List.sum_nil, maxVersionChars] at *
    omega
  case workerLaunchObserved.workerLaunchObserved p =>
    have := stableId_length accepted
    have : (string (if p.started then text "started" else text "failed")).render.length ≤ 194 :=
      literal_length (starts p.started)
    omega
  case timeoutExpired.timeoutExpired p =>
    have := number_length p.timerGeneration
    have : (string (validatedName p.phase phaseNames)).render.length ≤ 194 :=
      literal_length (phases p.phase)
    omega
  case processExitConfirmed.processExitConfirmed p =>
    have := stableId_length accepted.2
    have : (string (validatedName p.completionMode completionModeNames)).render.length ≤ 194 :=
      literal_length (modes p.completionMode)
    omega
  case terminalOutcomeCommitted.terminalOutcome p =>
    have : (string (validatedName p.outcome outcomeNames)).render.length ≤ 194 :=
      literal_length (outcomes p.outcome)
    omega
  case cleanupStatusRecorded.cleanupStatus p =>
    have : (string (validatedName p.status cleanupNames)).render.length ≤ 194 :=
      literal_length (statuses p.status)
    omega
  case lateWorkerEvent.lateWorkerEvent p =>
    have := uuid_length accepted.2.1
    have := number_length p.eventSequence
    have : (string (validatedName p.originalEventType lateOriginalNames)).render.length ≤ 194 :=
      literal_length (originals p.originalEventType)
    omega
  case cancelAccepted.principal | terminateAccepted.principal =>
    have := bounded_length accepted
    simp only [maxPrincipalChars] at this
    omega
  case workerCompleted.workerEvent p | workerFailed.workerEvent p =>
    have := uuid_length accepted.1
    have := number_length p.eventSequence
    omega
  case resourcesReleased.resourcesReleased =>
    have := stableId_length accepted.1
    have := sha256_length accepted.2
    omega
  case jobCreated.jobCreated | workerRunning.workerRunning | sessionRetainRequested.session |
      sessionRetained.session =>
    have := uuid_length accepted
    omega
  all_goals decide

theorem encodeRecord_of_violation {e : LogicalJobEvent} (accepted : violation e = none)
    (short : e.recordedAt.length ≤ 64) : encodeRecord e = .ok (emit e) := by
  obtain ⟨-, -, -, job, payload⟩ := violation_eq_none.1 accepted
  refine encodeRecord_eq_ok_iff.2 ⟨accepted, rfl, ?_⟩
  rw [emit_eq (payloadMatches_of_violation payload)]
  have whole := @object_length (recordFields e) fixedKeys_writable.2.2.short
  have body := payload_length payload
  have := number_length e.schemaVersion.toUInt64
  have := number_length e.sequence
  have : (string e.eventType.toText).render.length ≤ 194 :=
    literal_length (names_short.1 e.eventType)
  have := string_length e.recordedAt
  have := uuid_length job
  simp only [recordFields, List.map_cons, List.map_nil, List.sum_cons, List.sum_nil] at whole
  simp only [recordTree, recordFields, maxRecordBytes, List.length_append, List.length_cons, List.length_nil]
  omega

section Fields

variable {fields : List (String × Tree)} {key : String}

theorem hasOnly_object {keys : List String} (same : fields.map (·.1) = keys) :
    hasOnly (object fields).value (keys.map text) = true := by
  rw [hasOnly, object_isObject, Bool.true_and, List.all_eq_true]
  intro key member
  rw [object, Tree.value, members_values] at member
  have written := Json.mem_memberKeys_ofMembers member
  rw [List.map_map] at written
  rw [List.contains_iff_mem, ← same, List.map_map]
  exact written

theorem stringField_object (proper : Proper (fields.map (·.1))) (present : (fields.lookup key).isSome = true) :
    stringField (object fields).value (text key) = (fields.lookup key).bind fun t => t.value.asString := by
  obtain ⟨t, found⟩ := Option.isSome_iff_exists.1 present
  rw [stringField, find_object proper found, found]
  cases t <;> rfl

theorem unsignedField_object (proper : Proper (fields.map (·.1))) (present : (fields.lookup key).isSome = true) :
    unsignedField (object fields).value (text key) = (fields.lookup key).bind fun t => t.value.asUnsigned := by
  obtain ⟨t, found⟩ := Option.isSome_iff_exists.1 present
  rw [unsignedField, find_object proper found, found]
  cases t <;> rfl

theorem objectField_object (proper : Proper (fields.map (·.1))) (present : (fields.lookup key).isSome = true) :
    objectField (object fields).value (text key) = (fields.lookup key).bind fun t => t.value.asObject := by
  obtain ⟨t, found⟩ := Option.isSome_iff_exists.1 present
  rw [objectField, find_object proper found, found]
  cases t <;> rfl

end Fields

def isCandidate : EventType → Bool
  | .cancelAccepted | .terminateAccepted | .lateWorkerEvent | .invalid => false
  | _ => true

theorem parseCandidatePayload_readBack {lib : Libraries} {type : EventType} {payload : EventPayload} {job : Uuid}
    (candidate : isCandidate type = true) (valid : validInternalPayload lib type payload job = true) :
    parseCandidatePayload lib type (object (payloadFields type payload)).value job = some payload := by
  have agrees := payloadMatches_of_valid valid
  have proper := (payloadKeys_writable type).proper
  have only := hasOnly_object (payloadFields_keys agrees)
  cases type <;> cases payload <;> cases agrees <;>
    simp only [validInternalPayload, payloadMatches, isUuid7, isUuid4, Bool.and_eq_true, decide_eq_true_eq,
      reduceCtorEq, decide_false, Bool.not_true, Bool.or_false, Bool.false_eq_true, if_false, ne_eq, decide_not,
      Bool.not_eq_true', decide_eq_false_iff_not] at valid <;>
    simp only [payloadKeys, payloadFields, List.map_cons, List.map_nil] at proper only
  case cancelAccepted.principal | terminateAccepted.principal | lateWorkerEvent.lateWorkerEvent => cases candidate
  case jobCreated.jobCreated p =>
    obtain ⟨canonical, rfl⟩ := valid
    simp [parseCandidatePayload, parseJobCreatedPayload, payloadFields, only, stringField_object, proper, canonical]
  case workerLaunchObserved.workerLaunchObserved p =>
    have different : text "failed" ≠ text "started" := by decide
    obtain ⟨operation, started⟩ := p
    cases started <;> simp only [Bool.false_eq_true, if_true, if_false] at only <;>
      simp [parseCandidatePayload, parseWorkerLaunchObservedPayload, payloadFields, only, stringField_object, proper,
        valid, List.lookup_cons, different]
  case timeoutExpired.timeoutExpired p =>
    have phase : parsePhase (validatedName p.phase phaseNames) = some p.phase := by
      cases phase : p.phase <;> first | decide +kernel | exact absurd phase valid.1
    simp [parseCandidatePayload, parseTimeoutExpiredPayload, payloadFields, only, stringField_object, uint64Field,
      unsignedField_object, proper, valid, List.lookup_cons, Option.filter_some, phase]
  case processExitConfirmed.processExitConfirmed p =>
    have mode : parseMode (validatedName p.completionMode completionModeNames) = some p.completionMode := by
      cases mode : p.completionMode <;>
        first | decide +kernel | exact absurd mode valid.1.1 | exact absurd mode valid.1.2
    simp [parseCandidatePayload, parseProcessExitConfirmedPayload, payloadFields, only, stringField_object, proper,
      valid, List.lookup_cons, mode]
  case terminalOutcomeCommitted.terminalOutcome p =>
    have outcome : parseOutcome (validatedName p.outcome outcomeNames) = some p.outcome := by
      cases outcome : p.outcome <;> first | decide +kernel | exact absurd outcome valid
    simp [parseCandidatePayload, parseTerminalOutcomePayload, payloadFields, only, stringField_object, proper, outcome]
  case workerCompleted.workerEvent p | workerFailed.workerEvent p =>
    simp [parseCandidatePayload, parseWorkerEventPayload, payloadFields, only, stringField_object, uint64Field,
      unsignedField_object, proper, valid, List.lookup_cons, Option.filter_some]
  case workerRunning.workerRunning p =>
    simp [parseCandidatePayload, parseWorkerRunningPayload, payloadFields, only, stringField_object, proper, valid]
  case sessionRetainRequested.session p | sessionRetained.session p =>
    simp [parseCandidatePayload, parseSessionPayload, payloadFields, only, stringField_object, proper, valid]
  case finalizationCompleted.empty | finalizationFailed.empty =>
    simp [parseCandidatePayload, parseEmptyPayload, payloadFields, only]
  case resourcesReleased.resourcesReleased p =>
    simp [parseCandidatePayload, parseResourcesReleasedPayload, payloadFields, only, stringField_object, proper,
      valid, List.lookup_cons]
  case cleanupStatusRecorded.cleanupStatus p =>
    have different : text "incomplete" ≠ text "completed" := by decide
    obtain ⟨status⟩ := p
    have written : status = .completed ∧ validatedName status cleanupNames = text "completed" ∨
        status = .incomplete ∧ validatedName status cleanupNames = text "incomplete" := by
      cases status <;> first | decide +kernel | exact absurd rfl valid.1 | exact absurd rfl valid.2
    rcases written with ⟨rfl, name⟩ | ⟨rfl, name⟩ <;> simp only [name] at only <;>
      simp [parseCandidatePayload, parseCleanupStatusPayload, payloadFields, only, stringField_object, proper, name,
        different]
  case workerLaunchIntent.workerLaunchIntent p =>
    have nested := @hasOnly_object [("application_id", string p.applicationId.value),
      ("version", string p.applicationVersion), ("bundle_sha256", string p.bundleSha256.value)] _ rfl
    simp only [List.map_cons, List.map_nil] at nested
    simp [parseCandidatePayload, parseWorkerLaunchIntentPayload, payloadFields, only, nested, stringField_object,
      objectField_object, proper, fixedKeys_writable.2.1.proper, valid, List.lookup_cons]
  case resourcesCommitted.resourcesCommitted p =>
    have nested := @hasOnly_object [("schema_id", string p.schemaId.value),
      ("schema_version", .number p.schemaVersion.toUInt64), ("payload_utf8", string p.payloadUtf8)] _ rfl
    simp only [List.map_cons, List.map_nil] at nested
    obtain ⟨⟨⟨⟨⟨allocation, digest⟩, schema⟩, version⟩, parsed⟩, hash⟩ := valid
    simp [parseCandidatePayload, parseResourcesCommittedPayload, payloadFields, only, nested, stringField_object,
      objectField_object, unsignedField_object, proper, fixedKeys_writable.1.proper, List.lookup_cons, allocation, digest,
      schema, toUInt64_ne_zero version, toUInt64_le, parsed, hash]

theorem normalizeCandidate_eq_ok_iff {lib : Libraries} {s : Snapshot} {raw : RawCandidateEvent} {e : InternalEvent} :
    normalizeCandidate lib s raw = .ok e ↔
      (raw.schemaVersion = 1 ∧ raw.jobId = s.jobId ∧ isUuid7 raw.jobId = true) ∧
        ∃ type json payload, parseEvent raw.eventType = some type ∧ type ≠ .cancelAccepted ∧
          type ≠ .terminateAccepted ∧ parseJson lib raw.payloadJson = some json ∧
          parseCandidatePayload lib type json raw.jobId = some payload ∧ e = ⟨1, s.jobId, type, payload⟩ := by
  rw [normalizeCandidate]
  split
  next refused =>
    simp only [rejectCandidate, reduceCtorEq, false_iff, not_and]
    rintro ⟨version, job, canonical⟩
    simp [version, job] at refused
    rw [job, refused] at canonical
    cases canonical
  next given =>
    simp only [Bool.or_eq_true, not_or, decide_eq_true_eq, Bool.not_eq_true', Bool.not_eq_false, ne_eq, not_not,
      and_assoc] at given
    rw [and_iff_right given]
    cases parseEvent raw.eventType with
    | none => simp [rejectCandidate]
    | some type =>
        cases parseJson lib raw.payloadJson with
        | none => cases type <;> simp [rejectCandidate]
        | some json =>
            cases parsed : parseCandidatePayload lib type json raw.jobId with
            | none => cases type <;> simp [rejectCandidate, parsed]
            | some payload => cases type <;> simp [rejectCandidate, parsed] <;> exact eq_comm

theorem holds_of_stringField {json : Json} {key s : Bytes} (read : stringField json key = some s) : json.Holds s := by
  unfold stringField at read
  split at read
  next found =>
    cases read
    exact .of_find found .string
  next => cases read

theorem parsed_textWellFormed {lib : Libraries} {type : EventType} {json : Json} {job : Uuid}
    {payload : EventPayload} (strings : ∀ s, json.Holds s → Utf8.WellFormed s)
    (agrees : payloadMatches type payload = true)
    (parsed : parseCandidatePayload lib type json job = some payload) : TextWellFormed payload := by
  cases type <;> cases payload <;> cases agrees
  case resourcesCommitted.resourcesCommitted p =>
    simp only [parseCandidatePayload, parseResourcesCommittedPayload, Option.bind_eq_bind, Option.bind_eq_some_iff]
      at parsed
    obtain ⟨_, _, _, _, _, _, _, _, _, _, resolved, nested, _, _, _, _, _, _, _, _, _, _, s, held, _, _, _, _, made⟩ :=
      parsed
    cases made
    exact strings s (.of_find (Option.filter_eq_some_iff.1 nested).1 (holds_of_stringField held))
  all_goals trivial

theorem normalized_textWellFormed {lib : Libraries} {s : Snapshot} {raw : RawCandidateEvent} {e : InternalEvent}
    (agrees : payloadMatches e.eventType e.payload = true) (normalized : normalizeCandidate lib s raw = .ok e) :
    TextWellFormed e.payload := by
  obtain ⟨-, type, json, payload, -, -, -, read, parsed, rfl⟩ := normalizeCandidate_eq_ok_iff.1 normalized
  refine parsed_textWellFormed (fun s holds => ?_) agrees parsed
  unfold parseJson at read
  split at read
  next => cases read
  next => exact lib.json.parse_utf8 _ _ s read holds

theorem parseJson_render (lib : Libraries) {t : Tree} (valid : t.Valid) : parseJson lib t.render = some t.value := by
  have noNul : t.render.contains 0 = false := by
    rw [← Bool.not_eq_true, List.contains_iff_mem]
    intro inside
    exact absurd (t.printable valid _ inside) (by decide)
  have read := lib.json.parse_render t [] valid (by simp)
  rw [List.append_nil] at read
  rw [parseJson, noNul]
  exact read

theorem payload_valid {e : LogicalJobEvent} (accepted : payloadViolation e = none) :
    (object (payloadFields e.eventType e.payload)).Valid :=
  object_valid (payloadFields_keys (payloadMatches_of_violation accepted) ▸ (payloadKeys_writable _).proper)
    (payloadFields_valid accepted)

theorem payloadJson_parses (lib : Libraries) {record : LogicalJobEvent} {bytes : Bytes}
    (encoded : encodeRecord record = .ok bytes) : ∃ json, payloadJson lib record = some json ∧
      parseJson lib json = some (object (payloadFields record.eventType record.payload)).value := by
  obtain ⟨accepted, rfl, -⟩ := encodeRecord_eq_ok_iff.1 encoded
  have payload := payloadViolation_of_violation accepted
  have agrees := payloadMatches_of_violation payload
  have parsed : lib.json.parse (emit record) = some (recordTree record).value := by
    rw [emit_eq agrees]
    exact lib.json.parse_render _ [0x0A] (recordTree_valid accepted) (by simp [isJsonSpace])
  have found : (recordTree record).value.find (text "payload") =
      some (object (payloadFields record.eventType record.payload)).value :=
    find_object fixedKeys_writable.2.2.proper rfl
  obtain ⟨printed, printedValid, same, dumped⟩ := lib.json.dump_render _ (payload_valid payload)
  refine ⟨printed.render, ?_, ?_⟩
  · simp [payloadJson, encoded, parsed, found, dumped]
  · rw [parseJson_render lib printedValid, same]

theorem normalizeCandidate_readBack {lib : Libraries} {s : Snapshot} {type : EventType} {payload : EventPayload}
    {json : Bytes} (candidate : isCandidate type = true) (canonical : isUuid7 s.jobId = true)
    (valid : validInternalPayload lib type payload s.jobId = true)
    (read : parseJson lib json = some (object (payloadFields type payload)).value) :
    normalizeCandidate lib s ⟨1, s.jobId, type.toText, json⟩ = .ok ⟨1, s.jobId, type, payload⟩ := by
  have named : parseEvent type.toText = some type ∧ type ≠ .cancelAccepted ∧ type ≠ .terminateAccepted := by
    cases type <;> first | cases candidate; done | decide
  exact normalizeCandidate_eq_ok_iff.2 ⟨⟨rfl, rfl, canonical⟩, type, _, payload, named.1, named.2.1, named.2.2, read,
    parseCandidatePayload_readBack candidate valid, rfl⟩

end Sitometron.Journal
