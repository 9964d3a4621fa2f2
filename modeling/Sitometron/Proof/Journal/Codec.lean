import Sitometron.Lib.JsonReference
import Sitometron.Proof.Journal.Emission
import Sitometron.Proof.Journal.Lexical

/-!
# The codec is a bijection onto its image
-/

namespace Sitometron.Journal

open Core JsonText

def Proper (keys : List String) : Prop := (keys.map text).Nodup ∧ ∀ key ∈ keys, ∀ b ∈ text key, b ≤ 0x7F

instance (keys : List String) : Decidable (Proper keys) :=
  @instDecidableAnd _ _ (List.nodupDecidable _) (@List.decidableBAll _ _ (fun key => List.decidableBAll _ (text key)) keys)

/-- Member names that a reader tells apart and that are short when written. -/
structure Writable (keys : List String) : Prop where
  proper : Proper keys
  short : ∀ key ∈ keys, (text key).length ≤ 32

instance (keys : List String) : Decidable (Writable keys) :=
  decidable_of_iff (Proper keys ∧ ∀ key ∈ keys, (text key).length ≤ 32)
    ⟨fun both => ⟨both.1, both.2⟩, fun writable => ⟨writable.proper, writable.short⟩⟩

section Objects

variable {fields : List (String × Tree)}

theorem mem_of_lookup {key : String} {t : Tree} (found : fields.lookup key = some t) : (key, t) ∈ fields := by
  induction fields with
  | nil => cases found
  | cons field fields ih =>
      rw [List.lookup_cons] at found
      split at found
      next same =>
        cases found
        exact (beq_iff_eq.1 same) ▸ List.mem_cons_self
      next => exact List.mem_cons_of_mem _ (ih found)

theorem members_values : (members fields).values = fields.map fun f => (text f.1, f.2.value) := by
  induction fields with
  | nil => rfl
  | cons field fields ih => simp [members, Members.values, ih]

theorem object_valid (proper : Proper (fields.map (·.1))) (values : ∀ f ∈ fields, f.2.Valid) :
    (object fields).Valid := by
  have each : ∀ f ∈ fields, ValidString (pieces (text f.1)) := fun f member =>
    valid_pieces (wellFormed_of_ascii (proper.2 f.1 (List.mem_map_of_mem member)))
  clear proper
  rw [object, Tree.Valid]
  induction fields with
  | nil => trivial
  | cons field fields ih =>
      exact ⟨each _ List.mem_cons_self, values _ List.mem_cons_self,
        ih (fun f member => values f (List.mem_cons_of_mem _ member))
          (fun f member => each f (List.mem_cons_of_mem _ member))⟩

theorem object_keys (proper : Proper (fields.map (·.1))) :
    ((fields.map fun f => (text f.1, f.2.value)).map (·.1)).Nodup := by
  simpa [Function.comp_def] using proper.1

theorem find_object {key : String} {t : Tree} (proper : Proper (fields.map (·.1)))
    (found : fields.lookup key = some t) : (object fields).value.find (text key) = some t.value := by
  have member : (text key, t.value) ∈ fields.map fun f => (text f.1, f.2.value) :=
    List.mem_map.2 ⟨(key, t), mem_of_lookup found, rfl⟩
  rw [object, Tree.value, members_values]
  exact Json.find_ofMembers (object_keys proper) member

theorem get_object {α : Type} {key : String} {select : Json → Option α} (proper : Proper (fields.map (·.1)))
    (present : (fields.lookup key).isSome = true) :
    Reader.get (object fields).value key select =
      match (fields.lookup key).bind fun t => select t.value with
      | none => .error (key ++ " has the wrong type")
      | some a => .ok a := by
  obtain ⟨t, found⟩ := Option.isSome_iff_exists.1 present
  rw [Reader.get, find_object proper found, found]
  cases selected : select t.value <;> simp [selected]

theorem checkMemberCount_object (proper : Proper (fields.map (·.1))) (expected : Nat) :
    Reader.checkMemberCount (object fields).value expected =
      if fields.length ≠ expected then .error "unexpected member" else .ok () := by
  rw [Reader.checkMemberCount, object, Tree.value, members_values,
    Json.length_memberKeys_ofMembers (object_keys proper), List.length_map]

theorem ok_bind {α β ε : Type} (a : α) (f : α → Except ε β) : (Except.ok a >>= f) = f a := rfl

@[simp] theorem object_isObject : (object fields).value.isObject = true := rfl

end Objects

theorem firstViolation_eq_none {checks : List (Bool × String)} :
    firstViolation checks = none ↔ ∀ check ∈ checks, check.1 = true := by
  simp [firstViolation]

theorem payloadMatches_of_violation {e : LogicalJobEvent} (none : payloadViolation e = none) :
    payloadMatches e.eventType e.payload = true := by
  obtain ⟨version, sequence, type, recordedAt, job, payload⟩ := e
  cases type <;> cases payload <;> first | rfl | cases none

@[simp] theorem string_asString (s : Bytes) : (string s).value.asString = some s := by
  simp [string, Tree.value, Json.asString]

@[simp] theorem number_asUnsigned (n : UInt64) : (Tree.number n).value.asUnsigned = some n := rfl

@[simp] theorem object_asObject (fields : List (String × Tree)) :
    (object fields).value.asObject = some (object fields).value := rfl

theorem toUInt64_le (v : UInt32) : v.toUInt64 ≤ 0xFFFFFFFF := by
  have := v.toNat_lt
  rw [UInt64.le_iff_toNat_le, UInt32.toNat_toUInt64]
  simp
  omega

theorem toUInt64_ne_zero {v : UInt32} (nonzero : v ≠ 0) : v.toUInt64 ≠ 0 := by
  intro zero
  have := congrArg UInt64.toNat zero
  rw [UInt32.toNat_toUInt64] at this
  exact nonzero (UInt32.toNat_inj.1 this)

theorem u32_object {fields : List (String × Tree)} {key : String} {v : UInt32}
    (proper : Proper (fields.map (·.1))) (found : fields.lookup key = some (.number v.toUInt64)) :
    Reader.u32 (object fields).value key = .ok v := by
  have narrow : ¬v.toUInt64 > 0xFFFFFFFF := UInt64.not_lt.2 (toUInt64_le v)
  rw [Reader.u32, Reader.u64, get_object proper (by simp [found]), found]
  simp [ok_bind, narrow, pure, Except.pure]

theorem phase_closed {v : TimeoutPhase} (listed : (nameOf v phaseNames).isSome = true) :
    valueOf (validatedName v phaseNames) phaseNames = some v := by
  cases v <;> first | rfl | cases listed

theorem completionMode_closed {v : CompletionMode} (listed : (nameOf v completionModeNames).isSome = true) :
    valueOf (validatedName v completionModeNames) completionModeNames = some v := by
  cases v <;> first | rfl | cases listed

theorem outcome_closed {v : TerminalOutcome} (listed : (nameOf v outcomeNames).isSome = true) :
    valueOf (validatedName v outcomeNames) outcomeNames = some v := by
  cases v <;> first | rfl | cases listed

theorem cleanup_closed {v : CleanupStatus} (listed : (nameOf v cleanupNames).isSome = true) :
    valueOf (validatedName v cleanupNames) cleanupNames = some v := by
  cases v <;> first | rfl | cases listed

theorem lateOriginal_closed {v : EventType} (listed : (nameOf v lateOriginalNames).isSome = true) :
    valueOf (validatedName v lateOriginalNames) lateOriginalNames = some v := by
  cases v <;> first | rfl | cases listed

theorem eventTypeOf_toText {type : EventType} (closed : type ≠ .invalid) :
    eventTypeOf type.toText = some type := by
  cases type <;> first | rfl | exact absurd rfl closed

def payloadKeys : EventType → List String
  | .jobCreated | .sessionRetainRequested | .sessionRetained => ["session_id"]
  | .resourcesCommitted => ["allocation_id", "allocation_digest", "resolved_allocation"]
  | .workerLaunchIntent => ["operation_id", "application", "allocation_id", "allocation_digest", "worker_id"]
  | .workerLaunchObserved => ["operation_id", "outcome"]
  | .workerRunning => ["worker_id"]
  | .cancelAccepted | .terminateAccepted => ["principal_subject"]
  | .timeoutExpired => ["phase", "timer_generation"]
  | .workerCompleted | .workerFailed => ["worker_id", "event_sequence"]
  | .processExitConfirmed => ["completion_mode", "launch_operation_id"]
  | .terminalOutcomeCommitted => ["outcome"]
  | .resourcesReleased => ["allocation_id", "allocation_digest"]
  | .cleanupStatusRecorded => ["status"]
  | .lateWorkerEvent => ["original_event_type", "worker_id", "event_sequence"]
  | .finalizationCompleted | .finalizationFailed | .invalid => []

theorem payloadKeys_writable (type : EventType) : Writable (payloadKeys type) := by
  cases type <;> decide +kernel

theorem fixedKeys_writable : Writable ["schema_id", "schema_version", "payload_utf8"] ∧
    Writable ["application_id", "version", "bundle_sha256"] ∧
    Writable ["schema_version", "sequence", "event_type", "recorded_at", "job_id", "payload"] := by decide +kernel

theorem payload_readBack {e : LogicalJobEvent} (accepted : payloadViolation e = none) :
    payloadFromJson e.eventType (object (payloadFields e.eventType e.payload)).value = .ok e.payload := by
  have agrees := payloadMatches_of_violation accepted
  have proper := (payloadKeys_writable e.eventType).proper
  obtain ⟨version, sequence, type, recordedAt, job, payload⟩ := e
  cases type <;> cases payload <;> cases agrees <;> dsimp only [payloadKeys] at proper
  case resourcesCommitted.resourcesCommitted p =>
    have version := @u32_object [("schema_id", string p.schemaId.value),
      ("schema_version", .number p.schemaVersion.toUInt64), ("payload_utf8", string p.payloadUtf8)]
      "schema_version" p.schemaVersion fixedKeys_writable.1.proper rfl
    simp [payloadFromJson, payloadFields, Reader.str, version, Reader.nested, Reader.readNested, List.lookup_cons,
      get_object, checkMemberCount_object, proper, fixedKeys_writable.1.proper, ok_bind, pure, Except.pure, Except.mapError]
  case workerLaunchIntent.workerLaunchIntent p =>
    simp [payloadFromJson, payloadFields, Reader.str, Reader.nested, Reader.readNested, List.lookup_cons,
      get_object, checkMemberCount_object, proper, fixedKeys_writable.2.1.proper, ok_bind, pure, Except.pure, Except.mapError]
  case workerLaunchObserved.workerLaunchObserved p =>
    have different : text "failed" ≠ text "started" := by decide
    obtain ⟨operation, started⟩ := p
    cases started <;>
      simp [payloadFromJson, payloadFields, Reader.str, List.lookup_cons, get_object, checkMemberCount_object, proper,
        ok_bind, pure, Except.pure, different]
  case timeoutExpired.timeoutExpired p =>
    have listed := phase_closed (firstViolation_eq_none.1 accepted _ List.mem_cons_self)
    simp [payloadFromJson, payloadFields, Reader.closedValue, Reader.str, Reader.u64, List.lookup_cons, get_object,
      checkMemberCount_object, proper, ok_bind, pure, Except.pure, listed]
  case processExitConfirmed.processExitConfirmed p =>
    have listed := completionMode_closed (firstViolation_eq_none.1 accepted _ List.mem_cons_self)
    simp [payloadFromJson, payloadFields, Reader.closedValue, Reader.str, List.lookup_cons, get_object,
      checkMemberCount_object, proper, ok_bind, pure, Except.pure, listed]
  case terminalOutcomeCommitted.terminalOutcome p =>
    have listed := outcome_closed (firstViolation_eq_none.1 accepted _ List.mem_cons_self)
    simp [payloadFromJson, payloadFields, Reader.closedValue, Reader.str, get_object,
      checkMemberCount_object, proper, ok_bind, pure, Except.pure, listed]
  case cleanupStatusRecorded.cleanupStatus p =>
    have listed := cleanup_closed (firstViolation_eq_none.1 accepted _ List.mem_cons_self)
    simp [payloadFromJson, payloadFields, Reader.closedValue, Reader.str, get_object,
      checkMemberCount_object, proper, ok_bind, pure, Except.pure, listed]
  case lateWorkerEvent.lateWorkerEvent p =>
    have listed := lateOriginal_closed (firstViolation_eq_none.1 accepted _ List.mem_cons_self)
    simp [payloadFromJson, payloadFields, Reader.closedValue, Reader.str, Reader.u64, List.lookup_cons, get_object,
      checkMemberCount_object, proper, ok_bind, pure, Except.pure, listed]
  all_goals
    simp [payloadFromJson, payloadFields, Reader.str, Reader.u64, List.lookup_cons, get_object,
      checkMemberCount_object, proper, ok_bind, pure, Except.pure]

theorem violation_eq_none {e : LogicalJobEvent} :
    violation e = none ↔ e.schemaVersion = 1 ∧ 1 ≤ e.sequence ∧ isRfc3339 e.recordedAt = true ∧
      isUuid e.jobId.value (byte '7') = true ∧ payloadViolation e = none := by
  rw [violation, Option.or_eq_none_iff, firstViolation_eq_none]
  simp only [List.forall_mem_cons, List.not_mem_nil, false_implies, implies_true, and_true, decide_eq_true_eq,
    and_assoc]

theorem payloadViolation_of_violation {e : LogicalJobEvent} (accepted : violation e = none) :
    payloadViolation e = none := (violation_eq_none.1 accepted).2.2.2.2

theorem event_readBack {e : LogicalJobEvent} (accepted : violation e = none) :
    eventFromJson (recordTree e).value = .ok e := by
  have payload := payloadViolation_of_violation accepted
  have closed : e.eventType ≠ .invalid := by
    intro invalid
    simp [payloadViolation, invalid] at payload
  have version := @u32_object (recordFields e) "schema_version" e.schemaVersion fixedKeys_writable.2.2.proper rfl
  have read := payload_readBack payload
  simp only [recordFields] at version
  simp [eventFromJson, recordTree, recordFields, version, Reader.str, Reader.u64, Reader.nested, List.lookup_cons,
    get_object, checkMemberCount_object, fixedKeys_writable.2.2.proper, envelopeMembers, ok_bind, pure, Except.pure,
    eventTypeOf_toText closed, read]

theorem string_valid {s : Bytes} (wellFormed : Utf8.WellFormed s) : (string s).Valid := valid_pieces wellFormed

theorem uuid_valid {s : Bytes} {version : UInt8} (ascii : version ≤ 0x7F) (accepted : isUuid s version = true) :
    (string s).Valid := string_valid (isUuid_wellFormed ascii accepted)

theorem stableId_valid {s : Bytes} (accepted : isStableId s = true) : (string s).Valid :=
  string_valid (isStableId_wellFormed accepted)

theorem sha256_valid {s : Bytes} (accepted : isSha256 s = true) : (string s).Valid :=
  string_valid (isSha256_wellFormed accepted)

theorem bounded_valid {s : Bytes} {maxChars : Nat} (accepted : boundedText s maxChars = true) :
    (string s).Valid := string_valid (boundedText_wellFormed accepted)

theorem codePoints_valid {s : Bytes} (accepted : (utf8CodePoints s).isSome = true) : (string s).Valid :=
  string_valid (Utf8.wellFormed_iff.2 (utf8CodePoints_eq s ▸ accepted))

theorem literal_valid {s : Bytes} (ascii : s.all (· ≤ 0x7F) = true) : (string s).Valid :=
  string_valid (wellFormed_of_ascii (by simpa using ascii))

theorem payloadFields_keys {type : EventType} {payload : EventPayload}
    (agrees : payloadMatches type payload = true) :
    (payloadFields type payload).map (·.1) = payloadKeys type := by
  cases type <;> cases payload <;> cases agrees <;> rfl

theorem payloadFields_valid {e : LogicalJobEvent} (accepted : payloadViolation e = none) :
    ∀ f ∈ payloadFields e.eventType e.payload, f.2.Valid := by
  have agrees := payloadMatches_of_violation accepted
  obtain ⟨version, sequence, type, recordedAt, job, payload⟩ := e
  have ascii7 : byte '7' ≤ 0x7F := by decide
  have ascii4 : byte '4' ≤ 0x7F := by decide
  cases type <;> cases payload <;> cases agrees <;>
    simp only [payloadViolation, firstViolation_eq_none, List.forall_mem_cons, List.not_mem_nil, false_implies,
      implies_true, and_true] at accepted <;>
    simp only [payloadFields, List.forall_mem_cons, List.not_mem_nil, false_implies, implies_true, and_true]
  case resourcesCommitted.resourcesCommitted p =>
    obtain ⟨allocation, digest, schema, -, -, utf8⟩ := accepted
    refine ⟨stableId_valid allocation, sha256_valid digest, object_valid fixedKeys_writable.1.proper ?_⟩
    simp only [List.forall_mem_cons, List.not_mem_nil, false_implies, implies_true, and_true]
    exact ⟨stableId_valid schema, trivial, codePoints_valid utf8⟩
  case workerLaunchIntent.workerLaunchIntent p =>
    obtain ⟨operation, application, bounded, bundle, allocation, digest, worker⟩ := accepted
    refine ⟨stableId_valid operation, object_valid fixedKeys_writable.2.1.proper ?_, stableId_valid allocation,
      sha256_valid digest, uuid_valid ascii4 worker⟩
    simp only [List.forall_mem_cons, List.not_mem_nil, false_implies, implies_true, and_true]
    exact ⟨stableId_valid application, bounded_valid bounded, sha256_valid bundle⟩
  case workerLaunchObserved.workerLaunchObserved p =>
    refine ⟨stableId_valid accepted, ?_⟩
    cases p.started <;> exact literal_valid rfl
  case jobCreated.jobCreated | sessionRetainRequested.session | sessionRetained.session =>
    exact uuid_valid ascii7 accepted
  case workerRunning.workerRunning => exact uuid_valid ascii4 accepted
  case cancelAccepted.principal | terminateAccepted.principal => exact bounded_valid accepted
  case timeoutExpired.timeoutExpired p =>
    refine ⟨?_, trivial⟩
    cases p.phase <;> exact literal_valid rfl
  case workerCompleted.workerEvent | workerFailed.workerEvent => exact ⟨uuid_valid ascii4 accepted.1, trivial⟩
  case processExitConfirmed.processExitConfirmed p =>
    refine ⟨?_, stableId_valid accepted.2⟩
    cases p.completionMode <;> exact literal_valid rfl
  case terminalOutcomeCommitted.terminalOutcome p => cases p.outcome <;> exact literal_valid rfl
  case resourcesReleased.resourcesReleased => exact ⟨stableId_valid accepted.1, sha256_valid accepted.2⟩
  case cleanupStatusRecorded.cleanupStatus p => cases p.status <;> exact literal_valid rfl
  case lateWorkerEvent.lateWorkerEvent p =>
    refine ⟨?_, uuid_valid ascii4 accepted.2.1, trivial⟩
    cases p.originalEventType <;> exact literal_valid rfl

theorem recordTree_valid {e : LogicalJobEvent} (accepted : violation e = none) : (recordTree e).Valid := by
  obtain ⟨-, -, recordedAt, job, payload⟩ := violation_eq_none.1 accepted
  have keys := payloadFields_keys (payloadMatches_of_violation payload)
  refine object_valid fixedKeys_writable.2.2.proper ?_
  simp only [recordFields, List.forall_mem_cons, List.not_mem_nil, false_implies, implies_true, and_true]
  refine ⟨trivial, trivial, ?_, string_valid (isRfc3339_wellFormed recordedAt), uuid_valid (by decide) job,
    object_valid (keys ▸ (payloadKeys_writable _).proper) (payloadFields_valid payload)⟩
  cases e.eventType <;> exact literal_valid rfl

theorem encodeRecord_eq_ok_iff {e : LogicalJobEvent} {record : Bytes} :
    encodeRecord e = .ok record ↔ violation e = none ∧ emit e = record ∧ record.length ≤ maxRecordBytes := by
  rw [encodeRecord]
  cases violation e with
  | some detail => simp
  | none =>
      by_cases long : (emit e).length > maxRecordBytes
      · simp only [long, if_true, reduceCtorEq, true_and, false_iff, not_and, not_le]
        rintro rfl
        exact long
      · simp only [long, if_false, Except.ok.injEq, true_and]
        constructor
        · rintro rfl
          exact ⟨rfl, by omega⟩
        · rintro ⟨rfl, -⟩
          rfl

theorem decodeRecord_encoded (json : JsonLibrary) {e : LogicalJobEvent} {record : Bytes}
    (encoded : encodeRecord e = .ok record) : decodeRecord json record = .ok e := by
  obtain ⟨accepted, rfl, small⟩ := encodeRecord_eq_ok_iff.1 encoded
  have valid := recordTree_valid accepted
  have written := emit_eq (payloadMatches_of_violation (payloadViolation_of_violation accepted))
  have oneLine : (recordTree e).render.contains 0x0A = false := by
    rw [← Bool.not_eq_true, List.contains_iff_mem]
    intro inside
    exact absurd ((recordTree e).printable valid _ inside) (by decide)
  have parsed : json.parse (recordTree e).render = some (recordTree e).value := by
    simpa using json.parse_render (recordTree e) [] valid (by simp)
  rw [decodeRecord, if_neg (not_lt.2 small), written]
  simp only [List.getLast?_concat, ne_eq, not_true_eq_false, if_false, List.dropLast_concat, oneLine,
    Bool.false_eq_true, parsed, event_readBack accepted, accepted, written]

theorem encodeRecord_decoded {json : JsonLibrary} {e : LogicalJobEvent} {record : Bytes}
    (decoded : decodeRecord json record = .ok e) : encodeRecord e = .ok record := by
  rw [decodeRecord] at decoded
  split at decoded
  next => cases decoded
  next small =>
  split at decoded
  next => cases decoded
  split at decoded
  next => cases decoded
  split at decoded
  next => cases decoded
  split at decoded
  next => cases decoded
  split at decoded
  next => cases decoded
  next accepted =>
  split at decoded
  next => cases decoded
  next canonical =>
  cases decoded
  exact encodeRecord_eq_ok_iff.2 ⟨accepted, not_not.1 canonical, not_lt.1 small⟩

/-- The codec is a bijection between the encodable events and the records the decoder accepts. -/
theorem codec_bijective (json : JsonLibrary) :
    (∀ e record, encodeRecord e = .ok record → decodeRecord json record = .ok e) ∧
      (∀ record e, decodeRecord json record = .ok e → encodeRecord e = .ok record) ∧
      (∀ e e' record, encodeRecord e = .ok record → encodeRecord e' = .ok record → e = e') ∧
      ∀ record, (∃ e, decodeRecord json record = .ok e) ↔ ∃ e, encodeRecord e = .ok record := by
  refine ⟨fun e record => decodeRecord_encoded json, fun record e => encodeRecord_decoded, ?_, ?_⟩
  · intro e e' record first second
    have same := (decodeRecord_encoded json first).symm.trans (decodeRecord_encoded json second)
    exact Except.ok.inj same
  · exact fun record => exists_congr fun e => ⟨encodeRecord_decoded, decodeRecord_encoded json⟩

/-- A principal with a null byte, a control character, both escapes and a character of two bytes. -/
def sampleEvent : LogicalJobEvent where
  schemaVersion := 1
  sequence := 0xFFFFFFFFFFFFFFFF
  eventType := .cancelAccepted
  recordedAt := text "2026-01-31T23:59:59.5+09:00"
  jobId := ⟨text "01890000-0000-7000-8000-000000000001"⟩
  payload := .principal ⟨[0x00, 0x1F, 0x22, 0x5C, 0xC3, 0xA9]⟩

theorem codec_bijective_sample :
    ∃ record, encodeRecord sampleEvent = .ok record ∧
      decodeRecord JsonReference.library record = .ok sampleEvent := by
  have encoded : encodeRecord sampleEvent = .ok (emit sampleEvent) := by decide +kernel
  exact ⟨_, encoded, (codec_bijective JsonReference.library).1 _ _ encoded⟩

end Sitometron.Journal
