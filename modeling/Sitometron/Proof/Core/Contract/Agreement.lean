import Sitometron.Core.Contract
import Sitometron.Proof.Core.Invariant

/-!
# Agreement of the code with a row of the contract
-/

namespace Sitometron.Core.Contract

theorem evaluate_cons (c : Case) (cases : List Case) (v : View) (event : InternalEvent) :
    evaluate (c :: cases) v event =
      if c.guards.all (Predicate.holds v event.payload) then some (c.verdict v event)
      else evaluate cases v event := by
  simp only [evaluate, List.find?_cons]
  cases c.guards.all (Predicate.holds v event.payload) <;> rfl

attribute [simp] Predicate.holds Operand.value view payloadView bound exitIs phaseIs latchedFailure
  successCandidate

@[simp] theorem optional_stable {id : Option StableId} {other : StableId} :
    Value.text other.value = optional (fun id => .text id.value) id ↔ id = some other := by
  cases id <;> simp [optional, StableId.ext_iff, eq_comm]

@[simp] theorem optional_digest {digest : Option Digest} {other : Digest} :
    Value.text other.value = optional (fun digest => .text digest.value) digest ↔ digest = some other := by
  cases digest <;> simp [optional, Digest.ext_iff, eq_comm]

@[simp] theorem optional_uuid {id : Option Uuid} {other : Uuid} :
    Value.text other.value = optional (fun id => .text id.value) id ↔ id = some other := by
  cases id <;> simp [optional, Uuid.ext_iff, eq_comm]

@[simp] theorem optional_outcome {reason : Option TerminalOutcome} {value : TerminalOutcome} :
    optional Value.outcome reason = .outcome value ↔ reason = some value := by
  cases reason <;> simp [optional]

@[simp] theorem optional_null {reason : Option TerminalOutcome} :
    optional Value.outcome reason = .null ↔ reason = none := by
  cases reason <;> simp [optional]

theorem mode_eq {recorded mode : CompletionMode} (closed : mode ≠ .none) :
    Value.mode mode = (if recorded = .none then .null else .mode recorded) ↔ recorded = mode := by
  split
  next none => simp [none, closed.symm]
  next => simp [eq_comm]

theorem optional_injective {α : Type} {wrap : α → Value} (injective : ∀ a b, wrap a = wrap b → a = b)
    (proper : ∀ a, wrap a ≠ .null) {a b : Option α} (same : optional wrap a = optional wrap b) : a = b := by
  cases a <;> cases b
  case none.none => rfl
  case none.some b => exact absurd same.symm (proper b)
  case some.none a => exact absurd same (proper a)
  case some.some a b => exact congrArg some (injective a b same)

theorem view_injective {s t : Snapshot} (same : view s = view t) : s = t := by
  have field := congrFun same
  apply Snapshot.ext
  case schemaVersion =>
    have wide : s.schemaVersion.toUInt64 = t.schemaVersion.toUInt64 := by simpa using field .schemaVersion
    simpa using congrArg UInt64.toUInt32 wide
  case jobId => exact Uuid.ext (by simpa using field .jobId)
  case sessionId => exact Uuid.ext (by simpa using field .sessionId)
  case completionCandidate =>
    have candidate := field .completionCandidate
    cases left : s.completionCandidate <;> cases right : t.completionCandidate <;>
      simp [left, right] at candidate ⊢
  case completionMode =>
    have mode := field .completionMode
    cases left : s.completionMode <;> cases right : t.completionMode <;> simp [left, right] at mode ⊢
  case latchedReason =>
    exact optional_injective (fun _ _ => Value.outcome.inj) nofun (field .latchedReason)
  case allocationId =>
    exact optional_injective (fun _ _ h => StableId.ext (Value.text.inj h)) nofun (field .allocationId)
  case allocationDigest =>
    exact optional_injective (fun _ _ h => Digest.ext (Value.text.inj h)) nofun (field .allocationDigest)
  case launchOperationId =>
    exact optional_injective (fun _ _ h => StableId.ext (Value.text.inj h)) nofun (field .launchOperationId)
  case workerId =>
    exact optional_injective (fun _ _ h => Uuid.ext (Value.text.inj h)) nofun (field .workerId)
  case pendingWorkerId =>
    exact optional_injective (fun _ _ h => Uuid.ext (Value.text.inj h)) nofun (field .pendingWorkerId)
  case pendingWorkerEventSequence =>
    exact optional_injective (fun _ _ => Value.number.inj) nofun (field .pendingWorkerEventSequence)
  case entityExists => exact Value.flag.inj (field .entityExists)
  case state => exact Value.state.inj (field .state)
  case resourceStatus => exact Value.resource.inj (field .resourceStatus)
  case workerLaunchStatus => exact Value.launch.inj (field .workerLaunchStatus)
  case processPresence => exact Value.presence.inj (field .processPresence)
  case processExitConfirmed => exact Value.flag.inj (field .processExitConfirmed)
  case sessionRetentionStatus => exact Value.retention.inj (field .sessionRetentionStatus)
  case finalizationStatus => exact Value.finalization.inj (field .finalizationStatus)
  case cleanupStatus => exact Value.cleanup.inj (field .cleanupStatus)
  case pendingWorkerEventAck => exact Value.flag.inj (field .pendingWorkerEventAck)

def Spells (next : View) (t : Snapshot) : Prop := ∀ u, view u = next ↔ u = t

theorem spells {next : View} {t : Snapshot} (updated : view t = next) : Spells next t := fun _ =>
  ⟨fun same => view_injective (same.trans updated.symm), fun same => same ▸ updated⟩

def Agrees (lib : Libraries) (s : Snapshot) (event : InternalEvent) : Verdict → Prop
  | .reject reason => decideEvent lib s event = reject reason
  | .accept journal payload next effects =>
      decideEvent lib s event = .ok ⟨1, s.jobId, journal, payload⟩ ∧
        ∃ t, Spells next t ∧ apply lib s ⟨1, s.jobId, journal, payload⟩ = ⟨t, effects, none⟩

structure Presented (lib : Libraries) (s : Snapshot) (event : InternalEvent) : Prop where
  valid : validSnapshot s = true
  version : event.schemaVersion = 1
  job : event.jobId = s.jobId
  canonical : isUuid7 event.jobId = true
  payload : validInternalPayload lib event.eventType event.payload event.jobId = true

namespace Presented

variable {lib : Libraries} {s : Snapshot} {event : InternalEvent}

theorem facts (given : Presented lib s event) :
    hasValidSnapshotEnums s = true ∧ hasValidSnapshotOptionalDomains s = true ∧
      hasValidResourceFacts s = true ∧ hasValidStateFacts s = true := by
  have valid := given.valid
  simp only [validSnapshot, Bool.and_eq_true] at valid
  exact ⟨valid.1.1.1.1.1.1.2, valid.1.1.1.1.1.2, valid.1.1.1.1.2, valid.2⟩

theorem closedState (given : Presented lib s event) : s.state ≠ .invalid :=
  (hasValidSnapshotEnums_iff.1 given.facts.1).1

theorem decide_eq (given : Presented lib s event) : decideEvent lib s event =
    if event.eventType = .jobCreated then
      if s.entityExists then reject .jobAlreadyExists else acceptEvent s event
    else if s.entityExists then decideByType s event else reject .jobNotFound := by
  have canonical := given.canonical
  have payload := given.payload
  rw [given.job] at canonical payload
  rw [decideEvent, if_neg (by simp [given.valid]),
    if_neg (by simp [given.version, given.job, canonical, payload])]
  by_cases created : event.eventType = .jobCreated <;> cases present : s.entityExists <;>
    simp [created]

theorem decide_present (given : Presented lib s event) (present : s.entityExists = true)
    (notCreated : event.eventType ≠ .jobCreated) : decideEvent lib s event = decideByType s event := by
  rw [given.decide_eq, if_neg notCreated, if_pos present]

theorem agrees_accept (given : Presented lib s event) (present : s.entityExists = true)
    (notCreated : event.eventType ≠ .jobCreated) {u : Update} {next : View} {effects : List EffectId}
    (decided : decideByType s event = acceptEvent s event)
    (applied : applyAuthorizedEvent s event.eventType event.payload = some u)
    (updated : view u.1 = next) (listed : u.2 = effects) :
    Agrees lib s event (.accept event.eventType event.payload next effects) := by
  have accepted : decideEvent lib s event = .ok ⟨1, s.jobId, event.eventType, event.payload⟩ := by
    rw [given.decide_present present notCreated, decided]
    rfl
  refine ⟨accepted, u.1, spells updated, ?_⟩
  have itself : event = PreEnvelopeProposal.event ⟨1, s.jobId, event.eventType, event.payload⟩ := by
    obtain ⟨version, job, type, payload⟩ := event
    cases given.version
    cases given.job
    rfl
  rw [← listed]
  exact apply_of_authorized (itself ▸ accepted) applied

theorem agrees_reject (given : Presented lib s event) (present : s.entityExists = true)
    (notCreated : event.eventType ≠ .jobCreated) {reason : RejectionReason}
    (decided : decideByType s event = reject reason) : Agrees lib s event (.reject reason) :=
  (given.decide_present present notCreated).trans decided

end Presented

def RowAgrees (lib : Libraries) (s : Snapshot) (event : InternalEvent) (row : List Case) : Prop :=
  ∃ verdict, evaluate row (view s) event = some verdict ∧ Agrees lib s event verdict

namespace RowAgrees

variable {lib : Libraries} {s : Snapshot} {event : InternalEvent} {c : Case} {row : List Case}

theorem cons
    (first : c.guards.all (Predicate.holds (view s) event.payload) = true →
      Agrees lib s event (c.verdict (view s) event))
    (rest : c.guards.all (Predicate.holds (view s) event.payload) = false → RowAgrees lib s event row) :
    RowAgrees lib s event (c :: row) := by
  unfold RowAgrees
  rw [evaluate_cons]
  split
  next holds => exact ⟨_, rfl, first holds⟩
  next fails => exact rest (by simpa using fails)

theorem last (only : Agrees lib s event (c.verdict (view s) event)) (open' : c.guards = []) :
    RowAgrees lib s event [c] :=
  cons (fun _ => only) (fun fails => by simp [open'] at fails)

theorem refused {reason : RejectionReason} (agrees : Agrees lib s event (.reject reason)) :
    RowAgrees lib s event [refuse reason] :=
  last agrees rfl

theorem guarded {guards : List Predicate} {a : Acceptance} {u : Update} {reason : RejectionReason}
    (given : Presented lib s event) (present : s.entityExists = true)
    (notCreated : event.eventType ≠ .jobCreated)
    (decided : decideByType s event = if guards.all (Predicate.holds (view s) event.payload) then
      accept s event.eventType event.payload else reject reason)
    (journal : a.journal = event.eventType) (kept : a.normalize = false)
    (applied : applyAuthorizedEvent s event.eventType event.payload = some u)
    (updated : guards.all (Predicate.holds (view s) event.payload) = true →
      view u.1 = a.next (view s) event.jobId event.payload)
    (listed : u.2 = a.effects) :
    RowAgrees lib s event [{ guards, result := .ok a }, refuse reason] := by
  refine cons (fun holds => ?_) fun fails => refused ?_
  · have accepted := given.agrees_accept present notCreated (decided.trans (if_pos holds)) applied
      (updated holds) listed
    simpa [Case.verdict, journal, kept] using accepted
  · exact given.agrees_reject present notCreated (decided.trans (if_neg (by simp [fails])))

end RowAgrees

end Sitometron.Core.Contract
