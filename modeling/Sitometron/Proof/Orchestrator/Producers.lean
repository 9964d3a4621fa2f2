import Sitometron.Core.Orchestrator.Machine

/-!
# What a producer can do

`Enqueue` and `SubmitShutdown` refuse, fail the service or insert one entry; the other operations move leases, retire an
acknowledged event, seal, or take a completion. Every invariant of the writer is proved from these cases.
-/

namespace Sitometron.Core.Orchestrator

variable {c : Setup} {s : State c} {input : Input} {identity : Option GateIdentity}

structure Admissible (s : State c) (input : Input) : Prop where
  healthy : s.pool.failed = false
  recovered : c.recoveryClosed = false
  unsealed : s.pool.mode ≠ .sealed ∧ s.pool.mode ≠ .stopped
  running : s.isNormal input = true → s.pool.mode = .running
  next : s.nextIngress ≠ 0
  slot : input.isCreation = true → s.isKnown input.jobId = true ∨ s.pool.canReserve = true
  normal : s.isNormal input = true → s.pool.normalCount < c.normalCapacity
  room : s.fifo.isFull = false
  space : s.book.used ≠ c.completionCapacity

inductive AdmissionFault (s : State c) : Fault → Prop
  | destination : c.handoffCapacity = 0 → AdmissionFault s .destinationClosed
  | ingress : s.nextIngress = 0 → AdmissionFault s .ingressExhausted
  | full : s.fifo.isFull = true → AdmissionFault s .fifoFull
  | completions : s.book.used = c.completionCapacity → AdmissionFault s .completionsFull
  | unregistered : AdmissionFault s .unregisteredSource
  | unknown : AdmissionFault s .unknownSource

structure Vacant (s : State c) (input : Input) (i : Slot c) (kind : GateKind) : Prop where
  found : s.pool.find input.jobId = some i
  gate : gateFor input = some kind
  registered : (s.pool.gate i kind).registered = true
  idle : (s.pool.gate i kind).queuedSequence = 0
  quiet : (s.pool.gate i kind).pending = false
  empty : kind = .worker → (s.pool.gate i kind).retained = true → (s.pool.gate i kind).ingressSequence = 0

inductive Occupied (s : State c) (input : Input) (identity : Option GateIdentity) : IngressCode → Nat → Prop
  | coalesced {i : Slot c} {kind : GateKind} : s.pool.find input.jobId = some i → gateFor input = some kind →
      ((s.pool.gate i kind).queuedSequence ≠ 0 ∨ (s.pool.gate i kind).pending = true ∨
        (kind = .worker ∧ (s.pool.gate i kind).retained = true ∧ (s.pool.gate i kind).ingressSequence ≠ 0)) →
      identity.isSome = true → (s.pool.residents i).identitySlots kind = identity →
      Occupied s input identity .coalescedPending (s.pool.gate i kind).ingressSequence
  | already {i : Slot c} {kind : GateKind} : s.pool.find input.jobId = some i → gateFor input = some kind →
      ((s.pool.gate i kind).queuedSequence ≠ 0 ∨ (s.pool.gate i kind).pending = true ∨
        (kind = .worker ∧ (s.pool.gate i kind).retained = true ∧ (s.pool.gate i kind).ingressSequence ≠ 0)) →
      Occupied s input identity .alreadyPending 0

def IngressCode.isPlain : IngressCode → Bool
  | .normalFull | .residentLimit | .admissionClosed | .serviceFailed => true
  | _ => false

inductive Judged (s : State c) (input : Input) (identity : Option GateIdentity) : State.Verdict c → Prop
  | refused {code : IngressCode} : code.isPlain = true → Judged s input identity (.refused code 0)
  | occupied {code : IngressCode} {sequence : Nat} : Admissible s input → s.isNormal input = false →
      Occupied s input identity code sequence → Judged s input identity (.refused code sequence)
  | faulted {fault : Fault} : s.pool.failed = false → AdmissionFault s fault → Judged s input identity (.faulted fault)
  | normal : Admissible s input → s.isNormal input = true → Judged s input identity .normal
  | critical {i : Slot c} {kind : GateKind} : Admissible s input → s.isNormal input = false → Vacant s input i kind →
      Judged s input identity (.critical i kind)

theorem sameIdentity_iff {a b : Option GateIdentity} : sameIdentity a b = true ↔ b.isSome = true ∧ a = b := by
  rw [sameIdentity, Bool.and_eq_true, decide_eq_true_eq]
  constructor
  · rintro ⟨some, rfl⟩
    exact ⟨some, rfl⟩
  · rintro ⟨some, rfl⟩
    exact ⟨some, rfl⟩

theorem judged_critical (admissible : Admissible s input) (critical : s.isNormal input = false) :
    Judged s input identity (s.criticalVerdict input identity) := by
  have healthy := admissible.healthy
  rw [State.criticalVerdict]
  split
  · next i kind found gate =>
    dsimp only
    split
    · exact .faulted healthy .unregistered
    · next registered =>
      split
      · next held =>
        simp only [Bool.or_eq_true, Bool.and_eq_true, decide_eq_true_eq, or_assoc, and_assoc] at held
        split
        · next same =>
          obtain ⟨some, equal⟩ := sameIdentity_iff.1 (Bool.and_eq_true_iff.1 same).2
          exact .occupied admissible critical (.coalesced found gate held some equal)
        · exact .occupied admissible critical (.already found gate held)
      · next free =>
        simp only [Bool.or_eq_true, Bool.and_eq_true, decide_eq_true_eq, not_or, not_and, ne_eq, not_not, and_assoc,
          Bool.not_eq_true] at free
        exact .critical admissible critical ⟨found, gate, by simpa using registered, free.1, free.2.1,
          fun worker retained => free.2.2 worker retained⟩
  · exact .faulted healthy .unknown

theorem judged (s : State c) (input : Input) (identity : Option GateIdentity) :
    Judged s input identity (s.verdict input identity) := by
  rw [State.verdict]
  split
  · exact .refused rfl
  next healthy =>
  split
  · exact .refused rfl
  next recovered =>
  split
  · exact .refused rfl
  next unsealed =>
  have fine : s.pool.failed = false := by simpa using healthy
  split
  · next closed => exact .faulted fine (.destination closed)
  split
  · exact .refused rfl
  next running =>
  split
  · next none => exact .faulted fine (.ingress none)
  next next =>
  split
  · exact .refused rfl
  next slot =>
  split
  · exact .refused rfl
  next normal =>
  split
  · next full => exact .faulted fine (.full full)
  next room =>
  split
  · next full => exact .faulted fine (.completions full)
  next space =>
  simp only [Bool.or_eq_true, decide_eq_true_eq, not_or] at unsealed
  have admissible : Admissible s input := {
    healthy := fine
    recovered := by simpa using recovered
    unsealed := unsealed
    running := by
      intro usual
      simp only [usual, Bool.and_true, Bool.or_eq_true, decide_eq_true_eq, not_or] at running
      cases mode : s.pool.mode with
      | running => rfl
      | quiescing => exact absurd mode running.1
      | draining => exact absurd mode running.2
      | sealed => exact absurd mode unsealed.1
      | stopped => exact absurd mode unsealed.2
    next := next
    slot := by
      intro creation
      simp only [creation, Bool.true_and, Bool.and_eq_true, Bool.not_eq_true', not_and, Bool.not_eq_false] at slot
      cases known : s.isKnown input.jobId with
      | true => exact .inl rfl
      | false => exact .inr (slot known)
    normal := by
      intro usual
      simpa [usual] using normal
    room := by simpa using room
    space := space }
  split
  · next usual => exact .normal admissible usual
  · next critical => exact judged_critical admissible (by simpa using critical)

inductive Enqueued (lib : Libraries) (s : State c) (input : Input) (identities : Option GeneratedIdentityBundle) :
    State c → Prop
  | refused {code : IngressCode} : code.isPlain = true → Enqueued lib s input identities (s.refuse input code 0)
  | occupied {code : IngressCode} {sequence : Nat} : Admissible s input → s.isNormal input = false →
      Occupied s input (State.entryIdentity lib input) code sequence →
      Enqueued lib s input identities (s.refuse input code sequence)
  | faulted {fault : Fault} : s.pool.failed = false → AdmissionFault s fault →
      Enqueued lib s input identities ((s.fail fault).refuse input .serviceFailed 0)
  | unleased {i : Slot c} {kind : GateKind} {pool : Pool c} {code : IngressCode} : Admissible s input →
      s.isNormal input = false → Vacant s input i kind → s.pool.acquireGate i kind true = (none, pool) →
      code.isPlain = true → Enqueued lib s input identities ({ s with pool }.refuse input code 0)
  | normal : Admissible s input → s.isNormal input = true → input.isCreation = false →
      Enqueued lib s input identities (s.insert
        { input, identity := State.entryIdentity lib input, creationIdentities := identities } State.countNormal)
  | creation {i : Slot c} {pool : Pool c} : Admissible s input → s.isNormal input = true → input.isCreation = true →
      State.reserveCreation s.pool input.jobId identities = (some i, pool) →
      Enqueued lib s input identities ({ s with pool }.insert
        { input, identity := State.entryIdentity lib input, resident := some i, creationIdentities := identities }
        State.countNormal)
  | critical {i : Slot c} {kind : GateKind} {lease : SourceLease c} {pool : Pool c} : Admissible s input →
      s.isNormal input = false → Vacant s input i kind → s.pool.acquireGate i kind true = (some lease, pool) →
      Enqueued lib s input identities ({ s with pool }.insert
        { input, identity := State.entryIdentity lib input, critical := true, gate := some kind, resident := some i
          creationIdentities := identities } (State.publishGate i kind lease))

theorem enqueued (lib : Libraries) (s : State c) (input : Input) (identities : Option GeneratedIdentityBundle) :
    Enqueued lib s input identities (s.enqueue lib input identities) := by
  have verdict := judged s input (State.entryIdentity lib input)
  rw [State.enqueue]
  generalize s.verdict input (State.entryIdentity lib input) = given at verdict
  cases verdict with
  | refused plain => exact .refused plain
  | occupied admissible critical held => exact .occupied admissible critical held
  | faulted healthy fault => exact .faulted healthy fault
  | normal admissible usual =>
      dsimp only
      split
      · next creation =>
        split
        · exact .refused rfl
        · next i pool reserved => exact .creation admissible usual creation reserved
      · next other => exact .normal admissible usual (by simpa using other)
  | critical admissible critical vacant =>
      dsimp only
      split
      · next pool refused =>
        apply Enqueued.unleased admissible critical vacant refused
        split <;> rfl
      · next lease pool acquired => exact .critical admissible critical vacant acquired

inductive ShutdownFault (s : State c) : Fault → Prop
  | unregistered : s.pool.mode = .running → s.pool.shutdownRegistered = false → ShutdownFault s .shutdownUnregistered
  | admission {fault : Fault} : AdmissionFault s fault → ShutdownFault s fault
  | reserve : s.pool.mode = .running → s.pool.criticalCount ≥ c.criticalReserve → ShutdownFault s .reserveExhausted

structure Stoppable (s : State c) : Prop where
  healthy : s.pool.failed = false
  running : s.pool.mode = .running
  next : s.nextIngress ≠ 0
  room : s.fifo.isFull = false
  space : s.book.used ≠ c.completionCapacity
  reserve : s.pool.criticalCount < c.criticalReserve

inductive ShutdownSubmitted (s : State c) : State c → Prop
  | refused {code : IngressCode} {sequence : Nat} : code ≠ .admitted →
      ShutdownSubmitted s (s.refuse .shutdown code sequence)
  | faulted {fault : Fault} : s.pool.failed = false → ShutdownFault s fault →
      ShutdownSubmitted s ((s.fail fault).refuse .shutdown .serviceFailed 0)
  | admitted : Stoppable s →
      ShutdownSubmitted s (s.insert { input := .shutdown, critical := true } State.publishMarker)

theorem shutdownSubmitted (s : State c) : ShutdownSubmitted s s.submitShutdown := by
  rw [State.submitShutdown]
  split
  · exact .refused (by decide)
  next healthy =>
  have fine : s.pool.failed = false := by simpa using healthy
  split
  · exact .refused (by decide)
  split
  · exact .refused (by decide)
  split
  · exact .refused (by decide)
  next mode =>
  have running : s.pool.mode = .running := by simpa using mode
  split
  · next gone => exact .faulted fine (.unregistered running (by simpa using gone))
  split
  · next none => exact .faulted fine (.admission (.ingress none))
  next next =>
  split
  · next full => exact .faulted fine (.admission (.full full))
  next room =>
  split
  · next full => exact .faulted fine (.admission (.completions full))
  next space =>
  split
  · next full => exact .faulted fine (.reserve running full)
  next reserve => exact .admitted ⟨fine, running, next, by simpa using room, space, Nat.lt_of_not_le reserve⟩

inductive Source (s : State c) : Input → Option GeneratedIdentityBundle → Prop
  | created (identities : GeneratedIdentityBundle) :
      Source s (.candidate (State.creationCandidate identities.jobSession)) (some identities)
  | candidate {event : RawCandidateEvent} : event.eventType ≠ text "timeout_expired" → Source s (.candidate event) none
  | command (order : Command) : Source s (.command order) none
  | timeout {notification : TimerNotification} {i : Slot c} {jobId : Uuid} {payload : TimeoutExpiredPayload}
      {event : RawCandidateEvent} : s.pool.find notification.jobId = some i →
      ingestTimer (State.timerState (s.pool.residents i) notification.jobId) notification = .emitCandidateEvent jobId payload →
      timeoutCandidate jobId payload = some event → Source s (.candidate event) none

structure Sealable (s : State c) : Prop where
  empty : s.fifo.count = 0
  landed : s.book.inFlight = false
  unleased : s.pool.hasSourceLeaseOwners = false
  reason : s.pool.failed = true ∨ s.pool.mode = .draining

inductive Produced (lib : Libraries) (s : State c) : State c → Prop
  | noted (creation : Creation) (normalSourceSealPending : Bool) :
      Produced lib s { s with creation, normalSourceSealPending }
  | refused {input : Input} {code : IngressCode} : code.isPlain = true ∨ code = .alreadyPending →
      Produced lib s (s.refuse input code 0)
  | enqueued {input : Input} {identities : Option GeneratedIdentityBundle} {t : State c} (creation : Creation) :
      Source s input identities → Enqueued lib s input identities t → Produced lib s { t with creation }
  | shutdown {t : State c} : ShutdownSubmitted s t → Produced lib s t
  | leased (id : Uuid) (event : EventType) (phase : TimeoutPhase) :
      Produced lib s { s with pool := State.acquireSourceLease s.pool id event phase }
  | returned (lease : SourceLease c) : Produced lib s { s with pool := (s.pool.returnGate lease).2 }
  | retained (id : Uuid) (source : State.Retained) :
      Produced lib s { s with pool := (s.pool.retainGate id source.gate).2 }
  | acked {acked : RawCandidateEvent} {identity : GateIdentity} {i : Slot c} :
      prepareGateIdentity lib .worker acked = some identity → s.pool.find acked.jobId = some i →
      (s.pool.gate i .worker).retained = true → (s.pool.gate i .worker).ackAuthorized = true →
      (s.pool.gate i .worker).ingressSequence ≠ 0 → (s.pool.residents i).identitySlots .worker = some identity →
      Produced lib s ({ s with pool := s.pool.retireWorkerProtocol i }.note (.ackRetired acked))
  | latched : Produced lib s (s.fail .latched)
  | quiesced : s.pool.failed = true → s.pool.mode ≠ .sealed → s.pool.mode ≠ .stopped →
      Produced lib s { s with pool := { s.pool with mode := .quiescing } }
  | sealed : Sealable s → Produced lib s
      { s with
        pool := { s.pool.cancelGates.retireShutdownGate with mode := .sealed }
        normalSourceSealPending := false }
  | residual : Sealable s → s.pool.cancelGates.retireShutdownGate.criticalCount ≠ 0 →
      Produced lib s { s with pool := s.pool.cancelGates.retireShutdownGate.fail .residualPermit }
  | stopped : s.pool.mode = .sealed → Produced lib s { s with pool := { s.pool with mode := .stopped } }
  | taken {k : Fin c.completionCapacity} {sequence : Nat} : (s.book.completions k).reserved = true →
      (s.book.completions k).completed = true → (s.book.completions k).sequence = sequence →
      Produced lib s ({ s with book := s.book.take k }.note (.taken sequence (s.book.completions k).value))

namespace Produced

variable {lib : Libraries}

theorem same (lib : Libraries) (s : State c) : Produced lib s s := .noted s.creation s.normalSourceSealPending

theorem enqueue {identities : Option GeneratedIdentityBundle} (source : Source s input identities) :
    Produced lib s (s.enqueue lib input identities) :=
  .enqueued (s.enqueue lib input identities).creation source (Orchestrator.enqueued lib s input identities)

theorem createBegin (lib : Libraries) (s : State c) : Produced lib s s.createBegin := by
  rw [State.createBegin]
  split
  · exact .refused (.inl rfl)
  split
  · exact .refused (.inl rfl)
  split
  · exact .refused (.inr rfl)
  · exact .noted _ _

theorem submitTimeout (s : State c) (notification : TimerNotification) :
    Produced lib s (s.submitTimeout lib notification) := by
  rw [State.submitTimeout]
  split
  · exact .same lib s
  split
  · exact .same lib s
  next i found =>
  split
  · exact .same lib s
  split
  · next jobId payload emitted =>
    split
    · exact .same lib s
    · next event made => exact .enqueue (.timeout found emitted made)
  · exact .same lib s

theorem retireWorkerAck (s : State c) (acked : RawCandidateEvent) : Produced lib s (s.retireWorkerAck lib acked) := by
  rw [State.retireWorkerAck]
  split
  · next identity i prepared found =>
    dsimp only
    split
    · exact .same lib s
    · next holds =>
      simp only [Bool.or_eq_true, Bool.not_eq_true', decide_eq_true_eq, not_or, Bool.not_eq_false] at holds
      exact .acked prepared found holds.1.1.1 holds.1.1.2 holds.1.2 (sameIdentity_iff.1 holds.2).2
  · exact .same lib s

theorem trySealFailure (lib : Libraries) (s : State c) : Produced lib s s.trySealFailure := by
  rw [State.trySealFailure]
  split
  · exact .same lib s
  · next ready =>
    simp only [Bool.or_eq_true, Bool.not_eq_true', decide_eq_true_eq, not_or, Bool.not_eq_false, Bool.not_eq_true, ne_eq,
      not_not] at ready
    exact .sealed ⟨ready.1.1.2, ready.1.2, ready.2, .inl ready.1.1.1.1⟩

theorem finishShutdown (lib : Libraries) (s : State c) : Produced lib s s.finishShutdown := by
  rw [State.finishShutdown]
  split
  · exact .same lib s
  next ready =>
  simp only [Bool.or_eq_true, Bool.not_eq_true', decide_eq_true_eq, not_or, Bool.not_eq_false, Bool.not_eq_true, ne_eq,
    not_not, Bool.and_eq_true] at ready
  split
  · split
    · exact .same lib s
    · exact .noted _ _
  next unleased =>
  have sealable : Sealable s := ⟨ready.1.1.2, ready.1.2, by simpa using unleased, ready.1.1.1.imp id (·.2)⟩
  dsimp only
  split
  · next residual => exact .residual sealable residual
  · exact .sealed sealable

end Produced

theorem produced (lib : Libraries) (s : State c) {action : Action c} (other : ∀ answer, action ≠ .writer answer) :
    Produced lib s (step lib s action) := by
  cases action with
  | writer answer => exact absurd rfl (other answer)
  | createBegin => exact .createBegin lib s
  | createGenerated identities =>
      show Produced lib s (s.createGenerated lib identities)
      rw [State.createGenerated]
      split
      · exact .same lib s
      · exact .enqueued _ (.created identities) (enqueued lib s _ _)
  | createFailed =>
      show Produced lib s (if s.creation = .generating then { s with creation := .none } else s)
      split
      · exact .noted _ _
      · exact .same lib s
  | createEnd =>
      show Produced lib s (if s.creation = .submitted then { s with creation := .none } else s)
      split
      · exact .noted _ _
      · exact .same lib s
  | submitCandidate event =>
      show Produced lib s (s.submitCandidate lib event)
      rw [State.submitCandidate]
      split
      · exact .refused (.inl rfl)
      · next usual => exact .enqueue (.candidate usual)
  | submitCommand order => exact .enqueue (.command order)
  | submitTimeout notification => exact .submitTimeout s notification
  | submitShutdown => exact .shutdown (shutdownSubmitted s)
  | acquireSourceLease id event phase => exact .leased id event phase
  | returnSourceLease lease => exact .returned lease
  | retainLease id source => exact .retained id source
  | retireWorkerAck acked => exact .retireWorkerAck s acked
  | latchReadinessFailure => exact .latched
  | retryLatchedFailure =>
      show Produced lib s s.retryLatchedFailure
      rw [State.retryLatchedFailure]
      split
      · next failed =>
        simp only [Bool.and_eq_true, Bool.not_eq_true', Bool.or_eq_false_iff, decide_eq_false_iff_not] at failed
        exact .quiesced failed.1 failed.2.1 failed.2.2
      · exact .same lib s
  | trySealFailure => exact .trySealFailure lib s
  | finishShutdown => exact .finishShutdown lib s
  | stop =>
      show Produced lib s s.stop
      rw [State.stop]
      split
      · next sealed => exact .stopped sealed
      · exact .same lib s
  | takeCompletion sequence =>
      show Produced lib s (s.takeCompletion sequence)
      rw [State.takeCompletion]
      split
      · exact .same lib s
      · next k found =>
        have facts := List.find?_some found
        simp only [Bool.and_eq_true, decide_eq_true_eq] at facts
        exact .taken facts.1.1 facts.1.2 facts.2
  | awaitCompletion sequence =>
      show Produced lib s (s.awaitCompletion sequence)
      rw [State.awaitCompletion]
      split
      · exact .same lib s
      next k found =>
      have facts := List.find?_some found
      simp only [Bool.and_eq_true, decide_eq_true_eq] at facts
      split
      · exact .same lib s
      · next done => exact .taken facts.1 (by simpa using done) facts.2

theorem step_cases (lib : Libraries) (s : State c) (action : Action c) :
    (∃ answer, step lib s action = s.writerStep lib answer) ∨ Produced lib s (step lib s action) := by
  by_cases writer : ∃ answer, action = .writer answer
  · obtain ⟨answer, rfl⟩ := writer
    exact .inl ⟨answer, rfl⟩
  · exact .inr (produced lib s fun answer same => writer ⟨answer, same⟩)

end Sitometron.Core.Orchestrator
