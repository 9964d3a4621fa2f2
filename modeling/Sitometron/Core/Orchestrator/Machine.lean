import Sitometron.Core.Orchestrator.State

/-!
# The writer and its producers

The sections of `ProcessOne` and of the public operations, each one step. Between two steps any other operation may run. An
allocation that fails is an exception of the turn in which it fails; one that fails within an admission is left out.
-/

namespace Sitometron.Core.Orchestrator

variable {c : Setup}

/-- What the ports answer in one step of the writer; `late` is an exception after the bank is written. -/
structure Answer where
  throws : Bool := false
  late : Bool := false
  recordedAt : Bytes := []
  commit : LogicalCommitResult := .committed
deriving DecidableEq, Repr

namespace State

/-! ## The trace -/

/-- The rest of the turn that the first record belongs to, with fuel. -/
def dropTurn (sequence : UInt64) : Nat → Ring TraceRecord c.traceCapacity → Ring TraceRecord c.traceCapacity
  | 0, trace => trace
  | fuel + 1, trace =>
      if trace.front?.any fun record => record.journalSequence = sequence then dropTurn sequence fuel trace.pop else trace

def evictTurn (trace : Ring TraceRecord c.traceCapacity) : Ring TraceRecord c.traceCapacity :=
  match trace.front? with
  | none => trace
  | some first => dropTurn first.journalSequence trace.count trace

def reserveTraceTurn (required : Nat) : Nat → Ring TraceRecord c.traceCapacity → Ring TraceRecord c.traceCapacity
  | 0, trace => trace
  | fuel + 1, trace =>
      if c.traceCapacity - trace.count < required then reserveTraceTurn required fuel (evictTurn trace) else trace

def hasTraceCapacity (s : State c) (required : Nat) : Bool :=
  required ≤ c.traceCapacity && s.nextTraceOrdinal ≠ 0 && required - 1 ≤ uint64Max - s.nextTraceOrdinal

def publishPrepared (s : State c) (turn : Turn c) : State c × Turn c :=
  match turn.trace[turn.cursor]? with
  | none => (s.fail .traceOverrun, turn)
  | some record =>
      if s.trace.isFull then (s.fail .traceOverrun, turn)
      else
        let record := { record with ordinal := s.nextTraceOrdinal }
        ({ s with trace := s.trace.push record, nextTraceOrdinal := following s.nextTraceOrdinal }.note (.published record),
          { turn with cursor := turn.cursor + 1 })

def publishMany : Nat → State c × Turn c → State c × Turn c
  | 0, at_ => at_
  | n + 1, (s, turn) => publishMany n (s.publishPrepared turn)

/-! ## The queue -/

def dequeue (s : State c) : State c :=
  match s.fifo.front? with
  | none => s
  | some e =>
      let e := { e with authorized := !s.pool.failed }
      ({ s with
        fifo := s.fifo.pop
        book := { s.book with inFlight := true, inFlightSequence := e.sequence } }.note (.dequeued e)).enter (.dequeued e)

def dispose (s : State c) (e : Entry c) : State c :=
  { s with pool := s.pool.release e false }.complete e { code := .serviceFailed }

def disposeFront (s : State c) : State c :=
  match s.fifo.front? with
  | none => s
  | some e => ({ s with fifo := s.fifo.pop }.note (.disposed e)).dispose e

def disposeQueued : Nat → State c → State c
  | 0, s => s
  | n + 1, s => disposeQueued n s.disposeFront

def failTurn (s : State c) (e : Entry c) (fault : Fault) : State c :=
  let s := (s.fail fault).dispose e
  let s := { s with pool := s.pool.cancelGates }
  (disposeQueued s.fifo.count s).enter .idle

/-! ## A turn -/

def start (s : State c) (e : Entry c) : State c :=
  if s.pool.failed && !e.authorized then
    if e.input = .shutdown then
      ({ s with pool := s.pool.releaseGate e true }.complete e { code := .success }).enter .idle
    else (s.dispose e).enter .idle
  else s.enter (.started e)

def processMarker (s : State c) (e : Entry c) : State c :=
  ({ s with pool := { s.pool with mode := .draining }, markerProcessed := true }.complete e { code := .success }).enter .idle

def locate (s : State c) (e : Entry c) : State c :=
  match s.pool.find e.input.jobId with
  | some i => s.enter (.found e (some i))
  | none =>
      if e.input.isCreation then
        { s with pool := (s.pool.reserve e.input.jobId).2 }.enter (.found e (s.pool.reserve e.input.jobId).1)
      else s.enter (.found e none)

def select (s : State c) (e : Entry c) (slot : Option (Slot c)) : State c :=
  if !e.input.isCreation then s.enter (.selected e slot)
  else match e.resident with
    | none => s.enter (.undefined e)
    | some i =>
        match s.pool.selectRetirement i with
        | (.proceed, victim, q) => { s with pool := q }.enter (.selected { e with victim } slot)
        | (.refuse, _, q) =>
            ({ s with pool := q.release e false }.complete e { code := .residentLimit }).enter .idle
        | (.fail, _, q) => { s with pool := q }.enter (.failing e .noVictim)

def decideInput (lib : Libraries) (before : Snapshot) : Input → Decision
  | .command order => decideCommand before order
  | .candidate event => decideCandidate lib before event
  | .shutdown => .error { reason := .invalidEventPayload }

def before (s : State c) (e : Entry c) : Option (Slot c) → Snapshot
  | none => initialSnapshot e.input.jobId e.input.jobId
  | some i => (s.pool.residents i).snapshot

def decide (lib : Libraries) (s : State c) (e : Entry c) (slot : Option (Slot c)) : State c :=
  match decideInput lib (s.before e slot) e.input with
  | .error rejection => s.enter (.rejecting e rejection)
  | .ok proposal => s.enter (.decided e slot (s.before e slot) proposal)

def cannotMaterialize (s : State c) (e : Entry c) : Bool :=
  c.handoffCapacity = 0 || s.nextJournal = 0 ||
    e.victim.any fun victim => (List.finRange 4).any fun t => ((s.pool.residents victim).timerGeneration t).toNat = uint64Max

def logicalEvent (proposal : PreEnvelopeProposal) (recordedAt : Bytes) : LogicalJobEvent :=
  ⟨1, 0, proposal.eventType, recordedAt, proposal.jobId, proposal.payload⟩

def writeBank (p : Pool c) (i : Slot c) (applied : ApplyResult) : Pool c :=
  p.modify i fun r => { r with banks := Function.update r.banks (!r.active) applied }

/-- Everything that may fail is done before the Journal is called. -/
def materialize (s : State c) (answer : Answer) (e : Entry c) (i : Slot c) (applied : ApplyResult)
    (proposal : PreEnvelopeProposal) : State c :=
  if !s.hasTraceCapacity (requiredTraceSlots proposal.eventType applied) then s.enter (.failing e .traceExhausted)
  else if answer.late then s.enter (.failing e .thrown)
  else match prepareEffects c (s.pool.residents i) (logicalEvent proposal answer.recordedAt) applied with
    | .error fault => s.enter (.failing e fault)
    | .ok operations =>
        s.enter (.prepared e
          { slot := i
            bank := !(s.pool.residents i).active
            event := logicalEvent proposal answer.recordedAt
            plan := planDerivedSources applied proposal.eventType
            operations
            trace := prepareTrace (logicalEvent proposal answer.recordedAt) operations })

def prepare (lib : Libraries) (s : State c) (answer : Answer) (e : Entry c) (slot : Option (Slot c)) (before : Snapshot)
    (proposal : PreEnvelopeProposal) : State c :=
  if s.cannotMaterialize e then s.enter (.failing e .cannotMaterialize)
  else if answer.throws then s.enter (.failing e .thrown)
  else if (apply lib before proposal).rejection.isSome then s.enter (.failing e .applyRejected)
  else match slot with
    | none => s.enter (.undefined e)
    | some i =>
        { s with pool := writeBank s.pool i (apply lib before proposal) }.materialize answer e i (apply lib before proposal)
          proposal

def stamp (turn : Turn c) (sequence : UInt64) : Turn c :=
  { turn with
    event := { turn.event with sequence }
    trace := turn.trace.map fun record => { record with journalSequence := sequence } }

def beginTurn (s : State c) (turn : Turn c) : State c :=
  { s with
    nextJournal := s.nextJournal + 1
    trace := reserveTraceTurn turn.trace.length s.trace.count s.trace }

def attempt (s : State c) (e : Entry c) (turn : Turn c) : State c :=
  if !s.pool.canActivateSources turn.slot turn.plan then s.enter (.failing e .sourcesRefused)
  else
    let published := (s.beginTurn turn).publishPrepared (stamp turn s.nextJournal)
    published.1.enter (.attempted e published.2)

def commit (s : State c) (answer : Answer) (e : Entry c) (turn : Turn c) : State c :=
  let s := s.note (.commit e turn.event answer.commit)
  if answer.commit ≠ .committed then s.enter (.failing e .commitFailed)
  else
    let published := s.publishPrepared turn
    published.1.enter (.committed e published.2)

/-- The prepared bank becomes visible and an unowned victim goes, in one section. -/
def installPool (p : Pool c) (e : Entry c) (turn : Turn c) : Pool c :=
  let p := p.modify turn.slot fun r =>
    { r with active := turn.bank, existing := (r.banks turn.bank).snapshot.entityExists }
  let p := if turn.event.eventType ≠ .jobCreated then p
    else
      let p := p.modify turn.slot fun r => { r with createdSequence := turn.event.sequence, ticket := false }
      match e.victim with
      | none => p
      | some victim => { p.resetSlot victim true with spare := victim }
  p.activateSources turn.slot turn.plan

def workerSequenceOf (event : LogicalJobEvent) : Option UInt64 :=
  if event.eventType = .workerCompleted || event.eventType = .workerFailed || event.eventType = .lateWorkerEvent then
    match event.payload with
    | .workerEvent p => some p.eventSequence
    | .lateWorkerEvent p => some p.eventSequence
    | _ => none
  else none

def install (s : State c) (e : Entry c) (turn : Turn c) : State c :=
  let s := { s with pool := installPool s.pool e turn }.note (.installed turn.slot turn.event)
  let published := publishMany (1 + traceSourceCount turn.event.eventType) (s, turn)
  let pool := match workerSequenceOf turn.event with
    | none => published.1.pool
    | some sequence => published.1.pool.modify turn.slot fun r => { r with workerSequence := sequence }
  { published.1 with pool }.enter (.dispatching e published.2 turn.operations)

/-- The declaration of an effect, and the generation of the timer that it arms. -/
def declareEffect (s : State c) (e : Entry c) (turn : Turn c) (operation : PreparedEffect) (rest : List PreparedEffect) :
    State c :=
  let published := s.publishPrepared turn
  let pool := match operation.timerUpdate with
    | none => published.1.pool
    | some (phase, generation) => published.1.pool.modify turn.slot fun r =>
        { r with timerGeneration := Function.update r.timerGeneration phase generation }
  { published.1 with pool }.enter (.performing e published.2 operation rest)

def authorizeAck (p : Pool c) (i : Slot c) : Pool c :=
  p.setGate i .worker { p.gate i .worker with ackAuthorized := true }

def act (s : State c) (e : Entry c) (turn : Turn c) (operation : PreparedEffect) : State c :=
  match disarmedPhase operation.id with
  | some phase => { s with pool := s.pool.retireGate turn.slot (timerGate phase) }
  | none =>
      if operation.id = .ackTerminalWorkerEventIfPending || operation.id = .ackLateWorkerEvent then
        { s with pool := authorizeAck s.pool turn.slot }.note (.ackAuthorized e turn.slot)
      else match operation.handoff with
        | none => s
        | some handed => s.note (.handoff e handed)

def performEffect (s : State c) (e : Entry c) (turn : Turn c) (operation : PreparedEffect) (rest : List PreparedEffect) :
    State c :=
  let published := (s.act e turn operation).publishPrepared turn
  published.1.enter (.dispatching e published.2 rest)

def respond (s : State c) (e : Entry c) (turn : Turn c) : State c :=
  let s := (s.publishPrepared turn).1
  { s with pool := s.pool.release e true }.enter (.completing e { code := .success })

def writerStep (lib : Libraries) (s : State c) (answer : Answer) : State c :=
  match s.writer with
  | .idle => s.dequeue
  | .dequeued e => s.start e
  | .started e =>
      if e.input = .shutdown then s.processMarker e
      else if answer.throws then s.enter (.failing e .thrown)
      else s.locate e
  | .found e slot => s.select e slot
  | .selected e slot => if answer.throws then s.enter (.failing e .thrown) else s.decide lib e slot
  | .rejecting e rejection =>
      { s with pool := s.pool.release e false }.enter
        (.completing e { code := .reducerRejection, rejection := some rejection })
  | .decided e slot before proposal => s.prepare lib answer e slot before proposal
  | .prepared e turn => s.attempt e turn
  | .attempted e turn => s.commit answer e turn
  | .committed e turn => s.install e turn
  | .dispatching e turn (operation :: rest) => s.declareEffect e turn operation rest
  | .dispatching e turn [] => s.respond e turn
  | .performing e turn operation rest => s.performEffect e turn operation rest
  | .completing e completion => (s.complete e completion).enter .idle
  | .failing e fault => s.failTurn e fault
  | .undefined _ => s

/-! ## Producers -/

/-- The candidate that `CreateWith` makes of a generated identity. -/
def creationCandidate (id : Uuid) : RawCandidateEvent :=
  { jobId := id, eventType := text "job_created"
    payloadJson := text "\x7b\"session_id\":\"" ++ id.value ++ text "\"\x7d" }

def createBegin (s : State c) : State c :=
  let input := Input.candidate (creationCandidate ⟨[]⟩)
  if s.pool.failed then s.refuse input .serviceFailed 0
  else if s.pool.mode ≠ .running || c.recoveryClosed then s.refuse input .admissionClosed 0
  else if s.creation ≠ .none then s.refuse input .alreadyPending 0
  else { s with creation := .generating }

def createGenerated (lib : Libraries) (s : State c) (identities : GeneratedIdentityBundle) : State c :=
  if s.creation ≠ .generating then s
  else
    { s.enqueue lib (.candidate (creationCandidate identities.jobSession)) (some identities) with creation := .submitted }

def submitCandidate (lib : Libraries) (s : State c) (event : RawCandidateEvent) : State c :=
  if event.eventType = text "timeout_expired" then s.refuse (.candidate event) .admissionClosed 0
  else s.enqueue lib (.candidate event) none

def timerState (r : Resident) (id : Uuid) : TimerState where
  jobId := id
  armed
    | .preparation => (r.gates .preparationTimer).registered
    | .execution => (r.gates .executionTimer).registered
    | .cooperativeStop => (r.gates .cooperativeStopTimer).registered
    | .processExitConfirmation => (r.gates .processExitTimer).registered
    | .invalid => false
  generation
    | .preparation => r.timerGeneration 0
    | .execution => r.timerGeneration 1
    | .cooperativeStop => r.timerGeneration 2
    | .processExitConfirmation => r.timerGeneration 3
    | .invalid => 0

/-- The section of `SubmitTimeout` that validates and inserts. What it finds wrong with the notification itself, like what
the section before it finds, it leaves to a failure latch of its own. -/
def submitTimeout (lib : Libraries) (s : State c) (notification : TimerNotification) : State c :=
  if s.pool.failed || c.recoveryClosed then s
  else match s.pool.find notification.jobId with
    | none => s
    | some i =>
        if (s.pool.residents i).claimed then s
        else match ingestTimer (timerState (s.pool.residents i) notification.jobId) notification with
          | .emitCandidateEvent jobId payload =>
              match timeoutCandidate jobId payload with
              | none => s
              | some event => s.enqueue lib (.candidate event) none
          | _ => s

/-- The gate of a source that may be leased; `none` is `kCount`. -/
def sourceGate (event : EventType) (phase : TimeoutPhase) : Option GateKind :=
  match event, phase with
  | .workerCompleted, _ | .workerFailed, _ => some .worker
  | .processExitConfirmed, _ => some .processExit
  | .resourcesReleased, _ => some .resourcesReleased
  | .cleanupStatusRecorded, _ => some .cleanup
  | .timeoutExpired, .preparation => some .preparationTimer
  | .timeoutExpired, .execution => some .executionTimer
  | .timeoutExpired, .cooperativeStop => some .cooperativeStopTimer
  | .timeoutExpired, .processExitConfirmation => some .processExitTimer
  | _, _ => none

def acquireSourceLease (p : Pool c) (id : Uuid) (event : EventType) (phase : TimeoutPhase) : Pool c :=
  match p.find id, sourceGate event phase with
  | some i, some kind =>
      match p.acquireGate i kind false with
      | (none, q) => q
      | (some lease, q) => q.setGate i kind { q.gate i kind with exportedLeaseSerial := lease.serial }
  | _, _ => p

inductive Retained where
  | timer (phase : TimeoutPhase) | worker | processExit | resourcesReleased | cleanup
deriving DecidableEq, Repr

/-- `TimerGate` of the phase past the last one is the gate past the last timer. -/
def Retained.gate : Retained → GateKind
  | .timer .preparation => .preparationTimer
  | .timer .execution => .executionTimer
  | .timer .cooperativeStop => .cooperativeStopTimer
  | .timer .processExitConfirmation => .processExitTimer
  | .timer .invalid => .worker
  | .worker => .worker
  | .processExit => .processExit
  | .resourcesReleased => .resourcesReleased
  | .cleanup => .cleanup

def retireWorkerAck (lib : Libraries) (s : State c) (acked : RawCandidateEvent) : State c :=
  match prepareGateIdentity lib .worker acked, s.pool.find acked.jobId with
  | some identity, some i =>
      let gate := s.pool.gate i .worker
      if !gate.retained || !gate.ackAuthorized || gate.ingressSequence = 0 ||
          !sameIdentity ((s.pool.residents i).identitySlots .worker) (some identity) then s
      else { s with pool := s.pool.retireWorkerProtocol i }.note (.ackRetired acked)
  | _, _ => s

def retryLatchedFailure (s : State c) : State c :=
  if s.pool.failed && !(s.pool.mode = .sealed || s.pool.mode = .stopped) then
    { s with pool := { s.pool with mode := .quiescing } }
  else s

def trySealFailure (s : State c) : State c :=
  if !s.pool.failed || s.pool.mode = .stopped || s.fifo.count ≠ 0 || s.book.inFlight || s.pool.hasSourceLeaseOwners then s
  else
    { s with
      pool := { s.pool.cancelGates.retireShutdownGate with mode := .sealed }
      normalSourceSealPending := false }

def finishShutdown (s : State c) : State c :=
  if !(s.pool.failed || (s.markerProcessed && s.pool.mode = .draining)) || s.fifo.count ≠ 0 || s.book.inFlight ||
      s.pool.normalCount ≠ 0 then s
  else if s.pool.hasSourceLeaseOwners then
    if s.pool.failed then s else { s with normalSourceSealPending := true }
  else
    let pool := s.pool.cancelGates.retireShutdownGate
    if pool.criticalCount ≠ 0 then { s with pool := pool.fail .residualPermit }
    else { s with pool := { pool with mode := .sealed }, normalSourceSealPending := false }

def stop (s : State c) : State c :=
  if s.pool.mode = .sealed then { s with pool := { s.pool with mode := .stopped } } else s

end State

inductive Action (c : Setup) where
  | writer (answer : Answer)
  | createBegin
  | createGenerated (identities : GeneratedIdentityBundle)
  | createFailed
  | createEnd
  | submitCandidate (event : RawCandidateEvent)
  | submitCommand (order : Command)
  | submitTimeout (notification : TimerNotification)
  | submitShutdown
  | acquireSourceLease (id : Uuid) (event : EventType) (phase : TimeoutPhase)
  | returnSourceLease (lease : SourceLease c)
  | retainLease (id : Uuid) (source : State.Retained)
  | retireWorkerAck (acked : RawCandidateEvent)
  | latchReadinessFailure
  | retryLatchedFailure
  | trySealFailure
  | finishShutdown
  | stop
  | takeCompletion (sequence : Nat)
  | awaitCompletion (sequence : Nat)

def step (lib : Libraries) (s : State c) : Action c → State c
  | .writer answer => s.writerStep lib answer
  | .createBegin => s.createBegin
  | .createGenerated identities => s.createGenerated lib identities
  | .createFailed => if s.creation = .generating then { s with creation := .none } else s
  | .createEnd => if s.creation = .submitted then { s with creation := .none } else s
  | .submitCandidate event => s.submitCandidate lib event
  | .submitCommand order => s.enqueue lib (.command order) none
  | .submitTimeout notification => s.submitTimeout lib notification
  | .submitShutdown => s.submitShutdown
  | .acquireSourceLease id event phase => { s with pool := State.acquireSourceLease s.pool id event phase }
  | .returnSourceLease lease => { s with pool := (s.pool.returnGate lease).2 }
  | .retainLease id source => { s with pool := (s.pool.retainGate id source.gate).2 }
  | .retireWorkerAck acked => s.retireWorkerAck lib acked
  | .latchReadinessFailure => s.fail .latched
  | .retryLatchedFailure => s.retryLatchedFailure
  | .trySealFailure => s.trySealFailure
  | .finishShutdown => s.finishShutdown
  | .stop => s.stop
  | .takeCompletion sequence => s.takeCompletion sequence
  | .awaitCompletion sequence => s.awaitCompletion sequence

def initial (c : Setup) : Option (State c) :=
  (Pool.seed c).map fun pool =>
    { pool
      fifo := Ring.empty (Nat.pos_of_ne_zero c.facts.2.2.2.1)
      trace := Ring.empty (Nat.lt_of_lt_of_le (by decide) c.facts.2.2.2.2.2.2.1)
      nextIngress := c.initialIngressSequence
      nextJournal := c.initialJournalSequence }

/-- The runs of a writer that the constructor has started. -/
inductive Reached (lib : Libraries) (c : Setup) : State c → Prop
  | start {s : State c} : initial c = some s → Reached lib c s
  | step {s : State c} (action : Action c) : Reached lib c s → Reached lib c (step lib s action)

end Sitometron.Core.Orchestrator
