import Sitometron.Core.Orchestrator.Pool
import Sitometron.Core.Orchestrator.Turn
import Sitometron.Lib.Ring

/-!
# The state of the writer

The state behind the ingress mutex, the writer's place in its turn, and the log of what the outside has seen. Every function
here is one section under the mutex, or a part of one.
-/

namespace Sitometron.Core.Orchestrator

variable {c : Setup}

structure Turn (c : Setup) where
  slot : Slot c
  bank : Bool
  event : LogicalJobEvent
  plan : List GateKind
  operations : List PreparedEffect
  trace : List TraceRecord
  cursor : Nat := 0

/-- Between which two sections of `ProcessOne` the writer stands. -/
inductive Phase (c : Setup) where
  | idle
  | dequeued (e : Entry c)
  | started (e : Entry c)
  | found (e : Entry c) (slot : Option (Slot c))
  | selected (e : Entry c) (slot : Option (Slot c))
  | rejecting (e : Entry c) (rejection : Rejection)
  | decided (e : Entry c) (slot : Option (Slot c)) (before : Snapshot) (proposal : PreEnvelopeProposal)
  | prepared (e : Entry c) (turn : Turn c)
  | attempted (e : Entry c) (turn : Turn c)
  | committed (e : Entry c) (turn : Turn c)
  | dispatching (e : Entry c) (turn : Turn c) (rest : List PreparedEffect)
  | performing (e : Entry c) (turn : Turn c) (operation : PreparedEffect) (rest : List PreparedEffect)
  | completing (e : Entry c) (completion : Completion)
  | failing (e : Entry c) (fault : Fault)
  /-- The source would read outside its arrays or through a null pointer. -/
  | undefined (e : Entry c)

/-- What callers, ports and the trace get to see, and where an entry leaves the queue. -/
inductive Observation (c : Setup) where
  | admitted (e : Entry c) (result : IngressResult)
  | refused (input : Input) (result : IngressResult)
  | dequeued (e : Entry c)
  | disposed (e : Entry c)
  | commit (e : Entry c) (event : LogicalJobEvent) (result : LogicalCommitResult)
  | installed (slot : Slot c) (event : LogicalJobEvent)
  | handoff (e : Entry c) (handed : Handoff)
  | ackAuthorized (e : Entry c) (slot : Slot c)
  | published (record : TraceRecord)
  | completed (index : Fin c.completionCapacity) (sequence : Nat) (value : Completion)
  | taken (sequence : Nat) (value : Completion)
  | ackRetired (event : RawCandidateEvent)

/-- The one creation that `creation_generation_in_progress` lets through. -/
inductive Creation where
  | none | generating | submitted
deriving DecidableEq, Repr

/-- The completion slots and the count of what they are for. -/
structure Book (c : Setup) where
  completions : Fin c.completionCapacity → CompletionSlot := fun _ => {}
  used : Nat := 0
  outstanding : Nat := 0
  inFlight : Bool := false
  inFlightSequence : Nat := 0
  total : Nat := 0

structure State (c : Setup) where
  pool : Pool c
  book : Book c := {}
  fifo : Ring (Entry c) c.totalCapacity
  trace : Ring TraceRecord c.traceCapacity
  nextIngress : Nat
  nextJournal : UInt64
  nextTraceOrdinal : Nat := 1
  markerProcessed : Bool := false
  normalSourceSealPending : Bool := false
  creation : Creation := .none
  writer : Phase c := .idle
  log : List (Observation c) := []

namespace State

def fail (s : State c) (fault : Fault) : State c := { s with pool := s.pool.fail fault }

def note (s : State c) (observation : Observation c) : State c := { s with log := s.log ++ [observation] }

def enter (s : State c) (phase : Phase c) : State c := { s with writer := phase }

end State

/-! ## Completions -/

namespace Book

def free (b : Book c) : Option (Fin c.completionCapacity) :=
  (List.finRange c.completionCapacity).find? fun k => !(b.completions k).reserved

/-- No generation is met twice: every reservation takes an ingress sequence, and those end before 2^64. -/
def reserve (b : Book c) (k : Fin c.completionCapacity) (sequence : Nat) : Book c :=
  { b with
    completions := Function.update b.completions k
      { b.completions k with reserved := true, completed := false, sequence, generation := (b.completions k).generation + 1 }
    used := b.used + 1
    outstanding := b.outstanding + 1 }

def complete (b : Book c) (k : Fin c.completionCapacity) (sequence : Nat) (completion : Completion) : Book c :=
  { b with
    completions := Function.update b.completions k { b.completions k with completed := true, value := completion }
    total := b.total + 1
    outstanding := b.outstanding - 1
    inFlight := b.inFlight && !(b.inFlightSequence = sequence) }

def take (b : Book c) (k : Fin c.completionCapacity) : Book c :=
  { b with
    completions := Function.update b.completions k
      { b.completions k with reserved := false, completed := false, sequence := 0, value := {} }
    used := b.used - 1 }

end Book

namespace State

def complete (s : State c) (e : Entry c) (completion : Completion) : State c :=
  match e.completionIndex with
  | none => s.fail .completionMismatch
  | some k =>
      let slot := s.book.completions k
      if !slot.reserved || slot.generation ≠ e.completionGeneration || slot.sequence ≠ e.sequence then
        s.fail .completionMismatch
      else if slot.completed then s
      else { s with book := s.book.complete k e.sequence completion }.note (.completed k e.sequence completion)

/-- `TakeCompletion`, and `AwaitCompletion` once it has stopped waiting. -/
def takeCompletion (s : State c) (sequence : Nat) : State c :=
  match (List.finRange c.completionCapacity).find? fun k =>
      (s.book.completions k).reserved && (s.book.completions k).completed && (s.book.completions k).sequence = sequence with
  | none => s
  | some k => { s with book := s.book.take k }.note (.taken sequence (s.book.completions k).value)

/-- Waits while the registration of the sequence has no completion. -/
def awaitCompletion (s : State c) (sequence : Nat) : State c :=
  match (List.finRange c.completionCapacity).find? fun k =>
      (s.book.completions k).reserved && (s.book.completions k).sequence = sequence with
  | none => s
  | some k =>
      if !(s.book.completions k).completed then s
      else { s with book := s.book.take k }.note (.taken sequence (s.book.completions k).value)

/-! ## Admission -/

def refuse (s : State c) (input : Input) (code : IngressCode) (sequence : Nat) : State c :=
  s.note (.refused input ⟨code, sequence, s.book.total⟩)

inductive Verdict (c : Setup) where
  | refused (code : IngressCode) (sequence : Nat)
  | faulted (fault : Fault)
  | normal
  | critical (i : Slot c) (kind : GateKind)

def isKnown (s : State c) (id : Uuid) : Bool := (s.pool.find id).any fun i => !(s.pool.residents i).claimed

def isNormal (s : State c) : Input → Bool
  | .candidate event => !isCriticalCandidate event
  | .command order => !(order.commandType = .terminate && s.isKnown order.jobId)
  | .shutdown => false

def criticalVerdict (s : State c) (input : Input) (identity : Option GateIdentity) : Verdict c :=
  match s.pool.find input.jobId, gateFor input with
  | some i, some kind =>
      let gate := s.pool.gate i kind
      if !gate.registered then .faulted .unregisteredSource
      else if gate.queuedSequence ≠ 0 || gate.pending || (kind = .worker && gate.retained && gate.ingressSequence ≠ 0) then
        if kind.isIdentityGate && sameIdentity ((s.pool.residents i).identitySlots kind) identity then
          .refused .coalescedPending gate.ingressSequence
        else .refused .alreadyPending 0
      else .critical i kind
  | _, _ => .faulted .unknownSource

def verdict (s : State c) (input : Input) (identity : Option GateIdentity) : Verdict c :=
  if s.pool.failed then .refused .serviceFailed 0
  else if c.recoveryClosed then .refused .admissionClosed 0
  else if s.pool.mode = .sealed || s.pool.mode = .stopped then .refused .admissionClosed 0
  else if c.handoffCapacity = 0 then .faulted .destinationClosed
  else if (s.pool.mode = .quiescing || s.pool.mode = .draining) && s.isNormal input then .refused .admissionClosed 0
  else if s.nextIngress = 0 then .faulted .ingressExhausted
  else if input.isCreation && !s.isKnown input.jobId && !s.pool.canReserve then .refused .residentLimit 0
  else if s.isNormal input && s.pool.normalCount ≥ c.normalCapacity then .refused .normalFull 0
  else if s.fifo.isFull then .faulted .fifoFull
  else if s.book.used = c.completionCapacity then .faulted .completionsFull
  else if s.isNormal input then .normal
  else s.criticalVerdict input identity

/-- From the sequence on: what `Enqueue` and `SubmitShutdown` do with an entry that has its place. -/
def insert (s : State c) (e : Entry c) (publish : Entry c → Pool c → Pool c) : State c :=
  match s.book.free with
  | none => ({ s with nextIngress := following s.nextIngress }.fail .completionMismatch).refuse e.input .serviceFailed 0
  | some k =>
      let e := { e with sequence := s.nextIngress, completionIndex := some k,
                        completionGeneration := (s.book.completions k).generation + 1 }
      { s with
        nextIngress := following s.nextIngress
        book := s.book.reserve k s.nextIngress
        pool := publish e s.pool
        fifo := s.fifo.push e }.note (.admitted e ⟨.admitted, e.sequence, s.book.total + s.book.outstanding⟩)

def countNormal (_ : Entry c) (p : Pool c) : Pool c := { p with normalCount := p.normalCount + 1 }

/-- The slot of a Job that is to be created, with the identities that were generated for it. -/
def reserveCreation (p : Pool c) (id : Uuid) (identities : Option GeneratedIdentityBundle) : Option (Slot c) × Pool c :=
  match (match (p.find id).filter fun i => !(p.residents i).claimed with
    | some i => (some i, p.modify i fun r => { r with claims := r.claims + 1 })
    | none => p.reserve id) with
  | (none, q) => (none, q)
  | (some i, q) =>
      match identities.filter fun bundle => bundle.jobSession = id with
      | none => (some i, q)
      | some bundle => (some i, q.modify i fun r => { r with generatedIdentities := some bundle })

/-- The gate is given to the entry, and the lease that held it for the insertion goes back. -/
def publishGate (i : Slot c) (kind : GateKind) (lease : SourceLease c) (e : Entry c) (p : Pool c) : Pool c :=
  ((p.modify i fun r =>
    { r with
      gates := Function.update r.gates kind
        { r.gates kind with
          pending := true
          queuedSequence := e.sequence
          retireRequested := false
          ackAuthorized := (r.gates kind).ackAuthorized && !(kind = .worker)
          ingressSequence := e.sequence }
      identitySlots := match e.identity with
        | none => r.identitySlots
        | some identity => Function.update r.identitySlots kind (some identity) }).returnGate lease).2

/-- The identity that `Enqueue` prepares before it takes the mutex. -/
def entryIdentity (lib : Libraries) : Input → Option GateIdentity
  | .candidate event =>
      if isCriticalCandidate event then
        ((gateFor (.candidate event)).filter (·.isIdentityGate)).bind fun kind => prepareGateIdentity lib kind event
      else none
  | _ => none

def enqueue (lib : Libraries) (s : State c) (input : Input) (identities : Option GeneratedIdentityBundle) : State c :=
  let identity := entryIdentity lib input
  match s.verdict input identity with
  | .refused code sequence => s.refuse input code sequence
  | .faulted fault => (s.fail fault).refuse input .serviceFailed 0
  | .normal =>
      if input.isCreation then
        match reserveCreation s.pool input.jobId identities with
        | (none, _) => s.refuse input .residentLimit 0
        | (some i, q) =>
            { s with pool := q }.insert
              { input, identity, resident := some i, creationIdentities := identities } countNormal
      else s.insert { input, identity, creationIdentities := identities } countNormal
  | .critical i kind =>
      match s.pool.acquireGate i kind true with
      | (none, q) =>
          { s with pool := q }.refuse input (if q.failed then .serviceFailed else .admissionClosed) 0
      | (some lease, q) =>
          { s with pool := q }.insert
            { input, identity, critical := true, gate := some kind, resident := some i, creationIdentities := identities }
            (publishGate i kind lease)

def publishMarker (e : Entry c) (p : Pool c) : Pool c :=
  { p with
    mode := .quiescing
    shutdownPending := true
    shutdownPermit := true
    shutdownSequence := e.sequence
    criticalCount := p.criticalCount + 1 }

def submitShutdown (s : State c) : State c :=
  if s.pool.failed then s.refuse .shutdown .serviceFailed 0
  else if c.recoveryClosed then s.refuse .shutdown .admissionClosed 0
  else if s.pool.mode = .quiescing && s.pool.shutdownPending then s.refuse .shutdown .coalescedPending s.pool.shutdownSequence
  else if s.pool.mode ≠ .running then s.refuse .shutdown .admissionClosed 0
  else if !s.pool.shutdownRegistered then (s.fail .shutdownUnregistered).refuse .shutdown .serviceFailed 0
  else if s.nextIngress = 0 then (s.fail .ingressExhausted).refuse .shutdown .serviceFailed 0
  else if s.fifo.isFull then (s.fail .fifoFull).refuse .shutdown .serviceFailed 0
  else if s.book.used = c.completionCapacity then (s.fail .completionsFull).refuse .shutdown .serviceFailed 0
  else if s.pool.criticalCount ≥ c.criticalReserve then (s.fail .reserveExhausted).refuse .shutdown .serviceFailed 0
  else s.insert { input := .shutdown, critical := true } publishMarker

end State

end Sitometron.Core.Orchestrator
