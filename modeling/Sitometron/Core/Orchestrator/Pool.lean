import Mathlib.Data.List.FinRange
import Sitometron.Core.Orchestrator.Identity

/-!
# The resident pool

The residents, their gates and the permit counters, and the functions of `JobOrchestrator::Impl` that work on them under
the ingress mutex.
-/

namespace Sitometron.Core.Orchestrator

variable {c : Setup}

structure Pool (c : Setup) where
  residents : Slot c → Resident
  spare : Slot c
  nextSourceLease : Nat := 1
  normalCount : Nat := 0
  criticalCount : Nat := 0
  faults : List Fault := []
  mode : Mode := .running
  shutdownRegistered : Bool := true
  shutdownPending : Bool := false
  shutdownPermit : Bool := false
  shutdownSequence : Nat := 0

def Setup.recoveryClosed (c : Setup) : Bool := !c.unresolvedJobs.isEmpty

def slots (c : Setup) : List (Slot c) := List.finRange (c.maxJobs + 1)

/-- An admitted turn or a lease on it; a retained gate alone owns nothing. -/
def Gate.isOwned (g : Gate) : Bool := g.queuedSequence ≠ 0 || g.callbackLease || g.exportedLeaseSerial ≠ 0

def Resident.hasOwnership (r : Resident) : Bool := r.claims ≠ 0 || GateKind.all.any fun kind => (r.gates kind).isOwned

namespace Pool

def failed (p : Pool c) : Bool := !p.faults.isEmpty

def fail (p : Pool c) (fault : Fault) : Pool c := { p with faults := p.faults ++ [fault] }

def modify (p : Pool c) (i : Slot c) (f : Resident → Resident) : Pool c :=
  { p with residents := Function.update p.residents i (f (p.residents i)) }

def gate (p : Pool c) (i : Slot c) (kind : GateKind) : Gate := (p.residents i).gates kind

def setGate (p : Pool c) (i : Slot c) (kind : GateKind) (gate : Gate) : Pool c :=
  p.modify i fun r => { r with gates := Function.update r.gates kind gate }

def find (p : Pool c) (id : Uuid) : Option (Slot c) :=
  (slots c).find? fun i => (p.residents i).id = id && (p.residents i).reserved

/-! ## Gates -/

def registerGate (p : Pool c) (i : Slot c) (kind : GateKind) : Pool c :=
  if (p.gate i kind).registered && (p.gate i kind).permit then p
  else if p.criticalCount ≥ c.criticalReserve then p.fail .reserveExhausted
  else
    { p.setGate i kind { p.gate i kind with registered := true, retireRequested := false, permit := true } with
      criticalCount := p.criticalCount + 1 }

def isOpen (p : Pool c) : Bool := p.mode = .running || p.mode = .quiescing || p.mode = .draining

def acquireGate (p : Pool c) (i : Slot c) (kind : GateKind) (borrowRetained : Bool) : Option (SourceLease c) × Pool c :=
  let gate := p.gate i kind
  if p.failed || c.recoveryClosed || (p.residents i).claimed || !p.isOpen then (none, p)
  else if !gate.registered then (none, p)
  else if gate.callbackLease || gate.exportedLeaseSerial ≠ 0 then
    if borrowRetained && gate.retained then (some ⟨i, kind, gate.leaseSerial, true, false⟩, p) else (none, p)
  else if p.nextSourceLease = 0 then (none, p.fail .leasesExhausted)
  else if !gate.permit && p.criticalCount ≥ c.criticalReserve then (none, p.fail .reserveExhausted)
  else
    (some ⟨i, kind, p.nextSourceLease, false, !gate.permit⟩,
      { p.setGate i kind { gate with permit := true, callbackLease := true, leaseSerial := p.nextSourceLease } with
        criticalCount := if gate.permit then p.criticalCount else p.criticalCount + 1
        nextSourceLease := following p.nextSourceLease })

def releaseUnusedGate (p : Pool c) (i : Slot c) (kind : GateKind) : Pool c :=
  let gate := p.gate i kind
  if gate.isOwned || gate.retained then p
  else
    { p.modify i fun r =>
        { r with
          gates := Function.update r.gates kind
            { gate with
              registered := gate.registered && !(gate.retireRequested && kind.isTimer)
              pending := false
              retireRequested := false
              ingressSequence := 0
              permit := false }
          identitySlots := if kind.isIdentityGate then Function.update r.identitySlots kind none else r.identitySlots } with
      criticalCount := if gate.permit then p.criticalCount - 1 else p.criticalCount }

def resetSlot (p : Pool c) (i : Slot c) (advance : Bool) : Pool c :=
  { p.modify i fun r => { timerGeneration := fun t => if advance then r.timerGeneration t + 1 else r.timerGeneration t } with
    criticalCount := p.criticalCount - GateKind.all.countP fun kind => (p.gate i kind).permit }

def resetIfUnowned (p : Pool c) (i : Slot c) : Pool c :=
  if !(p.residents i).existing && !(p.residents i).hasOwnership then p.resetSlot i false else p

def returnGate (p : Pool c) (lease : SourceLease c) : Bool × Pool c :=
  let gate := p.gate lease.index lease.gate
  if !gate.callbackLease || gate.leaseSerial ≠ lease.serial ||
      (gate.exportedLeaseSerial ≠ 0 && gate.exportedLeaseSerial ≠ lease.serial) then (false, p)
  else if lease.borrowed then (true, p)
  else
    let q := p.setGate lease.index lease.gate { gate with callbackLease := false, exportedLeaseSerial := 0 }
    let q := if lease.acquiredPermit || gate.retireRequested then q.releaseUnusedGate lease.index lease.gate else q
    (true, q.resetIfUnowned lease.index)

def retainGate (p : Pool c) (id : Uuid) (kind : GateKind) : Bool × Pool c :=
  match p.find id with
  | none => (false, p)
  | some i =>
      if !(p.gate i kind).permit || (p.gate i kind).retained || !(p.mode = .running || p.mode = .quiescing) then (false, p)
      else match p.acquireGate i kind false with
        | (none, q) => (false, q)
        | (some _, q) => (true, q.setGate i kind { q.gate i kind with retained := true })

def retireWorkerProtocol (p : Pool c) (i : Slot c) : Pool c :=
  let worker := p.gate i .worker
  (p.setGate i .worker
    { worker with
      retained := false
      ackAuthorized := false
      retireRequested := true
      callbackLease := worker.callbackLease && worker.exportedLeaseSerial ≠ 0 }).releaseUnusedGate i .worker

def releaseGate (p : Pool c) (e : Entry c) (successful : Bool) : Pool c :=
  if !e.critical then { p with normalCount := p.normalCount - 1 }
  else if e.input = .shutdown then p
  else match e.resident, e.gate with
    | some i, some kind =>
        if (p.gate i kind).queuedSequence ≠ e.sequence then p.fail .gateMismatch
        else
          let gate := { p.gate i kind with queuedSequence := 0, pending := false }
          if kind = .worker && successful then
            p.setGate i kind { gate with retained := true, retireRequested := false }
          else
            let q := p.setGate i kind { gate with registered := gate.registered && !kind.isTimer }
            let q := if kind = .processExit && successful then q.retireWorkerProtocol i else q
            let q := q.setGate i kind { q.gate i kind with retireRequested := true }
            (q.releaseUnusedGate i kind).resetIfUnowned i
    | _, _ => p.fail .gateMismatch

def retireShutdownGate (p : Pool c) : Pool c :=
  { p with
    shutdownPending := false
    shutdownRegistered := false
    shutdownPermit := false
    criticalCount := if p.shutdownPermit then p.criticalCount - 1 else p.criticalCount }

def cancelGate (p : Pool c) (i : Slot c) (kind : GateKind) : Pool c :=
  let gate := p.gate i kind
  (p.setGate i kind
    { gate with
      retained := false
      ackAuthorized := false
      retireRequested := true
      callbackLease := gate.callbackLease && gate.exportedLeaseSerial ≠ 0 }).releaseUnusedGate i kind

def cancelGates (p : Pool c) : Pool c :=
  (slots c).foldl (fun p i => GateKind.all.foldl (fun p kind => p.cancelGate i kind) p) p

def retireGate (p : Pool c) (i : Slot c) (kind : GateKind) : Pool c :=
  let gate := { p.gate i kind with retireRequested := true }
  if gate.retained || gate.callbackLease then p.setGate i kind gate
  else (p.setGate i kind { gate with registered := gate.registered && !kind.isTimer }).releaseUnusedGate i kind

def hasSourceLeaseOwners (p : Pool c) : Bool :=
  (slots c).any fun i => GateKind.all.any fun kind => (p.gate i kind).exportedLeaseSerial ≠ 0

def canActivateSources (p : Pool c) (i : Slot c) (plan : List GateKind) : Bool :=
  p.criticalCount ≤ c.criticalReserve &&
    (plan.countP fun kind => !(p.gate i kind).permit) ≤ c.criticalReserve - p.criticalCount

def activateSource (p : Pool c) (i : Slot c) (kind : GateKind) : Pool c :=
  { p.setGate i kind { p.gate i kind with registered := true, retireRequested := false, permit := true } with
    criticalCount := if (p.gate i kind).permit then p.criticalCount else p.criticalCount + 1 }

def activateSources (p : Pool c) (i : Slot c) (plan : List GateKind) : Pool c :=
  plan.foldl (fun p kind => p.activateSource i kind) p

/-! ## Slots -/

def releaseCreationClaim (p : Pool c) (e : Entry c) : Pool c :=
  let q := match e.victim with
    | none => p
    | some victim => p.modify victim fun r => { r with claimed := false }
  match e.input.isCreation, e.resident with
  | true, some i => (q.modify i fun r => { r with claims := r.claims - 1 }).resetIfUnowned i
  | _, _ => q

def ordinaryFree (p : Pool c) : Option (Slot c) := (slots c).find? fun i => i ≠ p.spare && !(p.residents i).reserved

def oldestVictim (p : Pool c) : Option (Slot c) :=
  let at? (n : Nat) : Option Resident := if inside : n < c.maxJobs + 1 then some (p.residents ⟨n, inside⟩) else none
  (oldestClosed (c.maxJobs + 1) (fun n => ((at? n).filter (·.existing)).map (·.snapshot))
    (fun n => ((at? n).map (·.createdSequence)).getD 0)).bind fun n =>
      if inside : n < c.maxJobs + 1 then some ⟨n, inside⟩ else none

def canReserve (p : Pool c) : Bool :=
  p.ordinaryFree.isSome || (!(p.residents p.spare).reserved && p.oldestVictim.isSome)

def occupy (p : Pool c) (i : Slot c) (id : Uuid) (ticket : Bool) : Pool c :=
  (p.modify i fun r =>
    { r with id, reserved := true, ticket, claims := 1, banks := fun _ => ⟨initialSnapshot id id, [], none⟩ }).registerGate i
    .terminate

def reserve (p : Pool c) (id : Uuid) : Option (Slot c) × Pool c :=
  match (p.find id).filter fun i => !(p.residents i).claimed with
  | some i => (some i, p.modify i fun r => { r with claims := r.claims + 1 })
  | none =>
      match p.ordinaryFree with
      | some i => (some i, p.occupy i id false)
      | none => if p.canReserve then (some p.spare, p.occupy p.spare id true) else (none, p)

inductive Selection where
  | proceed | refuse | fail
deriving DecidableEq, Repr

def selectRetirement (p : Pool c) (i : Slot c) : Selection × Option (Slot c) × Pool c :=
  if !(p.residents i).ticket then (.proceed, none, p)
  else if ((slots c).countP fun j => (p.residents j).existing) < c.maxJobs then
    match p.ordinaryFree with
    | none => (.refuse, none, p)
    | some ordinary => (.proceed, none, { p.modify i fun r => { r with ticket := false } with spare := ordinary })
  else match p.oldestVictim with
    | none => (.fail, none, p)
    | some victim =>
        if (p.residents victim).hasOwnership then (.refuse, none, p)
        else (.proceed, some victim, p.modify victim fun r => { r with claimed := true })

def release (p : Pool c) (e : Entry c) (successful : Bool) : Pool c := (p.releaseCreationClaim e).releaseGate e successful

/-! ## Startup -/

/-- One round of the loop of `Seed`; `none` where it throws. -/
def seedJob (p : Pool c) (earlier : List Snapshot) (job : Snapshot) : Option (Pool c) :=
  if inside : earlier.length < c.maxJobs + 1 then
    if !job.entityExists || earlier.any (fun other => other.jobId = job.jobId) then none
    else
      some ((p.modify ⟨earlier.length, inside⟩ fun r =>
        { r with
          id := job.jobId
          banks := fun _ => ⟨job, [], none⟩
          existing := true
          reserved := true
          createdSequence :=
            if c.replayedCreatedSequences.isEmpty then UInt64.ofNat (earlier.length + 1)
            else c.replayedCreatedSequences.getD earlier.length 0 }).registerGate ⟨earlier.length, inside⟩ .terminate)
  else none

def seedJobs (p : Pool c) (earlier : List Snapshot) : List Snapshot → Option (Pool c)
  | [] => some p
  | job :: rest => (p.seedJob earlier job).bind fun q => q.seedJobs (earlier ++ [job]) rest

def isUnresolvedSeed (p : Pool c) (id : Uuid) : Bool :=
  match p.find id with
  | none => false
  | some i => !isClosed (p.residents i).snapshot

def empty (c : Setup) : Pool c := { residents := fun _ => {}, spare := Fin.last c.maxJobs }

def seed (c : Setup) : Option (Pool c) :=
  if c.replayedJobs.length > c.maxJobs ||
      (!c.replayedCreatedSequences.isEmpty && c.replayedCreatedSequences.length ≠ c.replayedJobs.length) then none
  else ((empty c).seedJobs [] c.replayedJobs).filter fun p => c.unresolvedJobs.all p.isUnresolvedSeed && !p.failed

end Pool

end Sitometron.Core.Orchestrator
