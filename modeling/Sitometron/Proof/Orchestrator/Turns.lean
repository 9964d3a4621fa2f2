import Sitometron.Proof.Orchestrator.Producers

/-!
# What the writer can do

The sections of a turn with the conditions under which each is passed. `Turned` is to `ProcessOne` what `Produced` is to the
other operations.
-/

namespace Sitometron.Core.Orchestrator

variable {c : Setup} {lib : Libraries} {s : State c} {answer : Answer} {e : Entry c}

def Phase.entry? : Phase c → Option (Entry c)
  | .idle => none
  | .dequeued e | .started e | .found e _ | .selected e _ | .rejecting e _ | .decided e _ _ _ | .prepared e _
  | .attempted e _ | .committed e _ | .dispatching e _ _ | .performing e _ _ _ | .completing e _ | .failing e _
  | .undefined e => some e

inductive Interruptible : Phase c → Entry c → Prop
  | locating {e : Entry c} : e.input ≠ .shutdown → Interruptible (.started e) e
  | deciding {e : Entry c} {slot : Option (Slot c)} : Interruptible (.selected e slot) e
  | applying {e : Entry c} {slot : Option (Slot c)} {before : Snapshot} {proposal : PreEnvelopeProposal} :
      Interruptible (.decided e slot before proposal) e

theorem Interruptible.entry {phase : Phase c} (open_ : Interruptible phase e) : phase.entry? = some e := by
  cases open_ <;> rfl

inductive PreparationFault (s : State c) (answer : Answer) (i : Slot c) (applied : ApplyResult)
    (proposal : PreEnvelopeProposal) : Fault → Prop
  | trace : s.hasTraceCapacity (requiredTraceSlots proposal.eventType applied) = false →
      PreparationFault s answer i applied proposal .traceExhausted
  | late : answer.late = true → PreparationFault s answer i applied proposal .thrown
  | effects {fault : Fault} :
      prepareEffects c (s.pool.residents i) (State.logicalEvent proposal answer.recordedAt) applied = .error fault →
      PreparationFault s answer i applied proposal fault

structure Prepared (s : State c) (answer : Answer) (i : Slot c) (applied : ApplyResult) (proposal : PreEnvelopeProposal)
    (operations : List PreparedEffect) : Prop where
  room : s.hasTraceCapacity (requiredTraceSlots proposal.eventType applied) = true
  effects : prepareEffects c (s.pool.residents i) (State.logicalEvent proposal answer.recordedAt) applied = .ok operations

def preparedTurn (s : State c) (answer : Answer) (i : Slot c) (applied : ApplyResult) (proposal : PreEnvelopeProposal)
    (operations : List PreparedEffect) : Turn c where
  slot := i
  bank := !(s.pool.residents i).active
  event := State.logicalEvent proposal answer.recordedAt
  plan := planDerivedSources applied proposal.eventType
  operations
  trace := prepareTrace (State.logicalEvent proposal answer.recordedAt) operations

structure Ticketed (s : State c) (e : Entry c) (i : Slot c) : Prop where
  creation : e.input.isCreation = true
  resident : e.resident = some i
  ticket : (s.pool.residents i).ticket = true

def Pool.isCrowded (p : Pool c) : Prop := c.maxJobs ≤ (slots c).countP fun j => (p.residents j).existing

inductive Turned (lib : Libraries) (s : State c) (answer : Answer) : State c → Prop
  | waiting : s.writer = .idle → s.fifo.front? = none → Turned lib s answer s
  | dequeued {e : Entry c} : s.writer = .idle → s.fifo.front? = some e →
      Turned lib s answer (({ s with
        fifo := s.fifo.pop
        book := { s.book with inFlight := true, inFlightSequence := e.sequence } }.note
          (.dequeued { e with authorized := !s.pool.failed })).enter (.dequeued { e with authorized := !s.pool.failed }))
  | cleared {e : Entry c} : s.writer = .dequeued e → s.pool.failed = true → e.authorized = false → e.input = .shutdown →
      Turned lib s answer (({ s with pool := s.pool.releaseGate e true }.complete e { code := .success }).enter .idle)
  | dropped {e : Entry c} : s.writer = .dequeued e → s.pool.failed = true → e.authorized = false → e.input ≠ .shutdown →
      Turned lib s answer ((s.dispose e).enter .idle)
  | started {e : Entry c} : s.writer = .dequeued e → s.pool.failed = false ∨ e.authorized = true →
      Turned lib s answer (s.enter (.started e))
  | marked {e : Entry c} : s.writer = .started e → e.input = .shutdown → Turned lib s answer (s.processMarker e)
  | located {e : Entry c} {i : Slot c} : s.writer = .started e → e.input ≠ .shutdown →
      s.pool.find e.input.jobId = some i → Turned lib s answer (s.enter (.found e (some i)))
  | reserved {e : Entry c} : s.writer = .started e → e.input.isCreation = true → s.pool.find e.input.jobId = none →
      Turned lib s answer
        ({ s with pool := (s.pool.reserve e.input.jobId).2 }.enter (.found e (s.pool.reserve e.input.jobId).1))
  | missing {e : Entry c} : s.writer = .started e → e.input ≠ .shutdown → e.input.isCreation = false →
      s.pool.find e.input.jobId = none → Turned lib s answer (s.enter (.found e none))
  | passed {e : Entry c} {slot : Option (Slot c)} : s.writer = .found e slot → e.input.isCreation = false →
      Turned lib s answer (s.enter (.selected e slot))
  | lost {e : Entry c} {slot : Option (Slot c)} : s.writer = .found e slot → e.input.isCreation = true →
      e.resident = none → Turned lib s answer (s.enter (.undefined e))
  | kept {e : Entry c} {slot : Option (Slot c)} {i : Slot c} : s.writer = .found e slot → e.input.isCreation = true →
      e.resident = some i → (s.pool.residents i).ticket = false →
      Turned lib s answer (s.enter (.selected { e with victim := none } slot))
  | exchanged {e : Entry c} {slot : Option (Slot c)} {i ordinary : Slot c} : s.writer = .found e slot → Ticketed s e i →
      s.pool.ordinaryFree = some ordinary →
      Turned lib s answer
        ({ s with pool := { s.pool.modify i fun r => { r with ticket := false } with spare := ordinary } }.enter
          (.selected { e with victim := none } slot))
  | claimed {e : Entry c} {slot : Option (Slot c)} {i victim : Slot c} : s.writer = .found e slot → Ticketed s e i →
      s.pool.isCrowded → s.pool.oldestVictim = some victim → (s.pool.residents victim).hasOwnership = false →
      Turned lib s answer
        ({ s with pool := s.pool.modify victim fun r => { r with claimed := true } }.enter
          (.selected { e with victim := some victim } slot))
  | refused {e : Entry c} {slot : Option (Slot c)} {i : Slot c} : s.writer = .found e slot → Ticketed s e i →
      Turned lib s answer
        (({ s with pool := s.pool.release e false }.complete e { code := .residentLimit }).enter .idle)
  | noVictim {e : Entry c} {slot : Option (Slot c)} {i : Slot c} : s.writer = .found e slot → Ticketed s e i →
      s.pool.isCrowded → s.pool.oldestVictim = none → Turned lib s answer (s.enter (.failing e .noVictim))
  | rejected {e : Entry c} {slot : Option (Slot c)} {rejection : Rejection} : s.writer = .selected e slot →
      State.decideInput lib (s.before e slot) e.input = .error rejection →
      Turned lib s answer (s.enter (.rejecting e rejection))
  | decided {e : Entry c} {slot : Option (Slot c)} {proposal : PreEnvelopeProposal} : s.writer = .selected e slot →
      State.decideInput lib (s.before e slot) e.input = .ok proposal →
      Turned lib s answer (s.enter (.decided e slot (s.before e slot) proposal))
  | released {e : Entry c} {rejection : Rejection} : s.writer = .rejecting e rejection →
      Turned lib s answer ({ s with pool := s.pool.release e false }.enter
        (.completing e { code := .reducerRejection, rejection := some rejection }))
  | threw {e : Entry c} : Interruptible s.writer e → Turned lib s answer (s.enter (.failing e .thrown))
  | exhausted {e : Entry c} {slot : Option (Slot c)} {before : Snapshot} {proposal : PreEnvelopeProposal} :
      s.writer = .decided e slot before proposal → s.cannotMaterialize e = true →
      Turned lib s answer (s.enter (.failing e .cannotMaterialize))
  | unapplied {e : Entry c} {slot : Option (Slot c)} {before : Snapshot} {proposal : PreEnvelopeProposal} :
      s.writer = .decided e slot before proposal → (apply lib before proposal).rejection.isSome = true →
      Turned lib s answer (s.enter (.failing e .applyRejected))
  | slotless {e : Entry c} {before : Snapshot} {proposal : PreEnvelopeProposal} :
      s.writer = .decided e none before proposal → (apply lib before proposal).rejection = none →
      Turned lib s answer (s.enter (.undefined e))
  | unprepared {e : Entry c} {i : Slot c} {before : Snapshot} {proposal : PreEnvelopeProposal} {t : State c} {fault : Fault} :
      s.writer = .decided e (some i) before proposal → (apply lib before proposal).rejection = none →
      t = { s with pool := State.writeBank s.pool i (apply lib before proposal) } →
      PreparationFault t answer i (apply lib before proposal) proposal fault →
      Turned lib s answer (t.enter (.failing e fault))
  | prepared {e : Entry c} {i : Slot c} {before : Snapshot} {proposal : PreEnvelopeProposal} {t : State c}
      {operations : List PreparedEffect} :
      s.writer = .decided e (some i) before proposal → s.cannotMaterialize e = false →
      (apply lib before proposal).rejection = none →
      t = { s with pool := State.writeBank s.pool i (apply lib before proposal) } →
      Prepared t answer i (apply lib before proposal) proposal operations →
      Turned lib s answer (t.enter (.prepared e (preparedTurn t answer i (apply lib before proposal) proposal operations)))
  | barred {e : Entry c} {turn : Turn c} : s.writer = .prepared e turn →
      s.pool.canActivateSources turn.slot turn.plan = false → Turned lib s answer (s.enter (.failing e .sourcesRefused))
  | attempted {e : Entry c} {turn : Turn c} : s.writer = .prepared e turn →
      s.pool.canActivateSources turn.slot turn.plan = true →
      Turned lib s answer (((s.beginTurn turn).publishPrepared (State.stamp turn s.nextJournal)).1.enter
        (.attempted e ((s.beginTurn turn).publishPrepared (State.stamp turn s.nextJournal)).2))
  | uncommitted {e : Entry c} {turn : Turn c} : s.writer = .attempted e turn → answer.commit ≠ .committed →
      Turned lib s answer ((s.note (.commit e turn.event answer.commit)).enter (.failing e .commitFailed))
  | committed {e : Entry c} {turn : Turn c} : s.writer = .attempted e turn → answer.commit = .committed →
      Turned lib s answer (((s.note (.commit e turn.event answer.commit)).publishPrepared turn).1.enter
        (.committed e ((s.note (.commit e turn.event answer.commit)).publishPrepared turn).2))
  | installed {e : Entry c} {turn : Turn c} : s.writer = .committed e turn → Turned lib s answer (s.install e turn)
  | declared {e : Entry c} {turn : Turn c} {operation : PreparedEffect} {rest : List PreparedEffect} :
      s.writer = .dispatching e turn (operation :: rest) → Turned lib s answer (s.declareEffect e turn operation rest)
  | performed {e : Entry c} {turn : Turn c} {operation : PreparedEffect} {rest : List PreparedEffect} :
      s.writer = .performing e turn operation rest → Turned lib s answer (s.performEffect e turn operation rest)
  | responded {e : Entry c} {turn : Turn c} : s.writer = .dispatching e turn [] → Turned lib s answer (s.respond e turn)
  | completed {e : Entry c} {value : Completion} : s.writer = .completing e value →
      Turned lib s answer ((s.complete e value).enter .idle)
  | failed {e : Entry c} {fault : Fault} : s.writer = .failing e fault → Turned lib s answer (s.failTurn e fault)
  | stuck {e : Entry c} : s.writer = .undefined e → Turned lib s answer s

namespace Turned

theorem dequeue (idle : s.writer = .idle) : Turned lib s answer s.dequeue := by
  rw [State.dequeue]
  split
  · next empty => exact .waiting idle empty
  · next e front => exact .dequeued (e := e) idle front

theorem start (phase : s.writer = .dequeued e) : Turned lib s answer (s.start e) := by
  rw [State.start]
  split
  · next condemned =>
    simp only [Bool.and_eq_true, Bool.not_eq_true'] at condemned
    split
    · next marker => exact .cleared phase condemned.1 condemned.2 marker
    · next other => exact .dropped phase condemned.1 condemned.2 other
  · next fine =>
    simp only [Bool.and_eq_true, Bool.not_eq_true', not_and, Bool.not_eq_false] at fine
    apply Turned.started phase
    cases failed : s.pool.failed with
    | false => exact .inl rfl
    | true => exact .inr (fine failed)

theorem locate (phase : s.writer = .started e) (other : e.input ≠ .shutdown) : Turned lib s answer (s.locate e) := by
  rw [State.locate]
  split
  · next i found => exact .located phase other found
  · next absent =>
    split
    · next creation => exact .reserved phase creation absent
    · next usual => exact .missing phase other (by simpa using usual) absent

theorem select {slot : Option (Slot c)} (phase : s.writer = .found e slot) : Turned lib s answer (s.select e slot) := by
  rw [State.select]
  split
  · next usual => exact .passed phase (by simpa using usual)
  next created =>
  have creation : e.input.isCreation = true := by simpa using created
  split
  · next homeless => exact .lost phase creation homeless
  next i resident =>
  rw [Pool.selectRetirement]
  cases ticket : (s.pool.residents i).ticket with
  | false => exact .kept phase creation resident ticket
  | true =>
      have ticketed : Ticketed s e i := ⟨creation, resident, ticket⟩
      by_cases few : ((slots c).countP fun j => (s.pool.residents j).existing) < c.maxJobs
      · cases free : s.pool.ordinaryFree with
        | none => simpa [few] using refused phase ticketed
        | some ordinary => simpa [few] using exchanged phase ticketed free
      · have crowded : s.pool.isCrowded := Nat.le_of_not_lt few
        cases oldest : s.pool.oldestVictim with
        | none => simpa [few] using noVictim phase ticketed crowded oldest
        | some victim =>
            cases owned : (s.pool.residents victim).hasOwnership with
            | true => simpa [few, owned] using refused phase ticketed
            | false => simpa [few, owned] using claimed phase ticketed crowded oldest owned

theorem prepare {slot : Option (Slot c)} {before : Snapshot} {proposal : PreEnvelopeProposal}
    (phase : s.writer = .decided e slot before proposal) :
    Turned lib s answer (s.prepare lib answer e slot before proposal) := by
  unfold State.prepare
  split
  · next exhausted => exact .exhausted phase exhausted
  next enough =>
  split
  · exact .threw (phase ▸ .applying)
  split
  · next rejected => exact .unapplied phase rejected
  next fine =>
  have applied : (apply lib before proposal).rejection = none := by simpa using fine
  split
  · exact .slotless phase applied
  rw [State.materialize]
  split
  · next full => exact .unprepared phase applied rfl (.trace (by simpa using full))
  next room =>
  split
  · next late => exact .unprepared phase applied rfl (.late late)
  split
  · next fault refused => exact .unprepared phase applied rfl (.effects refused)
  · next operations effects =>
    exact .prepared phase (by simpa using enough) applied rfl ⟨by simpa using room, effects⟩

theorem attempt {turn : Turn c} (phase : s.writer = .prepared e turn) : Turned lib s answer (s.attempt e turn) := by
  rw [State.attempt]
  split
  · next closed => exact .barred phase (by simpa using closed)
  · next ready => exact .attempted phase (by simpa using ready)

theorem commit {turn : Turn c} (phase : s.writer = .attempted e turn) : Turned lib s answer (s.commit answer e turn) := by
  rw [State.commit]
  split
  · next refused => exact .uncommitted phase refused
  · next done => exact .committed phase (by simpa using done)

end Turned

theorem turned (lib : Libraries) (s : State c) (answer : Answer) : Turned lib s answer (s.writerStep lib answer) := by
  rw [State.writerStep]
  cases phase : s.writer with
  | idle => exact .dequeue phase
  | dequeued e => exact .start phase
  | started e =>
      dsimp only
      split
      · next marker => exact .marked phase marker
      next other =>
      split
      · exact .threw (phase ▸ .locating other)
      · exact .locate phase other
  | found e slot => exact .select phase
  | selected e slot =>
      dsimp only
      split
      · exact .threw (phase ▸ .deciding)
      rw [State.decide]
      split
      · next rejection refused => exact .rejected phase refused
      · next proposal accepted => exact .decided phase accepted
  | rejecting e rejection => exact .released phase
  | decided e slot before proposal => exact .prepare phase
  | prepared e turn => exact .attempt phase
  | attempted e turn => exact .commit phase
  | committed e turn => exact .installed phase
  | dispatching e turn rest =>
      cases rest with
      | nil => exact .responded phase
      | cons operation rest => exact .declared phase
  | performing e turn operation rest => exact .performed phase
  | completing e value => exact .completed phase
  | failing e fault => exact .failed phase
  | undefined e => exact .stuck phase

end Sitometron.Core.Orchestrator
