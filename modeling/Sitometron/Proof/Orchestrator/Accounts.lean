import Sitometron.Proof.Orchestrator.Completion
import Sitometron.Proof.Orchestrator.Rounds

/-!
# The accounts of the writer

What the counters stand for in every state of a run, and which failures of the service they exclude.
-/

namespace Sitometron.Core.Orchestrator

variable {c : Setup} {lib : Libraries} {s : State c}

structure Agrees (lib : Libraries) (s : Snapshot) (proposal : PreEnvelopeProposal) : Prop where
  applied : (apply lib s proposal).rejection = none
  decided : decideEvent lib s proposal.event = .ok proposal

theorem Agrees.of_proposed {s : Snapshot} {proposal : PreEnvelopeProposal} (proposed : Proposed lib s proposal) :
    Agrees lib s proposal := ⟨apply_of_decided proposed.decided, proposed.decided⟩

theorem Reached.clean (reached : Reached lib c s) {fault : Fault} (breach : fault.isBreach = true) :
    fault ∉ s.pool.faults ∧ ∀ e, s.writer ≠ .failing e fault := by
  have orderly := reached.orderly
  constructor
  · intro member
    simp [orderly.kept.clean fault member] at breach
  · intro e phase
    have fine := orderly.course
    rw [phase] at fine
    simp [show fault.isBreach = false from fine] at breach

theorem decide_and_apply_agree (lib : Libraries) :
    (∀ (s : Snapshot) (command : Command) (proposal : PreEnvelopeProposal), decideCommand s command = .ok proposal →
      Agrees lib s proposal) ∧
    (∀ (s : Snapshot) (event : InternalEvent) (proposal : PreEnvelopeProposal), decideEvent lib s event = .ok proposal →
      Agrees lib s proposal) ∧
    (∀ (s : Snapshot) (command : Command), command.schemaVersion = 1 → command.commandType ≠ .invalid →
      command.jobId = s.jobId → decideCommand s command = decideEvent lib s command.event) ∧
    ∀ (c : Setup) (s : State c), Reached lib c s →
      .applyRejected ∉ s.pool.faults ∧ ∀ e, s.writer ≠ .failing e .applyRejected := by
  refine ⟨?_, ?_, ?_, ?_⟩
  · intro s command proposal accepted
    exact .of_proposed (.command command accepted)
  · intro s event proposal accepted
    exact .of_proposed (.event event accepted)
  · intro s command version known job
    exact decideCommand_eq_decideEvent lib version known job
  · intro c s reached
    exact reached.clean rfl

def sampleOrder (commandType : CommandType) : Command where
  schemaVersion := 1
  jobId := sampleJob
  commandType
  principalSubject := text "operator"

def sampleLate : InternalEvent := ⟨1, sampleJob, .workerFailed, .workerEvent ⟨sampleWorker, 2⟩⟩

/-- A cancellation, and an outcome that becomes a late one. -/
theorem decide_and_apply_agree_late : ∃ history s cancelled late,
    runProposals sampleLibraries (initialSnapshot sampleJob sampleJob) sampleSuccess = some (history, s) ∧
      late.eventType = .lateWorkerEvent ∧ Agrees sampleLibraries s late ∧ Agrees sampleLibraries samplePreparing cancelled ∧
      decideCommand s (sampleOrder .cancel) = decideEvent sampleLibraries s (sampleOrder .cancel).event ∧
      .applyRejected ∉ sampleStart.pool.faults := by
  obtain ⟨commands, events, both, runs⟩ := decide_and_apply_agree sampleLibraries
  have evaluated : (runProposals sampleLibraries (initialSnapshot sampleJob sampleJob) sampleSuccess).map (fun run =>
      (decideEvent sampleLibraries run.2 sampleLate, run.2.jobId)) =
      some (.ok ⟨1, sampleJob, .lateWorkerEvent, .lateWorkerEvent ⟨.workerFailed, sampleWorker, 2⟩⟩, sampleJob) := by
    decide +kernel
  have cancelled : decideCommand samplePreparing (sampleOrder .cancel) =
      .ok ⟨1, sampleJob, .cancelAccepted, .principal ⟨text "operator"⟩⟩ := by decide +kernel
  obtain ⟨⟨history, s⟩, ran, seen⟩ := Option.map_eq_some_iff.1 evaluated
  obtain ⟨accepted, job⟩ := Prod.mk.inj seen
  exact ⟨history, s, _, _, ran, rfl, events s sampleLate _ accepted, commands samplePreparing (sampleOrder .cancel) _ cancelled,
    both s (sampleOrder .cancel) rfl (by decide) job.symm, (runs sampleSetup _ (sample_reached [])).1⟩

structure Accounted (s : State c) : Prop where
  critical : s.pool.criticalCount = (∑ i, ∑ kind, (s.pool.gate i kind).permit.toNat) + s.pool.shutdownPermit.toNat
  reserve : s.pool.criticalCount ≤ c.criticalReserve ∧ c.criticalReserve = 9 * (c.maxJobs + 1) + 1
  normal : s.pool.normalCount = (s.live.countP fun e => !e.critical) ∧ s.pool.normalCount ≤ c.normalCapacity
  /-- A critical entry has its gate on a slot of its Job. -/
  entries : ∀ e ∈ s.live, e.critical = true → e.input ≠ .shutdown → ∃ i kind, e.resident = some i ∧ e.gate = some kind ∧
    (s.pool.residents i).reserved = true ∧ (s.pool.residents i).id = e.input.jobId ∧
    (s.pool.gate i kind).queuedSequence = e.sequence
  named : ∀ i kind, (s.pool.gate i kind).queuedSequence ≠ 0 →
    ∃ e, s.live.filter (fun e => e.critical && e.resident = some i && e.gate = some kind) = [e] ∧
      e.sequence = (s.pool.gate i kind).queuedSequence
  /-- None of these failures has come, and no turn is about to fail with one. -/
  healthy : ∀ fault ∈ [Fault.fifoFull, .reserveExhausted, .gateMismatch, .sourcesRefused, .residualPermit],
    fault ∉ s.pool.faults ∧ ∀ e, s.writer ≠ .failing e fault

theorem Fits.queuedSequence_eq {p : Pool c} {live : List (Entry c)} {e : Entry c} {i : Slot c} {kind : GateKind}
    (fits : Fits p live) (member : e ∈ live) (critical : e.critical = true) (seat : e.resident = some i)
    (gate : e.gate = some kind) : (p.gate i kind).queuedSequence = e.sequence := by
  have occupied : e.sequence ∈ (live.filter (·.occupies i kind)).map (·.sequence) :=
    List.mem_map.2 ⟨e, List.mem_filter.2 ⟨member, by simp [Entry.occupies, critical, seat, gate]⟩, rfl⟩
  rw [fits.queued, listed] at occupied
  split at occupied
  · cases occupied
  · exact (List.mem_singleton.1 occupied).symm

theorem accounts_balance (lib : Libraries) (c : Setup) (s : State c) (reached : Reached lib c s) : Accounted s := by
  have housed := reached.orderly.housed
  have settled := housed.settled
  refine ⟨settled.kept.balanced, ⟨settled.kept.reserve_free.le, c.criticalReserve_eq⟩, ⟨housed.normal, housed.bounded⟩, ?_, ?_, ?_⟩
  · intro e member critical other
    obtain ⟨seated, gated⟩ := (settled.fits.formed e member).critical critical other
    obtain ⟨i, seat⟩ := Option.isSome_iff_exists.1 seated
    obtain ⟨kind, gate⟩ := Option.isSome_iff_exists.1 gated
    obtain ⟨reserved, id⟩ := settled.fits.seated e member i seat
    exact ⟨i, kind, seat, gate, reserved, id, settled.fits.queuedSequence_eq member critical seat gate⟩
  · intro i kind queued
    have named := settled.fits.queued i kind
    rw [listed, if_neg queued] at named
    obtain ⟨e, only, sequence⟩ := List.map_eq_singleton_iff.1 named
    exact ⟨e, only, sequence⟩
  · intro fault member
    apply reached.clean
    fin_cases member <;> rfl

def sampleTermination : List (Action sampleSetup) := sampleCreation ++ [.submitCommand (sampleOrder .terminate)]

theorem accounts_balance_sample :
    (sampleTermination.foldl (step sampleLibraries) sampleStart).live.map (fun e => (e.critical, e.gate)) =
        [(true, some .terminate)] ∧
      Accounted (sampleTermination.foldl (step sampleLibraries) sampleStart) :=
  ⟨by decide +kernel, accounts_balance _ _ _ (sample_reached sampleTermination)⟩

/-- Between the release and the completion of a turn its entry is in flight and counted no more. -/
theorem released_in_flight : ∃ s : State sampleSetup, Reached sampleLibraries sampleSetup s ∧ s.book.inFlight = true ∧
    (s.waiting.countP fun e => !e.critical) = 1 ∧ s.pool.normalCount = 0 :=
  ⟨sampleCreation.dropLast.foldl (step sampleLibraries) sampleStart, sample_reached _, by decide +kernel⟩

/-- How the Jobs sit in their slots. -/
structure Seated (s : State c) : Prop where
  distinct : ∀ i j, (s.pool.residents i).reserved = true → (s.pool.residents j).reserved = true →
    (s.pool.residents i).id = (s.pool.residents j).id → i = j
  few : ((slots c).countP fun j => (s.pool.residents j).existing) ≤ c.maxJobs
  spare : ∀ i, (s.pool.residents i).ticket = true → i = s.pool.spare ∧ (s.pool.residents i).existing = false
  claimed : ∀ i, (s.pool.residents i).claimed = true → s.writer.victim? = some i
  held : ∀ i, (s.pool.residents i).isHeld

theorem slots_disciplined (lib : Libraries) (c : Setup) (s : State c) (reached : Reached lib c s) : Seated s := by
  obtain ⟨kept, -, slotted, held⟩ := reached.orderly.housed.settled
  refine ⟨slotted.distinct, ?_, fun i ticket => ⟨((slotted.ticket i).1 ticket).1, (kept.residents i).ticket ticket⟩,
    fun i => (slotted.claimed i).1, held⟩
  -- one slot more than Jobs, and the spare is not there
  have fewer := (List.countP_lt_length_iff (p := fun j => (s.pool.residents j).existing)).2
    ⟨s.pool.spare, List.mem_finRange _, kept.spare⟩
  rw [List.length_finRange] at fewer
  exact Nat.lt_succ_iff.1 fewer

theorem slots_disciplined_sample : Seated (sampleTermination.foldl (step sampleLibraries) sampleStart) :=
  slots_disciplined _ _ _ (sample_reached _)

end Sitometron.Core.Orchestrator
