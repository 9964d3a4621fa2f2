import Sitometron.Core.Orchestrator.Turn
import Sitometron.Proof.Core.Effects

/-!
# Timers over the life of a Job

Which phases are armed after a run, read off the effects that it asked for, and the states in which each may be.
-/

namespace Sitometron.Core

open Orchestrator

def timeoutPhase (phase : Fin 4) : TimeoutPhase :=
  match phase with
  | 0 => .preparation
  | 1 => .execution
  | 2 => .cooperativeStop
  | 3 => .processExitConfirmation

def followEffect (armed : TimeoutPhase → Bool) (effect : EffectId) : TimeoutPhase → Bool :=
  match armedPhase effect, disarmedPhase effect with
  | some phase, _ => Function.update armed (timeoutPhase phase) true
  | none, some phase => Function.update armed (timeoutPhase phase) false
  | none, none => armed

def expire (armed : TimeoutPhase → Bool) (type : EventType) (payload : EventPayload) : TimeoutPhase → Bool :=
  match type, payload with
  | .timeoutExpired, .timeoutExpired p => Function.update armed p.phase false
  | _, _ => armed

def followStep (lib : Libraries) (armed : TimeoutPhase → Bool) (step : Snapshot × PreEnvelopeProposal) : TimeoutPhase → Bool :=
  (effectsOf lib step).foldl followEffect (expire armed step.2.eventType step.2.payload)

def armedAfter (lib : Libraries) (history : List (Snapshot × PreEnvelopeProposal)) : TimeoutPhase → Bool :=
  history.foldl (followStep lib) fun _ => false

structure Follows (state : JobState) (armed : TimeoutPhase → Bool) : Prop where
  preparation : armed .preparation = true → state = .preparing
  cooperativeStop : armed .cooperativeStop = true → state = .stopping
  execution : armed .execution = true → state = .running ∨ state = .stopping ∨ state = .finalizing

section Steps

variable {lib : Libraries} {job session : Uuid} {s t : Snapshot} {proposal : PreEnvelopeProposal} {type : EventType}
  {payload : EventPayload} {u : Update} {history : List (Snapshot × PreEnvelopeProposal)} {state : JobState}
  {armed : TimeoutPhase → Bool}

namespace Follows

theorem unprepared (follows : Follows state armed) (left : state ≠ .preparing) : armed .preparation = false :=
  Bool.eq_false_iff.2 fun on => left (follows.preparation on)

theorem unstopped (follows : Follows state armed) (left : state ≠ .stopping) : armed .cooperativeStop = false :=
  Bool.eq_false_iff.2 fun on => left (follows.cooperativeStop on)

theorem stopping (prepared : armed .preparation = false) : Follows .stopping armed :=
  ⟨by simp [prepared], fun _ => rfl, fun _ => .inr (.inl rfl)⟩

theorem finalizing (prepared : armed .preparation = false) (stopped : armed .cooperativeStop = false) :
    Follows .finalizing armed :=
  ⟨by simp [prepared], by simp [stopped], fun _ => .inr (.inr rfl)⟩

theorem bare (prepared : armed .preparation = false) (stopped : armed .cooperativeStop = false)
    (executed : armed .execution = false) : Follows state armed :=
  ⟨by simp [prepared], by simp [stopped], by simp [executed]⟩

theorem unexecuted (follows : Follows state armed)
    (left : ¬(state = .running ∨ state = .stopping ∨ state = .finalizing)) : armed .execution = false :=
  Bool.eq_false_iff.2 fun on => left (follows.execution on)

end Follows

theorem Follows.disarmPreparation (follows : Follows s.state armed) :
    (disarmPreparation s).foldl followEffect armed .preparation = false ∧
      (disarmPreparation s).foldl followEffect armed .cooperativeStop = armed .cooperativeStop := by
  unfold Core.disarmPreparation
  split
  next => exact ⟨rfl, rfl⟩
  next left => exact ⟨follows.unprepared left, rfl⟩

theorem Follows.disarmCooperativeStop (stopped : s.state ≠ .stopping → armed .cooperativeStop = false) :
    (disarmCooperativeStop s).foldl followEffect armed .cooperativeStop = false ∧
      (disarmCooperativeStop s).foldl followEffect armed .preparation = armed .preparation := by
  unfold Core.disarmCooperativeStop
  split
  next => exact ⟨rfl, rfl⟩
  next left => exact ⟨stopped left, rfl⟩

theorem finalizingTimeout_effects (s : Snapshot) : (applyFinalizingExecutionTimeout s).1.state = s.state ∧
    ((applyFinalizingExecutionTimeout s).2 = [] ∨ (applyFinalizingExecutionTimeout s).2 = forcedStopEffects) := by
  simp only [applyFinalizingExecutionTimeout]
  repeat' split
  all_goals simp

theorem Moves.follows (moves : Moves s type payload u) (unborn : s.entityExists = false → s.state = .admitted)
    (follows : Follows s.state armed) : Follows u.1.state (u.2.foldl followEffect (expire armed type payload)) := by
  have prepared (state : s.state ≠ .preparing) := follows.unprepared state
  have stopped (state : s.state ≠ .stopping) := follows.unstopped state
  have left := follows.disarmPreparation
  cases moves with
  | jobCreated p absent =>
      rw [unborn absent] at follows
      exact follows
  | resourcesCommitted p _ state =>
      exact ⟨fun _ => rfl, fun on => absurd (follows.cooperativeStop on) (by simp [state]),
        fun on => absurd (follows.execution on) (by simp [state])⟩
  | workerLaunchIntent => exact follows
  | workerLaunchObserved p _ state =>
      unfold applyWorkerLaunchObserved
      split
      · exact follows
      · exact .finalizing rfl (stopped (by simp [state]))
  | workerRunning p _ state =>
      exact ⟨nofun, fun on => absurd (follows.cooperativeStop on) (by simp [state]), fun _ => .inl rfl⟩
  | cancelAccepted p _ state =>
      have stopped := stopped (by rcases state with h | h | h <;> simp [h])
      unfold applyCancelAccepted
      split
      · exact .finalizing left.1 (left.2.trans stopped)
      · rw [List.foldl_append]
        exact .stopping left.1
  | terminateAccepted p _ state =>
      have stopped := stopped (by rcases state with h | h | h <;> simp [h])
      rw [applyTerminateAccepted_early state]
      split
      · exact .finalizing left.1 (left.2.trans stopped)
      · rw [List.foldl_append]
        exact .stopping left.1
  | terminateEscalated p _ state =>
      rw [applyTerminateAccepted_late state]
      have prepared := prepared (by rcases state with h | h <;> simp [h])
      exact ⟨fun on => absurd (prepared.symm.trans on) nofun, nofun, follows.execution⟩
  | preparationTimeout _ _ state =>
      unfold applyPreparationTimeout
      split
      · exact .finalizing rfl (stopped (by simp [state]))
      · exact .stopping rfl
  | runningTimeout _ _ state => exact .stopping (prepared (by simp [state]))
  | stoppingTimeout _ _ state => exact ⟨follows.preparation, nofun, nofun⟩
  | cooperativeStopTimeout => exact ⟨follows.preparation, nofun, follows.execution⟩
  | finalizingTimeout _ _ state =>
      obtain ⟨same, none | forced⟩ := finalizingTimeout_effects s
      · rw [same, none]
        exact ⟨follows.preparation, follows.cooperativeStop, nofun⟩
      · rw [same, forced]
        exact ⟨follows.preparation, nofun, nofun⟩
  | exitConfirmationTimeout => exact ⟨follows.preparation, follows.cooperativeStop, follows.execution⟩
  | workerCompleted p _ state =>
      have disarmed := Follows.disarmCooperativeStop stopped
      unfold applyWorkerCompleted
      exact .finalizing (disarmed.2.trans (prepared (by rcases state with h | h <;> simp [h]))) disarmed.1
  | workerFailed p _ state =>
      unfold applyWorkerFailed
      rw [List.foldl_append]
      have disarmed := Follows.disarmCooperativeStop fun other => left.2.trans (stopped other)
      exact .finalizing (disarmed.2.trans left.1) disarmed.1
  | processExitConfirmed p _ state =>
      unfold applyProcessExitConfirmed
      split
      next =>
        split
        · exact follows
        · exact ⟨follows.preparation, nofun, follows.execution⟩
      split
      next preparing => exact .finalizing rfl (stopped (by simp [preparing]))
      split
      next running => exact .finalizing (prepared (by simp [running])) (stopped (by simp [running]))
      split
      next stopping => exact .finalizing (prepared (by simp [stopping])) rfl
      next => exact follows
  | sessionRetainRequested => exact follows
  | sessionRetained => exact follows
  | finalizationCompleted => exact follows
  | finalizationFailed =>
      unfold applyFinalizationFailed
      split
      · exact follows
      · exact follows
  | terminalOutcomeCommitted p _ state =>
      exact .bare (prepared (by simp [state])) (stopped (by simp [state])) rfl
  | resourcesReleased => exact follows
  | cleanupStatusRecorded => exact follows
  | lateWorkerEvent => exact follows

theorem Moves.ends (moves : Moves s type payload u) (finalizing : s.state = .finalizing)
    (terminal : u.1.state.isTerminal = true) : type = .terminalOutcomeCommitted := by
  by_contra other
  have same : u.1.state = s.state := by
    cases moves with
    | terminalOutcomeCommitted => exact absurd rfl other
    | jobCreated => cases terminal
    | workerLaunchObserved _ _ state | workerRunning _ _ state | preparationTimeout _ _ state | runningTimeout _ _ state
    | resourcesCommitted _ _ state => simp [finalizing] at state
    | cancelAccepted _ _ state | terminateAccepted _ _ state | workerCompleted _ _ state | workerFailed _ _ state =>
        simp [finalizing] at state
    | terminateEscalated _ _ state => rw [applyTerminateAccepted_late state]
    | finalizingTimeout => exact (finalizingTimeout_effects s).1
    | processExitConfirmed =>
        rw [applyProcessExitConfirmed, if_pos (by simp [finalizing])]
        split <;> rfl
    | finalizationFailed =>
        unfold applyFinalizationFailed
        split <;> rfl
    | _ => rfl
  rw [same, finalizing] at terminal
  cases terminal

def ExitOverdue (history : List (Snapshot × PreEnvelopeProposal)) : Prop :=
  ∃ earlier timeout later, history = earlier ++ timeout :: later ∧
    (∃ outcome ∈ earlier, outcome.2.eventType = .terminalOutcomeCommitted) ∧ timeout.2.eventType = .timeoutExpired ∧
    ∃ generation, timeout.2.payload = .timeoutExpired ⟨.processExitConfirmation, generation⟩

theorem ExitOverdue.snoc (overdue : ExitOverdue history) (step : Snapshot × PreEnvelopeProposal) :
    ExitOverdue (history ++ [step]) := by
  obtain ⟨earlier, timeout, later, rfl, outcome, expired⟩ := overdue
  exact ⟨earlier, timeout, later ++ [step], by simp, outcome, expired⟩

theorem armedAfter_snoc (history : List (Snapshot × PreEnvelopeProposal)) (step : Snapshot × PreEnvelopeProposal) :
    armedAfter lib (history ++ [step]) = followStep lib (armedAfter lib history) step := by
  simp [armedAfter]

theorem Run.follows (run : Run lib (initialSnapshot job session) history s) : Follows s.state (armedAfter lib history) := by
  induction run with
  | nil => exact .bare rfl rfl rfl
  | snoc run accepted ih =>
      rw [armedAfter_snoc]
      exact accepted.moves.follows (Run.unborn run) ih

theorem Emits.ends {effects : List EffectId} (emits : Emits s payload t effects) (before : s.state.isTerminal = false)
    (terminal : t.state.isTerminal = true) : s.state = .finalizing ∧
      effects = [.disarmExecutionTimeout, .ackTerminalWorkerEventIfPending, .publishTerminalResult,
        .armProcessExitConfirmationTimeoutIfNeeded] := by
  cases emits with
  | quiet _ same => simp [same, before] at terminal
  | stop _ _ _ _ _ same => simp [same, before] at terminal
  | launch _ _ _ _ _ _ state => simp [state, JobState.isTerminal] at terminal
  | retain _ _ state => simp [state, JobState.isTerminal] at terminal
  | publish finalizing => exact ⟨finalizing, rfl⟩

theorem Audit.awaits (audit : Audit s type payload u) (armed : TimeoutPhase → Bool) (unconfirmed : u.1.processExitConfirmed = false) :
    s.processExitConfirmed = false ∧
      (u.2.foldl followEffect (expire armed type payload) .processExitConfirmation = armed .processExitConfirmation ∨
        type = .timeoutExpired ∧ ∃ generation, payload = .timeoutExpired ⟨.processExitConfirmation, generation⟩) := by
  cases audit with
  | exitTimeout generation => exact ⟨unconfirmed, .inr ⟨rfl, generation, rfl⟩⟩
  | firstExit => cases unconfirmed
  | sameExit | resourcesReleased | cleanupStatusRecorded | lateWorkerEvent => exact ⟨unconfirmed, .inl rfl⟩

theorem Run.outcome_mem (run : Run lib (initialSnapshot job session) history s) (terminal : s.state.isTerminal = true) :
    ∃ step ∈ history, step.2.eventType = .terminalOutcomeCommitted := by
  induction run with
  | nil => cases terminal
  | @snoc history s t proposal run accepted ih =>
      cases before : s.state.isTerminal with
      | true =>
          obtain ⟨step, member, outcome⟩ := ih before
          exact ⟨step, List.mem_append_left _ member, outcome⟩
      | false =>
          have finalizing := ((Run.emits run accepted).ends before terminal).1
          exact ⟨(s, proposal), by simp, accepted.moves.ends finalizing terminal⟩

theorem Run.awaits (run : Run lib (initialSnapshot job session) history s) (terminal : s.state.isTerminal = true)
    (unconfirmed : s.processExitConfirmed = false) :
    armedAfter lib history .processExitConfirmation = true ∨ ExitOverdue history := by
  induction run with
  | nil => cases terminal
  | @snoc history s t proposal run accepted ih =>
      have run : Run lib (initialSnapshot job session) history s := run
      rw [armedAfter_snoc]
      cases before : s.state.isTerminal with
      | false =>
          left
          rw [followStep, ((run.emits accepted).ends before terminal).2]
          rfl
      | true =>
          have audit := accepted.moves.audit before run.unborn
          obtain ⟨unconfirmed, kept | ⟨expired, generation, body⟩⟩ := audit.awaits (armedAfter lib history) unconfirmed
          · exact (ih before unconfirmed).imp kept.trans (.snoc · _)
          · exact .inr ⟨history, (s, proposal), [], rfl, run.outcome_mem before, expired, generation, body⟩

end Steps

/-- Timers follow the lifecycle. -/
theorem timers_follow (lib : Libraries) (job session : Uuid) (history : List (Snapshot × PreEnvelopeProposal)) (s : Snapshot)
    (run : Run lib (initialSnapshot job session) history s) :
    (armedAfter lib history .preparation = true → s.state = .preparing) ∧
      (armedAfter lib history .cooperativeStop = true → s.state = .stopping) ∧
      (armedAfter lib history .execution = true → s.state = .running ∨ s.state = .stopping ∨ s.state = .finalizing) ∧
      (s.state.isTerminal = true → s.processExitConfirmed = false →
        armedAfter lib history .processExitConfirmation = true ∨ ExitOverdue history) ∧
      (s.state.isTerminal = true → armedAfter lib history .preparation = false ∧
        armedAfter lib history .execution = false ∧ armedAfter lib history .cooperativeStop = false) := by
  have follows := run.follows
  refine ⟨follows.preparation, follows.cooperativeStop, follows.execution, run.awaits, fun terminal => ⟨?_, ?_, ?_⟩⟩
  · apply follows.unprepared
    intro preparing
    simp [preparing, JobState.isTerminal] at terminal
  · apply follows.unexecuted
    rintro (running | stopping | finalizing) <;> simp_all [JobState.isTerminal]
  · apply follows.unstopped
    intro stopping
    simp [stopping, JobState.isTerminal] at terminal

/-- A Job that succeeded and whose process did not go in time. -/
theorem timers_follow_late : ∃ history s,
    runProposals sampleLibraries (initialSnapshot sampleJob sampleJob) (sampleSuccess ++ [sampleExitTimeout]) = some (history, s) ∧
      s.state.isTerminal = true ∧ s.processExitConfirmed = false ∧
      armedAfter sampleLibraries history .processExitConfirmation = false ∧ ExitOverdue history ∧
      armedAfter sampleLibraries history .execution = false := by
  have evaluated : (runProposals sampleLibraries (initialSnapshot sampleJob sampleJob) (sampleSuccess ++ [sampleExitTimeout])).map
      (fun run => (run.2.state.isTerminal, run.2.processExitConfirmed,
        armedAfter sampleLibraries run.1 .processExitConfirmation)) = some (true, false, false) := by decide +kernel
  obtain ⟨⟨history, s⟩, ran, seen⟩ := Option.map_eq_some_iff.1 evaluated
  simp only [Prod.mk.injEq] at seen
  obtain ⟨terminal, unconfirmed, unarmed⟩ := seen
  obtain ⟨-, -, -, awaits, ended⟩ := timers_follow sampleLibraries sampleJob sampleJob history s (runProposals_run ran)
  have overdue := (awaits terminal unconfirmed).resolve_left (by simp [unarmed])
  exact ⟨history, s, ran, terminal, unconfirmed, unarmed, overdue, (ended terminal).2.1⟩

end Sitometron.Core
