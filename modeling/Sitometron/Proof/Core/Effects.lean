import Sitometron.Proof.Core.Closure

/-!
# Actions outside the process

What a Job asks for outside the process over a whole run: how often, and with which reason in its past.
-/

namespace Sitometron.Core

section Effects

variable {lib : Libraries} {job session : Uuid} {s t : Snapshot} {proposal : PreEnvelopeProposal} {type : EventType}
  {payload : EventPayload} {u : Update} {history later : List (Snapshot × PreEnvelopeProposal)}

/-- Without a launch there is no process, and the Job is not yet past its preparation or its exit counts as confirmed. -/
def Unlaunched (s : Snapshot) : Prop :=
  s.workerLaunchStatus = .notStarted → s.processPresence = .absent ∧
    (s.state = .admitted ∨ s.state = .preparing ∨ s.processExitConfirmed = true)

theorem Invariant.launched (inv : Invariant s) (unlaunched : Unlaunched s)
    (bound : s.state = .running ∨ s.state = .stopping ∨ s.launchOperationId ≠ none ∨ s.workerId ≠ none) :
    s.workerLaunchStatus ≠ .notStarted := by
  intro none
  obtain ⟨noOperation, noWorker⟩ := (hasValidLaunchFacts_iff.1 inv.launch).1 none
  have early := (unlaunched none).2
  rcases bound with state | state | operation | worker
  · simp [state, inv.unconfirmed (by rw [state]; rfl)] at early
  · simp [state, inv.unconfirmed (by rw [state]; rfl)] at early
  · exact operation noOperation
  · exact worker noWorker

theorem Moves.unlaunched (moves : Moves s type payload u) (inv : Invariant s) (unlaunched : Unlaunched s) :
    Unlaunched u.1 := by
  cases moves with
  | jobCreated p absent => exact fun _ => ⟨rfl, .inl rfl⟩
  | resourcesCommitted => exact fun none => ⟨(unlaunched none).1, .inr (.inl rfl)⟩
  | workerLaunchIntent => exact nofun
  | workerLaunchObserved =>
      unfold applyWorkerLaunchObserved
      split
      · exact nofun
      · exact nofun
  | workerRunning p _ _ status => exact fun none => absurd (status.symm.trans none) nofun
  | cancelAccepted p _ state =>
      unfold applyCancelAccepted
      split
      next absent => exact fun none => ⟨(unlaunched none).1, .inr (.inr rfl)⟩
      next present =>
        intro none
        simp only [Bool.or_eq_true, Bool.and_eq_true, decide_eq_true_eq, not_or, not_and] at present
        rcases state with admitted | preparing | running
        · exact absurd admitted present.1
        · exact absurd (unlaunched none).1 (present.2 preparing)
        · exact absurd none (inv.launched unlaunched (.inl running))
  | terminateAccepted p _ state =>
      rw [applyTerminateAccepted_early state]
      split
      next absent => exact fun none => ⟨(unlaunched none).1, .inr (.inr rfl)⟩
      next present =>
        intro none
        simp only [Bool.or_eq_true, Bool.and_eq_true, decide_eq_true_eq, not_or, not_and] at present
        rcases state with admitted | preparing | running
        · exact absurd admitted present.1
        · exact absurd (unlaunched none).1 (present.2 preparing)
        · exact absurd none (inv.launched unlaunched (.inl running))
  | terminateEscalated p _ state =>
      rw [applyTerminateAccepted_late state]
      exact unlaunched
  | preparationTimeout _ _ state =>
      unfold applyPreparationTimeout
      split
      next => exact fun none => ⟨(unlaunched none).1, .inr (.inr rfl)⟩
      next present => exact fun none => absurd (unlaunched none).1 present
  | runningTimeout _ _ state => exact fun none => absurd none (inv.launched unlaunched (.inl state))
  | stoppingTimeout => exact unlaunched
  | cooperativeStopTimeout => exact unlaunched
  | finalizingTimeout =>
      simp only [applyFinalizingExecutionTimeout]
      repeat' split
      all_goals exact unlaunched
  | exitConfirmationTimeout => exact unlaunched
  | workerCompleted p _ _ worker =>
      have launched := inv.launched unlaunched (.inr (.inr (.inr (by simp [worker]))))
      unfold applyWorkerCompleted
      split <;> exact fun none => absurd none launched
  | workerFailed p _ _ worker =>
      have launched := inv.launched unlaunched (.inr (.inr (.inr (by simp [worker]))))
      unfold applyWorkerFailed
      split <;> exact fun none => absurd none launched
  | processExitConfirmed p _ _ operation =>
      have launched := inv.launched unlaunched (.inr (.inr (.inl (by simp [operation]))))
      unfold applyProcessExitConfirmed
      repeat' split
      all_goals exact fun none => absurd none launched
  | sessionRetainRequested => exact unlaunched
  | sessionRetained => exact unlaunched
  | finalizationCompleted => exact unlaunched
  | finalizationFailed =>
      unfold applyFinalizationFailed
      split <;> exact unlaunched
  | terminalOutcomeCommitted p _ state =>
      intro none
      obtain ⟨absent, rest⟩ := unlaunched none
      simp [state] at rest
      exact ⟨absent, .inr (.inr rest)⟩
  | resourcesReleased => exact unlaunched
  | cleanupStatusRecorded => exact unlaunched
  | lateWorkerEvent => exact unlaunched

def EffectId.isStop (effect : EffectId) : Bool := effect = .requestCooperativeStop || effect = .requestForcedStop

def EffectId.isExternal (effect : EffectId) : Bool :=
  effect = .launchWorkerOnce || effect = .retainSessionSameIdentity || effect = .publishTerminalResult ||
    effect = .ackTerminalWorkerEventIfPending || effect.isStop

def quiet (effects : List EffectId) : Bool := effects.Nodup && effects.all fun effect => !effect.isExternal

def stopsOnly (effects : List EffectId) : Bool :=
  effects.Nodup && effects.all fun effect => !effect.isExternal || effect.isStop

inductive Emits (s : Snapshot) (payload : EventPayload) (t : Snapshot) : List EffectId → Prop
  | quiet {effects : List EffectId} : quiet effects = true → t.state.isTerminal = s.state.isTerminal → Emits s payload t effects
  | launch (p : WorkerLaunchIntentPayload) : payload = .workerLaunchIntent p → s.state = .preparing →
      s.workerLaunchStatus = .notStarted → s.allocationId = some p.allocationId →
      s.allocationDigest = some p.allocationDigest → t.state = .preparing → t.workerLaunchStatus = .intentRecorded →
      Emits s payload t [.launchWorkerOnce]
  | retain : s.state = .finalizing → s.sessionRetentionStatus = .notStarted → t.state = .finalizing →
      t.sessionRetentionStatus = .requested → Emits s payload t [.retainSessionSameIdentity]
  | stop {effects : List EffectId} : stopsOnly effects = true → s.processExitConfirmed = false →
      s.workerLaunchStatus ≠ .notStarted → t.state ≠ .admitted → t.state ≠ .preparing →
      t.state.isTerminal = s.state.isTerminal → Emits s payload t effects
  | publish : s.state = .finalizing → t.state.isTerminal = true →
      Emits s payload t [.disarmExecutionTimeout, .ackTerminalWorkerEventIfPending, .publishTerminalResult,
        .armProcessExitConfirmationTimeoutIfNeeded]

theorem quiet_disarms (s : Snapshot) : quiet (disarmPreparation s) = true ∧ quiet (disarmCooperativeStop s) = true ∧
    quiet (disarmPreparation s ++ disarmCooperativeStop s) = true := by
  unfold disarmPreparation disarmCooperativeStop
  split <;> split <;> exact ⟨rfl, rfl, rfl⟩

theorem stopsOnly_disarmed (s : Snapshot) :
    stopsOnly (disarmPreparation s ++ [.requestCooperativeStop, .armCooperativeStopTimeout]) = true ∧
      stopsOnly (disarmPreparation s ++ forcedStopEffects) = true := by
  unfold disarmPreparation
  split <;> exact ⟨rfl, rfl⟩

theorem jobStateForOutcome_isTerminal (outcome : TerminalOutcome) : (jobStateForOutcome outcome).isTerminal = true := by
  cases outcome <;> rfl

theorem Invariant.stoppable (inv : Invariant s) (unlaunched : Unlaunched s)
    (state : s.state = .admitted ∨ s.state = .preparing ∨ s.state = .running)
    (present : ¬(s.state = .admitted || (s.state = .preparing && s.processPresence = .absent)) = true) :
    s.processExitConfirmed = false ∧ s.workerLaunchStatus ≠ .notStarted ∧ s.state.isTerminal = false := by
  simp only [Bool.or_eq_true, Bool.and_eq_true, decide_eq_true_eq, not_or, not_and] at present
  rcases state with admitted | preparing | running
  · exact absurd admitted present.1
  · refine ⟨inv.unconfirmed (by rw [preparing]; rfl), ?_, by rw [preparing]; rfl⟩
    exact fun none => present.2 preparing (unlaunched none).1
  · exact ⟨inv.unconfirmed (by rw [running]; rfl), inv.launched unlaunched (.inl running), by rw [running]; rfl⟩

theorem Moves.emits (moves : Moves s type payload u) (inv : Invariant s) (unlaunched : Unlaunched s)
    (unborn : s.entityExists = false → s.state = .admitted) : Emits s payload u.1 u.2 := by
  have running (state : JobState) (at_ : s.state = state) (open_ : state.isTerminal = false) (t : Snapshot)
      (still : t.state.isTerminal = false) : t.state.isTerminal = s.state.isTerminal := by
    rw [at_, open_, still]
  cases moves with
  | jobCreated p absent => exact .quiet rfl (running _ (unborn absent) rfl _ rfl)
  | resourcesCommitted p _ state => exact .quiet rfl (running _ state rfl _ rfl)
  | workerLaunchIntent p _ state status id digest => exact .launch p rfl state status id digest state rfl
  | workerLaunchObserved p _ state =>
      unfold applyWorkerLaunchObserved
      split
      · exact .quiet rfl rfl
      · exact .quiet rfl (running _ state rfl _ rfl)
  | workerRunning p _ state => exact .quiet rfl (running _ state rfl _ rfl)
  | cancelAccepted p _ state =>
      unfold applyCancelAccepted
      split
      next =>
        apply Emits.quiet (quiet_disarms s).1
        rcases state with h | h | h <;> exact running _ h rfl _ rfl
      next present =>
        obtain ⟨unconfirmed, launched, active⟩ := inv.stoppable unlaunched state present
        exact .stop (stopsOnly_disarmed s).1 unconfirmed launched nofun nofun active.symm
  | terminateAccepted p _ state =>
      rw [applyTerminateAccepted_early state]
      split
      next =>
        apply Emits.quiet (quiet_disarms s).1
        rcases state with h | h | h <;> exact running _ h rfl _ rfl
      next present =>
        obtain ⟨unconfirmed, launched, active⟩ := inv.stoppable unlaunched state present
        exact .stop (stopsOnly_disarmed s).2 unconfirmed launched nofun nofun active.symm
  | terminateEscalated p _ state unconfirmed =>
      rw [applyTerminateAccepted_late state]
      have launched : s.workerLaunchStatus ≠ .notStarted := by
        intro none
        rcases state with h | h <;> simpa [h, unconfirmed] using (unlaunched none).2
      rcases state with h | h <;>
        exact .stop rfl unconfirmed launched (by simp [h]) (by simp [h]) rfl
  | preparationTimeout _ _ state =>
      unfold applyPreparationTimeout
      split
      next => exact .quiet rfl (running _ state rfl _ rfl)
      next present =>
        have unconfirmed := inv.unconfirmed (by rw [state]; rfl)
        have launched : s.workerLaunchStatus ≠ .notStarted := fun none => present (unlaunched none).1
        exact .stop rfl unconfirmed launched nofun nofun (running _ state rfl _ rfl)
  | runningTimeout _ _ state =>
      have unconfirmed := inv.unconfirmed (by rw [state]; rfl)
      exact .stop rfl unconfirmed (inv.launched unlaunched (.inl state)) nofun nofun (running _ state rfl _ rfl)
  | stoppingTimeout _ _ state =>
      have unconfirmed := inv.unconfirmed (by rw [state]; rfl)
      exact .stop rfl unconfirmed (inv.launched unlaunched (.inr (.inl state)))
        (by simp [applyStoppingExecutionTimeout, state]) (by simp [applyStoppingExecutionTimeout, state]) rfl
  | cooperativeStopTimeout _ _ state =>
      have unconfirmed := inv.unconfirmed (by rw [state]; rfl)
      exact .stop rfl unconfirmed (inv.launched unlaunched (.inr (.inl state)))
        (by simp [applyCooperativeStopTimeout, state]) (by simp [applyCooperativeStopTimeout, state]) rfl
  | finalizingTimeout _ _ state =>
      have launched (unconfirmed : s.processExitConfirmed = false) : s.workerLaunchStatus ≠ .notStarted := by
        intro none
        simpa [state, unconfirmed] using (unlaunched none).2
      cases confirmed : s.processExitConfirmed with
      | true =>
          simp only [applyFinalizingExecutionTimeout, confirmed, Bool.true_and, if_true]
          repeat' split
          all_goals exact .quiet rfl rfl
      | false =>
          simp only [applyFinalizingExecutionTimeout, confirmed, Bool.false_and, Bool.false_eq_true, if_false]
          split <;> exact .stop rfl confirmed (launched confirmed) (by simp [state]) (by simp [state]) rfl
  | exitConfirmationTimeout _ _ terminal unconfirmed =>
      have late : s.state ≠ .admitted ∧ s.state ≠ .preparing := by
        constructor <;> intro state <;> simp [state, JobState.isTerminal] at terminal
      have launched : s.workerLaunchStatus ≠ .notStarted := by
        intro none
        simpa [late, unconfirmed] using (unlaunched none).2
      exact .stop rfl unconfirmed launched late.1 late.2 rfl
  | workerCompleted p _ state =>
      apply Emits.quiet (quiet_disarms s).2.1
      unfold applyWorkerCompleted
      rcases state with h | h <;> split <;> exact running _ h rfl _ rfl
  | workerFailed p _ state =>
      apply Emits.quiet (quiet_disarms s).2.2
      unfold applyWorkerFailed
      rcases state with h | h | h <;> split <;> exact running _ h rfl _ rfl
  | processExitConfirmed p _ state =>
      unfold applyProcessExitConfirmed
      split
      next => split <;> exact .quiet rfl rfl
      split
      next preparing => exact .quiet rfl (running _ preparing rfl _ rfl)
      split
      next active => exact .quiet rfl (running _ active rfl _ rfl)
      split
      next stopping => exact .quiet rfl (running _ stopping rfl _ rfl)
      next => exact .quiet rfl rfl
  | sessionRetainRequested p _ state status => exact .retain state status state rfl
  | sessionRetained => exact .quiet rfl rfl
  | finalizationCompleted => exact .quiet rfl rfl
  | finalizationFailed =>
      unfold applyFinalizationFailed
      split <;> exact .quiet rfl rfl
  | terminalOutcomeCommitted p _ state => exact .publish state (jobStateForOutcome_isTerminal _)
  | resourcesReleased => exact .quiet rfl rfl
  | cleanupStatusRecorded => exact .quiet rfl rfl
  | lateWorkerEvent => exact .quiet rfl rfl

inductive Binds (s : Snapshot) (type : EventType) (payload : EventPayload) (t : Snapshot) : Prop
  | bound (c : ResourcesCommittedPayload) : type = .resourcesCommitted → payload = .resourcesCommitted c →
      s.state = .admitted → t.state ≠ .admitted → t.allocationId = some c.allocationId →
      t.allocationDigest = some c.allocationDigest → Binds s type payload t
  | kept : type ≠ .resourcesCommitted → t.allocationId = s.allocationId → t.allocationDigest = s.allocationDigest →
      (t.state = .admitted → s.state = .admitted) → Binds s type payload t

structure Forward (s : Snapshot) (type : EventType) (payload : EventPayload) (t : Snapshot) : Prop where
  launched : s.workerLaunchStatus ≠ .notStarted → t.workerLaunchStatus ≠ .notStarted
  unlaunched : s.workerLaunchStatus = .notStarted → type ≠ .workerLaunchIntent → t.workerLaunchStatus = .notStarted
  retained : s.sessionRetentionStatus ≠ .notStarted → t.sessionRetentionStatus ≠ .notStarted
  prepared : s.state ≠ .admitted ∧ s.state ≠ .preparing → t.state ≠ .admitted ∧ t.state ≠ .preparing
  binds : Binds s type payload t

theorem Forward.still (other : type ≠ .resourcesCommitted) (state : t.state = s.state)
    (launch : t.workerLaunchStatus = s.workerLaunchStatus)
    (retained : s.sessionRetentionStatus ≠ .notStarted → t.sessionRetentionStatus ≠ .notStarted)
    (allocation : t.allocationId = s.allocationId) (digest : t.allocationDigest = s.allocationDigest) :
    Forward s type payload t where
  launched := launch ▸ id
  unlaunched none _ := launch.trans none
  retained
  prepared := state ▸ id
  binds := .kept other allocation digest (state ▸ id)

theorem Forward.past (other : type ≠ .resourcesCommitted) (prepared : t.state ≠ .admitted ∧ t.state ≠ .preparing)
    (launch : t.workerLaunchStatus = s.workerLaunchStatus)
    (retention : t.sessionRetentionStatus = s.sessionRetentionStatus)
    (allocation : t.allocationId = s.allocationId) (digest : t.allocationDigest = s.allocationDigest) :
    Forward s type payload t where
  launched := launch ▸ id
  unlaunched none _ := launch.trans none
  retained := retention ▸ id
  prepared _ := prepared
  binds := .kept other allocation digest fun admitted => absurd admitted prepared.1

theorem Moves.forward (moves : Moves s type payload u) (unborn : s.entityExists = false → s = initialSnapshot job session) :
    Forward s type payload u.1 := by
  cases moves with
  | jobCreated p absent =>
      rw [unborn absent]
      exact .still (by rintro ⟨⟩) rfl rfl id rfl rfl
  | resourcesCommitted p _ state =>
      exact ⟨id, fun none _ => none, id, fun past => absurd state past.1, .bound p rfl rfl state (by rintro ⟨⟩) rfl rfl⟩
  | workerLaunchIntent p _ state =>
      exact ⟨by rintro _ ⟨⟩, fun _ other => absurd rfl other, id, fun past => absurd state past.2, .kept (by rintro ⟨⟩) rfl rfl id⟩
  | workerLaunchObserved p _ state _ status =>
      have launched (none : s.workerLaunchStatus = .notStarted) {p : Prop} : p := by simp [status] at none
      unfold applyWorkerLaunchObserved
      split
      · exact ⟨by rintro _ ⟨⟩, fun none _ => launched none, id, fun past => absurd state past.2, .kept (by rintro ⟨⟩) rfl rfl id⟩
      · exact ⟨by rintro _ ⟨⟩, fun none _ => launched none, id, fun _ => ⟨by rintro ⟨⟩, by rintro ⟨⟩⟩, .kept (by rintro ⟨⟩) rfl rfl (by rintro ⟨⟩)⟩
  | workerRunning => exact .past (by rintro ⟨⟩) ⟨by rintro ⟨⟩, by rintro ⟨⟩⟩ rfl rfl rfl rfl
  | cancelAccepted =>
      unfold applyCancelAccepted
      split <;> exact .past (by rintro ⟨⟩) ⟨by rintro ⟨⟩, by rintro ⟨⟩⟩ rfl rfl rfl rfl
  | terminateAccepted p _ state =>
      rw [applyTerminateAccepted_early state]
      split <;> exact .past (by rintro ⟨⟩) ⟨by rintro ⟨⟩, by rintro ⟨⟩⟩ rfl rfl rfl rfl
  | terminateEscalated p _ state =>
      rw [applyTerminateAccepted_late state]
      exact .still (by rintro ⟨⟩) rfl rfl id rfl rfl
  | preparationTimeout =>
      unfold applyPreparationTimeout
      split <;> exact .past (by rintro ⟨⟩) ⟨by rintro ⟨⟩, by rintro ⟨⟩⟩ rfl rfl rfl rfl
  | runningTimeout => exact .past (by rintro ⟨⟩) ⟨by rintro ⟨⟩, by rintro ⟨⟩⟩ rfl rfl rfl rfl
  | stoppingTimeout => exact .still (by rintro ⟨⟩) rfl rfl id rfl rfl
  | cooperativeStopTimeout => exact .still (by rintro ⟨⟩) rfl rfl id rfl rfl
  | finalizingTimeout =>
      simp only [applyFinalizingExecutionTimeout]
      repeat' split
      all_goals exact .still (by rintro ⟨⟩) rfl rfl id rfl rfl
  | exitConfirmationTimeout => exact .still (by rintro ⟨⟩) rfl rfl id rfl rfl
  | workerCompleted =>
      unfold applyWorkerCompleted
      split <;> exact .past (by rintro ⟨⟩) ⟨by rintro ⟨⟩, by rintro ⟨⟩⟩ rfl rfl rfl rfl
  | workerFailed =>
      unfold applyWorkerFailed
      split <;> exact .past (by rintro ⟨⟩) ⟨by rintro ⟨⟩, by rintro ⟨⟩⟩ rfl rfl rfl rfl
  | processExitConfirmed =>
      unfold applyProcessExitConfirmed
      repeat' split
      all_goals first
        | exact .still (by rintro ⟨⟩) rfl rfl id rfl rfl
        | exact .past (by rintro ⟨⟩) ⟨by rintro ⟨⟩, by rintro ⟨⟩⟩ rfl rfl rfl rfl
  | sessionRetainRequested => exact .still (by rintro ⟨⟩) rfl rfl (by rintro _ ⟨⟩) rfl rfl
  | sessionRetained => exact .still (by rintro ⟨⟩) rfl rfl (by rintro _ ⟨⟩) rfl rfl
  | finalizationCompleted => exact .still (by rintro ⟨⟩) rfl rfl id rfl rfl
  | finalizationFailed =>
      unfold applyFinalizationFailed
      split <;> exact .still (by rintro ⟨⟩) rfl rfl id rfl rfl
  | terminalOutcomeCommitted p =>
      refine .past (by rintro ⟨⟩) ?_ rfl rfl rfl rfl
      unfold applyTerminalOutcomeCommitted jobStateForOutcome
      split <;> exact ⟨by rintro ⟨⟩, by rintro ⟨⟩⟩
  | resourcesReleased => exact .still (by rintro ⟨⟩) rfl rfl id rfl rfl
  | cleanupStatusRecorded => exact .still (by rintro ⟨⟩) rfl rfl id rfl rfl
  | lateWorkerEvent => exact .still (by rintro ⟨⟩) rfl rfl id rfl rfl

def effectsOf (lib : Libraries) (step : Snapshot × PreEnvelopeProposal) : List EffectId :=
  (apply lib step.1 step.2).effects

def emitted (lib : Libraries) (history : List (Snapshot × PreEnvelopeProposal)) : List EffectId :=
  history.flatMap (effectsOf lib)

def committedAllocations (history : List (Snapshot × PreEnvelopeProposal)) : List EventPayload :=
  (history.filter fun step => step.2.eventType = .resourcesCommitted).map (·.2.payload)

theorem Run.invariantAt (run : Run lib (initialSnapshot job session) history s) (accepted : Accepts lib s proposal t) :
    Invariant s := by
  have valid := accepted.transition.valid
  cases run with
  | nil =>
      obtain ⟨canonical, same⟩ := validSnapshot_identity valid
      obtain rfl : job = session := same
      exact .initial canonical
  | snoc run before => exact Run.invariant (.snoc run before) (by simp)

theorem Run.unlaunched (run : Run lib (initialSnapshot job session) history s) : Unlaunched s := by
  induction run with
  | nil => exact fun _ => ⟨rfl, .inl rfl⟩
  | snoc run accepted ih => exact accepted.moves.unlaunched (Run.invariantAt run accepted) ih

theorem Run.emits (run : Run lib (initialSnapshot job session) history s) (accepted : Accepts lib s proposal t) :
    Emits s proposal.payload t (effectsOf lib (s, proposal)) :=
  accepted.moves.emits (run.invariantAt accepted) run.unlaunched run.unborn

theorem Run.forward (run : Run lib (initialSnapshot job session) history s) (accepted : Accepts lib s proposal t) :
    Forward s proposal.eventType proposal.payload t :=
  accepted.moves.forward run.reachable.unborn

theorem quiet_iff {effects : List EffectId} :
    quiet effects = true ↔ effects.Nodup ∧ ∀ effect ∈ effects, effect.isExternal = false := by
  simp [quiet]

theorem stopsOnly_iff {effects : List EffectId} :
    stopsOnly effects = true ↔ effects.Nodup ∧ ∀ effect ∈ effects, effect.isExternal = false ∨ effect.isStop = true := by
  simp [stopsOnly]

namespace Emits

variable {effects : List EffectId} {effect : EffectId}

theorem nodup (emits : Emits s payload t effects) : effects.Nodup := by
  cases emits with
  | quiet only => exact (quiet_iff.1 only).1
  | stop only => exact (stopsOnly_iff.1 only).1
  | launch | retain | publish => simp

theorem of_external (emits : Emits s payload t effects) (member : effect ∈ effects) (external : effect.isExternal = true)
    (other : effect.isStop = false) :
    effect = .launchWorkerOnce ∧ effects = [.launchWorkerOnce] ∧ (∃ p, payload = .workerLaunchIntent p ∧
        s.allocationId = some p.allocationId ∧ s.allocationDigest = some p.allocationDigest) ∧
        s.state = .preparing ∧ s.workerLaunchStatus = .notStarted ∧ t.workerLaunchStatus ≠ .notStarted ∨
      effect = .retainSessionSameIdentity ∧ effects = [.retainSessionSameIdentity] ∧ s.state = .finalizing ∧
        s.sessionRetentionStatus = .notStarted ∧ t.sessionRetentionStatus ≠ .notStarted ∨
      (effect = .publishTerminalResult ∨ effect = .ackTerminalWorkerEventIfPending) ∧ s.state = .finalizing ∧
        t.state.isTerminal = true := by
  cases emits with
  | quiet only =>
      have silent := (quiet_iff.1 only).2 effect member
      simp [external] at silent
  | stop only =>
      have silent := (stopsOnly_iff.1 only).2 effect member
      simp [external, other] at silent
  | launch p body state status allocation digest _ launched =>
      refine .inl ⟨List.mem_singleton.1 member, rfl, ⟨p, body, allocation, digest⟩, state, status, ?_⟩
      simp [launched]
  | retain state status _ retained =>
      refine .inr (.inl ⟨List.mem_singleton.1 member, rfl, state, status, ?_⟩)
      simp [retained]
  | publish state terminal =>
      refine .inr (.inr ⟨?_, state, terminal⟩)
      simp only [List.mem_cons, List.not_mem_nil, or_false] at member
      rcases member with rfl | rfl | rfl | rfl
      · cases external
      · exact .inr rfl
      · exact .inl rfl
      · cases external

theorem of_stop (emits : Emits s payload t effects) (member : effect ∈ effects) (stop : effect.isStop = true) :
    s.processExitConfirmed = false ∧ s.workerLaunchStatus ≠ .notStarted ∧ t.state ≠ .admitted ∧ t.state ≠ .preparing := by
  cases emits with
  | quiet only =>
      have silent := (quiet_iff.1 only).2 effect member
      simp [EffectId.isExternal, stop] at silent
  | stop _ unconfirmed launched left prepared => exact ⟨unconfirmed, launched, left, prepared⟩
  | launch | retain =>
      obtain rfl := List.mem_singleton.1 member
      cases stop
  | publish =>
      simp only [List.mem_cons, List.not_mem_nil, or_false] at member
      rcases member with rfl | rfl | rfl | rfl <;> cases stop

theorem publishes_iff (emits : Emits s payload t effects) :
    .publishTerminalResult ∈ effects ↔ s.state.isTerminal = false ∧ t.state.isTerminal = true := by
  constructor
  · intro member
    rcases emits.of_external member rfl rfl with ⟨other, -⟩ | ⟨other, -⟩ | ⟨-, state, terminal⟩
    · cases other
    · cases other
    · exact ⟨by rw [state]; rfl, terminal⟩
  · rintro ⟨active, terminal⟩
    cases emits with
    | quiet _ same => simp [same, active] at terminal
    | stop _ _ _ _ _ same => simp [same, active] at terminal
    | launch _ _ _ _ _ _ state => simp [state, JobState.isTerminal] at terminal
    | retain _ _ state => simp [state, JobState.isTerminal] at terminal
    | publish => simp

end Emits

theorem Moves.launches (moves : Moves s .workerLaunchIntent payload u) : u.2 = [.launchWorkerOnce] := by
  cases moves
  rfl

theorem emitted_snoc {step : Snapshot × PreEnvelopeProposal} :
    emitted lib (history ++ [step]) = emitted lib history ++ effectsOf lib step := by
  simp [emitted]

theorem mem_emitted {effect : EffectId} : effect ∈ emitted lib history ↔ ∃ step ∈ history, effect ∈ effectsOf lib step :=
  List.mem_flatMap

theorem Run.launched (run : Run lib (initialSnapshot job session) history s)
    (status : s.workerLaunchStatus ≠ .notStarted) : .launchWorkerOnce ∈ emitted lib history := by
  induction run with
  | nil => exact absurd rfl status
  | @snoc history before s proposal run accepted ih =>
      rw [emitted_snoc, List.mem_append]
      by_cases none : before.workerLaunchStatus = .notStarted
      · right
        have intent : proposal.eventType = .workerLaunchIntent := by
          by_contra other
          exact status ((Run.forward run accepted).unlaunched none other)
        have moves := accepted.moves
        rw [intent] at moves
        have effects : effectsOf lib (before, proposal) = [.launchWorkerOnce] := moves.launches
        simp [effects]
      · exact .inl (ih none)

theorem Run.committed (run : Run lib (initialSnapshot job session) history s) :
    (s.state = .admitted → committedAllocations history = []) ∧ ∀ allocation, s.allocationId = some allocation →
      ∃ c, committedAllocations history = [.resourcesCommitted c] ∧ c.allocationId = allocation ∧
        s.allocationDigest = some c.allocationDigest := by
  induction run with
  | nil => exact ⟨fun _ => rfl, nofun⟩
  | @snoc history before s proposal run accepted ih =>
      cases (Run.forward run accepted).binds with
      | bound c type body admitted left allocation digest =>
          refine ⟨fun state => absurd state left, fun bound same => ⟨c, ?_, ?_, digest⟩⟩
          · have empty := ih.1 admitted
            simp only [committedAllocations, List.filter_append, List.map_append] at empty ⊢
            simp [empty, type, body]
          · exact Option.some.inj (allocation.symm.trans same)
      | kept other allocation digest state =>
          have same : committedAllocations (history ++ [(before, proposal)]) = committedAllocations history := by
            simp [committedAllocations, other]
          rw [same, allocation, digest]
          exact ⟨fun admitted => ih.1 (state admitted), ih.2⟩

theorem Run.terminal (run : Run lib (initialSnapshot job session) history s) (accepted : Accepts lib s proposal t)
    (terminal : s.state.isTerminal = true) : t.state.isTerminal = true := by
  have audit := accepted.moves.audit terminal run.unborn
  rw [audit.state, terminal]

theorem Run.count_le_one (run : Run lib (initialSnapshot job session) history s) {effect : EffectId} (mark : Snapshot → Prop)
    (sets : ∀ s t payload effects, Emits s payload t effects → effect ∈ effects → ¬mark s ∧ mark t)
    (stays : ∀ before s proposal t, Run lib (initialSnapshot job session) before s → Accepts lib s proposal t → mark s → mark t) :
    (emitted lib history).count effect ≤ 1 := by
  apply Trace.count_le_one mark run
  · intro before s proposal t run accepted
    exact (Run.emits run accepted).nodup
  · intro before s proposal t run accepted member
    exact sets s t _ _ (Run.emits run accepted) member
  · exact stays

structure Justified (lib : Libraries) (before : List (Snapshot × PreEnvelopeProposal))
    (step : Snapshot × PreEnvelopeProposal) : Prop where
  launch : .launchWorkerOnce ∈ effectsOf lib step → step.1.state = .preparing ∧
    (∀ effect ∈ emitted lib before, effect.isStop = false) ∧
    ∃ p c, step.2.payload = .workerLaunchIntent p ∧ committedAllocations before = [.resourcesCommitted c] ∧
      p.allocationId = c.allocationId ∧ p.allocationDigest = c.allocationDigest
  publish : .publishTerminalResult ∈ effectsOf lib step ↔
    step.1.state.isTerminal = false ∧ (apply lib step.1 step.2).snapshot.state.isTerminal = true
  last : .launchWorkerOnce ∈ effectsOf lib step ∨ .retainSessionSameIdentity ∈ effectsOf lib step →
    .publishTerminalResult ∉ emitted lib (before ++ [step])
  stop : ∀ effect ∈ effectsOf lib step, effect.isStop = true →
    step.1.processExitConfirmed = false ∧ .launchWorkerOnce ∈ emitted lib before

theorem Run.stopped (run : Run lib (initialSnapshot job session) history s) {effect : EffectId}
    (member : effect ∈ emitted lib history) (stop : effect.isStop = true) : s.state ≠ .admitted ∧ s.state ≠ .preparing := by
  apply run.marked (fun step => effect ∈ effectsOf lib step) (fun s => s.state ≠ .admitted ∧ s.state ≠ .preparing)
  · intro before s proposal t run accepted found
    obtain ⟨-, -, left, prepared⟩ := (Run.emits run accepted).of_stop found stop
    exact ⟨left, prepared⟩
  · intro before s proposal t run accepted
    exact (Run.forward run accepted).prepared
  · exact mem_emitted.1 member

theorem Run.published (run : Run lib (initialSnapshot job session) history s)
    (member : .publishTerminalResult ∈ emitted lib history) : s.state.isTerminal = true := by
  apply run.marked (fun step => .publishTerminalResult ∈ effectsOf lib step) (fun s => s.state.isTerminal = true)
  · intro before s proposal t run accepted found
    exact ((Run.emits run accepted).publishes_iff.1 found).2
  · intro before s proposal t run accepted
    exact Run.terminal run accepted
  · exact mem_emitted.1 member

theorem Run.justified (run : Run lib (initialSnapshot job session) history s) (accepted : Accepts lib s proposal t) :
    Justified lib history (s, proposal) := by
  have emits := run.emits accepted
  obtain ⟨-, rfl⟩ := id accepted
  constructor
  case launch =>
    intro member
    rcases emits.of_external member rfl rfl with
      ⟨-, -, ⟨p, body, allocation, digest⟩, state, -⟩ | ⟨other, -⟩ | ⟨other, -⟩
    · obtain ⟨c, committed, same, bound⟩ := run.committed.2 p.allocationId allocation
      refine ⟨state, ?_, p, c, body, committed, same.symm, Option.some.inj (digest.symm.trans bound)⟩
      intro effect earlier
      cases stop : effect.isStop with
      | false => rfl
      | true => exact absurd state (run.stopped earlier stop).2
    · cases other
    · rcases other with other | other <;> cases other
  case publish => exact emits.publishes_iff
  case last =>
    intro either published
    have active : s.state.isTerminal = false ∧ .publishTerminalResult ∉ effectsOf lib (s, proposal) := by
      rcases either with member | member <;>
        rcases emits.of_external member rfl rfl with ⟨-, only, -, state, -⟩ | ⟨-, only, state, -⟩ | ⟨other, -⟩
      · simp [only, state, JobState.isTerminal]
      · simp [only, state, JobState.isTerminal]
      · simp at other
      · simp [only, state, JobState.isTerminal]
      · simp [only, state, JobState.isTerminal]
      · simp at other
    rw [emitted_snoc, List.mem_append] at published
    rcases published with earlier | now
    · simp [run.published earlier] at active
    · exact active.2 now
  case stop =>
    intro effect member stop
    obtain ⟨unconfirmed, launched, -⟩ := emits.of_stop member stop
    exact ⟨unconfirmed, run.launched launched⟩

theorem Run.launch_once (run : Run lib (initialSnapshot job session) history s) :
    (emitted lib history).count .launchWorkerOnce ≤ 1 := by
  apply run.count_le_one fun s => s.workerLaunchStatus ≠ .notStarted
  · intro s t payload effects emits member
    rcases emits.of_external member rfl rfl with ⟨-, -, -, -, none, launched⟩ | ⟨other, -⟩ | ⟨other, -⟩
    · exact ⟨not_not.2 none, launched⟩
    · cases other
    · simp at other
  · intro before s proposal t run accepted
    exact (Run.forward run accepted).launched

theorem Run.retain_once (run : Run lib (initialSnapshot job session) history s) :
    (emitted lib history).count .retainSessionSameIdentity ≤ 1 := by
  apply run.count_le_one fun s => s.sessionRetentionStatus ≠ .notStarted
  · intro s t payload effects emits member
    rcases emits.of_external member rfl rfl with ⟨other, -⟩ | ⟨-, -, -, none, retained⟩ | ⟨other, -⟩
    · cases other
    · exact ⟨not_not.2 none, retained⟩
    · simp at other
  · intro before s proposal t run accepted
    exact (Run.forward run accepted).retained

theorem Run.publish_once (run : Run lib (initialSnapshot job session) history s) {effect : EffectId}
    (terminal : effect = .publishTerminalResult ∨ effect = .ackTerminalWorkerEventIfPending) :
    (emitted lib history).count effect ≤ 1 := by
  have external : effect.isExternal = true ∧ effect.isStop = false := by
    rcases terminal with rfl | rfl <;> exact ⟨rfl, rfl⟩
  apply run.count_le_one fun s => s.state.isTerminal = true
  · intro s t payload effects emits member
    rcases emits.of_external member external.1 external.2 with ⟨rfl, -⟩ | ⟨rfl, -⟩ | ⟨-, state, ended⟩
    · simp at terminal
    · simp at terminal
    · exact ⟨by simp [state, JobState.isTerminal], ended⟩
  · intro before s proposal t run accepted
    exact Run.terminal run accepted

/-- The external actions of a Job: each at most once, and each with its reason in the steps before it. -/
theorem effects_justified (lib : Libraries) (job session : Uuid) (history : List (Snapshot × PreEnvelopeProposal))
    (s : Snapshot) (run : Run lib (initialSnapshot job session) history s) :
    (∀ effect ∈ [EffectId.launchWorkerOnce, .retainSessionSameIdentity, .publishTerminalResult,
        .ackTerminalWorkerEventIfPending], (emitted lib history).count effect ≤ 1) ∧
      ∀ before step after, history = before ++ step :: after → Justified lib before step := by
  constructor
  · simp only [List.forall_mem_cons]
    exact ⟨run.launch_once, run.retain_once, run.publish_once (.inl rfl), run.publish_once (.inr rfl), nofun⟩
  · rintro before step after rfl
    obtain ⟨earlier, t, accepted, -⟩ := Trace.at_step run
    exact Run.justified earlier accepted

end Effects

theorem effects_justified_success : ∃ history s,
    runProposals sampleLibraries (initialSnapshot sampleJob sampleJob) sampleClosed = some (history, s) ∧
      (emitted sampleLibraries history).count .launchWorkerOnce = 1 ∧
      (emitted sampleLibraries history).count .publishTerminalResult = 1 ∧
      ∀ before step after, history = before ++ step :: after → Justified sampleLibraries before step := by
  have evaluated : (runProposals sampleLibraries (initialSnapshot sampleJob sampleJob) sampleClosed).map
      (fun run => ((emitted sampleLibraries run.1).count .launchWorkerOnce,
        (emitted sampleLibraries run.1).count .publishTerminalResult)) = some (1, 1) := by decide +kernel
  obtain ⟨⟨history, s⟩, ran, counts⟩ := Option.map_eq_some_iff.1 evaluated
  obtain ⟨launched, published⟩ := Prod.mk.inj counts
  have facts := effects_justified sampleLibraries sampleJob sampleJob history s (runProposals_run ran)
  exact ⟨history, s, ran, launched, published, facts.2⟩

end Sitometron.Core
