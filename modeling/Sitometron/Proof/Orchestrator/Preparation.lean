import Sitometron.Proof.Core.Completion
import Sitometron.Proof.Core.Effects
import Sitometron.Proof.Orchestrator.Decisions

/-!
# Effects that can be prepared

`PrepareEffects` refuses more effects than it has room for and throws where an effect lacks what it needs. On a Job with a
history neither can happen: a stop request comes with the launch that it is for, and a launch with its intent.
-/

namespace Sitometron.Core

section Needs

variable {lib : Libraries} {job session : Uuid} {s t : Snapshot} {proposal : PreEnvelopeProposal}
  {history : List (Snapshot × PreEnvelopeProposal)}

theorem Run.stop_bound (run : Run lib (initialSnapshot job session) history s) (accepted : Accepts lib s proposal t)
    {effect : EffectId} (member : effect ∈ effectsOf lib (s, proposal)) (stop : effect.isStop = true) :
    t.launchOperationId.isSome = true ∧ t.workerId.isSome = true := by
  have launched := (run.emits accepted).of_stop member stop
  have still := (run.forward accepted).launched launched.2.1
  have after : Run lib (initialSnapshot job session) (history ++ [(s, proposal)]) t := .snoc run accepted
  have facts := hasValidLaunchFacts_iff.1 (Run.invariant after (by simp)).launch
  obtain ⟨operation, worker, bound, -⟩ := facts.2 still
  exact ⟨operation, by simp [bound]⟩

theorem Run.launch_intent (run : Run lib (initialSnapshot job session) history s) (accepted : Accepts lib s proposal t)
    (member : .launchWorkerOnce ∈ effectsOf lib (s, proposal)) : ∃ p, proposal.payload = .workerLaunchIntent p := by
  rcases (run.emits accepted).of_external member rfl rfl with ⟨-, -, ⟨p, body, -⟩, -⟩ | ⟨other, -⟩ | ⟨other, -⟩
  · exact ⟨p, body⟩
  · cases other
  · simp at other

end Needs

end Sitometron.Core

namespace Sitometron.Core.Orchestrator

variable {r : Resident} {event : LogicalJobEvent} {applied : ApplyResult}

structure Preparable (r : Resident) (event : LogicalJobEvent) (applied : ApplyResult) (id : EffectId) : Prop where
  known : id ≠ .invalid
  timers : ∀ phase, (r.timerGeneration phase).toNat ≠ uint64Max
  launch : id = .launchWorkerOnce → ∃ p, event.payload = .workerLaunchIntent p
  stop : id.isStop = true → applied.snapshot.launchOperationId.isSome = true ∧ applied.snapshot.workerId.isSome = true

theorem prepareEffect_some {id : EffectId} (fine : Preparable r event applied id) :
    ∃ operation, prepareEffect r event applied id = some operation := by
  have arm : ∀ phase, ∃ operation, prepareArm r id phase = some operation := by
    intro phase
    rw [prepareArm, if_neg (fine.timers phase)]
    exact ⟨_, rfl⟩
  have stops : ∀ action request, id.isStop = true → ∃ operation, prepareStop id action request applied = some operation := by
    intro action request stop
    obtain ⟨operation, worker⟩ := fine.stop stop
    obtain ⟨launch, bound⟩ := Option.isSome_iff_exists.1 operation
    obtain ⟨process, named⟩ := Option.isSome_iff_exists.1 worker
    rw [prepareStop, bound, named]
    exact ⟨_, rfl⟩
  cases id with
  | armPreparationTimeout => exact arm 0
  | armExecutionTimeout => exact arm 1
  | armCooperativeStopTimeout => exact arm 2
  | armProcessExitConfirmationTimeoutIfNeeded => exact arm 3
  | launchWorkerOnce =>
      obtain ⟨p, body⟩ := fine.launch rfl
      simp [prepareEffect, body]
  | requestCooperativeStop => exact stops _ _ rfl
  | requestForcedStop => exact stops _ _ rfl
  | invalid => exact absurd rfl fine.known
  | _ => exact ⟨_, rfl⟩

theorem exists_mapM_eq_some {α β : Type} {f : α → Option β} {l : List α} (each : ∀ x ∈ l, ∃ y, f x = some y) :
    ∃ ys, l.mapM f = some ys := by
  induction l with
  | nil => exact ⟨[], rfl⟩
  | cons x l ih =>
      obtain ⟨y, first⟩ := each x List.mem_cons_self
      obtain ⟨ys, later⟩ := ih fun other member => each other (List.mem_cons_of_mem x member)
      exact ⟨y :: ys, by simp [List.mapM_cons, first, later]⟩

theorem forall₂_of_mapM_eq_some {α β : Type} {f : α → Option β} {l : List α} {ys : List β} (mapped : l.mapM f = some ys) :
    List.Forall₂ (fun x y => f x = some y) l ys := by
  induction l generalizing ys with
  | nil =>
      cases mapped
      exact .nil
  | cons x l ih =>
      rw [List.mapM_cons] at mapped
      obtain ⟨y, first, mapped⟩ := Option.bind_eq_some_iff.1 mapped
      obtain ⟨rest, later, mapped⟩ := Option.bind_eq_some_iff.1 mapped
      cases mapped
      exact .cons first (ih later)

structure PreparedFor (r : Resident) (id : EffectId) (operation : PreparedEffect) : Prop where
  named : operation.id = id
  kind : operation.mappedKind = mappedKind id
  arms : operation.timerUpdate.map Prod.fst = armedPhase id
  next : ∀ phase generation, operation.timerUpdate = some (phase, generation) →
    generation.toNat = (r.timerGeneration phase).toNat + 1

theorem prepareArm_for {id : EffectId} {phase : Fin 4} {operation : PreparedEffect} (arms : armedPhase id = some phase)
    (made : prepareArm r id phase = some operation) : PreparedFor r id operation := by
  rw [prepareArm] at made
  split at made
  · cases made
  next below =>
  cases made
  refine ⟨rfl, rfl, arms.symm, ?_⟩
  intro other generation update
  cases update
  have bound := (r.timerGeneration phase).toNat_lt
  rw [uint64Max] at below
  rw [UInt64.toNat_add, UInt64.toNat_one, Nat.mod_eq_of_lt (by omega)]

theorem prepareStop_for {id : EffectId} {action : Bytes} {request : StableId → Uuid → Handoff} {operation : PreparedEffect}
    (other : armedPhase id = none) (made : prepareStop id action request applied = some operation) :
    PreparedFor r id operation := by
  rw [prepareStop] at made
  split at made
  · cases made
    exact ⟨rfl, rfl, other.symm, nofun⟩
  · cases made

theorem prepareEffect_for {id : EffectId} {operation : PreparedEffect}
    (made : prepareEffect r event applied id = some operation) : PreparedFor r id operation := by
  cases id with
  | armPreparationTimeout | armExecutionTimeout | armCooperativeStopTimeout | armProcessExitConfirmationTimeoutIfNeeded =>
      exact prepareArm_for rfl made
  | requestCooperativeStop | requestForcedStop => exact prepareStop_for rfl made
  | launchWorkerOnce =>
      rw [prepareEffect] at made
      split at made
      · cases made
        exact ⟨rfl, rfl, rfl, nofun⟩
      · cases made
  | invalid => cases made
  | _ =>
      cases made
      exact ⟨rfl, rfl, rfl, nofun⟩

theorem prepareEffects_for {c : Setup} {operations : List PreparedEffect}
    (made : prepareEffects c r event applied = .ok operations) :
    List.Forall₂ (PreparedFor r) (validEffects applied) operations := by
  rw [prepareEffects] at made
  split at made
  · cases made
  split at made
  · cases made
  · next mapped =>
    cases made
    exact (forall₂_of_mapM_eq_some mapped).imp fun _ _ one => prepareEffect_for one

theorem prepareEffects_ok (c : Setup) (few : applied.effects.length ≤ 4)
    (fine : ∀ id ∈ validEffects applied, Preparable r event applied id) :
    ∃ operations, prepareEffects c r event applied = .ok operations := by
  have room : (validEffects applied).length ≤ 4 := (List.length_filter_le _ _).trans few
  have capacity := c.facts.2.2.2.2.2.2.2.1
  obtain ⟨operations, mapped⟩ := exists_mapM_eq_some fun id member => prepareEffect_some (fine id member)
  have fits : ¬((validEffects applied).length > 4 || (validEffects applied).length > c.handoffCapacity) = true := by
    simp only [Bool.or_eq_true, decide_eq_true_eq, not_or, Nat.not_lt]
    exact ⟨room, room.trans capacity⟩
  refine ⟨operations, ?_⟩
  rw [prepareEffects, mapped, if_neg fits]

/-- What `PrepareEffects` meets on a Job with a history. -/
theorem effects_preparable (lib : Libraries) (job session : Uuid) (s : Snapshot) (proposal : PreEnvelopeProposal)
    (reached : Reachable lib (initialSnapshot job session) s) (proposed : Proposed lib s proposal) :
    (apply lib s proposal).effects.length ≤ 4 ∧
      (∀ effect ∈ (apply lib s proposal).effects, effect.isStop = true →
        (apply lib s proposal).snapshot.launchOperationId.isSome = true ∧
          (apply lib s proposal).snapshot.workerId.isSome = true) ∧
      (.launchWorkerOnce ∈ (apply lib s proposal).effects → ∃ p, proposal.payload = .workerLaunchIntent p) ∧
      ∀ (c : Setup) (r : Resident) (event : LogicalJobEvent), event.payload = proposal.payload →
        (∀ phase, (r.timerGeneration phase).toNat ≠ uint64Max) →
        ∃ operations, prepareEffects c r event (apply lib s proposal) = .ok operations := by
  obtain ⟨history, run⟩ := reached.run
  have accepted : Accepts lib s proposal (apply lib s proposal).snapshot := ⟨proposed, rfl⟩
  have few := accepted.moves.effects_le
  have stop : ∀ effect ∈ (apply lib s proposal).effects, effect.isStop = true →
      (apply lib s proposal).snapshot.launchOperationId.isSome = true ∧ (apply lib s proposal).snapshot.workerId.isSome = true :=
    fun effect member asked => run.stop_bound accepted member asked
  have launch := run.launch_intent accepted
  refine ⟨few, stop, launch, fun c r event body timers => prepareEffects_ok c few fun id member => ?_⟩
  obtain ⟨there, known⟩ := List.mem_filter.1 member
  refine ⟨by simpa using known, timers, ?_, stop id there⟩
  rintro rfl
  rw [body]
  exact launch there

/-- The forced stop of a Job that is over and whose process has not gone. -/
theorem effects_preparable_late : ∃ history s,
    runProposals sampleLibraries (initialSnapshot sampleJob sampleJob) sampleSuccess = some (history, s) ∧
      (apply sampleLibraries s sampleExitTimeout).effects =
        [.requestForcedStop, .quarantineResources, .setReadinessFalse] ∧
      (apply sampleLibraries s sampleExitTimeout).snapshot.workerId.isSome = true := by
  have evaluated : (runProposals sampleLibraries (initialSnapshot sampleJob sampleJob) sampleSuccess).map (fun run =>
      (decideEvent sampleLibraries run.2 sampleExitTimeout.event, (apply sampleLibraries run.2 sampleExitTimeout).effects)) =
      some (.ok sampleExitTimeout, [.requestForcedStop, .quarantineResources, .setReadinessFalse]) := by decide +kernel
  obtain ⟨⟨history, s⟩, ran, seen⟩ := Option.map_eq_some_iff.1 evaluated
  obtain ⟨accepted, effects⟩ := Prod.mk.inj seen
  have facts := effects_preparable sampleLibraries sampleJob sampleJob s sampleExitTimeout (runProposals_run ran).reachable
    (.event _ accepted)
  exact ⟨history, s, ran, effects, (facts.2.1 .requestForcedStop (by simp [effects]) rfl).2⟩

end Sitometron.Core.Orchestrator
