import Sitometron.Proof.Orchestrator.Seats

/-!
# Sealing

Once nothing is queued and no lease is exported, the cancellation of all gates gives every permit back.
-/

namespace Sitometron.Core.Orchestrator

variable {c : Setup} {p : Pool c} {i j : Slot c} {kind other : GateKind} {live : List (Entry c)} {victim : Option (Slot c)}

def Pool.isQuiet (p : Pool c) : Prop := ∀ i kind, (p.gate i kind).queuedSequence = 0 ∧ (p.gate i kind).exportedLeaseSerial = 0

theorem Pool.releaseUnusedGate_other (elsewhere : ¬(j = i ∧ other = kind)) :
    (p.releaseUnusedGate i kind).gate j other = p.gate j other := by
  rw [Pool.releaseUnusedGate]
  dsimp only
  split
  · rfl
  · rw [Pool.gate, Pool.gate]
    dsimp only
    rw [Pool.modify_residents]
    split
    · next here =>
      subst here
      exact Function.update_of_ne (fun same => elsewhere ⟨rfl, same⟩) _ _
    · rfl

theorem Pool.releaseUnusedGate_free (unowned : (p.gate i kind).isOwned = false) (unretained : (p.gate i kind).retained = false) :
    ((p.releaseUnusedGate i kind).gate i kind).permit = false ∧
      ((p.releaseUnusedGate i kind).gate i kind).queuedSequence = (p.gate i kind).queuedSequence ∧
      ((p.releaseUnusedGate i kind).gate i kind).exportedLeaseSerial = (p.gate i kind).exportedLeaseSerial := by
  rw [Pool.releaseUnusedGate, if_neg (by simp [unowned, unretained])]
  simp [Pool.gate, Pool.modify]

theorem Pool.cancelGate_other (elsewhere : ¬(j = i ∧ other = kind)) : (p.cancelGate i kind).gate j other = p.gate j other := by
  rw [Pool.cancelGate, Pool.releaseUnusedGate_other elsewhere, Pool.setGate_gate_apply, if_neg elsewhere]

theorem Pool.cancelGate_self (unqueued : (p.gate i kind).queuedSequence = 0) (unexported : (p.gate i kind).exportedLeaseSerial = 0) :
    ((p.cancelGate i kind).gate i kind).permit = false ∧ ((p.cancelGate i kind).gate i kind).queuedSequence = 0 ∧
      ((p.cancelGate i kind).gate i kind).exportedLeaseSerial = 0 := by
  have unowned : ((p.setGate i kind (p.gate i kind).retired).gate i kind).isOwned = false := by
    simp [Gate.isOwned, Gate.retired, unqueued, unexported]
  rw [Pool.cancelGate]
  obtain ⟨permit, queued, exported⟩ := Pool.releaseUnusedGate_free unowned (by simp [Gate.retired])
  exact ⟨permit, queued.trans (by simp [Gate.retired, unqueued]), exported.trans (by simp [Gate.retired, unexported])⟩

theorem Pool.isQuiet.cancelGate (quiet : p.isQuiet) (i : Slot c) (kind : GateKind) : (p.cancelGate i kind).isQuiet := by
  intro j other
  by_cases here : j = i ∧ other = kind
  · obtain ⟨rfl, rfl⟩ := here
    exact (Pool.cancelGate_self (quiet j other).1 (quiet j other).2).2
  · rw [Pool.cancelGate_other here]
    exact quiet j other

theorem Pool.cancelGates_eq (p : Pool c) : p.cancelGates =
    ((slots c).flatMap fun i => GateKind.all.map fun kind => (i, kind)).foldl (fun p place => p.cancelGate place.1 place.2) p := by
  simp only [Pool.cancelGates, List.foldl_flatMap, List.foldl_map]

theorem Pool.isQuiet.cancelGates (quiet : p.isQuiet) (i : Slot c) (kind : GateKind) :
    (p.cancelGates.gate i kind).permit = false := by
  -- A gate that has been cancelled stays without its permit.
  have all : ∀ (places : List (Slot c × GateKind)) {q : Pool c}, q.isQuiet →
      (i, kind) ∈ places ∨ (q.gate i kind).permit = false →
      ((places.foldl (fun p place => p.cancelGate place.1 place.2) q).gate i kind).permit = false := by
    intro places
    induction places with
    | nil => exact fun _ done => done.resolve_left (by simp)
    | cons place rest ih =>
        intro q quiet done
        apply ih (quiet.cancelGate place.1 place.2)
        by_cases here : i = place.1 ∧ kind = place.2
        · obtain ⟨rfl, rfl⟩ := here
          exact .inr (Pool.cancelGate_self (quiet _ _).1 (quiet _ _).2).1
        · rw [Pool.cancelGate_other here]
          refine done.imp_left fun member => (List.mem_cons.1 member).resolve_left fun same => ?_
          exact here ⟨congrArg Prod.fst same, congrArg Prod.snd same⟩
  rw [Pool.cancelGates_eq]
  apply all _ quiet
  left
  have every : kind ∈ GateKind.all := by cases kind <;> decide
  exact List.mem_flatMap.2 ⟨i, List.mem_finRange i, List.mem_map.2 ⟨kind, every, rfl⟩⟩

theorem Pool.hasSourceLeaseOwners_eq_false :
    p.hasSourceLeaseOwners = false ↔ ∀ i kind, (p.gate i kind).exportedLeaseSerial = 0 := by
  have every : ∀ kind, kind ∈ GateKind.all := fun kind => by cases kind <;> decide
  simp [Pool.hasSourceLeaseOwners, slots, every]

theorem Fits.unqueued (fits : Fits p []) (i : Slot c) (kind : GateKind) : (p.gate i kind).queuedSequence = 0 := by
  have listed := fits.queued i kind
  by_contra queued
  simp [Sitometron.Core.Orchestrator.listed, queued] at listed

theorem Settled.quiet (settled : Settled p [] victim) (unleased : p.hasSourceLeaseOwners = false) : p.isQuiet :=
  fun i kind => ⟨settled.fits.unqueued i kind, Pool.hasSourceLeaseOwners_eq_false.1 unleased i kind⟩

theorem Settled.cancelled (settled : Settled p [] victim) (unleased : p.hasSourceLeaseOwners = false) : p.cancelGates.permits = 0 := by
  have free := (settled.quiet unleased).cancelGates
  refine Finset.sum_eq_zero fun i _ => Finset.sum_eq_zero fun kind _ => ?_
  have gone : ((p.cancelGates.residents i).gates kind).permit = false := free i kind
  rw [gone]
  rfl

theorem Settled.seal (settled : Settled p [] victim) (unleased : p.hasSourceLeaseOwners = false) :
    Settled p.cancelGates.retireShutdownGate [] victim ∧ p.cancelGates.retireShutdownGate.criticalCount = 0 := by
  have cancelled := settled.shift (.cancelGates settled.kept)
  have balanced := cancelled.kept.balanced
  rw [settled.cancelled unleased] at balanced
  have none : p.cancelGates.retireShutdownGate.criticalCount = 0 := by
    rw [Pool.retireShutdownGate]
    cases permit : p.cancelGates.shutdownPermit <;> simp [balanced, permit]
  refine ⟨cancelled.frame rfl rfl ?_ cancelled.kept.clean, none⟩
  rw [none, settled.cancelled unleased]
  rfl

end Sitometron.Core.Orchestrator
