import Sitometron.Core.Orchestrator.Machine

/-!
# Frames

Most operations of the pool change residents and the permit counter, and nothing else.
-/

namespace Sitometron.Core.Orchestrator

variable {c : Setup} {p q u : Pool c} {i : Slot c}

def Inner (p q : Pool c) : Prop := q = { p with residents := q.residents, criticalCount := q.criticalCount }

namespace Inner

theorem refl (p : Pool c) : Inner p p := rfl

theorem trans (first : Inner p q) (second : Inner q u) : Inner p u := by
  rw [Inner] at first second ⊢
  rw [second, first]

theorem faults (inner : Inner p q) : q.faults = p.faults := by rw [inner]

theorem mode (inner : Inner p q) : q.mode = p.mode := by rw [inner]

theorem spare (inner : Inner p q) : q.spare = p.spare := by rw [inner]

theorem normal (inner : Inner p q) : q.normalCount = p.normalCount := by rw [inner]

theorem permit (inner : Inner p q) : q.shutdownPermit = p.shutdownPermit := by rw [inner]

theorem modify (p : Pool c) (i : Slot c) (f : Resident → Resident) : Inner p (p.modify i f) := rfl

theorem setGate (p : Pool c) (i : Slot c) (kind : GateKind) (g : Gate) : Inner p (p.setGate i kind g) := rfl

theorem releaseUnusedGate (p : Pool c) (i : Slot c) (kind : GateKind) : Inner p (p.releaseUnusedGate i kind) := by
  rw [Pool.releaseUnusedGate]
  dsimp only
  split <;> exact rfl

theorem resetSlot (p : Pool c) (i : Slot c) (advance : Bool) : Inner p (p.resetSlot i advance) := rfl

theorem resetIfUnowned (p : Pool c) (i : Slot c) : Inner p (p.resetIfUnowned i) := by
  rw [Pool.resetIfUnowned]
  split <;> exact rfl

theorem returnGate (p : Pool c) (lease : SourceLease c) : Inner p (p.returnGate lease).2 := by
  rw [Pool.returnGate]
  dsimp only
  split
  · exact .refl p
  split
  · exact .refl p
  apply Inner.trans _ (.resetIfUnowned _ _)
  split
  · exact (Inner.setGate p _ _ _).trans (.releaseUnusedGate _ _ _)
  · exact .setGate p _ _ _

theorem retireWorkerProtocol (p : Pool c) (i : Slot c) : Inner p (p.retireWorkerProtocol i) :=
  (Inner.setGate p i .worker _).trans (.releaseUnusedGate _ _ _)

theorem cancelGate (p : Pool c) (i : Slot c) (kind : GateKind) : Inner p (p.cancelGate i kind) :=
  (Inner.setGate p i kind _).trans (.releaseUnusedGate _ _ _)

theorem foldl {α : Type} {f : Pool c → α → Pool c} (each : ∀ p x, Inner p (f p x)) (l : List α) (p : Pool c) :
    Inner p (l.foldl f p) := by
  induction l generalizing p with
  | nil => exact .refl p
  | cons x l ih => exact (each p x).trans (ih _)

theorem cancelGates (p : Pool c) : Inner p p.cancelGates :=
  .foldl (fun p i => .foldl (fun p kind => .cancelGate p i kind) _ p) _ p

theorem retireGate (p : Pool c) (i : Slot c) (kind : GateKind) : Inner p (p.retireGate i kind) := by
  rw [Pool.retireGate]
  dsimp only
  split
  · exact .setGate p _ _ _
  · exact (Inner.setGate p i kind _).trans (.releaseUnusedGate _ _ _)

theorem activateSource (p : Pool c) (i : Slot c) (kind : GateKind) : Inner p (p.activateSource i kind) := rfl

theorem activateSources (p : Pool c) (i : Slot c) (plan : List GateKind) : Inner p (p.activateSources i plan) :=
  .foldl (fun p kind => .activateSource p i kind) _ p

theorem releaseCreationClaim (p : Pool c) (e : Entry c) : Inner p (p.releaseCreationClaim e) := by
  rw [Pool.releaseCreationClaim]
  cases e.victim with
  | none =>
      dsimp only
      split
      · exact (Inner.modify p _ _).trans (.resetIfUnowned _ _)
      · exact .refl p
  | some victim =>
      dsimp only
      split
      · exact ((Inner.modify p _ _).trans (.modify _ _ _)).trans (.resetIfUnowned _ _)
      · exact .modify p _ _

end Inner

end Sitometron.Core.Orchestrator
