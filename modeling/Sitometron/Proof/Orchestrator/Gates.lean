import Sitometron.Lib.Tally
import Sitometron.Core.Orchestrator.Machine

/-!
# Gates and permits

What every gate and every resident keeps, whatever the operations on them do, and the sum that the permit counter stands for.
-/

namespace Sitometron.Core.Orchestrator

variable {c : Setup} {p q u : Pool c} {i j : Slot c} {kind : GateKind} {r : Resident} {g : Gate}

structure Gate.Sound (g : Gate) : Prop where
  pending : g.pending = !(g.queuedSequence = 0)
  queued : g.queuedSequence ≠ 0 → g.permit = true
  leased : g.callbackLease = true → g.permit = true
  retained : g.retained = true → g.permit = true
  exported : g.exportedLeaseSerial ≠ 0 → g.callbackLease = true

def Resident.isBlank (r : Resident) : Prop := r = { timerGeneration := r.timerGeneration }

structure Resident.Sound (r : Resident) : Prop where
  blank : r.reserved = false → r.isBlank
  gates : ∀ kind, (r.gates kind).Sound
  unleased : (r.gates .terminate).callbackLease = false
  unretained : (r.gates .terminate).retained = false
  /-- A Job that is not there yet has its terminate gate only. -/
  closed : r.existing = false → ∀ kind ≠ .terminate, (r.gates kind).registered = false ∧ (r.gates kind).permit = false
  ticket : r.ticket = true → r.existing = false
  claimed : r.claimed = true → r.existing = true ∧ r.claims = 0 ∧ ∀ kind, (r.gates kind).isOwned = false

def Resident.permits (r : Resident) : Nat := ∑ kind, (r.gates kind).permit.toNat

def Pool.permits (p : Pool c) : Nat := ∑ i, (p.residents i).permits

theorem Resident.permits_le (r : Resident) : r.permits ≤ 9 := by
  calc r.permits ≤ ∑ _kind : GateKind, 1 := Finset.sum_le_sum fun kind _ => Bool.toNat_le _
    _ = 9 := rfl

theorem Resident.permits_update (r : Resident) (kind : GateKind) (g : Gate) :
    (Resident.permits { r with gates := Function.update r.gates kind g }) + (r.gates kind).permit.toNat =
      r.permits + g.permit.toNat :=
  sum_update (fun g : Gate => g.permit.toNat) r.gates kind g

theorem Pool.permits_modify (p : Pool c) (i : Slot c) (f : Resident → Resident) :
    (p.modify i f).permits + (p.residents i).permits = p.permits + (f (p.residents i)).permits :=
  sum_update Resident.permits p.residents i _

theorem Resident.permits_eq_countP (r : Resident) : r.permits = GateKind.all.countP fun kind => (r.gates kind).permit :=
  sum_map_toNat (fun kind => (r.gates kind).permit) GateKind.all

def Fault.isBreach : Fault → Bool
  | .reserveExhausted | .fifoFull | .gateMismatch | .residualPermit | .applyRejected | .sourcesRefused => true
  | _ => false

structure Pool.Kept (p : Pool c) : Prop where
  residents : ∀ i, (p.residents i).Sound
  balanced : p.criticalCount = p.permits + p.shutdownPermit.toNat
  spare : (p.residents p.spare).existing = false
  clean : ∀ fault ∈ p.faults, fault.isBreach = false

structure Resident.Same (r t : Resident) : Prop where
  id : t.id = r.id
  banks : t.banks = r.banks
  active : t.active = r.active
  existing : t.existing = r.existing
  reserved : t.reserved = r.reserved
  ticket : t.ticket = r.ticket
  claimed : t.claimed = r.claimed
  createdSequence : t.createdSequence = r.createdSequence
  claims : t.claims = r.claims
  workerSequence : t.workerSequence = r.workerSequence
  generatedIdentities : t.generatedIdentities = r.generatedIdentities
  timerGeneration : t.timerGeneration = r.timerGeneration
  queued : ∀ kind, (t.gates kind).queuedSequence = (r.gates kind).queuedSequence

structure Shifts (p q : Pool c) : Prop where
  kept : q.Kept
  same : ∀ i, (p.residents i).Same (q.residents i)
  spare : q.spare = p.spare
  normal : q.normalCount = p.normalCount

theorem Resident.Same.refl (r : Resident) : r.Same r :=
  ⟨rfl, rfl, rfl, rfl, rfl, rfl, rfl, rfl, rfl, rfl, rfl, rfl, fun _ => rfl⟩

theorem Resident.Same.trans {r t v : Resident} (first : r.Same t) (second : t.Same v) : r.Same v where
  id := second.id.trans first.id
  banks := second.banks.trans first.banks
  active := second.active.trans first.active
  existing := second.existing.trans first.existing
  reserved := second.reserved.trans first.reserved
  ticket := second.ticket.trans first.ticket
  claimed := second.claimed.trans first.claimed
  createdSequence := second.createdSequence.trans first.createdSequence
  claims := second.claims.trans first.claims
  workerSequence := second.workerSequence.trans first.workerSequence
  generatedIdentities := second.generatedIdentities.trans first.generatedIdentities
  timerGeneration := second.timerGeneration.trans first.timerGeneration
  queued kind := (second.queued kind).trans (first.queued kind)

namespace Shifts

theorem refl (kept : p.Kept) : Shifts p p := ⟨kept, fun _ => .refl _, rfl, rfl⟩

theorem trans (first : Shifts p q) (second : Shifts q u) : Shifts p u :=
  ⟨second.kept, fun i => (first.same i).trans (second.same i), second.spare.trans first.spare,
    second.normal.trans first.normal⟩

end Shifts

namespace Pool.Kept

theorem permits_lt (kept : p.Kept) : p.permits + p.shutdownPermit.toNat + 8 ≤ 9 * (c.maxJobs + 1) + 1 := by
  have spare : (p.residents p.spare).permits ≤ 1 := by
    have closed := (kept.residents p.spare).closed kept.spare
    calc (p.residents p.spare).permits ≤ ∑ kind : GateKind, if kind = .terminate then 1 else 0 := by
          apply Finset.sum_le_sum
          intro kind _
          split
          · exact Bool.toNat_le _
          · next other => simp [(closed kind other).2]
      _ = 1 := rfl
  have split : p.permits = (p.residents p.spare).permits + ∑ j ∈ Finset.univ.erase p.spare, (p.residents j).permits :=
    (Finset.add_sum_erase Finset.univ _ (Finset.mem_univ p.spare)).symm
  have rest : ∑ j ∈ Finset.univ.erase p.spare, (p.residents j).permits ≤ 9 * c.maxJobs := by
    have bound := Finset.sum_le_card_nsmul (Finset.univ.erase p.spare) (fun j => (p.residents j).permits) 9
      fun j _ => (p.residents j).permits_le
    simpa [Nat.mul_comm] using bound
  have one := Bool.toNat_le p.shutdownPermit
  omega

end Pool.Kept

theorem Setup.criticalReserve_eq (c : Setup) : c.criticalReserve = 9 * (c.maxJobs + 1) + 1 := by
  have some := c.facts.2.2.1
  rw [Config.criticalReserve] at some ⊢
  split
  · next large => exact absurd (if_pos large) some
  · rfl

theorem Pool.Kept.reserve_free (kept : p.Kept) : p.criticalCount < c.criticalReserve := by
  have bound := kept.permits_lt
  rw [kept.balanced, c.criticalReserve_eq]
  omega

structure Regates (r : Resident) (kind : GateKind) (g : Gate) : Prop where
  sound : g.Sound
  terminate : kind = .terminate → g.callbackLease = false ∧ g.retained = false
  vacant : r.existing = false → kind ≠ .terminate → g.registered = false ∧ g.permit = false
  unowned : r.claimed = true → g.isOwned = false

def Resident.regate (r : Resident) (kind : GateKind) (g : Gate) (slots : GateKind → Option GateIdentity) : Resident :=
  { r with gates := Function.update r.gates kind g, identitySlots := slots }

theorem Resident.regate_gates (r : Resident) (kind other : GateKind) (g : Gate) (slots : GateKind → Option GateIdentity) :
    (r.regate kind g slots).gates other = if other = kind then g else r.gates other :=
  Function.update_apply r.gates kind g other

theorem Resident.Sound.regate (sound : r.Sound) (reserved : r.reserved = true) (fine : Regates r kind g)
    (slots : GateKind → Option GateIdentity) : (r.regate kind g slots).Sound where
  blank := by
    intro unreserved
    exact absurd reserved (by simpa [Resident.regate] using unreserved)
  gates other := by
    rw [Resident.regate_gates]
    split
    · exact fine.sound
    · exact sound.gates other
  unleased := by
    rw [Resident.regate_gates]
    split
    · next same => exact (fine.terminate same.symm).1
    · exact sound.unleased
  unretained := by
    rw [Resident.regate_gates]
    split
    · next same => exact (fine.terminate same.symm).2
    · exact sound.unretained
  closed absent other named := by
    rw [Resident.regate_gates]
    split
    · next same => exact fine.vacant absent (same ▸ named)
    · exact sound.closed absent other named
  ticket := sound.ticket
  claimed claim := by
    obtain ⟨existing, none, unowned⟩ := sound.claimed claim
    refine ⟨existing, none, fun other => ?_⟩
    rw [Resident.regate_gates]
    split
    · exact fine.unowned claim
    · exact unowned other

theorem Pool.modify_residents (p : Pool c) (i j : Slot c) (f : Resident → Resident) :
    (p.modify i f).residents j = if j = i then f (p.residents i) else p.residents j :=
  Function.update_apply p.residents i _ j

theorem Pool.modify_field {α : Type} (field : Resident → α) {f : Resident → Resident} (same : ∀ r, field (f r) = field r)
    (j : Slot c) : field ((p.modify i f).residents j) = field (p.residents j) := by
  rw [Pool.modify_residents]
  split
  · next here => rw [same, here]
  · rfl

theorem Pool.balanced_modify (balanced : p.criticalCount = p.permits + p.shutdownPermit.toNat) (f : Resident → Resident)
    {count : Nat} (moved : count + (p.residents i).permits = p.criticalCount + (f (p.residents i)).permits) :
    count = (p.modify i f).permits + p.shutdownPermit.toNat := by
  have sum := p.permits_modify i f
  omega

namespace Pool.Kept

theorem modify (kept : p.Kept) (f : Resident → Resident) {count : Nat} (sound : (f (p.residents i)).Sound)
    (spare : i = p.spare → (f (p.residents i)).existing = false)
    (balanced : count + (p.residents i).permits = p.criticalCount + (f (p.residents i)).permits) :
    Pool.Kept { p.modify i f with criticalCount := count } where
  residents j := by
    show ((p.modify i f).residents j).Sound
    rw [Pool.modify_residents]
    split
    · exact sound
    · exact kept.residents j
  balanced := Pool.balanced_modify kept.balanced f balanced
  spare := by
    show ((p.modify i f).residents p.spare).existing = false
    rw [Pool.modify_residents]
    split
    · next same => exact spare same.symm
    · exact kept.spare
  clean := kept.clean

theorem regate (kept : p.Kept) (reserved : (p.residents i).reserved = true) (fine : Regates (p.residents i) kind g)
    (slots : Resident → GateKind → Option GateIdentity) {count : Nat}
    (balanced : count + (p.gate i kind).permit.toNat = p.criticalCount + g.permit.toNat) :
    Pool.Kept { p.modify i (fun r => r.regate kind g (slots r)) with criticalCount := count } := by
  apply kept.modify (fun r => r.regate kind g (slots r)) ((kept.residents i).regate reserved fine _)
  · rintro rfl
    exact kept.spare
  · have moved : ((p.residents i).regate kind g (slots (p.residents i))).permits + (p.gate i kind).permit.toNat =
        (p.residents i).permits + g.permit.toNat := (p.residents i).permits_update kind g
    show count + (p.residents i).permits = p.criticalCount + _
    omega

theorem permit_le (kept : p.Kept) (i : Slot c) (kind : GateKind) : (p.gate i kind).permit.toNat ≤ p.criticalCount := by
  have here : (p.gate i kind).permit.toNat ≤ (p.residents i).permits :=
    Finset.single_le_sum (f := fun kind => ((p.residents i).gates kind).permit.toNat) (fun _ _ => Nat.zero_le _)
      (Finset.mem_univ kind)
  have all : (p.residents i).permits ≤ p.permits :=
    Finset.single_le_sum (f := fun i => (p.residents i).permits) (fun _ _ => Nat.zero_le _) (Finset.mem_univ i)
  rw [kept.balanced]
  omega

end Pool.Kept

namespace Shifts

theorem regate (kept : p.Kept) (reserved : (p.residents i).reserved = true) (fine : Regates (p.residents i) kind g)
    (queued : g.queuedSequence = (p.gate i kind).queuedSequence) (slots : Resident → GateKind → Option GateIdentity)
    {count : Nat} (balanced : count + (p.gate i kind).permit.toNat = p.criticalCount + g.permit.toNat) :
    Shifts p { p.modify i (fun r => r.regate kind g (slots r)) with criticalCount := count } where
  kept := kept.regate reserved fine slots balanced
  same j := by
    show (p.residents j).Same ((p.modify i fun r => r.regate kind g (slots r)).residents j)
    rw [Pool.modify_residents]
    split
    · next here =>
      subst here
      refine ⟨rfl, rfl, rfl, rfl, rfl, rfl, rfl, rfl, rfl, rfl, rfl, rfl, fun other => ?_⟩
      rw [Resident.regate_gates]
      split
      · next same => rw [queued, same]; rfl
      · rfl
    · exact .refl _
  spare := rfl
  normal := rfl

theorem setGate (kept : p.Kept) (reserved : (p.residents i).reserved = true) (fine : Regates (p.residents i) kind g)
    (queued : g.queuedSequence = (p.gate i kind).queuedSequence) (permit : g.permit = (p.gate i kind).permit) :
    Shifts p (p.setGate i kind g) :=
  Shifts.regate kept reserved fine queued (fun r => r.identitySlots) (by rw [permit])

end Shifts

end Sitometron.Core.Orchestrator
