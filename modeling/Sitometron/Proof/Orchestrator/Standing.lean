import Sitometron.Proof.Orchestrator.Admissions

/-!
# What stays of a resident

Leases, admissions and releases write gates and owners. The record of a slot that has its Job stays as it is, and a slot
without one is opened for its creation or goes.
-/

namespace Sitometron.Core.Orchestrator

variable {c : Setup} {p q u : Pool c} {i j : Slot c} {r t v : Resident} {e : Entry c}

def Resident.bare (r : Resident) : Resident :=
  { r with claimed := false, claims := 0, identitySlots := fun _ => none, gates := fun _ => {} }

theorem Resident.Same.bare (same : r.Same t) : t.bare = r.bare := by
  obtain ⟨id, banks, active, existing, reserved, ticket, claimed, created, claims, worker, identities, timers, queued⟩ := same
  simp [Resident.bare, id, banks, active, existing, reserved, ticket, created, worker, identities, timers]

structure Resident.Stays (r t : Resident) : Prop where
  id : t.id = r.id
  banks : t.banks = r.banks
  active : t.active = r.active
  existing : t.existing = r.existing
  reserved : t.reserved = r.reserved
  ticket : t.ticket = r.ticket
  createdSequence : t.createdSequence = r.createdSequence

namespace Resident.Stays

theorem refl (r : Resident) : r.Stays r := ⟨rfl, rfl, rfl, rfl, rfl, rfl, rfl⟩

theorem trans (first : r.Stays t) (second : t.Stays v) : r.Stays v where
  id := second.id.trans first.id
  banks := second.banks.trans first.banks
  active := second.active.trans first.active
  existing := second.existing.trans first.existing
  reserved := second.reserved.trans first.reserved
  ticket := second.ticket.trans first.ticket
  createdSequence := second.createdSequence.trans first.createdSequence

theorem of_bare (same : t.bare = r.bare) : r.Stays t := by
  simp only [Resident.bare, Resident.mk.injEq] at same
  obtain ⟨id, banks, active, existing, reserved, ticket, -, created, -⟩ := same
  exact ⟨id, banks, active, existing, reserved, ticket, created⟩

theorem snapshot (stays : r.Stays t) : t.snapshot = r.snapshot := by
  rw [Resident.snapshot, stays.banks, stays.active, Resident.snapshot]

theorem modify {f : Resident → Resident} (same : ∀ r : Resident, r.Stays (f r)) (j : Slot c) :
    (p.residents j).Stays ((p.modify i f).residents j) := by
  rw [Pool.modify_residents]
  split
  · next here => exact here ▸ same _
  · exact .refl _

end Resident.Stays

structure Resident.isFresh (r : Resident) : Prop where
  absent : r.existing = false
  start : r.reserved = true → r.snapshot = initialSnapshot r.id r.id

structure Resident.Faithful (r : Resident) : Prop where
  present : r.existing = true → r.snapshot.jobId = r.id ∧ r.snapshot.entityExists = true
  absent : r.existing = false → r.isFresh

namespace Resident.Faithful

theorem of_fresh (fresh : r.isFresh) : r.Faithful where
  present existing := absurd existing (by simp [fresh.absent])
  absent _ := fresh

theorem alike (faithful : r.Faithful) (id : t.id = r.id) (snapshot : t.snapshot = r.snapshot)
    (existing : t.existing = r.existing) (reserved : t.reserved = r.reserved) : t.Faithful where
  present there := by
    rw [snapshot, id]
    exact faithful.present (existing ▸ there)
  absent gone := by
    have fresh := faithful.absent (existing ▸ gone)
    refine ⟨gone, fun taken => ?_⟩
    rw [snapshot, id]
    exact fresh.start (reserved ▸ taken)

theorem stays (faithful : r.Faithful) (stays : r.Stays t) : t.Faithful :=
  faithful.alike stays.id stays.snapshot stays.existing stays.reserved

theorem jobId (faithful : r.Faithful) (reserved : r.reserved = true) : r.snapshot.jobId = r.id := by
  cases existing : r.existing with
  | true => exact (faithful.present existing).1
  | false =>
      rw [(faithful.absent existing).start reserved]
      rfl

theorem entityExists (faithful : r.Faithful) (reserved : r.reserved = true) : r.snapshot.entityExists = r.existing := by
  cases existing : r.existing with
  | true => exact (faithful.present existing).2
  | false =>
      rw [(faithful.absent existing).start reserved]
      rfl

end Resident.Faithful

theorem Resident.isBlank.fresh (blank : r.isBlank) : r.isFresh := by
  rw [blank]
  exact ⟨rfl, nofun⟩

def Resident.Thins (r t : Resident) : Prop := t.bare = r.bare ∨ r.existing = false ∧ t.existing = false ∧ t.reserved = false

theorem Resident.Thins.trans (first : r.Thins t) (second : t.Thins v) : r.Thins v := by
  rcases first with same | ⟨absent, gone, free⟩
  · rcases second with again | ⟨absent, gone, free⟩
    · exact .inl (again.trans same)
    · exact .inr ⟨(Stays.of_bare same).existing.symm.trans absent, gone, free⟩
  · rcases second with again | ⟨-, gone, free⟩
    · exact .inr ⟨absent, (Stays.of_bare again).existing.trans gone, (Stays.of_bare again).reserved.trans free⟩
    · exact .inr ⟨absent, gone, free⟩

theorem Resident.Thins.faithful (thins : r.Thins t) (faithful : r.Faithful) : t.Faithful := by
  rcases thins with same | ⟨-, gone, free⟩
  · exact faithful.stays (.of_bare same)
  · exact .of_fresh ⟨gone, fun taken => absurd taken (by simp [free])⟩

def Pool.Thins (p q : Pool c) : Prop := ∀ j, (p.residents j).Thins (q.residents j)

structure Releasing (R : Resident → Resident → Prop) : Prop where
  trans : ∀ {r t v : Resident}, R r t → R t v → R r v
  bare : ∀ {r t : Resident}, t.bare = r.bare → R r t
  reset : ∀ {r : Resident}, r.existing = false → R r { timerGeneration := r.timerGeneration }

namespace Releasing

variable {R : Resident → Resident → Prop}

theorem modify (releasing : Releasing R) (p : Pool c) (i : Slot c) {f : Resident → Resident} (same : ∀ r, (f r).bare = r.bare)
    (j : Slot c) : R (p.residents j) ((p.modify i f).residents j) := releasing.bare (Pool.modify_field (·.bare) same j)

theorem setGate (releasing : Releasing R) (p : Pool c) (i : Slot c) (kind : GateKind) (g : Gate) (j : Slot c) :
    R (p.residents j) ((p.setGate i kind g).residents j) := releasing.modify p i (by intro r; rfl) j

theorem releaseUnusedGate (releasing : Releasing R) (p : Pool c) (i : Slot c) (kind : GateKind) (j : Slot c) :
    R (p.residents j) ((p.releaseUnusedGate i kind).residents j) := by
  apply releasing.bare
  rw [Pool.releaseUnusedGate]
  dsimp only
  split
  · rfl
  · dsimp only
    apply Pool.modify_field (·.bare)
    intro r
    rfl

theorem resetIfUnowned (releasing : Releasing R) (p : Pool c) (i j : Slot c) :
    R (p.residents j) ((p.resetIfUnowned i).residents j) := by
  rw [Pool.resetIfUnowned]
  split
  · next unowned =>
    simp only [Bool.and_eq_true, Bool.not_eq_true'] at unowned
    rw [Pool.resetSlot_apply]
    split
    · next here =>
      subst here
      exact releasing.reset unowned.1
    · exact releasing.bare rfl
  · exact releasing.bare rfl

theorem retireAfterExit (releasing : Releasing R) (p : Pool c) (i : Slot c) (kind : GateKind) (successful : Bool) (j : Slot c) :
    R (p.residents j) ((p.retireAfterExit i kind successful).residents j) := by
  rw [Pool.retireAfterExit]
  split
  · exact releasing.trans (releasing.setGate p i .worker _ j) (releasing.releaseUnusedGate _ _ _ j)
  · exact releasing.bare rfl

theorem closeGate (releasing : Releasing R) (p : Pool c) (i : Slot c) (kind : GateKind) (successful : Bool) (j : Slot c) :
    R (p.residents j) ((p.closeGate i kind successful).residents j) := by
  apply releasing.trans (releasing.retireAfterExit p i kind successful j)
  apply releasing.trans (releasing.setGate _ i kind _ j)
  exact releasing.trans (releasing.releaseUnusedGate _ _ _ j) (releasing.resetIfUnowned _ _ j)

theorem unclaim (releasing : Releasing R) (p : Pool c) (victim : Option (Slot c)) (j : Slot c) :
    R (p.residents j) ((p.unclaim victim).residents j) := by
  cases victim with
  | none => exact releasing.bare rfl
  | some v =>
      rw [Pool.unclaim]
      exact releasing.modify p v (by intro r; rfl) j

theorem releaseCreationClaim (releasing : Releasing R) (p : Pool c) (e : Entry c) (j : Slot c) :
    R (p.residents j) ((p.releaseCreationClaim e).residents j) := by
  rw [Pool.releaseCreationClaim_eq]
  apply releasing.trans (releasing.unclaim p e.victim j)
  split
  · exact releasing.trans (releasing.modify _ _ (by intro r; rfl) j) (releasing.resetIfUnowned _ _ j)
  · exact releasing.bare rfl

theorem releaseGate (releasing : Releasing R) (p : Pool c) (e : Entry c) (successful : Bool) (j : Slot c) :
    R (p.residents j) ((p.releaseGate e successful).residents j) := by
  cases critical : e.critical with
  | false =>
      simp only [Pool.releaseGate, critical]
      exact releasing.bare rfl
  | true =>
      by_cases marker : e.input = .shutdown
      · simp only [Pool.releaseGate, critical, marker]
        exact releasing.bare rfl
      · cases seat : e.resident with
        | none =>
            simp only [Pool.releaseGate, critical, marker, seat]
            exact releasing.bare rfl
        | some i =>
            cases gate : e.gate with
            | none =>
                simp only [Pool.releaseGate, critical, marker, seat, gate]
                exact releasing.bare rfl
            | some kind =>
                by_cases named : (p.gate i kind).queuedSequence = e.sequence
                · rw [Pool.releaseGate_eq critical marker seat gate named]
                  split
                  · exact releasing.setGate p i kind _ j
                  · exact releasing.trans (releasing.setGate p i kind _ j) (releasing.closeGate _ _ _ _ j)
                · simp only [Pool.releaseGate, critical, marker, seat, gate]
                  simp only [named, ne_eq, not_false_eq_true, if_true]
                  exact releasing.bare rfl

theorem release (releasing : Releasing R) (p : Pool c) (e : Entry c) (successful : Bool) (j : Slot c) :
    R (p.residents j) ((p.release e successful).residents j) :=
  releasing.trans (releasing.releaseCreationClaim p e j) (releasing.releaseGate _ e successful j)

end Releasing

theorem Resident.Thins.releasing : Releasing Resident.Thins where
  trans := .trans
  bare same := .inl same
  reset absent := .inr ⟨absent, rfl, rfl⟩

theorem Pool.Thins.release (p : Pool c) (e : Entry c) (successful : Bool) : p.Thins (p.release e successful) :=
  Resident.Thins.releasing.release p e successful

def Resident.Grows (r t : Resident) : Prop := r.Stays t ∨ r.reserved = false ∧ t.isFresh

theorem Resident.Grows.faithful (grows : r.Grows t) (faithful : r.Faithful) : t.Faithful := by
  rcases grows with stays | ⟨-, fresh⟩
  · exact faithful.stays stays
  · exact .of_fresh fresh

theorem Resident.Grows.stays (grows : r.Grows t) (reserved : r.reserved = true) : r.Stays t := by
  rcases grows with stays | ⟨free, -⟩
  · exact stays
  · simp [free] at reserved

theorem Pool.occupy_grows (kept : p.Kept) (free : (p.residents i).reserved = false) (id : Uuid) (ticket : Bool) (j : Slot c) :
    (p.residents j).Grows ((p.occupy i id ticket).residents j) := by
  have value : (p.occupy i id ticket).residents j = if j = i then (p.residents i).occupied id ticket else p.residents j := by
    rw [Pool.occupy_eq kept free]
    exact p.modify_residents i j fun r => r.occupied id ticket
  rw [value]
  split
  · next here =>
    subst here
    have blank := (kept.residents j).blank free
    refine .inr ⟨free, ?_, fun _ => rfl⟩
    rw [blank]
    rfl
  · exact .inl (.refl _)

theorem Pool.reserve_grows (kept : p.Kept) {id : Uuid} {slot : Option (Slot c)} (made : p.reserve id = (slot, q)) (j : Slot c) :
    (p.residents j).Grows (q.residents j) := by
  have result := reserved p id
  rw [made] at result
  cases result with
  | known => exact .inl (.modify (by intro r; exact ⟨rfl, rfl, rfl, rfl, rfl, rfl, rfl⟩) j)
  | ordinary _ _ free => exact Pool.occupy_grows kept free id false j
  | spare _ _ free => exact Pool.occupy_grows kept free id true j
  | none => exact .inl (.refl _)

theorem Pool.reserveCreation_grows (kept : p.Kept) {id : Uuid} {identities : Option GeneratedIdentityBundle}
    {slot : Option (Slot c)} (made : State.reserveCreation p id identities = (slot, q)) (j : Slot c) :
    (p.residents j).Grows (q.residents j) := by
  rw [State.reserveCreation_eq] at made
  cases taken : p.reserve id with
  | mk place t =>
      have grows := Pool.reserve_grows kept taken j
      rw [taken] at made
      cases place with
      | none =>
          cases made
          exact grows
      | some k =>
          dsimp only at made
          split at made
          · cases made
            exact grows
          · next bundle _ =>
            cases made
            have beside : (t.residents j).Stays
                ((t.modify k fun r => { r with generatedIdentities := some bundle }).residents j) :=
              .modify (by intro r; exact ⟨rfl, rfl, rfl, rfl, rfl, rfl, rfl⟩) j
            rcases grows with stays | ⟨free, fresh⟩
            · exact .inl (stays.trans beside)
            · refine .inr ⟨free, beside.existing.trans fresh.absent, fun taken => ?_⟩
              rw [beside.snapshot, beside.id]
              exact fresh.start (beside.reserved ▸ taken)

end Sitometron.Core.Orchestrator
