import Sitometron.Proof.Orchestrator.Frames
import Sitometron.Proof.Orchestrator.Leases

/-!
# Entries and their slots

Every admitted entry that is not released yet has its gate and its slot, and nothing else has. The entries are the one of the
turn in flight, followed by the queue.
-/

namespace Sitometron.Core.Orchestrator

variable {c : Setup} {p q : Pool c} {i j : Slot c} {kind : GateKind} {e f : Entry c} {live rest : List (Entry c)}
  {victim : Option (Slot c)}

def Entry.occupies (e : Entry c) (i : Slot c) (kind : GateKind) : Bool :=
  e.critical && e.resident = some i && e.gate = some kind

def Entry.claims (e : Entry c) (i : Slot c) : Bool := e.input.isCreation && e.resident = some i

structure Entry.Formed (e : Entry c) : Prop where
  sequence : e.sequence ≠ 0
  creation : e.input.isCreation = true → e.critical = false ∧ e.resident.isSome = true
  marker : e.input = .shutdown → e.critical = true ∧ e.resident = none
  critical : e.critical = true → e.input ≠ .shutdown → e.resident.isSome = true ∧ e.gate.isSome = true
  seated : e.resident.isSome = true → e.input.isCreation = true ∨ e.critical = true ∧ e.gate.isSome = true

def listed (sequence : Nat) : List Nat := if sequence = 0 then [] else [sequence]

structure Fits (p : Pool c) (live : List (Entry c)) : Prop where
  formed : ∀ e ∈ live, e.Formed
  seated : ∀ e ∈ live, ∀ i, e.resident = some i →
    (p.residents i).reserved = true ∧ (p.residents i).id = e.input.jobId
  queued : ∀ i kind, (live.filter (·.occupies i kind)).map (·.sequence) = listed (p.gate i kind).queuedSequence
  claims : ∀ i, (p.residents i).claims = live.countP (·.claims i)

structure Slotted (p : Pool c) (victim : Option (Slot c)) : Prop where
  distinct : ∀ i j, (p.residents i).reserved = true → (p.residents j).reserved = true →
    (p.residents i).id = (p.residents j).id → i = j
  ticket : ∀ i, (p.residents i).ticket = true ↔ i = p.spare ∧ (p.residents i).reserved = true
  claimed : ∀ i, (p.residents i).claimed = true ↔ victim = some i
  full : victim.isSome = true → ∀ i, (p.residents i).reserved = true

structure Settled (p : Pool c) (live : List (Entry c)) (victim : Option (Slot c)) : Prop where
  kept : p.Kept
  fits : Fits p live
  slotted : Slotted p victim
  held : ∀ i, (p.residents i).isHeld

theorem Fits.same (fits : Fits p live) (same : ∀ i, (p.residents i).Same (q.residents i)) : Fits q live where
  formed := fits.formed
  seated e member i seat := by
    rw [(same i).reserved, (same i).id]
    exact fits.seated e member i seat
  queued i kind := (fits.queued i kind).trans (congrArg listed ((same i).queued kind).symm)
  claims i := (same i).claims.trans (fits.claims i)

theorem Slotted.same (slotted : Slotted p victim) (same : ∀ i, (p.residents i).Same (q.residents i))
    (spare : q.spare = p.spare) : Slotted q victim where
  distinct i j := by
    rw [(same i).reserved, (same j).reserved, (same i).id, (same j).id]
    exact slotted.distinct i j
  ticket i := by
    rw [(same i).ticket, (same i).reserved, spare]
    exact slotted.ticket i
  claimed i := by
    rw [(same i).claimed]
    exact slotted.claimed i
  full some i := (same i).reserved.trans (slotted.full some i)

theorem Settled.shift (settled : Settled p live victim) (shifts : Shifts p q) : Settled q live victim where
  kept := shifts.kept
  fits := settled.fits.same shifts.same
  slotted := settled.slotted.same shifts.same shifts.spare
  held i := (shifts.same i).held (settled.held i)

theorem Pool.setGate_gate_apply (p : Pool c) (i j : Slot c) (kind other : GateKind) (g : Gate) :
    (p.setGate i kind g).gate j other = if j = i ∧ other = kind then g else p.gate j other := by
  rw [Pool.gate, Pool.setGate, Pool.modify_residents]
  by_cases here : j = i
  · subst here
    simp [Function.update_apply, Pool.gate]
  · simp [here, Pool.gate]

theorem Pool.find_some {id : Uuid} (found : p.find id = some i) :
    (p.residents i).id = id ∧ (p.residents i).reserved = true := by
  have facts := List.find?_some found
  simpa using facts

theorem Slotted.find_eq (slotted : Slotted p victim) (reserved : (p.residents i).reserved = true) :
    p.find (p.residents i).id = some i := by
  cases found : p.find (p.residents i).id with
  | none =>
      have none := List.find?_eq_none.1 found i (List.mem_finRange i)
      simp [reserved] at none
  | some j =>
      obtain ⟨id, there⟩ := Pool.find_some found
      rw [slotted.distinct j i there reserved id]

theorem Fits.find_eq (fits : Fits p live) (slotted : Slotted p victim) (member : e ∈ live) (seat : e.resident = some i) :
    p.find e.input.jobId = some i := by
  obtain ⟨reserved, id⟩ := fits.seated e member i seat
  rw [← id]
  exact slotted.find_eq reserved

theorem Fits.unseated (fits : Fits p live) (none : (p.residents i).claims = 0)
    (free : ∀ kind, (p.gate i kind).queuedSequence = 0) : ∀ e ∈ live, e.resident ≠ some i := by
  intro e member seat
  rcases (fits.formed e member).seated (by simp [seat]) with creation | ⟨critical, gated⟩
  · have claims := fits.claims i
    rw [none] at claims
    have counted := List.countP_eq_zero.1 claims.symm e member
    simp [Entry.claims, creation, seat] at counted
  · obtain ⟨kind, gate⟩ := Option.isSome_iff_exists.1 gated
    have occupied := fits.queued i kind
    rw [free kind] at occupied
    have nobody : live.filter (·.occupies i kind) = [] := by simpa [listed] using occupied
    have counted := List.filter_eq_nil_iff.1 nobody e member
    simp [Entry.occupies, critical, seat, gate] at counted

theorem Resident.Sound.blank_sound {r : Resident} (blank : r.isBlank) : r.Sound := by
  rw [blank]
  exact {
    blank := fun _ => rfl
    gates := fun _ => ⟨rfl, by simp, by simp, by simp, by simp⟩
    unleased := rfl
    unretained := rfl
    closed := fun _ _ _ => ⟨rfl, rfl⟩
    ticket := by simp
    claimed := by simp }

theorem Resident.isBlank.permits {r : Resident} (blank : r.isBlank) : r.permits = 0 := by
  rw [blank]
  simp [Resident.permits]

theorem Pool.resetSlot_apply (p : Pool c) (i j : Slot c) (advance : Bool) : (p.resetSlot i advance).residents j =
    if j = i then { timerGeneration := fun t =>
      if advance then (p.residents i).timerGeneration t + 1 else (p.residents i).timerGeneration t }
    else p.residents j := Function.update_apply p.residents i _ j

theorem Pool.resetSlot_residents (p : Pool c) (i j : Slot c) (advance : Bool) :
    if j = i then ((p.resetSlot i advance).residents j).isBlank
    else (p.resetSlot i advance).residents j = p.residents j := by
  have value := p.resetSlot_apply i j advance
  split
  · next here =>
    rw [value, if_pos here]
    rfl
  · next other => rw [value, if_neg other]

theorem Pool.resetSlot_balanced (balanced : p.criticalCount = p.permits + p.shutdownPermit.toNat) (i : Slot c)
    (advance : Bool) :
    (p.resetSlot i advance).criticalCount = (p.resetSlot i advance).permits + p.shutdownPermit.toNat := by
  refine Pool.balanced_modify balanced (fun r =>
    { timerGeneration := fun t => if advance then r.timerGeneration t + 1 else r.timerGeneration t }) ?_
  have blank : Resident.permits { timerGeneration := fun t =>
      if advance then (p.residents i).timerGeneration t + 1 else (p.residents i).timerGeneration t } = 0 :=
    Resident.isBlank.permits rfl
  have here := (p.residents i).permits_eq_countP
  have le : (p.residents i).permits ≤ p.permits :=
    Finset.single_le_sum (f := fun i => (p.residents i).permits) (fun _ _ => Nat.zero_le _) (Finset.mem_univ i)
  show p.criticalCount - (GateKind.all.countP fun kind => ((p.residents i).gates kind).permit) + (p.residents i).permits =
    p.criticalCount + _
  omega

theorem Pool.Kept.resetSlot (kept : p.Kept) (i : Slot c) (advance : Bool) : (p.resetSlot i advance).Kept where
  residents j := by
    have value := p.resetSlot_residents i j advance
    split at value
    · exact .blank_sound value
    · rw [value]
      exact kept.residents j
  balanced := Pool.resetSlot_balanced kept.balanced i advance
  spare := by
    have value := p.resetSlot_residents i p.spare advance
    show ((p.resetSlot i advance).residents p.spare).existing = false
    split at value
    · rw [value]
    · rw [value]
      exact kept.spare
  clean := kept.clean

theorem Fits.resetSlot (fits : Fits p live) (none : (p.residents i).claims = 0)
    (free : ∀ kind, (p.gate i kind).queuedSequence = 0) (advance : Bool) : Fits (p.resetSlot i advance) live where
  formed := fits.formed
  seated e member j seat := by
    have elsewhere : j ≠ i := fun same => fits.unseated none free e member (same ▸ seat)
    have value := p.resetSlot_residents i j advance
    rw [if_neg elsewhere] at value
    rw [value]
    exact fits.seated e member j seat
  queued j kind := by
    have value := p.resetSlot_residents i j advance
    rw [Pool.gate]
    split at value
    · next here =>
      rw [value, fits.queued, here, free kind]
    · rw [value]
      exact fits.queued j kind
  claims j := by
    have value := p.resetSlot_residents i j advance
    split at value
    · next here =>
      rw [value, ← fits.claims, here, none]
    · rw [value]
      exact fits.claims j

theorem Slotted.resetSlot (slotted : Slotted p none) (i : Slot c) (advance : Bool) :
    Slotted (p.resetSlot i advance) none where
  distinct j k := by
    have first := p.resetSlot_residents i j advance
    have second := p.resetSlot_residents i k advance
    split at first
    · rw [first]
      nofun
    split at second
    · rw [second]
      nofun
    rw [first, second]
    exact slotted.distinct j k
  ticket j := by
    have value := p.resetSlot_residents i j advance
    show _ ↔ j = p.spare ∧ _
    split at value
    · rw [value]
      simp
    · rw [value]
      exact slotted.ticket j
  claimed j := by
    have value := p.resetSlot_residents i j advance
    split at value
    · rw [value]
      simp
    · rw [value]
      exact slotted.claimed j
  full := nofun

theorem Settled.resetIfUnowned (kept : p.Kept) (fits : Fits p live) (slotted : Slotted p none)
    (held : ∀ j ≠ i, (p.residents j).isHeld) : Settled (p.resetIfUnowned i) live none := by
  rw [Pool.resetIfUnowned]
  split
  · next unowned =>
    simp only [Bool.and_eq_true, Bool.not_eq_true'] at unowned
    obtain ⟨none, free⟩ := Resident.hasOwnership_eq_false.1 unowned.2
    have unqueued : ∀ kind, (p.gate i kind).queuedSequence = 0 := fun kind => (Gate.isOwned_eq_false.1 (free kind)).1
    refine ⟨kept.resetSlot i false, fits.resetSlot none unqueued false, slotted.resetSlot i false, fun j => ?_⟩
    have value := p.resetSlot_residents i j false
    split at value
    · rw [value]
      rintro ⟨⟩
    · next other =>
      rw [value]
      exact held j other
  · next owned =>
    refine ⟨kept, fits, slotted, fun j => ?_⟩
    by_cases here : j = i
    · subst here
      intro reserved absent
      have sound := kept.residents j
      by_contra neither
      simp only [not_or, ne_eq, not_not] at neither
      apply owned
      simp only [absent, Bool.not_false, Bool.true_and, Bool.not_eq_true']
      refine Resident.hasOwnership_eq_false.2 ⟨neither.1, fun kind => ?_⟩
      by_cases terminate : kind = .terminate
      · subst terminate
        refine Gate.isOwned_eq_false.2 ⟨neither.2, sound.unleased, ?_⟩
        by_contra exported
        exact absurd ((sound.gates .terminate).exported exported) (by simp [sound.unleased])
      · exact (sound.gates kind).unowned (sound.closed absent kind terminate).2
    · exact held j here

def Pool.unclaim (p : Pool c) : Option (Slot c) → Pool c
  | none => p
  | some victim => p.modify victim fun r => { r with claimed := false }

theorem Pool.unclaim_residents (p : Pool c) (victim : Option (Slot c)) (i : Slot c) :
    (p.unclaim victim).residents i = if victim = some i then { p.residents i with claimed := false } else p.residents i := by
  cases victim with
  | none => rfl
  | some v =>
      rw [Pool.unclaim, Pool.modify_residents]
      by_cases here : i = v
      · subst here
        simp
      · simp [here, Ne.symm here]

theorem Settled.unclaim (settled : Settled p live victim) {mine : Option (Slot c)} (own : victim = none ∨ mine = victim) :
    Settled (p.unclaim mine) live none := by
  have same : ∀ i, ((p.unclaim mine).residents i) = { p.residents i with claimed := false } := by
    intro i
    rw [Pool.unclaim_residents]
    split
    · rfl
    · next other =>
      have unclaimed : (p.residents i).claimed = false := by
        by_contra claim
        have named := (settled.slotted.claimed i).1 (by simpa using claim)
        rcases own with none | mine
        · simp [none] at named
        · exact other (mine.trans named)
      rw [← unclaimed]
  have inner : Inner p (p.unclaim mine) := by cases mine <;> exact rfl
  have critical : (p.unclaim mine).criticalCount = p.criticalCount := by cases mine <;> rfl
  refine ⟨⟨fun i => ?_, ?_, ?_, ?_⟩, ⟨settled.fits.formed, ?_, ?_, ?_⟩, ⟨?_, ?_, ?_, nofun⟩, ?_⟩
  · have sound := settled.kept.residents i
    rw [same]
    exact ⟨fun free => by have blank := sound.blank free; rw [Resident.isBlank] at blank ⊢; rw [blank], sound.gates,
      sound.unleased, sound.unretained, sound.closed, sound.ticket, nofun⟩
  · rw [critical, settled.kept.balanced, inner.permit]
    simp only [Pool.permits, same]
    rfl
  · rw [same, inner.spare]
    exact settled.kept.spare
  · rw [inner.faults]
    exact settled.kept.clean
  · simp only [same]
    exact settled.fits.seated
  · intro i kind
    rw [Pool.gate, same]
    exact settled.fits.queued i kind
  · intro i
    rw [same]
    exact settled.fits.claims i
  · simp only [same]
    exact settled.slotted.distinct
  · simp only [same, inner.spare]
    exact settled.slotted.ticket
  · intro i
    simp [same]
  · intro i
    rw [same]
    exact settled.held i

theorem Pool.releaseCreationClaim_eq (p : Pool c) (e : Entry c) :
    p.releaseCreationClaim e = match e.input.isCreation, e.resident with
      | true, some i => ((p.unclaim e.victim).modify i fun r => { r with claims := r.claims - 1 }).resetIfUnowned i
      | _, _ => p.unclaim e.victim := by
  rw [Pool.releaseCreationClaim]
  cases e.victim <;> rfl

namespace Fits

theorem tail (fits : Fits p (e :: rest)) (unseated : e.resident = none) : Fits p rest where
  formed f member := fits.formed f (List.mem_cons_of_mem e member)
  seated f member := fits.seated f (List.mem_cons_of_mem e member)
  queued i kind := by
    have before := fits.queued i kind
    rwa [List.filter_cons_of_neg (by simp [Entry.occupies, unseated])] at before
  claims i := by
    have before := fits.claims i
    rwa [List.countP_cons_of_neg (by simp [Entry.claims, unseated])] at before

theorem unclaim (fits : Fits p (e :: rest)) (creation : e.input.isCreation = true) (seat : e.resident = some i) :
    Fits (p.modify i fun r => { r with claims := r.claims - 1 }) rest where
  formed f member := fits.formed f (List.mem_cons_of_mem e member)
  seated f member j there := by
    rw [Pool.modify_residents]
    have before := fits.seated f (List.mem_cons_of_mem e member) j there
    split
    · next here => exact here ▸ before
    · exact before
  queued j kind := by
    have usual := ((fits.formed e List.mem_cons_self).creation creation).1
    have before := fits.queued j kind
    rw [List.filter_cons_of_neg (by simp [Entry.occupies, usual])] at before
    rw [before, Pool.gate, Pool.gate, Pool.modify_residents]
    split
    · next here => rw [here]
    · rfl
  claims j := by
    have before := fits.claims j
    rw [Pool.modify_residents]
    split
    · next here =>
      subst here
      rw [List.countP_cons_of_pos (by simp [Entry.claims, creation, seat])] at before
      show (p.residents j).claims - 1 = _
      omega
    · next other =>
      rwa [List.countP_cons_of_neg (by simp [Entry.claims, seat, Ne.symm other])] at before

theorem named (fits : Fits p (e :: rest)) (critical : e.critical = true) (seat : e.resident = some i)
    (gate : e.gate = some kind) :
    (p.gate i kind).queuedSequence = e.sequence ∧ rest.filter (·.occupies i kind) = [] := by
  have before := fits.queued i kind
  rw [List.filter_cons_of_pos (by simp [Entry.occupies, critical, seat, gate]), listed] at before
  split at before
  · simp at before
  · simp only [List.map_cons, List.cons.injEq, List.map_eq_nil_iff] at before
    exact ⟨before.1.symm, before.2⟩

theorem vacate (fits : Fits p (e :: rest)) (critical : e.critical = true) (seat : e.resident = some i)
    (gate : e.gate = some kind) {g : Gate} (empty : g.queuedSequence = 0) : Fits (p.setGate i kind g) rest where
  formed f member := fits.formed f (List.mem_cons_of_mem e member)
  seated f member j there := by
    rw [Pool.setGate, Pool.modify_residents]
    have before := fits.seated f (List.mem_cons_of_mem e member) j there
    split
    · next here => exact here ▸ before
    · exact before
  queued j other := by
    have nobody := (fits.named critical seat gate).2
    have before := fits.queued j other
    rw [Pool.setGate_gate_apply]
    split
    · next here =>
      obtain ⟨rfl, rfl⟩ := here
      rw [nobody, empty]
      rfl
    · next elsewhere =>
      rwa [List.filter_cons_of_neg] at before
      simp only [Entry.occupies, critical, seat, gate, Bool.true_and, Option.some.injEq, Bool.and_eq_true,
        decide_eq_true_eq, not_and]
      exact fun slot same => elsewhere ⟨slot.symm, same.symm⟩
  claims j := by
    have usual : e.input.isCreation = false := by
      by_contra creation
      have normal := ((fits.formed e List.mem_cons_self).creation (by simpa using creation)).1
      simp [normal] at critical
    have before := fits.claims j
    rw [List.countP_cons_of_neg (by simp [Entry.claims, usual])] at before
    rw [Pool.setGate, Pool.modify_residents]
    split
    · next here => exact here ▸ before
    · exact before

end Fits

theorem Fits.modify (fits : Fits p live) (i : Slot c) {f : Resident → Resident}
    (same : ∀ r, (f r).id = r.id ∧ (f r).reserved = r.reserved ∧ (f r).claims = r.claims ∧ (f r).gates = r.gates) :
    Fits (p.modify i f) live := by
  have id := Pool.modify_field (p := p) (i := i) (·.id) fun r => (same r).1
  have reserved := Pool.modify_field (p := p) (i := i) (·.reserved) fun r => (same r).2.1
  have claims := Pool.modify_field (p := p) (i := i) (·.claims) fun r => (same r).2.2.1
  have gates := Pool.modify_field (p := p) (i := i) (·.gates) fun r => (same r).2.2.2
  refine ⟨fits.formed, fun e member j seat => ?_, fun j kind => ?_, fun j => ?_⟩
  · rw [id, reserved]
    exact fits.seated e member j seat
  · rw [Pool.gate, gates]
    exact fits.queued j kind
  · rw [claims]
    exact fits.claims j

theorem Slotted.modify (slotted : Slotted p victim) (i : Slot c) {f : Resident → Resident}
    (same : ∀ r, (f r).id = r.id ∧ (f r).reserved = r.reserved ∧ (f r).ticket = r.ticket ∧ (f r).claimed = r.claimed) :
    Slotted (p.modify i f) victim := by
  have id := Pool.modify_field (p := p) (i := i) (·.id) fun r => (same r).1
  have reserved := Pool.modify_field (p := p) (i := i) (·.reserved) fun r => (same r).2.1
  have ticket := Pool.modify_field (p := p) (i := i) (·.ticket) fun r => (same r).2.2.1
  have claimed := Pool.modify_field (p := p) (i := i) (·.claimed) fun r => (same r).2.2.2
  refine ⟨fun j k => ?_, fun j => ?_, fun j => ?_, fun some j => ?_⟩
  · rw [id, id, reserved, reserved]
    exact slotted.distinct j k
  · rw [ticket, reserved]
    exact slotted.ticket j
  · rw [claimed]
    exact slotted.claimed j
  · rw [reserved]
    exact slotted.full some j

theorem Settled.touch (settled : Settled p live victim) (reserved : (p.residents i).reserved = true) {f : Resident → Resident}
    (core : ∀ r, (f r).id = r.id ∧ (f r).reserved = r.reserved ∧ (f r).ticket = r.ticket ∧ (f r).claimed = r.claimed)
    (rest : ∀ r, (f r).existing = r.existing ∧ (f r).claims = r.claims ∧ (f r).gates = r.gates) :
    Settled (p.modify i f) live victim := by
  have sound := settled.kept.residents i
  obtain ⟨-, still, ticket, claimed⟩ := core (p.residents i)
  obtain ⟨existing, claims, gates⟩ := rest (p.residents i)
  have touched : (f (p.residents i)).Sound := {
    blank := fun free => absurd reserved (by rw [← still, free]; simp)
    gates := gates ▸ sound.gates
    unleased := gates ▸ sound.unleased
    unretained := gates ▸ sound.unretained
    closed := fun absent => gates ▸ sound.closed (existing ▸ absent)
    ticket := fun given => existing ▸ sound.ticket (ticket ▸ given)
    claimed := fun claim => by
      rw [existing, claims, gates]
      exact sound.claimed (claimed ▸ claim) }
  refine ⟨?_, settled.fits.modify i fun r => ⟨(core r).1, (core r).2.1, (rest r).2.1, (rest r).2.2⟩,
    settled.slotted.modify i core, fun j => ?_⟩
  · refine settled.kept.modify (i := i) f touched ?_ ?_
    · rintro rfl
      exact existing.trans settled.kept.spare
    · rw [Resident.permits, Resident.permits, gates]
  · have same : ∀ r, (f r).isHeld = r.isHeld := fun r => by
      rw [Resident.isHeld, (core r).2.1, (rest r).1, (rest r).2.1, (rest r).2.2, Resident.isHeld]
    rw [Pool.modify_field (·.isHeld) same]
    exact settled.held j

def Pool.retireAfterExit (p : Pool c) (i : Slot c) (kind : GateKind) (successful : Bool) : Pool c :=
  if kind = .processExit && successful then p.retireWorkerProtocol i else p

def Pool.closeGate (p : Pool c) (i : Slot c) (kind : GateKind) (successful : Bool) : Pool c :=
  let q := p.retireAfterExit i kind successful
  ((q.setGate i kind { q.gate i kind with retireRequested := true }).releaseUnusedGate i kind).resetIfUnowned i

theorem Pool.releaseGate_eq {successful : Bool} (critical : e.critical = true) (other : e.input ≠ .shutdown)
    (seat : e.resident = some i) (gate : e.gate = some kind) (named : (p.gate i kind).queuedSequence = e.sequence) :
    p.releaseGate e successful =
      if kind = .worker ∧ successful = true then
        p.setGate i kind
          { p.gate i kind with queuedSequence := 0, pending := false, retained := true, retireRequested := false }
      else (p.setGate i kind { p.gate i kind with
        queuedSequence := 0, pending := false
        registered := (p.gate i kind).registered && !kind.isTimer }).closeGate i kind successful := by
  simp [Pool.releaseGate, critical, other, seat, gate, named, Pool.closeGate, Pool.retireAfterExit]

namespace Settled

theorem releaseCreationClaim (settled : Settled p (e :: rest) victim) (own : victim = none ∨ e.victim = victim)
    (creation : e.input.isCreation = true) : Settled (p.releaseCreationClaim e) rest none := by
  obtain ⟨i, seat⟩ := Option.isSome_iff_exists.1 ((settled.fits.formed e List.mem_cons_self).creation creation).2
  rw [Pool.releaseCreationClaim_eq, creation, seat]
  have unclaimed := settled.unclaim own
  have sound := unclaimed.kept.residents i
  have reserved := (unclaimed.fits.seated e List.mem_cons_self i seat).1
  apply Settled.resetIfUnowned
  · refine unclaimed.kept.modify (i := i) (fun r => { r with claims := r.claims - 1 }) ?_ ?_ rfl
    · exact ⟨fun free => absurd reserved (by simpa using free), sound.gates, sound.unleased, sound.unretained, sound.closed,
        sound.ticket, fun claim => absurd ((unclaimed.slotted.claimed i).1 claim) (by simp)⟩
    · rintro rfl
      exact unclaimed.kept.spare
  · exact unclaimed.fits.unclaim creation seat
  · exact unclaimed.slotted.modify i fun _ => ⟨rfl, rfl, rfl, rfl⟩
  · intro j other
    rw [Pool.modify_residents, if_neg other]
    exact unclaimed.held j

theorem regates_vacated (settled : Settled p (e :: rest) victim) (critical : e.critical = true) (seat : e.resident = some i)
    (gate : e.gate = some kind) {g : Gate} (empty : g.queuedSequence = 0) (quiet : g.pending = false)
    (permit : g.permit = (p.gate i kind).permit) (registered : g.registered = true → (p.gate i kind).registered = true)
    (leased : g.callbackLease = (p.gate i kind).callbackLease)
    (exported : g.exportedLeaseSerial = (p.gate i kind).exportedLeaseSerial)
    (retained : g.retained = true → (p.gate i kind).retained = true ∨ kind ≠ .terminate) :
    Regates (p.residents i) kind g := by
  have resident := settled.kept.residents i
  have sound : (p.gate i kind).Sound := resident.gates kind
  have named := (settled.fits.named critical seat gate).1
  have queued : (p.gate i kind).queuedSequence ≠ 0 := named ▸ (settled.fits.formed e List.mem_cons_self).sequence
  have permitted := sound.queued queued
  exact {
    sound := ⟨by simp [empty, quiet], by simp [empty], fun _ => permit.trans permitted, fun _ => permit.trans permitted,
      fun taken => leased.trans (sound.exported (exported ▸ taken))⟩
    terminate := by
      rintro rfl
      refine ⟨leased.trans resident.unleased, ?_⟩
      by_contra kept
      rcases retained (by simpa using kept) with before | other
      · exact absurd before (by simp [Pool.gate, resident.unretained])
      · exact other rfl
    vacant := fun absent other => absurd permitted (by simp [Pool.gate, (resident.closed absent kind other).2])
    unowned := by
      intro claim
      have unowned := Gate.isOwned_eq_false.1 ((resident.claimed claim).2.2 kind)
      exact absurd unowned.1 queued }

theorem closeGate (kept : p.Kept) (fits : Fits p live) (slotted : Slotted p none) (held : ∀ j ≠ i, (p.residents j).isHeld)
    (reserved : (p.residents i).reserved = true) (kind : GateKind) (successful : Bool) :
    Settled (p.closeGate i kind successful) live none ∧ Inner p (p.closeGate i kind successful) := by
  have protocol : Shifts p (p.retireAfterExit i kind successful) ∧ Inner p (p.retireAfterExit i kind successful) := by
    rw [Pool.retireAfterExit]
    split
    · exact ⟨.retireWorkerProtocol kept reserved, .retireWorkerProtocol p i⟩
    · exact ⟨.refl kept, .refl p⟩
  have requested : Shifts (p.retireAfterExit i kind successful) ((p.retireAfterExit i kind successful).setGate i kind
      { (p.retireAfterExit i kind successful).gate i kind with retireRequested := true }) :=
    .request protocol.1.kept ((protocol.1.same i).reserved.trans reserved) id
  have both := protocol.1.trans requested
  have released := both.trans (.releaseUnusedGate both.kept ((both.same i).reserved.trans reserved) kind)
  constructor
  · apply Settled.resetIfUnowned released.kept (fits.same released.same) (slotted.same released.same released.spare)
    exact fun j elsewhere => (released.same j).held (held j elsewhere)
  · exact ((protocol.2.trans (.setGate _ _ _ _)).trans (.releaseUnusedGate _ _ _)).trans (.resetIfUnowned _ _)

theorem releaseGate (settled : Settled p (e :: rest) none) (critical : e.critical = true) (other : e.input ≠ .shutdown)
    (successful : Bool) : Settled (p.releaseGate e successful) rest none ∧ Inner p (p.releaseGate e successful) := by
  have formed := settled.fits.formed e List.mem_cons_self
  obtain ⟨seated, gated⟩ := formed.critical critical other
  obtain ⟨i, seat⟩ := Option.isSome_iff_exists.1 seated
  obtain ⟨kind, gate⟩ := Option.isSome_iff_exists.1 gated
  have resident := settled.kept.residents i
  have reserved := (settled.fits.seated e List.mem_cons_self i seat).1
  have named := (settled.fits.named critical seat gate).1
  have vacated : ∀ g : Gate, Regates (p.residents i) kind g → g.queuedSequence = 0 → g.permit = (p.gate i kind).permit →
      (p.setGate i kind g).Kept ∧ Fits (p.setGate i kind g) rest ∧ Slotted (p.setGate i kind g) none ∧
        ∀ j ≠ i, ((p.setGate i kind g).residents j).isHeld := by
    intro g fine empty permit
    refine ⟨settled.kept.regate reserved fine (fun r => r.identitySlots) (by rw [permit]),
      settled.fits.vacate critical seat gate empty, settled.slotted.modify i fun _ => ⟨rfl, rfl, rfl, rfl⟩, ?_⟩
    intro j elsewhere
    rw [Pool.setGate, Pool.modify_residents, if_neg elsewhere]
    exact settled.held j
  rw [Pool.releaseGate_eq critical other seat gate named]
  split
  · next worker =>
    have fine := settled.regates_vacated critical seat gate
      (g := { p.gate i kind with queuedSequence := 0, pending := false, retained := true, retireRequested := false })
      rfl rfl rfl id rfl rfl (fun _ => .inr (by simp [worker.1]))
    obtain ⟨kept, fits, slotted, held⟩ := vacated _ fine rfl rfl
    refine ⟨⟨kept, fits, slotted, fun j => ?_⟩, rfl⟩
    by_cases here : j = i
    · subst here
      intro _ absent
      have unborn : (p.residents j).existing = false := by
        rw [Pool.setGate, Pool.modify_residents, if_pos rfl] at absent
        exact absent
      have closed := (resident.closed unborn kind (by simp [worker.1])).2
      have permitted := (resident.gates kind).queued (named ▸ formed.sequence)
      exact absurd permitted (by simp [closed])
    · exact held j here
  · have fine := settled.regates_vacated critical seat gate
      (g := { p.gate i kind with
        queuedSequence := 0, pending := false, registered := (p.gate i kind).registered && !kind.isTimer })
      rfl rfl rfl (fun both => (Bool.and_eq_true_iff.1 both).1) rfl rfl .inl
    obtain ⟨kept, fits, slotted, held⟩ := vacated _ fine rfl rfl
    have still : ((p.setGate i kind { p.gate i kind with
        queuedSequence := 0, pending := false
        registered := (p.gate i kind).registered && !kind.isTimer }).residents i).reserved = true := by
      rw [Pool.setGate, Pool.modify_residents, if_pos rfl]
      exact reserved
    obtain ⟨closed, inner⟩ := Settled.closeGate kept fits slotted held still kind successful
    exact ⟨closed, (Inner.setGate p i kind _).trans inner⟩

theorem frame (settled : Settled p live victim) (residents : q.residents = p.residents) (spare : q.spare = p.spare)
    (balanced : q.criticalCount = p.permits + q.shutdownPermit.toNat) (clean : ∀ fault ∈ q.faults, fault.isBreach = false) :
    Settled q live victim := by
  have permits : q.permits = p.permits := by rw [Pool.permits, residents, Pool.permits]
  have gate : ∀ i kind, q.gate i kind = p.gate i kind := fun i kind => by rw [Pool.gate, residents, Pool.gate]
  refine ⟨⟨?_, permits ▸ balanced, ?_, clean⟩, ⟨settled.fits.formed, ?_, ?_, ?_⟩, ⟨?_, ?_, ?_, ?_⟩, ?_⟩
  · rw [residents]
    exact settled.kept.residents
  · rw [residents, spare]
    exact settled.kept.spare
  · rw [residents]
    exact settled.fits.seated
  · simp only [gate]
    exact settled.fits.queued
  · rw [residents]
    exact settled.fits.claims
  · rw [residents]
    exact settled.slotted.distinct
  · rw [residents, spare]
    exact settled.slotted.ticket
  · rw [residents]
    exact settled.slotted.claimed
  · rw [residents]
    exact settled.slotted.full
  · rw [residents]
    exact settled.held

theorem recount (settled : Settled p live victim) (normalCount : Nat) : Settled { p with normalCount } live victim :=
  settled.frame rfl rfl settled.kept.balanced settled.kept.clean

theorem tail (settled : Settled p (e :: rest) victim) (unseated : e.resident = none) : Settled p rest victim :=
  ⟨settled.kept, settled.fits.tail unseated, settled.slotted, settled.held⟩

theorem release (settled : Settled p (e :: rest) victim) (own : victim = none ∨ e.victim = victim) (successful : Bool) :
    Settled (p.release e successful) rest none ∧
      Inner { p with normalCount := if e.critical then p.normalCount else p.normalCount - 1 } (p.release e successful) := by
  have formed := settled.fits.formed e List.mem_cons_self
  have claim := Inner.releaseCreationClaim p e
  rw [Pool.release]
  cases critical : e.critical with
  | false =>
      have normal : (p.releaseCreationClaim e).releaseGate e successful =
          { p.releaseCreationClaim e with normalCount := (p.releaseCreationClaim e).normalCount - 1 } := by
        simp [Pool.releaseGate, critical]
      rw [normal]
      constructor
      · cases creation : e.input.isCreation with
        | true => exact (settled.releaseCreationClaim own creation).recount _
        | false =>
            have unseated : e.resident = none := by
              by_contra seated
              rcases formed.seated (Option.isSome_iff_ne_none.2 seated) with created | ⟨other, -⟩
              · simp [creation] at created
              · simp [critical] at other
            rw [Pool.releaseCreationClaim_eq, creation]
            exact ((settled.unclaim own).tail unseated).recount _
      · rw [claim]
        exact rfl
  | true =>
      have usual : e.input.isCreation = false := by
        by_contra creation
        have normal := (formed.creation (by simpa using creation)).1
        simp [critical] at normal
      have unclaimed : p.releaseCreationClaim e = p.unclaim e.victim := by
        rw [Pool.releaseCreationClaim_eq, usual]
      rw [unclaimed] at claim ⊢
      have left := settled.unclaim own
      by_cases marker : e.input = .shutdown
      · have same : (p.unclaim e.victim).releaseGate e successful = p.unclaim e.victim := by
          simp [Pool.releaseGate, critical, marker]
        rw [same]
        exact ⟨left.tail (formed.marker marker).2, claim⟩
      · obtain ⟨released, inner⟩ := left.releaseGate critical marker successful
        exact ⟨released, claim.trans inner⟩

end Settled

end Sitometron.Core.Orchestrator
