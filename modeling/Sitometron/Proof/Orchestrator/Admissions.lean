import Sitometron.Proof.Orchestrator.Producers
import Sitometron.Proof.Orchestrator.Seats

/-!
# Admission takes what it counts

An entry that is admitted gets a slot or a gate that nothing else holds.
-/

namespace Sitometron.Core.Orchestrator

variable {c : Setup} {p q : Pool c} {i j : Slot c} {kind : GateKind} {e : Entry c} {live : List (Entry c)}
  {victim : Option (Slot c)} {id : Uuid}

namespace Fits

theorem append (fits : Fits p live) (formed : e.Formed) (unseated : e.resident = none) : Fits p (live ++ [e]) where
  formed f member := by
    rcases List.mem_append.1 member with old | new
    · exact fits.formed f old
    · exact List.mem_singleton.1 new ▸ formed
  seated f member i seat := by
    rcases List.mem_append.1 member with old | new
    · exact fits.seated f old i seat
    · rw [List.mem_singleton.1 new, unseated] at seat
      cases seat
  queued i kind := by
    rw [List.filter_append, List.filter_cons_of_neg (by simp [Entry.occupies, unseated]), List.filter_nil, List.append_nil]
    exact fits.queued i kind
  claims i := by
    rw [List.countP_append, List.countP_cons_of_neg (by simp [Entry.claims, unseated]), List.countP_nil]
    exact fits.claims i

theorem claim (fits : Fits p live) (formed : e.Formed) (creation : e.input.isCreation = true) (seat : e.resident = some i)
    (reserved : (q.residents i).reserved = true) (id : (q.residents i).id = e.input.jobId)
    (more : (q.residents i).claims = (p.residents i).claims + 1)
    (others : ∀ j ≠ i, q.residents j = p.residents j)
    (queued : ∀ kind, (q.gate i kind).queuedSequence = (p.gate i kind).queuedSequence)
    (free : (p.residents i).reserved = true → (p.residents i).id = (q.residents i).id) : Fits q (live ++ [e]) where
  formed f member := by
    rcases List.mem_append.1 member with old | new
    · exact fits.formed f old
    · exact List.mem_singleton.1 new ▸ formed
  seated f member j there := by
    rcases List.mem_append.1 member with old | new
    · have before := fits.seated f old j there
      by_cases here : j = i
      · subst here
        exact ⟨reserved, free before.1 ▸ before.2⟩
      · rw [others j here]
        exact before
    · rw [List.mem_singleton.1 new] at there ⊢
      rw [seat] at there
      cases there
      exact ⟨reserved, id⟩
  queued j kind := by
    have normal := (formed.creation creation).1
    rw [List.filter_append, List.filter_cons_of_neg (by simp [Entry.occupies, normal]), List.filter_nil, List.append_nil,
      fits.queued j kind]
    by_cases here : j = i
    · subst here
      rw [queued]
    · rw [Pool.gate, Pool.gate, others j here]
  claims j := by
    rw [List.countP_append]
    by_cases here : j = i
    · subst here
      rw [more, fits.claims, List.countP_cons_of_pos (by simp [Entry.claims, creation, seat]), List.countP_nil]
    · rw [others j here, fits.claims, List.countP_cons_of_neg (by simp [Entry.claims, seat, Ne.symm here]), List.countP_nil,
        Nat.add_zero]

end Fits

inductive Reserved (p : Pool c) (id : Uuid) : Option (Slot c) × Pool c → Prop
  | known {i : Slot c} : p.find id = some i → (p.residents i).claimed = false →
      Reserved p id (some i, p.modify i fun r => { r with claims := r.claims + 1 })
  | ordinary {i : Slot c} : (∀ j, p.find id = some j → (p.residents j).claimed = true) → i ≠ p.spare →
      (p.residents i).reserved = false → Reserved p id (some i, p.occupy i id false)
  | spare : (∀ j, p.find id = some j → (p.residents j).claimed = true) → p.ordinaryFree = none →
      (p.residents p.spare).reserved = false → p.oldestVictim.isSome = true →
      Reserved p id (some p.spare, p.occupy p.spare id true)
  | none : Reserved p id (none, p)

theorem reserved (p : Pool c) (id : Uuid) : Reserved p id (p.reserve id) := by
  rw [Pool.reserve]
  split
  · next i found =>
    obtain ⟨there, unclaimed⟩ := Option.filter_eq_some_iff.1 found
    exact .known there (by simpa using unclaimed)
  next absent =>
  have claimed : ∀ j, p.find id = some j → (p.residents j).claimed = true := by
    intro j there
    rw [there] at absent
    simpa [Option.filter] using absent
  split
  · next i free =>
    have facts := List.find?_some free
    simp only [Bool.and_eq_true, decide_eq_true_eq, Bool.not_eq_true'] at facts
    exact .ordinary claimed facts.1 facts.2
  · next full =>
    split
    · next room =>
      rw [Pool.canReserve, full] at room
      simp only [Option.isSome_none, Bool.false_or, Bool.and_eq_true, Bool.not_eq_true'] at room
      exact .spare claimed full room.1 room.2
    · exact .none

theorem State.reserveCreation_eq (p : Pool c) (id : Uuid) (identities : Option GeneratedIdentityBundle) :
    State.reserveCreation p id identities = match p.reserve id with
      | (none, q) => (none, q)
      | (some i, q) => match identities.filter fun bundle => bundle.jobSession = id with
        | none => (some i, q)
        | some bundle => (some i, q.modify i fun r => { r with generatedIdentities := some bundle }) := by
  rw [State.reserveCreation]
  cases found : (p.find id).filter fun i => !(p.residents i).claimed with
  | none => rfl
  | some i =>
      cases kept : identities.filter fun bundle => bundle.jobSession = id <;> simp only [Pool.reserve, found, kept]

def Resident.occupied (r : Resident) (id : Uuid) (ticket : Bool) : Resident :=
  { r with
    id, reserved := true, ticket, claims := 1
    banks := fun _ => ⟨initialSnapshot id id, [], none⟩
    gates := Function.update r.gates .terminate
      { r.gates .terminate with registered := true, retireRequested := false, permit := true } }

theorem Pool.registerGate_eq (unregistered : (p.gate i kind).registered = false) (room : p.criticalCount < c.criticalReserve) :
    p.registerGate i kind =
      { p.setGate i kind { p.gate i kind with registered := true, retireRequested := false, permit := true } with
        criticalCount := p.criticalCount + 1 } := by
  rw [Pool.registerGate, unregistered, if_neg (by simp), if_neg (Nat.not_le.2 room)]

theorem Pool.occupy_eq (kept : p.Kept) (free : (p.residents i).reserved = false) (id : Uuid) (ticket : Bool) :
    p.occupy i id ticket =
      { p.modify i fun r => r.occupied id ticket with criticalCount := p.criticalCount + 1 } := by
  have blank := (kept.residents i).blank free
  generalize taken : p.modify i (fun r =>
    { r with id, reserved := true, ticket, claims := 1, banks := fun _ => ⟨initialSnapshot id id, [], none⟩ }) = q
  have gate : q.gate i .terminate = (p.residents i).gates .terminate := by
    simp [← taken, Pool.gate, Pool.modify]
  have unregistered : (q.gate i .terminate).registered = false := by rw [gate, blank]
  have room : q.criticalCount < c.criticalReserve := by
    rw [← taken]
    exact kept.reserve_free
  rw [Pool.occupy, taken, Pool.registerGate_eq unregistered room, gate, Pool.setGate, ← taken, Pool.modify_modify]
  rfl

theorem Resident.occupied_gates (r : Resident) (id : Uuid) (ticket : Bool) (kind : GateKind) :
    (r.occupied id ticket).gates kind = if kind = .terminate then
      { r.gates .terminate with registered := true, retireRequested := false, permit := true } else r.gates kind :=
  Function.update_apply r.gates .terminate _ kind

theorem Resident.Sound.occupied {r : Resident} (blank : r.isBlank) (id : Uuid) (ticket : Bool) :
    (r.occupied id ticket).Sound := by
  have gates : ∀ kind, r.gates kind = {} := fun kind => by rw [blank]
  exact {
    blank := nofun
    gates := by
      intro kind
      rw [Resident.occupied_gates, gates, gates]
      split <;> exact ⟨rfl, by simp, by simp, by simp, by simp⟩
    unleased := by rw [Resident.occupied_gates, if_pos rfl, gates]
    unretained := by rw [Resident.occupied_gates, if_pos rfl, gates]
    closed := by
      intro _ kind other
      rw [Resident.occupied_gates, if_neg other, gates]
      exact ⟨rfl, rfl⟩
    ticket := by
      intro _
      rw [blank]
      rfl
    claimed := by
      intro claim
      rw [blank] at claim
      cases claim }

theorem Slotted.occupy (slotted : Slotted p none) {ticket : Bool} (here : q.residents i = (p.residents i).occupied id ticket)
    (others : ∀ j ≠ i, q.residents j = p.residents j) (same : q.spare = p.spare)
    (new : ∀ j, (p.residents j).reserved = true → (p.residents j).id ≠ id) (spare : ticket = true ↔ i = p.spare)
    (unclaimed : (p.residents i).claimed = false) : Slotted q none where
  distinct j k := by
    by_cases first : j = i <;> by_cases second : k = i
    · exact fun _ _ _ => first.trans second.symm
    · subst first
      rw [here, others k second]
      exact fun _ reserved equal => absurd equal.symm (new k reserved)
    · subst second
      rw [here, others j first]
      exact fun reserved _ equal => absurd equal (new j reserved)
    · rw [others j first, others k second]
      exact slotted.distinct j k
  ticket j := by
    rw [same]
    by_cases elsewhere : j = i
    · subst elsewhere
      rw [here]
      exact ⟨fun given => ⟨spare.1 given, rfl⟩, fun both => spare.2 both.1⟩
    · rw [others j elsewhere]
      exact slotted.ticket j
  claimed j := by
    by_cases elsewhere : j = i
    · subst elsewhere
      rw [here]
      simp [Resident.occupied, unclaimed]
    · rw [others j elsewhere]
      exact slotted.claimed j
  full := nofun

theorem Settled.occupy (settled : Settled p live victim) (free : (p.residents i).reserved = false)
    (fresh : ∀ j, p.find e.input.jobId = some j → (p.residents j).claimed = true) (formed : e.Formed)
    (creation : e.input.isCreation = true) (seat : e.resident = some i) (ticket : Bool) (spare : ticket = true ↔ i = p.spare) :
    Settled (p.occupy i e.input.jobId ticket) (live ++ [e]) victim := by
  have blank := (settled.kept.residents i).blank free
  have unclaimed : victim = none := by
    cases named : victim with
    | none => rfl
    | some v => exact absurd (settled.slotted.full (by simp [named]) i) (by simp [free])
  have new : ∀ j, (p.residents j).reserved = true → (p.residents j).id ≠ e.input.jobId := by
    intro j reserved same
    have claimed := fresh j (same ▸ settled.slotted.find_eq reserved)
    have named := (settled.slotted.claimed j).1 claimed
    simp [unclaimed] at named
  have equal := Pool.occupy_eq settled.kept free e.input.jobId ticket
  have kept : (p.occupy i e.input.jobId ticket).Kept := by
    rw [equal]
    apply settled.kept.modify (fun r => r.occupied e.input.jobId ticket) (.occupied blank _ _)
    · intro _
      rw [blank]
      rfl
    · have before := blank.permits
      have after : ((p.residents i).occupied e.input.jobId ticket).permits = 1 := by
        rw [blank]
        rfl
      omega
  have value : ∀ j, (p.occupy i e.input.jobId ticket).residents j =
      if j = i then (p.residents i).occupied e.input.jobId ticket else p.residents j := by
    intro j
    rw [equal]
    exact p.modify_residents i j fun r => r.occupied e.input.jobId ticket
  have same : (p.occupy i e.input.jobId ticket).spare = p.spare := by rw [equal]; rfl
  generalize p.occupy i e.input.jobId ticket = q at *
  have here : q.residents i = (p.residents i).occupied e.input.jobId ticket := (value i).trans (if_pos rfl)
  have others : ∀ j ≠ i, q.residents j = p.residents j := fun j other => (value j).trans (if_neg other)
  subst unclaimed
  refine ⟨kept, ?_, settled.slotted.occupy here others same new spare (by rw [blank]), ?_⟩
  · apply settled.fits.claim formed creation seat
    · rw [here]
      rfl
    · rw [here]
      rfl
    · rw [here, blank]
      rfl
    · exact others
    · intro kind
      rw [Pool.gate, here, Resident.occupied_gates]
      split
      · next terminate => rw [terminate]; rfl
      · rfl
    · exact fun reserved => absurd reserved (by simp [free])
  · intro j
    by_cases elsewhere : j = i
    · subst elsewhere
      rw [here]
      exact fun _ _ => .inl (by simp [Resident.occupied])
    · rw [others j elsewhere]
      exact settled.held j

theorem Settled.claim (settled : Settled p live victim) (found : p.find e.input.jobId = some i)
    (unclaimed : (p.residents i).claimed = false) (formed : e.Formed) (creation : e.input.isCreation = true)
    (seat : e.resident = some i) : Settled (p.modify i fun r => { r with claims := r.claims + 1 }) (live ++ [e]) victim := by
  obtain ⟨id, reserved⟩ := Pool.find_some found
  have sound := settled.kept.residents i
  have here : (p.modify i fun r => { r with claims := r.claims + 1 }).residents i =
      { p.residents i with claims := (p.residents i).claims + 1 } := by
    rw [Pool.modify_residents, if_pos rfl]
  have others : ∀ j ≠ i, (p.modify i fun r => { r with claims := r.claims + 1 }).residents j = p.residents j := by
    intro j other
    rw [Pool.modify_residents, if_neg other]
  refine ⟨?_, ?_, settled.slotted.modify i fun _ => ⟨rfl, rfl, rfl, rfl⟩, ?_⟩
  · refine settled.kept.modify (i := i) (fun r => { r with claims := r.claims + 1 }) ?_ ?_ rfl
    · exact ⟨fun free => absurd reserved (by simpa using free), sound.gates, sound.unleased, sound.unretained, sound.closed,
        sound.ticket, fun claim => absurd claim (by simp [unclaimed])⟩
    · rintro rfl
      exact settled.kept.spare
  · apply settled.fits.claim formed creation seat _ _ _ others
    · intro kind
      rw [Pool.gate, here]
      rfl
    · intro _
      rw [here]
    · rw [here]
      exact reserved
    · rw [here]
      exact id
    · rw [here]
  · intro j
    by_cases same : j = i
    · subst same
      rw [here]
      exact fun _ _ => .inl (Nat.succ_ne_zero _)
    · rw [others j same]
      exact settled.held j

theorem Settled.reserve (settled : Settled p live victim) (formed : e.Formed) (creation : e.input.isCreation = true)
    (seat : e.resident = some i) (made : p.reserve e.input.jobId = (some i, q)) :
    Settled q (live ++ [e]) victim ∧ Inner p q := by
  have result := reserved p e.input.jobId
  rw [made] at result
  cases result with
  | known found unclaimed => exact ⟨settled.claim found unclaimed formed creation seat, rfl⟩
  | ordinary fresh other free =>
      refine ⟨settled.occupy free fresh formed creation seat false (by simp [other]), ?_⟩
      rw [Pool.occupy_eq settled.kept free]
      exact rfl
  | spare fresh full free oldest =>
      refine ⟨settled.occupy free fresh formed creation seat true (by simp), ?_⟩
      rw [Pool.occupy_eq settled.kept free]
      exact rfl

theorem Settled.reserveCreation (settled : Settled p live victim) (formed : e.Formed)
    (creation : e.input.isCreation = true) (seat : e.resident = some i) {identities : Option GeneratedIdentityBundle}
    (made : State.reserveCreation p e.input.jobId identities = (some i, q)) :
    Settled q (live ++ [e]) victim ∧ Inner p q := by
  rw [State.reserveCreation_eq] at made
  cases taken : p.reserve e.input.jobId with
  | mk slot t =>
      rw [taken] at made
      cases slot with
      | none => cases made
      | some k =>
          dsimp only at made
          split at made
          · cases made
            exact settled.reserve formed creation seat taken
          · next bundle _ =>
            cases made
            obtain ⟨reserved, inner⟩ := settled.reserve formed creation seat taken
            have here := (reserved.fits.seated e (by simp) i seat).1
            exact ⟨reserved.touch here (fun _ => ⟨rfl, rfl, rfl, rfl⟩) fun _ => ⟨rfl, rfl, rfl⟩, inner.trans (.modify _ _ _)⟩

def Gate.posted (g : Gate) (kind : GateKind) (sequence : Nat) : Gate :=
  { g with
    pending := true
    queuedSequence := sequence
    retireRequested := false
    ackAuthorized := g.ackAuthorized && !(kind = .worker)
    ingressSequence := sequence }

def Gate.published (g : Gate) (kind : GateKind) (sequence serial : Nat) : Gate :=
  { g.posted kind sequence with permit := true, leaseSerial := serial }

theorem Pool.releaseUnusedGate_queued (queued : (p.gate i kind).queuedSequence ≠ 0) : p.releaseUnusedGate i kind = p := by
  rw [Pool.releaseUnusedGate, if_pos (by simp [Gate.isOwned, queued])]

theorem Pool.resetIfUnowned_queued (queued : (p.gate i kind).queuedSequence ≠ 0) : p.resetIfUnowned i = p := by
  have owned : (p.residents i).hasOwnership = true := by
    by_contra unowned
    have free := (Resident.hasOwnership_eq_false.1 (by simpa using unowned)).2 kind
    exact queued (Gate.isOwned_eq_false.1 free).1
  simp [Pool.resetIfUnowned, owned]

theorem Pool.returnGate_queued {lease : SourceLease c} {g : Gate} (gate : p.gate lease.index lease.gate = g)
    (queued : g.queuedSequence ≠ 0) (leased : g.callbackLease = true) (serial : g.leaseSerial = lease.serial)
    (unexported : g.exportedLeaseSerial = 0) (own : lease.borrowed = false) :
    (p.returnGate lease).2 = p.setGate lease.index lease.gate { g with callbackLease := false, exportedLeaseSerial := 0 } := by
  have still : ((p.setGate lease.index lease.gate { g with callbackLease := false, exportedLeaseSerial := 0 }).gate lease.index
      lease.gate).queuedSequence ≠ 0 := by
    rw [Pool.setGate_gate]
    exact queued
  rw [Pool.returnGate]
  dsimp only
  rw [gate, if_neg (by simp [leased, serial, unexported]), if_neg (by simp [own])]
  dsimp only
  split
  · rw [Pool.releaseUnusedGate_queued still, Pool.resetIfUnowned_queued still]
  · rw [Pool.resetIfUnowned_queued still]

theorem Pool.returnGate_borrowed {lease : SourceLease c} (borrowed : lease.borrowed = true) : (p.returnGate lease).2 = p := by
  rw [Pool.returnGate]
  dsimp only
  split <;> rfl

def Entry.files (e : Entry c) (kind : GateKind) (r : Resident) : GateKind → Option GateIdentity :=
  match e.identity with
  | none => r.identitySlots
  | some identity => Function.update r.identitySlots kind (some identity)

theorem State.publishGate_eq (i : Slot c) (kind : GateKind) (lease : SourceLease c) (e : Entry c) (p : Pool c) :
    State.publishGate i kind lease e p = ((p.modify i fun r =>
      r.regate kind ((r.gates kind).posted kind e.sequence) (e.files kind r)).returnGate lease).2 := by
  rw [State.publishGate]
  rfl

theorem Pool.modify_regate_gate (p : Pool c) (i : Slot c) (kind : GateKind) (g : Resident → Gate)
    (slots : Resident → GateKind → Option GateIdentity) :
    (p.modify i fun r => r.regate kind (g r) (slots r)).gate i kind = g (p.residents i) := by
  rw [Pool.gate, Pool.modify_residents, if_pos rfl, Resident.regate_gates, if_pos rfl]

theorem State.publishGate_acquired {lease : SourceLease c} (kept : p.Kept) (nonzero : e.sequence ≠ 0)
    (granted : p.acquireGate i kind true = (some lease, q)) : ∃ serial next, State.publishGate i kind lease e q =
      { p.modify i (fun r => r.regate kind ((r.gates kind).published kind e.sequence serial) (e.files kind r)) with
        criticalCount := if (p.gate i kind).permit then p.criticalCount else p.criticalCount + 1
        nextSourceLease := next } := by
  have result := acquired p i kind true
  rw [granted] at result
  rw [State.publishGate_eq]
  cases result with
  | borrowed _ unclaimed registered taken retained =>
      have permit : ((p.residents i).gates kind).permit = true := ((kept.residents i).gates kind).retained retained
      have same : ((p.residents i).gates kind).posted kind e.sequence =
          ((p.residents i).gates kind).published kind e.sequence ((p.residents i).gates kind).leaseSerial := by
        simp [Gate.published, Gate.posted, permit]
      refine ⟨((p.residents i).gates kind).leaseSerial, p.nextSourceLease, ?_⟩
      rw [Pool.returnGate_borrowed rfl]
      simp [Pool.modify, same, Pool.gate, permit]
  | leased leased =>
      obtain ⟨-, -, -, -, unleased, unexported, -, rfl, rfl⟩ := leased
      rw [Pool.gate] at unleased unexported
      refine ⟨p.nextSourceLease, following p.nextSourceLease, ?_⟩
      rw [Pool.returnGate_queued (Pool.modify_regate_gate _ i kind (fun r => (r.gates kind).posted kind e.sequence) _) nonzero]
      · simp only [Pool.setGate, Pool.modify_modify]
        simp [Pool.modify, Resident.regate, Gate.published, Gate.posted, Entry.files, Pool.gate, unleased, unexported]
      · simp [Pool.setGate, Pool.modify, Gate.posted]
      · simp [Pool.setGate, Pool.modify, Gate.posted]
      · simp [Pool.setGate, Pool.modify, Gate.posted, Pool.gate, unexported]
      · rfl

theorem Fits.post (fits : Fits p live) (formed : e.Formed) (critical : e.critical = true) (seat : e.resident = some i)
    (gate : e.gate = some kind) (found : p.find e.input.jobId = some i) (idle : (p.gate i kind).queuedSequence = 0)
    (g : Resident → Gate) (slots : Resident → GateKind → Option GateIdentity)
    (queued : ∀ r, (g r).queuedSequence = e.sequence) :
    Fits (p.modify i fun r => r.regate kind (g r) (slots r)) (live ++ [e]) where
  formed f member := by
    rcases List.mem_append.1 member with old | new
    · exact fits.formed f old
    · exact List.mem_singleton.1 new ▸ formed
  seated f member j there := by
    have before : (p.residents j).reserved = true ∧ (p.residents j).id = f.input.jobId := by
      rcases List.mem_append.1 member with old | new
      · exact fits.seated f old j there
      · rw [List.mem_singleton.1 new] at there ⊢
        rw [seat] at there
        cases there
        exact (Pool.find_some found).symm
    rw [Pool.modify_residents]
    split
    · next here => exact here ▸ before
    · exact before
  queued j other := by
    have before := fits.queued j other
    rw [List.filter_append, List.map_append, before]
    by_cases here : j = i ∧ other = kind
    · obtain ⟨rfl, rfl⟩ := here
      rw [idle, Pool.modify_regate_gate, queued, List.filter_cons_of_pos (by simp [Entry.occupies, critical, seat, gate])]
      simp [listed, formed.sequence]
    · have apart : e.occupies j other = false := by
        simp only [Entry.occupies, critical, seat, gate, Bool.true_and, Option.some.injEq, Bool.and_eq_false_iff,
          decide_eq_false_iff_not]
        by_cases slot : i = j
        · exact .inr fun same => here ⟨slot.symm, same.symm⟩
        · exact .inl slot
      have same : ((p.modify i fun r => r.regate kind (g r) (slots r)).gate j other).queuedSequence =
          (p.gate j other).queuedSequence := by
        rw [Pool.gate, Pool.modify_residents]
        split
        · next slot =>
          rw [Resident.regate_gates, if_neg fun same => here ⟨slot, same⟩, slot]
          rfl
        · rfl
      rw [same, List.filter_cons_of_neg (by simp [apart])]
      simp
  claims j := by
    have usual : e.input.isCreation = false := by
      by_contra creation
      have normal := (formed.creation (by simpa using creation)).1
      simp [normal] at critical
    rw [List.countP_append, List.countP_cons_of_neg (by simp [Entry.claims, usual]), List.countP_nil, Nat.add_zero,
      ← fits.claims, Pool.modify_residents]
    split
    · next here => rw [here]; rfl
    · rfl

theorem Settled.publish (settled : Settled p live victim) (formed : e.Formed) (critical : e.critical = true)
    (seat : e.resident = some i) (gate : e.gate = some kind) (found : p.find e.input.jobId = some i)
    (registered : (p.gate i kind).registered = true) (idle : (p.gate i kind).queuedSequence = 0) {lease : SourceLease c}
    (granted : p.acquireGate i kind true = (some lease, q)) :
    Settled (State.publishGate i kind lease e q) (live ++ [e]) victim ∧
      ∃ nextSourceLease, Inner { p with nextSourceLease } (State.publishGate i kind lease e q) := by
  obtain ⟨serial, next, equal⟩ := State.publishGate_acquired settled.kept formed.sequence granted
  have resident := settled.kept.residents i
  have sound : (p.gate i kind).Sound := resident.gates kind
  have reserved := (Pool.find_some found).2
  have unclaimed : (p.residents i).claimed = false := by
    have result := acquired p i kind true
    rw [granted] at result
    cases result with
    | borrowed _ unclaimed => exact unclaimed
    | leased leased => exact leased.unclaimed
  have fine : Regates (p.residents i) kind ((p.gate i kind).published kind e.sequence serial) := {
    sound := ⟨by simp [Gate.published, Gate.posted, formed.sequence], fun _ => rfl, fun _ => rfl, fun _ => rfl, sound.exported⟩
    terminate := by
      rintro rfl
      exact ⟨resident.unleased, resident.unretained⟩
    vacant := fun absent other => absurd registered (by simp [Pool.gate, (resident.closed absent kind other).1])
    unowned := fun claim => absurd claim (by simp [unclaimed]) }
  have count : (if (p.gate i kind).permit then p.criticalCount else p.criticalCount + 1) + (p.gate i kind).permit.toNat =
      p.criticalCount + 1 := by cases (p.gate i kind).permit <;> simp
  have kept := settled.kept.regate reserved fine (e.files kind) count
  have fits := settled.fits.post formed critical seat gate found idle
    (fun r => (r.gates kind).published kind e.sequence serial) (e.files kind) fun _ => rfl
  have slotted : Slotted (p.modify i fun r => r.regate kind ((r.gates kind).published kind e.sequence serial) (e.files kind r))
      victim := settled.slotted.modify i fun _ => ⟨rfl, rfl, rfl, rfl⟩
  have held : ∀ j, ((p.modify i fun r =>
      r.regate kind ((r.gates kind).published kind e.sequence serial) (e.files kind r)).residents j).isHeld := by
    intro j
    rw [Pool.modify_residents]
    split
    · intro reserved absent
      rcases settled.held i reserved absent with claims | queued
      · exact .inl claims
      · right
        rw [Resident.regate_gates]
        split
        · exact formed.sequence
        · exact queued
    · exact settled.held j
  have done : Settled { p.modify i (fun r =>
      r.regate kind ((r.gates kind).published kind e.sequence serial) (e.files kind r)) with
        criticalCount := if (p.gate i kind).permit then p.criticalCount else p.criticalCount + 1 } (live ++ [e]) victim :=
    ⟨kept, ⟨fits.formed, fits.seated, fits.queued, fits.claims⟩,
      ⟨slotted.distinct, slotted.ticket, slotted.claimed, slotted.full⟩, held⟩
  rw [equal]
  exact ⟨done.frame rfl rfl kept.balanced kept.clean, next, rfl⟩

theorem Settled.append (settled : Settled p live victim) (formed : e.Formed) (unseated : e.resident = none) :
    Settled p (live ++ [e]) victim :=
  ⟨settled.kept, settled.fits.append formed unseated, settled.slotted, settled.held⟩

theorem Settled.mark (settled : Settled p live victim) (calm : p.shutdownPermit = false) :
    Settled (State.publishMarker e p) live victim := by
  have balanced := settled.kept.balanced
  rw [calm] at balanced
  have more : p.criticalCount + 1 = p.permits + 1 := by rw [balanced]; rfl
  exact settled.frame rfl rfl more settled.kept.clean

end Sitometron.Core.Orchestrator
