import Sitometron.Proof.Orchestrator.Gates

/-!
# Leases

The operations that only move leases and permits: they keep the accounts, and neither the owners of a slot nor its queued
events see them.
-/

namespace Sitometron.Core.Orchestrator

variable {c : Setup} {p q u : Pool c} {i j : Slot c} {kind : GateKind} {r : Resident} {g : Gate}

theorem Gate.isOwned_eq_false : g.isOwned = false ↔
    g.queuedSequence = 0 ∧ g.callbackLease = false ∧ g.exportedLeaseSerial = 0 := by
  simp [Gate.isOwned, and_assoc]

theorem Gate.Sound.unowned (sound : g.Sound) (permit : g.permit = false) : g.isOwned = false := by
  have unleased : g.callbackLease = false := by
    by_contra leased
    exact absurd (sound.leased (by simpa using leased)) (by simp [permit])
  refine Gate.isOwned_eq_false.2 ⟨?_, unleased, ?_⟩
  · by_contra queued
    exact absurd (sound.queued queued) (by simp [permit])
  · by_contra exported
    exact absurd (sound.exported exported) (by simp [unleased])

def Gate.retired (g : Gate) : Gate :=
  { g with
    retained := false
    ackAuthorized := false
    retireRequested := true
    callbackLease := g.callbackLease && g.exportedLeaseSerial ≠ 0 }

namespace Shifts

theorem releaseUnusedGate (kept : p.Kept) (reserved : (p.residents i).reserved = true) (kind : GateKind) :
    Shifts p (p.releaseUnusedGate i kind) := by
  rw [Pool.releaseUnusedGate]
  dsimp only
  split
  · exact .refl kept
  · next free =>
    simp only [Bool.or_eq_true, not_or, Bool.not_eq_true] at free
    obtain ⟨unqueued, unleased, unexported⟩ := Gate.isOwned_eq_false.1 free.1
    have held := kept.permit_le i kind
    have sound := kept.residents i
    apply Shifts.regate kept reserved _ _ (fun r =>
      if kind.isIdentityGate then Function.update r.identitySlots kind none else r.identitySlots)
    · cases permit : (p.gate i kind).permit <;> simp_all
    · exact {
        sound := ⟨by simp [unqueued], by simp [unqueued], by simp [unleased], by simp [free.2], by simp [unexported]⟩
        terminate := fun _ => ⟨unleased, free.2⟩
        vacant := by
          intro absent other
          have closed : (p.gate i kind).registered = false := (sound.closed absent kind other).1
          simp [closed]
        unowned := fun _ => Gate.isOwned_eq_false.2 ⟨unqueued, unleased, unexported⟩ }
    · rfl

theorem retire (kept : p.Kept) (reserved : (p.residents i).reserved = true) (kind : GateKind) :
    Shifts p ((p.setGate i kind (p.gate i kind).retired).releaseUnusedGate i kind) := by
  have resident := kept.residents i
  have sound : (p.gate i kind).Sound := resident.gates kind
  have fine : Regates (p.residents i) kind (p.gate i kind).retired := {
    sound := {
      pending := sound.pending
      queued := sound.queued
      leased := fun leased => sound.leased (Bool.and_eq_true_iff.1 leased).1
      retained := by simp [Gate.retired]
      exported := fun exported => Bool.and_eq_true_iff.2 ⟨sound.exported exported, by simpa [Gate.retired] using exported⟩ }
    terminate := by
      rintro rfl
      have unleased : (p.gate i .terminate).callbackLease = false := resident.unleased
      simp [Gate.retired, unleased]
    vacant := fun absent other => resident.closed absent kind other
    unowned := by
      intro claim
      have unowned := Gate.isOwned_eq_false.1 ((resident.claimed claim).2.2 kind)
      exact Gate.isOwned_eq_false.2 ⟨unowned.1, by simp [Gate.retired, Pool.gate, unowned.2.1], unowned.2.2⟩ }
  have shifted : Shifts p (p.setGate i kind (p.gate i kind).retired) := .setGate kept reserved fine rfl rfl
  apply shifted.trans
  exact .releaseUnusedGate shifted.kept ((shifted.same i).reserved.trans reserved) kind

theorem retireWorkerProtocol (kept : p.Kept) (reserved : (p.residents i).reserved = true) :
    Shifts p (p.retireWorkerProtocol i) := .retire kept reserved .worker

end Shifts

theorem Pool.modify_modify (p : Pool c) (i : Slot c) (f g : Resident → Resident) :
    (p.modify i f).modify i g = p.modify i fun r => g (f r) := by
  simp [Pool.modify]

theorem Pool.modify_eq_self {f : Resident → Resident} (same : f (p.residents i) = p.residents i) : p.modify i f = p := by
  rw [Pool.modify, same, Function.update_eq_self]

@[simp] theorem Pool.setGate_gate (p : Pool c) (i : Slot c) (kind : GateKind) (g : Gate) :
    (p.setGate i kind g).gate i kind = g := by
  simp [Pool.setGate, Pool.modify, Pool.gate]

theorem Pool.cancelGate_blank (blank : (p.residents i).isBlank) (kind : GateKind) : p.cancelGate i kind = p := by
  have gate : p.gate i kind = {} := by rw [Pool.gate, blank]
  rw [Pool.cancelGate, Pool.releaseUnusedGate]
  simp only [Pool.setGate_gate, gate, Gate.isOwned]
  simp only [Pool.setGate, Pool.modify_modify]
  have same : ∀ f : Resident → Resident, f (p.residents i) = p.residents i →
      { p.modify i f with criticalCount := p.criticalCount } = p := by
    intro f fixed
    rw [Pool.modify_eq_self fixed]
  apply same
  rw [blank]
  simp

namespace Shifts

theorem cancelGate (kept : p.Kept) (i : Slot c) (kind : GateKind) : Shifts p (p.cancelGate i kind) := by
  cases reserved : (p.residents i).reserved with
  | true => exact .retire kept reserved kind
  | false =>
      rw [Pool.cancelGate_blank ((kept.residents i).blank reserved)]
      exact .refl kept

theorem cancelGates (kept : p.Kept) : Shifts p p.cancelGates := by
  have row : ∀ (kinds : List GateKind) (i : Slot c) {q : Pool c}, q.Kept →
      Shifts q (kinds.foldl (fun p kind => p.cancelGate i kind) q) := by
    intro kinds i
    induction kinds with
    | nil => exact fun kept => .refl kept
    | cons kind rest ih =>
        intro q kept
        have first := Shifts.cancelGate kept i kind
        exact first.trans (ih first.kept)
  have all : ∀ (places : List (Slot c)) {q : Pool c}, q.Kept →
      Shifts q (places.foldl (fun p i => GateKind.all.foldl (fun p kind => p.cancelGate i kind) p) q) := by
    intro places
    induction places with
    | nil => exact fun kept => .refl kept
    | cons i rest ih =>
        intro q kept
        have first := row GateKind.all i kept
        exact first.trans (ih first.kept)
  exact all _ kept

end Shifts

theorem Resident.Sound.reserved_of_existing (sound : r.Sound) (existing : r.existing = true) : r.reserved = true := by
  cases reserved : r.reserved with
  | true => rfl
  | false =>
      have blank := sound.blank reserved
      rw [blank] at existing
      cases existing

theorem Resident.Sound.reserved_of_permit (sound : r.Sound) (permit : (r.gates kind).permit = true) : r.reserved = true := by
  cases reserved : r.reserved with
  | true => rfl
  | false =>
      have blank := sound.blank reserved
      rw [blank] at permit
      cases permit

theorem Resident.Sound.reserved_of_registered (sound : r.Sound) (registered : (r.gates kind).registered = true) :
    r.reserved = true := by
  cases reserved : r.reserved with
  | true => rfl
  | false =>
      have blank := sound.blank reserved
      rw [blank] at registered
      cases registered

theorem Pool.Kept.fail {fault : Fault} (kept : p.Kept) (fine : fault.isBreach = false) : (p.fail fault).Kept where
  residents := kept.residents
  balanced := kept.balanced
  spare := kept.spare
  clean := by
    intro other member
    rcases List.mem_append.1 member with old | new
    · exact kept.clean other old
    · rw [List.mem_singleton.1 new]
      exact fine

namespace Shifts

theorem fail {fault : Fault} (kept : p.Kept) (fine : fault.isBreach = false) : Shifts p (p.fail fault) :=
  ⟨kept.fail fine, fun _ => .refl _, rfl, rfl⟩

end Shifts

structure Leased (p : Pool c) (i : Slot c) (kind : GateKind) (lease : SourceLease c) (q : Pool c) : Prop where
  healthy : p.failed = false
  unclaimed : (p.residents i).claimed = false
  isOpen : p.isOpen = true
  registered : (p.gate i kind).registered = true
  unleased : (p.gate i kind).callbackLease = false
  unexported : (p.gate i kind).exportedLeaseSerial = 0
  serial : p.nextSourceLease ≠ 0
  lease : lease = ⟨i, kind, p.nextSourceLease, false, !(p.gate i kind).permit⟩
  pool : q = { p.setGate i kind
      { p.gate i kind with permit := true, callbackLease := true, leaseSerial := p.nextSourceLease } with
    criticalCount := if (p.gate i kind).permit then p.criticalCount else p.criticalCount + 1
    nextSourceLease := following p.nextSourceLease }

inductive Acquired (p : Pool c) (i : Slot c) (kind : GateKind) (borrow : Bool) : Option (SourceLease c) × Pool c → Prop
  | refused : Acquired p i kind borrow (none, p)
  | exhausted : p.nextSourceLease = 0 → Acquired p i kind borrow (none, p.fail .leasesExhausted)
  | full : p.criticalCount ≥ c.criticalReserve → Acquired p i kind borrow (none, p.fail .reserveExhausted)
  | borrowed : borrow = true → (p.residents i).claimed = false → (p.gate i kind).registered = true →
      ((p.gate i kind).callbackLease = true ∨ (p.gate i kind).exportedLeaseSerial ≠ 0) →
      (p.gate i kind).retained = true →
      Acquired p i kind borrow (some ⟨i, kind, (p.gate i kind).leaseSerial, true, false⟩, p)
  | leased {lease : SourceLease c} {q : Pool c} : Leased p i kind lease q → Acquired p i kind borrow (some lease, q)

theorem acquired (p : Pool c) (i : Slot c) (kind : GateKind) (borrow : Bool) :
    Acquired p i kind borrow (p.acquireGate i kind borrow) := by
  rw [Pool.acquireGate]
  dsimp only
  split
  · exact .refused
  next ready =>
  simp only [Bool.or_eq_true, Bool.not_eq_true', not_or, Bool.not_eq_true, Bool.not_eq_false] at ready
  split
  · exact .refused
  next open_ =>
  have registered : (p.gate i kind).registered = true := by simpa using open_
  split
  · next taken =>
    split
    · next lent =>
      simp only [Bool.and_eq_true] at lent
      exact .borrowed lent.1 ready.1.2 registered (by simpa using taken) lent.2
    · exact .refused
  next free =>
  simp only [Bool.or_eq_true, decide_eq_true_eq, not_or, Bool.not_eq_true, ne_eq, not_not] at free
  split
  · next none => exact .exhausted none
  next serial =>
  split
  · next full => exact .full (of_decide_eq_true (Bool.and_eq_true_iff.1 full).2)
  · exact .leased ⟨ready.1.1.1, ready.1.2, ready.2, registered, free.1, free.2, serial, rfl, rfl⟩

namespace Leased

variable {lease : SourceLease c}

theorem shifts (leased : Leased p i kind lease q) (kept : p.Kept) (other : kind ≠ .terminate) : Shifts p q := by
  have resident := kept.residents i
  have sound : (p.gate i kind).Sound := resident.gates kind
  have reserved := resident.reserved_of_registered leased.registered
  have fine : Regates (p.residents i) kind
      { p.gate i kind with permit := true, callbackLease := true, leaseSerial := p.nextSourceLease } := {
    sound := ⟨sound.pending, fun _ => rfl, fun _ => rfl, fun _ => rfl, fun _ => rfl⟩
    terminate := fun terminate => absurd terminate other
    vacant := by
      intro absent
      have closed := (resident.closed absent kind other).1
      exact absurd leased.registered (by simp [Pool.gate, closed])
    unowned := by
      intro claim
      exact absurd claim (by simp [leased.unclaimed]) }
  have count : (if (p.gate i kind).permit then p.criticalCount else p.criticalCount + 1) + (p.gate i kind).permit.toNat =
      p.criticalCount + 1 := by cases (p.gate i kind).permit <;> simp
  have shifted := Shifts.regate kept reserved fine rfl (fun r => r.identitySlots) count
  rw [leased.pool]
  exact ⟨⟨shifted.kept.residents, shifted.kept.balanced, shifted.kept.spare, shifted.kept.clean⟩, shifted.same, rfl, rfl⟩

theorem taken (leased : Leased p i kind lease q) : (q.gate i kind).callbackLease = true := by
  rw [leased.pool]
  show ((p.setGate i kind _).gate i kind).callbackLease = true
  rw [Pool.setGate_gate]

end Leased

def Resident.isHeld (r : Resident) : Prop :=
  r.reserved = true → r.existing = false → r.claims ≠ 0 ∨ (r.gates .terminate).queuedSequence ≠ 0

theorem Resident.Same.held {t : Resident} (same : r.Same t) (held : r.isHeld) : t.isHeld := by
  intro reserved absent
  rw [same.claims, same.queued]
  exact held (same.reserved ▸ reserved) (same.existing ▸ absent)

theorem Resident.hasOwnership_eq_false : r.hasOwnership = false ↔ r.claims = 0 ∧ ∀ kind, (r.gates kind).isOwned = false := by
  have every : ∀ kind, kind ∈ GateKind.all := fun kind => by cases kind <;> decide
  simp [Resident.hasOwnership, every]

theorem Pool.resetIfUnowned_of_held (held : (p.residents i).isHeld) (reserved : (p.residents i).reserved = true) :
    p.resetIfUnowned i = p := by
  rw [Pool.resetIfUnowned]
  split
  · next unowned =>
    simp only [Bool.and_eq_true, Bool.not_eq_true'] at unowned
    obtain ⟨none, free⟩ := Resident.hasOwnership_eq_false.1 unowned.2
    rcases held reserved unowned.1 with claims | queued
    · exact absurd none claims
    · exact absurd (Gate.isOwned_eq_false.1 (free .terminate)).1 queued
  · rfl

namespace Shifts

theorem relet (kept : p.Kept) (other : kind ≠ .terminate) (leased : (p.gate i kind).callbackLease = true)
    (unclaimed : (p.residents i).claimed = false) (retained : Bool) (serial : Nat) :
    Shifts p (p.setGate i kind { p.gate i kind with retained, exportedLeaseSerial := serial }) := by
  have resident := kept.residents i
  have sound : (p.gate i kind).Sound := resident.gates kind
  have permit := sound.leased leased
  have fine : Regates (p.residents i) kind { p.gate i kind with retained, exportedLeaseSerial := serial } := {
    sound := ⟨sound.pending, sound.queued, sound.leased, fun _ => permit, fun _ => leased⟩
    terminate := fun terminate => absurd terminate other
    vacant := fun absent _ => resident.closed absent kind other
    unowned := fun claim => absurd claim (by simp [unclaimed]) }
  exact .setGate kept (resident.reserved_of_permit permit) fine rfl rfl

theorem acquireSourceLease (kept : p.Kept) (id : Uuid) (event : EventType) (phase : TimeoutPhase) :
    Shifts p (State.acquireSourceLease p id event phase) := by
  rw [State.acquireSourceLease]
  split
  · next i kind found source =>
    have other : kind ≠ .terminate := by
      rintro rfl
      unfold State.sourceGate at source
      split at source <;> simp at source
    have result := acquired p i kind false
    generalize p.acquireGate i kind false = given at result
    cases result with
    | refused => exact .refl kept
    | exhausted none => exact .fail kept rfl
    | full spent => exact absurd kept.reserve_free (Nat.not_lt.2 spent)
    | borrowed borrow => cases borrow
    | @leased lease q leased =>
        have shifted := leased.shifts kept other
        apply shifted.trans
        exact .relet shifted.kept other leased.taken ((shifted.same i).claimed.trans leased.unclaimed) _ _
  · exact .refl kept

theorem retainGate (kept : p.Kept) (id : Uuid) {kind : GateKind} (other : kind ≠ .terminate) :
    Shifts p (p.retainGate id kind).2 := by
  rw [Pool.retainGate]
  split
  · exact .refl kept
  next i found =>
  split
  · exact .refl kept
  have result := acquired p i kind false
  generalize p.acquireGate i kind false = given at result
  cases result with
  | refused => exact .refl kept
  | exhausted none => exact .fail kept rfl
  | full spent => exact absurd kept.reserve_free (Nat.not_lt.2 spent)
  | borrowed borrow => cases borrow
  | @leased lease q leased =>
      have shifted := leased.shifts kept other
      apply shifted.trans
      exact .relet shifted.kept other leased.taken ((shifted.same i).claimed.trans leased.unclaimed) _ _

theorem returnGate (kept : p.Kept) (lease : SourceLease c) (held : (p.residents lease.index).isHeld) :
    Shifts p (p.returnGate lease).2 := by
  rw [Pool.returnGate]
  dsimp only
  split
  · exact .refl kept
  next valid =>
  simp only [Bool.or_eq_true, Bool.not_eq_true', not_or, Bool.not_eq_false] at valid
  split
  · exact .refl kept
  have resident := kept.residents lease.index
  have sound : (p.gate lease.index lease.gate).Sound := resident.gates lease.gate
  have permit := sound.leased valid.1.1
  have reserved := resident.reserved_of_permit permit
  have fine : Regates (p.residents lease.index) lease.gate
      { p.gate lease.index lease.gate with callbackLease := false, exportedLeaseSerial := 0 } := {
    sound := ⟨sound.pending, sound.queued, nofun, sound.retained, by simp⟩
    terminate := by
      intro terminate
      have retained : (p.gate lease.index lease.gate).retained = false := by
        rw [terminate]
        exact resident.unretained
      exact ⟨rfl, retained⟩
    vacant := fun absent other => resident.closed absent lease.gate other
    unowned := by
      intro claim
      have unowned := Gate.isOwned_eq_false.1 ((resident.claimed claim).2.2 lease.gate)
      exact Gate.isOwned_eq_false.2 ⟨unowned.1, rfl, rfl⟩ }
  have returned := Shifts.setGate kept reserved fine rfl rfl
  have still := (returned.same lease.index).reserved.trans reserved
  split
  · have released := Shifts.releaseUnusedGate returned.kept still lease.gate
    rw [Pool.resetIfUnowned_of_held ((released.same _).held ((returned.same _).held held))
      ((released.same _).reserved.trans still)]
    exact returned.trans released
  · rw [Pool.resetIfUnowned_of_held ((returned.same _).held held) still]
    exact returned

theorem request (kept : p.Kept) (reserved : (p.residents i).reserved = true) {registered : Bool}
    (fewer : registered = true → (p.gate i kind).registered = true) :
    Shifts p (p.setGate i kind { p.gate i kind with retireRequested := true, registered }) := by
  have resident := kept.residents i
  have sound : (p.gate i kind).Sound := resident.gates kind
  have fine : Regates (p.residents i) kind { p.gate i kind with retireRequested := true, registered } := {
    sound := ⟨sound.pending, sound.queued, sound.leased, sound.retained, sound.exported⟩
    terminate := by
      rintro rfl
      exact ⟨resident.unleased, resident.unretained⟩
    vacant := by
      intro absent other
      have closed := resident.closed absent kind other
      refine ⟨?_, closed.2⟩
      cases registered with
      | false => rfl
      | true => exact absurd (fewer rfl) (by simp [Pool.gate, closed.1])
    unowned := fun claim => (resident.claimed claim).2.2 kind }
  exact .setGate kept reserved fine rfl rfl

theorem retireGate (kept : p.Kept) (reserved : (p.residents i).reserved = true) (kind : GateKind) :
    Shifts p (p.retireGate i kind) := by
  rw [Pool.retireGate]
  dsimp only
  split
  · exact .request kept reserved id
  · have retired : Shifts p (p.setGate i kind { p.gate i kind with
        retireRequested := true, registered := (p.gate i kind).registered && !kind.isTimer }) :=
      .request kept reserved fun both => (Bool.and_eq_true_iff.1 both).1
    exact retired.trans (.releaseUnusedGate retired.kept ((retired.same i).reserved.trans reserved) kind)

theorem authorizeAck (kept : p.Kept) (reserved : (p.residents i).reserved = true) : Shifts p (State.authorizeAck p i) := by
  have resident := kept.residents i
  have sound : (p.gate i .worker).Sound := resident.gates .worker
  have fine : Regates (p.residents i) .worker { p.gate i .worker with ackAuthorized := true } := {
    sound := ⟨sound.pending, sound.queued, sound.leased, sound.retained, sound.exported⟩
    terminate := nofun
    vacant := fun absent other => resident.closed absent .worker other
    unowned := fun claim => (resident.claimed claim).2.2 .worker }
  exact .setGate kept reserved fine rfl rfl

theorem activateSource (kept : p.Kept) (existing : (p.residents i).existing = true) (kind : GateKind) :
    Shifts p (p.activateSource i kind) := by
  have resident := kept.residents i
  have sound : (p.gate i kind).Sound := resident.gates kind
  have fine : Regates (p.residents i) kind
      { p.gate i kind with registered := true, retireRequested := false, permit := true } := {
    sound := ⟨sound.pending, fun _ => rfl, fun _ => rfl, fun _ => rfl, sound.exported⟩
    terminate := by
      rintro rfl
      exact ⟨resident.unleased, resident.unretained⟩
    vacant := fun absent => absurd existing (by simp [absent])
    unowned := fun claim => (resident.claimed claim).2.2 kind }
  have count : (if (p.gate i kind).permit then p.criticalCount else p.criticalCount + 1) + (p.gate i kind).permit.toNat =
      p.criticalCount + 1 := by cases (p.gate i kind).permit <;> simp
  exact .regate kept (resident.reserved_of_existing existing) fine rfl (fun r => r.identitySlots) count

theorem activateSources (kept : p.Kept) (existing : (p.residents i).existing = true) (plan : List GateKind) :
    Shifts p (p.activateSources i plan) := by
  rw [Pool.activateSources]
  induction plan generalizing p with
  | nil => exact .refl kept
  | cons kind rest ih =>
      have first := Shifts.activateSource kept existing kind
      exact first.trans (ih first.kept ((first.same i).existing.trans existing))

end Shifts

end Sitometron.Core.Orchestrator
