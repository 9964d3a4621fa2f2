import Sitometron.Proof.Orchestrator.Sealing
import Sitometron.Proof.Orchestrator.Seeding
import Sitometron.Proof.Orchestrator.Tenancy

/-!
# The pool and the entries it serves

All accounts of the pool at once: the slots, the gates and the counters, against the entries that are admitted and not
released.
-/

namespace Sitometron.Core.Orchestrator

variable {c : Setup} {p q : Pool c} {i : Slot c} {kind : GateKind} {e : Entry c} {live rest : List (Entry c)}
  {victim : Option (Slot c)}

structure Steady (p q : Pool c) : Prop where
  normal : q.normalCount = p.normalCount
  mode : q.mode = p.mode
  permit : q.shutdownPermit = p.shutdownPermit

theorem Inner.steady (inner : Inner p q) : Steady p q := ⟨inner.normal, inner.mode, inner.permit⟩

structure Housed (p : Pool c) (live : List (Entry c)) (victim : Option (Slot c)) : Prop where
  settled : Settled p live victim
  normal : p.normalCount = live.countP fun e => !e.critical
  bounded : p.normalCount ≤ c.normalCapacity
  marked : (live.countP fun e => e.input = .shutdown) ≤ p.shutdownPermit.toNat
  calm : p.mode = .running → p.shutdownPermit = false
  faithful : ∀ j, (p.residents j).Faithful

namespace Housed

theorem shift (housed : Housed p live victim) (shifts : Shifts p q) (steady : Steady p q) : Housed q live victim where
  settled := housed.settled.shift shifts
  normal := steady.normal.trans housed.normal
  bounded := steady.normal ▸ housed.bounded
  marked := steady.permit ▸ housed.marked
  calm running := steady.permit ▸ housed.calm (steady.mode ▸ running)
  faithful j := (housed.faithful j).stays (.of_bare (shifts.same j).bare)

theorem fail {fault : Fault} (housed : Housed p live victim) (fine : fault.isBreach = false) :
    Housed (p.fail fault) live victim := housed.shift (.fail housed.settled.kept fine) ⟨rfl, rfl, rfl⟩

theorem leave (housed : Housed p live victim) {mode : Mode} (other : mode ≠ .running) :
    Housed { p with mode } live victim where
  settled := housed.settled.frame rfl rfl housed.settled.kept.balanced housed.settled.kept.clean
  normal := housed.normal
  bounded := housed.bounded
  marked := housed.marked
  calm running := absurd running other
  faithful := housed.faithful

theorem countP_tail_le {f : Entry c → Bool} : rest.countP f ≤ (e :: rest).countP f :=
  (List.sublist_cons_self e rest).countP_le

theorem release (housed : Housed p (e :: rest) victim) (own : victim = none ∨ e.victim = victim) (successful : Bool) :
    Housed (p.release e successful) rest none := by
  obtain ⟨settled, inner⟩ := housed.settled.release own successful
  have count : (p.release e successful).normalCount = if e.critical then p.normalCount else p.normalCount - 1 := inner.normal
  have normal := housed.normal
  have bounded := housed.bounded
  have permit : (p.release e successful).shutdownPermit = p.shutdownPermit := inner.permit
  have mode : (p.release e successful).mode = p.mode := inner.mode
  refine ⟨settled, ?_, ?_, ?_, ?_, fun j => (Pool.Thins.release p e successful j).faithful (housed.faithful j)⟩
  · rw [count]
    cases critical : e.critical with
    | true => simpa [critical] using normal
    | false => simp [normal, critical]
  · rw [count]
    split <;> omega
  · rw [permit]
    exact countP_tail_le.trans housed.marked
  · rw [permit, mode]
    exact housed.calm

theorem unmark (housed : Housed p (e :: rest) victim) (marker : e.input = .shutdown) : Housed p rest victim := by
  have formed := housed.settled.fits.formed e List.mem_cons_self
  have normal := housed.normal
  rw [List.countP_cons_of_neg (by simp [(formed.marker marker).1])] at normal
  exact ⟨housed.settled.tail (formed.marker marker).2, normal, housed.bounded, countP_tail_le.trans housed.marked, housed.calm,
    housed.faithful⟩

theorem append_normal {l : List (Entry c)} {n : Nat} (count : n = l.countP fun e => !e.critical) (usual : e.critical = false) :
    n + 1 = (l ++ [e]).countP fun e => !e.critical := by
  rw [List.countP_append, ← count, List.countP_cons_of_pos (by simp [usual]), List.countP_nil]

theorem append_unmarked {l : List (Entry c)} (other : e.input ≠ .shutdown) :
    ((l ++ [e]).countP fun e => e.input = .shutdown) = l.countP fun e => e.input = .shutdown := by
  rw [List.countP_append, List.countP_cons_of_neg (by simpa using other), List.countP_nil, Nat.add_zero]

theorem count (housed : Housed p live victim) (settled : Settled q (live ++ [e]) victim) (inner : Inner p q)
    (faithful : ∀ j, (q.residents j).Faithful) (usual : e.critical = false) (other : e.input ≠ .shutdown)
    (room : p.normalCount < c.normalCapacity) : Housed (State.countNormal e q) (live ++ [e]) victim where
  settled := settled.recount _
  normal := by
    show q.normalCount + 1 = _
    rw [inner.normal]
    exact append_normal housed.normal usual
  bounded := by
    show q.normalCount + 1 ≤ _
    rw [inner.normal]
    exact room
  marked := by
    show _ ≤ q.shutdownPermit.toNat
    rw [append_unmarked other, inner.permit]
    exact housed.marked
  calm running := inner.permit.trans (housed.calm (inner.mode.symm.trans running))
  faithful := faithful

theorem post (housed : Housed p live victim) (settled : Settled q (live ++ [e]) victim) (steady : Steady p q)
    (faithful : ∀ j, (q.residents j).Faithful) (critical : e.critical = true) (other : e.input ≠ .shutdown) :
    Housed q (live ++ [e]) victim where
  settled := settled
  normal := by
    rw [steady.normal, List.countP_append, ← housed.normal, List.countP_cons_of_neg (by simp [critical]), List.countP_nil]
    rfl
  bounded := steady.normal ▸ housed.bounded
  marked := by
    rw [append_unmarked other, steady.permit]
    exact housed.marked
  calm running := steady.permit.trans (housed.calm (steady.mode ▸ running))
  faithful := faithful

theorem mark (housed : Housed p live victim) (running : p.mode = .running) (formed : e.Formed) (marker : e.input = .shutdown) :
    Housed (State.publishMarker e p) (live ++ [e]) victim := by
  have calm := housed.calm running
  have none : (live.countP fun e => e.input = .shutdown) = 0 := by simpa [calm] using housed.marked
  refine ⟨(housed.settled.mark calm).append formed (formed.marker marker).2, ?_, housed.bounded, ?_, nofun, housed.faithful⟩
  · show p.normalCount = _
    rw [List.countP_append, ← housed.normal, List.countP_cons_of_neg (by simp [(formed.marker marker).1]), List.countP_nil]
    rfl
  · rw [List.countP_append, none, List.countP_cons_of_pos (by simp [marker]), List.countP_nil]
    exact Nat.le_refl 1

theorem modify (housed : Housed p live victim) {other : Option (Slot c)} {f : Resident → Resident}
    (settled : Settled (p.modify i f) live other)
    (alike : ∀ r, (f r).id = r.id ∧ (f r).snapshot = r.snapshot ∧ (f r).existing = r.existing ∧ (f r).reserved = r.reserved) :
    Housed (p.modify i f) live other where
  settled := settled
  normal := housed.normal
  bounded := housed.bounded
  marked := housed.marked
  calm := housed.calm
  faithful k := by
    rw [Pool.modify_residents]
    split
    · obtain ⟨id, snapshot, existing, reserved⟩ := alike (p.residents i)
      exact (housed.faithful i).alike id snapshot existing reserved
    · exact housed.faithful k

theorem exchange (housed : Housed p live none) (ticket : (p.residents i).ticket = true) {j : Slot c}
    (free : p.ordinaryFree = some j) :
    Housed { p.modify i (fun r => { r with ticket := false }) with spare := j } live none where
  settled := housed.settled.exchange ticket free
  normal := housed.normal
  bounded := housed.bounded
  marked := housed.marked
  calm := housed.calm
  faithful k := by
    show ((p.modify i fun r => { r with ticket := false }).residents k).Faithful
    rw [Pool.modify_residents]
    split
    · exact (housed.faithful i).alike rfl rfl rfl rfl
    · exact housed.faithful k

theorem claimVictim (housed : Housed p live none) (crowded : p.isCrowded) (reserved : (p.residents p.spare).reserved = true)
    (existing : (p.residents i).existing = true) (unowned : (p.residents i).hasOwnership = false) :
    Housed (p.modify i fun r => { r with claimed := true }) live (some i) :=
  housed.modify (housed.settled.claimVictim crowded reserved existing unowned) fun _ => ⟨rfl, rfl, rfl, rfl⟩

theorem writeBank (housed : Housed p live victim) (reserved : (p.residents i).reserved = true) (applied : ApplyResult) :
    Housed (State.writeBank p i applied) live victim := by
  apply housed.modify
  · exact housed.settled.touch reserved (fun _ => ⟨rfl, rfl, rfl, rfl⟩) fun _ => ⟨rfl, rfl, rfl⟩
  · intro r
    exact ⟨rfl, by simp [Resident.snapshot], rfl, rfl⟩

end Housed

theorem Resident.Faithful.installed {r : Resident} {bank : Bool}
    (shown : (r.banks bank).snapshot.jobId = r.id ∧ (r.banks bank).snapshot.entityExists = true) :
    (r.installed bank).Faithful where
  present _ := shown
  absent gone := absurd shown.2 (by simpa [Resident.installed] using gone)

theorem Pool.setGate_bare (p : Pool c) (i : Slot c) (kind : GateKind) (g : Gate) (j : Slot c) :
    ((p.setGate i kind g).residents j).bare = (p.residents j).bare := Pool.modify_field (·.bare) (by intro r; rfl) j

theorem Pool.activateSources_bare (p : Pool c) (i : Slot c) (plan : List GateKind) (j : Slot c) :
    ((p.activateSources i plan).residents j).bare = (p.residents j).bare := by
  rw [Pool.activateSources]
  induction plan generalizing p with
  | nil => rfl
  | cons kind plan ih =>
      rw [List.foldl_cons, ih]
      exact p.setGate_bare i kind _ j

theorem Pool.welcome_residents (p : Pool c) {victim : Option (Slot c)} {i : Slot c} (apart : victim ≠ some i) (bank : Bool)
    (sequence : UInt64) (j : Slot c) : (p.welcome victim i bank sequence).residents j =
      if victim = some j then { timerGeneration := fun t => (p.residents j).timerGeneration t + 1 }
      else if j = i then (p.residents i).born bank sequence
      else p.residents j := by
  cases victim with
  | none =>
      rw [if_neg (by simp)]
      exact p.modify_residents i j fun r => r.born bank sequence
  | some v =>
      have other : v ≠ i := fun same => apart (congrArg some same)
      have value := (p.modify i fun r => r.born bank sequence).resetSlot_apply v j true
      rw [Pool.modify_residents, Pool.modify_residents, if_neg other] at value
      refine value.trans ?_
      by_cases lost : v = j
      · subst lost
        simp
      · simp [lost, Ne.symm lost]

theorem Steady.trans {u : Pool c} (first : Steady p q) (second : Steady q u) : Steady p u :=
  ⟨second.normal.trans first.normal, second.mode.trans first.mode, second.permit.trans first.permit⟩

theorem Pool.welcome_steady (p : Pool c) (victim : Option (Slot c)) (i : Slot c) (bank : Bool) (sequence : UInt64) :
    Steady p (p.welcome victim i bank sequence) := by
  cases victim <;> exact ⟨rfl, rfl, rfl⟩

namespace Housed

variable {turn : Turn c}

theorem install (housed : Housed p live victim) {other : Option (Slot c)} (steady : Steady p q)
    (faithful : ∀ j, (q.residents j).Faithful) (plan : List GateKind)
    (settled : Settled (q.activateSources i plan) live other) : Housed (q.activateSources i plan) live other := by
  have all := steady.trans (Inner.activateSources q i plan).steady
  refine ⟨settled, all.normal.trans housed.normal, all.normal ▸ housed.bounded, all.permit ▸ housed.marked, ?_, fun j => ?_⟩
  · intro running
    exact all.permit.trans (housed.calm (all.mode ▸ running))
  · exact (faithful j).stays (.of_bare (q.activateSources_bare i plan j))

theorem installEvent (housed : Housed p live victim) (existing : (p.residents turn.slot).existing = true)
    (shown : ((p.residents turn.slot).banks turn.bank).snapshot.jobId = (p.residents turn.slot).id ∧
      ((p.residents turn.slot).banks turn.bank).snapshot.entityExists = true)
    (other : turn.event.eventType ≠ .jobCreated) : Housed (State.installPool p e turn) live victim := by
  have settled : Settled (State.installPool p e turn) live victim := housed.settled.installEvent existing shown.2 other
  rw [State.installPool_event other] at settled ⊢
  have steady : Steady p (p.modify turn.slot fun r => r.installed turn.bank) := ⟨rfl, rfl, rfl⟩
  apply housed.install steady _ turn.plan settled
  intro j
  rw [Pool.modify_residents]
  split
  · exact .installed shown
  · exact housed.faithful j

theorem installCreation (housed : Housed p live e.victim) (reserved : (p.residents turn.slot).reserved = true)
    (unborn : (p.residents turn.slot).existing = false) (ticket : (p.residents turn.slot).ticket = e.victim.isSome)
    (shown : ((p.residents turn.slot).banks turn.bank).snapshot.jobId = (p.residents turn.slot).id ∧
      ((p.residents turn.slot).banks turn.bank).snapshot.entityExists = true)
    (created : turn.event.eventType = .jobCreated) : Housed (State.installPool p e turn) live none := by
  have settled := housed.settled.installCreation reserved unborn ticket shown.2 created
  rw [State.installPool_creation created] at settled ⊢
  apply housed.install (p.welcome_steady _ _ _ _) _ turn.plan settled
  intro j
  have apart : e.victim ≠ some turn.slot := by
    intro same
    have claim := (housed.settled.slotted.claimed turn.slot).2 same
    have existing := ((housed.settled.kept.residents turn.slot).claimed claim).1
    simp [unborn] at existing
  rw [p.welcome_residents apart]
  split
  · exact .of_fresh (Resident.isBlank.fresh rfl)
  split
  · exact (Resident.Faithful.installed shown).alike rfl rfl rfl rfl
  · exact housed.faithful j

end Housed

theorem Entry.Formed.occupies_some (formed : e.Formed) (critical : e.critical = true) (other : e.input ≠ .shutdown) :
    1 ≤ ∑ i : Slot c, ∑ kind, (e.occupies i kind).toNat := by
  obtain ⟨seated, gated⟩ := formed.critical critical other
  obtain ⟨i, seat⟩ := Option.isSome_iff_exists.1 seated
  obtain ⟨kind, gate⟩ := Option.isSome_iff_exists.1 gated
  calc 1 = (e.occupies i kind).toNat := by simp [Entry.occupies, critical, seat, gate]
    _ ≤ ∑ other, (e.occupies i other).toNat :=
        Finset.single_le_sum (f := fun other => (e.occupies i other).toNat) (fun _ _ => Nat.zero_le _) (Finset.mem_univ kind)
    _ ≤ ∑ j, ∑ other, (e.occupies j other).toNat :=
        Finset.single_le_sum (f := fun j => ∑ other, (e.occupies j other).toNat) (fun _ _ => Nat.zero_le _) (Finset.mem_univ i)

theorem countP_critical_le (formed : ∀ e ∈ live, e.Formed) :
    (live.countP fun e => e.critical && !(e.input = .shutdown)) ≤ ∑ i : Slot c, ∑ kind, live.countP (·.occupies i kind) := by
  induction live with
  | nil => simp
  | cons e live ih =>
      have before := ih fun f member => formed f (List.mem_cons_of_mem e member)
      have step : ∀ (i : Slot c) kind, (e :: live).countP (·.occupies i kind) =
          live.countP (·.occupies i kind) + (e.occupies i kind).toNat := by
        intro i kind
        rw [List.countP_cons]
        cases e.occupies i kind <;> rfl
      simp only [step, Finset.sum_add_distrib]
      rw [List.countP_cons]
      split
      · next counted =>
        simp only [Bool.and_eq_true, Bool.not_eq_true', decide_eq_false_iff_not] at counted
        have own := (formed e List.mem_cons_self).occupies_some counted.1 counted.2
        omega
      · omega

theorem Fits.critical_le (fits : Fits p live) (kept : p.Kept) :
    (live.countP fun e => e.critical && !(e.input = .shutdown)) ≤ p.permits := by
  apply (countP_critical_le fits.formed).trans
  apply Finset.sum_le_sum
  intro i _
  apply Finset.sum_le_sum
  intro kind _
  have length := congrArg List.length (fits.queued i kind)
  rw [List.length_map, ← List.countP_eq_length_filter, listed] at length
  rw [length]
  split
  · exact Nat.zero_le _
  · next queued =>
    have permit : ((p.residents i).gates kind).permit = true := ((kept.residents i).gates kind).queued queued
    simp [permit]

theorem length_le_countP (formed : ∀ e ∈ live, e.Formed) : live.length ≤ (live.countP fun e => !e.critical) +
    (live.countP fun e => e.critical && !(e.input = .shutdown)) + live.countP fun e => e.input = .shutdown := by
  induction live with
  | nil => simp
  | cons e live ih =>
      have before := ih fun f member => formed f (List.mem_cons_of_mem e member)
      simp only [List.length_cons, List.countP_cons]
      by_cases marker : e.input = .shutdown
      · simp [marker]
        omega
      · cases critical : e.critical <;> simp [marker, critical] <;> omega

theorem Setup.totalCapacity_eq (c : Setup) : c.totalCapacity = c.normalCapacity + c.criticalReserve := by
  have some := c.facts.2.2.2.1
  rw [Config.totalCapacity] at some ⊢
  split at some
  · exact absurd rfl some
  · next reserve =>
    rw [if_neg reserve]
    split at some
    · exact absurd rfl some
    · next fits => rw [if_neg fits]

theorem Housed.room (housed : Housed p live victim) : live.length < c.totalCapacity := by
  have all := length_le_countP housed.settled.fits.formed
  have critical := housed.settled.fits.critical_le housed.settled.kept
  have free := housed.settled.kept.reserve_free
  have balanced := housed.settled.kept.balanced
  have normal := housed.normal
  have bounded := housed.bounded
  have marked := housed.marked
  rw [c.totalCapacity_eq]
  omega

theorem Housed.seal (housed : Housed p [] victim) (unleased : p.hasSourceLeaseOwners = false) :
    Housed { p.cancelGates.retireShutdownGate with mode := .sealed } [] victim ∧
      p.cancelGates.retireShutdownGate.criticalCount = 0 := by
  obtain ⟨settled, none⟩ := housed.settled.seal unleased
  have cancelled := housed.shift (.cancelGates housed.settled.kept) (Inner.cancelGates p).steady
  refine ⟨⟨?_, cancelled.normal, cancelled.bounded, Nat.zero_le _, nofun, cancelled.faithful⟩, none⟩
  exact settled.frame rfl rfl settled.kept.balanced settled.kept.clean

theorem Housed.seeded {jobs : List Snapshot} (seedable : Seedable jobs) (inside : jobs.length ≤ c.maxJobs) :
    Housed (Pool.seeded c jobs) [] none where
  settled := Pool.seeded_settled seedable inside
  normal := rfl
  bounded := Nat.zero_le _
  marked := Nat.zero_le _
  calm _ := rfl
  faithful := Pool.seeded_faithful seedable

end Sitometron.Core.Orchestrator
