import Sitometron.Proof.Orchestrator.Turns
import Sitometron.Proof.Orchestrator.Seats

/-!
# How slots change hands

The selection of a retirement and the installation of a turn, the two places where the writer moves the spare slot.
-/

namespace Sitometron.Core.Orchestrator

variable {c : Setup} {p q : Pool c} {i j : Slot c} {e : Entry c} {live : List (Entry c)} {victim : Option (Slot c)}

theorem oldestClosed_spec (count : Nat) (snapshotAt : Nat → Option Snapshot) (sequenceAt : Nat → UInt64) :
    match oldestClosed count snapshotAt sequenceAt with
    | none => ∀ n < count, (snapshotAt n).any isClosed = false
    | some oldest => oldest < count ∧ (snapshotAt oldest).any isClosed = true ∧
        ∀ n < count, (snapshotAt n).any isClosed = true → sequenceAt oldest ≤ sequenceAt n := by
  rw [oldestClosed]
  induction count with
  | zero => exact fun n bound => absurd bound (Nat.not_lt_zero n)
  | succ count ih =>
      rw [List.range_succ, List.foldl_append]
      generalize (List.range count).foldl _ none = before at ih ⊢
      simp only [List.foldl_cons, List.foldl_nil]
      cases closed : (snapshotAt count).any isClosed with
      | false =>
          simp only [Bool.false_and, Bool.false_eq_true, if_false]
          cases before with
          | none =>
              intro n bound
              rcases Nat.lt_succ_iff_lt_or_eq.1 bound with earlier | rfl
              · exact ih n earlier
              · exact closed
          | some oldest =>
              refine ⟨Nat.lt_succ_of_lt ih.1, ih.2.1, fun n bound other => ?_⟩
              rcases Nat.lt_succ_iff_lt_or_eq.1 bound with earlier | rfl
              · exact ih.2.2 n earlier other
              · simp [closed] at other
      | true =>
          cases before with
          | none =>
              refine ⟨Nat.lt_succ_self count, closed, fun n bound other => ?_⟩
              rcases Nat.lt_succ_iff_lt_or_eq.1 bound with earlier | rfl
              · simp [ih n earlier] at other
              · exact UInt64.le_refl _
          | some oldest =>
              by_cases older : sequenceAt count < sequenceAt oldest
              · simp only [Option.all_some, older, decide_true, Bool.and_self, if_true]
                refine ⟨Nat.lt_succ_self count, closed, fun n bound other => ?_⟩
                rcases Nat.lt_succ_iff_lt_or_eq.1 bound with earlier | rfl
                · exact UInt64.le_trans (UInt64.le_of_lt older) (ih.2.2 n earlier other)
                · exact UInt64.le_refl _
              · simp only [Option.all_some, older, decide_false, Bool.and_false, Bool.false_eq_true, if_false]
                refine ⟨Nat.lt_succ_of_lt ih.1, ih.2.1, fun n bound other => ?_⟩
                rcases Nat.lt_succ_iff_lt_or_eq.1 bound with earlier | rfl
                · exact ih.2.2 n earlier other
                · exact UInt64.not_lt.1 older

def Resident.isClosed (r : Resident) : Prop := r.existing = true ∧ Core.isClosed r.snapshot = true

theorem Pool.oldestVictim_spec (p : Pool c) :
    match p.oldestVictim with
    | none => ∀ j, ¬(p.residents j).isClosed
    | some i => (p.residents i).isClosed ∧
        ∀ j, (p.residents j).isClosed → (p.residents i).createdSequence ≤ (p.residents j).createdSequence := by
  have spec := oldestClosed_spec (c.maxJobs + 1)
    (fun n => ((if inside : n < c.maxJobs + 1 then some (p.residents ⟨n, inside⟩) else none).filter (·.existing)).map
      (·.snapshot))
    (fun n => ((if inside : n < c.maxJobs + 1 then some (p.residents ⟨n, inside⟩) else none).map (·.createdSequence)).getD 0)
  have any : ∀ j : Slot c, Option.any Core.isClosed
      (((if inside : j.val < c.maxJobs + 1 then some (p.residents ⟨j.val, inside⟩) else none).filter (·.existing)).map
        (·.snapshot)) = true ↔ (p.residents j).isClosed := by
    intro j
    rw [dif_pos j.isLt]
    cases existing : (p.residents j).existing <;> simp [Option.filter, existing, Resident.isClosed]
  rw [Pool.oldestVictim]
  dsimp only
  generalize oldestClosed (c.maxJobs + 1) _ _ = oldest at spec ⊢
  cases oldest with
  | none =>
      intro j closed
      have none := spec j.val j.isLt
      rw [(any j).2 closed] at none
      cases none
  | some n =>
      obtain ⟨inside, closed, least⟩ := spec
      simp only [Option.bind_some, dif_pos inside]
      refine ⟨(any ⟨n, inside⟩).1 closed, fun j other => ?_⟩
      have before := least j.val j.isLt ((any j).2 other)
      simpa only [dif_pos inside, dif_pos j.isLt, Option.map_some, Option.getD_some] using before

theorem Pool.oldestVictim_some (oldest : p.oldestVictim = some i) : (p.residents i).isClosed := by
  have spec := p.oldestVictim_spec
  rw [oldest] at spec
  exact spec.1

theorem Pool.isCrowded.existing (crowded : p.isCrowded) (spare : (p.residents p.spare).existing = false) (other : i ≠ p.spare) :
    (p.residents i).existing = true := by
  by_contra absent
  have few : ((List.finRange (c.maxJobs + 1)).countP fun j => (p.residents j).existing) + 2 ≤ c.maxJobs + 1 :=
    countP_finRange_add_two other (by simpa using absent) spare
  have many : c.maxJobs ≤ (List.finRange (c.maxJobs + 1)).countP fun j => (p.residents j).existing := crowded
  omega

theorem Pool.ordinaryFree_some (free : p.ordinaryFree = some i) : i ≠ p.spare ∧ (p.residents i).reserved = false := by
  have facts := List.find?_some free
  simpa using facts

theorem Pool.withdraw_ticket (slotted : Slotted p victim) (ticket : (p.residents i).ticket = true) (k : Slot c) :
    ((p.modify i fun r => { r with ticket := false }).residents k).ticket = false := by
  rw [Pool.modify_residents]
  split
  · rfl
  · next other =>
    by_contra second
    have first := ((slotted.ticket i).1 ticket).1
    exact other (((slotted.ticket k).1 (by simpa using second)).1.trans first.symm)

namespace Settled

theorem exchange (settled : Settled p live none) (ticket : (p.residents i).ticket = true) (free : p.ordinaryFree = some j) :
    Settled { p.modify i (fun r => { r with ticket := false }) with spare := j } live none := by
  have unreserved := (Pool.ordinaryFree_some free).2
  have there := ((settled.slotted.ticket i).1 ticket).2
  have sound := settled.kept.residents i
  have kept : Pool.Kept (p.modify i fun r => { r with ticket := false }) := by
    refine settled.kept.modify (i := i) (fun r => { r with ticket := false }) ?_ ?_ rfl
    · exact ⟨fun free => absurd there (by simpa using free), sound.gates, sound.unleased, sound.unretained, sound.closed,
        nofun, sound.claimed⟩
    · rintro rfl
      exact settled.kept.spare
  have fits : Fits (p.modify i fun r => { r with ticket := false }) live := settled.fits.modify i fun _ => ⟨rfl, rfl, rfl, rfl⟩
  have none := Pool.withdraw_ticket settled.slotted ticket
  have id := Pool.modify_field (p := p) (i := i) (f := fun r => { r with ticket := false }) (·.id) fun _ => rfl
  have reserved := Pool.modify_field (p := p) (i := i) (f := fun r => { r with ticket := false }) (·.reserved) fun _ => rfl
  have claimed := Pool.modify_field (p := p) (i := i) (f := fun r => { r with ticket := false }) (·.claimed) fun _ => rfl
  have existing := Pool.modify_field (p := p) (i := i) (f := fun r => { r with ticket := false }) (·.existing) fun _ => rfl
  have held := Pool.modify_field (p := p) (i := i) (f := fun r => { r with ticket := false }) (·.isHeld) fun _ => rfl
  generalize p.modify i (fun r => { r with ticket := false }) = q at *
  refine ⟨⟨kept.residents, kept.balanced, ?_, kept.clean⟩, ⟨fits.formed, fits.seated, fits.queued, fits.claims⟩,
    ⟨fun k l => ?_, fun k => ?_, fun k => ?_, nofun⟩, fun k => ?_⟩
  · show (q.residents j).existing = false
    rw [existing, (settled.kept.residents j).blank unreserved]
  · show (q.residents k).reserved = true → (q.residents l).reserved = true → (q.residents k).id = (q.residents l).id → k = l
    rw [id, id, reserved, reserved]
    exact settled.slotted.distinct k l
  · show (q.residents k).ticket = true ↔ k = j ∧ (q.residents k).reserved = true
    rw [none, reserved]
    constructor
    · nofun
    · rintro ⟨rfl, taken⟩
      simp [unreserved] at taken
  · show (q.residents k).claimed = true ↔ _
    rw [claimed]
    exact settled.slotted.claimed k
  · show (q.residents k).isHeld
    rw [held]
    exact settled.held k

theorem claimVictim (settled : Settled p live none) (crowded : p.isCrowded)
    (reserved : (p.residents p.spare).reserved = true) (existing : (p.residents i).existing = true)
    (unowned : (p.residents i).hasOwnership = false) :
    Settled (p.modify i fun r => { r with claimed := true }) live (some i) := by
  obtain ⟨none, free⟩ := Resident.hasOwnership_eq_false.1 unowned
  have sound := settled.kept.residents i
  have there := sound.reserved_of_existing existing
  have full : ∀ k, (p.residents k).reserved = true := by
    intro k
    by_cases same : k = p.spare
    · exact same ▸ reserved
    · exact (settled.kept.residents k).reserved_of_existing (crowded.existing settled.kept.spare same)
  have kept : Pool.Kept (p.modify i fun r => { r with claimed := true }) := by
    refine settled.kept.modify (i := i) (fun r => { r with claimed := true }) ?_ ?_ rfl
    · exact ⟨fun free => absurd there (by simpa using free), sound.gates, sound.unleased, sound.unretained, sound.closed,
        sound.ticket, fun _ => ⟨existing, none, free⟩⟩
    · rintro rfl
      exact settled.kept.spare
  have id := Pool.modify_field (p := p) (i := i) (f := fun r => { r with claimed := true }) (·.id) fun _ => rfl
  have same := Pool.modify_field (p := p) (i := i) (f := fun r => { r with claimed := true }) (·.reserved) fun _ => rfl
  have ticket := Pool.modify_field (p := p) (i := i) (f := fun r => { r with claimed := true }) (·.ticket) fun _ => rfl
  have held := Pool.modify_field (p := p) (i := i) (f := fun r => { r with claimed := true }) (·.isHeld) fun _ => rfl
  refine ⟨kept, settled.fits.modify i fun _ => ⟨rfl, rfl, rfl, rfl⟩,
    ⟨fun k l => ?_, fun k => ?_, fun k => ?_, fun _ k => ?_⟩, fun k => ?_⟩
  · rw [id, id, same, same]
    exact settled.slotted.distinct k l
  · rw [ticket, same]
    exact settled.slotted.ticket k
  · rw [Pool.modify_residents]
    by_cases here : k = i
    · simp [here]
    · have unclaimed := settled.slotted.claimed k
      simp only [here, if_false]
      simp [unclaimed, Ne.symm here]
  · rw [same]
    exact full k
  · rw [held]
    exact settled.held k

end Settled

structure Births (p : Pool c) (i : Slot c) (victim : Option (Slot c)) (q : Pool c) : Prop where
  reserved : (p.residents i).reserved = true
  unborn : (p.residents i).existing = false
  ticket : (p.residents i).ticket = victim.isSome
  born : (q.residents i).existing = true ∧ (q.residents i).ticket = false
  same : (q.residents i).id = (p.residents i).id ∧ (q.residents i).reserved = (p.residents i).reserved ∧
    (q.residents i).claims = (p.residents i).claims ∧ (q.residents i).gates = (p.residents i).gates ∧
    (q.residents i).claimed = (p.residents i).claimed
  gone : ∀ v, victim = some v → (q.residents v).isBlank
  others : ∀ k ≠ i, victim ≠ some k → q.residents k = p.residents k
  spare : q.spare = victim.getD p.spare
  balanced : q.criticalCount = q.permits + q.shutdownPermit.toNat
  clean : q.faults = p.faults

namespace Births

theorem apart (births : Births p i victim q) (settled : Settled p live victim) : victim ≠ some i := by
  intro same
  have claim := (settled.slotted.claimed i).2 same
  have existing := ((settled.kept.residents i).claimed claim).1
  simp [births.unborn] at existing

theorem sound (births : Births p i victim q) (settled : Settled p live victim) (k : Slot c) : (q.residents k).Sound := by
  by_cases here : k = i
  · subst here
    have sound := settled.kept.residents k
    obtain ⟨-, reserved, -, gates, claimed⟩ := births.same
    exact {
      blank := fun free => absurd births.reserved (by rw [← reserved, free]; simp)
      gates := gates ▸ sound.gates
      unleased := gates ▸ sound.unleased
      unretained := gates ▸ sound.unretained
      closed := fun absent => absurd births.born.1 (by simp [absent])
      ticket := fun ticket => absurd ticket (by simp [births.born.2])
      claimed := fun claim => absurd ((settled.slotted.claimed k).1 (claimed ▸ claim)) (births.apart settled) }
  · by_cases lost : victim = some k
    · exact .blank_sound (births.gone k lost)
    · rw [births.others k here lost]
      exact settled.kept.residents k

theorem unseated (settled : Settled p live victim) {v : Slot c} (lost : victim = some v) :
    (p.residents v).claims = 0 ∧ ∀ kind, (p.gate v kind).queuedSequence = 0 := by
  have claim := (settled.slotted.claimed v).2 lost
  obtain ⟨-, none, free⟩ := (settled.kept.residents v).claimed claim
  exact ⟨none, fun kind => (Gate.isOwned_eq_false.1 (free kind)).1⟩

theorem fits (births : Births p i victim q) (settled : Settled p live victim) : Fits q live := by
  obtain ⟨id, reserved, claims, gates, -⟩ := births.same
  refine ⟨settled.fits.formed, fun e member k seat => ?_, fun k kind => ?_, fun k => ?_⟩
  · have before := settled.fits.seated e member k seat
    by_cases here : k = i
    · subst here
      rwa [id, reserved]
    · have kept : victim ≠ some k := by
        intro lost
        obtain ⟨none, free⟩ := unseated settled lost
        exact settled.fits.unseated none free e member seat
      rwa [births.others k here kept]
  · have before := settled.fits.queued k kind
    by_cases here : k = i
    · subst here
      rwa [Pool.gate, gates]
    · by_cases lost : victim = some k
      · rw [before, (unseated settled lost).2 kind, Pool.gate, births.gone k lost]
      · rwa [Pool.gate, births.others k here lost]
  · have before := settled.fits.claims k
    by_cases here : k = i
    · subst here
      rwa [claims]
    · by_cases lost : victim = some k
      · rw [births.gone k lost, ← before, (unseated settled lost).1]
      · rwa [births.others k here lost]

theorem slotted (births : Births p i victim q) (settled : Settled p live victim) : Slotted q none := by
  obtain ⟨id, reserved, -, -, claimed⟩ := births.same
  have apart := births.apart settled
  -- A slot that is reserved is one that was, and it keeps its identity.
  have kept : ∀ k, (q.residents k).reserved = true → (p.residents k).reserved = true ∧ (q.residents k).id = (p.residents k).id := by
    intro k there
    by_cases here : k = i
    · subst here
      exact ⟨births.reserved, id⟩
    · by_cases lost : victim = some k
      · rw [births.gone k lost] at there
        cases there
      · rw [births.others k here lost] at there ⊢
        exact ⟨there, rfl⟩
  refine ⟨fun k l first second same => ?_, fun k => ?_, fun k => ?_, nofun⟩
  · obtain ⟨there, mine⟩ := kept k first
    obtain ⟨also, yours⟩ := kept l second
    exact settled.slotted.distinct k l there also (mine.symm.trans (same.trans yours))
  · rw [births.spare]
    by_cases here : k = i
    · subst here
      simp only [births.born.2, Bool.false_eq_true, false_iff, not_and]
      intro spare
      cases victim with
      | none =>
          have ticket := (settled.slotted.ticket k).2 ⟨spare, births.reserved⟩
          simp [births.ticket] at ticket
      | some v => exact absurd (congrArg some spare.symm) apart
    · by_cases lost : victim = some k
      · rw [births.gone k lost]
        simp
      · rw [births.others k here lost, settled.slotted.ticket k]
        cases victim with
        | none => rfl
        | some v =>
            have ticket : (p.residents i).ticket = true := births.ticket
            have spare := ((settled.slotted.ticket i).1 ticket).1
            constructor
            · rintro ⟨there, -⟩
              exact absurd (there.trans spare.symm) here
            · rintro ⟨there, -⟩
              exact absurd (congrArg some there.symm) lost
  · simp only [reduceCtorEq, iff_false, Bool.not_eq_true]
    by_contra claim
    have given : (q.residents k).claimed = true := by simpa using claim
    by_cases here : k = i
    · subst here
      exact apart ((settled.slotted.claimed k).1 (claimed ▸ given))
    · by_cases lost : victim = some k
      · rw [births.gone k lost] at given
        cases given
      · rw [births.others k here lost] at given
        exact lost ((settled.slotted.claimed k).1 given)

theorem settled (births : Births p i victim q) (before : Settled p live victim) : Settled q live none := by
  refine ⟨⟨births.sound before, births.balanced, ?_, births.clean ▸ before.kept.clean⟩, births.fits before,
    births.slotted before, fun k => ?_⟩
  · rw [births.spare]
    cases lost : victim with
    | some v =>
        rw [Option.getD_some, births.gone v lost]
    | none =>
        have elsewhere : p.spare ≠ i := by
          rintro rfl
          have ticket := (before.slotted.ticket p.spare).2 ⟨rfl, births.reserved⟩
          simp [births.ticket, lost] at ticket
        rw [Option.getD_none, births.others p.spare elsewhere (by simp [lost])]
        exact before.kept.spare
  · by_cases here : k = i
    · subst here
      exact fun _ absent => absurd births.born.1 (by simp [absent])
    · by_cases lost : victim = some k
      · rw [births.gone k lost]
        nofun
      · rw [births.others k here lost]
        exact before.held k

end Births

def Resident.installed (r : Resident) (bank : Bool) : Resident :=
  { r with active := bank, existing := (r.banks bank).snapshot.entityExists }

def Resident.born (r : Resident) (bank : Bool) (sequence : UInt64) : Resident :=
  { r.installed bank with createdSequence := sequence, ticket := false }

theorem State.installPool_event {turn : Turn c} (other : turn.event.eventType ≠ .jobCreated) :
    State.installPool p e turn = (p.modify turn.slot fun r => r.installed turn.bank).activateSources turn.slot turn.plan := by
  rw [State.installPool]
  simp only [ne_eq, other, not_false_eq_true, if_true]
  rfl

def Pool.welcome (p : Pool c) (victim : Option (Slot c)) (i : Slot c) (bank : Bool) (sequence : UInt64) : Pool c :=
  match victim with
  | none => p.modify i fun r => r.born bank sequence
  | some v => { (p.modify i fun r => r.born bank sequence).resetSlot v true with spare := v }

theorem State.installPool_creation {turn : Turn c} (created : turn.event.eventType = .jobCreated) :
    State.installPool p e turn =
      (p.welcome e.victim turn.slot turn.bank turn.event.sequence).activateSources turn.slot turn.plan := by
  rw [State.installPool]
  simp only [created, ne_eq, not_true_eq_false, if_false, Pool.modify_modify, Pool.welcome]
  cases e.victim <;> rfl

theorem Settled.installEvent {turn : Turn c} (settled : Settled p live victim)
    (existing : (p.residents turn.slot).existing = true)
    (present : ((p.residents turn.slot).banks turn.bank).snapshot.entityExists = true)
    (other : turn.event.eventType ≠ .jobCreated) : Settled (State.installPool p e turn) live victim := by
  have sound := settled.kept.residents turn.slot
  have there := sound.reserved_of_existing existing
  have kept : Pool.Kept (p.modify turn.slot fun r => r.installed turn.bank) := by
    refine settled.kept.modify (i := turn.slot) (fun r => r.installed turn.bank) ?_ ?_ rfl
    · exact ⟨fun free => absurd there (by simpa [Resident.installed] using free), sound.gates, sound.unleased,
        sound.unretained, fun absent => absurd present (by simpa [Resident.installed] using absent), fun ticket => absurd existing (by simp [sound.ticket ticket]),
        fun claim => ⟨present, (sound.claimed claim).2⟩⟩
    · intro spare
      exact absurd existing (by rw [spare, settled.kept.spare]; simp)
  have installed : Settled (p.modify turn.slot fun r => r.installed turn.bank) live victim := by
    refine ⟨kept, settled.fits.modify turn.slot fun _ => ⟨rfl, rfl, rfl, rfl⟩,
      settled.slotted.modify turn.slot fun _ => ⟨rfl, rfl, rfl, rfl⟩, fun k => ?_⟩
    rw [Pool.modify_residents]
    split
    · exact fun _ absent => absurd present (by simpa [Resident.installed] using absent)
    · exact settled.held k
  rw [State.installPool_event other]
  apply installed.shift
  apply Shifts.activateSources installed.kept
  rw [Pool.modify_residents, if_pos rfl]
  exact present

theorem Births.welcome (settled : Settled p live victim) {bank : Bool} {sequence : UInt64}
    (reserved : (p.residents i).reserved = true) (unborn : (p.residents i).existing = false)
    (ticket : (p.residents i).ticket = victim.isSome)
    (present : ((p.residents i).banks bank).snapshot.entityExists = true) :
    Births p i victim (p.welcome victim i bank sequence) := by
  have here : (p.modify i fun r => r.born bank sequence).residents i = (p.residents i).born bank sequence := by
    rw [Pool.modify_residents, if_pos rfl]
  have others : ∀ k ≠ i, (p.modify i fun r => r.born bank sequence).residents k = p.residents k := by
    intro k other
    rw [Pool.modify_residents, if_neg other]
  have balanced : (p.modify i fun r => r.born bank sequence).criticalCount =
      (p.modify i fun r => r.born bank sequence).permits + p.shutdownPermit.toNat :=
    Pool.balanced_modify settled.kept.balanced _ rfl
  cases victim with
  | none =>
      exact {
        reserved, unborn, ticket, balanced
        born := by
          rw [Pool.welcome, here]
          exact ⟨present, rfl⟩
        same := by
          rw [Pool.welcome, here]
          exact ⟨rfl, rfl, rfl, rfl, rfl⟩
        gone := nofun
        others := fun k other _ => others k other
        spare := rfl
        clean := rfl }
  | some v =>
      have apart : i ≠ v := by
        rintro rfl
        have claim := (settled.slotted.claimed i).2 rfl
        have existing := ((settled.kept.residents i).claimed claim).1
        simp [unborn] at existing
      have value := fun k => (p.modify i fun r => r.born bank sequence).resetSlot_residents v k true
      have kept : (p.welcome (some v) i bank sequence).residents i = (p.residents i).born bank sequence := by
        have elsewhere := value i
        rw [if_neg apart] at elsewhere
        exact elsewhere.trans here
      exact {
        reserved, unborn, ticket
        balanced := Pool.resetSlot_balanced balanced v true
        born := by
          rw [kept]
          exact ⟨present, rfl⟩
        same := by
          rw [kept]
          exact ⟨rfl, rfl, rfl, rfl, rfl⟩
        gone := by
          rintro k ⟨⟩
          have gone := value v
          rw [if_pos rfl] at gone
          exact gone
        others := by
          intro k other stays
          have elsewhere := value k
          rw [if_neg fun same => stays (congrArg some same.symm)] at elsewhere
          exact elsewhere.trans (others k other)
        spare := rfl
        clean := rfl }

theorem Settled.installCreation {turn : Turn c} (settled : Settled p live e.victim)
    (reserved : (p.residents turn.slot).reserved = true) (unborn : (p.residents turn.slot).existing = false)
    (ticket : (p.residents turn.slot).ticket = e.victim.isSome)
    (present : ((p.residents turn.slot).banks turn.bank).snapshot.entityExists = true)
    (created : turn.event.eventType = .jobCreated) : Settled (State.installPool p e turn) live none := by
  have births : Births p turn.slot e.victim (p.welcome e.victim turn.slot turn.bank turn.event.sequence) :=
    .welcome settled reserved unborn ticket present
  have installed := births.settled settled
  rw [State.installPool_creation created]
  exact installed.shift (.activateSources installed.kept births.born.1 _)

end Sitometron.Core.Orchestrator
