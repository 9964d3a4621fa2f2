import Sitometron.Proof.Orchestrator.Decisions
import Sitometron.Proof.Orchestrator.Residency
import Sitometron.Proof.Orchestrator.Serving

/-!
# The course of a turn

What the writer relies on between two sections of a turn, whatever the producers do meanwhile: the slot that it has found
stays with its Job, and the bank that it has written stays what the reducer made of the snapshot.
-/

namespace Sitometron.Core.Orchestrator

variable {c : Setup} {lib : Libraries} {p q : Pool c} {s t : State c} {e : Entry c} {slot : Option (Slot c)} {turn : Turn c}

def Phase.holder? : Phase c → Option (Entry c)
  | .idle | .completing _ _ => none
  | .dequeued e | .started e | .found e _ | .selected e _ | .rejecting e _ | .decided e _ _ _ | .prepared e _
  | .attempted e _ | .committed e _ | .dispatching e _ _ | .performing e _ _ _ | .failing e _ | .undefined e => some e

def Phase.victim? : Phase c → Option (Slot c)
  | .selected e _ | .rejecting e _ | .decided e _ _ _ | .prepared e _ | .attempted e _ | .committed e _ | .failing e _ =>
      e.victim
  | _ => none

def State.live (s : State c) : List (Entry c) := s.writer.holder?.toList ++ s.fifo.toList

def Pool.Stands (p q : Pool c) : Prop := ∀ j, (p.residents j).reserved = true → (p.residents j).Stays (q.residents j)

structure Located (p : Pool c) (e : Entry c) (slot : Option (Slot c)) : Prop where
  seated : ∀ i, e.resident = some i → slot = some i
  found : ∀ i, slot = some i → (p.residents i).reserved = true ∧ (p.residents i).id = e.input.jobId

structure Chosen (p : Pool c) (e : Entry c) : Prop where
  creation : e.input.isCreation = true → ∀ i, e.resident = some i → (p.residents i).ticket = e.victim.isSome
  other : e.input.isCreation = false → e.victim = none

def Pool.shown (p : Pool c) (e : Entry c) : Option (Slot c) → Snapshot
  | none => initialSnapshot e.input.jobId e.input.jobId
  | some i => (p.residents i).snapshot

structure Planned (lib : Libraries) (p : Pool c) (e : Entry c) (turn : Turn c) (proposal : PreEnvelopeProposal) : Prop where
  located : Located p e (some turn.slot)
  decides : Decides lib (p.residents turn.slot).snapshot e.input proposal
  bank : turn.bank = !(p.residents turn.slot).active
  written : (p.residents turn.slot).banks turn.bank = apply lib (p.residents turn.slot).snapshot proposal
  event : turn.event.eventType = proposal.eventType ∧ turn.event.jobId = proposal.jobId ∧ turn.event.payload = proposal.payload
  plan : turn.plan = planDerivedSources (apply lib (p.residents turn.slot).snapshot proposal) proposal.eventType

def Course (lib : Libraries) (p : Pool c) : Phase c → Prop
  | .idle | .completing _ _ | .rejecting _ _ => True
  | .dequeued e | .started e => e.victim = none
  | .found e slot => e.victim = none ∧ Located p e slot
  | .selected e slot => Located p e slot ∧ Chosen p e
  | .decided e slot before proposal =>
      Located p e slot ∧ Chosen p e ∧ before = p.shown e slot ∧ Decides lib before e.input proposal
  | .prepared e turn | .attempted e turn | .committed e turn => Chosen p e ∧ ∃ proposal, Planned lib p e turn proposal
  | .dispatching _ turn _ | .performing _ turn _ _ => (p.residents turn.slot).existing = true ∧
      (p.residents turn.slot).reserved = true
  | .failing _ fault => fault.isBreach = false
  | .undefined _ => False

namespace Pool.Stands

theorem refl (p : Pool c) : p.Stands p := fun _ _ => .refl _

theorem trans {u : Pool c} (first : p.Stands q) (second : q.Stands u) : p.Stands u := fun j reserved =>
  (first j reserved).trans (second j ((first j reserved).reserved.trans reserved))

theorem of_shifts (shifts : Shifts p q) : p.Stands q := fun j _ => .of_bare (shifts.same j).bare

theorem of_residents (same : q.residents = p.residents) : p.Stands q := fun j _ => by
  rw [same]
  exact .refl _

theorem of_grows (grows : ∀ j, (p.residents j).Grows (q.residents j)) : p.Stands q := fun j reserved =>
  (grows j).stays reserved

theorem modify (i : Slot c) {f : Resident → Resident} (same : ∀ r : Resident, r.Stays (f r)) : p.Stands (p.modify i f) :=
  fun j _ => .modify same j

end Pool.Stands

theorem Located.stands (located : Located p e slot) (stands : p.Stands q) : Located q e slot where
  seated := located.seated
  found i here := by
    obtain ⟨reserved, id⟩ := located.found i here
    have stays := stands i reserved
    exact ⟨stays.reserved.trans reserved, stays.id.trans id⟩

theorem Chosen.stands (chosen : Chosen p e) (located : Located p e slot) (stands : p.Stands q) : Chosen q e where
  creation created i seat := by
    have reserved := (located.found i (located.seated i seat)).1
    rw [(stands i reserved).ticket]
    exact chosen.creation created i seat
  other := chosen.other

theorem Located.shown (located : Located p e slot) (stands : p.Stands q) : q.shown e slot = p.shown e slot := by
  cases slot with
  | none => rfl
  | some i => exact (stands i (located.found i rfl).1).snapshot

theorem Planned.stands {proposal : PreEnvelopeProposal} (planned : Planned lib p e turn proposal) (stands : p.Stands q) :
    Planned lib q e turn proposal := by
  have stays := stands turn.slot (planned.located.found _ rfl).1
  have snapshot := stays.snapshot
  exact {
    located := planned.located.stands stands
    decides := snapshot ▸ planned.decides
    bank := by rw [stays.active, planned.bank]
    written := by rw [stays.banks, snapshot, planned.written]
    event := planned.event
    plan := snapshot ▸ planned.plan }

theorem Course.stands {phase : Phase c} (course : Course lib p phase) (stands : p.Stands q) : Course lib q phase := by
  cases phase with
  | idle | completing | rejecting | dequeued | started | failing | undefined => exact course
  | found e slot => exact ⟨course.1, course.2.stands stands⟩
  | selected e slot => exact ⟨course.1.stands stands, course.2.stands course.1 stands⟩
  | decided e slot before proposal =>
      obtain ⟨located, chosen, shown, decides⟩ := course
      exact ⟨located.stands stands, chosen.stands located stands, shown.trans (located.shown stands).symm, decides⟩
  | prepared e turn | attempted e turn | committed e turn =>
      obtain ⟨chosen, proposal, planned⟩ := course
      exact ⟨chosen.stands planned.located stands, proposal, planned.stands stands⟩
  | dispatching e turn rest | performing e turn operation rest =>
      have stays := stands turn.slot course.2
      exact ⟨stays.existing.trans course.1, stays.reserved.trans course.2⟩

theorem Housed.entry {rest : List (Entry c)} {victim : Option (Slot c)} (housed : Housed p (e :: rest) victim)
    (authorized : Bool) (chosen : Option (Slot c)) : Housed p ({ e with authorized, victim := chosen } :: rest) victim := by
  obtain ⟨⟨kept, ⟨formed, seated, queued, claims⟩, slotted, held⟩, normal, bounded, marked, calm, faithful⟩ := housed
  refine ⟨⟨kept, ⟨?_, ?_, ?_, claims⟩, slotted, held⟩, normal, bounded, marked, calm, faithful⟩
  · intro f member
    rcases List.mem_cons.1 member with rfl | old
    · obtain ⟨sequence, creation, marker, critical, seats⟩ := formed e List.mem_cons_self
      exact ⟨sequence, creation, marker, critical, seats⟩
    · exact formed f (List.mem_cons_of_mem e old)
  · intro f member
    rcases List.mem_cons.1 member with rfl | old
    · exact seated e List.mem_cons_self
    · exact seated f (List.mem_cons_of_mem e old)
  · intro i kind
    have before := queued i kind
    cases occupied : e.occupies i kind with
    | true =>
        rw [List.filter_cons_of_pos (by exact occupied)] at before
        rw [List.filter_cons_of_pos (by exact occupied)]
        exact before
    | false =>
        rw [List.filter_cons_of_neg (by simp [occupied])] at before
        rw [List.filter_cons_of_neg (by exact ne_true_of_eq_false occupied)]
        exact before

theorem planDerivedSources_length {applied : ApplyResult} (few : applied.effects.length ≤ 4) (type : EventType) :
    (planDerivedSources applied type).length ≤ 7 := by
  have events : (eventSources type).length ≤ 2 := by cases type <;> decide
  have armed : (applied.effects.filterMap armedPhase).length ≤ 4 := (List.length_filterMap_le _ _).trans few
  rw [planDerivedSources]
  simp only [List.length_take, List.length_cons, List.length_append, List.length_map]
  omega

theorem Pool.Kept.canActivate {i : Slot c} {plan : List GateKind} (kept : p.Kept) (few : plan.length ≤ 8) :
    p.canActivateSources i plan = true := by
  have free := kept.permits_lt
  have needed : (plan.countP fun kind => !(p.gate i kind).permit) ≤ plan.length := List.countP_le_length
  have balanced := kept.balanced
  rw [Pool.canActivateSources, Bool.and_eq_true, decide_eq_true_eq, decide_eq_true_eq, c.criticalReserve_eq]
  omega

theorem Located.modify {i : Slot c} {f : Resident → Resident} (located : Located p e slot)
    (same : ∀ r, (f r).id = r.id ∧ (f r).reserved = r.reserved) : Located (p.modify i f) e slot where
  seated := located.seated
  found j here := by
    rw [Pool.modify_field (·.reserved) fun r => (same r).2, Pool.modify_field (·.id) fun r => (same r).1]
    exact located.found j here

namespace Planned

variable {proposal : PreEnvelopeProposal}

theorem few (planned : Planned lib p e turn proposal) : turn.plan.length ≤ 8 := by
  rw [planned.plan]
  exact (planDerivedSources_length planned.decides.moves.effects_le _).trans (by decide)

theorem reserved (planned : Planned lib p e turn proposal) : (p.residents turn.slot).reserved = true :=
  (planned.located.found _ rfl).1

theorem shown (planned : Planned lib p e turn proposal) (faithful : (p.residents turn.slot).Faithful) :
    ((p.residents turn.slot).banks turn.bank).snapshot.jobId = (p.residents turn.slot).id ∧
      ((p.residents turn.slot).banks turn.bank).snapshot.entityExists = true := by
  rw [planned.written]
  exact ⟨planned.decides.same.trans (faithful.jobId planned.reserved), planned.decides.present⟩

theorem created_iff (planned : Planned lib p e turn proposal) :
    turn.event.eventType = .jobCreated ↔ e.input.isCreation = true := by
  rw [planned.event.1]
  exact planned.decides.created

theorem existing (planned : Planned lib p e turn proposal) (faithful : (p.residents turn.slot).Faithful) :
    (p.residents turn.slot).existing = !e.input.isCreation := by
  rw [← faithful.entityExists planned.reserved]
  have creation := planned.decides.creation
  cases input : e.input.isCreation <;> cases present : (p.residents turn.slot).snapshot.entityExists <;> simp_all

theorem alike (planned : Planned lib p e turn proposal) {other : Turn c} (slot : other.slot = turn.slot) (bank : other.bank = turn.bank)
    (event : other.event.eventType = turn.event.eventType ∧ other.event.jobId = turn.event.jobId ∧
      other.event.payload = turn.event.payload) (plan : other.plan = turn.plan) : Planned lib p e other proposal := by
  obtain ⟨located, decides, inactive, written, same, sources⟩ := planned
  refine ⟨?_, ?_, ?_, ?_, ?_, ?_⟩
  · rwa [slot]
  · rwa [slot]
  · rwa [slot, bank]
  · rwa [slot, bank]
  · rwa [event.1, event.2.1, event.2.2]
  · rwa [slot, plan]

end Planned

theorem Pool.installed_existing {i : Slot c} {plan : List GateKind} (existing : (q.residents i).existing = true) :
    ((q.activateSources i plan).residents i).existing = true :=
  (Resident.Stays.of_bare (q.activateSources_bare i plan i)).existing.trans existing

theorem Housed.installTurn {rest : List (Entry c)} {proposal : PreEnvelopeProposal} (housed : Housed p (e :: rest) e.victim)
    (chosen : Chosen p e) (planned : Planned lib p e turn proposal) :
    Housed (State.installPool p e turn) (e :: rest) none ∧
      ((State.installPool p e turn).residents turn.slot).existing = true := by
  have shown := planned.shown (housed.faithful _)
  have existing := planned.existing (housed.faithful _)
  cases creation : e.input.isCreation with
  | false =>
      have other : turn.event.eventType ≠ .jobCreated := fun created => by simp [planned.created_iff.1 created] at creation
      have none := chosen.other creation
      rw [creation] at existing
      constructor
      · exact none ▸ housed.installEvent existing shown other
      · rw [State.installPool_event other]
        apply Pool.installed_existing
        rw [Pool.modify_residents, if_pos rfl]
        exact shown.2
  | true =>
      have created := planned.created_iff.2 creation
      obtain ⟨i, seat⟩ := Option.isSome_iff_exists.1 ((housed.settled.fits.formed e List.mem_cons_self).creation creation).2
      have here : turn.slot = i := Option.some.inj (planned.located.seated i seat)
      have ticket := chosen.creation creation turn.slot (here ▸ seat)
      rw [creation] at existing
      constructor
      · exact housed.installCreation planned.reserved existing ticket shown created
      · have apart : e.victim ≠ some turn.slot := by
          intro same
          have claim := (housed.settled.slotted.claimed turn.slot).2 same
          simp [((housed.settled.kept.residents turn.slot).claimed claim).1] at existing
        rw [State.installPool_creation created]
        apply Pool.installed_existing
        rw [p.welcome_residents apart, if_neg apart, if_pos rfl]
        exact shown.2

end Sitometron.Core.Orchestrator
