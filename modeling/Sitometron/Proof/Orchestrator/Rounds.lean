import Sitometron.Proof.Orchestrator.Orderly

/-!
# Turns in order

Each section of a turn leaves the writer in order, so that every state of a run is.
-/

namespace Sitometron.Core.Orchestrator

variable {c : Setup} {lib : Libraries} {p q : Pool c} {s t : State c} {e : Entry c} {slot : Option (Slot c)} {turn : Turn c}

theorem Served.complete_pool (served : Served s (some e)) (value : Completion) : (s.complete e value).pool = s.pool := by
  obtain ⟨k, -, -, done⟩ := served.complete_eq value
  rw [done]
  rfl

theorem Served.dispose_pool (served : Served s (some e)) : (s.dispose e).pool = s.pool.release e false :=
  (served.frame (.pool s (s.pool.release e false))).complete_pool _

theorem State.publishPrepared_pool (s : State c) (turn : Turn c) :
    (s.publishPrepared turn).1.pool = s.pool ∨ (s.publishPrepared turn).1.pool = s.pool.fail .traceOverrun := by
  rcases s.publishPrepared_cases turn with failed | ⟨record, -, -, published⟩
  · rw [failed]
    exact .inr rfl
  · rw [published]
    exact .inl rfl

theorem State.publishPrepared_turn (s : State c) (turn : Turn c) : ∃ cursor, (s.publishPrepared turn).2 = { turn with cursor } := by
  rcases s.publishPrepared_cases turn with failed | ⟨record, -, -, published⟩
  · rw [failed]
    exact ⟨turn.cursor, rfl⟩
  · rw [published]
    exact ⟨turn.cursor + 1, rfl⟩

theorem Housed.publishPrepared {live : List (Entry c)} {victim : Option (Slot c)} (housed : Housed s.pool live victim)
    (turn : Turn c) : Housed (s.publishPrepared turn).1.pool live victim := by
  rcases s.publishPrepared_pool turn with same | failed
  · rw [same]
    exact housed
  · rw [failed]
    exact housed.fail rfl

theorem State.publishPrepared_residents (s : State c) (turn : Turn c) :
    (s.publishPrepared turn).1.pool.residents = s.pool.residents := by
  rcases s.publishPrepared_pool turn with same | failed
  · rw [same]
  · rw [failed]
    rfl

theorem State.publishMany_residents (n : Nat) (at_ : State c × Turn c) :
    (State.publishMany n at_).1.pool.residents = at_.1.pool.residents := by
  induction n generalizing at_ with
  | zero => rfl
  | succ n ih => exact (ih _).trans (at_.1.publishPrepared_residents at_.2)

theorem Housed.publishMany {live : List (Entry c)} {victim : Option (Slot c)} (n : Nat) (at_ : State c × Turn c)
    (housed : Housed at_.1.pool live victim) : Housed (State.publishMany n at_).1.pool live victim := by
  induction n generalizing at_ with
  | zero => exact housed
  | succ n ih => exact ih _ (housed.publishPrepared at_.2)

namespace Orderly

theorem enter (orderly : Orderly lib s) {phase : Phase c} (fifo : t.fifo = s.fifo)
    (housed : Housed t.pool (phase.holder?.toList ++ s.fifo.toList) phase.victim?) (course : Course lib t.pool phase) :
    Orderly lib (t.enter phase) := by
  refine ⟨?_, course, ?_⟩
  · show Housed t.pool (phase.holder?.toList ++ t.fifo.toList) phase.victim?
    rw [fifo]
    exact housed
  · show ∀ e ∈ t.fifo.toList, e.victim = none
    rw [fifo]
    exact orderly.unclaimed

theorem finish (orderly : Orderly lib s) {pool : Pool c} (housed : Housed pool s.fifo.toList none) (served : Served s (some e))
    (value : Completion) : Orderly lib (({ s with pool }.complete e value).enter .idle) := by
  apply orderly.enter
  · exact State.complete_fifo _ _ _
  · rw [(served.frame (.pool s pool)).complete_pool]
    exact housed
  · exact trivial

theorem disposeQueued (n : Nat) (housed : Housed s.pool s.fifo.toList none) (serves : Serves s none) :
    Housed (State.disposeQueued n s).pool (State.disposeQueued n s).fifo.toList none := by
  induction n generalizing s with
  | zero => exact housed
  | succ n ih =>
      apply ih _ serves.disposeFront
      rw [s.disposeFront_fifo]
      rw [State.disposeFront, Ring.front?_eq]
      cases queue : s.fifo.toList with
      | nil =>
          rw [queue] at housed
          exact housed
      | cons e rest =>
          rw [queue] at housed
          have popped : s.fifo.pop.toList = rest := by rw [Ring.toList_pop, queue, List.tail_cons]
          have called : Served ({ s with fifo := s.fifo.pop }.note (.disposed e)) (some e) :=
            serves.served.call queue popped ⟨rfl, rfl, rfl⟩ rfl
              (by cases ticket : e.ticket? <;> simp [State.note, Observation.mark?, ticket])
          dsimp only [List.head?_cons]
          rw [called.dispose_pool]
          exact housed.release (.inl rfl) false

theorem failTurn (orderly : Orderly lib s) (serves : Serves s (some e)) {fault : Fault} (phase : s.writer = .failing e fault) :
    Orderly lib (s.failTurn e fault) := by
  have housed := orderly.housed
  have fine : fault.isBreach = false := by
    have course := orderly.course
    rwa [phase] at course
  rw [State.live, phase] at housed
  have failed : Serves (s.fail fault) (some e) := serves.frame (.pool s (s.pool.fail fault))
  have released : Housed ((s.fail fault).dispose e).pool ((s.fail fault).dispose e).fifo.toList none := by
    rw [failed.served.dispose_pool, State.dispose, State.complete_fifo]
    exact (housed.fail fine).release (.inr rfl) false
  have cancelled := released.shift (.cancelGates released.settled.kept) (Inner.cancelGates _).steady
  have disposed := disposeQueued ((s.fail fault).dispose e).fifo.count cancelled (failed.dispose.frame (.pool _ _))
  rw [State.failTurn]
  refine ⟨disposed, trivial, ?_⟩
  intro f member
  have empty : (State.disposeQueued ((s.fail fault).dispose e).fifo.count
      { (s.fail fault).dispose e with pool := ((s.fail fault).dispose e).pool.cancelGates }).fifo.toList = [] := by
    rw [State.disposeQueued_fifo]
    exact List.drop_eq_nil_of_le (by rw [Ring.length_toList])
  have none : f ∈ ([] : List (Entry c)) := empty ▸ member
  cases none

end Orderly

theorem State.publishMany_turn (n : Nat) (at_ : State c × Turn c) :
    ∃ cursor, (State.publishMany n at_).2 = { at_.2 with cursor } := by
  induction n generalizing at_ with
  | zero => exact ⟨at_.2.cursor, rfl⟩
  | succ n ih =>
      obtain ⟨cursor, rest⟩ := ih (at_.1.publishPrepared at_.2)
      obtain ⟨first, turned⟩ := at_.1.publishPrepared_turn at_.2
      exact ⟨cursor, by rw [turned] at rest; exact rest⟩

theorem Housed.inscribe {live : List (Entry c)} {victim : Option (Slot c)} {i : Slot c} (housed : Housed p live victim)
    (reserved : (p.residents i).reserved = true) {f : Resident → Resident} (same : ∀ r : Resident, r.Stays (f r))
    (rest : ∀ r, (f r).claimed = r.claimed ∧ (f r).claims = r.claims ∧ (f r).gates = r.gates) :
    Housed (p.modify i f) live victim := by
  apply housed.modify
  · apply housed.settled.touch reserved
    · exact fun r => ⟨(same r).id, (same r).reserved, (same r).ticket, (rest r).1⟩
    · exact fun r => ⟨(same r).existing, (rest r).2⟩
  · exact fun r => ⟨(same r).id, (same r).snapshot, (same r).existing, (same r).reserved⟩

theorem Resident.Stays.timers (r : Resident) (timerGeneration : Fin 4 → UInt64) : r.Stays { r with timerGeneration } :=
  ⟨rfl, rfl, rfl, rfl, rfl, rfl, rfl⟩

theorem Resident.Stays.worker (r : Resident) (workerSequence : UInt64) : r.Stays { r with workerSequence } :=
  ⟨rfl, rfl, rfl, rfl, rfl, rfl, rfl⟩

theorem Located.writeBank (located : Located p e slot) (i : Slot c) (applied : ApplyResult) :
    Located (State.writeBank p i applied) e slot := by
  rw [State.writeBank]
  exact located.modify (by intro r; exact ⟨rfl, rfl⟩)

theorem State.writeBank_ticket (p : Pool c) (i : Slot c) (applied : ApplyResult) (j : Slot c) :
    ((State.writeBank p i applied).residents j).ticket = (p.residents j).ticket := by
  rw [State.writeBank]
  exact Pool.modify_field (·.ticket) (by intro r; rfl) j

theorem PreparationFault.isBreach {answer : Answer} {i : Slot c} {applied : ApplyResult} {proposal : PreEnvelopeProposal}
    {fault : Fault} (reason : PreparationFault s answer i applied proposal fault) : fault.isBreach = false := by
  cases reason with
  | trace | late => rfl
  | effects refused =>
      rw [prepareEffects] at refused
      split at refused
      · cases refused
        rfl
      · split at refused
        · cases refused
          rfl
        · cases refused

namespace Orderly

theorem dispatch (orderly : Orderly lib s) {rest : List PreparedEffect} (fifo : t.fifo = s.fifo)
    (housed : Housed t.pool (e :: s.fifo.toList) none) (existing : (t.pool.residents turn.slot).existing = true) :
    Orderly lib (t.enter (.dispatching e turn rest)) :=
  orderly.enter fifo housed ⟨existing, (housed.settled.kept.residents _).reserved_of_existing existing⟩

theorem install (orderly : Orderly lib s) (phase : s.writer = .committed e turn) : Orderly lib (s.install e turn) := by
  have housed := orderly.housed
  have course := orderly.course
  rw [State.live, phase] at housed
  rw [phase] at course
  obtain ⟨chosen, proposal, planned⟩ := course
  obtain ⟨installed, existing⟩ := housed.installTurn chosen planned
  generalize count : 1 + traceSourceCount turn.event.eventType = n
  generalize start : { s with pool := State.installPool s.pool e turn }.note (.installed turn.slot turn.event) = u
  have pool : u.pool = State.installPool s.pool e turn := by rw [← start]; rfl
  have published := Housed.publishMany n (u, turn) (pool ▸ installed)
  have there : ((State.publishMany n (u, turn)).1.pool.residents turn.slot).existing = true := by
    rw [State.publishMany_residents, pool]
    exact existing
  have reserved := (published.settled.kept.residents turn.slot).reserved_of_existing there
  have fifo : (State.publishMany n (u, turn)).1.fifo = s.fifo := by
    rw [(SameDesk.publishMany n (u, turn)).fifo, ← start]
    rfl
  have slot : (State.publishMany n (u, turn)).2.slot = turn.slot := by
    obtain ⟨cursor, turned⟩ := State.publishMany_turn n (u, turn)
    rw [turned]
  rw [State.install, start, count]
  dsimp only
  cases State.workerSequenceOf turn.event with
  | none => exact orderly.dispatch fifo published (slot ▸ there)
  | some sequence =>
      apply orderly.dispatch
      · exact fifo
      · exact published.inscribe reserved (fun r => .worker r sequence) fun _ => ⟨rfl, rfl, rfl⟩
      · rw [slot, Pool.modify_residents, if_pos rfl]
        exact there

theorem declareEffect (orderly : Orderly lib s) {operation : PreparedEffect} {rest : List PreparedEffect}
    (phase : s.writer = .dispatching e turn (operation :: rest)) : Orderly lib (s.declareEffect e turn operation rest) := by
  have housed := orderly.housed
  have course := orderly.course
  rw [State.live, phase] at housed
  rw [phase] at course
  have published := housed.publishPrepared turn
  have there := course.1
  have reserved := course.2
  rw [← s.publishPrepared_residents turn] at there reserved
  obtain ⟨cursor, turned⟩ := s.publishPrepared_turn turn
  rw [State.declareEffect, turned]
  cases operation.timerUpdate with
  | none => exact orderly.enter (SameDesk.publishPrepared s turn).fifo published ⟨there, reserved⟩
  | some update =>
      apply orderly.enter
      · exact (SameDesk.publishPrepared s turn).fifo
      · exact published.inscribe reserved (fun r => .timers r _) fun _ => ⟨rfl, rfl, rfl⟩
      · have stands := Pool.Stands.modify (p := (s.publishPrepared turn).1.pool) turn.slot
          fun r => .timers r (Function.update r.timerGeneration update.1 update.2)
        have stays := stands turn.slot reserved
        exact ⟨stays.existing.trans there, stays.reserved.trans reserved⟩

theorem act (orderly : Orderly lib s) {operation : PreparedEffect} {rest : List PreparedEffect}
    (phase : s.writer = .performing e turn operation rest) : Shifts s.pool (s.act e turn operation).pool ∧
      Steady s.pool (s.act e turn operation).pool := by
  have course := orderly.course
  rw [phase] at course
  rw [State.act]
  split
  · exact ⟨.retireGate orderly.kept course.2 _, (Inner.retireGate _ _ _).steady⟩
  split
  · exact ⟨.authorizeAck orderly.kept course.2, (Inner.setGate _ _ _ _).steady⟩
  split <;> exact ⟨.refl orderly.kept, ⟨rfl, rfl, rfl⟩⟩

theorem performEffect (orderly : Orderly lib s) {operation : PreparedEffect} {rest : List PreparedEffect}
    (phase : s.writer = .performing e turn operation rest) : Orderly lib (s.performEffect e turn operation rest) := by
  have housed := orderly.housed
  have course := orderly.course
  rw [State.live, phase] at housed
  rw [phase] at course
  obtain ⟨shifts, steady⟩ := orderly.act phase
  obtain ⟨cursor, turned⟩ := (s.act e turn operation).publishPrepared_turn turn
  rw [State.performEffect]
  apply orderly.dispatch
  · exact ((SameDesk.act s e turn operation).trans (.publishPrepared _ turn)).fifo
  · exact (housed.shift shifts steady).publishPrepared turn
  · rw [turned, State.publishPrepared_residents, (shifts.same turn.slot).existing]
    exact course.1

theorem respond (orderly : Orderly lib s) (phase : s.writer = .dispatching e turn []) : Orderly lib (s.respond e turn) := by
  have housed := orderly.housed
  rw [State.live, phase] at housed
  rw [State.respond]
  apply orderly.enter
  · exact (SameDesk.publishPrepared s turn).fifo
  · exact (housed.publishPrepared turn).release (.inl rfl) true
  · exact trivial

theorem exchange (orderly : Orderly lib s) {i ordinary : Slot c} (phase : s.writer = .found e slot) (ticketed : Ticketed s e i)
    (free : s.pool.ordinaryFree = some ordinary) :
    Orderly lib ({ s with pool := { s.pool.modify i fun r => { r with ticket := false } with spare := ordinary } }.enter
      (.selected { e with victim := none } slot)) := by
  have housed := orderly.housed
  have course := orderly.course
  rw [State.live, phase] at housed
  rw [phase] at course
  obtain ⟨unclaimed, located⟩ := course
  have moved : Located (s.pool.modify i fun r => { r with ticket := false }) e slot := located.modify fun _ => ⟨rfl, rfl⟩
  apply orderly.enter
  · rfl
  · exact (housed.exchange ticketed.ticket free).entry e.authorized none
  · refine ⟨⟨moved.seated, moved.found⟩, ?_, fun _ => rfl⟩
    intro _ j seat
    obtain rfl : i = j := Option.some.inj (ticketed.resident.symm.trans seat)
    show ((s.pool.modify i fun r => { r with ticket := false }).residents i).ticket = false
    rw [Pool.modify_residents, if_pos rfl]

theorem claim (orderly : Orderly lib s) {i victim : Slot c} (phase : s.writer = .found e slot) (ticketed : Ticketed s e i)
    (crowded : s.pool.isCrowded) (oldest : s.pool.oldestVictim = some victim)
    (unowned : (s.pool.residents victim).hasOwnership = false) :
    Orderly lib ({ s with pool := s.pool.modify victim fun r => { r with claimed := true } }.enter
      (.selected { e with victim := some victim } slot)) := by
  have housed := orderly.housed
  have course := orderly.course
  rw [State.live, phase] at housed
  rw [phase] at course
  obtain ⟨unclaimed, located⟩ := course
  have spare := (housed.settled.slotted.ticket i).1 ticketed.ticket
  have existing := (Pool.oldestVictim_some oldest).1
  have moved : Located (s.pool.modify victim fun r => { r with claimed := true }) e slot := located.modify fun _ => ⟨rfl, rfl⟩
  apply orderly.enter
  · rfl
  · exact (housed.claimVictim crowded (spare.1 ▸ spare.2) existing unowned).entry e.authorized (some victim)
  · refine ⟨⟨moved.seated, moved.found⟩, ?_, fun usual => absurd ticketed.creation (ne_true_of_eq_false usual)⟩
    intro _ j seat
    obtain rfl : i = j := Option.some.inj (ticketed.resident.symm.trans seat)
    have same : ((s.pool.modify victim fun r => { r with claimed := true }).residents i).ticket = (s.pool.residents i).ticket :=
      Pool.modify_field (·.ticket) (by intro r; rfl) i
    exact same.trans ticketed.ticket

theorem writeBank (orderly : Orderly lib s) {i : Slot c} {before : Snapshot} {proposal : PreEnvelopeProposal}
    (phase : s.writer = .decided e (some i) before proposal) (applied : ApplyResult) :
    Housed (State.writeBank s.pool i applied) (e :: s.fifo.toList) e.victim := by
  have housed := orderly.housed
  have course := orderly.course
  rw [State.live, phase] at housed
  rw [phase] at course
  exact housed.writeBank (course.1.found i rfl).1 applied

theorem prepare (orderly : Orderly lib s) {i : Slot c} {before : Snapshot} {proposal : PreEnvelopeProposal} {answer : Answer}
    {operations : List PreparedEffect} (phase : s.writer = .decided e (some i) before proposal)
    (written : t = { s with pool := State.writeBank s.pool i (apply lib before proposal) }) :
    Orderly lib (t.enter (.prepared e (preparedTurn t answer i (apply lib before proposal) proposal operations))) := by
  have course := orderly.course
  rw [phase] at course
  obtain ⟨located, chosen, rfl, decides⟩ := course
  have here : t.pool.residents i = { s.pool.residents i with
      banks := Function.update (s.pool.residents i).banks (!(s.pool.residents i).active)
        (apply lib (s.pool.residents i).snapshot proposal) } := by
    rw [written]
    exact Function.update_self i _ _
  have snapshot : (t.pool.residents i).snapshot = (s.pool.residents i).snapshot := by
    rw [here]
    simp [Resident.snapshot]
  have moved : Located t.pool e (some i) := by
    rw [written]
    exact located.writeBank i _
  apply orderly.enter
  · rw [written]
  · rw [written]
    exact orderly.writeBank phase _
  · refine ⟨⟨fun created j seat => ?_, chosen.other⟩, proposal, ?_⟩
    · rw [written, State.writeBank_ticket]
      exact chosen.creation created j seat
    · exact {
        located := moved
        decides := by
          show Decides lib (t.pool.residents i).snapshot e.input proposal
          rw [snapshot]
          exact decides
        bank := rfl
        written := by
          show (t.pool.residents i).banks (!(t.pool.residents i).active) = apply lib (t.pool.residents i).snapshot proposal
          rw [snapshot, here]
          exact Function.update_self _ _ _
        event := ⟨rfl, rfl, rfl⟩
        plan := by
          show planDerivedSources (apply lib (s.pool.residents i).snapshot proposal) proposal.eventType =
            planDerivedSources (apply lib (t.pool.residents i).snapshot proposal) proposal.eventType
          rw [snapshot] }

theorem publish {rest : List (Entry c)} {proposal : PreEnvelopeProposal} (housed : Housed s.pool (e :: rest) e.victim)
    (chosen : Chosen s.pool e) (planned : Planned lib s.pool e turn proposal) :
    Housed (s.publishPrepared turn).1.pool (e :: rest) e.victim ∧
      Chosen (s.publishPrepared turn).1.pool e ∧ Planned lib (s.publishPrepared turn).1.pool e (s.publishPrepared turn).2 proposal := by
  have stands : s.pool.Stands (s.publishPrepared turn).1.pool := .of_residents (s.publishPrepared_residents turn)
  obtain ⟨cursor, turned⟩ := s.publishPrepared_turn turn
  refine ⟨housed.publishPrepared turn, chosen.stands planned.located stands, ?_⟩
  rw [turned]
  exact (planned.stands stands).alike rfl rfl ⟨rfl, rfl, rfl⟩ rfl

theorem turned (orderly : Orderly lib s) (serves : Serves s s.writer.entry?) {answer : Answer} (moved : Turned lib s answer t) :
    Orderly lib t := by
  have housed := orderly.housed
  have course := orderly.course
  rw [State.live] at housed
  cases moved with
  | waiting idle empty => exact orderly
  | @dequeued e idle front =>
      have queue : s.fifo.toList = e :: s.fifo.toList.tail := by
        rw [Ring.front?_eq] at front
        exact (List.cons_head?_tail front).symm
      have popped : s.fifo.pop.toList = s.fifo.toList.tail := Ring.toList_pop _
      rw [idle] at housed
      have first : Housed s.pool (e :: s.fifo.toList.tail) none := queue ▸ housed
      have free := orderly.unclaimed e (queue ▸ List.mem_cons_self)
      refine ⟨?_, free, fun f member => orderly.unclaimed f (List.mem_of_mem_tail (popped ▸ member))⟩
      show Housed s.pool ({ e with authorized := !s.pool.failed } :: s.fifo.pop.toList) none
      rw [popped]
      exact first.entry _ e.victim
  | @cleared e phase failed condemned marker =>
      rw [phase] at housed serves
      have formed := housed.settled.fits.formed e List.mem_cons_self
      have same : s.pool.releaseGate e true = s.pool := by simp [Pool.releaseGate, (formed.marker marker).1, marker]
      rw [same]
      exact orderly.finish (housed.unmark marker) serves.served _
  | dropped phase failed condemned other =>
      rw [phase] at housed serves
      exact orderly.finish (housed.release (.inl rfl) false) serves.served _
  | started phase fine =>
      rw [phase] at housed course
      exact orderly.enter rfl housed course
  | marked phase marker =>
      rw [phase] at housed serves
      exact (orderly.frame (t := { s with markerProcessed := true }) rfl rfl rfl).finish
        ((housed.unmark marker).leave (by decide)) (serves.served.frame ⟨rfl, rfl, rfl, rfl⟩) _
  | located phase other found =>
      rw [phase] at housed course
      refine orderly.enter rfl housed ⟨course, fun i seat => ?_, ?_⟩
      · rw [← found]
        exact housed.settled.fits.find_eq housed.settled.slotted List.mem_cons_self seat
      · rintro i ⟨⟩
        exact (Pool.find_some found).symm
  | @reserved e phase creation absent =>
      rw [phase] at housed
      obtain ⟨i, seat⟩ := Option.isSome_iff_exists.1 ((housed.settled.fits.formed e List.mem_cons_self).creation creation).2
      rw [housed.settled.fits.find_eq housed.settled.slotted List.mem_cons_self seat] at absent
      cases absent
  | missing phase other usual absent =>
      rw [phase] at housed course
      refine orderly.enter rfl housed ⟨course, fun i seat => ?_, by simp⟩
      rw [housed.settled.fits.find_eq housed.settled.slotted List.mem_cons_self seat] at absent
      cases absent
  | @passed e slot phase usual =>
      rw [phase] at housed course
      obtain ⟨unclaimed, located⟩ := course
      have passed : Housed s.pool (e :: s.fifo.toList) e.victim := unclaimed ▸ housed
      exact orderly.enter rfl passed ⟨located, fun creation => by simp [usual] at creation, fun _ => unclaimed⟩
  | @lost e slot phase creation homeless =>
      rw [phase] at housed
      have seated := ((housed.settled.fits.formed e List.mem_cons_self).creation creation).2
      simp [homeless] at seated
  | @kept e slot i phase creation resident ticket =>
      rw [phase] at housed course
      obtain ⟨unclaimed, located⟩ := course
      refine orderly.enter rfl (housed.entry e.authorized none) ⟨⟨located.seated, located.found⟩, ?_, fun _ => rfl⟩
      intro _ j seat
      obtain rfl : i = j := Option.some.inj (resident.symm.trans seat)
      exact ticket
  | exchanged phase ticketed free => exact orderly.exchange phase ticketed free
  | claimed phase ticketed crowded oldest unowned => exact orderly.claim phase ticketed crowded oldest unowned
  | refused phase ticketed =>
      rw [phase] at housed serves
      exact orderly.finish (housed.release (.inl rfl) false) serves.served _
  | @noVictim e slot i phase ticketed crowded oldest =>
      rw [phase] at housed course
      have failing : Housed s.pool (e :: s.fifo.toList) e.victim := course.1 ▸ housed
      exact orderly.enter rfl failing rfl
  | rejected phase refused =>
      rw [phase] at housed
      exact orderly.enter rfl housed trivial
  | @decided e slot proposal phase accepted =>
      rw [phase] at housed course
      have same : s.before e slot = s.pool.shown e slot := by cases slot <;> rfl
      exact orderly.enter rfl housed ⟨course.1, course.2, same, decides accepted⟩
  | released phase =>
      rw [phase] at housed
      exact orderly.enter rfl (housed.release (.inr rfl) false) trivial
  | @threw e interruptible =>
      have failing : Housed s.pool (e :: s.fifo.toList) e.victim := by
        generalize phase : s.writer = writer at interruptible
        rw [phase] at housed course
        cases interruptible with
        | locating other => exact Eq.symm course ▸ housed
        | deciding => exact housed
        | applying => exact housed
      exact orderly.enter rfl failing rfl
  | exhausted phase exhausted =>
      rw [phase] at housed
      exact orderly.enter rfl housed rfl
  | unapplied phase rejected =>
      rw [phase] at course
      simp [course.2.2.2.applied] at rejected
  | @slotless e before proposal phase applied =>
      rw [phase] at housed course
      obtain ⟨located, -, rfl, decides⟩ := course
      have formed := housed.settled.fits.formed e List.mem_cons_self
      obtain ⟨i, seat⟩ := Option.isSome_iff_exists.1 (formed.creation (decides.creation.2 rfl)).2
      cases located.seated i seat
  | unprepared phase applied written reason =>
      apply orderly.enter
      · rw [written]
      · rw [written]
        exact orderly.writeBank phase _
      · exact reason.isBreach
  | prepared phase enough applied written ready => exact orderly.prepare phase written
  | barred phase closed =>
      rw [phase] at course
      obtain ⟨-, proposal, planned⟩ := course
      rw [orderly.kept.canActivate planned.few] at closed
      cases closed
  | @attempted e turn phase ready =>
      rw [phase] at housed course
      obtain ⟨chosen, proposal, planned⟩ := course
      have stamped : Planned lib s.pool e (State.stamp turn s.nextJournal) proposal := planned.alike rfl rfl ⟨rfl, rfl, rfl⟩ rfl
      obtain ⟨published, stays, moved⟩ := publish (s := s.beginTurn turn) housed chosen stamped
      exact orderly.enter (SameDesk.publishPrepared (s.beginTurn turn) _).fifo published ⟨stays, proposal, moved⟩
  | uncommitted phase refused =>
      rw [phase] at housed
      exact orderly.enter rfl housed rfl
  | @committed e turn phase done =>
      rw [phase] at housed course
      obtain ⟨chosen, proposal, planned⟩ := course
      obtain ⟨published, stays, moved⟩ := publish (s := s.note (.commit e turn.event answer.commit)) housed chosen planned
      exact orderly.enter (SameDesk.publishPrepared (s.note (.commit e turn.event answer.commit)) _).fifo published
        ⟨stays, proposal, moved⟩
  | installed phase => exact orderly.install phase
  | declared phase => exact orderly.declareEffect phase
  | performed phase => exact orderly.performEffect phase
  | responded phase => exact orderly.respond phase
  | completed phase =>
      rw [phase] at housed serves
      exact orderly.finish housed serves.served _
  | failed phase =>
      rw [phase] at serves
      exact orderly.failTurn serves phase
  | stuck phase =>
      rw [phase] at course
      exact course.elim

theorem step (orderly : Orderly lib s) (serves : Serves s s.writer.entry?) (action : Action c) :
    Orderly lib (step lib s action) := by
  rcases step_cases lib s action with ⟨answer, taken⟩ | produced
  · rw [taken]
    exact orderly.turned serves (Orchestrator.turned lib s answer)
  · exact orderly.produced serves produced

theorem initial (started : initial c = some s) : Orderly lib s := by
  obtain ⟨pool, seeded, rfl⟩ := Option.map_eq_some_iff.1 started
  obtain ⟨rfl, seedable, inside⟩ := Pool.seed_some seeded
  exact ⟨.seeded seedable inside, trivial, by simp⟩

end Orderly

theorem Reached.orderly (reached : Reached lib c s) : Orderly lib s := by
  induction reached with
  | start started => exact .initial started
  | step action before ih => exact ih.step before.serves action

end Sitometron.Core.Orchestrator
