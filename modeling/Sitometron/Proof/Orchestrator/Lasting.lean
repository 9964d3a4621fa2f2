import Sitometron.Proof.Orchestrator.Rounds

/-!
# What a step writes of a Job

Three sections of a turn write a Job: the preparation its inactive bank, the installation what it shows, and the dispatch of
its effects the generations of its timers. No other step does.
-/

namespace Sitometron.Core.Orchestrator

variable {c : Setup} {lib : Libraries} {p q : Pool c} {s t : State c} {e : Entry c} {turn : Turn c}

namespace Releasing

variable {R : Resident → Resident → Prop}

theorem refl (releasing : Releasing R) (r : Resident) : R r r := releasing.bare rfl

theorem publishPrepared (releasing : Releasing R) (s : State c) (turn : Turn c) (j : Slot c) :
    R (s.pool.residents j) ((s.publishPrepared turn).1.pool.residents j) := by
  rw [s.publishPrepared_residents]
  exact releasing.refl _

theorem cancelGate (releasing : Releasing R) (p : Pool c) (i : Slot c) (kind : GateKind) (j : Slot c) :
    R (p.residents j) ((p.cancelGate i kind).residents j) :=
  releasing.trans (releasing.setGate p i kind _ j) (releasing.releaseUnusedGate _ _ _ j)

theorem cancelGates (releasing : Releasing R) (p : Pool c) (j : Slot c) : R (p.residents j) (p.cancelGates.residents j) := by
  rw [Pool.cancelGates_eq]
  generalize (slots c).flatMap (fun i => GateKind.all.map fun kind => (i, kind)) = places
  induction places generalizing p with
  | nil => exact releasing.refl _
  | cons place places ih => exact releasing.trans (releasing.cancelGate p place.1 place.2 j) (ih _)

theorem complete (releasing : Releasing R) (s : State c) (e : Entry c) (value : Completion) (j : Slot c) :
    R (s.pool.residents j) ((s.complete e value).pool.residents j) := by
  rcases s.complete_cases e value with eq | eq | ⟨k, -, eq⟩
  all_goals
    rw [eq]
    exact releasing.refl _

theorem finish (releasing : Releasing R) {pool : Pool c} {j : Slot c} (before : R (s.pool.residents j) (pool.residents j))
    (e : Entry c) (value : Completion) :
    R (s.pool.residents j) (({ s with pool }.complete e value).pool.residents j) :=
  releasing.trans before (releasing.complete { s with pool } e value j)

theorem dispose (releasing : Releasing R) (s : State c) (e : Entry c) (j : Slot c) :
    R (s.pool.residents j) ((s.dispose e).pool.residents j) :=
  releasing.finish (releasing.release s.pool e false j) e _

theorem disposeQueued (releasing : Releasing R) (n : Nat) (s : State c) (j : Slot c) :
    R (s.pool.residents j) ((State.disposeQueued n s).pool.residents j) := by
  induction n generalizing s with
  | zero => exact releasing.refl _
  | succ n ih =>
      apply releasing.trans _ (ih _)
      rw [State.disposeFront]
      split
      · exact releasing.refl _
      · next front _ => exact releasing.dispose ({ s with fifo := s.fifo.pop }.note (.disposed front)) front j

theorem failTurn (releasing : Releasing R) (s : State c) (e : Entry c) (fault : Fault) (j : Slot c) :
    R (s.pool.residents j) ((s.failTurn e fault).pool.residents j) := by
  rw [State.failTurn]
  apply releasing.trans (releasing.dispose (s.fail fault) e j)
  apply releasing.trans (releasing.cancelGates _ j)
  exact releasing.disposeQueued _ { (s.fail fault).dispose e with pool := ((s.fail fault).dispose e).pool.cancelGates } j

end Releasing

structure Resident.Lasts (r t : Resident) : Prop where
  timers : t.timerGeneration = r.timerGeneration
  existing : t.existing = r.existing
  stays : r.existing = true → r.Stays t

theorem Resident.Lasts.trans {r t v : Resident} (first : r.Lasts t) (second : t.Lasts v) : r.Lasts v where
  timers := second.timers.trans first.timers
  existing := second.existing.trans first.existing
  stays there := (first.stays there).trans (second.stays (first.existing.trans there))

theorem Resident.Lasts.releasing : Releasing Resident.Lasts where
  trans := .trans
  bare same := by
    have stays := Resident.Stays.of_bare same
    refine ⟨?_, stays.existing, fun _ => stays⟩
    simp only [Resident.bare, Resident.mk.injEq] at same
    tauto
  reset absent := ⟨rfl, absent.symm, fun there => by simp [absent] at there⟩

theorem Resident.Lasts.of_shifts (shifts : Shifts p q) (j : Slot c) : (p.residents j).Lasts (q.residents j) :=
  Resident.Lasts.releasing.bare (shifts.same j).bare

theorem Pool.modify_lasts (p : Pool c) (i : Slot c) (f : Resident → Resident)
    (lasts : (p.residents i).Lasts (f (p.residents i))) (j : Slot c) : (p.residents j).Lasts ((p.modify i f).residents j) := by
  rw [Pool.modify_residents]
  split
  · next here =>
    subst here
    exact lasts
  · exact Resident.Lasts.releasing.refl _

theorem Pool.occupy_lasts {i : Slot c} (kept : p.Kept) (free : (p.residents i).reserved = false) (id : Uuid) (ticket : Bool)
    (j : Slot c) : (p.residents j).Lasts ((p.occupy i id ticket).residents j) := by
  have opened : (p.residents i).Lasts ((p.residents i).occupied id ticket) := by
    rw [(kept.residents i).blank free]
    exact ⟨rfl, rfl, by simp⟩
  rw [Pool.occupy_eq kept free]
  exact p.modify_lasts i (fun r => r.occupied id ticket) opened j

theorem Pool.reserve_lasts (kept : p.Kept) (id : Uuid) (j : Slot c) : (p.residents j).Lasts ((p.reserve id).2.residents j) := by
  have result := reserved p id
  generalize p.reserve id = pair at result
  cases result with
  | known => exact p.modify_lasts _ (fun r => { r with claims := r.claims + 1 }) (Resident.Lasts.releasing.bare rfl) j
  | ordinary _ _ free => exact Pool.occupy_lasts kept free id false j
  | spare _ _ free => exact Pool.occupy_lasts kept free id true j
  | none => exact Resident.Lasts.releasing.refl _

theorem Pool.reserveCreation_lasts (kept : p.Kept) {id : Uuid} {identities : Option GeneratedIdentityBundle}
    {slot : Option (Slot c)} (made : State.reserveCreation p id identities = (slot, q)) (j : Slot c) :
    (p.residents j).Lasts (q.residents j) := by
  have taken := Pool.reserve_lasts kept id j
  rw [State.reserveCreation_eq] at made
  generalize p.reserve id = reserved at made taken
  obtain ⟨_ | k, t⟩ := reserved
  · cases made
    exact taken
  · dsimp only at made
    split at made
    · cases made
      exact taken
    · cases made
      exact taken.trans (t.modify_lasts k _ ⟨rfl, rfl, fun _ => ⟨rfl, rfl, rfl, rfl, rfl, rfl, rfl⟩⟩ j)

theorem State.insert_lasts (serves : Serves s s.writer.entry?) (space : s.book.used ≠ c.completionCapacity) (pool : Pool c)
    {e : Entry c} {publish : Entry c → Pool c → Pool c} {j : Slot c}
    (published : ∀ k, (s.pool.residents j).Lasts ((publish (Served.placed s e k) pool).residents j)) :
    (s.pool.residents j).Lasts (({ s with pool }.insert e publish).pool.residents j) := by
  obtain ⟨k, -, inserted⟩ := (serves.served.frame (.pool s pool)).insert_eq space e publish
  rw [inserted]
  exact published k

theorem Enqueued.lasts (orderly : Orderly lib s) (serves : Serves s s.writer.entry?) {input : Input}
    {identities : Option GeneratedIdentityBundle} (ended : Enqueued lib s input identities t) (j : Slot c) :
    (s.pool.residents j).Lasts (t.pool.residents j) := by
  have releasing := Resident.Lasts.releasing
  cases ended with
  | refused | occupied | faulted => exact releasing.refl _
  | unleased admissible critical vacant refused plain => exact .of_shifts (.acquireGate_none orderly.kept refused) j
  | normal admissible => exact State.insert_lasts serves admissible.space s.pool fun _ => releasing.refl _
  | @creation i pool admissible usual creation reserved =>
      exact State.insert_lasts serves admissible.space pool fun _ => Pool.reserveCreation_lasts orderly.kept reserved j
  | @critical i kind lease pool admissible critical vacant acquired =>
      exact State.insert_lasts serves admissible.space pool fun k =>
        releasing.bare (State.publishGate_bare orderly.kept admissible.next acquired j)

theorem Produced.lasts (orderly : Orderly lib s) (serves : Serves s s.writer.entry?) (produced : Produced lib s t) (j : Slot c) :
    (s.pool.residents j).Lasts (t.pool.residents j) := by
  have releasing := Resident.Lasts.releasing
  cases produced with
  | noted | refused | taken | latched | quiesced | stopped => exact releasing.refl _
  | enqueued creation source ended => exact ended.lasts orderly serves j
  | shutdown ended =>
      cases ended with
      | refused | faulted => exact releasing.refl _
      | admitted stoppable => exact State.insert_lasts serves stoppable.space s.pool fun _ => releasing.refl _
  | leased id event phase => exact .of_shifts (.acquireSourceLease orderly.kept id event phase) j
  | returned lease => exact .of_shifts (.returnGate orderly.kept lease (orderly.housed.settled.held _)) j
  | retained id source =>
      have other : source.gate ≠ .terminate := by
        cases source with
        | timer phase => cases phase <;> decide
        | _ => decide
      exact .of_shifts (.retainGate orderly.kept id other) j
  | acked => exact releasing.cancelGate _ _ .worker j
  | sealed | residual => exact releasing.cancelGates _ j

inductive Writes (lib : Libraries) (s : State c) : State c → Prop
  | nothing {t : State c} : (∀ j, (s.pool.residents j).Lasts (t.pool.residents j)) → Writes lib s t
  | bank {e : Entry c} {i : Slot c} {before : Snapshot} {proposal : PreEnvelopeProposal} {t : State c} :
      s.writer = .decided e (some i) before proposal →
      t.pool = State.writeBank s.pool i (apply lib before proposal) → Writes lib s t
  | shown {e : Entry c} {turn : Turn c} : s.writer = .committed e turn → Writes lib s (s.install e turn)
  | timers {e : Entry c} {turn : Turn c} {operation : PreparedEffect} {rest : List PreparedEffect} :
      s.writer = .dispatching e turn (operation :: rest) → Writes lib s (s.declareEffect e turn operation rest)

theorem Turned.writes (orderly : Orderly lib s) {answer : Answer} (moved : Turned lib s answer t) : Writes lib s t := by
  have releasing := Resident.Lasts.releasing
  cases moved with
  | cleared => exact .nothing fun j => releasing.finish (releasing.releaseGate _ _ _ j) _ _
  | dropped => exact .nothing fun j => releasing.dispose _ _ j
  | @marked e phase marker =>
      exact .nothing fun j => releasing.complete
        { s with pool := { s.pool with mode := .draining }, markerProcessed := true } e { code := .success } j
  | reserved => exact .nothing (Pool.reserve_lasts orderly.kept _)
  | @exchanged e slot i ordinary phase ticketed =>
      have absent := (orderly.kept.residents i).ticket ticketed.ticket
      exact .nothing (s.pool.modify_lasts i (fun r => { r with ticket := false }) ⟨rfl, rfl, by simp [absent]⟩)
  | claimed => exact .nothing (s.pool.modify_lasts _ (fun r => { r with claimed := true }) (releasing.bare rfl))
  | refused => exact .nothing fun j => releasing.finish (releasing.release _ _ _ j) _ _
  | released => exact .nothing fun j => releasing.release _ _ _ j
  | unprepared phase applied written | prepared phase enough applied written => exact .bank phase (by rw [written]; rfl)
  | @attempted e turn => exact .nothing (releasing.publishPrepared (s.beginTurn turn) _)
  | @committed e turn => exact .nothing (releasing.publishPrepared (s.note (.commit e turn.event answer.commit)) turn)
  | installed phase => exact .shown phase
  | declared phase => exact .timers phase
  | @performed e turn operation rest phase =>
      exact .nothing fun j => (Resident.Lasts.of_shifts (orderly.act phase).1 j).trans (releasing.publishPrepared _ turn j)
  | @responded e turn phase =>
      exact .nothing fun j => (releasing.publishPrepared s turn j).trans (releasing.release _ e true j)
  | completed => exact .nothing fun j => releasing.complete _ _ _ j
  | failed => exact .nothing fun j => releasing.failTurn _ _ _ j
  | _ => exact .nothing fun j => releasing.refl _

end Sitometron.Core.Orchestrator
