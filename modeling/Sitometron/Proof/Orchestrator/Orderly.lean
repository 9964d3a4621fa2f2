import Sitometron.Proof.Orchestrator.Courses

/-!
# The writer in order

The pool is in balance with the entries that are admitted and not released, and the turn in flight is on its course. No
operation of a producer disturbs either.
-/

namespace Sitometron.Core.Orchestrator

variable {c : Setup} {lib : Libraries} {p q : Pool c} {s t : State c} {e : Entry c} {slot : Option (Slot c)} {turn : Turn c}

structure Orderly (lib : Libraries) (s : State c) : Prop where
  housed : Housed s.pool s.live s.writer.victim?
  course : Course lib s.pool s.writer
  unclaimed : ∀ e ∈ s.fifo.toList, e.victim = none

namespace Orderly

theorem frame (orderly : Orderly lib s) (pool : t.pool = s.pool) (fifo : t.fifo = s.fifo) (writer : t.writer = s.writer) :
    Orderly lib t := by
  obtain ⟨housed, course, unclaimed⟩ := orderly
  refine ⟨?_, ?_, fifo ▸ unclaimed⟩
  · rw [pool, State.live, fifo, writer]
    exact housed
  · rw [pool, writer]
    exact course

theorem repool (orderly : Orderly lib s) {pool : Pool c} (housed : Housed pool s.live s.writer.victim?)
    (stands : s.pool.Stands pool) : Orderly lib { s with pool } :=
  ⟨housed, orderly.course.stands stands, orderly.unclaimed⟩

theorem shift (orderly : Orderly lib s) {pool : Pool c} (shifts : Shifts s.pool pool) (steady : Steady s.pool pool) :
    Orderly lib { s with pool } := orderly.repool (orderly.housed.shift shifts steady) (.of_shifts shifts)

theorem fail (orderly : Orderly lib s) {fault : Fault} (fine : fault.isBreach = false) : Orderly lib (s.fail fault) :=
  orderly.shift (.fail orderly.housed.settled.kept fine) ⟨rfl, rfl, rfl⟩

theorem kept (orderly : Orderly lib s) : s.pool.Kept := orderly.housed.settled.kept

theorem refuse (orderly : Orderly lib s) (input : Input) (code : IngressCode) (sequence : Nat) :
    Orderly lib (s.refuse input code sequence) := orderly.frame rfl rfl rfl

theorem insert (orderly : Orderly lib s) (serves : Serves s s.writer.entry?) (space : s.book.used ≠ c.completionCapacity)
    (room : s.fifo.isFull = false) (pool : Pool c) {e : Entry c} {publish : Entry c → Pool c → Pool c} (unclaimed : e.victim = none)
    (housed : ∀ k, Housed (publish (Served.placed s e k) pool) (s.live ++ [Served.placed s e k]) s.writer.victim?)
    (stands : ∀ k, s.pool.Stands (publish (Served.placed s e k) pool)) : Orderly lib ({ s with pool }.insert e publish) := by
  obtain ⟨k, -, inserted⟩ := (serves.served.frame (.pool s pool)).insert_eq space e publish
  have less : s.fifo.count < c.totalCapacity := by
    apply Nat.lt_of_le_of_ne s.fifo.bounded
    simpa [Ring.isFull] using room
  have queue : (s.fifo.push (Served.placed s e k)).toList = s.fifo.toList ++ [Served.placed s e k] := Ring.toList_push less
  rw [inserted]
  refine ⟨?_, orderly.course.stands (stands k), ?_⟩
  · show Housed (publish (Served.placed s e k) pool)
      (s.writer.holder?.toList ++ (s.fifo.push (Served.placed s e k)).toList) s.writer.victim?
    rw [queue, ← List.append_assoc]
    exact housed k
  · show ∀ f ∈ (s.fifo.push (Served.placed s e k)).toList, f.victim = none
    rw [queue]
    intro f member
    rcases List.mem_append.1 member with old | new
    · exact orderly.unclaimed f old
    · rw [List.mem_singleton.1 new]
      exact unclaimed

theorem room (orderly : Orderly lib s) : s.fifo.isFull = false := by
  have room := orderly.housed.room
  rw [State.live, List.length_append] at room
  by_contra full
  have count : s.fifo.toList.length = c.totalCapacity := Ring.isFull_iff.1 (by simpa using full)
  omega

end Orderly

theorem gateFor_creation {input : Input} (creation : input.isCreation = true) : gateFor input = none := by
  cases input with
  | candidate event =>
      have named : event.eventType = text "job_created" := by simpa [Input.isCreation] using creation
      rw [gateFor, named, if_neg (by decide)]
      decide
  | command | shutdown => cases creation

theorem Steady.acquireGate {i : Slot c} {kind : GateKind} {borrow : Bool} {lease : Option (SourceLease c)}
    (made : p.acquireGate i kind borrow = (lease, q)) : Steady p q := by
  have result := acquired p i kind borrow
  rw [made] at result
  cases result with
  | refused | exhausted | full | borrowed => exact ⟨rfl, rfl, rfl⟩
  | leased leased =>
      rw [leased.pool]
      exact ⟨rfl, rfl, rfl⟩

theorem Steady.acquireSourceLease (p : Pool c) (id : Uuid) (event : EventType) (phase : TimeoutPhase) :
    Steady p (State.acquireSourceLease p id event phase) := by
  rw [State.acquireSourceLease]
  split
  · split
    · next made => exact .acquireGate made
    · next made => exact (Steady.acquireGate made).trans (Inner.setGate _ _ _ _).steady
  · exact ⟨rfl, rfl, rfl⟩

theorem Steady.retainGate (p : Pool c) (id : Uuid) (kind : GateKind) : Steady p (p.retainGate id kind).2 := by
  rw [Pool.retainGate]
  split
  · exact ⟨rfl, rfl, rfl⟩
  split
  · exact ⟨rfl, rfl, rfl⟩
  split
  · next made => exact .acquireGate made
  · next made => exact (Steady.acquireGate made).trans (Inner.setGate _ _ _ _).steady

theorem Shifts.acquireGate_none {i : Slot c} {kind : GateKind} {borrow : Bool} (kept : p.Kept)
    (made : p.acquireGate i kind borrow = (none, q)) : Shifts p q := by
  have result := acquired p i kind borrow
  rw [made] at result
  cases result with
  | refused => exact .refl kept
  | exhausted none => exact .fail kept rfl
  | full spent => exact absurd kept.reserve_free (Nat.not_lt.2 spent)

theorem State.publishGate_bare {i : Slot c} {kind : GateKind} {lease : SourceLease c} (kept : p.Kept) (nonzero : e.sequence ≠ 0)
    (granted : p.acquireGate i kind true = (some lease, q)) (j : Slot c) :
    ((State.publishGate i kind lease e q).residents j).bare = (p.residents j).bare := by
  obtain ⟨serial, next, equal⟩ := State.publishGate_acquired kept nonzero granted
  rw [equal]
  exact Pool.modify_field (p := p) (i := i)
    (f := fun r => r.regate kind ((r.gates kind).published kind e.sequence serial) (e.files kind r)) (·.bare) (fun _ => rfl) j

namespace Orderly

theorem enqueued (orderly : Orderly lib s) (serves : Serves s s.writer.entry?) {input : Input}
    {identities : Option GeneratedIdentityBundle} (ended : Enqueued lib s input identities t) : Orderly lib t := by
  have housed := orderly.housed
  cases ended with
  | refused | occupied => exact orderly.refuse _ _ _
  | faulted healthy fault =>
      apply Orderly.refuse
      apply orderly.fail
      cases fault with
      | full full => simp [orderly.room] at full
      | _ => rfl
  | unleased admissible critical vacant refused plain =>
      exact (orderly.shift (.acquireGate_none orderly.kept refused) (.acquireGate refused)).refuse _ _ _
  | normal admissible usual other =>
      have marker : input ≠ .shutdown := by
        rintro rfl
        cases usual
      apply orderly.insert serves admissible.space admissible.room s.pool rfl
      · intro k
        have formed : (Served.placed s
            { input, identity := State.entryIdentity lib input, creationIdentities := identities } k).Formed :=
          ⟨admissible.next, fun created => absurd created (by simp [Served.placed, other]), fun shutdown => absurd shutdown marker,
            nofun, nofun⟩
        exact housed.count (housed.settled.append formed rfl) (.refl _) housed.faithful rfl marker (admissible.normal usual)
      · exact fun k => .of_residents rfl
  | @creation i pool admissible usual creation reserved =>
      have marker : input ≠ .shutdown := by
        rintro rfl
        cases usual
      have grows := Pool.reserveCreation_grows orderly.kept reserved
      apply orderly.insert serves admissible.space admissible.room pool rfl
      · intro k
        have formed : (Served.placed s
            { input, identity := State.entryIdentity lib input, resident := some i, creationIdentities := identities } k).Formed :=
          ⟨admissible.next, fun _ => ⟨rfl, rfl⟩, fun shutdown => absurd shutdown marker, nofun, fun _ => .inl creation⟩
        obtain ⟨settled, inner⟩ := housed.settled.reserveCreation formed creation rfl reserved
        exact housed.count settled inner (fun j => (grows j).faithful (housed.faithful j)) rfl marker (admissible.normal usual)
      · exact fun k => .of_grows grows
  | @critical i kind lease pool admissible critical vacant acquired =>
      have marker : input ≠ .shutdown := by
        rintro rfl
        cases vacant.gate
      have usual : input.isCreation = false := by
        by_contra creation
        have none := gateFor_creation (by simpa using creation)
        rw [vacant.gate] at none
        cases none
      have same : ∀ k j, ((State.publishGate i kind lease (Served.placed s
          { input, identity := State.entryIdentity lib input, critical := true, gate := some kind, resident := some i
            creationIdentities := identities } k) pool).residents j).bare = (s.pool.residents j).bare :=
        fun k => State.publishGate_bare orderly.kept admissible.next acquired
      apply orderly.insert serves admissible.space admissible.room pool rfl
      · intro k
        have formed : (Served.placed s
            { input, identity := State.entryIdentity lib input, critical := true, gate := some kind, resident := some i
              creationIdentities := identities } k).Formed :=
          ⟨admissible.next, fun created => absurd created (by simp [Served.placed, usual]), fun shutdown => absurd shutdown marker,
            fun _ _ => ⟨rfl, rfl⟩, fun _ => .inr ⟨rfl, rfl⟩⟩
        obtain ⟨settled, next, inner⟩ := housed.settled.publish formed rfl rfl rfl vacant.found vacant.registered vacant.idle acquired
        have steady : Steady s.pool _ := ⟨inner.normal, inner.mode, inner.permit⟩
        exact housed.post settled steady (fun j => (housed.faithful j).stays (.of_bare (same k j))) rfl marker
      · exact fun k j _ => .of_bare (same k j)

theorem shutdown (orderly : Orderly lib s) (serves : Serves s s.writer.entry?) (ended : ShutdownSubmitted s t) :
    Orderly lib t := by
  cases ended with
  | refused other => exact orderly.refuse _ _ _
  | faulted healthy fault =>
      apply Orderly.refuse
      apply orderly.fail
      cases fault with
      | unregistered => rfl
      | reserve running spent => exact absurd orderly.kept.reserve_free (Nat.not_lt.2 spent)
      | admission fault =>
          cases fault with
          | full full => simp [orderly.room] at full
          | _ => rfl
  | admitted stoppable =>
      apply orderly.insert serves stoppable.space stoppable.room s.pool rfl
      · intro k
        have formed : (Served.placed s { input := .shutdown, critical := true } k).Formed :=
          ⟨stoppable.next, nofun, fun _ => ⟨rfl, rfl⟩, fun _ other => absurd rfl other, nofun⟩
        exact orderly.housed.mark stoppable.running formed rfl
      · exact fun k => .of_residents rfl

theorem quiet (serves : Serves s s.writer.entry?) (sealable : Sealable s) : s.writer = .idle ∧ s.live = [] := by
  have resting := serves.flying.flying
  rw [sealable.landed] at resting
  have idle : s.writer = .idle := by
    cases phase : s.writer with
    | idle => rfl
    | _ => simp [phase, Phase.entry?] at resting
  have empty : s.fifo.toList = [] := List.eq_nil_of_length_eq_zero (by rw [Ring.length_toList, sealable.empty])
  exact ⟨idle, by rw [State.live, idle, empty]; rfl⟩

theorem produced (orderly : Orderly lib s) (serves : Serves s s.writer.entry?) (produced : Produced lib s t) : Orderly lib t := by
  have kept := orderly.kept
  cases produced with
  | noted | refused | taken => exact orderly.frame rfl rfl rfl
  | enqueued creation source ended => exact (orderly.enqueued serves ended).frame rfl rfl rfl
  | shutdown ended => exact orderly.shutdown serves ended
  | leased id event phase => exact orderly.shift (.acquireSourceLease kept id event phase) (.acquireSourceLease _ _ _ _)
  | returned lease =>
      exact orderly.shift (.returnGate kept lease (orderly.housed.settled.held _)) (Inner.returnGate _ lease).steady
  | retained id source =>
      have other : source.gate ≠ .terminate := by
        cases source with
        | timer phase => cases phase <;> decide
        | _ => decide
      exact orderly.shift (.retainGate kept id other) (.retainGate _ _ _)
  | acked prepared found retained authorized held same =>
      have shifts := Shifts.retireWorkerProtocol kept (Pool.find_some found).2
      exact (orderly.shift shifts (Inner.retireWorkerProtocol _ _).steady).frame rfl rfl rfl
  | latched => exact orderly.fail rfl
  | quiesced failed unsealed running => exact orderly.repool (orderly.housed.leave (by decide)) (.of_residents rfl)
  | stopped sealed => exact orderly.repool (orderly.housed.leave (by decide)) (.of_residents rfl)
  | sealed sealable =>
      obtain ⟨idle, empty⟩ := quiet serves sealable
      have housed := orderly.housed
      rw [empty] at housed
      have stands : s.pool.Stands s.pool.cancelGates := .of_shifts (.cancelGates kept)
      have sealed := (housed.seal sealable.unleased).1
      rw [← empty] at sealed
      exact (orderly.repool sealed (stands.trans (.of_residents rfl))).frame rfl rfl rfl
  | residual sealable left =>
      have housed := orderly.housed
      rw [(quiet serves sealable).2] at housed
      exact absurd (housed.seal sealable.unleased).2 left

end Orderly

end Sitometron.Core.Orchestrator
