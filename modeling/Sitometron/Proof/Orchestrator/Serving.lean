import Sitometron.Lib.Desk
import Sitometron.Proof.Orchestrator.Visible

/-!
# The writer as a desk

The completion slots, the queue and the turn in flight are a desk: its tickets are the admitted entries, its boxes the
completion slots. Every step keeps it sound.
-/

namespace Sitometron.Core.Orchestrator

variable {c : Setup} {s : State c} {e : Entry c} {turn : Turn c}

def Entry.ticket? (e : Entry c) : Option (Ticket c.completionCapacity) :=
  e.completionIndex.map fun place => ⟨e.sequence, place, e.completionGeneration⟩

def CompletionSlot.box (slot : CompletionSlot) : Box Completion :=
  ⟨slot.reserved, slot.completed, slot.generation, slot.sequence, slot.value⟩

def Observation.mark? : Observation c → Option (Mark Completion c.completionCapacity)
  | .admitted e _ => e.ticket?.map .issued
  | .dequeued e | .disposed e => e.ticket?.map .called
  | .completed place sequence value => some (.answered place sequence value)
  | .taken sequence value => some (.collected sequence value)
  | _ => none

def State.desk (s : State c) (current : Option (Entry c)) : Desk Completion c.completionCapacity where
  boxes k := (s.book.completions k).box
  used := s.book.used
  outstanding := s.book.outstanding
  queue := s.fifo.toList.filterMap Entry.ticket?
  current := current.bind Entry.ticket?
  next := s.nextIngress
  log := s.log.filterMap Observation.mark?

structure SameDesk (s t : State c) : Prop where
  book : t.book = s.book
  fifo : t.fifo = s.fifo
  next : t.nextIngress = s.nextIngress
  log : t.log.filterMap Observation.mark? = s.log.filterMap Observation.mark?

structure Served (s : State c) (current : Option (Entry c)) : Prop where
  sound : (s.desk current).Sound uint64Max c.initialIngressSequence
  tickets : ∀ e ∈ current.toList ++ s.fifo.toList, e.completionIndex.isSome = true

structure Flying (s : State c) (current : Option (Entry c)) : Prop where
  flying : s.book.inFlight = current.isSome
  sequence : ∀ e, current = some e → s.book.inFlightSequence = e.sequence

namespace Served

variable {t : State c} {current : Option (Entry c)}

theorem frame (served : Served s current) (same : SameDesk s t) : Served t current := by
  have desk : t.desk current = s.desk current := by simp only [State.desk, same.book, same.fifo, same.next, same.log]
  exact ⟨desk ▸ served.sound, same.fifo ▸ served.tickets⟩

theorem entry {f : Entry c} (served : Served s (some e)) (sequence : f.sequence = e.sequence)
    (place : f.completionIndex = e.completionIndex) (generation : f.completionGeneration = e.completionGeneration) :
    Served s (some f) := by
  have ticket : f.ticket? = e.ticket? := by simp only [Entry.ticket?, sequence, place, generation]
  have same : s.desk (some f) = s.desk (some e) := by simp only [State.desk, Option.bind_some, ticket]
  constructor
  · rw [same]
    exact served.sound
  · intro g member
    rcases List.mem_append.1 member with now | queued
    · obtain rfl : g = f := by simpa using now
      rw [place]
      exact served.tickets e (by simp)
    · exact served.tickets g (List.mem_append_right _ queued)

theorem ticket (served : Served s (some e)) : ∃ k, e.completionIndex = some k ∧
    e.ticket? = some ⟨e.sequence, k, e.completionGeneration⟩ := by
  obtain ⟨k, place⟩ := Option.isSome_iff_exists.1 (served.tickets e (by simp))
  exact ⟨k, place, by simp [Entry.ticket?, place]⟩

theorem complete_eq (served : Served s (some e)) (value : Completion) : ∃ k, e.completionIndex = some k ∧
    e.ticket? = some ⟨e.sequence, k, e.completionGeneration⟩ ∧
    s.complete e value = { s with book := s.book.complete k e.sequence value }.note (.completed k e.sequence value) := by
  obtain ⟨k, place, ticket⟩ := served.ticket
  have held := served.sound.holds ⟨e.sequence, k, e.completionGeneration⟩ (by simp [Desk.waiting, State.desk, ticket])
  have reserved : (s.book.completions k).reserved = true := held.reserved
  have empty : (s.book.completions k).completed = false := held.empty
  have generation : (s.book.completions k).generation = e.completionGeneration := held.generation
  have number : (s.book.completions k).sequence = e.sequence := held.number
  refine ⟨k, place, ticket, ?_⟩
  simp [State.complete, place, reserved, empty, generation, number]

theorem complete (served : Served s (some e)) (value : Completion) : Served (s.complete e value) none := by
  obtain ⟨k, place, ticket, done⟩ := served.complete_eq value
  have answered : (s.complete e value).desk none =
      (s.desk (some e)).answer ⟨e.sequence, k, e.completionGeneration⟩ value := by
    rw [done]
    simp only [State.desk, State.note, Desk.answer, List.filterMap_append, Book.complete, Option.bind_none]
    congr 1
    funext l
    by_cases same : l = k
    · subst same
      simp [CompletionSlot.box]
    · simp [same]
  constructor
  · rw [answered]
    exact served.sound.answer value (by simp [State.desk, ticket])
  · rw [done]
    exact fun f member => served.tickets f (List.mem_append_right _ (by simpa [State.note] using member))

theorem call (served : Served s none) {rest : List (Entry c)} (queue : s.fifo.toList = e :: rest)
    (fifo : t.fifo.toList = rest) (book : t.book.completions = s.book.completions ∧ t.book.used = s.book.used ∧
      t.book.outstanding = s.book.outstanding) (next : t.nextIngress = s.nextIngress)
    (log : t.log.filterMap Observation.mark? = s.log.filterMap Observation.mark? ++ (e.ticket?.map Mark.called).toList) :
    Served t (some e) := by
  obtain ⟨k, place⟩ := Option.isSome_iff_exists.1 (served.tickets e (by simp [queue]))
  have ticket : e.ticket? = some ⟨e.sequence, k, e.completionGeneration⟩ := by simp [Entry.ticket?, place]
  have called : t.desk (some e) =
      (s.desk none).call ⟨e.sequence, k, e.completionGeneration⟩ (rest.filterMap Entry.ticket?) := by
    simp only [State.desk, Desk.call, fifo, book, next, log, ticket, Option.bind_some, Option.map_some, Option.toList_some]
  constructor
  · rw [called]
    exact served.sound.call rfl (by simp [State.desk, queue, ticket])
  · rw [fifo]
    intro f member
    exact served.tickets f (by simpa [queue] using member)

def placed (s : State c) (e : Entry c) (k : Fin c.completionCapacity) : Entry c :=
  { e with sequence := s.nextIngress, completionIndex := some k
           completionGeneration := (s.book.completions k).generation + 1 }

theorem insert_eq (served : Served s current) (space : s.book.used ≠ c.completionCapacity) (e : Entry c)
    (publish : Entry c → Pool c → Pool c) : ∃ k, (s.book.completions k).reserved = false ∧
    s.insert e publish =
      { s with
        nextIngress := following s.nextIngress
        book := s.book.reserve k s.nextIngress
        pool := publish (placed s e k) s.pool
        fifo := s.fifo.push (placed s e k) }.note
          (.admitted (placed s e k) ⟨.admitted, s.nextIngress, s.book.total + s.book.outstanding⟩) := by
  have free : ∃ k, s.book.free = some k := by
    obtain ⟨k, free⟩ := served.sound.exists_free space
    apply Option.isSome_iff_exists.1
    rw [Book.free, List.find?_isSome]
    exact ⟨k, List.mem_finRange k, by simpa [State.desk, CompletionSlot.box] using free⟩
  obtain ⟨k, found⟩ := free
  refine ⟨k, by simpa using List.find?_some found, ?_⟩
  rw [State.insert, found]
  rfl

theorem insert (served : Served s current) (space : s.book.used ≠ c.completionCapacity) (room : s.fifo.isFull = false)
    (next : s.nextIngress ≠ 0) (e : Entry c) (publish : Entry c → Pool c → Pool c) :
    Served (s.insert e publish) current := by
  obtain ⟨k, free, inserted⟩ := served.insert_eq space e publish
  have less : s.fifo.count < c.totalCapacity := by
    apply Nat.lt_of_le_of_ne s.fifo.bounded
    simpa [Ring.isFull] using room
  have queue : (s.insert e publish).fifo.toList = s.fifo.toList ++ [placed s e k] := by
    rw [inserted]
    exact Ring.toList_push less
  have ticket : (placed s e k).ticket? = some ⟨s.nextIngress, k, (s.book.completions k).generation + 1⟩ := rfl
  have issued : (s.insert e publish).desk current = (s.desk current).issue uint64Max k := by
    simp only [State.desk, queue]
    rw [inserted]
    simp only [State.note, Desk.issue, List.filterMap_append, Book.reserve]
    congr 1
    · funext l
      by_cases same : l = k
      · subst same
        simp [CompletionSlot.box]
      · simp [same]
  constructor
  · rw [issued]
    exact served.sound.issue next free
  · rw [queue, ← List.append_assoc]
    intro f member
    rcases List.mem_append.1 member with old | new
    · exact served.tickets f old
    · obtain rfl := List.mem_singleton.1 new
      rfl

theorem take (served : Served s current) {k : Fin c.completionCapacity} {sequence : Nat}
    (held : (s.book.completions k).reserved = true) (done : (s.book.completions k).completed = true)
    (number : (s.book.completions k).sequence = sequence) :
    Served ({ s with book := s.book.take k }.note (.taken sequence (s.book.completions k).value)) current := by
  subst number
  have collected : ({ s with book := s.book.take k }.note
      (.taken (s.book.completions k).sequence (s.book.completions k).value)).desk current =
      (s.desk current).collect {} k := by
    simp only [State.desk, State.note, Desk.collect, List.filterMap_append, Book.take]
    congr 1
    funext l
    by_cases same : l = k
    · subst same
      simp [CompletionSlot.box]
    · simp [same]
  constructor
  · rw [collected]
    exact served.sound.collect {} held done
  · exact served.tickets

end Served

namespace SameDesk

variable {t u : State c}

theorem refl (s : State c) : SameDesk s s := ⟨rfl, rfl, rfl, rfl⟩

theorem trans (first : SameDesk s t) (second : SameDesk t u) : SameDesk s u :=
  ⟨second.book.trans first.book, second.fifo.trans first.fifo, second.next.trans first.next, second.log.trans first.log⟩

theorem pool (s : State c) (pool : Pool c) : SameDesk s { s with pool } := ⟨rfl, rfl, rfl, rfl⟩

theorem note (s : State c) {observation : Observation c} (unmarked : observation.mark? = none) :
    SameDesk s (s.note observation) := ⟨rfl, rfl, rfl, by simp [State.note, unmarked]⟩

theorem enter (s : State c) (phase : Phase c) : SameDesk s (s.enter phase) := ⟨rfl, rfl, rfl, rfl⟩

theorem publishPrepared (s : State c) (turn : Turn c) : SameDesk s (s.publishPrepared turn).1 := by
  rcases s.publishPrepared_cases turn with failed | ⟨record, -, -, published⟩
  · rw [failed]
    exact .pool s _
  · rw [published]
    exact ⟨rfl, rfl, rfl, by simp [State.note, Observation.mark?]⟩

theorem publishMany (n : Nat) (at_ : State c × Turn c) : SameDesk at_.1 (State.publishMany n at_).1 := by
  induction n generalizing at_ with
  | zero => exact .refl _
  | succ n ih => exact (SameDesk.publishPrepared at_.1 at_.2).trans (ih _)

theorem act (s : State c) (e : Entry c) (turn : Turn c) (operation : PreparedEffect) :
    SameDesk s (s.act e turn operation) := by
  rw [State.act]
  split
  · exact .pool s _
  · split
    · exact (SameDesk.pool s _).trans (.note _ rfl)
    · split
      · exact .refl s
      · exact .note s rfl

end SameDesk

structure Serves (s : State c) (current : Option (Entry c)) : Prop where
  served : Served s current
  flying : Flying s current

namespace Serves

variable {t : State c} {current : Option (Entry c)}

theorem frame (serves : Serves s current) (same : SameDesk s t) : Serves t current :=
  ⟨serves.served.frame same, ⟨same.book ▸ serves.flying.flying, same.book ▸ serves.flying.sequence⟩⟩

theorem entry {f : Entry c} (serves : Serves s (some e)) (sequence : f.sequence = e.sequence)
    (place : f.completionIndex = e.completionIndex) (generation : f.completionGeneration = e.completionGeneration) :
    Serves s (some f) := by
  refine ⟨serves.served.entry sequence place generation, serves.flying.flying, ?_⟩
  rintro g ⟨⟩
  rw [sequence]
  exact serves.flying.sequence e rfl

theorem complete (serves : Serves s (some e)) (value : Completion) : Serves (s.complete e value) none := by
  refine ⟨serves.served.complete value, ?_, by simp⟩
  obtain ⟨k, -, -, done⟩ := serves.served.complete_eq value
  rw [done]
  simp [State.note, Book.complete, serves.flying.sequence e rfl]

theorem dispose (serves : Serves s (some e)) : Serves (s.dispose e) none := (serves.frame (.pool s _)).complete _

theorem disposeFront (serves : Serves s none) : Serves s.disposeFront none := by
  rw [State.disposeFront]
  cases front : s.fifo.front? with
  | none => exact serves
  | some e =>
      have queue : s.fifo.toList = e :: s.fifo.toList.tail := by
        rw [Ring.front?_eq] at front
        exact (List.cons_head?_tail front).symm
      have called : Served ({ s with fifo := s.fifo.pop }.note (.disposed e)) (some e) :=
        serves.served.call queue (Ring.toList_pop _) ⟨rfl, rfl, rfl⟩ rfl
          (by cases ticket : e.ticket? <;> simp [State.note, Observation.mark?, ticket])
      have released := called.frame (.pool _ ((({ s with fifo := s.fifo.pop }.note (.disposed e)).pool.release e false)))
      refine ⟨released.complete _, ?_, by simp⟩
      obtain ⟨k, -, -, done⟩ := released.complete_eq { code := .serviceFailed }
      show (State.complete _ e { code := .serviceFailed }).book.inFlight = false
      rw [done]
      have resting : s.book.inFlight = false := serves.flying.flying
      simp [State.note, Book.complete, resting]

theorem disposeQueued (serves : Serves s none) (n : Nat) : Serves (State.disposeQueued n s) none := by
  induction n generalizing s with
  | zero => exact serves
  | succ n ih => exact ih serves.disposeFront

theorem insert (serves : Serves s current) (space : s.book.used ≠ c.completionCapacity) (room : s.fifo.isFull = false)
    (next : s.nextIngress ≠ 0) (e : Entry c) (publish : Entry c → Pool c → Pool c) :
    Serves (s.insert e publish) current := by
  refine ⟨serves.served.insert space room next e publish, ?_⟩
  obtain ⟨k, -, inserted⟩ := serves.served.insert_eq space e publish
  rw [inserted]
  exact ⟨serves.flying.flying, serves.flying.sequence⟩

theorem refuse (serves : Serves s current) (code : IngressCode) (sequence : Nat) (input : Input) :
    Serves (s.refuse input code sequence) current := serves.frame (.note s rfl)

theorem enqueued (serves : Serves s current) {lib : Libraries} {input : Input}
    {identities : Option GeneratedIdentityBundle} (ended : Enqueued lib s input identities t) : Serves t current := by
  cases ended with
  | refused plain => exact serves.refuse _ _ _
  | occupied admissible critical held => exact serves.refuse _ _ _
  | faulted healthy fault => exact (serves.frame (.pool s _)).refuse _ _ _
  | unleased admissible critical vacant refused plain => exact (serves.frame (.pool s _)).refuse _ _ _
  | normal admissible usual other => exact serves.insert admissible.space admissible.room admissible.next _ _
  | @creation i pool admissible usual creation reserved =>
      exact (serves.frame (.pool s pool)).insert admissible.space admissible.room admissible.next _ _
  | @critical i kind lease pool admissible critical vacant acquired =>
      exact (serves.frame (.pool s pool)).insert admissible.space admissible.room admissible.next _ _

theorem shutdown (serves : Serves s current) (ended : ShutdownSubmitted s t) : Serves t current := by
  cases ended with
  | refused other => exact serves.refuse _ _ _
  | faulted healthy fault => exact (serves.frame (.pool s _)).refuse _ _ _
  | admitted stoppable => exact serves.insert stoppable.space stoppable.room stoppable.next _ _

theorem produced (serves : Serves s current) {lib : Libraries} (produced : Produced lib s t) : Serves t current := by
  cases produced with
  | noted creation pending => exact serves.frame ⟨rfl, rfl, rfl, rfl⟩
  | refused reason => exact serves.refuse _ _ _
  | enqueued creation source ended => exact (serves.enqueued ended).frame ⟨rfl, rfl, rfl, rfl⟩
  | shutdown ended => exact serves.shutdown ended
  | leased id event phase => exact serves.frame (.pool s _)
  | returned lease => exact serves.frame (.pool s _)
  | retained id source => exact serves.frame (.pool s _)
  | acked prepared found retained authorized held same => exact serves.frame ((SameDesk.pool s _).trans (.note _ rfl))
  | latched => exact serves.frame (.pool s _)
  | quiesced failed unsealed running => exact serves.frame (.pool s _)
  | sealed sealable => exact serves.frame ⟨rfl, rfl, rfl, rfl⟩
  | residual sealable left => exact serves.frame (.pool s _)
  | stopped sealed => exact serves.frame (.pool s _)
  | taken held done number => exact ⟨serves.served.take held done number, serves.flying.flying, serves.flying.sequence⟩

theorem dequeue (serves : Serves s none) (front : s.fifo.front? = some e) :
    Serves (({ s with
      fifo := s.fifo.pop
      book := { s.book with inFlight := true, inFlightSequence := e.sequence } }.note
        (.dequeued { e with authorized := !s.pool.failed })).enter (.dequeued { e with authorized := !s.pool.failed }))
      (some { e with authorized := !s.pool.failed }) := by
  have queue : s.fifo.toList = e :: s.fifo.toList.tail := by
    rw [Ring.front?_eq] at front
    exact (List.cons_head?_tail front).symm
  have same : Entry.ticket? { e with authorized := !s.pool.failed } = e.ticket? := rfl
  have called : Served ({ s with
      fifo := s.fifo.pop
      book := { s.book with inFlight := true, inFlightSequence := e.sequence } }.note
        (.dequeued { e with authorized := !s.pool.failed })) (some e) := by
    refine serves.served.call queue (Ring.toList_pop s.fifo) ⟨rfl, rfl, rfl⟩ rfl ?_
    cases ticket : e.ticket? <;> simp [State.note, Observation.mark?, same, ticket]
  have authorized : Served _ (some { e with authorized := !s.pool.failed }) := called.entry rfl rfl rfl
  refine ⟨authorized.frame (.enter _ _), rfl, ?_⟩
  rintro f ⟨⟩
  rfl

theorem finish (serves : Serves s (some e)) (value : Completion) : Serves ((s.complete e value).enter .idle) none :=
  (serves.complete value).frame (.enter _ _)

theorem install (serves : Serves s (some e)) (turn : Turn c) : Serves (s.install e turn) (some e) := by
  rw [State.install]
  apply serves.frame
  apply SameDesk.trans _ (.enter _ _)
  apply SameDesk.trans _ (.pool _ _)
  exact ((SameDesk.pool s _).trans (.note _ rfl)).trans (.publishMany _ (_, turn))

theorem failTurn (serves : Serves s (some e)) (fault : Fault) : Serves (s.failTurn e fault) none := by
  have disposed := (serves.frame (.pool s (s.pool.fail fault))).dispose
  exact ((disposed.frame (.pool _ _)).disposeQueued _).frame (.enter _ _)

theorem turned (serves : Serves s s.writer.entry?) {lib : Libraries} {answer : Answer} (moved : Turned lib s answer t) :
    Serves t t.writer.entry? := by
  cases moved with
  | waiting idle empty => exact serves
  | dequeued idle front =>
      rw [idle] at serves
      exact serves.dequeue front
  | cleared phase failed condemned marker =>
      rw [phase] at serves
      exact (serves.frame (.pool s _)).finish _
  | dropped phase failed condemned other =>
      rw [phase] at serves
      exact serves.dispose.frame (.enter _ _)
  | marked phase marker =>
      rw [phase] at serves
      have marked : ∀ pool, SameDesk s { s with pool := pool, markerProcessed := true } := fun _ => ⟨rfl, rfl, rfl, rfl⟩
      exact (serves.frame (marked _)).finish _
  | @kept e slot i phase creation resident ticket =>
      rw [phase] at serves
      have chosen : Serves s (some { e with victim := none }) := serves.entry rfl rfl rfl
      exact chosen.frame (.enter _ _)
  | @exchanged e slot i ordinary phase ticketed free =>
      rw [phase] at serves
      have chosen : Serves s (some { e with victim := none }) := serves.entry rfl rfl rfl
      exact (chosen.frame (.pool s _)).frame (.enter _ _)
  | @claimed e slot i victim phase ticketed crowded oldest unowned =>
      rw [phase] at serves
      have chosen : Serves s (some { e with victim := some victim }) := serves.entry rfl rfl rfl
      exact (chosen.frame (.pool s _)).frame (.enter _ _)
  | refused phase ticketed =>
      rw [phase] at serves
      exact (serves.frame (.pool s _)).finish _
  | threw interruptible =>
      rw [interruptible.entry] at serves
      exact serves.frame (.enter _ _)
  | unprepared phase applied written reason =>
      rw [phase] at serves
      subst written
      exact (serves.frame (.pool s _)).frame (.enter _ _)
  | prepared phase enough applied written ready =>
      rw [phase] at serves
      subst written
      exact (serves.frame (.pool s _)).frame (.enter _ _)
  | @attempted e turn phase ready =>
      rw [phase] at serves
      have begun : SameDesk s (s.beginTurn turn) := ⟨rfl, rfl, rfl, rfl⟩
      exact serves.frame ((begun.trans (.publishPrepared _ _)).trans (.enter _ _))
  | uncommitted phase refused =>
      rw [phase] at serves
      exact serves.frame ((SameDesk.note s rfl).trans (.enter _ _))
  | committed phase done =>
      rw [phase] at serves
      exact serves.frame (((SameDesk.note s rfl).trans (.publishPrepared _ _)).trans (.enter _ _))
  | installed phase =>
      rw [phase] at serves
      exact serves.install _
  | declared phase =>
      rw [phase] at serves
      exact serves.frame (((SameDesk.publishPrepared s _).trans (.pool _ _)).trans (.enter _ _))
  | performed phase =>
      rw [phase] at serves
      exact serves.frame (((SameDesk.act s _ _ _).trans (.publishPrepared _ _)).trans (.enter _ _))
  | responded phase =>
      rw [phase] at serves
      exact serves.frame (((SameDesk.publishPrepared s _).trans (.pool _ _)).trans (.enter _ _))
  | completed phase =>
      rw [phase] at serves
      exact serves.finish _
  | failed phase =>
      rw [phase] at serves
      exact serves.failTurn _
  | stuck phase => exact serves
  | reserved phase creation absent | released phase =>
      rw [phase] at serves
      exact (serves.frame (.pool s _)).frame (.enter _ _)
  | started phase _ | located phase _ _ | missing phase _ _ _ | passed phase _ | lost phase _ _ | noVictim phase _ _ _
  | rejected phase _ | decided phase _ | exhausted phase _ | unapplied phase _ | slotless phase _ | barred phase _ =>
      rw [phase] at serves
      exact serves.frame (.enter _ _)

end Serves

theorem State.insert_writer (s : State c) (e : Entry c) (publish : Entry c → Pool c → Pool c) :
    (s.insert e publish).writer = s.writer := by
  rw [State.insert]
  split <;> rfl

theorem Produced.writer {lib : Libraries} {t : State c} (produced : Produced lib s t) : t.writer = s.writer := by
  cases produced with
  | enqueued creation source ended =>
      cases ended with
      | normal admissible usual other => exact s.insert_writer _ _
      | @creation i pool admissible usual creation reserved => exact State.insert_writer { s with pool } _ _
      | @critical i kind lease pool admissible critical vacant acquired => exact State.insert_writer { s with pool } _ _
      | _ => rfl
  | shutdown ended =>
      cases ended with
      | admitted stoppable => exact s.insert_writer _ _
      | _ => rfl
  | _ => rfl

theorem Serves.step (serves : Serves s s.writer.entry?) (lib : Libraries) (action : Action c) :
    Serves (step lib s action) (step lib s action).writer.entry? := by
  rcases step_cases lib s action with ⟨answer, taken⟩ | produced
  · rw [taken]
    exact serves.turned (Orchestrator.turned lib s answer)
  · rw [produced.writer]
    exact serves.produced produced

theorem Serves.initial (started : initial c = some s) : Serves s s.writer.entry? := by
  obtain ⟨pool, -, rfl⟩ := Option.map_eq_some_iff.1 started
  refine ⟨⟨?_, by simp [Phase.entry?]⟩, rfl, by simp [Phase.entry?]⟩
  have range := c.inRange.2.2
  exact {
    used := by simp [State.desk, CompletionSlot.box]
    outstanding := rfl
    counted := ⟨rfl, by simp [State.desk, Desk.issued, range], by simp [State.desk, Desk.issued]; omega⟩
    order := rfl
    once := .nil
    holds := by simp [State.desk, Desk.waiting, Phase.entry?]
    reserved := by simp [State.desk, CompletionSlot.box]
    distinct := by simp [State.desk, CompletionSlot.box]
    filed := by simp [State.desk, CompletionSlot.box]
    collected := by simp [State.desk] }

theorem Reached.serves {lib : Libraries} (reached : Reached lib c s) : Serves s s.writer.entry? := by
  induction reached with
  | start started => exact .initial started
  | step action _ ih => exact ih.step lib action

end Sitometron.Core.Orchestrator
