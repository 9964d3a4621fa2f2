import Sitometron.Proof.Journal.Ledger

/-!
# The segment writer keeps the Journal exact

Whatever the file system answers, the segment files hold the records they held, then the committed ones,
then at most a part of one record.
-/

namespace Sitometron.Journal

open Core Script

theorem rfind_last {c : UInt8} {before after : Bytes} (fresh : c ∉ after) :
    rfind c (before ++ c :: after) = some before.length := by
  have absent : after.reverse.idxOf? c = none := List.idxOf?_eq_none_iff.2 (by simpa using fresh)
  have position : (before ++ c :: after).reverse.idxOf? c = some after.length := by
    simp only [List.idxOf?] at absent ⊢
    rw [List.reverse_append, List.reverse_cons, List.append_assoc, List.findIdx?_append, absent]
    simp [List.findIdx?_cons]
  rw [rfind, position]
  simp only [Option.map_some, List.length_append, List.length_cons]
  congr 1
  omega

theorem rfind_absent {c : UInt8} {s : Bytes} (fresh : c ∉ s) : rfind c s = none := by
  rw [rfind, List.idxOf?_eq_none_iff.2 (by simpa using fresh), Option.map_none]

theorem lastSequence_records (json : JsonLibrary) {events : List LogicalJobEvent} {e : LogicalJobEvent}
    (encodable : Encodable (events ++ [e])) :
    lastSequence json (records (events ++ [e])) = .ok (some e.sequence) := by
  have encoded := encodable e (by simp)
  obtain ⟨line, written, fresh⟩ := emit_line encoded
  have content : records (events ++ [e]) = records events ++ line ++ [0x0A] := by simp [written]
  rw [lastSequence, content, if_neg (by simp), if_neg (by simp), List.dropLast_concat]
  cases events using List.reverseRecOn with
  | nil =>
      have whole : records [] ++ line ++ [0x0A] = emit e := by simp [written]
      simp only [records_nil, List.nil_append, rfind_absent fresh] at whole ⊢
      rw [whole, decodeRecord_encoded json encoded]
  | append_singleton before last =>
      obtain ⟨previous, ends, -⟩ := emit_line (encodable last (by simp))
      have cut : records (before ++ [last]) ++ line = (records before ++ previous) ++ 0x0A :: line := by simp [ends]
      have record : ((records before ++ previous) ++ 0x0A :: line ++ [0x0A]).drop
          ((records before ++ previous).length + 1) = emit e := by
        rw [written, List.append_assoc, List.cons_append, List.append_cons]
        exact List.drop_left' (by simp [Nat.add_assoc])
      simp only [cut, rfind_last fresh, record, decodeRecord_encoded json encoded]

section Calls

variable {w : World} {α : Type} {post : Exit α → World → Prop}

theorem meets_status {k : IoError → Io α} (waiting : post .waiting w) (answered : ∀ error, Meets (k error) w post) :
    Meets (Io.status >>= k) w post :=
  meets_bind (meets_bind (meets_ask waiting fun answer => meets_pure (answered answer.error)))

theorem meets_answer {throws : Bool} {a : α} (thrown : post .thrown w) (returned : post (.returned a) w) :
    Meets (if throws then throw else pure a : Io α) w post := by
  split
  · exact meets_throw thrown
  · exact meets_pure returned

theorem meets_ensureDirectory {k : IoError → Io α} (waiting : post .waiting w) (thrown : post .thrown w)
    (answered : ∀ error, Meets (k error) w post) : Meets (Io.ensureDirectory >>= k) w post :=
  meets_bind (meets_bind (meets_ask waiting fun answer => meets_answer thrown (answered answer.error)))

theorem meets_list {k : Option (List Bytes) → Io α} (waiting : post .waiting w) (thrown : post .thrown w)
    (failed : Meets (k none) w post) (listed : Meets (k (some w.directory.names)) w post) :
    Meets (Io.list >>= k) w post := by
  refine meets_bind (meets_bind (meets_ask waiting fun answer => meets_bind (meets_get (meets_answer thrown ?_))))
  split
  · exact listed
  · exact failed

theorem meets_readAll {name : Bytes} {k : Option Bytes → Io α} (waiting : post .waiting w) (thrown : post .thrown w)
    (failed : Meets (k none) w post) (found : Meets (k (w.directory.read name)) w post) :
    Meets (Io.readAll name >>= k) w post := by
  refine meets_bind (meets_bind (meets_ask waiting fun answer => meets_bind (meets_get (meets_answer thrown ?_))))
  split
  · exact found
  · exact failed

theorem meets_lock {name : Bytes} {k : IoError → Io α} (waiting : post .waiting w)
    (answered : ∀ directory ∈ [w.directory, w.directory.create name],
      post .thrown { w with directory } ∧ ∀ error, Meets (k error) { w with directory } post) :
    Meets (Io.lock name >>= k) w post := by
  have untouched := answered w.directory (by simp)
  have made := answered (w.directory.create name) (by simp)
  refine meets_bind (meets_bind (meets_ask waiting fun answer => ?_))
  dsimp only [andThen]
  split
  · exact meets_bind (meets_modify (meets_answer made.1 (made.2 answer.error)))
  · exact meets_answer untouched.1 (untouched.2 answer.error)

theorem meets_openExisting {name : Bytes} {k : Option Bytes → Io α} (waiting : post .waiting w)
    (thrown : post .thrown w) (failed : Meets (k none) w post) (found : Meets (k (some name)) w post) :
    Meets (Io.openAppend name false >>= k) w post := by
  refine meets_bind (meets_bind (meets_ask waiting fun answer => meets_bind (meets_get ?_)))
  dsimp only [andThen]
  rw [Bool.false_and]
  refine meets_answer thrown ?_
  split
  · exact found
  · exact failed

theorem meets_openNew {name : Bytes} {k : Option Bytes → Io α} (waiting : post .waiting w)
    (failed : ∀ directory ∈ [w.directory, w.directory.create name],
      post .thrown { w with directory } ∧ Meets (k none) { w with directory } post)
    (created : Meets (k (some name)) { w with directory := w.directory.create name } post) :
    Meets (Io.openAppend name true >>= k) w post := by
  have untouched := failed w.directory (by simp)
  have made := failed (w.directory.create name) (by simp)
  refine meets_bind (meets_bind (meets_ask waiting fun answer => meets_bind (meets_get ?_)))
  dsimp only [andThen]
  rw [Bool.true_and]
  generalize (decide (answer.error = .none) && !answer.throws && (decide (name ∈ w.directory.names) != true)) = opens
  cases opens with
  | true => exact meets_bind (meets_modify (meets_answer made.1 created))
  | false =>
      rw [Bool.false_or]
      split
      · exact meets_bind (meets_modify (meets_answer made.1 made.2))
      · exact meets_answer untouched.1 untouched.2

theorem meets_write {name bytes : Bytes} {k : Io.WriteOutcome → Io α} (waiting : post .waiting w)
    (answered : ∀ written error, written ≤ bytes.length →
      Meets (k ⟨written, error⟩) { w with directory := w.directory.append name (bytes.take written) } post) :
    Meets (Io.write name bytes >>= k) w post :=
  meets_bind (meets_bind (meets_ask waiting fun answer =>
    meets_bind (meets_modify (meets_pure (answered _ answer.error (Nat.min_le_right _ _))))))

theorem meets_journal {k : SegmentJournal → Io α} (rest : Meets (k w.journal) w post) : Meets (Io.journal >>= k) w post :=
  meets_bind (meets_bind_get (meets_pure rest))

end Calls

def Standing (layout : Layout) : Option Bytes → UInt64 → Prop
  | none, _ => ∀ segment ∈ layout, segment.2 ≠ []
  | some name, size => ∃ before last, layout = before ++ [last] ∧ name = nameOfSegment last ∧
      size = UInt64.ofNat (records last.2).length

section Opening

variable {json : JsonLibrary} {limit : UInt64} {w : World} {layout : Layout} {start next : Nat}

theorem Chain.nonempty {before : Layout} {last : Nat × List LogicalJobEvent} (chain : Chain start (before ++ [last]) next) :
    ∀ segment ∈ before, segment.2 ≠ [] := by
  obtain ⟨first, events⟩ := last
  exact (chain_concat.1 chain).2.1

theorem Encodable.of_mem {segment : Nat × List LogicalJobEvent} (encodable : Encodable layout.events)
    (member : segment ∈ layout) : Encodable segment.2 := by
  intro e inside
  exact encodable e (List.mem_flatMap.2 ⟨segment, member, inside⟩)

theorem Chain.last_sequence {before : Layout} {first : Nat} {events : List LogicalJobEvent} {e : LogicalJobEvent}
    (chain : Chain start (before ++ [(first, events ++ [e])]) next) :
    e.sequence.toNat + 1 = next ∧ first ≤ e.sequence.toNat := by
  obtain ⟨-, -, numbered, total⟩ := chain_concat.1 chain
  have last := (numbered_concat.1 numbered).2
  rw [List.length_append, List.length_singleton] at total
  omega

theorem UInt64.succ_eq_ofNat {n : UInt64} {m : Nat} (same : n.toNat + 1 = m) : n + 1 = UInt64.ofNat m := by
  subst same
  rw [UInt64.ofNat_add, UInt64.ofNat_toNat]
  rfl

def LocatedAt (layout : Layout) (next : Nat) (located : Located) : Prop :=
  located.next = UInt64.ofNat next ∧
    (located.active = [] ∧ Standing layout none located.activeSize ∨
      located.active ≠ [] ∧ Standing layout (some located.active) located.activeSize)

theorem nameOfSegment_ne_nil (segment : Nat × List LogicalJobEvent) : nameOfSegment segment ≠ [] := by
  simp [nameOfSegment, segmentName, segmentPrefix, text]

theorem locatedAt_last {before : Layout} {last : Nat × List LogicalJobEvent} {size : UInt64}
    (sized : size = UInt64.ofNat (records last.2).length) :
    LocatedAt (before ++ [last]) next ⟨UInt64.ofNat next, nameOfSegment last, size⟩ :=
  ⟨rfl, .inr ⟨nameOfSegment_ne_nil last, before, last, rfl, rfl, sized⟩⟩

theorem locateEmpty_meets {highest : Segment} {previous : Option Segment} :
    Meets (locateEmpty json highest previous) w fun exit after =>
      after = w ∧ ∀ located, exit = .returned (.ok located) →
        located = { next := highest.first, active := highest.name } := by
  have named (expected : Except Bytes UInt64) (located : Located)
      (ok : (expected.bind fun expected =>
        if highest.first ≠ expected then
          .error (text "empty segment " ++ highest.name ++ text " is not named for the next sequence " ++
            decimal expected.toNat)
        else .ok { next := highest.first, active := highest.name }) = .ok located) :
      located = { next := highest.first, active := highest.name } := by
    cases expected with
    | error detail => cases ok
    | ok n =>
        rw [Except.bind] at ok
        split at ok
        next => cases ok
        next =>
          cases ok
          rfl
  have finish (expected : Except Bytes UInt64) : Meets (pure (expected.bind fun expected =>
      if highest.first ≠ expected then
        .error (text "empty segment " ++ highest.name ++ text " is not named for the next sequence " ++
          decimal expected.toNat)
      else .ok { next := highest.first, active := highest.name }) : Io (Except Bytes Located)) w fun exit after =>
      after = w ∧ ∀ located, exit = .returned (.ok located) →
        located = { next := highest.first, active := highest.name } :=
    meets_pure ⟨rfl, fun located same => named expected located (Exit.returned.inj same)⟩
  unfold locateEmpty
  cases previous with
  | none => exact meets_bind (meets_pure (finish _))
  | some segment =>
      refine meets_readAll ⟨rfl, nofun⟩ ⟨rfl, nofun⟩ ?_ ?_
      · exact meets_bind_pure (finish _)
      · exact meets_bind_pure (finish _)

theorem locate_meets (disk : OnDisk w.directory layout start next []) (bound : next < 2 ^ 64)
    (fresh : layout = [] → next = 1) :
    Meets (locate json limit) w fun exit after =>
      after = w ∧ ∀ located, exit = .returned (.ok located) → LocatedAt layout next located := by
  have failed (detail : Bytes) : Meets (pure (.error detail) : Io (Except Bytes Located)) w fun exit after =>
      after = w ∧ ∀ located, exit = .returned (.ok located) → LocatedAt layout next located :=
    meets_pure ⟨rfl, nofun⟩
  refine meets_list ⟨rfl, nofun⟩ ⟨rfl, nofun⟩ (failed _) ?_
  dsimp only
  cases listed : segmentsOf w.directory.names with
  | error name => exact failed _
  | ok unsorted =>
      have segments := disk.shows.segments disk.chain disk.positive disk.named listed
      dsimp only
      rw [segments]
      cases layout using List.reverseRecOn with
      | nil =>
          refine meets_pure ⟨rfl, fun located same => ?_⟩
          cases same
          exact ⟨by rw [fresh rfl]; rfl, .inl ⟨rfl, by simp [Standing]⟩⟩
      | append_singleton before last =>
          rw [List.map_append, List.reverse_append]
          refine meets_readAll ⟨rfl, nofun⟩ ⟨rfl, nofun⟩ (failed _) ?_
          rw [show w.directory.read (toSegment last).name = some (records last.2) from disk.shows.read (by simp)]
          obtain ⟨first, events⟩ := last
          dsimp only
          have encodable : Encodable events := disk.encodable.of_mem (show (first, events) ∈ before ++ [(first, events)] by simp)
          cases events using List.reverseRecOn with
          | nil =>
              rw [records_nil, lastSequence, if_pos rfl]
              refine locateEmpty_meets.mono fun exit after reached => ⟨reached.1, fun located same => ?_⟩
              rw [reached.2 located same]
              have total := (chain_concat.1 disk.chain).2.2.2
              obtain rfl : first = next := by simpa using total
              exact locatedAt_last rfl
          | append_singleton events e =>
              obtain ⟨after, within⟩ := disk.chain.last_sequence
              have sequence := UInt64.succ_eq_ofNat after
              rw [lastSequence_records json encodable]
              dsimp only
              split
              next => exact failed _
              next =>
              split
              next => exact failed _
              next =>
              split
              next =>
                refine meets_pure ⟨rfl, fun located same => ?_⟩
                cases same
                refine ⟨sequence, .inl ⟨rfl, fun segment member => ?_⟩⟩
                rcases List.mem_append.1 member with inside | last
                · exact disk.chain.nonempty segment inside
                · rw [List.mem_singleton.1 last]
                  simp
              next =>
                refine meets_pure ⟨rfl, fun located same => ?_⟩
                cases same
                rw [sequence]
                exact locatedAt_last rfl

structure Ready (w : World) (layout : Layout) (start next : Nat) : Prop where
  disk : OnDisk w.directory layout start next []
  bound : next ≤ 2 ^ 64
  sequence : w.journal.nextSequence = UInt64.ofNat next
  standing : Standing layout w.journal.active w.journal.activeSize

structure Opened (w : World) (layout : Layout) (start next : Nat) : Prop where
  disk : OnDisk w.directory layout start next []
  unpoisoned : w.journal.poisoned = false
  ready : w.journal.opened = true → Ready w layout start next

theorem segmentFirst_lockName : segmentFirst lockName = none := by decide

theorem Shows.lock {directory : Directory} {tail : Bytes} (shows : Shows directory layout tail) :
    Shows (directory.create lockName) layout tail := by
  unfold Directory.create
  split
  next => exact shows
  next fresh =>
    constructor
    · rw [Directory.names, List.map_append]
      refine List.nodup_append.2 ⟨shows.distinct, List.nodup_singleton _, fun a inside b last same => fresh ?_⟩
      have named : b = lockName := List.mem_singleton.1 last
      rw [← named, ← same]
      exact inside
    · rw [segmentFiles, List.filter_append]
      simpa [segmentFiles, segmentFirst_lockName] using shows.files

theorem OnDisk.lock {directory : Directory} {tail : Bytes} (disk : OnDisk directory layout start next tail) :
    OnDisk (directory.create lockName) layout start next tail :=
  { disk with shows := disk.shows.lock }

namespace SegmentJournal

theorem openLocated_meets {located : Located} (disk : OnDisk w.directory layout start next []) (bound : next < 2 ^ 64)
    (unpoisoned : w.journal.poisoned = false) (closed : w.journal.opened = false)
    (at_ : LocatedAt layout next located) :
    Meets (openLocated located) w fun _ after => Opened after layout start next := by
  have unopened : Opened w layout start next := ⟨disk, unpoisoned, by simp [closed]⟩
  have adopted (active : Option Bytes) (standing : Standing layout active located.activeSize) :
      Opened { w with journal := adopt located active w.journal } layout start next :=
    ⟨disk, unpoisoned, fun _ => ⟨disk, bound.le, at_.1, standing⟩⟩
  unfold openLocated
  rcases at_.2 with ⟨none, standing⟩ | ⟨some, standing⟩
  · rw [if_pos none]
    apply meets_bind_pure
    refine meets_ite (fun missing => by simp [none] at missing) fun _ => ?_
    apply meets_bind_modify
    exact meets_pure (adopted _ standing)
  · rw [if_neg some]
    refine meets_openExisting unopened unopened ?_ ?_
    · exact meets_ite (fun _ => meets_pure unopened) fun found => by simp [some] at found
    · refine meets_ite (fun missing => by simp at missing) fun _ => ?_
      apply meets_bind_modify
      exact meets_pure (adopted _ standing)

theorem openLocked_meets (disk : OnDisk w.directory layout start next []) (bound : next < 2 ^ 64)
    (fresh : layout = [] → next = 1) (unpoisoned : w.journal.poisoned = false) (closed : w.journal.opened = false) :
    Meets (openLocked json limit) w fun _ after => Opened after layout start next := by
  have unopened (directory : Directory) (on : OnDisk directory layout start next []) :
      Opened { w with directory } layout start next := ⟨on, unpoisoned, by simp [closed]⟩
  have same := unopened w.directory disk
  refine meets_ensureDirectory same same fun error => ?_
  refine meets_ite (fun _ => meets_pure same) fun _ => ?_
  refine meets_status same fun error => ?_
  refine meets_ite (fun _ => meets_pure same) fun _ => ?_
  refine meets_lock same fun directory either => ?_
  have on : OnDisk directory layout start next [] := by
    rcases List.mem_cons.1 either with rfl | created
    · exact disk
    · rw [List.mem_singleton.1 created]
      exact disk.lock
  have locked := unopened directory on
  refine ⟨locked, fun error => ?_⟩
  cases error
  case none =>
    refine meets_bind ((locate_meets on bound fresh).mono fun exit after reached => ?_)
    obtain ⟨rfl, found⟩ := reached
    cases exit with
    | thrown => exact locked
    | waiting => exact locked
    | returned result =>
        cases result with
        | error detail =>
            dsimp only [andThen]
            exact meets_pure locked
        | ok located => exact openLocated_meets on bound unpoisoned closed (found located rfl)
  all_goals exact meets_pure locked

theorem openJournal_meets {what : Bytes} (disk : OnDisk w.directory layout start next []) (bound : next < 2 ^ 64)
    (fresh : layout = [] → next = 1) (blank : w.journal = {}) :
    Meets (openJournal json what limit) w fun _ after => Opened after layout start next := by
  apply meets_journal
  rw [if_neg (by simp [blank])]
  refine meets_rescue ((openLocked_meets disk bound fresh (by simp [blank]) (by simp [blank])).mono ?_)
  intro exit after opened
  cases exit with
  | thrown =>
      dsimp only [orElse]
      exact meets_pure opened
  | returned result => exact opened
  | waiting => exact opened

end SegmentJournal

end Opening

def Kept (events : List LogicalJobEvent) (start next : Nat) (w : World) : Prop :=
  ∃ layout, layout.events = events ∧ OnDisk w.directory layout start next []

def Torn (event : LogicalJobEvent) (events : List LogicalJobEvent) (start next : Nat) (w : World) : Prop :=
  ∃ (layout : Layout) (tail : Bytes), layout.events = events ∧ OnDisk w.directory layout start next tail ∧
    (tail = [] ∨ layout ≠ [] ∧ encodeRecord event = .ok (emit event) ∧ event.sequence.toNat = next ∧ tail <+: emit event)

structure Live (w : World) (layout : Layout) (start next : Nat) : Prop where
  ready : Ready w layout start next
  opened : w.journal.opened = true
  unpoisoned : w.journal.poisoned = false

def Prepared (events : List LogicalJobEvent) (start next : Nat) : Exit LogicalCommitResult → World → Prop
  | .returned .committed, after =>
      ∃ layout, layout.events = events ∧ Live after layout start next ∧ after.journal.active.isSome
  | .returned .definiteFailure, after => Kept events start next after
  | .returned .outcomeUnknown, _ => False
  | .thrown, after => Kept events start next after ∧ after.journal.recordStarted = false
  | .waiting, after => Kept events start next after

def Settled (event : LogicalJobEvent) (events : List LogicalJobEvent) (start next : Nat) :
    Exit LogicalCommitResult → World → Prop
  | .returned .committed, after =>
      encodeRecord event = .ok (emit event) ∧ event.sequence.toNat = next ∧
        ∃ layout, layout.events = events ++ [event] ∧ Live after layout start (next + 1)
  | .returned .definiteFailure, after => Kept events start next after
  | .returned .outcomeUnknown, after => Torn event events start next after
  | .thrown, after => Kept events start next after ∧ after.journal.recordStarted = false
  | .waiting, after => Torn event events start next after

section Committing

variable {limit : UInt64} {w : World} {layout : Layout} {start next : Nat} {event : LogicalJobEvent}

theorem Live.kept (live : Live w layout start next) : Kept layout.events start next w :=
  ⟨layout, rfl, live.ready.disk⟩

theorem Kept.torn {events : List LogicalJobEvent} (kept : Kept events start next w) : Torn event events start next w := by
  obtain ⟨layout, same, disk⟩ := kept
  exact ⟨layout, [], same, disk, .inl rfl⟩

theorem Kept.of_directory {events : List LogicalJobEvent} {after : World} (kept : Kept events start next w)
    (same : after.directory = w.directory) : Kept events start next after := by
  obtain ⟨layout, events, disk⟩ := kept
  exact ⟨layout, events, same ▸ disk⟩

theorem Torn.of_directory {events : List LogicalJobEvent} {after : World}
    (torn : Torn event events start next w) (same : after.directory = w.directory) : Torn event events start next after := by
  obtain ⟨layout, tail, events, disk, part⟩ := torn
  exact ⟨layout, tail, events, same ▸ disk, part⟩

theorem Live.setFlags (live : Live w layout start next) (activeDurable recordStarted : Bool) :
    Live { w with journal := { w.journal with activeDurable, recordStarted } } layout start next :=
  ⟨⟨live.ready.disk, live.ready.bound, live.ready.sequence, live.ready.standing⟩, live.opened, live.unpoisoned⟩

theorem Layout.events_concat {first : Nat} {events : List LogicalJobEvent} :
    Layout.events (layout ++ [(first, events)]) = layout.events ++ events := by simp [Layout.events]

theorem OnDisk.create {directory : Directory} (disk : OnDisk directory layout start next []) (small : next < 2 ^ 64)
    (full : ∀ segment ∈ layout, segment.2 ≠ []) :
    OnDisk (directory.create (segmentName (UInt64.ofNat next))) (layout ++ [(next, [])]) start next [] where
  positive := disk.positive
  chain := chain_concat.2 ⟨disk.chain, full, trivial, rfl⟩
  named := by
    intro segment member
    rcases List.mem_append.1 member with inside | last
    · exact disk.named segment inside
    · rw [List.mem_singleton.1 last]
      exact small
  encodable := by
    rw [Layout.events_concat, List.append_nil]
    exact disk.encodable
  shows := (disk.shows.create disk.chain disk.positive small full).2

theorem OnDisk.append {directory : Directory} {last : Nat × List LogicalJobEvent} {tail : Bytes}
    (disk : OnDisk directory (layout ++ [last]) start next tail) (bytes : Bytes) :
    OnDisk (directory.append (nameOfSegment last) bytes) (layout ++ [last]) start next (tail ++ bytes) :=
  { disk with shows := disk.shows.append disk.chain disk.named bytes }

theorem OnDisk.complete {directory : Directory} {first : Nat} {events : List LogicalJobEvent}
    (disk : OnDisk directory (layout ++ [(first, events)]) start next (emit event))
    (encoded : encodeRecord event = .ok (emit event)) (numbered : event.sequence.toNat = next) :
    OnDisk directory (layout ++ [(first, events ++ [event])]) start (next + 1) [] where
  positive := disk.positive
  chain := by
    obtain ⟨chain, full, inner, total⟩ := chain_concat.1 disk.chain
    refine chain_concat.2 ⟨chain, full, numbered_concat.2 ⟨inner, numbered.trans total.symm⟩, ?_⟩
    rw [List.length_append, List.length_singleton, ← Nat.add_assoc, total]
  named := by
    intro segment member
    rcases List.mem_append.1 member with inside | last
    · exact disk.named segment (List.mem_append_left _ inside)
    · rw [List.mem_singleton.1 last]
      exact disk.named (first, events) (by simp)
  encodable := by
    intro e member
    rw [Layout.events_concat, ← List.append_assoc, ← Layout.events_concat] at member
    rcases List.mem_append.1 member with inside | last
    · exact disk.encodable e inside
    · rw [List.mem_singleton.1 last]
      exact encoded
  shows := by
    have shown := disk.shows
    refine ⟨shown.distinct, ?_⟩
    have files := shown.files
    rw [render_concat] at files ⊢
    simpa [nameOfSegment] using files

theorem Ready.small (ready : Ready w layout start next) (encoded : encodeRecord event = .ok (emit event))
    (sequence : event.sequence = w.journal.nextSequence) : event.sequence.toNat = next ∧ next < 2 ^ 64 := by
  have positive := (violation_eq_none.1 (encodeRecord_eq_ok_iff.1 encoded).1).2.1
  have nonzero : event.sequence ≠ 0 := by
    rintro zero
    rw [zero] at positive
    exact absurd positive (by decide)
  have bound := ready.bound
  rw [sequence, ready.sequence] at nonzero ⊢
  have small : next < 2 ^ 64 := by
    refine lt_of_le_of_ne bound fun full => nonzero ?_
    rw [full]
    rfl
  exact ⟨UInt64.toNat_ofNat_of_lt' small, small⟩

namespace SegmentJournal

theorem syncActive_meets {post : Exit LogicalCommitResult → World → Prop} (waiting : post .waiting w)
    (failed : post (.returned .definiteFailure) w)
    (synced : post (.returned .committed) { w with journal := { w.journal with activeDurable := true } }) :
    Meets syncActive w post := by
  refine meets_status waiting fun error => ?_
  refine meets_ite (fun _ => meets_pure failed) fun _ => ?_
  refine meets_status waiting fun error => ?_
  refine meets_ite (fun _ => meets_pure failed) fun _ => ?_
  apply meets_bind_modify
  exact meets_pure synced

theorem makeActiveDurable_meets {post : Exit LogicalCommitResult → World → Prop} (waiting : post .waiting w)
    (failed : post (.returned .definiteFailure) w)
    (synced : post (.returned .committed) { w with journal := { w.journal with activeDurable := true } }) :
    Meets makeActiveDurable w post := by
  apply meets_journal
  exact meets_ite (fun _ => meets_pure failed) fun _ => syncActive_meets waiting failed synced

theorem startSegment_meets (live : Live w layout start next) (small : next < 2 ^ 64)
    (full : ∀ segment ∈ layout, segment.2 ≠ []) (idle : w.journal.recordStarted = false) :
    Meets (startSegment (UInt64.ofNat next)) w (Prepared layout.events start next) := by
  have made := live.ready.disk.create small full
  have events : Layout.events (layout ++ [(next, [])]) = layout.events := by
    rw [Layout.events_concat, List.append_nil]
  refine meets_openNew live.kept (fun directory either => ?_) ?_
  · have kept : Kept layout.events start next { w with directory } := by
      rcases List.mem_cons.1 either with rfl | created
      · exact live.kept
      · rw [List.mem_singleton.1 created]
        exact ⟨_, events, made⟩
    exact ⟨⟨kept, idle⟩, meets_pure kept⟩
  · apply meets_bind_modify
    rw [← events]
    have kept : Kept (Layout.events (layout ++ [(next, [])])) start next
        { w with directory := w.directory.create (segmentName (UInt64.ofNat next)) } := ⟨_, rfl, made⟩
    refine syncActive_meets kept kept ⟨_, rfl, ⟨⟨made, live.ready.bound, live.ready.sequence, ?_⟩, live.opened, live.unpoisoned⟩, rfl⟩
    exact ⟨layout, (next, []), rfl, rfl, rfl⟩

theorem Standing.full {before : Layout} {last : Nat × List LogicalJobEvent} {size : UInt64}
    (chain : Chain start (before ++ [last]) next) (sized : size = UInt64.ofNat (records last.2).length) (used : size > 0) :
    ∀ segment ∈ before ++ [last], segment.2 ≠ [] := by
  intro segment member
  rcases List.mem_append.1 member with inside | final
  · exact chain.nonempty segment inside
  · rw [List.mem_singleton.1 final]
    intro empty
    rw [sized, empty] at used
    exact absurd used (by decide)

theorem rotate_meets (live : Live w layout start next) (small : next < 2 ^ 64)
    (sequence : event.sequence = UInt64.ofNat next) (idle : w.journal.recordStarted = false) {size : Nat} :
    Meets (rotate limit event size) w (Prepared layout.events start next) := by
  have standing := live.ready.standing
  apply meets_journal
  refine meets_ite (fun needed => ?_) fun adopted => ?_
  · have full : ∀ segment ∈ layout, segment.2 ≠ [] := by
      cases active : w.journal.active with
      | none =>
          rw [active] at standing
          exact standing
      | some name =>
          rw [active] at standing
          obtain ⟨before, last, rfl, -, sized⟩ := standing
          simp only [active, Option.isNone_some, Bool.false_or, Bool.and_eq_true, decide_eq_true_eq] at needed
          exact Standing.full live.ready.disk.chain sized needed.1
    apply meets_bind_modify
    rw [sequence]
    refine startSegment_meets ⟨⟨live.ready.disk, live.ready.bound, live.ready.sequence, ?_⟩, live.opened, live.unpoisoned⟩
      small full idle
    exact full
  · refine meets_pure ⟨layout, rfl, live, ?_⟩
    cases active : w.journal.active with
    | none => simp [active] at adopted
    | some name => rfl

structure Writing (event : LogicalJobEvent) (before : Layout) (last : Nat × List LogicalJobEvent) (start next : Nat)
    (written : Nat) (w : World) : Prop where
  within : written ≤ (emit event).length
  disk : OnDisk w.directory (before ++ [last]) start next ((emit event).take written)
  size : w.journal.activeSize = UInt64.ofNat ((records last.2).length + written)
  active : w.journal.active = some (nameOfSegment last)
  sequence : w.journal.nextSequence = UInt64.ofNat next
  opened : w.journal.opened = true
  unpoisoned : w.journal.poisoned = false

variable {before : Layout} {last : Nat × List LogicalJobEvent} {written : Nat}

theorem Writing.torn (writing : Writing event before last start next written w)
    (encoded : encodeRecord event = .ok (emit event)) (numbered : event.sequence.toNat = next) :
    Torn event (Layout.events (before ++ [last])) start next w :=
  ⟨_, _, rfl, writing.disk, .inr ⟨by simp, encoded, numbered, List.take_prefix _ _⟩⟩

theorem Writing.advance (writing : Writing event before last start next written w) {taken : Nat}
    (fits : taken ≤ ((emit event).drop written).length) :
    Writing event before last start next (written + taken)
      { directory := w.directory.append (nameOfSegment last) (((emit event).drop written).take taken)
        journal := { w.journal with activeSize := w.journal.activeSize + UInt64.ofNat taken } } where
  within := by
    have within := writing.within
    rw [List.length_drop] at fits
    omega
  disk := by
    rw [List.take_add]
    exact writing.disk.append _
  size := by
    show w.journal.activeSize + UInt64.ofNat taken = _
    rw [writing.size, ← UInt64.ofNat_add, Nat.add_assoc]
  active := writing.active
  sequence := writing.sequence
  opened := writing.opened
  unpoisoned := writing.unpoisoned

theorem Writing.failed (writing : Writing event before last start next written w)
    (encoded : encodeRecord event = .ok (emit event)) (numbered : event.sequence.toNat = next) :
    Settled event (Layout.events (before ++ [last])) start next (.returned (failedWrite written)) w := by
  unfold failedWrite
  split
  next zero =>
    have disk := writing.disk
    rw [zero, List.take_zero] at disk
    exact ⟨_, rfl, disk⟩
  next => exact writing.torn encoded numbered

theorem Writing.finished {first : Nat} {events : List LogicalJobEvent}
    (writing : Writing event before (first, events) start next (emit event).length w)
    (encoded : encodeRecord event = .ok (emit event)) (numbered : event.sequence.toNat = next) (small : next < 2 ^ 64) :
    Live { w with journal := { w.journal with nextSequence := w.journal.nextSequence + 1 } }
      (before ++ [(first, events ++ [event])]) start (next + 1) := by
  have disk := writing.disk
  rw [List.take_length] at disk
  refine ⟨⟨disk.complete encoded numbered, small, ?_, ?_⟩, writing.opened, writing.unpoisoned⟩
  · show w.journal.nextSequence + 1 = _
    rw [writing.sequence, UInt64.ofNat_add]
    rfl
  · show Standing _ w.journal.active w.journal.activeSize
    rw [writing.active, writing.size]
    exact ⟨before, _, rfl, rfl, by simp⟩

theorem writeRecord_meets {first : Nat} {events : List LogicalJobEvent}
    (live : Live w (before ++ [(first, events)]) start next) (small : next < 2 ^ 64)
    (active : w.journal.active = some (nameOfSegment (first, events)))
    (sized : w.journal.activeSize = UInt64.ofNat (records events).length)
    (encoded : encodeRecord event = .ok (emit event)) (numbered : event.sequence.toNat = next) :
    Meets (writeRecord (nameOfSegment (first, events)) (emit event)) w
      (Settled event (Layout.events (before ++ [(first, events)])) start next) := by
  apply meets_bind_modify
  refine meets_bind (meets_iterate (Writing event before (first, events) start next)
    ⟨Nat.zero_le _, live.ready.disk, sized, active, live.ready.sequence, live.opened, live.unpoisoned⟩
    (fun written t writing => writing.torn encoded numbered) fun written t writing => ?_)
  have torn := writing.torn encoded numbered
  refine meets_ite (fun more => ?_) fun done => ?_
  · refine meets_write torn fun taken error fits => ?_
    have advanced := writing.advance fits
    have failed := advanced.failed encoded numbered
    apply meets_bind_modify
    refine meets_ite (fun _ => meets_pure advanced) fun _ => ?_
    refine meets_ite (fun _ => meets_pure (meets_pure failed)) fun _ => ?_
    exact meets_ite (fun _ => meets_pure (meets_pure failed)) fun _ => meets_pure advanced
  · obtain rfl : written = (emit event).length := le_antisymm writing.within (not_lt.1 done)
    refine meets_pure (meets_status torn fun error => ?_)
    refine meets_ite (fun _ => meets_pure torn) fun _ => ?_
    apply meets_bind_modify
    refine meets_pure ⟨encoded, numbered, _, ?_, writing.finished encoded numbered small⟩
    rw [Layout.events_concat, Layout.events_concat, List.append_assoc]

theorem appendRecord_meets (live : Live w layout start next) (small : next < 2 ^ 64) (active : w.journal.active.isSome)
    (encoded : encodeRecord event = .ok (emit event)) (numbered : event.sequence.toNat = next) :
    Meets (appendRecord (emit event)) w (Settled event layout.events start next) := by
  have standing := live.ready.standing
  obtain ⟨file, present⟩ := Option.isSome_iff_exists.1 active
  rw [present] at standing
  obtain ⟨before, ⟨first, events⟩, rfl, rfl, sized⟩ := standing
  have write (durable : Bool) := writeRecord_meets (live.setFlags durable w.journal.recordStarted) small present sized encoded numbered
  apply meets_journal
  rw [present]
  dsimp only
  refine meets_ite (fun _ => meets_bind_pure ?_) fun _ => ?_
  · exact meets_ite (fun other => absurd rfl other) fun _ => write w.journal.activeDurable
  · refine meets_bind (makeActiveDurable_meets live.kept.torn ?_ ?_)
    · exact meets_ite (fun _ => meets_pure live.kept) fun same => absurd (by decide) same
    · exact meets_ite (fun other => absurd rfl other) fun _ => write true

theorem commitLocked_meets (live : Live w layout start next) (idle : w.journal.recordStarted = false) :
    Meets (commitLocked limit event) w (Settled event layout.events start next) := by
  apply meets_journal
  refine meets_ite (fun _ => meets_pure live.kept) fun same => ?_
  have sequence : event.sequence = w.journal.nextSequence := not_not.1 same
  cases encodes : encodeRecord event with
  | error why => exact meets_pure live.kept
  | ok bytes =>
      obtain rfl := (encodeRecord_eq_ok_iff.1 encodes).2.1
      obtain ⟨numbered, small⟩ := live.ready.small encodes sequence
      refine meets_bind ((rotate_meets live small (sequence.trans live.ready.sequence) idle).mono ?_)
      intro exit after prepared
      cases exit with
      | thrown => exact prepared
      | waiting => exact Kept.torn prepared
      | returned result =>
          cases result with
          | committed =>
              obtain ⟨rotated, same, ready, active⟩ := prepared
              rw [← same]
              exact meets_ite (fun other => absurd rfl other) fun _ => appendRecord_meets ready small active encodes numbered
          | definiteFailure => exact meets_ite (fun _ => meets_pure prepared) fun same => absurd (by decide) same
          | outcomeUnknown => exact prepared.elim

def Answered (event : LogicalJobEvent) (events : List LogicalJobEvent) (start next : Nat) :
    Exit LogicalCommitResult → World → Prop
  | .returned .committed, after =>
      ∃ layout, layout.events = events ++ [event] ∧ Live after layout start (next + 1)
  | .returned .definiteFailure, after => Kept events start next after ∧ after.journal.poisoned = true
  | .returned .outcomeUnknown, after => Torn event events start next after ∧ after.journal.poisoned = true
  | .thrown, _ => False
  | .waiting, after => Torn event events start next after

theorem commit_meets {locks : Bool} (live : Live w layout start next) :
    Meets (commit limit locks event) w (Answered event layout.events start next) := by
  apply meets_journal
  refine meets_ite (fun _ => meets_bind_modify (meets_pure ⟨live.kept, rfl⟩)) fun _ => ?_
  apply meets_rescue
  apply meets_bind_modify
  refine meets_bind ((commitLocked_meets (live.setFlags w.journal.activeDurable false) rfl).mono ?_)
  intro exit after settled
  cases exit with
  | waiting => exact settled
  | thrown =>
      -- Only a call before the first byte can throw, so the handler reports a definite failure.
      obtain ⟨kept, idle⟩ := settled
      apply meets_bind_modify
      apply meets_journal
      dsimp only
      rw [idle]
      exact meets_pure ⟨kept, rfl⟩
  | returned result =>
      cases result with
      | committed =>
          refine meets_ite (fun other => absurd rfl other) fun _ => meets_pure ?_
          exact settled.2.2
      | definiteFailure =>
          refine meets_ite (fun _ => meets_bind_modify (meets_pure ⟨settled, rfl⟩)) fun same => absurd (by decide) same
      | outcomeUnknown =>
          refine meets_ite (fun _ => meets_bind_modify (meets_pure ⟨settled, rfl⟩)) fun same => absurd (by decide) same

def Refusing (w : World) : Prop := w.journal.opened = false ∨ w.journal.poisoned = true

theorem commit_refuses (refusing : Refusing w) (limit : UInt64) (locks : Bool) (event : LogicalJobEvent) :
    Meets (commit limit locks event) w fun exit after =>
      exit = .returned .definiteFailure ∧ after.directory = w.directory ∧ Refusing after := by
  apply meets_journal
  refine meets_ite (fun _ => meets_bind_modify (meets_pure ⟨rfl, rfl, .inr rfl⟩)) fun taken => absurd ?_ taken
  rcases refusing with closed | poisoned
  · simp [closed]
  · simp [poisoned]

end SegmentJournal

end Committing

namespace SegmentJournal

abbrev Results := List (LogicalJobEvent × Exit LogicalCommitResult)

def Committed (results : Results) : Prop := ∀ result ∈ results, result.2 = .returned .committed

def Refused (results : Results) : Prop := ∀ result ∈ results, result.2 = .returned .definiteFailure

inductive Course (base : List LogicalJobEvent) (start : Nat) : World → Results → Prop
  | live {w : World} {results : Results} {layout : Layout} {next : Nat} (all : Committed results)
      (same : layout.events = base ++ results.map (·.1)) (live : Live w layout start next) : Course base start w results
  | stopped {w : World} {committed refused : Results} {next : Nat} (all : Committed committed) (rest : Refused refused)
      (refusing : Refusing w) (kept : Kept (base ++ committed.map (·.1)) start next w) :
      Course base start w (committed ++ refused)
  | unknown {w : World} {committed refused : Results} {event : LogicalJobEvent} {next : Nat} (all : Committed committed)
      (rest : Refused refused) (refusing : Refusing w) (torn : Torn event (base ++ committed.map (·.1)) start next w) :
      Course base start w (committed ++ (event, .returned .outcomeUnknown) :: refused)
  | pending {w : World} {committed : Results} {event : LogicalJobEvent} {next : Nat} (all : Committed committed)
      (torn : Torn event (base ++ committed.map (·.1)) start next w) :
      Course base start w (committed ++ [(event, .waiting)])

section Runs

variable {limit : UInt64} {w : World} {base : List LogicalJobEvent} {start : Nat} {results : Results}

theorem Refused.concat (refused : Refused results) (event : LogicalJobEvent) :
    Refused (results ++ [(event, .returned .definiteFailure)]) := by
  intro result member
  rcases List.mem_append.1 member with before | last
  · exact refused result before
  · rw [List.mem_singleton.1 last]

theorem Committed.concat (committed : Committed results) (event : LogicalJobEvent) :
    Committed (results ++ [(event, .returned .committed)]) := by
  intro result member
  rcases List.mem_append.1 member with before | last
  · exact committed result before
  · rw [List.mem_singleton.1 last]

theorem Course.step (course : Course base start w results) (going : ∀ result ∈ results, result.2 ≠ .waiting)
    (limit : UInt64) (locks : Bool) (event : LogicalJobEvent) :
    Meets (commit limit locks event) w fun exit after => Course base start after (results ++ [(event, exit)]) := by
  cases course with
  | live all same live =>
      refine (commit_meets live).mono fun exit after answered => ?_
      rw [same] at answered
      cases exit with
      | thrown => exact answered.elim
      | waiting => exact .pending all answered
      | returned result =>
          cases result with
          | committed =>
              obtain ⟨grown, same, live⟩ := answered
              refine .live (all.concat event) ?_ live
              rw [same, List.map_append, List.append_assoc]
              rfl
          | definiteFailure => exact .stopped all (by simp [Refused]) (.inr answered.2) answered.1
          | outcomeUnknown => exact .unknown all (by simp [Refused]) (.inr answered.2) answered.1
  | stopped all rest refusing kept =>
      refine (commit_refuses refusing limit locks event).mono fun exit after answered => ?_
      obtain ⟨rfl, same, still⟩ := answered
      rw [List.append_assoc]
      exact .stopped all (rest.concat event) still (kept.of_directory same)
  | unknown all rest refusing torn =>
      refine (commit_refuses refusing limit locks event).mono fun exit after answered => ?_
      obtain ⟨rfl, same, still⟩ := answered
      rw [List.append_assoc]
      exact .unknown all (rest.concat event) still (torn.of_directory same)
  | @pending committed last next all torn => exact absurd rfl (going (last, .waiting) (by simp))

theorem commits_course (calls : List CommitCall) (course : Course base start w results)
    (going : ∀ result ∈ results, result.2 ≠ .waiting) :
    Course base start (commits limit calls w).1 (results ++ (commits limit calls w).2) := by
  induction calls generalizing w results with
  | nil => simpa [commits] using course
  | cons call calls ih =>
      have stepped := course.step going limit call.locks call.event call.answers
      rw [commits]
      split
      next after left answer =>
        rw [answer] at stepped
        exact stepped
      next exit after left other answer =>
        rw [answer] at stepped
        have rest := ih stepped fun result member => by
          rcases List.mem_append.1 member with before | last
          · exact going result before
          · rw [List.mem_singleton.1 last]
            exact fun waits => other (by rw [← waits])
        simpa using rest

theorem commits_refuses (calls : List CommitCall) (refusing : Refusing w) :
    (commits limit calls w).1.directory = w.directory := by
  induction calls generalizing w with
  | nil => rfl
  | cons call calls ih =>
      have answered := commit_refuses refusing limit call.locks call.event call.answers
      rw [commits]
      split
      next after left answer =>
        rw [answer] at answered
        exact answered.2.1
      next exit after left _ answer =>
        rw [answer] at answered
        exact (ih answered.2.2).trans answered.2.1

theorem commits_append (before later : List CommitCall) :
    commits limit (before ++ later) w = commits limit before w ∨
      (∀ result ∈ (commits limit before w).2, result.2 ≠ .waiting) ∧
        commits limit (before ++ later) w =
          ((commits limit later (commits limit before w).1).1,
            (commits limit before w).2 ++ (commits limit later (commits limit before w).1).2) := by
  induction before generalizing w with
  | nil => exact .inr ⟨by simp [commits], rfl⟩
  | cons call before ih =>
      rw [List.cons_append, commits, commits]
      split
      next => exact .inl rfl
      next exit after left other answer =>
        rcases @ih after with held | ⟨going, follows⟩
        · exact .inl (by rw [held])
        · refine .inr ⟨?_, by rw [follows]; rfl⟩
          intro result member
          rcases List.mem_cons.1 member with rfl | inside
          · exact fun waits => other (by rw [← waits])
          · exact going result inside

end Runs

def journalBytes (directory : Directory) : Bytes := ((sortedSegments directory).map (·.2)).flatten

theorem bytes_of_onDisk {directory : Directory} {layout : Layout} {start next : Nat} {tail : Bytes}
    (disk : OnDisk directory layout start next tail) (tailed : layout = [] → tail = []) :
    journalBytes directory = records layout.events ++ tail := by
  rw [journalBytes, disk.shows.sorted disk.chain disk.named, render_bytes tailed]

theorem bytes_of_kept {events : List LogicalJobEvent} {start next : Nat} {w : World} (kept : Kept events start next w) :
    journalBytes w.directory = records events := by
  obtain ⟨layout, rfl, disk⟩ := kept
  rw [bytes_of_onDisk disk fun _ => rfl, List.append_nil]

section Exact

variable {limit : UInt64} {w : World} {base : List LogicalJobEvent} {start : Nat} {results : Results}

/-- The records on disk are the old ones and those of the committed events; a tail belongs to the event whose call
ended the writing. -/
def Exact (base : List LogicalJobEvent) (start : Nat) (w : World) (results : Results) : Prop :=
  ∃ committed rest : Results, results = committed ++ rest ∧ Committed committed ∧
    (∀ result ∈ rest, result.2 ≠ .returned .committed) ∧ Refused rest.tail ∧
    ∃ (layout : Layout) (next : Nat) (tail : Bytes), layout.events = base ++ committed.map (·.1) ∧
      OnDisk w.directory layout start next tail ∧ (layout = [] → tail = []) ∧
      (tail ≠ [] → ∃ event exit, rest.head? = some (event, exit) ∧ (exit = .returned .outcomeUnknown ∨ exit = .waiting) ∧
        encodeRecord event = .ok (emit event) ∧ event.sequence.toNat = next ∧ tail <+: emit event)

theorem Refused.not_committed (refused : Refused results) : ∀ result ∈ results, result.2 ≠ .returned .committed := by
  intro result member
  rw [refused result member]
  decide

theorem exact_of_torn {committed refused : Results} {event : LogicalJobEvent} {exit : Exit LogicalCommitResult} {next : Nat}
    (torn : Torn event (base ++ committed.map (·.1)) start next w) (all : Committed committed) (rest : Refused refused)
    (ended : exit = .returned .outcomeUnknown ∨ exit = .waiting) :
    Exact base start w (committed ++ (event, exit) :: refused) := by
  obtain ⟨layout, tail, same, disk, part⟩ := torn
  refine ⟨committed, _, rfl, all, ?_, rest, layout, next, tail, same, disk, ?_, ?_⟩
  · intro result member
    rcases List.mem_cons.1 member with rfl | inside
    · rcases ended with rfl | rfl <;> simp
    · exact rest.not_committed result inside
  · intro empty
    exact part.elim id fun further => absurd empty further.1
  · intro nonempty
    obtain ⟨-, encoded, numbered, within⟩ := part.resolve_left nonempty
    exact ⟨event, exit, rfl, ended, encoded, numbered, within⟩

theorem Course.exact (course : Course base start w results) : Exact base start w results := by
  cases course with
  | live all same live =>
      exact ⟨results, [], by simp, all, by simp, by simp [Refused], _, _, [], same, live.ready.disk, by simp, by simp⟩
  | stopped all rest refusing kept =>
      obtain ⟨layout, same, disk⟩ := kept
      exact ⟨_, _, rfl, all, rest.not_committed, fun result member => rest result (List.mem_of_mem_tail member),
        layout, _, [], same, disk, by simp, by simp⟩
  | unknown all rest refusing torn => exact exact_of_torn torn all rest (.inl rfl)
  | pending all torn => exact exact_of_torn torn all (by simp [Refused]) (.inr rfl)

theorem commits_single (call : CommitCall) :
    commits limit [call] w =
      ((commit limit call.locks call.event w call.answers).2.1,
        [(call.event, (commit limit call.locks call.event w call.answers).1)]) := by
  rw [commits]
  split
  next answer => rw [answer]
  next answer =>
    rw [answer]
    rfl

theorem Course.stage (course : Course base start w results) (going : ∀ result ∈ results, result.2 ≠ .waiting) :
    (Committed results ∧ ∃ layout next, Live w layout start next) ∨ Refusing w := by
  cases course with
  | live all same live => exact .inl ⟨all, _, _, live⟩
  | stopped all rest refusing kept => exact .inr refusing
  | unknown all rest refusing torn => exact .inr refusing
  | @pending committed event next all torn => exact absurd rfl (going (event, .waiting) (by simp))

theorem commits_stage (course : Course base start w []) (before : List CommitCall)
    (going : ∀ result ∈ (commits limit before w).2, result.2 ≠ .waiting) :
    (Committed (commits limit before w).2 ∧ ∃ layout next, Live (commits limit before w).1 layout start next) ∨
      Refusing (commits limit before w).1 :=
  (commits_course before course (by simp)).stage going

theorem commits_definiteFailure (course : Course base start w []) (before : List CommitCall) (call : CommitCall)
    (last : (commits limit (before ++ [call]) w).2.getLast? = some (call.event, .returned .definiteFailure)) :
    journalBytes (commits limit (before ++ [call]) w).1.directory = journalBytes (commits limit before w).1.directory := by
  rcases @commits_append limit w before [call] with held | ⟨going, follows⟩
  · rw [held]
  · rw [follows] at last ⊢
    rcases commits_stage course before going with ⟨-, layout, next, live⟩ | refusing
    · have answered := @commit_meets limit _ _ start _ call.event call.locks live call.answers
      rw [commits_single] at last ⊢
      have definite : (commit limit call.locks call.event (commits limit before w).1 call.answers).1 =
          .returned .definiteFailure := by simpa using last
      rw [definite] at answered
      exact (bytes_of_kept answered.1).trans (bytes_of_kept live.kept).symm
    · exact congrArg journalBytes (commits_refuses [call] refusing)

theorem commits_frozen (course : Course base start w []) (before later : List CommitCall)
    (ended : ∃ result ∈ (commits limit before w).2, result.2 ≠ .returned .committed) :
    (commits limit (before ++ later) w).1.directory = (commits limit before w).1.directory := by
  rcases @commits_append limit w before later with held | ⟨going, follows⟩
  · rw [held]
  · rw [follows]
    rcases commits_stage course before going with ⟨all, -⟩ | refusing
    · obtain ⟨result, member, other⟩ := ended
      exact absurd (all result member) other
    · exact commits_refuses later refusing

theorem course_of_opened {layout : Layout} {next : Nat} (opened : Opened w layout start next) :
    Course layout.events start w [] := by
  cases state : w.journal.opened with
  | true => exact .live (by simp [Committed]) (by simp) ⟨opened.ready state, state, opened.unpoisoned⟩
  | false =>
      have kept : Kept (layout.events ++ ([] : Results).map (·.1)) start next w := ⟨layout, by simp, opened.disk⟩
      have all : Committed [] := by simp [Committed]
      have rest : Refused [] := by simp [Refused]
      exact .stopped all rest (.inl state) kept

end Exact

theorem run_cases {json : JsonLibrary} {directory : Directory} {layout : Layout} {start next : Nat}
    (disk : OnDisk directory layout start next []) (bound : next < 2 ^ 64) (fresh : layout = [] → next = 1)
    (exception : Bytes) (limit : UInt64) (opening : List Answer) :
    ∃ w, Course layout.events start w [] ∧
      ((∀ calls, run json exception limit directory opening calls = commits limit calls w) ∨
        ∀ calls, run json exception limit directory opening calls = (w, [])) := by
  have opened := @openJournal_meets json limit { directory } layout start next exception disk bound fresh rfl opening
  refine ⟨_, course_of_opened opened, ?_⟩
  unfold run
  split
  next answer =>
    rw [answer]
    exact .inr fun _ => rfl
  next answer =>
    rw [answer]
    exact .inl fun _ => rfl

/-- Opening a Journal that replay accepts, however it ends, and then any calls: the segment files are the old records,
those of the committed events and at most a part of one further record. A definite failure adds no byte, and after the
first call that did not commit no file changes. -/
theorem segmentJournal_exact {lib : Libraries} {what : Bytes} {maxJobs : Nat} {directory : Directory}
    (distinct : directory.names.Nodup)
    (replayed : (replayJournal lib what maxJobs (some directory.names) directory.read).status = .replayed)
    (exception : Bytes) (limit : UInt64) (opening : List Answer) (calls : List CommitCall) :
    let ran := run lib.json exception limit directory opening
    (∃ (committed rest : Results) (layout : Layout) (start next : Nat) (tail : Bytes),
      (ran calls).2 = committed ++ rest ∧ Committed committed ∧ (∀ result ∈ rest, result.2 ≠ .returned .committed) ∧
      Refused rest.tail ∧ OnDisk (ran calls).1.directory layout start next tail ∧
      sortedSegments (ran calls).1.directory = render layout tail ∧
      journalBytes (ran calls).1.directory = journalBytes directory ++ records (committed.map (·.1)) ++ tail ∧
      (tail ≠ [] → ∃ event exit, rest.head? = some (event, exit) ∧
        (exit = .returned .outcomeUnknown ∨ exit = .waiting) ∧ encodeRecord event = .ok (emit event) ∧
        event.sequence.toNat = next ∧ tail <+: emit event)) ∧
    (∀ before call, calls = before ++ [call] →
      (ran calls).2.getLast? = some (call.event, .returned .definiteFailure) →
      journalBytes (ran calls).1.directory = journalBytes (ran before).1.directory) ∧
    ∀ before later, calls = before ++ later → (∃ result ∈ (ran before).2, result.2 ≠ .returned .committed) →
      (ran calls).1.directory = (ran before).1.directory := by
  obtain ⟨layout, start, next, disk, bound, fresh⟩ := replayed_shows distinct replayed
  have original : journalBytes directory = records layout.events := by
    rw [bytes_of_onDisk disk fun _ => rfl, List.append_nil]
  obtain ⟨w, course, follows⟩ := @run_cases lib.json _ _ _ _ disk bound fresh exception limit opening
  intro ran
  have ran_eq : (∀ calls, ran calls = commits limit calls w) ∨ ∀ calls, ran calls = (w, []) := follows
  have exact : Exact layout.events start (ran calls).1 (ran calls).2 := by
    rcases ran_eq with committing | waiting
    · rw [committing]
      exact (commits_course calls course (by simp)).exact
    · rw [waiting]
      exact course.exact
  refine ⟨?_, ?_, ?_⟩
  · obtain ⟨committed, rest, same, all, others, refused, grown, after, tail, events, onDisk, tailed, part⟩ := exact
    refine ⟨committed, rest, grown, start, after, tail, same, all, others, refused, onDisk, ?_, ?_, part⟩
    · exact onDisk.shows.sorted onDisk.chain onDisk.named
    · rw [bytes_of_onDisk onDisk tailed, events, records_append, original]
  · rintro before call rfl last
    rcases ran_eq with committing | waiting
    · rw [committing] at last ⊢
      rw [committing]
      exact commits_definiteFailure course before call last
    · rw [waiting, waiting]
  · rintro before later rfl ended
    rcases ran_eq with committing | waiting
    · rw [committing] at ended ⊢
      rw [committing]
      exact commits_frozen course before later ended
    · rw [waiting, waiting]

def sampleCancel (sequence : UInt64) : LogicalJobEvent :=
  recordOf { jobId := sampleJob, eventType := .cancelAccepted, payload := .principal ⟨text "operator"⟩ } sequence sampleStamp

/-- An interrupted write that is finished, then a short write and a full disk; both calls start a segment. -/
def sampleCalls : List CommitCall :=
  [⟨sampleCancel 2, true, [{ }, { }, { }, { error := .interrupted, written := 7 }, { written := 1000 }, { }]⟩,
    ⟨sampleCancel 3, true, [{ }, { }, { }, { written := 3 }, { error := .noSpace }]⟩]

theorem segmentJournal_exact_unknown :
    (run sampleLibraries.json [] 300 sampleOnDisk (List.replicate 6 { }) sampleCalls).2 =
        [(sampleCancel 2, .returned .committed), (sampleCancel 3, .returned .outcomeUnknown)] ∧
      ∀ call, (run sampleLibraries.json [] 300 sampleOnDisk (List.replicate 6 { }) (sampleCalls ++ [call])).1.directory =
        (run sampleLibraries.json [] 300 sampleOnDisk (List.replicate 6 { }) sampleCalls).1.directory := by
  have results : (run sampleLibraries.json [] 300 sampleOnDisk (List.replicate 6 { }) sampleCalls).2 =
      [(sampleCancel 2, .returned .committed), (sampleCancel 3, .returned .outcomeUnknown)] := by decide +kernel
  refine ⟨results, fun call => ?_⟩
  have exact := segmentJournal_exact sampleOnDisk_distinct sampleOnDisk_replayed [] 300 (List.replicate 6 { })
    (sampleCalls ++ [call])
  refine exact.2.2 sampleCalls [call] rfl ?_
  rw [results]
  exact ⟨(sampleCancel 3, .returned .outcomeUnknown), by simp, nofun⟩

end SegmentJournal

end Sitometron.Journal
