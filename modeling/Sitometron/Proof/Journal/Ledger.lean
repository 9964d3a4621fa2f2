import Sitometron.Lib.Eviction
import Sitometron.Proof.Journal.Layout
import Sitometron.Proof.Journal.Replay

/-!
# Replay as a fold over records

The tables of `Replayer` are one list of resident Jobs in the order of their creation. A full list makes room by
dropping its first closed Job.
-/

namespace Sitometron.Journal

open Core

structure Resident where
  snapshot : Snapshot
  created : UInt64
  span : JobSegmentSpan

namespace Resident

def id (r : Resident) : Bytes := r.snapshot.jobId.value

def closed (r : Resident) : Bool := isClosed r.snapshot

def revise (r : Resident) (after : Snapshot) (segment : Nat) : Resident :=
  { r with
    snapshot := after
    span := { r.span with lastSegment := segment } }

end Resident

structure Ledger where
  residents : List Resident := []
  segments : List ReplayedSegment := []
  records : UInt64 := 0
  expected : UInt64 := 1
  last : UInt64 := 0

namespace Ledger

def advance (f : Ledger) (sequence : UInt64) : Ledger :=
  { f with
    last := sequence
    expected := if sequence.toNat ≠ uint64Max then sequence + 1 else f.expected
    records := f.records + 1
    segments := f.segments.modify (f.segments.length - 1) fun segment => { segment with records := segment.records + 1 } }

def current (f : Ledger) : Nat := f.segments.length - 1

def revise (f : Ledger) (key : Bytes) (after : Snapshot) : Ledger :=
  { f with
    residents := f.residents.map fun r => if r.id = key then r.revise after f.current else r }

def step (lib : Libraries) (maxJobs : Nat) (f : Ledger) (e : LogicalJobEvent) : Option Ledger :=
  if e.sequence ≠ f.expected then none
  else match f.residents.find? (·.id = e.jobId.value) with
    | some r => match replayRecord lib (some r.snapshot) e with
        | .error _ => none
        | .ok after => some ((f.revise e.jobId.value after).advance e.sequence)
    | none => match replayRecord lib none e with
        | .error _ => none
        | .ok after =>
            (place maxJobs Resident.closed f.residents ⟨after, e.sequence, ⟨f.current, f.current⟩⟩).map fun residents =>
              { f with residents }.advance e.sequence

def replayer (f : Ledger) : Replayer where
  result :=
    { jobs := f.residents.map (·.snapshot)
      createdSequences := f.residents.map (·.created)
      spans := f.residents.map (·.span)
      segments := f.segments
      records := f.records }
  indexOf := fun key => f.residents.findIdx? (·.id = key)
  expected := f.expected
  last := f.last

structure Sound (f : Ledger) : Prop where
  distinct : (f.residents.map Resident.id).Nodup
  ascending : f.residents.Pairwise fun a b => a.created < b.created
  recent : ∀ r ∈ f.residents, r.created < f.expected

end Ledger

section Records

variable {lib : Libraries} {before : Option Snapshot} {e : LogicalJobEvent} {after : Snapshot}

theorem replayRecord_jobId (replayed : replayRecord lib before e = .ok after) : after.jobId = e.jobId := by
  obtain ⟨s, bytes, -, -, -, applied, rfl⟩ := replayRecord_eq_ok_iff.1 replayed
  obtain ⟨-, -, job, -, moves⟩ := Transition.of_apply applied
  exact moves.identity.2.trans job.symm

theorem replayRecord_created (replayed : replayRecord lib none e = .ok after) : e.eventType = .jobCreated := by
  obtain ⟨s, bytes, started, -⟩ := replayRecord_eq_ok_iff.1 replayed
  unfold replayStart at started
  split at started
  next created => exact created
  next => cases started

end Records

theorem oldestClosed_ascending {residents : List Resident} (ascending : residents.Pairwise fun a b => a.created < b.created) :
    oldestClosed residents.length (fun i => (residents.map (·.snapshot))[i]?)
      (fun i => (residents.map (·.created)).getD i 0) = residents.findIdx? Resident.closed := by
  have upTo : ∀ n ≤ residents.length, oldestClosed n (fun i => (residents.map (·.snapshot))[i]?)
      (fun i => (residents.map (·.created)).getD i 0) = (residents.take n).findIdx? Resident.closed := by
    intro n
    induction n with
    | zero => exact fun _ => rfl
    | succ n ih =>
        intro within
        have here : n < residents.length := within
        unfold oldestClosed at ih ⊢
        rw [List.range_succ, List.foldl_append, ih (Nat.le_of_lt here), List.take_succ_eq_append_getElem here,
          List.findIdx?_append]
        have closes : ((residents.map (·.snapshot))[n]?).any isClosed = residents[n].closed := by
          simp [List.getElem?_eq_getElem here, Resident.closed]
        simp only [List.foldl_cons, List.foldl_nil, closes]
        cases found : (residents.take n).findIdx? Resident.closed with
        | none => cases closed : residents[n].closed <;> simp [closed, Nat.le_of_lt here]
        | some o =>
            obtain ⟨short, -⟩ := List.findIdx?_eq_some_iff_getElem.1 found
            have earlier : o < n := by
              rw [List.length_take] at short
              omega
            have older : residents[o].created < residents[n].created :=
              List.pairwise_iff_getElem.1 ascending o n (earlier.trans here) here earlier
            have notOlder : ¬residents[n].created < residents[o].created := UInt64.not_lt.2 (UInt64.le_of_lt older)
            simp [List.getElem?_eq_getElem here, List.getElem?_eq_getElem (earlier.trans here), notOlder]
  have whole := upTo residents.length le_rfl
  rwa [List.take_length] at whole

namespace Ledger

variable {f : Ledger}

theorem replayer_advance (f : Ledger) (sequence : UInt64) : (f.advance sequence).replayer = f.replayer.advance sequence := rfl

theorem eq_replayer {r : Replayer} (jobs : r.result.jobs = f.residents.map (·.snapshot))
    (sequences : r.result.createdSequences = f.residents.map (·.created)) (spans : r.result.spans = f.residents.map (·.span))
    (positions : ∀ key, r.indexOf key = f.residents.findIdx? (·.id = key))
    (rest : r = { f.replayer with
      result := { f.replayer.result with
        jobs := r.result.jobs
        createdSequences := r.result.createdSequences
        spans := r.result.spans }
      indexOf := r.indexOf }) : r = f.replayer := by
  refine rest.trans ?_
  rw [jobs, sequences, spans, show r.indexOf = f.replayer.indexOf from funext positions]
  rfl

theorem revise_id {key : Bytes} {after : Snapshot} (named : after.jobId.value = key) (segment : Nat) (r : Resident) :
    (if r.id = key then r.revise after segment else r).id = r.id := by
  split
  next same => exact named.trans same.symm
  next => rfl

theorem replayer_update (sound : f.Sound) {key : Bytes} {position : Nat} (after : Snapshot)
    (found : f.residents.findIdx? (·.id = key) = some position) (named : after.jobId.value = key) :
    f.replayer.update position after = (f.revise key after).replayer := by
  have changed : (f.revise key after).residents = f.residents.modify position (·.revise after f.current) :=
    (modify_findIdx? sound.distinct found).symm
  have moved {β : Type} (g : Resident → β) (h : β → β) (commutes : ∀ r : Resident, g (r.revise after f.current) = h (g r)) :
      (f.residents.map g).modify position h = (f.revise key after).residents.map g := by rw [changed, map_modify commutes]
  refine eq_replayer ?_ ?_ ?_ (fun other => ?_) rfl
  · exact (List.set_eq_modify _ _ _).trans (moved (·.snapshot) (fun _ => after) fun _ => rfl)
  · exact (List.modify_id _ _).symm.trans (moved (·.created) id fun _ => rfl)
  · exact moved (·.span) (fun span => { span with lastSegment := f.current }) fun _ => rfl
  · show f.residents.findIdx? _ = (f.residents.map _).findIdx? _
    rw [List.findIdx?_map]
    refine congrArg (f.residents.findIdx? ·) (funext fun r => ?_)
    exact congrArg (fun name => decide (name = other)) (revise_id named f.current r).symm

theorem replayer_append (f : Ledger) (e : LogicalJobEvent) (after : Snapshot) (named : after.jobId = e.jobId) :
    f.replayer.append e after =
      Ledger.replayer { f with residents := f.residents ++ [⟨after, e.sequence, ⟨f.current, f.current⟩⟩] } := by
  refine eq_replayer ?_ ?_ ?_ (fun key => ?_) rfl
  · simp [Replayer.append, replayer]
  · simp [Replayer.append, replayer]
  · simp [Replayer.append, replayer, current]
  · rw [List.findIdx?_append]
    show (if key = e.jobId.value ∧ f.residents.findIdx? _ = none then some (f.residents.map _).length else _) = _
    have last : List.findIdx? (fun r : Resident => r.id = key) [⟨after, e.sequence, ⟨f.current, f.current⟩⟩] =
        if key = e.jobId.value then some 0 else none := by
      simp [Resident.id, named, eq_comm]
    rw [last]
    cases found : f.residents.findIdx? (fun r : Resident => r.id = key) with
    | some position => simp [replayer, found]
    | none => split <;> simp_all [replayer]

theorem replayer_erase (sound : f.Sound) {victim : Nat} (found : f.residents.findIdx? Resident.closed = some victim) :
    f.replayer.erase victim = Ledger.replayer { f with residents := f.residents.eraseP Resident.closed } := by
  have erased : f.residents.eraseP Resident.closed = f.residents.eraseIdx victim := by
    rw [List.eraseP_eq_eraseIdx, found]
  refine eq_replayer ?_ ?_ ?_ (fun key => ?_) rfl
  · rw [erased]
    exact List.eraseIdx_map _ _ _
  · rw [erased]
    exact List.eraseIdx_map _ _ _
  · rw [erased]
    exact List.eraseIdx_map _ _ _
  · rw [findIdx?_eraseP sound.distinct found]
    simp only [Replayer.erase, replayer, List.getElem?_map, Option.map_map]
    rfl

theorem replayer_makeRoom (sound : f.Sound) (maxJobs : Nat) :
    f.replayer.makeRoom maxJobs =
      if f.residents.length < maxJobs then some f.replayer
      else if f.residents.any Resident.closed then
        some (Ledger.replayer { f with residents := f.residents.eraseP Resident.closed })
      else none := by
  have oldest : oldestClosed f.replayer.result.jobs.length (fun i => f.replayer.result.jobs[i]?)
      (fun i => f.replayer.result.createdSequences.getD i 0) = f.residents.findIdx? Resident.closed := by
    rw [show f.replayer.result.jobs.length = f.residents.length from List.length_map _]
    exact oldestClosed_ascending sound.ascending
  rw [Replayer.makeRoom, oldest, show f.replayer.result.jobs.length = f.residents.length from List.length_map _]
  by_cases room : f.residents.length < maxJobs
  · rw [if_neg (Nat.not_le.2 room), if_pos room]
  · rw [if_pos (Nat.not_lt.1 room), if_neg room]
    cases found : f.residents.findIdx? Resident.closed with
    | none =>
        have open_ : f.residents.any Resident.closed = false := by
          rw [List.any_eq_false]
          exact fun r member => Bool.eq_false_iff.1 (List.findIdx?_eq_none_iff.1 found r member)
        simp [open_]
    | some victim =>
        have some_ : f.residents.any Resident.closed = true := by
          obtain ⟨short, closed, -⟩ := List.findIdx?_eq_some_iff_getElem.1 found
          exact List.any_eq_true.2 ⟨_, List.getElem_mem short, closed⟩
        rw [Option.map_some, replayer_erase sound found, if_pos some_]

theorem find?_of_position {key : Bytes} {position : Nat} (found : f.residents.findIdx? (·.id = key) = some position) :
    ∃ r, f.residents.find? (·.id = key) = some r ∧ f.replayer.result.jobs[position]? = some r.snapshot := by
  obtain ⟨short, named, earlier⟩ := List.findIdx?_eq_some_iff_getElem.1 found
  refine ⟨f.residents[position], ?_, ?_⟩
  · refine List.find?_eq_some_iff_getElem.2 ⟨named, position, short, rfl, ?_⟩
    simpa using earlier
  · simp [replayer, List.getElem?_eq_getElem short]

theorem replayLine_eq_ok {lib : Libraries} {maxJobs : Nat} {segment : Segment} {offset : Nat} {line : Bytes}
    {e : LogicalJobEvent} {r : Replayer} (sound : f.Sound) (encoded : encodeRecord e = .ok line) :
    f.replayer.replayLine lib maxJobs segment offset line = .ok r ↔ ∃ g, f.step lib maxJobs e = some g ∧ r = g.replayer := by
  rw [Replayer.replayLine, decodeRecord_encoded lib.json encoded, step]
  have accepted (g : Ledger) : (Except.ok g.replayer : Except Stop Replayer) = .ok r ↔ ∃ h, some g = some h ∧ r = h.replayer := by
    constructor
    · intro same
      exact ⟨g, rfl, (Except.ok.inj same).symm⟩
    · rintro ⟨h, same, rfl⟩
      rw [Option.some_inj.1 same]
  dsimp only
  rw [show f.replayer.expected = f.expected from rfl]
  by_cases sequence : e.sequence = f.expected
  · rw [if_neg (not_not.2 sequence), if_neg (not_not.2 sequence)]
    cases found : f.replayer.indexOf e.jobId.value with
    | some position =>
        obtain ⟨resident, known, job⟩ := find?_of_position found
        rw [known, Option.bind_some, job]
        dsimp only
        cases replayed : replayRecord lib (some resident.snapshot) e with
        | error why => cases why <;> simp
        | ok after =>
            have named := congrArg Uuid.value (replayRecord_jobId replayed)
            dsimp only
            rw [replayer_update sound after found named, ← replayer_advance]
            exact accepted _
    | none =>
        have unknown : f.residents.find? (·.id = e.jobId.value) = none := by
          refine List.find?_eq_none.2 fun r member => ?_
          simpa using List.findIdx?_eq_none_iff.1 found r member
        rw [unknown, Option.bind_none]
        dsimp only
        cases replayed : replayRecord lib none e with
        | error why => cases why <;> simp
        | ok after =>
            have named := replayRecord_jobId replayed
            dsimp only
            rw [replayer_makeRoom sound, place]
            by_cases room : f.residents.length < maxJobs
            · rw [if_pos room, if_pos room]
              dsimp only
              rw [replayer_append f e after named, ← replayer_advance]
              exact accepted _
            · rw [if_neg room, if_neg room]
              by_cases closed : f.residents.any Resident.closed = true
              · rw [if_pos closed, if_pos closed]
                dsimp only
                rw [replayer_append _ e after named, ← replayer_advance]
                exact accepted _
              · rw [if_neg closed, if_neg closed]
                simp
  · rw [if_pos sequence, if_pos sequence]
    simp

theorem step_eq_some {lib : Libraries} {maxJobs : Nat} {e : LogicalJobEvent} {g : Ledger} :
    f.step lib maxJobs e = some g ↔ e.sequence = f.expected ∧
      ((∃ r after, f.residents.find? (·.id = e.jobId.value) = some r ∧ replayRecord lib (some r.snapshot) e = .ok after ∧
          g = (f.revise e.jobId.value after).advance e.sequence) ∨
        ∃ after residents, f.residents.find? (·.id = e.jobId.value) = none ∧ replayRecord lib none e = .ok after ∧
          place maxJobs Resident.closed f.residents ⟨after, e.sequence, ⟨f.current, f.current⟩⟩ = some residents ∧
          g = Ledger.advance { f with residents } e.sequence) := by
  unfold step
  by_cases sequence : e.sequence = f.expected
  · rw [if_neg (not_not.2 sequence), and_iff_right sequence]
    cases found : f.residents.find? (·.id = e.jobId.value) with
    | some r =>
        dsimp only
        cases replayed : replayRecord lib (some r.snapshot) e with
        | error why => simp [replayed]
        | ok after => simp [replayed, eq_comm]
    | none =>
        dsimp only
        cases replayed : replayRecord lib none e with
        | error why => simp
        | ok after => simp [eq_comm]
  · rw [if_pos sequence]
    simp [sequence]

theorem id_of_find? {key : Bytes} {r : Resident} (found : f.residents.find? (·.id = key) = some r) : r.id = key := by
  simpa using List.find?_some found

theorem not_mem_of_find? {key : Bytes} (none : f.residents.find? (·.id = key) = none) : key ∉ f.residents.map Resident.id := by
  intro inside
  obtain ⟨r, member, same⟩ := List.mem_map.1 inside
  exact absurd (decide_eq_true same) (List.find?_eq_none.1 none r member)

theorem expected_advance (f : Ledger) {sequence : UInt64} (more : sequence.toNat ≠ uint64Max) :
    (f.advance sequence).expected = sequence + 1 := if_pos more

theorem lt_succ {a b : UInt64} (more : b.toNat ≠ uint64Max) (within : a ≤ b) : a < b + 1 := by
  have := b.toNat_lt
  unfold uint64Max at more
  rw [UInt64.lt_iff_toNat_lt, UInt64.toNat_add]
  have := UInt64.le_iff_toNat_le.1 within
  simp
  omega

theorem revise_ids {key : Bytes} {after : Snapshot} (named : after.jobId.value = key) :
    (f.revise key after).residents.map Resident.id = f.residents.map Resident.id := by
  rw [revise, List.map_map]
  exact List.map_congr_left fun r _ => revise_id named f.current r

theorem revise_created {key : Bytes} {after : Snapshot} :
    (f.revise key after).residents.map Resident.created = f.residents.map Resident.created := by
  rw [revise, List.map_map]
  refine List.map_congr_left fun r _ => ?_
  show (if r.id = key then r.revise after f.current else r).created = r.created
  split <;> rfl

theorem place_sublist {capacity : Nat} {residents placed : List Resident} {r : Resident}
    (fits : place capacity Resident.closed residents r = some placed) : placed.Sublist (residents ++ [r]) := by
  rcases place_eq_some.1 fits with ⟨-, rfl⟩ | ⟨-, -, rfl⟩
  · exact List.Sublist.refl _
  · exact (List.eraseP_sublist).append (List.Sublist.refl _)

theorem Sound.sorted {lib : Libraries} {maxJobs : Nat} {e : LogicalJobEvent} {g : Ledger} (sound : f.Sound)
    (stepped : f.step lib maxJobs e = some g) :
    (g.residents.map Resident.id).Nodup ∧ g.residents.Pairwise fun a b => a.created < b.created := by
  obtain ⟨sequence, ⟨r, after, found, replayed, rfl⟩ | ⟨after, residents, found, replayed, placed, rfl⟩⟩ := step_eq_some.1 stepped
  · have ascending : (f.residents.map Resident.created).Pairwise (· < ·) := List.pairwise_map.2 sound.ascending
    constructor
    · show ((f.revise e.jobId.value after).residents.map Resident.id).Nodup
      rw [revise_ids (congrArg Uuid.value (replayRecord_jobId replayed))]
      exact sound.distinct
    · rw [← @revise_created f e.jobId.value after] at ascending
      exact List.pairwise_map.1 ascending
  · have named : after.jobId.value = e.jobId.value := congrArg Uuid.value (replayRecord_jobId replayed)
    have sublist := place_sublist placed
    have fresh := not_mem_of_find? found
    constructor
    · apply (sublist.map Resident.id).nodup
      rw [List.map_append, List.nodup_append]
      refine ⟨sound.distinct, List.nodup_singleton _, fun a inside b last same => fresh ?_⟩
      rw [← named, show after.jobId.value = b from (List.mem_singleton.1 last).symm, ← same]
      exact inside
    · apply List.Pairwise.sublist sublist
      refine List.pairwise_append.2 ⟨sound.ascending, List.pairwise_singleton _ _, ?_⟩
      intro old inside new last
      rw [List.mem_singleton.1 last]
      exact sequence ▸ sound.recent old inside

theorem Sound.step {lib : Libraries} {maxJobs : Nat} {e : LogicalJobEvent} {g : Ledger} (sound : f.Sound)
    (stepped : f.step lib maxJobs e = some g) (more : e.sequence.toNat ≠ uint64Max) : g.Sound := by
  refine ⟨(sound.sorted stepped).1, (sound.sorted stepped).2, fun resident member => ?_⟩
  have earlier {a : UInt64} (before : a < f.expected) (sequence : e.sequence = f.expected) : a < e.sequence + 1 :=
    lt_succ more (UInt64.le_of_lt (sequence ▸ before))
  obtain ⟨sequence, ⟨r, after, -, -, rfl⟩ | ⟨after, residents, -, -, placed, rfl⟩⟩ := step_eq_some.1 stepped
  · rw [expected_advance _ more]
    have kept : resident.created ∈ f.residents.map Resident.created :=
      @revise_created f e.jobId.value after ▸ List.mem_map_of_mem member
    obtain ⟨old, inside, same⟩ := List.mem_map.1 kept
    exact same ▸ earlier (sound.recent old inside) sequence
  · rw [expected_advance _ more]
    rcases mem_of_place placed member with old | rfl
    · exact earlier (sound.recent resident old) sequence
    · exact lt_succ more (UInt64.le_refl _)

def foldEvents (lib : Libraries) (maxJobs : Nat) (f : Ledger) (events : List LogicalJobEvent) : Option Ledger :=
  events.foldlM (step lib maxJobs) f

def openSegment (f : Ledger) (segment : Segment) : Ledger :=
  { f with segments := f.segments ++ [⟨segment.name, segment.first, 0⟩] }

/-- The segments in order. Only the last one may be empty, and a Journal without records starts at 1. -/
def foldLayout (lib : Libraries) (maxJobs : Nat) : Ledger → Layout → Option Ledger
  | f, [] => some f
  | f, entry :: rest =>
      if (toSegment entry).first ≠ f.expected then none
      else if entry.2 = [] ∧ (rest ≠ [] ∨ f.records = 0 ∧ (toSegment entry).first ≠ 1) then none
      else (foldEvents lib maxJobs (f.openSegment (toSegment entry)) entry.2).bind fun g => foldLayout lib maxJobs g rest

def Continues (events : List LogicalJobEvent) : Prop := ∀ e ∈ events, e.sequence.toNat ≠ uint64Max

section Folds

variable {lib : Libraries} {maxJobs : Nat} {segment : Segment} {highest : Bool} {content rest : Bytes} {offset : Nat}
  {events : List LogicalJobEvent} {g : Ledger}

theorem foldEvents_cons {e : LogicalJobEvent} :
    foldEvents lib maxJobs f (e :: events) = (f.step lib maxJobs e).bind fun g => foldEvents lib maxJobs g events := rfl

theorem foldLayout_cons {entry : Nat × List LogicalJobEvent} {layout : Layout} :
    foldLayout lib maxJobs f (entry :: layout) = some g ↔
      (toSegment entry).first = f.expected ∧
        ¬(entry.2 = [] ∧ (layout ≠ [] ∨ f.records = 0 ∧ (toSegment entry).first ≠ 1)) ∧
        ∃ middle, foldEvents lib maxJobs (f.openSegment (toSegment entry)) entry.2 = some middle ∧
          foldLayout lib maxJobs middle layout = some g := by
  rw [foldLayout]
  by_cases named : (toSegment entry).first = f.expected
  · rw [if_neg (not_not.2 named), and_iff_right named]
    by_cases checked : entry.2 = [] ∧ (layout ≠ [] ∨ f.records = 0 ∧ (toSegment entry).first ≠ 1)
    · rw [if_pos checked]
      exact iff_of_false nofun fun both => both.1 checked
    · rw [if_neg checked, and_iff_right checked, Option.bind_eq_some_iff]
  · rw [if_pos named]
    exact iff_of_false nofun fun both => named both.1

theorem foldLayout_keeps {layout : Layout} {motive : Layout → Ledger → Prop} (done : Layout) (kept : motive done f)
    (segment : ∀ done entry f g, entry ∈ layout → motive done f →
      foldEvents lib maxJobs (f.openSegment (toSegment entry)) entry.2 = some g → motive (done ++ [entry]) g)
    (folded : foldLayout lib maxJobs f layout = some g) : motive (done ++ layout) g := by
  induction layout generalizing f done with
  | nil =>
      cases folded
      simpa using kept
  | cons entry layout ih =>
      obtain ⟨-, -, middle, inner, rest⟩ := foldLayout_cons.1 folded
      have next := segment done entry f middle List.mem_cons_self kept inner
      have whole := ih (done ++ [entry]) next (fun done other f g member => segment done other f g (List.mem_cons_of_mem _ member)) rest
      rwa [List.append_assoc] at whole

theorem last_of_step {e : LogicalJobEvent} (stepped : f.step lib maxJobs e = some g) : g.last = e.sequence := by
  obtain ⟨-, ⟨r, after, -, -, rfl⟩ | ⟨after, residents, -, -, -, rfl⟩⟩ := step_eq_some.1 stepped <;> rfl

theorem expected_of_step {e : LogicalJobEvent} (stepped : f.step lib maxJobs e = some g) (more : e.sequence.toNat ≠ uint64Max) :
    g.expected = e.sequence + 1 := by
  obtain ⟨-, ⟨r, after, -, -, rfl⟩ | ⟨after, residents, -, -, -, rfl⟩⟩ := step_eq_some.1 stepped <;> exact if_pos more

theorem Sound.foldEvents (sound : f.Sound) (more : Continues events) (folded : foldEvents lib maxJobs f events = some g) :
    g.Sound := by
  induction events generalizing f with
  | nil =>
      cases folded
      exact sound
  | cons e events ih =>
      rw [foldEvents_cons] at folded
      obtain ⟨middle, stepped, rest⟩ := Option.bind_eq_some_iff.1 folded
      exact ih (sound.step stepped (more e List.mem_cons_self)) (fun e member => more e (List.mem_cons_of_mem _ member)) rest

theorem replayLines_record {e : LogicalJobEvent} {fuel : Nat} {r : Replayer} (encoded : encodeRecord e = .ok (emit e))
    (here : content.drop offset = emit e ++ rest) :
    Replayer.replayLines lib maxJobs segment highest content (fuel + 1) offset r =
      (r.replayLine lib maxJobs segment offset (emit e)).bind fun next =>
        if next.last.toNat = uint64Max then
          .error (.refused (next.afterExhaustion segment highest content (offset + (emit e).length)))
        else Replayer.replayLines lib maxJobs segment highest content fuel (offset + (emit e).length) next := by
  obtain ⟨line, written, fresh⟩ := emit_line encoded
  have inside : ¬offset ≥ content.length := by
    intro beyond
    rw [List.drop_eq_nil_of_le beyond, written] at here
    simp at here
  have found : (content.drop offset).idxOf? 0x0A = some line.length := by
    have absent : line.idxOf? 0x0A = none := List.idxOf?_eq_none_iff.2 fresh
    rw [here, written]
    simp only [List.idxOf?] at absent ⊢
    rw [List.append_assoc, List.findIdx?_append, absent]
    simp [List.findIdx?_cons]
  have taken : (content.drop offset).take (line.length + 1) = emit e := by
    rw [here]
    exact List.take_left' (by rw [written, List.length_append, List.length_singleton])
  have length : (emit e).length = line.length + 1 := by rw [written, List.length_append, List.length_singleton]
  rw [Replayer.replayLines, if_neg inside, found, length]
  dsimp only
  rw [taken]
  rfl

theorem replayLines_records {fuel : Nat} (sound : f.Sound) (encodable : Encodable events) (more : Continues events)
    (here : content.drop offset = Journal.records events ++ rest) (folded : foldEvents lib maxJobs f events = some g) :
    Replayer.replayLines lib maxJobs segment highest content (fuel + events.length) offset f.replayer =
      Replayer.replayLines lib maxJobs segment highest content fuel (offset + (Journal.records events).length) g.replayer := by
  induction events generalizing f offset with
  | nil =>
      cases folded
      simp
  | cons e events ih =>
      rw [foldEvents_cons] at folded
      obtain ⟨middle, stepped, folded⟩ := Option.bind_eq_some_iff.1 folded
      have encoded := encodable e List.mem_cons_self
      have notLast := more e List.mem_cons_self
      have split : Journal.records (e :: events) = emit e ++ Journal.records events := rfl
      rw [split, List.append_assoc] at here
      have line : f.replayer.replayLine lib maxJobs segment offset (emit e) = .ok middle.replayer :=
        (replayLine_eq_ok sound encoded).2 ⟨middle, stepped, rfl⟩
      have going : ¬middle.replayer.last.toNat = uint64Max := by
        rw [show middle.replayer.last = e.sequence from last_of_step stepped]
        exact notLast
      rw [List.length_cons, ← Nat.add_assoc, replayLines_record encoded here, line, Except.bind,
        if_neg going, split,
        List.length_append, ← Nat.add_assoc]
      refine ih (sound.step stepped notLast) (fun e member => encodable e (List.mem_cons_of_mem _ member))
        (fun e member => more e (List.mem_cons_of_mem _ member)) ?_ folded
      rw [← List.drop_drop, here, List.drop_left]

theorem replayLines_refused {fuel : Nat} (sound : f.Sound) (encodable : Encodable events) (more : Continues events)
    (here : content.drop offset = Journal.records events ++ rest) (refused : foldEvents lib maxJobs f events = none) (r : Replayer) :
    Replayer.replayLines lib maxJobs segment highest content (fuel + events.length) offset f.replayer ≠ .ok r := by
  induction events generalizing f offset with
  | nil => cases refused
  | cons e events ih =>
      have encoded := encodable e List.mem_cons_self
      have notLast := more e List.mem_cons_self
      have split : Journal.records (e :: events) = emit e ++ Journal.records events := rfl
      rw [split, List.append_assoc] at here
      rw [List.length_cons, ← Nat.add_assoc, replayLines_record encoded here]
      cases line : f.replayer.replayLine lib maxJobs segment offset (emit e) with
      | error stop => exact nofun
      | ok next =>
          obtain ⟨middle, stepped, rfl⟩ := (replayLine_eq_ok sound encoded).1 line
          rw [foldEvents_cons, stepped] at refused
          have going : ¬middle.replayer.last.toNat = uint64Max := by
            rw [show middle.replayer.last = e.sequence from last_of_step stepped]
            exact notLast
          rw [Except.bind, if_neg going]
          refine ih (sound.step stepped notLast) (fun e member => encodable e (List.mem_cons_of_mem _ member))
            (fun e member => more e (List.mem_cons_of_mem _ member)) ?_ refused
          rw [← List.drop_drop, here, List.drop_left]

theorem records_length (encodable : Encodable events) : events.length ≤ (Journal.records events).length := by
  induction events with
  | nil => simp
  | cons e events ih =>
      obtain ⟨line, written, -⟩ := emit_line (encodable e List.mem_cons_self)
      have rest := ih fun e member => encodable e (List.mem_cons_of_mem _ member)
      have split : (Journal.records (e :: events)).length = (emit e).length + (Journal.records events).length :=
        List.length_append
      rw [split, written, List.length_append, List.length_singleton, List.length_cons]
      omega

theorem replayer_openSegment (f : Ledger) (segment : Segment) :
    { f.replayer with result := { f.replayer.result with
      segments := f.replayer.result.segments ++ [⟨segment.name, segment.first, 0⟩] } } =
      (f.openSegment segment).replayer := rfl

theorem Sound.openSegment (sound : f.Sound) (segment : Segment) : (f.openSegment segment).Sound :=
  ⟨sound.distinct, sound.ascending, sound.recent⟩

theorem replayLines_whole (sound : f.Sound) (encodable : Encodable events) (more : Continues events) {r : Replayer} :
    Replayer.replayLines lib maxJobs segment highest (Journal.records events) (Journal.records events).length 0 f.replayer =
        .ok r ↔ ∃ g, foldEvents lib maxJobs f events = some g ∧ r = g.replayer := by
  have here : (Journal.records events).drop 0 = Journal.records events ++ [] := by simp
  obtain ⟨fuel, enough⟩ := Nat.exists_eq_add_of_le' (records_length encodable)
  generalize turns : (Journal.records events).length = all at enough ⊢
  rw [enough]
  cases folded : foldEvents lib maxJobs f events with
  | none =>
      have refused := @replayLines_refused f lib maxJobs segment highest _ _ _ _ fuel sound encodable more here folded r
      simp [refused]
  | some g =>
      rw [replayLines_records sound encodable more here folded, turns, Nat.zero_add]
      have ended : Replayer.replayLines lib maxJobs segment highest (Journal.records events) fuel all g.replayer =
          .ok g.replayer := by
        cases fuel with
        | zero => rfl
        | succ fuel => rw [Replayer.replayLines, if_pos (Nat.le_of_eq turns)]
      rw [ended]
      simp [eq_comm]

theorem replaySegment_eq_ok {readAll : Bytes → Option Bytes} (sound : f.Sound) (encodable : Encodable events)
    (more : Continues events) (read : readAll segment.name = some (Journal.records events)) {r : Replayer} :
    f.replayer.replaySegment lib maxJobs readAll segment highest = .ok r ↔
      segment.first = f.expected ∧ ¬(events = [] ∧ (highest = false ∨ f.records = 0 ∧ segment.first ≠ 1)) ∧
        ∃ g, foldEvents lib maxJobs (f.openSegment segment) events = some g ∧ r = g.replayer := by
  have empty := records_isEmpty encodable
  have whole := @replayLines_whole (f.openSegment segment) lib maxJobs segment highest events
    (sound.openSegment segment) encodable more r
  rw [Replayer.replaySegment, read]
  dsimp only
  rw [replayer_openSegment, show f.replayer.expected = f.expected from rfl,
    show f.replayer.result.records = f.records from rfl]
  by_cases named : segment.first = f.expected
  · rw [if_neg (not_not.2 named), and_iff_right named]
    by_cases none : events = []
    · cases highest with
      | false => simp [none]
      | true =>
          by_cases fresh : f.records = 0 ∧ segment.first ≠ 1
          · simp [none, fresh]
          · rw [if_neg (by simp), if_neg (by simpa [empty.2 none] using fresh), whole]
            simp [none, fresh]
    · have some : ¬(Journal.records events).isEmpty = true := fun none' => none (empty.1 none')
      rw [if_neg (by simp [some]), if_neg (by simp [some]), whole]
      simp [none]
  · rw [if_pos named]
    simp [named]

theorem replaySegments_eq_ok {readAll : Bytes → Option Bytes} {layout : Layout} (sound : f.Sound)
    (encodable : Encodable layout.events) (more : Continues layout.events)
    (read : ∀ entry ∈ layout, readAll (toSegment entry).name = some (Journal.records entry.2)) {r : Replayer} :
    Replayer.replaySegments lib maxJobs readAll (layout.map toSegment) f.replayer = .ok r ↔
      ∃ g, foldLayout lib maxJobs f layout = some g ∧ r = g.replayer := by
  induction layout generalizing f with
  | nil => simp [Replayer.replaySegments, foldLayout, eq_comm]
  | cons entry layout ih =>
      have mine : ∀ e ∈ entry.2, e ∈ Layout.events (entry :: layout) := fun e member => List.mem_append_left _ member
      have others : ∀ e ∈ Layout.events layout, e ∈ Layout.events (entry :: layout) :=
        fun e member => List.mem_append_right _ member
      have one (middle : Replayer) := @replaySegment_eq_ok f lib maxJobs (toSegment entry) (layout.map toSegment).isEmpty entry.2
        readAll sound (fun e member => encodable e (mine e member)) (fun e member => more e (mine e member))
        (read entry List.mem_cons_self) middle
      have lastOne : (layout.map toSegment).isEmpty = false ↔ layout ≠ [] := by simp
      rw [lastOne] at one
      rw [List.map_cons, Replayer.replaySegments]
      cases replayed : f.replayer.replaySegment lib maxJobs readAll (toSegment entry) (layout.map toSegment).isEmpty with
      | error stop =>
          rw [replayed] at one
          refine iff_of_false (by rintro ⟨⟩) ?_
          rintro ⟨g, folded, -⟩
          obtain ⟨named, checked, middle, inner, -⟩ := foldLayout_cons.1 folded
          have impossible := (one middle.replayer).2 ⟨named, checked, middle, inner, rfl⟩
          cases impossible
      | ok middle =>
          obtain ⟨named, checked, g, folded, rfl⟩ := (one middle).1 replayed
          have onward (h : Ledger) : foldLayout lib maxJobs f (entry :: layout) = some h ↔ foldLayout lib maxJobs g layout = some h := by
            rw [foldLayout, if_neg (not_not.2 named), if_neg checked, folded, Option.bind_some]
          simp only [onward]
          exact ih ((sound.openSegment _).foldEvents (fun e member => more e (mine e member)) folded)
            (fun e member => encodable e (others e member)) (fun e member => more e (others e member))
            fun entry member => read entry (List.mem_cons_of_mem _ member)

end Folds

end Ledger

def Ledger.starting (start : Nat) : Ledger := { expected := UInt64.ofNat start }

theorem Ledger.sound_starting (start : Nat) : (Ledger.starting start).Sound :=
  ⟨List.nodup_nil, List.Pairwise.nil, by simp [Ledger.starting]⟩

def Listed (directory : Directory) : Prop := ∃ unsorted, segmentsOf directory.names = .ok unsorted

section Directories

variable {lib : Libraries} {what : Bytes} {maxJobs : Nat} {directory : Directory} {layout : Layout} {start next : Nat}

theorem OnDisk.continues {tail : Bytes} (disk : OnDisk directory layout start next tail) (bound : next < 2 ^ 64) :
    Ledger.Continues layout.events := by
  intro e member last
  have within := (disk.chain.sequences e member).2
  unfold uint64Max at last
  omega

theorem run_eq_ok (disk : OnDisk directory layout start next []) (bound : next < 2 ^ 64) (fresh : layout = [] → start = 1)
    (listed : Listed directory) {result : ReplayResult} :
    Replayer.run lib maxJobs (some directory.names) directory.read = .ok result ↔
      ∃ g, Ledger.foldLayout lib maxJobs (.starting start) layout = some g ∧ result = g.replayer.finish := by
  obtain ⟨unsorted, listing⟩ := listed
  have segments := disk.shows.segments disk.chain disk.positive disk.named listing
  have expected : ((layout.map toSegment).head?.map (·.first)).getD 1 = UInt64.ofNat start := by
    cases layout with
    | nil => rw [fresh rfl]; rfl
    | cons entry layout =>
        obtain ⟨first, events⟩ := entry
        obtain rfl := disk.chain.1
        rfl
  have folds (r : Replayer) := @Ledger.replaySegments_eq_ok (.starting start) lib maxJobs directory.read layout
    (Ledger.sound_starting start) disk.encodable (disk.continues bound) (fun entry member => disk.shows.read member) r
  simp only [Replayer.run, listing, segments, expected]
  have begins : ({ expected := UInt64.ofNat start } : Replayer) = (Ledger.starting start).replayer := by
    refine Ledger.eq_replayer rfl rfl rfl (fun key => ?_) rfl
    simp [Ledger.starting]
  rw [begins]
  cases replayed : Replayer.replaySegments lib maxJobs directory.read (layout.map toSegment)
      (Ledger.starting start).replayer with
  | error stop =>
      refine iff_of_false (by simp) ?_
      rintro ⟨g, folded, -⟩
      have impossible := (folds g.replayer).2 ⟨g, folded, rfl⟩
      rw [replayed] at impossible
      cases impossible
  | ok last =>
      obtain ⟨g, folded, rfl⟩ := (folds last).1 replayed
      rw [folded]
      simp [bind, Except.bind, pure, Except.pure, eq_comm]

theorem replayJournal_of_fold (disk : OnDisk directory layout start next []) (bound : next < 2 ^ 64)
    (fresh : layout = [] → start = 1) (listed : Listed directory) {g : Ledger}
    (folded : Ledger.foldLayout lib maxJobs (.starting start) layout = some g) :
    replayJournal lib what maxJobs (some directory.names) directory.read = g.replayer.finish := by
  rw [replayJournal, (run_eq_ok disk bound fresh listed).2 ⟨g, folded, rfl⟩]

theorem replayed_folds (distinct : directory.names.Nodup)
    (replayed : (replayJournal lib what maxJobs (some directory.names) directory.read).status = .replayed) :
    ∃ (layout : Layout) (start next : Nat) (g : Ledger), OnDisk directory layout start next [] ∧ next < 2 ^ 64 ∧
      (layout = [] → start = 1) ∧ Listed directory ∧
      Ledger.foldLayout lib maxJobs (.starting start) layout = some g := by
  obtain ⟨layout, start, next, disk, bound, fresh⟩ := replayed_shows distinct replayed
  obtain ⟨unsorted, segments, listing, sorted, after, pass⟩ := replayJournal_replayed replayed
  have starts : layout = [] → start = 1 := by
    rintro rfl
    exact disk.chain.trans (fresh rfl)
  have ran : Replayer.run lib maxJobs (some directory.names) directory.read = .ok after.finish := by
    rw [Replayer.run, listing]
    dsimp only
    rw [← sorted, pass]
    rfl
  obtain ⟨g, folded, -⟩ := (run_eq_ok disk bound starts ⟨unsorted, listing⟩).1 ran
  exact ⟨layout, start, next, g, disk, bound, starts, ⟨unsorted, listing⟩, folded⟩

end Directories

def sampleOnDisk : Directory := [(segmentName 1, emit (recordOf sampleCreated 1 sampleStamp))]

theorem sampleOnDisk_distinct : sampleOnDisk.names.Nodup := List.nodup_singleton _

theorem sampleOnDisk_replayed :
    (replayJournal sampleLibraries [] 1 (some sampleOnDisk.names) sampleOnDisk.read).status = .replayed := by decide +kernel

end Sitometron.Journal
