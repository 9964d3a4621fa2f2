import Sitometron.Proof.Journal.Segment
import Sitometron.Proof.Journal.Prefix
import Sitometron.Proof.Journal.View

/-!
# The startup scan of the writer agrees with replay

The scan reads the names and the end of the last segment; replay reads every record. On a directory that replay accepts both
find the same next sequence, and a record with it can be appended where the scan says.
-/

namespace Sitometron.Journal

open Core Script Replayer

def Answer.Fine (answer : Answer) : Prop := answer.error = .none ∧ answer.throws = false

def Locates (json : JsonLibrary) (limit : UInt64) (directory : Directory) (result : Except Bytes Located) : Prop :=
  ∀ journal, Ends Answer.Fine (locate json limit) ⟨directory, journal⟩ fun found w =>
    found = result ∧ w = ⟨directory, journal⟩

section Runs

variable {json : JsonLibrary} {limit : UInt64} {directory : Directory} {w : World} {α : Type} {post : α → World → Prop}

theorem ends_list {k : Option (List Bytes) → Io α} (rest : Ends Answer.Fine (k (some w.directory.names)) w post) :
    Ends Answer.Fine (Io.list >>= k) w post := by
  apply ends_bind
  refine ends_of_answer (fun answer others fine => ?_) rest
  simp only [Io.list, ask, Script.get, Bind.bind, fine.2, fine.1]
  rfl

theorem ends_readAll {name : Bytes} {k : Option Bytes → Io α} (rest : Ends Answer.Fine (k (w.directory.read name)) w post) :
    Ends Answer.Fine (Io.readAll name >>= k) w post := by
  apply ends_bind
  refine ends_of_answer (fun answer others fine => ?_) rest
  simp only [Io.readAll, ask, Script.get, Bind.bind, fine.2, fine.1]
  rfl

def locateSegments (json : JsonLibrary) (limit : UInt64) (read : Bytes → Option Bytes) : List Segment → Except Bytes Located
  | [] => .ok { next := 1 }
  | highest :: sealed =>
      match read highest.name with
      | none => .error (text "cannot read the active segment " ++ highest.name)
      | some content =>
          match lastSequence json content with
          | .error detail => .error (detail ++ text " (" ++ highest.name ++ text ")")
          | .ok none =>
              Except.bind (match sealed.head? with
                | none => .ok 1
                | some segment => match (read segment.name).map (lastSequence json) with
                    | some (.ok (some last)) => .ok (last + 1)
                    | _ => .error (text "segment before the empty active segment is not usable (" ++ segment.name ++ text ")"))
                fun expected =>
                  if highest.first ≠ expected then
                    .error (text "empty segment " ++ highest.name ++ text " is not named for the next sequence " ++
                      decimal expected.toNat)
                  else .ok { next := highest.first, active := highest.name }
          | .ok (some last) =>
              if last < highest.first then
                .error (text "active segment " ++ highest.name ++ text " holds an earlier sequence")
              else if last.toNat = uint64Max then .error (text "Journal sequence is exhausted")
              else if UInt64.ofNat content.length ≥ limit then .ok { next := last + 1 }
              else .ok { next := last + 1
                         active := highest.name
                         activeSize := UInt64.ofNat content.length }

theorem locates_unlisted {name : Bytes} (listed : segmentsOf directory.names = .error name) :
    Locates json limit directory (.error (text "malformed segment name " ++ name)) := by
  intro journal
  apply ends_list
  dsimp only
  rw [listed]
  exact ends_pure ⟨rfl, rfl⟩

theorem locates_listed {unsorted : List Segment} (listed : segmentsOf directory.names = .ok unsorted) :
    Locates json limit directory (locateSegments json limit directory.read (sortSegments unsorted).reverse) := by
  intro journal
  apply ends_list
  dsimp only
  rw [listed]
  dsimp only
  rw [← sortSegments]
  cases (sortSegments unsorted).reverse with
  | nil => exact ends_pure ⟨rfl, rfl⟩
  | cons highest sealed =>
      apply ends_readAll
      rw [locateSegments]
      dsimp only
      cases directory.read highest.name with
      | none => exact ends_pure ⟨rfl, rfl⟩
      | some content =>
          dsimp only
          cases lastSequence json content with
          | error detail => exact ends_pure ⟨rfl, rfl⟩
          | ok last =>
              cases last with
              | none =>
                  unfold locateEmpty
                  cases sealed.head? with
                  | none => exact ends_bind (ends_pure (ends_pure ⟨rfl, rfl⟩))
                  | some segment => exact ends_readAll (ends_bind (ends_pure (ends_pure ⟨rfl, rfl⟩)))
              | some last =>
                  dsimp only
                  split
                  next => exact ends_pure ⟨rfl, rfl⟩
                  next =>
                  split
                  next => exact ends_pure ⟨rfl, rfl⟩
                  next =>
                  split
                  next => exact ends_pure ⟨rfl, rfl⟩
                  next => exact ends_pure ⟨rfl, rfl⟩

end Runs

def Highest (directory : Directory) (name : Bytes) : Prop :=
  name ∈ directory.names ∧ ∃ first, segmentFirst name = some first ∧
    ∀ other ∈ directory.names, ∀ n, segmentFirst other = some n → n ≤ first

def TornTail (content : Bytes) : Prop := content ≠ [] ∧ content.getLast? ≠ some 0x0A

def EndsWith (json : JsonLibrary) (content : Bytes) (e : LogicalJobEvent) : Prop :=
  ∃ lines line, content = lines ++ line ++ [0x0A] ∧ (lines = [] ∨ lines.getLast? = some 0x0A) ∧ 0x0A ∉ line ∧
    decodeRecord json (line ++ [0x0A]) = .ok e

def LastRecord (json : JsonLibrary) (directory : Directory) (e : LogicalJobEvent) : Prop :=
  ∃ name first content, name ∈ directory.names ∧ segmentFirst name = some first ∧ directory.read name = some content ∧
    EndsWith json content e ∧
    ∀ other ∈ directory.names, ∀ n, segmentFirst other = some n → first < n → directory.read other = some []

section Refusals

variable {json : JsonLibrary} {limit : UInt64} {directory : Directory} {unsorted : List Segment} {content : Bytes}
  {e : LogicalJobEvent}

theorem segmentsOf_mem {names : List Bytes} {name : Bytes} {first : UInt64} (listed : segmentsOf names = .ok unsorted)
    (member : name ∈ names) (found : segmentFirst name = some first) : ⟨first, name⟩ ∈ sortSegments unsorted := by
  obtain ⟨named, firsts⟩ := segmentsOf_eq_ok listed
  have inside : name ∈ unsorted.map (·.name) := by
    rw [named]
    exact List.mem_filter.2 ⟨member, by rw [found]; rfl⟩
  obtain ⟨segment, kept, rfl⟩ := List.mem_map.1 inside
  have same := firsts segment kept
  rw [found] at same
  cases same
  exact (List.perm_insertionSort _ _).symm.subset kept

theorem segmentsOf_of_mem {names : List Bytes} {segment : Segment} (listed : segmentsOf names = .ok unsorted)
    (member : segment ∈ sortSegments unsorted) : segment.name ∈ names ∧ segmentFirst segment.name = some segment.first := by
  obtain ⟨named, firsts⟩ := segmentsOf_eq_ok listed
  have kept : segment ∈ unsorted := (List.perm_insertionSort _ _).subset member
  have inside : segment.name ∈ unsorted.map (·.name) := List.mem_map_of_mem kept
  rw [named] at inside
  exact ⟨(List.mem_filter.1 inside).1, firsts segment kept⟩

theorem segment_eq {a b : Segment} (left : segmentFirst a.name = some a.first) (right : segmentFirst b.name = some b.first)
    (same : a.first = b.first) : a = b := by
  obtain ⟨first, name⟩ := a
  obtain ⟨other, named⟩ := b
  cases same
  have names : name = named := ((segmentFirst_eq_some_iff.1 left).2).trans (segmentFirst_eq_some_iff.1 right).2.symm
  rw [names]

theorem sorted_last {earlier : List Segment} {last segment : Segment} (sorted : sortSegments unsorted = earlier ++ [last])
    (member : segment ∈ sortSegments unsorted) : segment.first ≤ last.first := by
  have ordered : (sortSegments unsorted).Pairwise fun a b => a.first ≤ b.first := List.pairwise_insertionSort _ _
  rw [sorted] at ordered member
  rcases List.mem_append.1 member with inside | final
  · exact (List.pairwise_append.1 ordered).2.2 segment inside last (List.mem_singleton_self _)
  · rw [List.mem_singleton.1 final]
    exact UInt64.le_refl _

theorem sorted_highest {name : Bytes} (listed : segmentsOf directory.names = .ok unsorted) (highest : Highest directory name) :
    ∃ first earlier, sortSegments unsorted = earlier ++ [⟨first, name⟩] := by
  obtain ⟨member, first, found, greatest⟩ := highest
  have inside := segmentsOf_mem listed member found
  obtain ⟨earlier, last, split⟩ := (List.eq_nil_or_concat' (sortSegments unsorted)).resolve_left (List.ne_nil_of_mem inside)
  have present := segmentsOf_of_mem listed (split ▸ List.mem_append_right earlier (List.mem_singleton_self last))
  have most := greatest last.name present.1 last.first present.2
  have same := segment_eq (b := ⟨first, name⟩) present.2 found (UInt64.le_antisymm most (sorted_last split inside))
  exact ⟨first, earlier, by rw [split, same]⟩

theorem lastSequence_torn (torn : TornTail content) : ∃ detail, lastSequence json content = .error detail := by
  rw [lastSequence, if_neg torn.1, if_pos torn.2]
  exact ⟨_, rfl⟩

theorem lastSequence_endsWith (ends : EndsWith json content e) : lastSequence json content = .ok (some e.sequence) := by
  obtain ⟨lines, line, rfl, whole, fresh, decoded⟩ := ends
  rw [lastSequence, if_neg (by simp), if_neg (by simp), List.dropLast_concat]
  rcases whole with rfl | last
  · simp only [List.nil_append, rfind_absent fresh, decoded]
  · obtain ⟨before, rfl⟩ : ∃ before, lines = before ++ [0x0A] := List.getLast?_eq_some_iff.1 last
    have cut : before ++ [0x0A] ++ line = before ++ 0x0A :: line := by simp
    have record : (before ++ 0x0A :: line ++ [0x0A]).drop (before.length + 1) = line ++ [0x0A] := by
      rw [List.append_assoc, List.cons_append, List.append_cons]
      exact List.drop_left' (by simp)
    simp only [cut, rfind_last fresh, record, decoded]

theorem locates_refused (refused : ∀ unsorted, segmentsOf directory.names = .ok unsorted →
    ∃ detail, locateSegments json limit directory.read (sortSegments unsorted).reverse = .error detail) :
    ∃ detail, Locates json limit directory (.error detail) := by
  cases listed : segmentsOf directory.names with
  | error name => exact ⟨_, locates_unlisted listed⟩
  | ok unsorted =>
      obtain ⟨detail, ends⟩ := refused unsorted listed
      exact ⟨detail, ends ▸ locates_listed listed⟩

theorem locates_torn {name : Bytes} (highest : Highest directory name) (read : directory.read name = some content)
    (torn : TornTail content) : ∃ detail, Locates json limit directory (.error detail) := by
  apply locates_refused
  intro unsorted listed
  obtain ⟨first, earlier, sorted⟩ := sorted_highest listed highest
  obtain ⟨detail, failed⟩ := @lastSequence_torn json content torn
  rw [sorted, List.reverse_append]
  simp only [List.reverse_singleton, List.singleton_append, locateSegments, read, failed]
  exact ⟨_, rfl⟩

theorem locates_exhausted (last : LastRecord json directory e) (exhausted : e.sequence.toNat = uint64Max) :
    ∃ detail, Locates json limit directory (.error detail) := by
  apply locates_refused
  intro unsorted listed
  obtain ⟨name, first, content, member, found, read, ends, empty⟩ := last
  have inside := segmentsOf_mem listed member found
  obtain ⟨earlier, top, split⟩ := (List.eq_nil_or_concat' (sortSegments unsorted)).resolve_left (List.ne_nil_of_mem inside)
  have shows (segment : Segment) (kept : segment ∈ sortSegments unsorted) (later : first ≤ segment.first) :
      segment = ⟨first, name⟩ ∨ directory.read segment.name = some [] := by
    obtain ⟨present, named⟩ := segmentsOf_of_mem listed kept
    rcases UInt64.lt_or_eq_of_le later with less | same
    · exact .inr (empty _ present _ named less)
    · exact .inl (segment_eq (b := ⟨first, name⟩) named found same.symm)
  have topmost := shows top (split ▸ List.mem_append_right earlier (List.mem_singleton_self top)) (sorted_last split inside)
  have reversed : (sortSegments unsorted).reverse = top :: earlier.reverse := by
    rw [split, List.reverse_append]
    rfl
  rw [reversed]
  rcases topmost with rfl | hollow
  · simp only [locateSegments, read, lastSequence_endsWith ends]
    split
    · exact ⟨_, rfl⟩
    · exact ⟨_, rfl⟩
  · -- The highest segment is empty, so the one before it decides.
    have differs : top ≠ ⟨first, name⟩ := by
      rintro rfl
      rw [read] at hollow
      obtain ⟨lines, line, rfl, -⟩ := ends
      simp at hollow
    have before : ⟨first, name⟩ ∈ earlier := by
      rw [split] at inside
      exact (List.mem_append.1 inside).resolve_right fun only => differs (List.mem_singleton.1 only).symm
    obtain ⟨rest, second, cut⟩ := (List.eq_nil_or_concat' earlier).resolve_left (List.ne_nil_of_mem before)
    have ordered : earlier.Pairwise fun a b => a.first ≤ b.first := by
      have all : (sortSegments unsorted).Pairwise fun a b => a.first ≤ b.first := List.pairwise_insertionSort _ _
      rw [split] at all
      exact (List.pairwise_append.1 all).1
    have atLeast : first ≤ second.first := by
      rw [cut] at before ordered
      rcases List.mem_append.1 before with low | final
      · exact (List.pairwise_append.1 ordered).2.2 _ low second (List.mem_singleton_self _)
      · rw [← List.mem_singleton.1 final]
        exact UInt64.le_refl _
    have kept : second ∈ sortSegments unsorted := by
      rw [split, cut]
      simp
    have named : top.first ≠ 0 := by
      have present := segmentsOf_of_mem listed (split ▸ List.mem_append_right earlier (List.mem_singleton_self top))
      exact (segmentFirst_eq_some_iff.1 present.2).1
    rw [cut, List.reverse_append]
    simp only [locateSegments, hollow, lastSequence, if_true, List.reverse_singleton, List.singleton_append, List.head?_cons]
    rcases shows second kept atLeast with rfl | also
    · have wrapped : e.sequence + 1 = 0 := by
        apply UInt64.toNat_inj.1
        rw [UInt64.toNat_add, exhausted]
        rfl
      simp only [read, Option.map_some, lastSequence_endsWith ends, Except.bind, wrapped, named, ne_eq, not_false_eq_true, if_true]
      exact ⟨_, rfl⟩
    · simp only [also, Option.map_some, lastSequence, if_true, Except.bind]
      exact ⟨_, rfl⟩

theorem locates_malformed {name : Bytes} (member : name ∈ directory.names) (looks : Maintenance.isSegmentName name = true)
    (none : segmentFirst name = none) : ∃ detail, Locates json limit directory (.error detail) := by
  apply locates_refused
  intro unsorted listed
  have valid := segmentsOf_looks listed member looks
  rw [none] at valid
  cases valid

end Refusals

/-- What replay says of a directory whose files are in order up to the last record: it takes the record, or refuses it for
what it says, for the Jobs there are, or because no sequence is left. -/
inductive Verdict (lib : Libraries) (maxJobs : Nat) (jobs : List Snapshot) (segment : Bytes) (e : LogicalJobEvent)
    (result : ReplayResult) : Prop
  | replayed (next : result.nextSequence = e.sequence + 1) (status : result.status = .replayed)
  | exhausted (last : e.sequence.toNat = uint64Max) (status : result.status = .sequenceExhausted)
  | refused (why : String) (rejected : replayRecord lib (jobs.find? (·.jobId = e.jobId)) e = .error (.refused why))
      (status : result.status = .corrupt)
      (detail : result.detail = text "journal_corrupt: " ++ text why ++ location segment e.sequence)
  | full (unknown : jobs.find? (·.jobId = e.jobId) = none) (many : maxJobs ≤ jobs.length)
      (status : result.status = .capacityExceeded)

section Extended

variable {lib : Libraries} {what : Bytes} {maxJobs : Nat} {f g : Ledger} {read : Bytes → Option Bytes} {e : LogicalJobEvent}
  {events : List LogicalJobEvent} {segment : Segment}

theorem replayRecord_not_thrown {before : Option Snapshot} {bytes : Bytes} (encoded : encodeRecord e = .ok bytes) :
    replayRecord lib before e ≠ .error .thrown := by
  intro thrown
  unfold replayRecord at thrown
  split at thrown
  next => cases thrown
  next current _ =>
  have derived : derive lib current e ≠ none := by
    obtain ⟨json, read, -⟩ := payloadJson_parses lib encoded
    rw [derive]
    split
    all_goals simp [read]
  cases decided : derive lib current e with
  | none => exact derived decided
  | some decision =>
      rw [decided] at thrown
      cases decision with
      | error why => cases thrown
      | ok proposal =>
          dsimp only at thrown
          repeat' split at thrown
          all_goals cases thrown

theorem replaySegments_concat {layout : Layout} {entry : Nat × List LogicalJobEvent} (sound : f.Sound)
    (encodable : Encodable layout.events) (more : Ledger.Continues layout.events)
    (reads : ∀ entry ∈ layout, read (toSegment entry).name = some (records entry.2)) (full : ∀ entry ∈ layout, entry.2 ≠ [])
    (folded : Ledger.foldLayout lib maxJobs f layout = some g) :
    replaySegments lib maxJobs read ((layout ++ [entry]).map toSegment) f.replayer =
      g.replayer.replaySegment lib maxJobs read (toSegment entry) true := by
  induction layout generalizing f with
  | nil =>
      cases folded
      simp only [List.nil_append, List.map_cons, List.map_nil, replaySegments, List.isEmpty_nil]
      cases g.replayer.replaySegment lib maxJobs read (toSegment entry) true <;> rfl
  | cons first layout ih =>
      obtain ⟨named, -, middle, inner, rest⟩ := Ledger.foldLayout_cons.1 folded
      have mine : ∀ e ∈ first.2, e ∈ Layout.events (first :: layout) := fun e member => List.mem_append_left _ member
      have others : ∀ e ∈ Layout.events layout, e ∈ Layout.events (first :: layout) :=
        fun e member => List.mem_append_right _ member
      have one := (@Ledger.replaySegment_eq_ok f lib maxJobs (toSegment first) false first.2 read sound
        (fun e member => encodable e (mine e member)) (fun e member => more e (mine e member))
        (reads first List.mem_cons_self) middle.replayer).2
        ⟨named, fun both => full first List.mem_cons_self both.1, middle, inner, rfl⟩
      have further : ((layout ++ [entry]).map toSegment).isEmpty = false := by simp
      rw [List.cons_append, List.map_cons, replaySegments, further, one]
      exact ih ((sound.openSegment _).foldEvents (fun e member => more e (mine e member)) inner)
        (fun e member => encodable e (others e member)) (fun e member => more e (others e member))
        (fun entry member => reads entry (List.mem_cons_of_mem _ member))
        (fun entry member => full entry (List.mem_cons_of_mem _ member)) rest

theorem replaySegment_concat (sound : f.Sound) (named : segment.first = f.expected) (encodable : Encodable (events ++ [e]))
    (more : Ledger.Continues events) (held : read segment.name = some (records (events ++ [e])))
    (folded : Ledger.foldEvents lib maxJobs (f.openSegment segment) events = some g) :
    f.replayer.replaySegment lib maxJobs read segment true =
      (g.replayer.replayLine lib maxJobs segment (records events).length (emit e)).bind fun next =>
        if next.last.toNat = uint64Max then
          .error (.refused (next.refuse .sequenceExhausted
            (text "journal_sequence_exhausted" ++ location segment.name next.last)))
        else .ok next := by
  have before : Encodable events := fun e member => encodable e (List.mem_append_left _ member)
  have encoded := encodable e (by simp)
  have some_ : (records (events ++ [e])).isEmpty = false := by
    rw [Bool.eq_false_iff]
    intro none
    simpa using (records_isEmpty encodable).1 none
  obtain ⟨line, written, -⟩ := emit_line encoded
  have whole : (records (events ++ [e])).length = (records events).length + (emit e).length := by simp
  obtain ⟨fuel, enough⟩ : ∃ fuel, (records (events ++ [e])).length = fuel + 1 + events.length := by
    have size := Ledger.records_length before
    refine ⟨(records (events ++ [e])).length - events.length - 1, ?_⟩
    rw [whole, written, List.length_append, List.length_singleton]
    omega
  rw [replaySegment, held]
  dsimp only
  rw [Ledger.replayer_openSegment, show f.replayer.expected = f.expected from rfl, if_neg (not_not.2 named), some_,
    if_neg (by simp), if_neg (by simp), enough]
  have first : (records (events ++ [e])).drop 0 = records events ++ emit e := by simp
  have second : (records (events ++ [e])).drop (records events).length = emit e ++ [] := by simp
  rw [Ledger.replayLines_records (sound.openSegment segment) before more first folded, Nat.zero_add,
    Ledger.replayLines_record encoded second]
  congr 1
  funext next
  split
  next => rw [afterExhaustion, if_pos (by simp)]
  next =>
    cases fuel with
    | zero => rfl
    | succ fuel => rw [replayLines, if_pos (by simp)]

theorem find?_snapshot (id : Uuid) :
    (f.residents.map (·.snapshot)).find? (·.jobId = id) = (f.residents.find? (·.id = id.value)).map (·.snapshot) := by
  have same (r : Resident) : decide (r.snapshot.jobId = id) = decide (r.id = id.value) := by
    rw [decide_eq_decide]
    exact ⟨congrArg Uuid.value, Uuid.ext⟩
  rw [List.find?_map]
  exact congrArg (fun p => (f.residents.find? p).map _) (funext same)

theorem replayLine_refused {offset : Nat} {stop : Stop} (sound : g.Sound) (encoded : encodeRecord e = .ok (emit e))
    (sequence : e.sequence = g.expected)
    (stopped : g.replayer.replayLine lib maxJobs segment offset (emit e) = .error stop) :
    Verdict lib maxJobs (g.residents.map (·.snapshot)) segment.name e (conclude what (.error stop)) := by
  have notThrown (before : Option Snapshot) := @replayRecord_not_thrown lib e before _ encoded
  rw [replayLine, decodeRecord_encoded lib.json encoded] at stopped
  dsimp only at stopped
  rw [show g.replayer.expected = g.expected from rfl, if_neg (not_not.2 sequence)] at stopped
  cases found : g.replayer.indexOf e.jobId.value with
  | some position =>
      obtain ⟨resident, known, job⟩ := Ledger.find?_of_position found
      have old : (g.residents.map (·.snapshot)).find? (·.jobId = e.jobId) = some resident.snapshot := by
        rw [find?_snapshot, known]
        rfl
      rw [found, Option.bind_some, job] at stopped
      cases replayed : replayRecord lib (some resident.snapshot) e with
      | ok after =>
          rw [replayed] at stopped
          cases stopped
      | error why =>
          cases why with
          | thrown => exact absurd replayed (notThrown _)
          | refused why =>
              rw [replayed] at stopped
              cases stopped
              exact .refused why (old ▸ replayed) rfl rfl
  | none =>
      have unknown : g.residents.find? (·.id = e.jobId.value) = none := by
        refine List.find?_eq_none.2 fun r member => ?_
        simpa using List.findIdx?_eq_none_iff.1 found r member
      have new : (g.residents.map (·.snapshot)).find? (·.jobId = e.jobId) = none := by
        rw [find?_snapshot, unknown]
        rfl
      rw [found, Option.bind_none] at stopped
      cases replayed : replayRecord lib none e with
      | error why =>
          cases why with
          | thrown => exact absurd replayed (notThrown _)
          | refused why =>
              rw [replayed] at stopped
              cases stopped
              exact .refused why (new ▸ replayed) rfl rfl
      | ok after =>
          rw [replayed] at stopped
          dsimp only at stopped
          rw [Ledger.replayer_makeRoom sound] at stopped
          by_cases room : g.residents.length < maxJobs
          · rw [if_pos room] at stopped
            cases stopped
          · rw [if_neg room] at stopped
            split at stopped
            next =>
              cases stopped
              exact .full new (by simpa using room) rfl
            next => cases stopped

theorem replayLine_verdict {offset : Nat} (sound : g.Sound) (encoded : encodeRecord e = .ok (emit e))
    (sequence : e.sequence = g.expected) :
    Verdict lib maxJobs (g.residents.map (·.snapshot)) segment.name e (conclude what
      ((g.replayer.replayLine lib maxJobs segment offset (emit e)).bind fun next =>
        if next.last.toNat = uint64Max then
          .error (.refused (next.refuse .sequenceExhausted
            (text "journal_sequence_exhausted" ++ location segment.name next.last)))
        else .ok next)) := by
  cases line : g.replayer.replayLine lib maxJobs segment offset (emit e) with
  | error stop => exact replayLine_refused sound encoded sequence line
  | ok next =>
      obtain ⟨again, same, -, last, expected⟩ := Replayer.replayLine_eq_ok line
      obtain rfl : again = e := by
        have both := decodeRecord_encoded lib.json same
        rw [decodeRecord_encoded lib.json encoded] at both
        exact (Except.ok.inj both).symm
      rw [Except.bind]
      split
      next exhausted => exact .exhausted (last ▸ exhausted) rfl
      next more => exact .replayed (expected (last ▸ more)) rfl

theorem foldEvents_expected {first : Nat} (numbered : Numbered first events) (starts : f.expected = UInt64.ofNat first)
    (more : Ledger.Continues events) (folded : Ledger.foldEvents lib maxJobs f events = some g) :
    g.expected = UInt64.ofNat (first + events.length) := by
  induction events generalizing f first with
  | nil =>
      cases folded
      exact starts
  | cons e events ih =>
      rw [Ledger.foldEvents_cons] at folded
      obtain ⟨middle, stepped, rest⟩ := Option.bind_eq_some_iff.1 folded
      obtain ⟨here, numbered⟩ := numbered
      have next : middle.expected = e.sequence + 1 := by
        have notLast := more e List.mem_cons_self
        obtain ⟨-, ⟨r, after, -, -, rfl⟩ | ⟨after, residents, -, -, -, rfl⟩⟩ := Ledger.step_eq_some.1 stepped
        · exact Ledger.expected_advance _ notLast
        · exact Ledger.expected_advance _ notLast
      rw [UInt64.succ_eq_ofNat (congrArg (· + 1) here)] at next
      have last := ih numbered next (fun e member => more e (List.mem_cons_of_mem _ member)) rest
      rw [last, List.length_cons, Nat.add_assoc, Nat.add_comm 1]

theorem foldLayout_expected {layout : Layout} {start next : Nat} (chain : Chain start layout next)
    (starts : f.expected = UInt64.ofNat start) (more : Ledger.Continues layout.events)
    (folded : Ledger.foldLayout lib maxJobs f layout = some g) : g.expected = UInt64.ofNat next := by
  induction layout generalizing f start with
  | nil =>
      cases folded
      cases chain
      exact starts
  | cons entry layout ih =>
      obtain ⟨-, -, middle, inner, rest⟩ := Ledger.foldLayout_cons.1 folded
      obtain ⟨rfl, numbered, -, chain⟩ := chain
      have opened : (f.openSegment (toSegment entry)).expected = UInt64.ofNat entry.1 := starts
      exact ih chain (foldEvents_expected numbered opened (fun e member => more e (List.mem_append_left _ member)) inner)
        (fun e member => more e (List.mem_append_right _ member)) rest

end Extended

def Located.target (located : Located) : Bytes :=
  if located.active = [] then segmentName located.next else located.active

def Located.appended (located : Located) (directory : Directory) (bytes : Bytes) : Directory :=
  (if located.active = [] then directory.create located.target else directory).append located.target bytes

def Located.Fits (located : Located) (directory : Directory) : Prop :=
  (Highest directory located.active ∧ ∃ content, directory.read located.active = some content ∧ ¬TornTail content ∧
      located.activeSize = UInt64.ofNat content.length) ∨
    located.active = [] ∧ segmentName located.next ∉ directory.names

section Agreement

variable {lib : Libraries} {what : Bytes} {maxJobs : Nat} {limit : UInt64} {directory : Directory} {layout : Layout}
  {start next : Nat} {g : Ledger} {located : Located} {e : LogicalJobEvent}

theorem locateSegments_empty {before : Layout} {first : Nat} (disk : OnDisk directory (before ++ [(first, [])]) start next [])
    (folded : Ledger.foldLayout lib maxJobs (.starting start) (before ++ [(first, [])]) = some g) :
    locateSegments lib.json limit directory.read ((before ++ [(first, [])]).map toSegment).reverse =
      .ok { next := UInt64.ofNat first, active := nameOfSegment (first, []) } := by
  have read : directory.read (toSegment (first, [])).name = some [] := disk.shows.read (by simp)
  rw [List.map_append, List.reverse_append]
  simp only [List.map_cons, List.map_nil, List.reverse_singleton, List.singleton_append, locateSegments, read, lastSequence,
    if_true]
  cases before using List.reverseRecOn with
  | nil =>
      obtain ⟨-, checked, -⟩ := Ledger.foldLayout_cons.1 folded
      have one : UInt64.ofNat first = 1 := by
        by_contra other
        exact checked ⟨rfl, .inr ⟨rfl, other⟩⟩
      simp only [List.map_nil, List.reverse_nil, List.head?_nil, Except.bind, toSegment, one, ne_eq, not_true_eq_false, if_false]
  | append_singleton earlier previous =>
      obtain ⟨number, events⟩ := previous
      obtain ⟨chain, full, -⟩ := chain_concat.1 disk.chain
      have held : directory.read (nameOfSegment (number, events)) = some (records events) := disk.shows.read (by simp)
      have encodable : Encodable events :=
        disk.encodable.of_mem (show (number, events) ∈ earlier ++ [(number, events)] ++ [(first, [])] by simp)
      cases events using List.reverseRecOn with
      | nil => exact absurd rfl (full _ (show (number, []) ∈ earlier ++ [(number, [])] by simp))
      | append_singleton events e =>
          have sequence := UInt64.succ_eq_ofNat chain.last_sequence.1
          rw [List.map_append, List.reverse_append]
          simp only [List.map_cons, List.map_nil, List.reverse_singleton, List.singleton_append, List.head?_cons, held,
            Option.map_some, lastSequence_records lib.json encodable, Except.bind, sequence, toSegment, ne_eq,
            not_true_eq_false, if_false]

theorem locates_standing (disk : OnDisk directory layout start next []) (bound : next < 2 ^ 64) (fresh : layout = [] → start = 1)
    (listed : Listed directory) (folded : Ledger.foldLayout lib maxJobs (.starting start) layout = some g) :
    ∃ located, Locates lib.json limit directory (.ok located) ∧ LocatedAt layout next located := by
  obtain ⟨unsorted, listing⟩ := listed
  have segments : sortSegments unsorted = layout.map toSegment :=
    disk.shows.segments disk.chain disk.positive disk.named listing
  have scan := @locates_listed lib.json limit directory unsorted listing
  rw [segments] at scan
  cases layout using List.reverseRecOn with
  | nil =>
      obtain rfl : start = next := disk.chain
      refine ⟨_, scan, ?_, .inl ⟨rfl, by simp [Standing]⟩⟩
      rw [fresh rfl]
      rfl
  | append_singleton before last =>
      obtain ⟨first, events⟩ := last
      have encodable : Encodable events :=
        disk.encodable.of_mem (show (first, events) ∈ before ++ [(first, events)] by simp)
      cases events using List.reverseRecOn with
      | nil =>
          obtain rfl : first = next := by simpa using (chain_concat.1 disk.chain).2.2.2
          rw [locateSegments_empty disk folded] at scan
          exact ⟨_, scan, locatedAt_last rfl⟩
      | append_singleton events e =>
          obtain ⟨after, within⟩ := disk.chain.last_sequence
          have sequence := UInt64.succ_eq_ofNat after
          have read : directory.read (toSegment (first, events ++ [e])).name = some (records (events ++ [e])) :=
            disk.shows.read (by simp)
          have later : ¬e.sequence < UInt64.ofNat first := by
            rw [UInt64.lt_iff_toNat_lt, UInt64.toNat_ofNat_of_lt' (show first < 2 ^ 64 by omega)]
            omega
          have more : ¬e.sequence.toNat = uint64Max := by
            unfold uint64Max
            omega
          rw [List.map_append, List.reverse_append] at scan
          simp only [List.map_cons, List.map_nil, List.reverse_singleton, List.singleton_append, locateSegments, read,
            lastSequence_records lib.json encodable, if_neg more, sequence] at scan
          rw [if_neg (show ¬e.sequence < (toSegment (first, events ++ [e])).first from later)] at scan
          split at scan
          next =>
            refine ⟨_, scan, rfl, .inl ⟨rfl, fun segment member => ?_⟩⟩
            rcases List.mem_append.1 member with inside | last
            · exact disk.chain.nonempty segment inside
            · rw [List.mem_singleton.1 last]
              simp
          next => exact ⟨_, scan, locatedAt_last rfl⟩

theorem LocatedAt.fits (found : LocatedAt layout next located) (disk : OnDisk directory layout start next [])
    (bound : next < 2 ^ 64) : located.Fits directory := by
  obtain ⟨sequence, ⟨inactive, full⟩ | ⟨-, before, last, rfl, named, sized⟩⟩ := found
  · refine .inr ⟨inactive, ?_⟩
    rw [sequence]
    exact (disk.shows.create disk.chain disk.positive bound full).1
  · have positive (entry) (member : entry ∈ before ++ [last]) : UInt64.ofNat entry.1 ≠ 0 :=
      ofNat_ne_zero (disk.positive.trans (disk.chain.within.2 entry member).1) (disk.named entry member)
    have member : last ∈ before ++ [last] := by simp
    have read := disk.shows.read member
    have first := segmentFirst_eq_some_iff.2 ⟨positive last member, rfl⟩
    refine .inl ⟨⟨?_, UInt64.ofNat last.1, ?_, ?_⟩, records last.2, ?_, ?_, sized⟩
    · have shown : fileOf last ∈ segmentFiles directory := by
        apply disk.shows.files.symm.subset
        rw [render_whole]
        exact List.mem_map_of_mem member
      rw [named]
      exact List.mem_map_of_mem (List.mem_filter.1 shown).1
    · rw [named]
      exact first
    · intro other present n numbered
      obtain ⟨nonzero, rfl⟩ := segmentFirst_eq_some_iff.1 numbered
      obtain ⟨entry, inside, same⟩ := List.mem_map.1 (segmentFiles_names disk.shows nonzero present)
      rw [← segmentName_injective same]
      have ordered := List.pairwise_append.1 disk.chain.sorted
      rcases List.mem_append.1 inside with low | final
      · have less := ordered.2.2 entry low last (List.mem_singleton_self _)
        exact UInt64.le_of_lt ((ofNat_lt_iff (disk.named entry inside) (disk.named last member)).2 less)
      · rw [List.mem_singleton.1 final]
        exact UInt64.le_refl _
    · rw [named]
      exact read
    · rintro ⟨nonempty, ends⟩
      cases events : last.2 using List.reverseRecOn with
      | nil =>
          rw [events] at nonempty
          exact nonempty rfl
      | append_singleton earlier e =>
          have encoded := disk.encodable.of_mem member e (by simp [events])
          obtain ⟨line, written, -⟩ := emit_line encoded
          apply ends
          rw [events, records_append, records_singleton, written]
          simp

theorem listed_iff {names : List Bytes} : (∃ unsorted, segmentsOf names = .ok unsorted) ↔
    ∀ name ∈ names, Maintenance.isSegmentName name = true → (segmentFirst name).isSome = true := by
  constructor
  · rintro ⟨unsorted, listed⟩ name member looks
    exact segmentsOf_looks listed member looks
  · intro valid
    rw [← segmentsOf_filter]
    apply segmentsOf_valid
    intro name member
    obtain ⟨inside, looks⟩ := List.mem_filter.1 member
    exact valid name inside looks

theorem Listed.append (listed : Listed directory) (name bytes : Bytes) : Listed (directory.append name bytes) := by
  have same : (directory.append name bytes).names = directory.names := by
    rw [Directory.append, Directory.names, List.map_map]
    apply List.map_congr_left
    intro file _
    rw [Function.comp_apply]
    split <;> rfl
  rw [Listed, same]
  exact listed

theorem Listed.create (listed : Listed directory) {n : UInt64} (positive : n ≠ 0) : Listed (directory.create (segmentName n)) := by
  rw [Directory.create]
  split
  next => exact listed
  next =>
    apply listed_iff.2
    intro name member looks
    rw [Directory.names, List.map_append] at member
    rcases List.mem_append.1 member with inside | new
    · exact listed_iff.1 listed name inside looks
    · have named : name = segmentName n := List.mem_singleton.1 new
      rw [named, segmentFirst_eq_some_iff.2 ⟨positive, rfl⟩]
      rfl

theorem OnDisk.verdict {before : Layout} {first : Nat} {events : List LogicalJobEvent} {f : Ledger}
    (disk : OnDisk directory (before ++ [(first, events ++ [e])]) start next []) (listed : Listed directory)
    (more : Ledger.Continues (Layout.events before ++ events))
    (folded : Ledger.foldLayout lib maxJobs (.starting start) before = some f)
    (inner : Ledger.foldEvents lib maxJobs (f.openSegment (toSegment (first, events ++ [e]))) events = some g) :
    Verdict lib maxJobs (g.residents.map (·.snapshot)) (nameOfSegment (first, events)) e
      (replayJournal lib what maxJobs (some directory.names) directory.read) := by
  obtain ⟨chain, full, numbered, -⟩ := chain_concat.1 disk.chain
  obtain ⟨unsorted, listing⟩ := listed
  have segments : sortSegments unsorted = (before ++ [(first, events ++ [e])]).map toSegment :=
    disk.shows.segments disk.chain disk.positive disk.named listing
  have moreBefore : Ledger.Continues (Layout.events before) := fun e member => more e (List.mem_append_left _ member)
  have moreInner : Ledger.Continues events := fun e member => more e (List.mem_append_right _ member)
  have encodable : Encodable (events ++ [e]) :=
    disk.encodable.of_mem (show (first, events ++ [e]) ∈ before ++ [(first, events ++ [e])] by simp)
  have starts : f.expected = UInt64.ofNat first := foldLayout_expected chain rfl moreBefore folded
  have sound := (Ledger.sound_starting start).foldLayout moreBefore folded
  have soundInner := (sound.openSegment (toSegment (first, events ++ [e]))).foldEvents moreInner inner
  have opened : (f.openSegment (toSegment (first, events ++ [e]))).expected = UInt64.ofNat first := starts
  have reached := foldEvents_expected (numbered_concat.1 numbered).1 opened moreInner inner
  have sequence : e.sequence = g.expected := by
    rw [reached, ← (numbered_concat.1 numbered).2, UInt64.ofNat_toNat]
  rw [replayJournal_listed listing, segments, disk.chain.starting (by simp),
    replaySegments_concat (Ledger.sound_starting start) (fun e member => disk.encodable e (by
      rw [Layout.events_concat]
      exact List.mem_append_left _ member)) moreBefore
      (fun entry member => disk.shows.read (List.mem_append_left _ member)) full folded,
    replaySegment_concat sound starts.symm encodable moreInner (disk.shows.read (by simp)) inner]
  exact @replayLine_verdict lib what maxJobs g e (toSegment (first, events ++ [e])) (records events).length soundInner
    (encodable e (by simp)) sequence

theorem LocatedAt.verdict (found : LocatedAt layout next located) (disk : OnDisk directory layout start next [])
    (bound : next < 2 ^ 64) (listed : Listed directory)
    (folded : Ledger.foldLayout lib maxJobs (.starting start) layout = some g) (encoded : encodeRecord e = .ok (emit e))
    (sequence : e.sequence = located.next) :
    Verdict lib maxJobs (g.residents.map (·.snapshot)) located.target e (replayJournal lib what maxJobs
      (some (located.appended directory (emit e)).names) (located.appended directory (emit e)).read) := by
  obtain ⟨nextSame, cases_⟩ := found
  have numbered : e.sequence.toNat = next := by rw [sequence, nextSame, UInt64.toNat_ofNat_of_lt' bound]
  have more := disk.continues bound
  rcases cases_ with ⟨inactive, full⟩ | ⟨active, before, last, rfl, named, -⟩
  · have target : located.target = segmentName (UInt64.ofNat next) := by rw [Located.target, if_pos inactive, nextSame]
    have nonzero := ofNat_ne_zero (disk.positive.trans disk.chain.within.1) bound
    rw [Located.appended, if_pos inactive, target]
    have created := ((disk.create bound full).append (emit e)).complete encoded numbered
    have inner : Ledger.foldEvents lib maxJobs (g.openSegment (toSegment (next, [] ++ [e]))) [] =
        some (g.openSegment (toSegment (next, [] ++ [e]))) := rfl
    apply created.verdict ((listed.create nonzero).append _ _) _ folded inner
    rw [List.append_nil]
    exact more
  · obtain ⟨first, events⟩ := last
    have target : located.target = nameOfSegment (first, events) := by rw [Located.target, if_neg active, named]
    rw [Located.appended, if_neg active, target]
    have written := (disk.append (emit e)).complete encoded numbered
    obtain ⟨f, folded, rest, -⟩ := foldLayout_append (by simp) folded
    obtain ⟨-, -, middle, inner, ends⟩ := Ledger.foldLayout_cons.1 rest
    cases ends
    refine written.verdict (listed.append _ _) ?_ folded inner
    rw [← Layout.events_concat]
    exact more

end Agreement

/-- Where replay accepts a directory, the startup scan succeeds with the same next sequence, and a record appended at its target
is again found in order. A torn highest segment, an exhausted sequence and a malformed segment name are refused. -/
theorem locate_agrees_with_replay (lib : Libraries) (what : Bytes) (maxJobs : Nat) (limit : UInt64) (directory : Directory)
    (distinct : directory.names.Nodup) :
    (∀ replayed, replayJournal lib what maxJobs (some directory.names) directory.read = replayed → replayed.status = .replayed →
      ∃ located, Locates lib.json limit directory (.ok located) ∧ located.next = replayed.nextSequence ∧
        located.Fits directory ∧
        ∀ e bytes, encodeRecord e = .ok bytes → e.sequence = located.next →
          Verdict lib maxJobs replayed.jobs located.target e (replayJournal lib what maxJobs
            (some (located.appended directory bytes).names) (located.appended directory bytes).read)) ∧
    ((∃ name content, Highest directory name ∧ directory.read name = some content ∧ TornTail content) ∨
        (∃ e, LastRecord lib.json directory e ∧ e.sequence.toNat = uint64Max) ∨
        (∃ name ∈ directory.names, segmentPrefix <+: name ∧ segmentSuffix <:+ name ∧ segmentFirst name = none) →
      ∃ detail, Locates lib.json limit directory (.error detail)) := by
  constructor
  · rintro _ rfl accepted
    obtain ⟨layout, start, next, g, disk, bound, fresh, listed, folded⟩ := replayed_folds distinct accepted
    have result := @replayJournal_of_fold lib what maxJobs directory layout start next disk bound fresh listed g folded
    have expected := foldLayout_expected disk.chain rfl (disk.continues bound) folded
    obtain ⟨located, found, stands⟩ := @locates_standing lib maxJobs limit directory layout start next g disk bound fresh listed folded
    refine ⟨located, found, ?_, stands.fits disk bound, ?_⟩
    · rw [result, stands.1]
      exact expected.symm
    · intro e bytes encoded sequence
      obtain rfl := (encodeRecord_eq_ok_iff.1 encoded).2.1
      rw [result]
      exact stands.verdict disk bound listed folded encoded sequence
  · rintro (⟨name, content, highest, read, torn⟩ | ⟨e, last, exhausted⟩ | ⟨name, member, starts, ends, none⟩)
    · exact locates_torn highest read torn
    · exact locates_exhausted last exhausted
    · apply locates_malformed member _ none
      simpa [Maintenance.isSegmentName] using And.intro starts ends

theorem locate_agrees_with_replay_sample :
    ∃ located, Locates sampleLibraries.json 100 sampleOnDisk (.ok located) ∧ located.Fits sampleOnDisk := by
  obtain ⟨located, found, -, fits, -⟩ := (locate_agrees_with_replay sampleLibraries [] 1 100 sampleOnDisk sampleOnDisk_distinct).1
    _ rfl sampleOnDisk_replayed
  exact ⟨located, found, fits⟩

end Sitometron.Journal
