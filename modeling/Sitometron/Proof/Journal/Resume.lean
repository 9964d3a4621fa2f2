import Sitometron.Proof.Journal.Prune

/-!
# Resuming a prune

A prune that was interrupted after any of its moves is completed by the next one. Where the remaining Journal does not replay, the
moved segments are read in `archive/`.
-/

namespace Sitometron.Journal

open Core Script Maintenance

namespace Prune

theorem ne_nil_of_looks {name : Bytes} (looks : isSegmentName name = true) : name ≠ [] := by
  rintro rfl
  exact absurd looks (by decide)

def lesser (first name : Bytes) : Bytes := if isSegmentName name && (first = [] || name < first) then name else first

theorem lesser_spec (names : List Bytes) (first : Bytes) :
    (first ≠ [] → names.foldl lesser first ≠ [] ∧ names.foldl lesser first ≤ first) ∧
      (∀ name ∈ names, isSegmentName name = true → names.foldl lesser first ≠ [] ∧ names.foldl lesser first ≤ name) ∧
      (names.foldl lesser first = first ∨ names.foldl lesser first ∈ names ∧ isSegmentName (names.foldl lesser first) = true) := by
  induction names generalizing first with
  | nil => exact ⟨fun nonempty => ⟨nonempty, List.le_refl _⟩, nofun, .inl rfl⟩
  | cons name names ih =>
      obtain ⟨bound, least, found⟩ := ih (lesser first name)
      rw [List.foldl_cons]
      generalize names.foldl lesser (lesser first name) = result at bound least found ⊢
      unfold lesser at bound found
      split at bound
      next taken =>
        rw [if_pos taken] at found
        rw [Bool.and_eq_true] at taken
        have below := bound (ne_nil_of_looks taken.1)
        refine ⟨fun nonempty => ⟨below.1, ?_⟩, List.forall_mem_cons.2 ⟨fun _ => below, least⟩, .inr ?_⟩
        · have less : name < first := by simpa [nonempty] using taken.2
          exact List.le_trans below.2 (List.le_of_lt less)
        · rcases found with rfl | inside
          · exact ⟨List.mem_cons_self, taken.1⟩
          · exact ⟨List.mem_cons_of_mem _ inside.1, inside.2⟩
      next kept =>
        rw [if_neg kept] at found
        refine ⟨bound, List.forall_mem_cons.2 ⟨fun looks => ?_, least⟩, ?_⟩
        · simp only [looks, Bool.true_and, Bool.or_eq_true, decide_eq_true_eq, not_or] at kept
          have below := bound kept.1
          exact ⟨below.1, List.le_trans below.2 (List.not_lt.1 kept.2)⟩
        · exact found.imp_right fun inside => ⟨List.mem_cons_of_mem _ inside.1, inside.2⟩

theorem first_eq {names : List Bytes} {least : Bytes} (member : least ∈ names) (looks : isSegmentName least = true)
    (smallest : ∀ name ∈ names, isSegmentName name = true → least ≤ name) : names.foldl lesser [] = least := by
  obtain ⟨-, bound, found⟩ := lesser_spec names []
  obtain ⟨nonempty, below⟩ := bound least member looks
  obtain ⟨inside, shaped⟩ := found.resolve_left nonempty
  exact List.le_antisymm below (smallest _ inside shaped)

theorem archivedBefore_eq {names archived moved : List Bytes} {least : Bytes} (member : least ∈ names)
    (looks : isSegmentName least = true) (smallest : ∀ name ∈ names, isSegmentName name = true → least ≤ name)
    (sorted : moved.Pairwise (· < ·)) (below : ∀ name ∈ moved, isSegmentName name = true ∧ name < least)
    (apart : ∀ name ∈ archived, isSegmentName name = true → name < least → ∀ other ∈ moved, name < other) :
    ∃ earlier, archivedBefore names (archived ++ moved) = earlier ++ moved := by
  have all : moved.filter (fun name => isSegmentName name && decide (name < least)) = moved := by
    rw [List.filter_eq_self]
    intro name inside
    simp [below name inside]
  refine ⟨(archived.filter fun name => isSegmentName name && name < least).insertionSort (· ≤ ·), ?_⟩
  have found := first_eq member looks smallest
  unfold lesser at found
  rw [archivedBefore, found, List.filter_append, all]
  have permuted := (List.perm_insertionSort (· ≤ ·) ((archived.filter fun name => isSegmentName name && name < least) ++ moved)).trans
    ((List.perm_insertionSort (· ≤ ·) (archived.filter fun name => isSegmentName name && name < least)).symm.append_right moved)
  apply permuted.eq_of_pairwise
  · intro a b _ _ le ge
    exact List.le_antisymm le ge
  · exact List.pairwise_insertionSort _ _
  · apply List.pairwise_append.2
    refine ⟨List.pairwise_insertionSort _ _, sorted.imp fun less => List.le_of_lt less, fun a early b late => ?_⟩
    have inside := (List.perm_insertionSort _ _).subset early
    obtain ⟨old, both⟩ := List.mem_filter.1 inside
    rw [Bool.and_eq_true, decide_eq_true_eq] at both
    exact List.le_of_lt (apart a old both.1 both.2 b late)

section Fine

variable {lib : Libraries} {what directory : Bytes} {names : List Bytes} {replayed : ReplayResult} {w : Volume × PruneResult}

theorem ends_finish (status : MaintenanceStatus) (detail : Bytes) :
    Ends Fault.Fine (finish status detail) w fun r t => t.1 = w.1 ∧ r.status = status := by
  apply ends_bind
  apply ends_setResult
  apply ends_result
  refine ⟨rfl, ?_⟩
  dsimp only
  split <;> rfl

theorem ends_checkSources (regular : ∀ name ∈ names, w.1.journal.kind name = .regularFile) :
    Ends Fault.Fine (checkSources directory names) w fun refusal t => refusal = none ∧ t = w := by
  induction names with
  | nil => exact ends_pure ⟨rfl, rfl⟩
  | cons name names ih =>
      have here := regular name List.mem_cons_self
      have own : Ends Fault.Fine (notOwnFile directory name false) w fun reason t => reason = some [] ∧ t = w := by
        apply ends_bind
        apply ends_reads
        rw [here]
        exact ends_pure ⟨rfl, rfl⟩
      apply ends_bind
      apply own.mono
      rintro _ t ⟨rfl, rfl⟩
      exact ih fun other member => regular other (List.mem_cons_of_mem _ member)

theorem ends_checkDestinations (absent : ∀ name ∈ names, w.1.archived.kind name = .none) :
    Ends Fault.Fine (checkDestinations directory names) w fun refusal t => refusal = none ∧ t = w := by
  induction names with
  | nil => exact ends_pure ⟨rfl, rfl⟩
  | cons name names ih =>
      apply ends_bind
      apply ends_reads
      rw [absent name List.mem_cons_self]
      exact ih fun other member => absent other (List.mem_cons_of_mem _ member)

theorem ends_moveSegments (distinct : names.Nodup) (archive : w.1.archive.isSome = true)
    (absent : ∀ name ∈ names, w.1.archived.kind name = .none) (present : ∀ name ∈ names, (w.1.journal.find name).isSome = true) :
    Ends Fault.Fine (moveSegments directory names) w fun failure t => failure = none ∧ t.1 = w.1.moves names := by
  induction names generalizing w with
  | nil => exact ends_pure ⟨rfl, rfl⟩
  | cons name names ih =>
      obtain ⟨fresh, distinct⟩ := List.nodup_cons.1 distinct
      obtain ⟨link, found⟩ := Option.isSome_iff_exists.1 (present name List.mem_cons_self)
      apply ends_bind
      apply ends_acts
      · simp [archive, absent name List.mem_cons_self, found]
      · apply ends_bind
        apply ends_setResult
        apply ends_bind
        apply ends_status
        apply ends_bind
        apply ends_status
        have other : ∀ later ∈ names, later ∉ [name] := by
          intro later member same
          exact fresh (List.mem_singleton.1 same ▸ member)
        apply ih distinct
        · exact @Volume.isSome_archive_moves w.1 name [] link found
        · intro later member
          exact Volume.kind_archived_moves (List.nodup_singleton name) (absent later (List.mem_cons_of_mem _ member))
            (other later member)
        · intro later member
          have kept : (w.1.move name).journal.find later = w.1.journal.find later := Volume.find_moves (other later member)
          rw [kept]
          exact present later (List.mem_cons_of_mem _ member)

theorem ends_archive (distinct : names.Nodup) (kind : w.1.archiveKind = .directory ∨ w.1.archiveKind = .none)
    (absent : ∀ name ∈ names, w.1.archived.kind name = .none) (present : ∀ name ∈ names, (w.1.journal.find name).isSome = true) :
    Ends Fault.Fine (archive directory names) w fun failure t => failure = none ∧ t.1 = w.1.ensureArchive.moves names := by
  apply ends_bind
  apply ends_reads
  have fits : ¬(w.1.archiveKind ≠ .none && w.1.archiveKind ≠ .directory) = true := by
    rcases kind with kind | kind <;> simp [kind]
  dsimp only
  rw [if_neg fits]
  apply ends_bind
  apply ends_acts
  · rcases kind with kind | kind <;> simp [kind]
  · apply ends_bind
    apply ends_status
    apply ends_bind
    apply (@ends_checkDestinations directory names (w.1.ensureArchive, w.2) absent).mono
    rintro _ t ⟨rfl, rfl⟩
    exact @ends_moveSegments directory names (w.1.ensureArchive, w.2) distinct rfl absent present

theorem ends_perform (more : w.2.resumed.length < prunableLength replayed)
    (names_ : ((replayed.segments.take (prunableLength replayed)).drop w.2.resumed.length).map (·.name) = names)
    (distinct : names.Nodup) (kind : w.1.archiveKind = .directory ∨ w.1.archiveKind = .none)
    (regular : ∀ name ∈ names, w.1.journal.kind name = .regularFile)
    (absent : ∀ name ∈ names, w.1.archived.kind name = .none)
    (present : ∀ name ∈ names, (w.1.journal.find name).isSome = true)
    (verified : let t := w.1.ensureArchive.moves names
      let after := replayJournal lib what unlimited (some t.journal.names) (t.read t.journal)
      after.status = .replayed ∧ after.nextSequence = replayed.nextSequence ∧
        after.records + ((replayed.segments.take (prunableLength replayed)).map (·.records)).sum = replayed.records) :
    Ends Fault.Fine (perform lib what directory false replayed) w fun r t =>
      r.status = .done ∧ t.1 = w.1.ensureArchive.moves names := by
  apply ends_bind
  apply ends_setResult
  apply ends_bind
  apply ends_result
  have inside : ¬(decide (w.2.resumed.length ≠ 0) && decide (prunableLength replayed ≤ w.2.resumed.length)) = true := by
    simp only [Bool.and_eq_true, decide_eq_true_eq, not_and]
    omega
  dsimp only
  rw [if_neg inside, if_neg (by omega)]
  apply ends_bind
  apply ends_setResult
  apply ends_bind
  apply ends_result
  have segments : (describe replayed (prunableLength replayed) w.2.resumed.length
      { w.2 with nextSequence := replayed.nextSequence }).segments = names := names_
  have sequence : (describe replayed (prunableLength replayed) w.2.resumed.length
      { w.2 with nextSequence := replayed.nextSequence }).nextSequence = replayed.nextSequence := rfl
  dsimp only
  generalize describe replayed (prunableLength replayed) w.2.resumed.length
    { w.2 with nextSequence := replayed.nextSequence } = planned at segments sequence ⊢
  rw [segments]
  apply ends_bind
  apply (@ends_checkSources directory names (w.1, planned) regular).mono
  rintro _ t ⟨rfl, rfl⟩
  apply ends_bind
  apply (@ends_archive directory names (w.1, planned) distinct kind absent present).mono
  rintro _ t ⟨rfl, moved⟩
  apply ends_bind
  apply ends_replay
  rw [moved]
  obtain ⟨status, next, records⟩ := verified
  rw [sequence, if_neg (by simp only [status, next, records]; simp)]
  apply (ends_finish _ _).mono
  rintro r u ⟨same, done⟩
  exact ⟨done, same.trans moved⟩

theorem ends_perform_nothing (none_ : prunableLength replayed = 0) (direct : w.2.resumed = [])
    (kind : w.1.archiveKind = .directory) :
    Ends Fault.Fine (perform lib what directory false replayed) w fun r t => r.status = .nothingToDo ∧ t.1 = w.1 := by
  apply ends_bind
  apply ends_setResult
  apply ends_bind
  apply ends_result
  dsimp only
  rw [direct, none_, if_neg (by simp), if_pos rfl]
  have synced (r : PruneResult) : Ends Fault.Fine (syncEarlierMoves directory) (w.1, r) fun failure t =>
      failure = none ∧ t = (w.1, r) := by
    apply ends_bind
    apply ends_reads
    dsimp only
    rw [kind]
    apply ends_bind
    apply ends_status
    apply ends_bind
    apply ends_status
    exact ends_pure ⟨rfl, rfl⟩
  apply ends_bind
  apply (synced _).mono
  rintro _ t ⟨rfl, rfl⟩
  apply (ends_finish _ _).mono
  rintro r u ⟨same, ended⟩
  exact ⟨ended, same⟩

def merged (lib : Libraries) (what : Bytes) (v : Volume) (run : List Bytes) : ReplayResult :=
  replayJournal lib what unlimited (some (v.journal.names ++ run)) fun name =>
    if name ∈ run then v.read v.archived name else v.read v.journal name

theorem ends_resume {before : List Bytes} {earlier later : List Nat} {i : Nat}
    (each : ∀ n ∈ earlier ++ [i], (merged lib what w.1 (before.drop (before.length - n))).status = .replayed ∨
      interrupted (merged lib what w.1 (before.drop (before.length - n))) = true)
    (last : (merged lib what w.1 (before.drop (before.length - i))).status = .replayed) :
    Ends Fault.Fine (resume lib what before (earlier ++ i :: later)) w fun found t =>
      ∃ n ∈ earlier ++ [i], (merged lib what w.1 (before.drop (before.length - n))).status = .replayed ∧
        found = some (merged lib what w.1 (before.drop (before.length - n))) ∧
        t = (w.1, { w.2 with resumed := before.drop (before.length - n) }) := by
  induction earlier with
  | nil =>
      apply ends_bind
      apply ends_replay
      show Ends Fault.Fine (if (merged lib what w.1 (before.drop (before.length - i))).status = .replayed then _ else _) w _
      rw [if_pos last]
      apply ends_bind
      apply ends_setResult
      exact ends_pure ⟨i, List.mem_singleton_self i, last, rfl, rfl⟩
  | cons n earlier ih =>
      have rest := ih fun m member => each m (List.mem_cons_of_mem _ member)
      apply ends_bind
      apply ends_replay
      show Ends Fault.Fine (if (merged lib what w.1 (before.drop (before.length - n))).status = .replayed then _ else
        if (!interrupted (merged lib what w.1 (before.drop (before.length - n)))) = true then _ else _) w _
      by_cases now : (merged lib what w.1 (before.drop (before.length - n))).status = .replayed
      · rw [if_pos now]
        apply ends_bind
        apply ends_setResult
        exact ends_pure ⟨n, List.mem_cons_self, now, rfl, rfl⟩
      · have further := (each n List.mem_cons_self).resolve_left now
        rw [if_neg now, further]
        apply rest.mono
        rintro found t ⟨m, member, facts⟩
        exact ⟨m, List.mem_cons_of_mem _ member, facts⟩

end Fine

theorem status_of_interrupted {r : ReplayResult} (shaped : interrupted r = true) : r.status ≠ .replayed := by
  rw [interrupted, Bool.and_eq_true, decide_eq_true_eq] at shaped
  rw [shaped.1]
  decide

section Outcomes

variable {lib : Libraries} {start next k : Nat} {layout : Layout} {g : Ledger} {names : List Bytes}
  {read : Bytes → Option Bytes}

/-- After some of the moves the Journal replays with the rest of the prefix as its longest one, or is refused as after an
interrupted prune. -/
theorem outcome (what : Bytes) (whole : Folded lib unlimited start next layout g) (some_ : 0 < prunableLength g.replayer.finish)
    (within : k ≤ prunableLength g.replayer.finish) (views : Views names read (layout.drop k)) :
    (∃ first g', Folded lib unlimited first next (layout.drop k) g' ∧
        replayJournal lib what unlimited (some names) read = g'.replayer.finish ∧ g'.expected = g.expected ∧
        prunableLength g'.replayer.finish = prunableLength g.replayer.finish - k) ∨
      (k ≠ 0 ∧ k ≠ prunableLength g.replayer.finish) ∧
        interrupted (replayJournal lib what unlimited (some names) read) = true := by
  have greatest := whole.isGreatest unlimited_large (whole.recorded_of_positive some_)
  have recorded : Layout.events (layout.drop k) ≠ [] := by
    obtain ⟨e, member⟩ := List.exists_mem_of_ne_nil _ greatest.1.1
    rw [← Nat.add_sub_cancel' within, ← List.drop_drop] at member
    exact List.ne_nil_of_mem (events_drop_subset e member)
  obtain ⟨f, halves⟩ := whole.halves recorded
  obtain ⟨entry, rest, cut⟩ := halves.exists_cut
  have sequenced := halves.sequenced_second cut
  have replays {g' : Ledger} (folded : Ledger.foldLayout lib unlimited (.starting entry.1) (layout.drop k) = some g')
      (after : After k f.residents f.segments f.records g g') :
      ∃ first g', Folded lib unlimited first next (layout.drop k) g' ∧
        replayJournal lib what unlimited (some names) read = g'.replayer.finish ∧ g'.expected = g.expected ∧
        prunableLength g'.replayer.finish = prunableLength g.replayer.finish - k :=
    ⟨entry.1, g', ⟨sequenced, folded⟩, views.replay_of_fold sequenced folded, after.expected.symm,
      halves.prunableLength unlimited_large within cut folded after⟩
  by_cases last : k = prunableLength g.replayer.finish
  · obtain ⟨g', folded, after⟩ := halves.splits unlimited_large (last ▸ greatest.1.2) cut
    exact .inl (replays folded after)
  · rcases halves.cases (.inl unlimited_large) cut with ⟨left, g', folded, after, -, whole⟩ | ⟨⟨e, -, shared⟩, stops⟩
    · rw [whole unlimited_large] at after
      exact .inl (replays folded after)
    · obtain ⟨refusal, stopped, shaped⟩ := stops read views.reads
      have moved : k ≠ 0 := by
        rintro rfl
        have empty := halves.first
        cases empty
        cases shared
      rw [views.replay_of_refusal sequenced stopped]
      exact .inr ⟨⟨moved, last⟩, shaped⟩

end Outcomes

def firstNames (layout : Layout) (i : Nat) : List Bytes := (layout.take i).map nameOfSegment

def stateAt (v : Volume) (layout : Layout) (i : Nat) : Volume := (v.create lockName).moves (firstNames layout i)

structure Site (lib : Libraries) (start next : Nat) (layout : Layout) (g : Ledger) (v : Volume) (length : Nat) : Prop
    extends Folded lib unlimited start next layout g where
  wellFormed : v.WellFormed
  views : Views v.journal.names (v.read v.journal) layout
  longest : prunableLength g.replayer.finish = length
  some_ : 0 < length
  lockable : v.journal.kind lockName = .none ∨ v.journal.kind lockName = .regularFile
  archive : v.archiveKind = .directory ∨ v.archiveKind = .none
  regular : ∀ name ∈ firstNames layout length, v.journal.kind name = .regularFile
  absent : ∀ name ∈ firstNames layout length, v.archived.kind name = .none
  apart : ∀ name ∈ v.archived.names, isSegmentName name = true →
    (∀ other ∈ firstNames layout length, name < other) ∨ ∀ other ∈ firstNames layout length, other < name

namespace Site

variable {lib : Libraries} {what directory : Bytes} {start next length i j : Nat} {layout : Layout} {g g' : Ledger} {v : Volume}

theorem sorted_first (site : Site lib start next layout g v length) (i : Nat) : (firstNames layout i).Pairwise (· < ·) := by
  rw [firstNames, List.map_take]
  exact site.sorted.sublist (List.take_sublist _ _)

theorem looks (site : Site lib start next layout g v length) : ∀ name ∈ firstNames layout i, isSegmentName name = true := by
  intro name member
  obtain ⟨entry, inside, rfl⟩ := List.mem_map.1 member
  exact isSegmentName_of_first (site.first (List.mem_of_mem_take inside))

theorem lock_stays (site : Site lib start next layout g v length) : lockName ∉ firstNames layout i :=
  fun member => ne_lockName (site.looks _ member) rfl

theorem present (site : Site lib start next layout g v length) {name : Bytes} (member : name ∈ firstNames layout i) :
    ∃ link, v.journal.find name = some link := by
  obtain ⟨entry, inside, rfl⟩ := List.mem_map.1 member
  have read := site.views.reads entry (List.mem_of_mem_take inside)
  obtain ⟨link, found, -⟩ := Option.map_eq_some_iff.1 read
  exact ⟨link, found⟩

theorem views_at (site : Site lib start next layout g v length) (i : Nat) :
    Views (stateAt v layout i).journal.names ((stateAt v layout i).read (stateAt v layout i).journal) (layout.drop i) :=
  views_moved site.wellFormed site.views site.toSequenced i rfl rfl

theorem firstNames_split (within : i ≤ length) :
    firstNames layout length = firstNames layout i ++ (firstNames layout length).drop i := by
  have taken : firstNames layout i = (firstNames layout length).take i := by
    rw [firstNames, firstNames, ← List.map_take, List.take_take, Nat.min_eq_left within]
  rw [taken, List.take_append_drop]

theorem later (site : Site lib start next layout g v length) (within : i ≤ length) {name : Bytes}
    (member : name ∈ (firstNames layout length).drop i) :
    (stateAt v layout i).journal.kind name = .regularFile ∧ (stateAt v layout i).archived.kind name = .none ∧
      ((stateAt v layout i).journal.find name).isSome = true := by
  have inside := List.mem_of_mem_drop member
  have stays : name ∉ firstNames layout i := by
    have distinct := nodup_of_sorted (site.sorted_first length)
    rw [firstNames_split within, List.nodup_append] at distinct
    exact fun early => distinct.2.2 name early name member rfl
  have differs := ne_lockName (site.looks name inside)
  refine ⟨?_, ?_, ?_⟩
  · rw [stateAt, Volume.kind_moves stays, Volume.kind_create_of_ne v differs]
    exact site.regular name inside
  · apply Volume.kind_archived_moves (nodup_of_sorted (site.sorted_first i)) _ stays
    rw [Volume.archived_create]
    exact site.absent name inside
  · obtain ⟨link, found⟩ := site.present inside
    rw [stateAt, Volume.find_moves stays, Volume.find_create_of_ne v differs, found]
    rfl

theorem archive_at (site : Site lib start next layout g v length) (moved : 0 < i) :
    (stateAt v layout i).archive.isSome = true := by
  have nonempty : layout ≠ [] := by
    rintro rfl
    have none_ := prunableLength_of_empty site.segments site.lengths rfl
    have some_ := site.some_
    rw [← site.longest, none_] at some_
    exact Nat.lt_irrefl 0 some_
  obtain ⟨entry, rest, rfl⟩ := List.exists_cons_of_ne_nil nonempty
  obtain ⟨n, rfl⟩ := Nat.exists_eq_succ_of_ne_zero (Nat.ne_of_gt moved)
  have member : nameOfSegment entry ∈ firstNames (entry :: rest) (n + 1) := List.mem_cons_self
  obtain ⟨link, found⟩ := site.present member
  apply Volume.isSome_archive_moves
  rw [Volume.find_create_of_ne v (ne_lockName (site.looks _ member)), found]

theorem archiveKind_at (site : Site lib start next layout g v length) (i : Nat) :
    (stateAt v layout i).archiveKind = .directory ∨ (stateAt v layout i).archiveKind = .none := by
  by_cases moved : 0 < i
  · left
    rw [Volume.archiveKind, if_pos (site.archive_at moved)]
  · obtain rfl : i = 0 := Nat.eq_zero_of_not_pos moved
    have same : (stateAt v layout 0).archiveKind = v.archiveKind := by
      have kept : (v.create lockName).archive = v.archive := by
        unfold Volume.create
        split <;> rfl
      show (if (v.create lockName).archive.isSome then EntryKind.directory else _) = _
      rw [kept]
      show (if v.archive.isSome then EntryKind.directory else (v.create lockName).journal.kind Volume.archiveName) = _
      rw [Volume.kind_create_of_ne v (by decide)]
      rfl
    rw [same]
    exact site.archive

theorem inside (site : Site lib start next layout g v length) : length < layout.length := by
  have greatest := site.isGreatest unlimited_large (site.recorded_of_positive (site.longest ▸ site.some_))
  by_contra beyond
  apply greatest.1.1
  rw [site.longest, List.drop_eq_nil_of_le (Nat.not_lt.1 beyond)]
  rfl

theorem exists_next (site : Site lib start next layout g v length) (before : i < length) :
    ∃ entry rest, layout.drop i = entry :: rest ∧ ∃ others, (firstNames layout length).drop i = nameOfSegment entry :: others := by
  refine ⟨_, _, List.drop_eq_getElem_cons (before.trans site.inside), ?_⟩
  obtain ⟨n, more⟩ := Nat.exists_eq_succ_of_ne_zero (Nat.sub_ne_zero_of_lt before)
  rw [firstNames, ← List.map_drop, List.drop_take, List.drop_eq_getElem_cons (before.trans site.inside), more]
  exact ⟨_, rfl⟩

theorem moves_rest (site : Site lib start next layout g v length) (before : i < length) :
    (stateAt v layout i).ensureArchive.moves ((firstNames layout length).drop i) = stateAt v layout length := by
  have whole : (stateAt v layout i).moves ((firstNames layout length).drop i) = stateAt v layout length := by
    rw [stateAt, ← Volume.moves_append, ← firstNames_split (Nat.le_of_lt before)]
    rfl
  rw [← whole]
  obtain ⟨entry, -, -, others, rest⟩ := site.exists_next before
  have facts := site.later (Nat.le_of_lt before) (rest ▸ List.mem_cons_self)
  obtain ⟨link, found⟩ := Option.isSome_iff_exists.1 facts.2.2
  rw [rest]
  exact Volume.ensureArchive_moves found

theorem verified (site : Site lib start next layout g v length) (within : j ≤ length) {first : Nat}
    (half : Folded lib unlimited first next (layout.drop j) g') (expected : g'.expected = g.expected) :
    let t := stateAt v layout length
    let after := replayJournal lib what unlimited (some t.journal.names) (t.read t.journal)
    after.status = .replayed ∧ after.nextSequence = g'.replayer.finish.nextSequence ∧
      after.records + ((g'.replayer.finish.segments.take (length - j)).map (·.records)).sum = g'.replayer.finish.records := by
  rcases outcome what site.toFolded (site.longest ▸ site.some_) site.longest.ge (site.views_at length) with
    ⟨start', retained, last, replays, expected', -⟩ | ⟨⟨-, other⟩, -⟩
  · intro t after
    have replayed : after = retained.replayer.finish := replays
    rw [replayed]
    refine ⟨rfl, expected'.trans expected.symm, ?_⟩
    have split : layout.drop j = (layout.drop j).take (length - j) ++ layout.drop length := by
      have further : layout.drop length = (layout.drop j).drop (length - j) := by
        rw [List.drop_drop, Nat.add_sub_cancel' within]
      rw [further, List.take_append_drop]
    have listed : g'.replayer.finish.segments = (layout.drop j).map segmentOf := half.segments
    show retained.records + _ = g'.records
    rw [listed, last.records, half.records, ← List.map_take]
    nth_rewrite 2 [split]
    rw [List.map_append, List.map_append, List.sum_append, UInt64.add_comm]
  · exact absurd site.longest.symm other

theorem ends_rest (site : Site lib start next layout g v length) (before : i < length) (within : j ≤ i) {first : Nat}
    (half : Folded lib unlimited first next (layout.drop j) g') (expected : g'.expected = g.expected)
    (longest : prunableLength g'.replayer.finish = length - j) {r : PruneResult} (resumed : r.resumed.length = i - j) :
    Ends Fault.Fine (perform lib what directory false g'.replayer.finish) (stateAt v layout i, r) fun r t =>
      r.status = .done ∧ t.1 = stateAt v layout length := by
  rw [← site.moves_rest before]
  apply ends_perform
  · rw [longest, resumed]
    omega
  · rw [longest, resumed, List.map_drop, names_of_segments half, ← List.drop_take, List.map_drop, List.drop_drop,
      Nat.add_sub_cancel' within]
    rfl
  · exact ((nodup_of_sorted (site.sorted_first length)).sublist (List.drop_sublist _ _))
  · exact site.archiveKind_at i
  · exact fun name member => (site.later (Nat.le_of_lt before) member).1
  · exact fun name member => (site.later (Nat.le_of_lt before) member).2.1
  · exact fun name member => (site.later (Nat.le_of_lt before) member).2.2
  · dsimp only
    rw [site.moves_rest before, longest]
    exact site.verified (within.trans (Nat.le_of_lt before)) half expected

theorem searched (site : Site lib start next layout g v length) (before : i < length) :
    ∃ earlier, archivedBefore (stateAt v layout i).journal.names (stateAt v layout i).archived.names =
      earlier ++ firstNames layout i := by
  have moved : (stateAt v layout i).archived.names = v.archived.names ++ firstNames layout i := by
    have links := (Volume.archived_moves (v := v.create lockName) (nodup_of_sorted (site.sorted_first i))).1
    have named : ((firstNames layout i).filterMap (v.create lockName).journal.find).map (·.name) = firstNames layout i := by
      have each : ∀ name ∈ firstNames layout i, ∃ link, (v.create lockName).journal.find name = some link ∧ link.name = name := by
        intro name member
        obtain ⟨link, found⟩ := site.present member
        have kept : (v.create lockName).journal.find name = some link := by
          rw [Volume.find_create_of_ne v (ne_lockName (site.looks _ member)), found]
        exact ⟨link, kept, (Place.mem_of_find kept).2⟩
      generalize firstNames layout i = names at each
      induction names with
      | nil => rfl
      | cons name names ih =>
          obtain ⟨link, found, named⟩ := each name List.mem_cons_self
          rw [List.filterMap_cons_some found, List.map_cons, named, ih fun other member => each other (List.mem_cons_of_mem _ member)]
    rw [Place.names, stateAt, links, List.map_append, named, Volume.archived_create]
    rfl
  obtain ⟨entry, rest, cut, others, later⟩ := site.exists_next before
  have whole : layout.map nameOfSegment = firstNames layout i ++ nameOfSegment entry :: rest.map nameOfSegment := by
    rw [firstNames, ← List.map_cons, ← cut, ← List.map_append, List.take_append_drop]
  have sorted := site.sorted
  rw [whole, List.pairwise_append, List.pairwise_cons] at sorted
  obtain ⟨first, ⟨least, -⟩, below⟩ := sorted
  have seen := (site.views_at i).listed
  rw [cut, List.map_cons] at seen
  have inside : nameOfSegment entry ∈ firstNames layout length :=
    List.mem_of_mem_drop (i := i) (later ▸ List.mem_cons_self)
  have found := List.mem_filter.1 (seen.symm.subset List.mem_cons_self)
  rw [moved]
  apply archivedBefore_eq found.1 found.2
  · intro name member shaped
    rcases List.mem_cons.1 (seen.subset (List.mem_filter.2 ⟨member, shaped⟩)) with rfl | other
    · exact List.le_refl _
    · exact List.le_of_lt (least name other)
  · exact first
  · exact fun name member => ⟨site.looks name member, below name member _ List.mem_cons_self⟩
  · intro name member shaped less other early
    rcases site.apart name member shaped with all | all
    · apply all
      rw [firstNames_split (Nat.le_of_lt before)]
      exact List.mem_append_left _ early
    · exact absurd (List.lt_trans less (all _ inside)) (List.lt_irrefl _)

theorem views_merged (site : Site lib start next layout g v length) (within : i ≤ length) (j : Nat) (fewer : j ≤ i) :
    let u := stateAt v layout i
    let run := (firstNames layout i).drop j
    Views (u.journal.names ++ run) (fun name => if name ∈ run then u.read u.archived name else u.read u.journal name)
      (layout.drop j) := by
  intro u run
  have named : run = ((layout.take i).drop j).map nameOfSegment := List.map_drop.symm
  have split : layout.drop j = (layout.take i).drop j ++ layout.drop i := by
    have further : layout.drop i = (layout.drop j).drop (i - j) := by rw [List.drop_drop, Nat.add_sub_cancel' fewer]
    rw [List.drop_take, further, List.take_append_drop]
  have distinct := nodup_of_sorted site.sorted
  rw [← List.take_append_drop i layout, List.map_append, List.nodup_append] at distinct
  rw [split]
  apply (site.views_at i).merge named
  · exact fun name member => site.looks name (List.mem_of_mem_drop member)
  · intro entry member
    have early : entry ∈ layout.take i := List.mem_of_mem_drop member
    have listed : nameOfSegment entry ∈ firstNames layout i := List.mem_map_of_mem early
    have differs := ne_lockName (site.looks _ listed)
    have unlisted : (v.create lockName).archived.find (nameOfSegment entry) = none := by
      rw [Volume.archived_create]
      apply Place.find_eq_none.2
      apply Place.absent_of_kind
      apply site.absent
      rw [firstNames_split within]
      exact List.mem_append_left _ listed
    rw [if_pos (named ▸ List.mem_map_of_mem member)]
    have archived : u.archived.find (nameOfSegment entry) = (v.create lockName).journal.find (nameOfSegment entry) := by
      rw [show u = (v.create lockName).moves (firstNames layout i) from rfl, Volume.find_archived_moves (nodup_of_sorted (site.sorted_first i)) unlisted]
      exact if_pos listed
    have read : u.read u.archived (nameOfSegment entry) = v.read v.journal (nameOfSegment entry) := by
      rw [Volume.read, archived, show u.content = (v.create lockName).content from Volume.content_moves _ _]
      exact site.wellFormed.read_create differs
    rw [read]
    exact site.views.reads entry (List.mem_of_mem_take early)
  · intro entry member
    apply if_neg
    intro early
    exact distinct.2.2 _ (List.mem_of_mem_drop early) _ (List.mem_map_of_mem member) rfl

theorem ends_interrupted (site : Site lib start next layout g v length) (before : i < length) (some_ : i ≠ 0) {refused : ReplayResult}
    (shaped : interrupted refused = true) :
    Ends Fault.Fine (replayInterrupted lib what refused) (stateAt v layout i, {}) fun found t =>
      ∃ j ≤ i, ∃ first g' r, found = some g'.replayer.finish ∧ t = (stateAt v layout i, r) ∧ r.resumed.length = i - j ∧
        Folded lib unlimited first next (layout.drop j) g' ∧ g'.expected = g.expected ∧
        prunableLength g'.replayer.finish = length - j := by
  have length_first : (firstNames layout i).length = i := by
    rw [firstNames, List.length_map, List.length_take]
    exact Nat.min_eq_left (Nat.le_of_lt (before.trans site.inside))
  obtain ⟨archive, present⟩ := Option.isSome_iff_exists.1 (site.archive_at (Nat.pos_of_ne_zero some_))
  have archived : (stateAt v layout i).archived = archive := by
    rw [Volume.archived, present]
    rfl
  obtain ⟨earlier, searched⟩ := site.searched before
  rw [replayInterrupted, shaped]
  apply ends_bind
  apply ends_reads
  apply ends_bind
  apply ends_reads
  rw [present, Option.map_some, ← archived]
  dsimp only
  rw [searched]
  have run (n : Nat) (few : n ≤ i) : (earlier ++ firstNames layout i).drop ((earlier ++ firstNames layout i).length - n) =
      (firstNames layout i).drop (i - n) := by
    rw [List.length_append, length_first, Nat.add_sub_assoc few, ← List.drop_drop, List.drop_left]
  obtain ⟨longer, turns⟩ : ∃ longer, (List.range (earlier ++ firstNames layout i).length).map (· + 1) =
      (List.range (i - 1)).map (· + 1) ++ i :: longer := by
    have total : (earlier ++ firstNames layout i).length = (i - 1) + (earlier.length + 1) := by
      rw [List.length_append, length_first]
      omega
    have last : i - 1 + 0 + 1 = i := by omega
    rw [total, List.range_add, List.range_succ_eq_map, List.map_append, List.map_cons, List.map_cons, last]
    exact ⟨_, rfl⟩
  have few : ∀ n ∈ (List.range (i - 1)).map (· + 1) ++ [i], n ≤ i := by
    intro n member
    simp only [List.mem_append, List.mem_map, List.mem_range, List.mem_singleton] at member
    omega
  -- what replay gives with the last `n` of the moved segments
  have replays (n : Nat) (some_ : n ≤ i) := outcome what site.toFolded (site.longest ▸ site.some_)
    (site.longest ▸ (Nat.sub_le i n).trans (Nat.le_of_lt before)) (site.views_merged (Nat.le_of_lt before) (i - n) (Nat.sub_le i n))
  rw [turns]
  have found := @ends_resume lib what (stateAt v layout i, {}) (earlier ++ firstNames layout i) ((List.range (i - 1)).map (· + 1))
    longer i ?_ ?_
  · apply found.mono
    rintro _ t ⟨n, member, status, rfl, rfl⟩
    have inside := few n member
    rw [run n inside] at status ⊢
    rcases replays n inside with ⟨first, g', half, same, expected, longest⟩ | ⟨-, again⟩
    · refine ⟨i - n, Nat.sub_le i n, first, g', _, congrArg some same, rfl, ?_, half, expected, site.longest ▸ longest⟩
      rw [List.length_drop, length_first]
    · exact absurd status (status_of_interrupted again)
  · intro n member
    rw [run n (few n member)]
    rcases replays n (few n member) with ⟨first, g', -, same, -⟩ | ⟨-, again⟩
    · left
      exact congrArg ReplayResult.status same
    · exact .inr again
  · rw [run i (Nat.le_refl i)]
    rcases replays i (Nat.le_refl i) with ⟨first, g', -, same, -⟩ | ⟨⟨moved, -⟩, -⟩
    · exact congrArg ReplayResult.status same
    · exact absurd (Nat.sub_self i) moved

theorem ends_prune (site : Site lib start next layout g v length) (within : i ≤ length) :
    Ends Fault.Fine (pruneClosedPrefix lib what directory false) (v.moves (firstNames layout i), {}) fun r t =>
      r.status = (if i < length then .done else .nothingToDo) ∧ t.1 = stateAt v layout length := by
  apply ends_rescue
  apply ends_bind
  apply ends_acts
  · rw [Volume.kind_moves site.lock_stays]
    rcases site.lockable with kind | kind <;> simp [kind]
  · have locked : (v.moves (firstNames layout i)).create lockName = stateAt v layout i := Volume.create_moves site.lock_stays
    dsimp only
    rw [locked]
    apply ends_bind
    apply ends_replay
    dsimp only
    have replays := outcome what site.toFolded (site.longest ▸ site.some_) (site.longest ▸ within) (site.views_at i)
    rw [site.longest] at replays
    rcases replays with ⟨first, g', half, same, expected, longest⟩ | ⟨⟨moved, before⟩, again⟩
    · rw [same, if_pos (show g'.replayer.finish.status = .replayed from rfl)]
      by_cases before : i < length
      · rw [if_pos before]
        exact site.ends_rest before (Nat.le_refl i) half expected longest (Nat.sub_self i).symm
      · obtain rfl : i = length := Nat.le_antisymm within (Nat.not_lt.1 before)
        rw [if_neg before]
        apply ends_perform_nothing (longest.trans (Nat.sub_self i)) rfl
        rw [Volume.archiveKind, if_pos (site.archive_at site.some_)]
    · have earlier : i < length := Nat.lt_of_le_of_ne within before
      rw [if_neg (status_of_interrupted again), if_pos earlier]
      apply ends_bind
      apply (site.ends_interrupted earlier moved again).mono
      rintro _ t ⟨j, fewer, first, g', r, rfl, rfl, resumed, half, expected, longest⟩
      exact site.ends_rest earlier fewer half expected longest resumed

end Site

end Prune

end Sitometron.Journal
