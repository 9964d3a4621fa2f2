import Sitometron.Proof.Journal.Volume

/-!
# Quarantine of a torn tail

The bytes of the tail are in the segment until they are all in the quarantine file, whatever the calls of the file system
answer and however often the operation is repeated.
-/

namespace Sitometron.Journal

open Core Script Maintenance

namespace Quarantine

theorem quarantineName_last (segment : Bytes) (offset : Nat) :
    ∃ c, (quarantineName segment offset).getLast? = some c ∧ isDigit c = true := by
  refine ⟨(decimal offset).getLast (decimal_ne_nil offset), ?_, decimal_isDigit (List.getLast_mem _)⟩
  rw [quarantineName, List.getLast?_append, List.getLast?_eq_some_getLast (decimal_ne_nil offset)]
  rfl

theorem quarantineName_not_segment (segment : Bytes) (offset : Nat) : isSegmentName (quarantineName segment offset) = false := by
  obtain ⟨c, last, digit⟩ := quarantineName_last segment offset
  rw [isSegmentName, Bool.and_eq_false_iff]
  right
  by_contra shaped
  rw [Bool.not_eq_false, List.isSuffixOf_iff_suffix] at shaped
  obtain ⟨front, whole⟩ := shaped
  rw [← whole, List.getLast?_append, show segmentSuffix.getLast? = some (byte 'n') by decide] at last
  cases last
  exact absurd digit (by decide)

theorem quarantineName_ne_lock (segment : Bytes) (offset : Nat) : quarantineName segment offset ≠ lockName := by
  intro same
  obtain ⟨c, last, digit⟩ := quarantineName_last segment offset
  rw [same, show lockName.getLast? = some (byte 'k') by decide] at last
  cases last
  exact absurd digit (by decide)

theorem ne_quarantineName {name : Bytes} (looks : isSegmentName name = true) (segment : Bytes) (offset : Nat) :
    name ≠ quarantineName segment offset := by
  rintro rfl
  rw [quarantineName_not_segment] at looks
  cases looks

def Owned (w : Volume) (name : Bytes) : Prop :=
  ∃ link, w.journal.find name = some link ∧ link.symbolic = false ∧ w.links link.file = 1

/-- No foreign entry is in the way: the quarantine file does not exist, or holds a beginning of the tail. -/
structure Ready (w : Volume) (segment kept tail : Bytes) : Prop where
  lockable : w.journal.kind lockName = .none ∨ w.journal.kind lockName = .regularFile
  owned : Owned w segment
  quarantine : w.journal.kind (quarantineName segment kept.length) = .none ∨
    Owned w (quarantineName segment kept.length) ∧
      ∃ existing, w.read w.journal (quarantineName segment kept.length) = some existing ∧ existing <+: tail

structure Torn (v : Volume) (segment kept tail : Bytes) : Prop where
  looks : isSegmentName segment = true
  whole : v.read v.journal segment = some (kept ++ tail)
  nonempty : tail ≠ []
  unfinished : 0x0A ∉ tail
  finished : ∀ name content, isSegmentName name = true → name ≠ segment → v.read v.journal name = some content →
    content.getLast? = some 0x0A

structure Intact (v w : Volume) (segment : Bytes) : Prop where
  wellFormed : w.WellFormed
  names : w.journal.names.filter isSegmentName = v.journal.names.filter isSegmentName
  others : ∀ name, isSegmentName name = true → name ≠ segment → w.read w.journal name = v.read v.journal name

structure Whole (v w : Volume) (segment kept tail : Bytes) : Prop extends Intact v w segment where
  whole : w.read w.journal segment = some (kept ++ tail)
  ready : Ready v segment kept tail → Ready w segment kept tail

structure Cut (v w : Volume) (segment kept tail : Bytes) : Prop extends Intact v w segment where
  cut : w.read w.journal segment = some kept
  quarantined : w.read w.journal (quarantineName segment kept.length) = some tail

def Safe (v : Volume) (segment kept tail : Bytes) (w : Volume) : Prop := Whole v w segment kept tail ∨ Cut v w segment kept tail

section Phases

variable {v w : Volume} {segment kept tail name : Bytes}

theorem Owned.create {other : Bytes} (wellFormed : w.WellFormed) (owned : Owned w other) (different : other ≠ name) :
    Owned (w.create name) other := by
  obtain ⟨link, found, plain, single⟩ := owned
  exact ⟨link, by rw [Volume.find_create_of_ne w different, found], plain, by rw [wellFormed.links_create found, single]⟩

theorem Owned.of_create (wellFormed : w.WellFormed) (absent : w.journal.kind name = .none) : Owned (w.create name) name :=
  ⟨_, Volume.find_create w absent, rfl, wellFormed.links_fresh absent⟩

theorem Intact.create (intact : Intact v w segment) (ignored : isSegmentName name = false) : Intact v (w.create name) segment := by
  refine ⟨intact.wellFormed.create name, ?_, fun other looks different => ?_⟩
  · rw [Volume.names_create_filter w ignored]
    exact intact.names
  · have apart : other ≠ name := by
      rintro rfl
      rw [ignored] at looks
      cases looks
    rw [intact.wellFormed.read_create apart]
    exact intact.others other looks different

theorem Ready.create_lock (wellFormed : w.WellFormed) (ready : Ready w segment kept tail) (looks : isSegmentName segment = true) :
    Ready (w.create lockName) segment kept tail := by
  have apart := ne_lockName looks
  have apartToo := quarantineName_ne_lock segment kept.length
  refine ⟨?_, ready.owned.create wellFormed apart, ?_⟩
  · by_cases absent : w.journal.kind lockName = .none
    · exact .inr (Place.kind_regular (Volume.find_create w absent) rfl)
    · rw [Volume.create_of_present absent]
      exact ready.lockable
  · rw [Volume.kind_create_of_ne w apartToo, wellFormed.read_create apartToo]
    exact ready.quarantine.imp id fun started => ⟨started.1.create wellFormed apartToo, started.2⟩

theorem Whole.create_lock (whole : Whole v w segment kept tail) (looks : isSegmentName segment = true) :
    Whole v (w.create lockName) segment kept tail := by
  have apart := ne_lockName looks
  refine ⟨whole.toIntact.create lockName_not_segment, ?_, fun ready => (whole.ready ready).create_lock whole.wellFormed looks⟩
  rw [whole.wellFormed.read_create apart]
  exact whole.whole

theorem Safe.create_lock (safe : Safe v segment kept tail w) (looks : isSegmentName segment = true) :
    Safe v segment kept tail (w.create lockName) := by
  have apart := ne_lockName looks
  rcases safe with whole | cut
  · exact .inl (whole.create_lock looks)
  · refine .inr ⟨cut.toIntact.create lockName_not_segment, ?_, ?_⟩
    · rw [cut.wellFormed.read_create apart]
      exact cut.cut
    · rw [cut.wellFormed.read_create (quarantineName_ne_lock _ _)]
      exact cut.quarantined

/-- While the quarantine file is filled: `bytes` are still missing, and no segment is a name of the same file. -/
structure Filling (v w : Volume) (segment kept tail : Bytes) (file : Nat) (bytes : Bytes) : Prop
    extends Whole v w segment kept tail where
  link : ∃ link, w.journal.find (quarantineName segment kept.length) = some link ∧ link.file = file ∧ link.symbolic = false
  single : w.links file = 1
  filling : w.content file ++ bytes = tail
  apart : ∀ name link, isSegmentName name = true → w.journal.find name = some link → link.file ≠ file

theorem Filling.write {file : Nat} {bytes : Bytes} (state : Filling v w segment kept tail file bytes)
    (looks : isSegmentName segment = true) (n : Nat) :
    Filling v (w.setContent file (w.content file ++ bytes.take n)) segment kept tail file (bytes.drop n) := by
  obtain ⟨link, found, rfl, plain⟩ := state.link
  have filled : w.content link.file ++ bytes.take n ++ bytes.drop n = tail := by
    rw [List.append_assoc, List.take_append_drop, state.filling]
  have kept_ (name : Bytes) (segmentLike : isSegmentName name = true) :=
    @Volume.read_setContent_of_ne w name link.file (w.content link.file ++ bytes.take n) w.journal
      fun other named => state.apart name other segmentLike named
  refine
    { wellFormed := state.wellFormed.setContent _ _
      names := state.names
      others := fun name like different => ?_
      whole := ?_
      ready := fun ready => ?_
      link := ⟨link, found, rfl, plain⟩
      single := state.single
      filling := ?_
      apart := state.apart }
  · rw [Volume.setContent_journal, kept_ name like]
    exact state.others name like different
  · rw [Volume.setContent_journal, kept_ segment looks]
    exact state.whole
  · have before := state.ready ready
    refine ⟨before.lockable, before.owned, .inr ⟨⟨link, found, plain, state.single⟩, _, ?_, List.prefix_iff_exists_append_eq.2 ⟨_, filled⟩⟩⟩
    rw [Volume.setContent_journal, Volume.read_setContent, found]
    simp
  · simpa [Volume.setContent] using filled

theorem Filling.of_new (torn : Torn v segment kept tail) (whole : Whole v w segment kept tail)
    (absent : w.journal.kind (quarantineName segment kept.length) = .none) :
    Filling v (w.create (quarantineName segment kept.length)) segment kept tail w.fresh tail := by
  have ignored := quarantineName_not_segment segment kept.length
  have differs (name : Bytes) (like : isSegmentName name = true) := ne_quarantineName like segment kept.length
  have empty : (w.create (quarantineName segment kept.length)).content w.fresh = [] := by
    rw [Volume.create_of_absent absent]
    simp [Volume.setContent]
  have found := Volume.find_create w absent
  refine
    { whole.toIntact.create ignored with
      whole := ?_
      ready := fun ready => ?_
      link := ⟨_, found, rfl, rfl⟩
      single := whole.wellFormed.links_fresh absent
      filling := by rw [empty, List.nil_append]
      apart := fun name link like named => ?_ }
  · rw [whole.wellFormed.read_create (differs segment torn.looks)]
    exact whole.whole
  · have before := whole.ready ready
    refine ⟨?_, before.owned.create whole.wellFormed (differs segment torn.looks),
      .inr ⟨Owned.of_create whole.wellFormed absent, [], ?_, List.nil_prefix⟩⟩
    · rw [Volume.kind_create_of_ne w (quarantineName_ne_lock _ _).symm]
      exact before.lockable
    · rw [Volume.read, found, Option.map_some, empty]
  · rw [Volume.find_create_of_ne w (differs name like)] at named
    exact Nat.ne_of_lt (whole.wellFormed.old link (List.mem_append_left _ (Place.mem_of_find named).1))

theorem Filling.of_existing (torn : Torn v segment kept tail) (whole : Whole v w segment kept tail) (owned : Owned w segment)
    {link : Link} (found : w.journal.find (quarantineName segment kept.length) = some link) (plain : link.symbolic = false)
    (single : w.links link.file = 1) (begins : w.content link.file <+: tail) :
    Filling v w segment kept tail link.file (tail.drop (w.content link.file).length) := by
  obtain ⟨rest, filled⟩ := begins
  refine
    { whole with
      link := ⟨link, found, rfl, plain⟩
      single
      filling := ?_
      apart := fun name other like named same => ?_ }
  · rw [← filled, List.drop_left]
  · by_cases own : name = segment
    · obtain ⟨segmentLink, segmentFound, segmentPlain, -⟩ := owned
      obtain rfl : segmentLink = other := by
        rw [own, segmentFound] at named
        exact Option.some.inj named
      have two := Volume.two_links segmentFound found (ne_quarantineName torn.looks _ _) segmentPlain plain same
      rw [same, single] at two
      omega
    · have read : v.read v.journal name = some (w.content other.file) := by
        rw [← whole.others name like own, Volume.read, named]
        rfl
      have last := torn.finished name _ like own read
      rw [same] at last
      exact torn.unfinished (filled ▸ List.mem_append_left _ (List.mem_of_getLast? last))

end Phases

section Faults

variable {safe : Volume → Prop} {w : Volume × QuarantineResult} {directory name : Bytes}

theorem keeps_finish (held : safe w.1) (status : MaintenanceStatus) (detail : Bytes) :
    Keeps (fun t => safe t.1) (finish status detail) w fun _ t => t.1 = w.1 :=
  keeps_bind (keeps_setResult held (keeps_result held rfl))

theorem keeps_fail (held : safe w.1) (step path : Bytes) :
    Keeps (fun t => safe t.1) (fail step path) w fun failure t => t.1 = w.1 ∧ failure ≠ none :=
  keeps_bind ((keeps_finish held _ _).mono fun _ _ kept same => keeps_pure kept ⟨same, nofun⟩)

theorem keeps_notOwnFile (held : safe w.1) :
    Keeps (fun t => safe t.1) (notOwnFile directory name true) w fun reason t => t = w ∧ (reason = some [] → Owned w.1 name) := by
  have told (reason path : Bytes) (nonempty : reason ≠ []) : path ++ reason ≠ [] := by simp [nonempty]
  refine keeps_bind (keeps_reads held (keeps_pure held ⟨rfl, nofun⟩) ?_)
  refine keeps_ite (fun other => keeps_pure held ⟨rfl, fun empty => ?_⟩) fun regular => ?_
  · exact absurd (Option.some.inj empty) (told _ _ (by decide))
  · refine keeps_bind (keeps_reads held (keeps_pure held ⟨rfl, nofun⟩) ?_)
    cases found : w.1.journal.find name with
    | none => exact keeps_pure held ⟨rfl, nofun⟩
    | some link =>
        refine keeps_pure held ⟨rfl, fun empty => ⟨link, found, ?_, ?_⟩⟩
        · rw [not_not, Place.kind, found] at regular
          dsimp only at regular
          split at regular
          next => cases regular
          next plain => exact Bool.eq_false_iff.2 plain
        · by_contra several
          rw [if_neg several] at empty
          exact absurd (Option.some.inj empty) (told _ _ (by decide))

theorem keeps_refuseForeign (held : safe w.1) :
    Keeps (fun t => safe t.1) (refuseForeign directory name) w fun refusal t => t.1 = w.1 ∧ (refusal = none → Owned w.1 name) := by
  refine keeps_bind ((keeps_notOwnFile held).mono fun reason t _ checked => ?_)
  obtain ⟨rfl, owned⟩ := checked
  cases reason with
  | none => exact (keeps_fail held _ _).mono fun _ _ _ failed => ⟨failed.1, fun none => absurd none failed.2⟩
  | some reason =>
      refine keeps_ite (fun _ => ?_) fun passes => keeps_pure held ⟨rfl, fun _ => owned (by rw [not_not.1 passes])⟩
      exact keeps_bind ((keeps_finish held _ _).mono fun _ _ kept same => keeps_pure kept ⟨same, nofun⟩)

variable {v : Volume} {segment kept tail bytes path : Bytes} {file : Nat}

def Stored (w : Volume) (segment kept tail : Bytes) : Prop :=
  ∃ link, w.journal.find (quarantineName segment kept.length) = some link ∧ link.symbolic = false ∧ w.content link.file = tail

theorem Filling.stored {w : Volume} (state : Filling v w segment kept tail file []) : Stored w segment kept tail := by
  obtain ⟨link, found, rfl, plain⟩ := state.link
  exact ⟨link, found, plain, by rw [← state.filling, List.append_nil]⟩

theorem keeps_appendTurn (torn : Torn v segment kept tail) (state : Filling v w.1 segment kept tail file bytes) :
    Keeps (fun t => Safe v segment kept tail t.1) (appendTurn file path bytes) w fun turn t =>
      match turn with
      | .inl rest => Filling v t.1 segment kept tail file rest
      | .inr failure => Whole v t.1 segment kept tail ∧ (failure = none → Stored t.1 segment kept tail) := by
  have held : Safe v segment kept tail w.1 := .inl state.toWhole
  refine keeps_ite (fun done => ?_) fun more => ?_
  · rw [done] at state
    exact keeps_pure held ⟨state.toWhole, fun _ => state.stored⟩
  · refine keeps_bind (keeps_bind (keeps_ask held fun fault => keeps_bind (keeps_modify ?_ ?_)))
    · exact .inl (state.write torn.looks _).toWhole
    · have next := state.write torn.looks (min (fault.written.getD bytes.length) bytes.length)
      have nextHeld : Safe v segment kept tail _ := .inl next.toWhole
      refine keeps_pure nextHeld ?_
      refine keeps_ite (fun again => ?_) fun _ => keeps_ite (fun _ => ?_) fun _ => ?_
      · simp only [Bool.and_eq_true, decide_eq_true_eq] at again
        rw [again.2] at next nextHeld ⊢
        exact keeps_pure nextHeld next
      · exact keeps_pure nextHeld ⟨next.toWhole, nofun⟩
      · refine keeps_pure nextHeld ?_
        rw [Nat.min_assoc, Nat.min_self]
        exact next

theorem keeps_appendDurably {create : Bool} (torn : Torn v segment kept tail)
    (opened : Keeps (fun t => Safe v segment kept tail t.1) (openAppend (quarantineName segment kept.length) create) w
      fun handle t => Whole v t.1 segment kept tail ∧
        ∀ file, handle = some file → Filling v t.1 segment kept tail file bytes) :
    Keeps (fun t => Safe v segment kept tail t.1) (appendDurably directory (quarantineName segment kept.length) bytes create) w
      fun failure t => Whole v t.1 segment kept tail ∧ (failure = none → Stored t.1 segment kept tail) := by
  refine keeps_bind (opened.mono fun handle t held open_ => ?_)
  cases handle with
  | none => exact keeps_pure held ⟨open_.1, nofun⟩
  | some file =>
      have start := open_.2 file rfl
      refine keeps_bind (keeps_iterate (fun bytes t => Filling v t.1 segment kept tail file bytes) start
        (fun _ _ state => .inl state.toWhole) fun bytes t state => ?_)
      refine (keeps_appendTurn torn state).mono fun turn u kept_ ended => ?_
      cases turn with
      | inl rest => exact ended
      | inr failure =>
          cases failure with
          | some detail => exact keeps_pure kept_ ⟨ended.1, nofun⟩
          | none =>
              refine keeps_bind (keeps_status kept_ fun error => keeps_ite (fun _ => ?_) fun _ => ?_)
              · exact keeps_pure kept_ ⟨ended.1, nofun⟩
              · exact keeps_pure kept_ ⟨ended.1, fun _ => ended.2 rfl⟩

theorem keeps_openNew (torn : Torn v segment kept tail) (whole : Whole v w.1 segment kept tail) :
    Keeps (fun t => Safe v segment kept tail t.1) (openAppend (quarantineName segment kept.length) true) w
      fun handle t => Whole v t.1 segment kept tail ∧ ∀ file, handle = some file → Filling v t.1 segment kept tail file tail := by
  have held : Safe v segment kept tail w.1 := .inl whole
  refine keeps_bind (keeps_acts held (fun error failed => ?_) fun absent => ?_)
  · refine keeps_bind (keeps_volume held (keeps_pure held ⟨whole, fun file opened => ?_⟩))
    rw [if_neg failed] at opened
    cases opened
  · have state := Filling.of_new torn whole (of_decide_eq_true absent)
    have found := Volume.find_create w.1 (of_decide_eq_true absent)
    have created : Safe v segment kept tail (w.1.create (quarantineName segment kept.length)) := .inl state.toWhole
    refine ⟨created, fun error => keeps_bind (keeps_volume created (keeps_pure created ⟨state.toWhole, fun file opened => ?_⟩))⟩
    dsimp only at opened
    rw [if_pos rfl, found] at opened
    split at opened
    next =>
      cases opened
      exact state
    next => cases opened

theorem keeps_openExisting (torn : Torn v segment kept tail) (whole : Whole v w.1 segment kept tail) (owned : Owned w.1 segment)
    (own : Owned w.1 (quarantineName segment kept.length)) {existing : Bytes}
    (read : w.1.read w.1.journal (quarantineName segment kept.length) = some existing) (begins : existing <+: tail) :
    Keeps (fun t => Safe v segment kept tail t.1) (openAppend (quarantineName segment kept.length) false) w
      fun handle t => Whole v t.1 segment kept tail ∧
        ∀ file, handle = some file → Filling v t.1 segment kept tail file (tail.drop existing.length) := by
  have held : Safe v segment kept tail w.1 := .inl whole
  obtain ⟨link, found, plain, single⟩ := own
  obtain rfl : w.1.content link.file = existing := by
    rw [Volume.read, found] at read
    exact Option.some.inj read
  have state := Filling.of_existing torn whole owned found plain single begins
  have opens (error : IoError) (file : Nat)
      (opened : (if error = .none then (w.1.journal.find (quarantineName segment kept.length)).map (·.file) else none) = some file) :
      Filling v w.1 segment kept tail file (tail.drop (w.1.content link.file).length) := by
    split at opened
    next =>
      rw [found] at opened
      cases opened
      exact state
    next => cases opened
  refine keeps_bind (keeps_acts held (fun error _ => ?_) fun _ => ⟨held, fun error => ?_⟩)
  · exact keeps_bind (keeps_volume held (keeps_pure held ⟨whole, opens error⟩))
  · exact keeps_bind (keeps_volume held (keeps_pure held ⟨whole, opens error⟩))

/-- How both ways of storing a tail end, once it was appended. -/
def settle (directory : Bytes) (append : Step (Option Bytes)) : Step (Option QuarantineResult) := do
  match ← append with
  | some detail => return some (← finish .failed detail)
  | none => if (← syncDirectory) ≠ .none then fail (text "sync directory") directory else return none

theorem keeps_writeQuarantine (torn : Torn v segment kept tail) (whole : Whole v w.1 segment kept tail)
    (owned : Owned w.1 segment) :
    Keeps (fun t => Safe v segment kept tail t.1) (writeQuarantine directory (quarantineName segment kept.length) tail) w
      fun failure t => Whole v t.1 segment kept tail ∧ (failure = none → Stored t.1 segment kept tail) := by
  have held : Safe v segment kept tail w.1 := .inl whole
  have failing {t : Volume × QuarantineResult} (here : Whole v t.1 segment kept tail) (step path : Bytes) :
      Keeps (fun t => Safe v segment kept tail t.1) (fail step path) t
        fun failure u => Whole v u.1 segment kept tail ∧ (failure = none → Stored u.1 segment kept tail) :=
    (keeps_fail (.inl here) step path).mono fun _ _ _ failed => ⟨failed.1 ▸ here, fun none => absurd none failed.2⟩
  have finishing {t : Volume × QuarantineResult} (here : Whole v t.1 segment kept tail) (status : MaintenanceStatus) (detail : Bytes) :
      Keeps (fun t => Safe v segment kept tail t.1) (do return some (← finish status detail)) t
        fun failure u => Whole v u.1 segment kept tail ∧ (failure = none → Stored u.1 segment kept tail) :=
    keeps_bind ((keeps_finish (.inl here) _ _).mono fun _ _ kept_ same => keeps_pure kept_ ⟨same ▸ here, by simp⟩)
  have settling {append : Step (Option Bytes)} {t : Volume × QuarantineResult}
      (appended : Keeps (fun t => Safe v segment kept tail t.1) append t
        fun failure u => Whole v u.1 segment kept tail ∧ (failure = none → Stored u.1 segment kept tail)) :
      Keeps (fun t => Safe v segment kept tail t.1) (settle directory append) t
        fun failure u => Whole v u.1 segment kept tail ∧ (failure = none → Stored u.1 segment kept tail) := by
    refine keeps_bind (appended.mono fun failure u kept_ ended => ?_)
    cases failure with
    | some detail => exact finishing ended.1 _ _
    | none =>
        refine keeps_bind (keeps_status kept_ fun error => keeps_ite (fun _ => failing ended.1 _ _) fun _ => ?_)
        exact keeps_pure kept_ ⟨ended.1, fun _ => ended.2 rfl⟩
  refine keeps_bind (keeps_reads held (failing whole _ _) (keeps_ite (fun present => ?_) fun absent => ?_))
  · refine keeps_bind ((keeps_refuseForeign held).mono fun refusal t kept_ checked => ?_)
    obtain ⟨same, own⟩ := checked
    rw [← same] at whole owned own
    cases refusal with
    | some refusal => exact keeps_pure kept_ ⟨whole, by simp⟩
    | none =>
        refine keeps_bind (keeps_reads kept_ (failing whole _ _) ?_)
        cases read : t.1.read t.1.journal (quarantineName segment kept.length) with
        | none => exact failing whole _ _
        | some existing =>
            refine keeps_ite (fun _ => finishing whole _ _) fun begins => ?_
            simp only [Bool.or_eq_true, not_or, Bool.not_eq_true', Bool.not_eq_false, List.isPrefixOf_iff_prefix] at begins
            exact settling (keeps_appendDurably torn (keeps_openExisting torn whole owned (own rfl) read begins.2))
  · exact settling (keeps_appendDurably torn (keeps_openNew torn whole))

theorem Whole.truncate {w : Volume} (torn : Torn v segment kept tail) (whole : Whole v w segment kept tail)
    (stored : Stored w segment kept tail) {link : Link} (found : w.journal.find segment = some link)
    (plain : link.symbolic = false) (single : w.links link.file = 1) :
    Cut v (w.setContent link.file ((w.content link.file).take kept.length)) segment kept tail := by
  obtain ⟨quarantine, quarantineFound, quarantinePlain, holds⟩ := stored
  have content : w.content link.file = kept ++ tail := by
    have read := whole.whole
    rw [Volume.read, found] at read
    exact Option.some.inj read
  refine ⟨⟨whole.wellFormed.setContent _ _, whole.names, fun name like different => ?_⟩, ?_, ?_⟩
  · rw [Volume.setContent_journal, Volume.read_setContent_of_ne fun other named same => ?_]
    · exact whole.others name like different
    · have read : v.read v.journal name = some (kept ++ tail) := by
        rw [← whole.others name like different, Volume.read, named, Option.map_some, same, content]
      have last := torn.finished name _ like different read
      rw [List.getLast?_append_of_ne_nil _ torn.nonempty] at last
      exact torn.unfinished (List.mem_of_getLast? last)
  · rw [Volume.setContent_journal, Volume.read_setContent, found, content]
    simp
  · rw [Volume.setContent_journal, Volume.read_setContent_of_ne fun other named same => ?_]
    · rw [Volume.read, quarantineFound, Option.map_some, holds]
    · obtain rfl : quarantine = other := Option.some.inj (quarantineFound.symm.trans named)
      have two := Volume.two_links found named (ne_quarantineName torn.looks _ _) plain quarantinePlain same.symm
      omega

theorem keeps_truncate (torn : Torn v segment kept tail) (whole : Whole v w.1 segment kept tail)
    (stored : Stored w.1 segment kept tail) :
    Keeps (fun t => Safe v segment kept tail t.1) (Maintenance.truncate segment kept.length) w fun _ _ => True := by
  refine keeps_acts (.inl whole) (fun _ _ => trivial) fun able => ⟨.inr ?_, fun _ => trivial⟩
  cases found : w.1.journal.find segment with
  | none => simp [found] at able
  | some link =>
      simp only [found, Option.any_some, Bool.and_eq_true, Bool.not_eq_true', decide_eq_true_eq] at able
      exact whole.truncate torn stored found able.1.1 able.1.2

theorem keeps_cut {lib : Libraries} {what : Bytes} {replayed : ReplayResult} (torn : Torn v segment kept tail)
    (whole : Whole v w.1 segment kept tail) (at_ : replayed.tornSegment = segment) (offset : replayed.tornOffset = kept.length) :
    Keeps (fun t => Safe v segment kept tail t.1) (cut lib what directory replayed) w fun _ _ => True := by
  have finishing {t : Volume} (here : Safe v segment kept tail t) (r : QuarantineResult) (status : MaintenanceStatus) (detail : Bytes) :
      Keeps (fun t => Safe v segment kept tail t.1) (finish status detail) (t, r) fun _ _ => True :=
    (keeps_finish here _ _).mono fun _ _ _ _ => trivial
  have held : Safe v segment kept tail w.1 := .inl whole
  rw [cut, at_, offset]
  dsimp only
  refine keeps_bind (keeps_setResult held (keeps_bind (keeps_reads held (finishing held _ _ _) ?_)))
  dsimp only
  rw [whole.whole]
  refine keeps_ite (fun _ => finishing held _ _ _) fun _ => ?_
  rw [List.drop_left, List.take_left]
  have checking (r : QuarantineResult) := @keeps_refuseForeign _ (w.1, r) directory segment held
  refine keeps_bind (keeps_setResult held (keeps_bind ((checking _).mono fun refusal t kept_ checked => ?_)))
  obtain ⟨same, owned⟩ := checked
  cases refusal with
  | some refusal => exact keeps_pure kept_ trivial
  | none =>
      have here : Whole v t.1 segment kept tail := same ▸ whole
      refine keeps_bind ((keeps_writeQuarantine torn here (same ▸ owned rfl)).mono fun failure u keptU written => ?_)
      cases failure with
      | some failure => exact keeps_pure keptU trivial
      | none =>
          refine keeps_bind ((keeps_truncate torn written.1 (written.2 rfl)).mono fun error x keptX _ => ?_)
          refine keeps_ite (fun _ => finishing keptX _ _ _) fun _ => ?_
          refine keeps_bind (keeps_bind (keeps_reads_any keptX fun content => keeps_pure keptX ?_))
          refine keeps_ite (fun _ => finishing keptX _ _ _) fun _ => ?_
          refine keeps_bind (keeps_replay_any keptX fun after => keeps_ite (fun _ => finishing keptX _ _ _) fun _ => ?_)
          exact keeps_bind (keeps_setResult keptX (finishing keptX _ _ _))

theorem keeps_resyncEarlierCut (held : safe w.1) :
    Keeps (fun t => safe t.1) (resyncEarlierCut directory) w fun _ _ => True := by
  have finishing {t : Volume} (here : safe t) (r : QuarantineResult) (status : MaintenanceStatus) (detail : Bytes) :
      Keeps (fun t => safe t.1) (do return .error (← finish status detail) : Step (Except QuarantineResult Bytes)) (t, r)
        fun _ _ => True :=
    keeps_bind ((keeps_finish here _ _).mono fun _ _ kept_ _ => keeps_pure kept_ trivial)
  refine keeps_bind (keeps_reads held (finishing held _ _ _) (keeps_ite (fun _ => keeps_pure held trivial) fun _ => ?_))
  refine keeps_bind (keeps_reads held (finishing held _ _ _) ?_)
  generalize highestSegment w.1.journal.names = highest
  cases read : w.1.read w.1.journal highest with
  | none => exact finishing held _ _ _
  | some content =>
      refine keeps_ite (fun _ => keeps_pure held trivial) fun _ => ?_
      refine keeps_bind ((keeps_refuseForeign held).mono fun refusal t kept_ checked => ?_)
      cases refusal with
      | some refusal => exact keeps_pure kept_ trivial
      | none =>
          have unchanged : Keeps (fun t => safe t.1) (Maintenance.truncate highest content.length) t fun _ _ => True := by
            refine keeps_acts kept_ (fun _ _ => trivial) fun _ => ⟨?_, fun _ => trivial⟩
            rw [← checked.1] at read
            dsimp only
            cases found : t.1.journal.find highest with
            | none => exact kept_
            | some link =>
                rw [Volume.read, found] at read
                dsimp only
                rw [← Option.some.inj read, List.take_length, Volume.setContent_same]
                exact kept_
          refine keeps_bind (unchanged.mono fun error u keptU _ => keeps_ite (fun _ => finishing keptU _ _ _) fun _ => ?_)
          refine keeps_bind (keeps_bind (keeps_reads_any keptU fun content => keeps_pure keptU ?_))
          refine keeps_ite (fun _ => finishing keptU _ _ _) fun _ => ?_
          refine keeps_bind (keeps_status keptU fun error => keeps_ite (fun _ => finishing keptU _ _ _) fun _ => ?_)
          exact keeps_bind (keeps_setResult keptU (keeps_pure keptU trivial))

structure Site (lib : Libraries) (what : Bytes) (v : Volume) (result : ReplayResult) (segment kept tail : Bytes) : Prop
    extends Torn v segment kept tail where
  wellFormed : v.WellFormed
  replay : replayJournal lib what unlimited (some v.journal.names) (v.read v.journal) = result
  status : result.status = .tornTail
  at_ : result.tornSegment = segment
  offset : result.tornOffset = kept.length
  after : ∀ w, Cut v w segment kept tail →
    let after := replayJournal lib what unlimited (some w.journal.names) (w.read w.journal)
    if Replayer.Stranded result then after.status = .corrupt
    else (after.status = .replayed ∨ after.status = .sequenceExhausted) ∧ after.records = result.records

variable {lib : Libraries} {what : Bytes} {result : ReplayResult}

theorem Site.replay_whole {w : Volume} (site : Site lib what v result segment kept tail) (whole : Whole v w segment kept tail) :
    replayJournal lib what unlimited (some w.journal.names) (w.read w.journal) = result := by
  rw [← site.replay]
  refine replayJournal_congr whole.names fun name like => ?_
  by_cases own : name = segment
  · rw [own, whole.whole, site.whole]
  · exact whole.others name like own

theorem Site.not_torn {w : Volume} (site : Site lib what v result segment kept tail) (cut : Cut v w segment kept tail) :
    (replayJournal lib what unlimited (some w.journal.names) (w.read w.journal)).status ≠ .tornTail := by
  have after := site.after w cut
  intro torn
  dsimp only at after
  rw [torn] at after
  split at after
  next => cases after
  next => rcases after.1 with replayed | exhausted <;> contradiction

theorem keeps_lock (looks : isSegmentName segment = true) (held : Safe v segment kept tail w.1) :
    Keeps (fun t => Safe v segment kept tail t.1) lock w fun _ _ => True :=
  keeps_acts held (fun _ _ => trivial) fun _ => ⟨held.create_lock looks, fun _ => trivial⟩

theorem Site.keeps_replay (site : Site lib what v result segment kept tail) (held : Safe v segment kept tail w.1) :
    Keeps (fun t => Safe v segment kept tail t.1) (replayDirectory lib what) w fun replayed t =>
      replayed.status = .tornTail → Whole v t.1 segment kept tail ∧ replayed = result := by
  refine Maintenance.keeps_replay held (fun replayed unreadable torn => ?_) fun torn => ?_
  · rw [unreadable] at torn
    cases torn
  · rcases held with whole | cut
    · exact ⟨whole, site.replay_whole whole⟩
    · exact absurd torn (site.not_torn cut)

theorem Site.keeps_run (site : Site lib what v result segment kept tail) (held : Safe v segment kept tail w.1) :
    Keeps (fun t => Safe v segment kept tail t.1) (run lib what directory) w fun _ _ => True := by
  have finishing {t : Volume} (here : Safe v segment kept tail t) (r : QuarantineResult) (status : MaintenanceStatus) (detail : Bytes) :
      Keeps (fun t => Safe v segment kept tail t.1) (finish status detail) (t, r) fun _ _ => True :=
    (keeps_finish here _ _).mono fun _ _ _ _ => trivial
  refine keeps_bind ((keeps_lock site.looks held).mono fun error t keptT _ => ?_)
  refine keeps_ite (fun _ => finishing keptT _ _ _) fun _ => keeps_bind ((site.keeps_replay keptT).mono fun replayed u keptU torn => ?_)
  refine keeps_ite (fun _ => ?_) fun _ => keeps_ite (fun _ => finishing keptU _ _ _) fun reported => ?_
  · refine keeps_bind ((keeps_resyncEarlierCut keptU).mono fun resynced x keptX _ => ?_)
    cases resynced with
    | error failure => exact keeps_pure keptX trivial
    | ok note =>
        refine keeps_ite (fun _ => finishing keptX _ _ _) fun _ => ?_
        exact keeps_bind (keeps_setResult keptX (finishing keptX _ _ _))
  · obtain ⟨whole, rfl⟩ := torn (not_not.1 reported)
    exact keeps_cut site.toTorn whole site.at_ site.offset

theorem Site.keeps_quarantine (site : Site lib what v result segment kept tail) (held : Safe v segment kept tail w.1) :
    Keeps (fun t => Safe v segment kept tail t.1) (quarantineTornTail lib what directory) w fun _ _ => True :=
  keeps_rescue (site.keeps_run held) fun _ kept_ => (keeps_finish kept_ _ _).mono fun _ _ _ _ => trivial

end Faults

theorem Site.of_torn {lib : Libraries} {what : Bytes} {v : Volume} {result : ReplayResult} (wellFormed : v.WellFormed)
    (replay : replayJournal lib what unlimited (some v.journal.names) (v.read v.journal) = result)
    (status : result.status = .tornTail) :
    ∃ events tail, Encodable events ∧ Site lib what v result result.tornSegment (records events) tail := by
  obtain ⟨unsorted, earlier, last, events, tail, listed, split, tear, after⟩ := replayJournal_torn replay status
  obtain ⟨names, firsts⟩ := segmentsOf_eq_ok listed
  have permuted : (earlier ++ [last]).Perm unsorted := split ▸ List.perm_insertionSort _ _
  have looks (s : Segment) (member : s ∈ earlier ++ [last]) : isSegmentName s.name = true :=
    isSegmentName_of_first (firsts s (permuted.subset member))
  have distinct : ((earlier ++ [last]).map (·.name)).Nodup := by
    refine (permuted.map _).nodup_iff.2 ?_
    rw [names]
    exact wellFormed.distinct.filter _
  have differs (s : Segment) (member : s ∈ earlier) : s.name ≠ result.tornSegment := by
    rw [List.map_append, List.nodup_append] at distinct
    rw [tear.segment]
    exact distinct.2.2 _ (List.mem_map_of_mem member) _ (List.mem_map_of_mem (List.mem_singleton_self _))
  refine ⟨events, tail, tear.encodable, ?_⟩
  refine
    { looks := tear.segment ▸ looks last (by simp)
      whole := tear.segment ▸ tear.read
      nonempty := tear.nonempty
      unfinished := tear.torn
      finished := fun name content like different read => ?_
      wellFormed
      replay
      status
      at_ := rfl
      offset := tear.offset
      after := fun w cut => ?_ }
  · have member : name ∈ v.journal.names := by
      by_contra absent
      rw [Volume.read, Place.find_eq_none.2 absent] at read
      cases read
    have kept : name ∈ unsorted.map (·.name) := by
      rw [names]
      exact List.mem_filter.2 ⟨member, segmentsOf_looks listed member like⟩
    obtain ⟨s, inside, rfl⟩ := List.mem_map.1 ((permuted.map _).symm.subset kept)
    rcases List.mem_append.1 inside with before | here
    · obtain ⟨es, some_, encodable, held⟩ := tear.complete s before
      rw [held] at read
      rw [← Option.some.inj read]
      exact records_last encodable some_
    · rw [List.mem_singleton.1 here, ← tear.segment] at different
      exact absurd rfl different
  · have same : replayJournal lib what unlimited (some w.journal.names) (w.read w.journal) =
        replayJournal lib what unlimited (some v.journal.names) (w.read w.journal) :=
      replayJournal_congr cut.names fun _ _ => rfl
    dsimp only
    rw [same]
    refine after _ (fun s member => cut.others s.name (looks s (List.mem_append_left _ member)) (differs s member)) ?_
    rw [← tear.segment]
    exact cut.cut

section Fine

variable {lib : Libraries} {what directory name : Bytes} {v : Volume} {w : Volume × QuarantineResult} {result : ReplayResult}
  {segment kept tail bytes path : Bytes} {file : Nat}

theorem ends_finish (status : MaintenanceStatus) (detail : Bytes) :
    Ends Fault.Fine (finish status detail) w fun r t => r.status = status ∧ t.1 = w.1 :=
  ends_bind (ends_setResult (ends_result ⟨rfl, rfl⟩))

theorem ends_refuseForeign (owned : Owned w.1 name) :
    Ends Fault.Fine (refuseForeign directory name) w fun refusal t => refusal = none ∧ t = w := by
  obtain ⟨link, found, plain, single⟩ := owned
  have checked : Ends Fault.Fine (notOwnFile directory name true) w fun reason t => reason = some [] ∧ t = w := by
    refine ends_bind (ends_reads ?_)
    dsimp only
    rw [Place.kind_regular found plain, if_neg (by decide), if_neg (by decide)]
    refine ends_bind (ends_reads ?_)
    rw [found, Option.map_some]
    dsimp only
    rw [single, if_pos rfl]
    exact ends_pure ⟨rfl, rfl⟩
  refine ends_bind (checked.mono fun reason t passed => ?_)
  obtain ⟨rfl, rfl⟩ := passed
  exact ends_pure ⟨rfl, rfl⟩

theorem appendTurn_answered {t : Volume × QuarantineResult} {fault : Fault} (fine : fault.Fine) (more : bytes ≠ [])
    (rest : List Fault) : ∃ n, 0 < n ∧ appendTurn file path bytes t (fault :: rest) =
      (.returned (.inl (bytes.drop n)), (t.1.setContent file (t.1.content file ++ bytes.take n), t.2), rest) := by
  have some_ : 0 < bytes.length := List.length_pos_iff.2 more
  have taken : 0 < min (fault.written.getD bytes.length) bytes.length := by
    have asked : fault.written.getD bytes.length ≠ 0 := by
      cases written : fault.written with
      | none => exact Nat.pos_iff_ne_zero.1 some_
      | some n => exact fun zero => fine.2.2.2 (by rw [written]; exact congrArg some zero)
    omega
  refine ⟨_, taken, ?_⟩
  rw [appendTurn, if_neg more]
  simp only [Bind.bind, write_answered, fine.1]
  rw [if_neg (by simp), if_neg (by simpa using Nat.pos_iff_ne_zero.1 taken), Nat.min_assoc, Nat.min_self]
  rfl

theorem ends_appendTurns (state : Filling v w.1 segment kept tail file bytes) (looks : isSegmentName segment = true) :
    Ends Fault.Fine (iterate (appendTurn file path) bytes) w
      fun failure t => failure = none ∧ Filling v t.1 segment kept tail file [] := by
  have filled := state.write looks bytes.length
  rw [List.take_length, List.drop_length, state.filling] at filled
  refine ends_iterate (t := (w.1.setContent file tail, w.2))
    (fun rest t => ∃ begun, begun ++ rest = tail ∧ t = (w.1.setContent file begun, w.2)) List.length
    ⟨w.1.content file, state.filling, by rw [Volume.setContent_same]⟩ ?_ ?_ ⟨rfl, filled⟩
  · rintro rest t ⟨begun, whole, rfl⟩ finished answers
    rw [List.length_eq_zero_iff.1 finished, List.append_nil] at whole
    rw [List.length_eq_zero_iff.1 finished, whole]
    rfl
  · rintro rest t ⟨begun, whole, rfl⟩ more fault others fine
    have nonempty : rest ≠ [] := fun none => more (by rw [none]; rfl)
    obtain ⟨n, positive, turn⟩ := @appendTurn_answered rest path file (w.1.setContent file begun, w.2) fault fine nonempty others
    refine ⟨_, _, turn, ⟨begun ++ rest.take n, by rw [List.append_assoc, List.take_append_drop, whole], ?_⟩, ?_⟩
    · rw [Volume.setContent_again]
      simp [Volume.setContent]
    · have := List.length_pos_iff.2 nonempty
      rw [List.length_drop]
      omega

theorem ends_appendDurably {create : Bool} (looks : isSegmentName segment = true)
    (opened : Ends Fault.Fine (openAppend (quarantineName segment kept.length) create) w
      fun handle t => ∃ file, handle = some file ∧ Filling v t.1 segment kept tail file bytes) :
    Ends Fault.Fine (appendDurably directory (quarantineName segment kept.length) bytes create) w
      fun failure t => failure = none ∧ Whole v t.1 segment kept tail ∧ Stored t.1 segment kept tail := by
  refine ends_bind (opened.mono fun handle t filling => ?_)
  obtain ⟨file, rfl, state⟩ := filling
  refine ends_bind ((ends_appendTurns state looks).mono fun failure u filled => ?_)
  obtain ⟨rfl, state⟩ := filled
  refine ends_bind (ends_status ?_)
  rw [if_neg (by decide)]
  exact ends_pure ⟨rfl, state.toWhole, state.stored⟩

theorem ends_openNew (torn : Torn v segment kept tail) (whole : Whole v w.1 segment kept tail)
    (absent : w.1.journal.kind (quarantineName segment kept.length) = .none) :
    Ends Fault.Fine (openAppend (quarantineName segment kept.length) true) w
      fun handle t => ∃ file, handle = some file ∧ Filling v t.1 segment kept tail file tail := by
  refine ends_bind (ends_acts (by simpa using absent) (ends_bind (ends_volume ?_)))
  refine ends_pure ⟨w.1.fresh, ?_, Filling.of_new torn whole absent⟩
  dsimp only
  rw [if_pos rfl, if_pos rfl, Volume.find_create w.1 absent]
  rfl

theorem ends_openExisting (torn : Torn v segment kept tail) (whole : Whole v w.1 segment kept tail) (owned : Owned w.1 segment)
    (own : Owned w.1 (quarantineName segment kept.length)) {existing : Bytes}
    (read : w.1.read w.1.journal (quarantineName segment kept.length) = some existing) (begins : existing <+: tail) :
    Ends Fault.Fine (openAppend (quarantineName segment kept.length) false) w
      fun handle t => ∃ file, handle = some file ∧ Filling v t.1 segment kept tail file (tail.drop existing.length) := by
  obtain ⟨link, found, plain, single⟩ := own
  obtain rfl : w.1.content link.file = existing := by
    rw [Volume.read, found] at read
    exact Option.some.inj read
  refine ends_bind (ends_acts (by simp [found]) (ends_bind (ends_volume ?_)))
  refine ends_pure ⟨link.file, ?_, Filling.of_existing torn whole owned found plain single begins⟩
  simp [found]

theorem ends_writeQuarantine (torn : Torn v segment kept tail) (whole : Whole v w.1 segment kept tail)
    (ready : Ready w.1 segment kept tail) :
    Ends Fault.Fine (writeQuarantine directory (quarantineName segment kept.length) tail) w
      fun failure t => failure = none ∧ Whole v t.1 segment kept tail ∧ Stored t.1 segment kept tail := by
  refine ends_bind (ends_reads ?_)
  dsimp only
  rcases ready.quarantine with absent | ⟨own, existing, read, begins⟩
  · rw [if_neg (Place.absent_of_kind absent)]
    refine ends_bind ((ends_appendDurably torn.looks (ends_openNew torn whole absent)).mono fun failure t stored => ?_)
    obtain ⟨rfl, stored⟩ := stored
    refine ends_bind (ends_status ?_)
    rw [if_neg (by decide)]
    exact ends_pure ⟨rfl, stored⟩
  · have present : quarantineName segment kept.length ∈ w.1.journal.names := by
      obtain ⟨link, found, -⟩ := own
      by_contra absent
      rw [Place.find_eq_none.2 absent] at found
      cases found
    rw [if_pos present]
    refine ends_bind ((ends_refuseForeign own).mono fun refusal t passed => ?_)
    obtain ⟨rfl, rfl⟩ := passed
    refine ends_bind (ends_reads ?_)
    rw [read]
    dsimp only
    have accepted : ¬(decide (existing.length > tail.length) || !existing.isPrefixOf tail) = true := by
      have := begins.length_le
      simp [begins, this]
    rw [if_neg accepted]
    refine ends_bind ((ends_appendDurably torn.looks
      (ends_openExisting torn whole ready.owned own read begins)).mono fun failure t stored => ?_)
    obtain ⟨rfl, stored⟩ := stored
    refine ends_bind (ends_status ?_)
    rw [if_neg (by decide)]
    exact ends_pure ⟨rfl, stored⟩

theorem ends_truncate (torn : Torn v segment kept tail) (whole : Whole v w.1 segment kept tail) (owned : Owned w.1 segment)
    (stored : Stored w.1 segment kept tail) :
    Ends Fault.Fine (Maintenance.truncate segment kept.length) w fun error t => error = .none ∧ Cut v t.1 segment kept tail := by
  obtain ⟨link, found, plain, single⟩ := owned
  have content : w.1.content link.file = kept ++ tail := by
    have read := whole.whole
    rw [Volume.read, found] at read
    exact Option.some.inj read
  have able : (w.1.journal.find segment).any (fun link =>
      !link.symbolic && w.1.links link.file = 1 && kept.length ≤ (w.1.content link.file).length) = true := by
    simp [found, plain, single, content]
  refine ends_acts able ⟨rfl, ?_⟩
  dsimp only
  rw [found]
  exact whole.truncate torn stored found plain single

theorem Site.ends_cut (site : Site lib what v result segment kept tail) (ready : Ready v segment kept tail)
    (whole : Whole v w.1 segment kept tail) :
    Ends Fault.Fine (cut lib what directory result) w fun r t =>
      Cut v t.1 segment kept tail ∧ (r.status = .done ↔ ¬Replayer.Stranded result) := by
  have more : ¬(kept ++ tail).length ≤ kept.length := by
    have := List.length_pos_iff.2 site.nonempty
    rw [List.length_append]
    omega
  rw [cut, site.at_, site.offset]
  dsimp only
  refine ends_bind (ends_setResult (ends_bind (ends_reads ?_)))
  dsimp only
  rw [whole.whole]
  dsimp only
  rw [if_neg more, List.drop_left, List.take_left]
  have checking (r : QuarantineResult) := @ends_refuseForeign directory segment (w.1, r) (whole.ready ready).owned
  refine ends_bind (ends_setResult (ends_bind ((checking _).mono fun refusal t passed => ?_)))
  obtain ⟨rfl, same⟩ := passed
  have here : Whole v t.1 segment kept tail := by
    rw [same]
    exact whole
  refine ends_bind ((ends_writeQuarantine site.toTorn here (here.ready ready)).mono fun failure u written => ?_)
  obtain ⟨rfl, still, stored⟩ := written
  refine ends_bind ((ends_truncate site.toTorn still (still.ready ready).owned stored).mono fun error x ended => ?_)
  obtain ⟨rfl, cut⟩ := ended
  rw [if_neg (by decide)]
  refine ends_bind (ends_bind (ends_reads (ends_pure ?_)))
  rw [cut.cut, decide_eq_true rfl, if_neg (by decide)]
  refine ends_bind (ends_replay ?_)
  have after := site.after x.1 cut
  dsimp only at after ⊢
  by_cases stranded : Replayer.Stranded result
  · rw [if_pos stranded] at after
    rw [if_pos (by simp [after])]
    refine (ends_finish _ _).mono fun r y finished => ⟨finished.2 ▸ cut, ?_⟩
    rw [finished.1]
    exact iff_of_false (by decide) (not_not.2 stranded)
  · rw [if_neg stranded] at after
    rw [if_neg (by rcases after.1 with status | status <;> simp [status, after.2])]
    refine ends_bind (ends_setResult ((ends_finish _ _).mono fun r y finished => ⟨finished.2 ▸ cut, ?_⟩))
    rw [finished.1]
    exact iff_of_true rfl stranded

theorem Site.whole_self (site : Site lib what v result segment kept tail) : Whole v v segment kept tail :=
  ⟨⟨site.wellFormed, rfl, fun _ _ _ => rfl⟩, site.toTorn.whole, id⟩

theorem Site.ends_quarantine (site : Site lib what v result segment kept tail) (ready : Ready v segment kept tail) :
    Ends Fault.Fine (quarantineTornTail lib what directory) (v, {}) fun r t =>
      Cut v t.1 segment kept tail ∧ (r.status = .done ↔ ¬Replayer.Stranded result) := by
  have lockable : (v.journal.kind lockName = .none || v.journal.kind lockName = .regularFile) = true := by
    rcases ready.lockable with kind | kind <;> simp [kind]
  have whole := site.whole_self.create_lock site.looks
  refine ends_rescue (ends_bind (ends_acts lockable ?_))
  rw [if_neg (by decide)]
  refine ends_bind (ends_replay ?_)
  dsimp only
  rw [site.replay_whole whole, if_neg (by simp [site.status]), if_neg (by simp [site.status])]
  exact site.ends_cut ready whole

end Fine

/-- The files after runs of the operation, each with the answers of its calls. A run that ends early was interrupted. -/
def attempts (lib : Libraries) (what directory : Bytes) (v : Volume) (runs : List (List Fault)) : Volume :=
  runs.foldl (fun w answers => (quarantineTornTail lib what directory (w, {}) answers).2.1.1) v

def replayed (lib : Libraries) (what : Bytes) (v : Volume) : ReplayResult :=
  replayJournal lib what unlimited (some v.directory.names) v.directory.read

theorem replayed_eq (lib : Libraries) (what : Bytes) (v : Volume) :
    replayed lib what v = replayJournal lib what unlimited (some v.journal.names) (v.read v.journal) := by
  rw [replayed, v.directory_names, show v.directory.read = v.read v.journal from funext v.directory_read]

structure Preserved (v w : Volume) (segment content : Bytes) (offset : Nat) : Prop where
  others : ∀ name, isSegmentName name = true → name ≠ segment → w.directory.read name = v.directory.read name
  complete : ∃ held, w.directory.read segment = some held ∧ held.take offset = content.take offset
  tail : w.directory.read segment = some content ∨
    w.directory.read segment = some (content.take offset) ∧
      w.directory.read (quarantineName segment offset) = some (content.drop offset)

section Runs

variable {lib : Libraries} {what directory : Bytes} {v w : Volume} {result : ReplayResult} {segment kept tail : Bytes}

theorem Site.attempts (site : Site lib what v result segment kept tail) (held : Safe v segment kept tail w)
    (runs : List (List Fault)) : Safe v segment kept tail (attempts lib what directory w runs) := by
  induction runs generalizing w with
  | nil => exact held
  | cons answers runs ih => exact ih (site.keeps_quarantine (w := (w, {})) held answers).1

theorem Safe.preserved (safe : Safe v segment kept tail w) : Preserved v w segment (kept ++ tail) kept.length := by
  have others (intact : Intact v w segment) (name : Bytes) (like : isSegmentName name = true) (different : name ≠ segment) :
      w.directory.read name = v.directory.read name := by
    rw [w.directory_read, v.directory_read]
    exact intact.others name like different
  rcases safe with whole | cut
  · have read := whole.whole
    rw [← w.directory_read] at read
    exact ⟨others whole.toIntact, ⟨_, read, rfl⟩, .inl read⟩
  · have read := cut.cut
    have stored := cut.quarantined
    rw [← w.directory_read] at read stored
    refine ⟨others cut.toIntact, ⟨_, read, ?_⟩, .inr ⟨?_, ?_⟩⟩
    · rw [List.take_left, List.take_length]
    · rw [List.take_left, read]
    · rw [List.drop_left, stored]

theorem Cut.journalRecords {events : List LogicalJobEvent} (cut : Cut v w segment (records events) tail)
    (torn : Torn v segment (records events) tail) (wellFormed : v.WellFormed) (encodable : Encodable events) (json : JsonLibrary) :
    journalRecords json w.directory = journalRecords json v.directory := by
  have narrower (names : List Bytes) : names.filter (fun name => (segmentFirst name).isSome) =
      (names.filter isSegmentName).filter fun name => (segmentFirst name).isSome := by
    rw [List.filter_filter]
    refine List.filter_congr fun name _ => ?_
    cases first : segmentFirst name with
    | none => rfl
    | some n => simp [isSegmentName_of_first first]
  have distinct (u : Volume) (formed : u.WellFormed) : u.directory.names.Nodup := u.directory_names ▸ formed.distinct
  rw [journalRecords_eq json (distinct w cut.wellFormed), journalRecords_eq json (distinct v wellFormed), w.directory_names,
    v.directory_names, narrower w.journal.names, cut.names, ← narrower]
  refine List.flatMap_congr fun name member => ?_
  have like : isSegmentName name = true := by
    have listed := (List.perm_insertionSort _ _).subset member
    obtain ⟨n, first⟩ := Option.isSome_iff_exists.1 (List.mem_filter.1 listed).2
    exact isSegmentName_of_first first
  rw [w.directory_read, v.directory_read]
  by_cases own : name = segment
  · rw [own, cut.cut, torn.whole, Option.getD_some, Option.getD_some, recordsIn_records json encodable,
      recordsIn_torn json encodable torn.nonempty torn.unfinished]
  · rw [cut.others name like own]

end Runs

/-- No run loses a byte, and a run after interrupted ones starts as the first one did. Without a fault the tail is cut and
every complete record is found again, unless the Journal has no complete record and does not start at 1. -/
theorem quarantineTornTail_exact {lib : Libraries} {what directory : Bytes} {v : Volume} {result : ReplayResult}
    (wellFormed : v.WellFormed) (found : replayed lib what v = result) (torn : result.status = .tornTail) :
    ∃ content, v.directory.read result.tornSegment = some content ∧ result.tornOffset < content.length ∧
      (∀ runs, Preserved v (attempts lib what directory v runs) result.tornSegment content result.tornOffset) ∧
      (∀ runs, let w := attempts lib what directory v runs
        w.directory.read result.tornSegment = some content → w.WellFormed ∧ replayed lib what w = result ∧
          (Ready v result.tornSegment (content.take result.tornOffset) (content.drop result.tornOffset) →
            Ready w result.tornSegment (content.take result.tornOffset) (content.drop result.tornOffset))) ∧
      (Ready v result.tornSegment (content.take result.tornOffset) (content.drop result.tornOffset) →
        Ends Fault.Fine (quarantineTornTail lib what directory) (v, {}) fun r t =>
          (r.status = .done ∧
            ((replayed lib what t.1).status = .replayed ∨ (replayed lib what t.1).status = .sequenceExhausted) ∧
            (replayed lib what t.1).records = result.records ∧
            journalRecords lib.json t.1.directory = journalRecords lib.json v.directory) ↔ ¬Replayer.Stranded result) := by
  rw [replayed_eq] at found
  obtain ⟨events, tail, encodable, site⟩ := Site.of_torn wellFormed found torn
  have kept : (records events ++ tail).take result.tornOffset = records events := by rw [site.offset, List.take_left]
  have cut : (records events ++ tail).drop result.tornOffset = tail := by rw [site.offset, List.drop_left]
  have safe (runs : List (List Fault)) : Safe v result.tornSegment (records events) tail (attempts lib what directory v runs) :=
    site.attempts (.inl site.whole_self) runs
  refine ⟨records events ++ tail, by rw [v.directory_read]; exact site.toTorn.whole, ?_, fun runs => ?_, fun runs => ?_, ?_⟩
  · have := List.length_pos_iff.2 site.nonempty
    rw [site.offset, List.length_append]
    omega
  · rw [site.offset]
    exact (safe runs).preserved
  · intro w uncut
    rw [w.directory_read] at uncut
    rcases safe runs with whole | after
    · refine ⟨whole.wellFormed, by rw [replayed_eq, site.replay_whole whole], ?_⟩
      rw [kept, cut]
      exact whole.ready
    · have same := Option.some.inj (after.cut.symm.trans uncut)
      exact absurd (List.self_eq_append_right.1 same) site.nonempty
  · rw [kept, cut]
    intro ready
    refine (site.ends_quarantine ready).mono fun r t ended => ?_
    obtain ⟨after, status⟩ := ended
    have replays := site.after t.1 after
    rw [← replayed_eq] at replays
    rw [status]
    constructor
    · exact fun all => all.1
    · intro safe
      dsimp only at replays
      rw [if_neg safe] at replays
      exact ⟨safe, replays.1, replays.2, after.journalRecords site.toTorn wellFormed encodable lib.json⟩

def tornVolume (first : UInt64) : Volume where
  journal := { files := [⟨segmentName first, 0, false⟩] }
  content := fun _ => text "\x7b"
  fresh := 1

theorem tornVolume_wellFormed (first : UInt64) : (tornVolume first).WellFormed := by
  refine ⟨List.nodup_singleton _, ?_, fun _ _ => rfl⟩
  simp [tornVolume, Volume.archived]

theorem tornVolume_ready (first : UInt64) (named : segmentName first ≠ lockName)
    (other : quarantineName (segmentName first) 0 ≠ segmentName first) :
    Ready (tornVolume first) (segmentName first) [] (text "\x7b") := by
  have absent (name : Bytes) (different : segmentName first ≠ name) : (tornVolume first).journal.kind name = .none := by
    simp [Place.kind, Place.find, tornVolume, different]
  refine ⟨.inl (absent _ named), ⟨⟨segmentName first, 0, false⟩, ?_, rfl, ?_⟩, .inl (absent _ other.symm)⟩
  · simp [Place.find, tornVolume]
  · simp [Volume.links, Volume.archived, tornVolume]

theorem quarantineTornTail_exact_first :
    (replayed sampleLibraries [] (tornVolume 1)).status = .tornTail ∧
      Ends Fault.Fine (quarantineTornTail sampleLibraries [] []) (tornVolume 1, {}) fun r t =>
        r.status = .done ∧ (replayed sampleLibraries [] t.1).records = 0 := by
  have torn : (replayed sampleLibraries [] (tornVolume 1)).status = .tornTail ∧
      (replayed sampleLibraries [] (tornVolume 1)).tornSegment = segmentName 1 ∧
      (replayed sampleLibraries [] (tornVolume 1)).tornOffset = 0 ∧
      (replayed sampleLibraries [] (tornVolume 1)).records = 0 := by decide +kernel
  obtain ⟨status, at_, offset, none⟩ := torn
  obtain ⟨content, read, -, -, -, fine⟩ :=
    @quarantineTornTail_exact sampleLibraries [] [] (tornVolume 1) _ (tornVolume_wellFormed 1) rfl status
  rw [at_, show (tornVolume 1).directory.read (segmentName 1) = some (text "\x7b") by decide +kernel] at read
  obtain rfl := Option.some.inj read
  rw [at_, offset] at fine
  refine ⟨status, (fine (tornVolume_ready 1 (by decide +kernel) (by decide +kernel))).mono fun r t exact_ => ?_⟩
  obtain ⟨done, -, same, -⟩ := exact_.2 fun stranded => stranded.2.2 at_
  exact ⟨done, same.trans none⟩

/-- Without a complete record and not from 1 on, the cut is made and then reported as a failure, and the next run finds the
Journal corrupt. -/
theorem quarantineTornTail_stranded :
    let v := tornVolume 5
    let first := quarantineTornTail sampleLibraries [] [] (v, {}) (List.replicate 16 {})
    let second := quarantineTornTail sampleLibraries [] [] (first.2.1.1, {}) (List.replicate 16 {})
    v.WellFormed ∧ Ready v (segmentName 5) [] (text "\x7b") ∧
      (replayed sampleLibraries [] v).status = .tornTail ∧
      (first.1 = .returned first.2.1.2 ∧ first.2.1.2.status = .failed ∧
        first.2.1.1.directory.read (segmentName 5) = some []) ∧
      (replayed sampleLibraries [] first.2.1.1).status = .corrupt ∧
      second.1 = .returned second.2.1.2 ∧ second.2.1.2.status = .refused :=
  ⟨tornVolume_wellFormed 5, tornVolume_ready 5 (by decide +kernel) (by decide +kernel), by decide +kernel⟩

end Quarantine

end Sitometron.Journal
