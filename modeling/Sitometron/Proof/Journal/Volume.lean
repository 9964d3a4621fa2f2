import Sitometron.Proof.Journal.Tail

/-!
# The file system of the maintenance operations

What a name reads as after a change, and one rule for each call: with any faults, and without a fault.
-/

namespace Sitometron.Journal

open Core Script

structure Volume.WellFormed (v : Volume) : Prop where
  distinct : v.journal.names.Nodup
  old : ∀ link ∈ v.journal.files ++ v.archived.files, link.file < v.fresh
  alone : ∀ file, v.fresh ≤ file → v.elsewhere file = 0

namespace Place

variable {place : Place} {name : Bytes} {link : Link}

theorem mem_of_find (found : place.find name = some link) : link ∈ place.files ∧ link.name = name :=
  ⟨List.mem_of_find?_eq_some found, by simpa using List.find?_some found⟩

theorem find_eq_none : place.find name = none ↔ name ∉ place.names := by
  simp [find, names]

theorem find_of_mem (distinct : place.names.Nodup) (member : link ∈ place.files) : place.find link.name = some link := by
  obtain ⟨found, read⟩ : ∃ found, place.find link.name = some found :=
    Option.isSome_iff_exists.1 (List.find?_isSome.2 ⟨link, member, by simp⟩)
  obtain ⟨inside, same⟩ := mem_of_find read
  rw [read, List.inj_on_of_nodup_map distinct inside member same]

theorem kind_regular (found : place.find name = some link) (plain : link.symbolic = false) : place.kind name = .regularFile := by
  rw [kind, found]
  simp [plain]

theorem absent_of_kind (absent : place.kind name = .none) : name ∉ place.names := by
  rw [← find_eq_none]
  by_contra present
  obtain ⟨link, found⟩ := Option.ne_none_iff_exists'.1 present
  rw [kind, found] at absent
  dsimp only at absent
  split at absent <;> cases absent

end Place

namespace Volume

variable {v : Volume} {name other : Bytes} {file : Nat} {bytes : Bytes}

theorem directory_names (v : Volume) : v.directory.names = v.journal.names := by
  simp [directory, Directory.names, Place.names, Function.comp_def]

theorem directory_read (v : Volume) (name : Bytes) : v.directory.read name = v.read v.journal name := by
  simp [directory, Directory.read, read, Place.find, List.find?_map, Function.comp_def]

@[simp] theorem setContent_journal (v : Volume) (file : Nat) (bytes : Bytes) : (v.setContent file bytes).journal = v.journal := rfl

@[simp] theorem setContent_archive (v : Volume) (file : Nat) (bytes : Bytes) : (v.setContent file bytes).archive = v.archive := rfl

@[simp] theorem setContent_elsewhere (v : Volume) (file : Nat) (bytes : Bytes) :
    (v.setContent file bytes).elsewhere = v.elsewhere := rfl

@[simp] theorem setContent_links (v : Volume) (file : Nat) (bytes : Bytes) (counted : Nat) :
    (v.setContent file bytes).links counted = v.links counted := rfl

theorem WellFormed.setContent (wellFormed : v.WellFormed) (file : Nat) (bytes : Bytes) : (v.setContent file bytes).WellFormed :=
  ⟨wellFormed.distinct, wellFormed.old, wellFormed.alone⟩

theorem read_setContent (v : Volume) (place : Place) (file : Nat) (bytes : Bytes) (name : Bytes) :
    (v.setContent file bytes).read place name =
      (place.find name).map fun link => if link.file = file then bytes else v.content link.file := rfl

theorem read_setContent_of_ne {place : Place} (apart : ∀ link, place.find name = some link → link.file ≠ file) :
    (v.setContent file bytes).read place name = v.read place name := by
  rw [read_setContent, read]
  cases found : place.find name with
  | none => rfl
  | some link => simp [apart link found]

theorem setContent_same (v : Volume) (file : Nat) : v.setContent file (v.content file) = v := by
  have same : (fun other => if other = file then v.content file else v.content other) = v.content := by
    funext other
    split <;> simp_all
  unfold setContent
  rw [same]

theorem setContent_again (v : Volume) (file : Nat) (first second : Bytes) :
    (v.setContent file first).setContent file second = v.setContent file second := by
  unfold setContent
  congr 1
  funext other
  split <;> simp_all

theorem two_links {first second : Link} (found : v.journal.find name = some first)
    (also : v.journal.find other = some second) (different : name ≠ other) (plain : first.symbolic = false)
    (plainToo : second.symbolic = false) (same : first.file = second.file) : 2 ≤ v.links first.file := by
  obtain ⟨member, named⟩ := Place.mem_of_find found
  obtain ⟨memberToo, namedToo⟩ := Place.mem_of_find also
  have links : [first, second].Subperm (v.journal.files.filter fun link => link.file = first.file && !link.symbolic) := by
    refine (List.nodup_cons.2 ⟨?_, List.nodup_singleton _⟩).subperm ?_
    · intro equal
      rw [List.mem_singleton.1 equal] at named
      exact different (named.symm.trans namedToo)
    · intro link listed
      rcases List.mem_cons.1 listed with rfl | last
      · simp [member, plain]
      · rw [List.mem_singleton.1 last]
        simp [memberToo, plainToo, same]
  rw [Volume.links, List.filter_append, List.length_append]
  have := links.length_le
  simp only [List.length_cons, List.length_nil] at this
  omega

theorem create_of_present (present : v.journal.kind name ≠ .none) : v.create name = v := if_pos present

theorem create_of_absent (absent : v.journal.kind name = .none) :
    v.create name = { v.setContent v.fresh [] with
      journal := { v.journal with files := v.journal.files ++ [⟨name, v.fresh, false⟩] }
      fresh := v.fresh + 1 } := if_neg (not_not.2 absent)

theorem WellFormed.create (wellFormed : v.WellFormed) (name : Bytes) : (v.create name).WellFormed := by
  by_cases absent : v.journal.kind name = .none
  · rw [create_of_absent absent]
    refine ⟨?_, ?_, ?_⟩
    · have new := Place.absent_of_kind absent
      simp only [Place.names, List.map_append, List.map_cons, List.map_nil]
      exact List.nodup_append.2 ⟨wellFormed.distinct, List.nodup_singleton _, by
        rintro a inside b last rfl
        exact new (List.mem_singleton.1 last ▸ inside)⟩
    · intro link member
      have bound := wellFormed.old link
      simp only [List.mem_append, List.mem_singleton, archived, setContent] at member bound ⊢
      rcases member with (old | rfl) | moved
      · exact Nat.lt_succ_of_lt (bound (.inl old))
      · exact Nat.lt_succ_self _
      · exact Nat.lt_succ_of_lt (bound (.inr moved))
    · exact fun file beyond => wellFormed.alone file (Nat.le_of_succ_le beyond)
  · rwa [create_of_present absent]

theorem find_create_of_ne (v : Volume) (different : other ≠ name) : (v.create name).journal.find other = v.journal.find other := by
  by_cases absent : v.journal.kind name = .none
  · rw [create_of_absent absent]
    simp [Place.find, List.find?_append, Ne.symm different]
  · rw [create_of_present absent]

theorem kind_create_of_ne (v : Volume) (different : other ≠ name) : (v.create name).journal.kind other = v.journal.kind other := by
  have others : (v.create name).journal.others = v.journal.others := by
    unfold create
    split <;> rfl
  rw [Place.kind, Place.kind, find_create_of_ne v different, others]

theorem WellFormed.read_create (wellFormed : v.WellFormed) (different : other ≠ name) :
    (v.create name).read (v.create name).journal other = v.read v.journal other := by
  rw [read, read, find_create_of_ne v different]
  cases found : v.journal.find other with
  | none => rfl
  | some link =>
      have old := wellFormed.old link (List.mem_append_left _ (Place.mem_of_find found).1)
      refine congrArg some ?_
      show (v.create name).content link.file = v.content link.file
      unfold Volume.create
      split
      · rfl
      · exact if_neg (Nat.ne_of_lt old)

theorem WellFormed.links_create (wellFormed : v.WellFormed) {link : Link} (found : v.journal.find other = some link) (name : Bytes) :
    (v.create name).links link.file = v.links link.file := by
  have old := wellFormed.old link (List.mem_append_left _ (Place.mem_of_find found).1)
  unfold Volume.create
  split
  · rfl
  · simp [links, archived, Nat.ne_of_gt old, List.filter_append]

theorem find_create (v : Volume) (absent : v.journal.kind name = .none) :
    (v.create name).journal.find name = some ⟨name, v.fresh, false⟩ := by
  have new : v.journal.find name = none := Place.find_eq_none.2 (Place.absent_of_kind absent)
  rw [create_of_absent absent]
  simp only [Place.find, List.find?_append] at new ⊢
  rw [new]
  simp

theorem WellFormed.links_fresh (wellFormed : v.WellFormed) (absent : v.journal.kind name = .none) :
    (v.create name).links v.fresh = 1 := by
  have older : (v.journal.files ++ v.archived.files).filter (fun link => link.file = v.fresh && !link.symbolic) = [] := by
    rw [List.filter_eq_nil_iff]
    intro link member
    have := wellFormed.old link member
    simp [Nat.ne_of_lt this]
  rw [List.filter_append, List.append_eq_nil_iff] at older
  have elsewhere := wellFormed.alone v.fresh (Nat.le_refl _)
  rw [create_of_absent absent]
  simp only [links, archived, setContent_archive, setContent_elsewhere, List.filter_append, older.1, elsewhere]
  rw [show (v.archive.getD {}).files.filter _ = [] from older.2]
  simp

theorem names_create_filter (v : Volume) {p : Bytes → Bool} (ignored : p name = false) :
    (v.create name).journal.names.filter p = v.journal.names.filter p := by
  unfold create
  split
  · rfl
  · simp [Place.names, List.filter_append, ignored]

end Volume

theorem lockName_not_segment : Maintenance.isSegmentName lockName = false := by decide

theorem ne_lockName {name : Bytes} (looks : Maintenance.isSegmentName name = true) : name ≠ lockName := by
  rintro rfl
  rw [lockName_not_segment] at looks
  cases looks

def Fault.Fine (fault : Fault) : Prop :=
  fault.error = .none ∧ fault.throws = false ∧ fault.unreadable = [] ∧ fault.written ≠ some 0

namespace Maintenance

variable {ρ α β : Type} {w : Volume × ρ} {inv : Volume × ρ → Prop}

section Equations

variable (w : Volume × ρ) (fault : Fault) (rest : List Fault)

theorem reads_answered (f : Volume → Option α) : reads f w (fault :: rest) =
    if fault.throws then (.thrown, w, rest) else (.returned (if fault.error = .none then f w.1 else none), w, rest) := by
  have asked : reads f w (fault :: rest) = (if fault.throws then Script.throw
      else pure (if fault.error = .none then f w.1 else none) : Maintenance ρ (Option α)) w rest := rfl
  rw [asked]
  split <;> rfl

def afterAct (able : Volume → Bool) (effect : Volume → Volume) (w : Volume × ρ) (fault : Fault) : Volume × ρ :=
  if able w.1 && (fault.done || (fault.error = .none && !fault.throws)) then (effect w.1, w.2) else w

theorem acts_answered (able : Volume → Bool) (effect : Volume → Volume) : acts able effect w (fault :: rest) =
    (if fault.throws then .thrown
      else .returned (if fault.error ≠ .none then fault.error else if able w.1 then .none else .other),
      afterAct able effect w fault, rest) := by
  have asked : acts able effect w (fault :: rest) = (if fault.throws then Script.throw
      else pure (if fault.error ≠ .none then fault.error else if able w.1 then .none else .other) :
        Maintenance ρ IoError) (afterAct able effect w fault) rest := by
    by_cases happens : (able w.1 && (fault.done || (fault.error = .none && !fault.throws))) = true
    · rw [afterAct, if_pos happens]
      simp only [acts, Bind.bind, ask, volume, Script.get, pure, happens]
      rfl
    · rw [afterAct, if_neg happens]
      simp only [acts, Bind.bind, ask, volume, Script.get, pure, happens]
      rfl
  rw [asked]
  split <;> rfl

theorem status_answered : status w (fault :: rest) = (.returned fault.error, w, rest) := rfl

theorem write_answered (file : Nat) (bytes : Bytes) : write file bytes w (fault :: rest) =
    (.returned ⟨min (fault.written.getD bytes.length) bytes.length, fault.error⟩,
      (w.1.setContent file (w.1.content file ++ bytes.take (min (fault.written.getD bytes.length) bytes.length)), w.2), rest) := rfl

theorem replayAll_answered (lib : Libraries) (what : Bytes) (names : Volume → List Bytes) (read : Volume → Bytes → Option Bytes) :
    replayAll lib what names read w (fault :: rest) =
      (.returned (if fault.throws then ({} : Replayer).refuse .unreadable (text "journal_unreadable: " ++ what)
        else replayJournal lib what unlimited (if fault.error = .none then some (names w.1) else none)
          fun name => if name ∈ fault.unreadable then none else read w.1 name), w, rest) := rfl

end Equations

theorem keeps_reads {f : Volume → Option α} {post : Option α → Volume × ρ → Prop} (held : inv w) (failed : post none w)
    (found : post (f w.1) w) : Keeps inv (reads f) w post := by
  intro answers
  cases answers with
  | nil => exact ⟨held, nofun⟩
  | cons fault rest =>
      rw [reads_answered]
      split
      · exact ⟨held, nofun⟩
      · refine ⟨held, ?_⟩
        rintro _ ⟨⟩
        dsimp only
        split
        · exact found
        · exact failed

theorem keeps_reads_any {f : Volume → Option α} {post : Option α → Volume × ρ → Prop} (held : inv w) (holds : ∀ r, post r w) :
    Keeps inv (reads f) w post := keeps_reads held (holds none) (holds _)

theorem keeps_acts {able : Volume → Bool} {effect : Volume → Volume} {post : IoError → Volume × ρ → Prop} (held : inv w)
    (failed : ∀ error, error ≠ .none → post error w)
    (acted : able w.1 = true → inv (effect w.1, w.2) ∧ ∀ error, post error (effect w.1, w.2)) :
    Keeps inv (acts able effect) w post := by
  intro answers
  cases answers with
  | nil => exact ⟨held, nofun⟩
  | cons fault rest =>
      rw [acts_answered, afterAct]
      by_cases happens : (able w.1 && (fault.done || (fault.error = .none && !fault.throws))) = true
      · rw [if_pos happens]
        have possible := (Bool.and_eq_true_iff.1 happens).1
        exact ⟨(acted possible).1, fun error _ => (acted possible).2 error⟩
      · rw [if_neg happens]
        refine ⟨held, fun error returned => failed error ?_⟩
        dsimp only at returned
        split at returned
        next => cases returned
        next returns =>
          cases returned
          split
          next different => exact different
          next none =>
            have unable : ¬able w.1 = true := fun possible => happens (by simp [possible, not_not.1 none, returns])
            rw [if_neg unable]
            decide

theorem keeps_status {post : IoError → Volume × ρ → Prop} (held : inv w) (holds : ∀ error, post error w) :
    Keeps inv status w post :=
  keeps_bind (keeps_ask held fun fault => keeps_pure held (holds fault.error))

theorem keeps_setResult {f : ρ → ρ} {post : Unit → Volume × ρ → Prop} (held : inv (w.1, f w.2)) (holds : post () (w.1, f w.2)) :
    Keeps inv (setResult f) w post := keeps_modify held holds

theorem keeps_result {post : ρ → Volume × ρ → Prop} (held : inv w) (holds : post w.2 w) : Keeps inv result w post :=
  keeps_bind (keeps_get held (keeps_pure held holds))

theorem keeps_volume {post : Volume → Volume × ρ → Prop} (held : inv w) (holds : post w.1 w) : Keeps inv volume w post :=
  keeps_bind (keeps_get held (keeps_pure held holds))

theorem keeps_replay {lib : Libraries} {what : Bytes} {names : Volume → List Bytes} {read : Volume → Bytes → Option Bytes}
    {post : ReplayResult → Volume × ρ → Prop} (held : inv w) (failed : ∀ r, r.status = .unreadable → post r w)
    (found : post (replayJournal lib what unlimited (some (names w.1)) (read w.1)) w) :
    Keeps inv (replayAll lib what names read) w post := by
  intro answers
  cases answers with
  | nil => exact ⟨held, nofun⟩
  | cons fault rest =>
      rw [replayAll_answered]
      refine ⟨held, ?_⟩
      rintro _ ⟨⟩
      dsimp only
      split
      next => exact failed _ rfl
      next =>
      split
      next =>
        have fewer (name : Bytes) : (if name ∈ fault.unreadable then none else read w.1 name) = none ∨
            (if name ∈ fault.unreadable then none else read w.1 name) = read w.1 name := by
          split
          · exact .inl rfl
          · exact .inr rfl
        rcases replayJournal_unreadable fewer with unreadable | same
        · exact failed _ unreadable
        · rw [same]
          exact found
      next => exact failed _ rfl

theorem keeps_replay_any {lib : Libraries} {what : Bytes} {names : Volume → List Bytes} {read : Volume → Bytes → Option Bytes}
    {post : ReplayResult → Volume × ρ → Prop} (held : inv w) (holds : ∀ r, post r w) :
    Keeps inv (replayAll lib what names read) w post := keeps_replay held (fun r _ => holds r) (holds _)

section Fine

theorem ends_reads {f : Volume → Option α} {post : Option α → Volume × ρ → Prop} (found : post (f w.1) w) :
    Ends Fault.Fine (reads f) w post := by
  refine ends_of_answer (fun fault others fine => ?_) found
  rw [reads_answered, fine.2.1, fine.1]
  rfl

theorem ends_acts {able : Volume → Bool} {effect : Volume → Volume} {post : IoError → Volume × ρ → Prop} (possible : able w.1 = true)
    (acted : post .none (effect w.1, w.2)) : Ends Fault.Fine (acts able effect) w post := by
  refine ends_of_answer (fun fault others fine => ?_) acted
  rw [acts_answered, afterAct, possible, fine.2.1, fine.1]
  simp

theorem ends_status {post : IoError → Volume × ρ → Prop} (holds : post .none w) : Ends Fault.Fine status w post := by
  refine ends_of_answer (fun fault others fine => ?_) holds
  rw [status_answered, fine.1]

theorem ends_replay {lib : Libraries} {what : Bytes} {names : Volume → List Bytes} {read : Volume → Bytes → Option Bytes}
    {post : ReplayResult → Volume × ρ → Prop}
    (found : post (replayJournal lib what unlimited (some (names w.1)) (read w.1)) w) :
    Ends Fault.Fine (replayAll lib what names read) w post := by
  refine ends_of_answer (fun fault others fine => ?_) found
  rw [replayAll_answered, fine.2.1, fine.1, fine.2.2.1]
  simp

theorem ends_setResult {f : ρ → ρ} {post : Unit → Volume × ρ → Prop} (holds : post () (w.1, f w.2)) :
    Ends Fault.Fine (setResult f) w post := ends_modify holds

theorem ends_result {post : ρ → Volume × ρ → Prop} (holds : post w.2 w) : Ends Fault.Fine result w post :=
  ends_bind (ends_get (ends_pure holds))

theorem ends_volume {post : Volume → Volume × ρ → Prop} (holds : post w.1 w) : Ends Fault.Fine volume w post :=
  ends_bind (ends_get (ends_pure holds))

end Fine

end Maintenance

end Sitometron.Journal
