import Sitometron.Proof.Http.SizeLine

/-!
# The scanner and the feed loop

Over every chunked body, in whatever pieces it comes: the scanner raises its flag at the first size line that does not fit in
64 bits, and the parser is never offered a byte of that line.
-/

namespace Sitometron.Http

open Grammar Search

namespace ChunkScanner

variable {s : ChunkScanner} {a b : Bytes}

theorem feed_append (s : ChunkScanner) (a b : Bytes) : s.feed (a ++ b) = (s.feed a).feed b := List.foldl_append

theorem feed_singleton (s : ChunkScanner) (c : UInt8) : s.feed [c] = feedByte s c := rfl

theorem feed_overflow (flagged : s.overflow = true) (a : Bytes) : s.feed a = s := by
  induction a with
  | nil => rfl
  | cons c a ih =>
      rw [feed, List.foldl_cons, feedByte, if_pos (by simp [flagged])]
      exact ih

theorem feed_inline {p l : Bytes} (inline : Inline l) : feed { line := p } l = { line := p ++ l } := by
  induction l generalizing p with
  | nil => simp [feed]
  | cons c l ih =>
      obtain ⟨cr, lf⟩ := inline c List.mem_cons_self
      have step : feedByte { line := p } c = { line := p ++ [c] } := by
        rw [feedByte]
        simp only [Bool.or_self, Bool.false_eq_true, if_false]
        rw [if_neg (by exact cr), if_neg (by exact lf)]
      rw [feed, List.foldl_cons, step, ← feed, ih fun d member => inline d (List.mem_cons_of_mem c member), List.append_assoc]
      rfl

theorem feed_lf (l : Bytes) : feed { line := l ++ [0x0D], sizeCrSeen := true } [0x0A] =
    match parseSizeLine l with
    | none => { line := l ++ crlf, stopped := true }
    | some parsed =>
        if parsed.overflow then { overflow := true }
        else { remaining := parsed.value, state := if parsed.value = 0 then .trailer else .data } := by
  have cut : (l ++ [0x0D] ++ [0x0A]).take ((l ++ [0x0D] ++ [0x0A]).length - 2) = l := by simp
  rw [feed, List.foldl_cons, List.foldl_nil, feedByte]
  simp only [Bool.or_self, Bool.false_eq_true, if_false, if_true]
  rw [if_neg (by decide), cut]
  cases parseSizeLine l with
  | none => simp [crlf]
  | some parsed => rfl

theorem feed_crlf {l : Bytes} (inline : Inline l) : feed {} (l ++ crlf) = feed { line := l ++ [0x0D], sizeCrSeen := true } [0x0A] := by
  have line := feed_inline (p := []) inline
  rw [List.nil_append] at line
  rw [feed_append, line]
  rfl

theorem feed_data {data : Bytes} {r : UInt64} (length : data.length = r.toNat) (positive : 0 < r.toNat) :
    feed { state := .data, remaining := r } data = { state := .dataCrlf } := by
  induction data generalizing r with
  | nil =>
      rw [List.length_nil] at length
      omega
  | cons c data ih =>
      rw [List.length_cons] at length
      have less : (r - 1).toNat = r.toNat - 1 := by
        rw [UInt64.toNat_sub_of_le]
        · rfl
        · rw [UInt64.le_iff_toNat_le]
          exact positive
      rw [feed, List.foldl_cons, ← feed, feedByte]
      simp only [Bool.or_self, Bool.false_eq_true, if_false]
      by_cases last : r - 1 = 0
      · have none : data = [] := by
          rw [last] at less
          change 0 = _ at less
          exact List.length_eq_zero_iff.1 (by omega)
        rw [if_pos last, none, last]
        rfl
      · have more : 0 < (r - 1).toNat := Nat.pos_of_ne_zero fun zero => last (UInt64.toNat.inj zero)
        rw [if_neg last]
        exact ih (by omega) more

theorem feed_chunk {c : Bytes} (chunk : Chunk c) : feed {} c = {} ∨ (feed {} c).overflow = true := by
  obtain ⟨line, n, data, sized, positive, length, rfl⟩ := chunk
  obtain ⟨r, parsed, reads⟩ := parseSizeLine_complete sized
  rw [List.append_assoc, feed_append, feed_crlf sized.inline, feed_lf, parsed]
  dsimp only
  by_cases flagged : r.overflow = true
  · right
    rw [if_pos flagged, feed_overflow rfl]
  · left
    have value := reads.value (Nat.not_le.1 fun large => flagged (reads.overflow.2 large))
    have nonzero : r.value ≠ 0 := by
      intro zero
      rw [zero] at value
      change 0 = n at value
      omega
    rw [if_neg flagged, if_neg nonzero, feed_append, feed_data (by omega) (by omega)]
    rfl

theorem feed_chunks {chunks : List Bytes} (each : ∀ c ∈ chunks, Chunk c) :
    feed {} chunks.flatten = {} ∨ (feed {} chunks.flatten).overflow = true := by
  induction chunks with
  | nil => exact .inl rfl
  | cons c chunks ih =>
      rw [List.flatten_cons, feed_append]
      rcases feed_chunk (each c List.mem_cons_self) with fresh | flagged
      · rw [fresh]
        exact ih fun d member => each d (List.mem_cons_of_mem c member)
      · rw [feed_overflow flagged]
        exact .inr flagged

def Oversized (stream : Bytes) (start : Nat) : Prop :=
  ∃ (chunks : List Bytes) (line : Bytes) (n : Nat) (rest : Bytes), (∀ c ∈ chunks, Chunk c) ∧ SizeLine line n ∧ 2 ^ 64 ≤ n ∧
    stream = chunks.flatten ++ (line ++ crlf ++ rest) ∧ start = chunks.flatten.length

theorem Oversized.append {stream : Bytes} {start : Nat} (oversized : Oversized stream start) (more : Bytes) :
    Oversized (stream ++ more) start := by
  obtain ⟨chunks, line, n, rest, each, sized, large, rfl, rfl⟩ := oversized
  exact ⟨chunks, line, n, rest ++ more, each, sized, large, by simp, rfl⟩

theorem Oversized.flagged {stream : Bytes} {start : Nat} (oversized : Oversized stream start) :
    (feed {} stream).overflow = true := by
  obtain ⟨chunks, line, n, rest, each, sized, large, rfl, -⟩ := oversized
  obtain ⟨r, parsed, reads⟩ := parseSizeLine_complete sized
  rw [feed_append]
  rcases feed_chunks each with fresh | flagged
  · rw [fresh, feed_append, feed_crlf sized.inline, feed_lf, parsed]
    dsimp only
    rw [if_pos (reads.overflow.2 large), feed_overflow rfl]
  · rw [feed_overflow flagged]
    exact flagged

inductive Scanned : Bytes → ChunkScanner → Prop where
  | flagged {fed : Bytes} {s : ChunkScanner} {start : Nat} : s.overflow = true → Oversized fed start → Scanned fed s
  | stopped {fed : Bytes} {s : ChunkScanner} : s.overflow = false → s.stopped = true → Scanned fed s
  | size {chunks : List Bytes} (l : Bytes) : (∀ c ∈ chunks, Chunk c) → Scanned (chunks.flatten ++ l) { line := l }
  | sizeCr {chunks : List Bytes} (l : Bytes) : (∀ c ∈ chunks, Chunk c) →
      Scanned (chunks.flatten ++ (l ++ [0x0D])) { line := l ++ [0x0D], sizeCrSeen := true }
  | data {chunks : List Bytes} {line data : Bytes} {r : UInt64} : (∀ c ∈ chunks, Chunk c) → SizeLine line (data.length + r.toNat) →
      0 < r.toNat → Scanned (chunks.flatten ++ (line ++ crlf ++ data)) { state := .data, remaining := r }
  | dataEnd {chunks : List Bytes} {line data : Bytes} : (∀ c ∈ chunks, Chunk c) → SizeLine line data.length → 0 < data.length →
      Scanned (chunks.flatten ++ (line ++ crlf ++ data)) { state := .dataCrlf }
  | dataCr {chunks : List Bytes} {line data : Bytes} : (∀ c ∈ chunks, Chunk c) → SizeLine line data.length → 0 < data.length →
      Scanned (chunks.flatten ++ (line ++ crlf ++ data ++ [0x0D])) { state := .dataCrlf, dataCrSeen := true }
  | trailer {fed : Bytes} : Scanned fed { state := .trailer }

theorem Scanned.step {fed : Bytes} (scanned : Scanned fed s) (b : UInt8) : Scanned (fed ++ [b]) (feedByte s b) := by
  cases scanned with
  | flagged flagged oversized =>
      rw [feedByte, if_pos (by simp [flagged])]
      exact .flagged flagged (oversized.append [b])
  | stopped fits stopped =>
      rw [feedByte, if_pos (by simp [stopped])]
      exact .stopped fits stopped
  | @size chunks l each =>
      rw [List.append_assoc]
      by_cases cr : b = 0x0D
      · subst cr
        exact .sizeCr l each
      · by_cases lf : b = 0x0A
        · subst lf
          exact .stopped rfl rfl
        · have plain := feed_inline (p := l) (l := [b]) (by simp [Inline, cr, lf])
          rw [feed_singleton] at plain
          rw [plain]
          exact .size _ each
  | @sizeCr chunks l each =>
      by_cases lf : b = 0x0A
      · subst lf
        have ends := feed_lf l
        rw [feed_singleton] at ends
        rw [ends]
        cases parsed : parseSizeLine l with
        | none => exact .stopped rfl rfl
        | some r =>
            dsimp only
            obtain ⟨n, sized, reads⟩ := parseSizeLine_sound parsed
            split
            next flagged => exact .flagged rfl ⟨chunks, l, n, [], each, sized, reads.overflow.1 flagged, by simp [crlf], rfl⟩
            next fits =>
              have value := reads.value (Nat.not_le.1 fun large => fits (reads.overflow.2 large))
              split
              next zero =>
                rw [zero]
                exact .trailer
              next nonzero =>
                have positive : 0 < r.value.toNat := Nat.pos_of_ne_zero fun zero => nonzero (UInt64.toNat.inj zero)
                have starts := @Scanned.data chunks l [] r.value each (by simpa [value] using sized) positive
                simpa [crlf] using starts
      · rw [feedByte]
        simp only [Bool.or_self, Bool.false_eq_true, if_false, if_true]
        rw [if_pos (by exact lf)]
        exact .stopped rfl rfl
  | @data chunks line data r each sized positive =>
      have less : (r - 1).toNat = r.toNat - 1 := by
        rw [UInt64.toNat_sub_of_le]
        · rfl
        · rw [UInt64.le_iff_toNat_le]
          exact positive
      rw [List.append_assoc, List.append_assoc, feedByte]
      simp only [Bool.or_self, Bool.false_eq_true, if_false]
      split
      next last =>
        rw [last] at less ⊢
        change 0 = _ at less
        refine .dataEnd each ?_ (by simp)
        rw [List.length_append, List.length_singleton]
        rwa [show r.toNat = 1 by omega] at sized
      next more =>
        have positive' : 0 < (r - 1).toNat := Nat.pos_of_ne_zero fun zero => more (UInt64.toNat.inj zero)
        refine .data each ?_ positive'
        rw [List.length_append, List.length_singleton, less]
        rwa [show data.length + 1 + (r.toNat - 1) = data.length + r.toNat by omega]
  | @dataEnd chunks line data each sized positive =>
      rw [List.append_assoc]
      by_cases cr : b = 0x0D
      · subst cr
        exact .dataCr each sized positive
      · rw [feedByte]
        simp only [Bool.or_self, Bool.false_eq_true, if_false]
        rw [if_neg (by exact cr)]
        exact .stopped rfl rfl
  | @dataCr chunks line data each sized positive =>
      by_cases lf : b = 0x0A
      · subst lf
        have whole : Chunk (line ++ crlf ++ data ++ [0x0D] ++ [0x0A]) := ⟨line, _, data, sized, positive, rfl, by simp [crlf]⟩
        have next := @Scanned.size (chunks ++ [line ++ crlf ++ data ++ [0x0D] ++ [0x0A]]) [] (by
          intro c member
          rcases List.mem_append.1 member with inside | inside
          · exact each c inside
          · rw [List.mem_singleton.1 inside]
            exact whole)
        have done : feedByte { state := .dataCrlf, dataCrSeen := true } 0x0A = {} := rfl
        rw [List.append_assoc, done]
        simpa using next
      · rw [feedByte]
        simp only [Bool.or_self, Bool.false_eq_true, if_false, if_true]
        rw [if_pos (by exact lf)]
        exact .stopped rfl rfl
  | trailer => exact .trailer

theorem scanned_feed (fed : Bytes) : Scanned fed (feed {} fed) := by
  induction fed using List.reverseRecOn with
  | nil => exact @Scanned.size [] [] (by simp)
  | append_singleton fed b ih =>
      rw [feed_append]
      exact ih.step b

end ChunkScanner

namespace Connection

open ChunkScanner

variable {parser : Parser} {s : ChunkScanner} {fed : Bytes}

theorem heldBack_eq (s : ChunkScanner) : heldBack s = if s.state = .size ∧ s.stopped = false then s.line.length else 0 := by
  cases line : s.line with
  | nil => simp [heldBack, line]
  | cons c l => simp [heldBack, line]

theorem heldBack_step (scanned : Scanned fed s) (b : UInt8) : heldBack (feedByte s b) ≤ heldBack s + 1 := by
  have absorbed (done : (s.overflow || s.stopped) = true) : heldBack (feedByte s b) ≤ heldBack s + 1 := by
    rw [feedByte, if_pos done]
    exact Nat.le_succ _
  cases scanned with
  | flagged flagged => exact absorbed (by simp [flagged])
  | stopped _ stopped => exact absorbed (by simp [stopped])
  | size l =>
      simp only [feedByte, heldBack_eq, Bool.or_self, Bool.false_eq_true, if_false]
      repeat' split
      all_goals simp_all
  | sizeCr l =>
      by_cases lf : b = 0x0A
      · subst lf
        rw [← feed_singleton, feed_lf]
        cases parseSizeLine l with
        | none => simp [heldBack_eq]
        | some r =>
            dsimp only
            repeat' split
            all_goals simp [heldBack_eq]
      · simp [feedByte, heldBack_eq, show b ≠ byte '\n' from lf]
  | data =>
      simp only [feedByte, heldBack_eq, Bool.or_self, Bool.false_eq_true, if_false]
      split <;> simp
  | dataEnd =>
      simp only [feedByte, heldBack_eq, Bool.or_self, Bool.false_eq_true, if_false]
      split <;> simp
  | dataCr =>
      simp only [feedByte, heldBack_eq, Bool.or_self, Bool.false_eq_true, if_false, if_true]
      split <;> simp
  | trailer => simp [feedByte, heldBack_eq]

def limit (fed : Bytes) : Nat := fed.length - heldBack (ChunkScanner.feed {} fed)

theorem limit_mono (fed more : Bytes) : limit fed ≤ limit (fed ++ more) := by
  induction more using List.reverseRecOn with
  | nil => rw [List.append_nil]
  | append_singleton more b ih =>
      have step := heldBack_step (scanned_feed (fed ++ more)) b
      rw [← feed_singleton, ← feed_append] at step
      apply Nat.le_trans ih
      rw [← List.append_assoc]
      have longer : (fed ++ more ++ [b]).length = (fed ++ more).length + 1 := List.length_append
      unfold limit
      omega

def Offered (fed : Bytes) (o : Nat × Bytes) : Prop :=
  ∃ seen, seen <+: fed ∧ (ChunkScanner.feed {} seen).overflow = false ∧ o.2 = (seen.drop o.1).take o.2.length ∧
    o.1 + o.2.length ≤ limit seen

theorem Offered.append {o : Nat × Bytes} (offered : Offered fed o) (more : Bytes) : Offered (fed ++ more) o := by
  obtain ⟨seen, before, rest⟩ := offered
  exact ⟨seen, before.trans (List.prefix_append _ _), rest⟩

structure Fed (c : Connection parser) (fed : Bytes) : Prop where
  scanner : c.scanner = ChunkScanner.feed {} fed
  offered : ∀ o ∈ c.offers, Offered fed o
  kept : c.scanner.overflow = false → c.consumed ++ c.pending = fed
  behind : c.scanner.overflow = false → c.consumed.length ≤ limit fed

variable {c : Connection parser}

theorem offer_enough {held fuel : Nat} (enough : c.pending.length ≤ fuel) : offer held (fuel + 1) c = offer held fuel c := by
  induction fuel generalizing c with
  | zero =>
      have empty : c.pending = [] := List.length_eq_zero_iff.1 (Nat.le_zero.1 enough)
      simp [Connection.offer, empty]
  | succ fuel ih =>
      rw [Connection.offer, Connection.offer]
      have shorter : (c.put held).1.pending = c.pending.drop (c.put held).2.1 := rfl
      generalize c.put held = answer at shorter
      obtain ⟨after, n, error⟩ := answer
      dsimp only at shorter ⊢
      cases error with
      | some error => cases error <;> rfl
      | none =>
          dsimp only
          by_cases stuck : n = 0
          · rw [if_pos stuck, if_pos stuck]
          · rw [if_neg stuck, if_neg stuck, ih]
            rw [shorter, List.length_drop]
            omega

theorem Fed.put (fed_ : Fed c fed) (fits : c.scanner.overflow = false) (long : heldBack c.scanner < c.pending.length) :
    Fed (c.put (heldBack c.scanner)).1 fed := by
  have whole := fed_.kept fits
  have behind := fed_.behind fits
  have size : c.consumed.length + c.pending.length = fed.length := by rw [← whole, List.length_append]
  have limits : limit fed = fed.length - heldBack c.scanner := by rw [limit, fed_.scanner]
  have bounded := parser.put_le c.state (c.pending.take (c.pending.length - heldBack c.scanner))
  rw [List.length_take] at bounded
  constructor
  · exact fed_.scanner
  · intro o member
    rcases List.mem_append.1 member with old | new
    · exact fed_.offered o old
    · rw [List.mem_singleton.1 new]
      refine ⟨fed, List.prefix_refl _, ?_, ?_, ?_⟩
      · rw [← fed_.scanner]
        exact fits
      · dsimp only
        rw [← whole, List.drop_left, List.length_take, Nat.min_eq_left (Nat.sub_le _ _)]
      · dsimp only
        rw [List.length_take, limits]
        omega
  · intro _
    dsimp only [Connection.put]
    rw [List.append_assoc, List.take_append_drop, whole]
  · intro _
    change (c.consumed ++ c.pending.take (parser.put c.state _).1).length ≤ _
    rw [List.length_append, List.length_take, limits]
    omega

theorem Fed.offer (fed_ : Fed c fed) (fits : c.scanner.overflow = false) (fuel : Nat) :
    Fed (offer (heldBack c.scanner) fuel c).1 fed := by
  induction fuel generalizing c with
  | zero => exact fed_
  | succ fuel ih =>
      rw [Connection.offer]
      split
      · exact fed_
      split
      · exact fed_
      next long =>
      have next := fed_.put fits (Nat.not_le.1 long)
      have same : (c.put (heldBack c.scanner)).1.scanner = c.scanner := rfl
      generalize c.put (heldBack c.scanner) = answer at next same
      obtain ⟨after, n, error⟩ := answer
      dsimp only at next same ⊢
      cases error with
      | none =>
          dsimp only
          split
          · exact next
          · rw [← same]
            exact ih next (same ▸ fits)
      | some error => cases error <;> exact next

theorem Fed.feed (fed_ : Fed c fed) (bytes : Bytes) : Fed (feed true c bytes).1 (fed ++ bytes) := by
  have scanned : c.scanner.feed bytes = ChunkScanner.feed {} (fed ++ bytes) := by rw [fed_.scanner, feed_append]
  have offered (o : Nat × Bytes) (member : o ∈ c.offers) : Offered (fed ++ bytes) o := (fed_.offered o member).append bytes
  unfold Connection.feed
  simp only [if_true, Bool.true_and]
  split
  next flagged =>
    constructor
    · exact scanned
    · exact offered
    · intro fits
      rw [flagged] at fits
      cases fits
    · intro fits
      rw [flagged] at fits
      cases fits
  next unflagged =>
    have fits : (c.scanner.feed bytes).overflow = false := by simpa using unflagged
    have before : c.scanner.overflow = false := by
      by_contra flagged
      rw [feed_overflow (by simpa using flagged)] at fits
      exact flagged fits
    apply Fed.offer (c := { c with scanner := c.scanner.feed bytes, pending := c.pending ++ bytes })
    · constructor
      · exact scanned
      · exact offered
      · intro _
        rw [← fed_.kept before, List.append_assoc]
      · intro _
        exact Nat.le_trans (fed_.behind before) (limit_mono fed bytes)
    · exact fits

end Connection

end Sitometron.Http
