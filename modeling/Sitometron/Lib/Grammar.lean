import Sitometron.Lib.Search
import Mathlib.Data.List.DropRight
import Mathlib.Data.List.SplitOn

/-!
# The grammar of tokens, quoted strings, lists and chunk sizes

Productions of HTTP messages: RFC 9110 for tokens, white space, quoted strings and lists, RFC 9112 for the line that starts a
chunk.
-/

namespace Sitometron.Grammar

open Search

def Digit (c : UInt8) : Prop := 0x30 ≤ c ∧ c ≤ 0x39

def Alpha (c : UInt8) : Prop := 0x41 ≤ c ∧ c ≤ 0x5A ∨ 0x61 ≤ c ∧ c ≤ 0x7A

def HexDig (c : UInt8) : Prop := Digit c ∨ 0x41 ≤ c ∧ c ≤ 0x46 ∨ 0x61 ≤ c ∧ c ≤ 0x66

def Tchar (c : UInt8) : Prop := c ∈ text "!#$%&'*+-.^_`|~" ∨ Digit c ∨ Alpha c

def Space (c : UInt8) : Prop := c = 0x20 ∨ c = 0x09

def ObsText (c : UInt8) : Prop := 0x80 ≤ c

def QdText (c : UInt8) : Prop := Space c ∨ c = 0x21 ∨ 0x23 ≤ c ∧ c ≤ 0x5B ∨ 0x5D ≤ c ∧ c ≤ 0x7E ∨ ObsText c

def Escaped (c : UInt8) : Prop := Space c ∨ 0x21 ≤ c ∧ c ≤ 0x7E ∨ ObsText c

def hexDigit (c : UInt8) : Nat := if c ≤ 0x39 then c.toNat - 0x30 else if c ≤ 0x46 then c.toNat - 0x41 + 10 else c.toNat - 0x61 + 10

instance : DecidablePred Digit := fun c => inferInstanceAs (Decidable (0x30 ≤ c ∧ c ≤ 0x39))

instance : DecidablePred Alpha := fun c => inferInstanceAs (Decidable (0x41 ≤ c ∧ c ≤ 0x5A ∨ 0x61 ≤ c ∧ c ≤ 0x7A))

instance : DecidablePred HexDig := fun c => inferInstanceAs (Decidable (Digit c ∨ 0x41 ≤ c ∧ c ≤ 0x46 ∨ 0x61 ≤ c ∧ c ≤ 0x66))

instance : DecidablePred Tchar := fun c => inferInstanceAs (Decidable (c ∈ text "!#$%&'*+-.^_`|~" ∨ Digit c ∨ Alpha c))

instance : DecidablePred Space := fun c => inferInstanceAs (Decidable (c = 0x20 ∨ c = 0x09))

instance : DecidablePred QdText := fun c => inferInstanceAs
  (Decidable (Space c ∨ c = 0x21 ∨ 0x23 ≤ c ∧ c ≤ 0x5B ∨ 0x5D ≤ c ∧ c ≤ 0x7E ∨ 0x80 ≤ c))

instance : DecidablePred Escaped := fun c => inferInstanceAs (Decidable (Space c ∨ 0x21 ≤ c ∧ c ≤ 0x7E ∨ 0x80 ≤ c))

def Bws (s : Bytes) : Prop := ∀ c ∈ s, Space c

def Token (s : Bytes) : Prop := s ≠ [] ∧ ∀ c ∈ s, Tchar c

inductive Quoted : Bytes → Prop where
  | nil : Quoted []
  | text {c : UInt8} {s : Bytes} : QdText c → Quoted s → Quoted (c :: s)
  | pair {c : UInt8} {s : Bytes} : Escaped c → Quoted s → Quoted (byte '\\' :: c :: s)

inductive ExtensionValue : Bytes → Prop where
  | token {s : Bytes} : Token s → ExtensionValue s
  | quoted {s : Bytes} : Quoted s → ExtensionValue (byte '"' :: (s ++ [byte '"']))

inductive Extension : Bytes → Prop where
  | bare {before after name : Bytes} : Bws before → Bws after → Token name → Extension (before ++ byte ';' :: (after ++ name))
  | valued {before after name left right value : Bytes} : Bws before → Bws after → Token name → Bws left → Bws right →
      ExtensionValue value → Extension (before ++ byte ';' :: (after ++ (name ++ (left ++ byte '=' :: (right ++ value)))))

inductive Extensions : Bytes → Prop where
  | nil : Extensions []
  | cons {e s : Bytes} : Extension e → Extensions s → Extensions (e ++ s)

def ofHex (digits : Bytes) : Nat := digits.foldl (fun v c => 16 * v + hexDigit c) 0

def SizeLine (s : Bytes) (n : Nat) : Prop :=
  ∃ digits extensions, s = digits ++ extensions ∧ digits ≠ [] ∧ (∀ c ∈ digits, HexDig c) ∧ Extensions extensions ∧ ofHex digits = n

def Chunk (s : Bytes) : Prop :=
  ∃ line n data, SizeLine line n ∧ 0 < n ∧ data.length = n ∧ s = line ++ crlf ++ data ++ crlf

inductive Quoting where
  | outside | inside | escaped
deriving DecidableEq

def Quoting.next : Quoting → UInt8 → Quoting
  | outside, c => if c = byte '"' then inside else outside
  | inside, c => if c = byte '\\' then escaped else if c = byte '"' then outside else inside
  | escaped, _ => inside

def separators (q : Quoting) : Bytes → List Bool
  | [] => []
  | c :: s => (c = byte ',' && q = .outside) :: separators (q.next c) s

def elements (q : Quoting) (s : Bytes) : List Bytes := ((s.zip (separators q s)).splitOnP Prod.snd).map fun e => e.map Prod.fst

def trim (s : Bytes) : Bytes := (s.dropWhile fun c => decide (Space c)).rdropWhile fun c => decide (Space c)

def members (s : Bytes) : List Bytes := ((elements .outside s).map trim).filter (· ≠ [])

theorem elements_nil (q : Quoting) : elements q [] = [[]] := rfl

theorem elements_cons (q : Quoting) (c : UInt8) (s : Bytes) :
    elements q (c :: s) = if c = byte ',' && q = .outside then [] :: elements (q.next c) s
      else (elements (q.next c) s).modifyHead (c :: ·) := by
  rw [elements, separators, List.zip_cons_cons, List.splitOnP_cons, elements]
  dsimp only
  split
  · rfl
  · cases List.splitOnP Prod.snd (s.zip (separators (q.next c) s)) <;> rfl

theorem Tchar.not_space {c : UInt8} (tchar : Tchar c) : ¬ Space c := by
  rintro (rfl | rfl) <;> revert tchar <;> decide

theorem Extensions.begins {s : Bytes} (valid : Extensions s) : s = [] ∨ ∃ w rest, Bws w ∧ s = w ++ byte ';' :: rest := by
  cases valid with
  | nil => exact .inl rfl
  | cons extension _ =>
      right
      cases extension with
      | bare before => exact ⟨_, _, before, by rw [List.append_assoc, List.cons_append]⟩
      | valued before => exact ⟨_, _, before, by rw [List.append_assoc, List.cons_append]⟩

theorem Extensions.spaced {w s : Bytes} (valid : Extensions s) (nonempty : s ≠ []) (bws : Bws w) : Extensions (w ++ s) := by
  have both {a b : Bytes} (left : Bws a) (right : Bws b) : Bws (a ++ b) := by
    intro c member
    rcases List.mem_append.1 member with inside | inside
    · exact left c inside
    · exact right c inside
  cases valid with
  | nil => exact absurd rfl nonempty
  | cons extension rest =>
      cases extension with
      | bare before after name =>
          have whole := Extensions.cons (.bare (both bws before) after name) rest
          simpa using whole
      | valued before after name left right value =>
          have whole := Extensions.cons (.valued (both bws before) after name left right value) rest
          simpa using whole

def Inline (s : Bytes) : Prop := ∀ c ∈ s, c ≠ 0x0D ∧ c ≠ 0x0A

theorem Inline.of {p : UInt8 → Prop} {s : Bytes} (all : ∀ c ∈ s, p c) (cr : ¬p 0x0D) (lf : ¬p 0x0A) : Inline s := by
  intro c member
  constructor
  · rintro rfl
    exact cr (all _ member)
  · rintro rfl
    exact lf (all _ member)

theorem Inline.append {s t : Bytes} (left : Inline s) (right : Inline t) : Inline (s ++ t) := by
  intro c member
  rcases List.mem_append.1 member with inside | inside
  · exact left c inside
  · exact right c inside

theorem Inline.cons {c : UInt8} {s : Bytes} (head : c ≠ 0x0D ∧ c ≠ 0x0A) (tail : Inline s) : Inline (c :: s) := by
  intro d member
  rcases List.mem_cons.1 member with rfl | inside
  · exact head
  · exact tail d inside

theorem Bws.inline {s : Bytes} (bws : Bws s) : Inline s := .of bws (by decide) (by decide)

theorem Token.inline {s : Bytes} (token : Token s) : Inline s := .of token.2 (by decide) (by decide)

theorem Quoted.inline {s : Bytes} (quoted : Quoted s) : Inline s := by
  induction quoted with
  | nil =>
      intro c member
      cases member
  | @text c s plain _ ih =>
      apply Inline.cons _ ih
      constructor <;> (rintro rfl; revert plain; decide)
  | @pair c s escaped _ ih =>
      apply Inline.cons (by decide) (.cons _ ih)
      constructor <;> (rintro rfl; revert escaped; decide)

theorem ExtensionValue.inline {s : Bytes} (valid : ExtensionValue s) : Inline s := by
  cases valid with
  | token token => exact token.inline
  | quoted quoted => exact .cons (by decide) (quoted.inline.append (.cons (by decide) (by simp [Inline])))

theorem Extensions.inline {s : Bytes} (valid : Extensions s) : Inline s := by
  induction valid with
  | nil => simp [Inline]
  | cons extension _ ih =>
      apply Inline.append _ ih
      cases extension with
      | bare before after name => exact before.inline.append (.cons (by decide) (after.inline.append name.inline))
      | valued before after name left right value =>
          exact before.inline.append (.cons (by decide) (after.inline.append (name.inline.append
            (left.inline.append (.cons (by decide) (right.inline.append value.inline))))))

theorem SizeLine.inline {s : Bytes} {n : Nat} (line : SizeLine s n) : Inline s := by
  obtain ⟨digits, extensions, rfl, -, hex, valid, -⟩ := line
  exact (Inline.of hex (by decide) (by decide)).append valid.inline

end Sitometron.Grammar
