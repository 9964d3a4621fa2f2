import Sitometron.Lib.Bytes

/-!
# Searching a text and cutting it into lines

A line ends with a carriage return and a line feed.
-/

namespace Sitometron.Search

def findFrom (pattern : Bytes) : Bytes → Nat → Option Nat
  | [], i => if pattern.isEmpty then some i else none
  | c :: s, i => if pattern.isPrefixOf (c :: s) then some i else findFrom pattern s (i + 1)

def find (s pattern : Bytes) (start : Nat) : Option Nat := findFrom pattern (s.drop start) start

def crlf : Bytes := [0x0D, 0x0A]

section Find

variable {pattern s : Bytes} {i p : Nat}

theorem findFrom_crlf {l rest : Bytes} (inline : 0x0A ∉ l) (i : Nat) :
    findFrom crlf (l ++ (crlf ++ rest)) i = some (i + l.length) := by
  induction l generalizing i with
  | nil => simp [findFrom, crlf]
  | cons c l ih =>
      have tail : 0x0A ∉ l := fun member => inline (List.mem_cons_of_mem c member)
      have later : ¬crlf.isPrefixOf (c :: (l ++ (crlf ++ rest))) = true := by
        rw [List.isPrefixOf_iff_prefix]
        rintro ⟨t, same⟩
        cases l with
        | nil => simp [crlf] at same
        | cons d l =>
            simp only [crlf, List.cons_append, List.nil_append, List.cons.injEq] at same
            exact tail (by simp [← same.2.1])
      rw [List.cons_append, findFrom, if_neg later, ih tail, List.length_cons]
      congr 1
      omega

theorem find_crlf {before l rest : Bytes} (inline : 0x0A ∉ l) :
    find (before ++ (l ++ (crlf ++ rest))) crlf before.length = some (before.length + l.length) := by
  rw [find, List.drop_left, findFrom_crlf inline]

end Find

def unlines (lines : List Bytes) : Bytes := lines.flatMap fun l => l ++ crlf

theorem unlines_cons (l : Bytes) (lines : List Bytes) : unlines (l :: lines) = l ++ (crlf ++ unlines lines) := by
  simp [unlines]

def Paired (s : Bytes) : Prop := ∀ a b, s = a ++ 0x0A :: b → ∃ a', a = a' ++ [0x0D]

theorem Paired.left {s t : Bytes} (paired : Paired (s ++ t)) : Paired s := by
  intro a b same
  exact paired a (b ++ t) (by simp [same])

theorem Paired.tail {l s : Bytes} (paired : Paired (l ++ (crlf ++ s))) : Paired s := by
  intro a b same
  obtain ⟨a', ends⟩ := paired (l ++ (crlf ++ a)) b (by simp [same])
  rcases List.eq_nil_or_concat a with rfl | ⟨c, d, rfl⟩
  · have last := congrArg List.getLast? ends
    simp [crlf] at last
  · have last := congrArg List.getLast? ends
    simp at last
    exact ⟨c, by rw [last]; simp⟩

end Sitometron.Search
