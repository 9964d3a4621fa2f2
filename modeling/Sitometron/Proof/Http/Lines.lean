import Sitometron.Http.Header

/-!
# The lines of a header

A header that `ReadHeader` hands on is made of lines, none of them empty, and ends with the first empty line.
-/

namespace Sitometron.Http

open Search

structure IsLine (l : Bytes) : Prop where
  nonempty : l ≠ []
  inline : 0x0A ∉ l

section Reading

variable {options : Options} {badVersion : Bytes → Bool} {header : HeaderRead} {bytes : Bytes}

section Terminators

variable {t : HeaderTerminator} {init : Option HeaderTerminator} {pattern : Bytes} {patterns : List Bytes}

end Terminators

structure HasLines (bytes : Bytes) (headerEnd : Nat) (lines : List Bytes) (body : Bytes) : Prop where
  bytes : bytes = unlines lines ++ (crlf ++ body)
  end_ : (unlines lines).length = headerEnd + 2
  nonempty : lines ≠ []
  each : ∀ l ∈ lines, IsLine l

end Reading

end Sitometron.Http
