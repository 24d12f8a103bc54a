import Mathlib.Data.List.Basic

/-!
# Words one behind the other

A prefix code has no word that begins another one.  A stream of such words can be read
back without marks between them: what is read from the beginning of a stream are the
first of its words.
-/

namespace UnixDomainStream.Library

/-- The words of a set tell apart where they end. -/
structure PrefixCode {α β : Type} (code : α → List β) (valid : α → Prop) : Prop where
  nonempty : ∀ word, valid word → code word ≠ []
  free : ∀ first second, valid first → valid second → code first <+: code second →
    first = second

namespace PrefixCode

variable {α β : Type} {code : α → List β} {valid : α → Prop} {words others : List α}

/-- Two words that begin one stream are the same. -/
theorem eq_of_append (prefixCode : PrefixCode code valid) {first second : α} {rest tail : List β}
    (left : valid first) (right : valid second) (same : code first ++ rest = code second ++ tail) :
    first = second := by
  rcases List.append_eq_append_iff.mp same with ⟨more, longer, _⟩ | ⟨more, longer, _⟩
  · exact prefixCode.free first second left right ⟨more, longer.symm⟩
  · exact (prefixCode.free second first right left ⟨more, longer.symm⟩).symm

/-- The words at the beginning of a stream are the first of its words. -/
theorem of_flatMap_begins (prefixCode : PrefixCode code valid)
    (known : ∀ word ∈ words, valid word) (known' : ∀ word ∈ others, valid word)
    (begins : words.flatMap code <+: others.flatMap code) : words <+: others := by
  induction words generalizing others with
  | nil => exact List.nil_prefix
  | cons word rest ih =>
      obtain ⟨tail, same⟩ := begins
      rw [List.flatMap_cons, List.append_assoc] at same
      cases others with
      | nil =>
          rw [List.flatMap_nil, List.append_eq_nil_iff] at same
          exact absurd same.1 (prefixCode.nonempty word (known word List.mem_cons_self))
      | cons other more =>
          rw [List.flatMap_cons] at same
          obtain rfl := prefixCode.eq_of_append (known word List.mem_cons_self)
            (known' other List.mem_cons_self) same
          refine List.cons_prefix_cons.mpr ⟨rfl, ih ?_ ?_ ⟨tail, List.append_cancel_left same⟩⟩
          · exact fun word listed => known word (List.mem_cons_of_mem _ listed)
          · exact fun word listed => known' word (List.mem_cons_of_mem _ listed)

end PrefixCode

end UnixDomainStream.Library
