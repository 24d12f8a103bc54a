import Mathlib.Logic.Relation

/-!
# Procedures in pieces

A procedure that is a row of pieces keeps what each piece keeps.  If two effects, one
after the other, are an effect of the same kind, the procedure has the effect that each
piece has.
-/

namespace UnixDomainStream.Library

/-- A row of pieces leads from the one state to the other. -/
abbrev Pieces {σ : Type} (piece : σ → σ → Prop) : σ → σ → Prop := Relation.ReflTransGen piece

namespace Pieces

variable {σ : Type} {piece : σ → σ → Prop} {first last : σ}

theorem keeps (kept : σ → Prop) (pieces : Pieces piece first last)
    (step : ∀ {before after : σ}, piece before after → kept before → kept after)
    (start : kept first) : kept last := by
  induction pieces with
  | refl => exact start
  | tail _ next ih => exact step next ih

theorem effect {effect : σ → σ → Prop} (pieces : Pieces piece first last)
    (refl : ∀ state, effect state state)
    (trans : ∀ {before between after : σ}, effect before between → effect between after →
      effect before after)
    (step : ∀ {before after : σ}, piece before after → effect before after) :
    effect first last := by
  induction pieces with
  | refl => exact refl first
  | tail _ next ih => exact trans ih (step next)

end Pieces

end UnixDomainStream.Library
