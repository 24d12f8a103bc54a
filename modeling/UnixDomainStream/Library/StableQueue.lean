import Mathlib.Data.List.Sort

/-!
# Queues ordered by a key

A value is put behind the last one whose key is not larger.  Values of the same key so keep
the order in which they came.
-/

namespace UnixDomainStream.Library

variable {α κ : Type} [LinearOrder κ]

/-- `first` goes before `second`: its key is smaller, or the tie is decided so. -/
def Before (key : α → κ) (ties : α → α → Prop) (first second : α) : Prop :=
  key first < key second ∨ key first = key second ∧ ties first second

namespace Before

variable {key : α → κ} {ties : α → α → Prop} {first second : α}

theorem le (before : Before key ties first second) : key first ≤ key second :=
  before.elim le_of_lt fun tie => tie.1.le

/-- Of two values only one goes before the other, if ties are decided. -/
theorem asymm (decided : key first = key second → ties first second → ¬ ties second first)
    (before : Before key ties first second) : ¬ Before key ties second first := by
  rintro (smaller | ⟨same, tie⟩)
  · exact absurd before.le (not_le.mpr smaller)
  · rcases before with smaller | ⟨_, tie'⟩
    · exact absurd same.le (not_le.mpr smaller)
    · exact decided same.symm tie' tie

end Before

/-- Put a value behind the last one whose key is not larger: the position that `upper_bound`
finds. -/
def insertBehind (key : α → κ) (value : α) (queue : List α) : List α :=
  queue.orderedInsert (fun first second => key first < key second) value

variable {key : α → κ} {ties : α → α → Prop} {value : α} {queue : List α}

@[simp]
theorem mem_insertBehind {other : α} :
    other ∈ insertBehind key value queue ↔ other = value ∨ other ∈ queue :=
  List.mem_orderedInsert _

/-- A value that comes after all of the same key keeps the queue in order. -/
theorem pairwise_insertBehind (ordered : queue.Pairwise (Before key ties))
    (last : ∀ other ∈ queue, key other = key value → ties other value) :
    (insertBehind key value queue).Pairwise (Before key ties) := by
  induction queue with
  | nil => simp [insertBehind]
  | cons first rest ih =>
      obtain ⟨ahead, tail⟩ := List.pairwise_cons.mp ordered
      by_cases smaller : key value < key first
      · have front : insertBehind key value (first :: rest) = value :: first :: rest :=
          List.orderedInsert_cons_of_le _ rest smaller
        rw [front, List.pairwise_cons]
        refine ⟨fun other member => .inl ?_, ordered⟩
        rcases List.mem_cons.mp member with rfl | later
        · exact smaller
        · exact smaller.trans_le (ahead other later).le
      · have behind : insertBehind key value (first :: rest) =
            first :: insertBehind key value rest :=
          List.orderedInsert_of_not_le _ rest smaller
        rw [behind, List.pairwise_cons]
        refine ⟨fun other member => ?_, ih tail fun other member =>
          last other (List.mem_cons_of_mem _ member)⟩
        rcases mem_insertBehind.mp member with rfl | later
        · rcases lt_or_eq_of_le (not_lt.mp smaller) with less | same
          · exact .inl less
          · exact .inr ⟨same, last first List.mem_cons_self same⟩
        · exact ahead other later

/-- The values of some smallest keys keep their order, and a new one of the largest of these keys
comes last. -/
theorem filter_insertBehind {chosen : α → Bool} (ordered : queue.Pairwise (Before key ties))
    (own : chosen value = true)
    (smallest : ∀ other ∈ queue, chosen other = true ↔ key other ≤ key value) :
    (insertBehind key value queue).filter chosen = queue.filter chosen ++ [value] := by
  induction queue with
  | nil => simp [insertBehind, own]
  | cons first rest ih =>
      obtain ⟨ahead, tail⟩ := List.pairwise_cons.mp ordered
      by_cases smaller : key value < key first
      · have front : insertBehind key value (first :: rest) = value :: first :: rest :=
          List.orderedInsert_cons_of_le _ rest smaller
        have none : (first :: rest).filter chosen = [] := by
          apply List.filter_eq_nil_iff.mpr
          intro other member chosen
          have least : key first ≤ key other := by
            rcases List.mem_cons.mp member with rfl | later
            · exact le_rfl
            · exact (ahead other later).le
          exact absurd ((smallest other member).mp chosen) (not_le.mpr (smaller.trans_le least))
        rw [front, List.filter_cons_of_pos own, none, List.nil_append]
      · have behind : insertBehind key value (first :: rest) =
            first :: insertBehind key value rest :=
          List.orderedInsert_of_not_le _ rest smaller
        have kept : chosen first = true :=
          (smallest first List.mem_cons_self).mpr (not_lt.mp smaller)
        rw [behind, List.filter_cons_of_pos kept, List.filter_cons_of_pos kept,
          ih tail fun other member => smallest other (List.mem_cons_of_mem _ member),
          List.cons_append]

/-- A value that is not chosen changes nothing of those that are. -/
theorem filter_insertBehind_of_false {chosen : α → Bool} (other : chosen value = false) :
    (insertBehind key value queue).filter chosen = queue.filter chosen := by
  induction queue with
  | nil => simp [insertBehind, other]
  | cons first rest ih =>
      by_cases smaller : key value < key first
      · have front : insertBehind key value (first :: rest) = value :: first :: rest :=
          List.orderedInsert_cons_of_le _ rest smaller
        rw [front, List.filter_cons_of_neg (by simp [other])]
      · have behind : insertBehind key value (first :: rest) =
            first :: insertBehind key value rest :=
          List.orderedInsert_of_not_le _ rest smaller
        rw [behind, List.filter_cons, List.filter_cons, ih]

theorem insertBehind_perm (key : α → κ) (value : α) (queue : List α) :
    (insertBehind key value queue).Perm (value :: queue) :=
  List.perm_orderedInsert ..

/-- A value that goes before all others may be put in front. -/
theorem pairwise_front (ordered : queue.Pairwise (Before key ties))
    (first : ∀ other ∈ queue, Before key ties value other) :
    (value :: queue).Pairwise (Before key ties) :=
  List.pairwise_cons.mpr ⟨first, ordered⟩

end UnixDomainStream.Library
