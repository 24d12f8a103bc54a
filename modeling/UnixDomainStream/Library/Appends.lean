import Mathlib.Data.List.Basic

/-!
# Lists that only grow

A queue or a log that a piece of code appends to, with a property of everything
it appended.
-/

namespace UnixDomainStream.Library

/-- `after` is `before` followed by elements with the given property. -/
def Appends {α : Type} (property : α → Prop) (before after : List α) : Prop :=
  ∃ more, after = before ++ more ∧ ∀ element ∈ more, property element

namespace Appends

variable {α β : Type} {property other : α → Prop} {first second third : List α}

theorem refl (list : List α) : Appends property list list :=
  ⟨[], by simp, by simp⟩

theorem trans (left : Appends property first second) (right : Appends property second third) :
    Appends property first third := by
  obtain ⟨early, rfl, ofEarly⟩ := left
  obtain ⟨late, rfl, ofLate⟩ := right
  refine ⟨early ++ late, List.append_assoc .., ?_⟩
  intro element member
  rcases List.mem_append.mp member with old | new
  · exact ofEarly element old
  · exact ofLate element new

theorem mono (weaker : ∀ element, property element → other element)
    (appends : Appends property first second) : Appends other first second := by
  obtain ⟨more, rfl, ofMore⟩ := appends
  exact ⟨more, rfl, fun element member => weaker element (ofMore element member)⟩

theorem append {more : List α} (ofMore : ∀ element ∈ more, property element) (list : List α) :
    Appends property list (list ++ more) :=
  ⟨more, rfl, ofMore⟩

theorem single {element : α} (holds : property element) (list : List α) :
    Appends property list (list ++ [element]) :=
  append (by simpa using holds) list

theorem map {source : β → α} {more : List β} (ofMore : ∀ element ∈ more, property (source element))
    (list : List α) : Appends property list (list ++ more.map source) :=
  append (by simpa using ofMore) list

/-- A property of every element survives if it holds of what is appended. -/
theorem forall_mem (appends : Appends property first second)
    (before : ∀ element ∈ first, property element) : ∀ element ∈ second, property element := by
  obtain ⟨more, rfl, ofMore⟩ := appends
  intro element member
  rcases List.mem_append.mp member with old | new
  · exact before element old
  · exact ofMore element new

/-- A view that drops every appended element does not change. -/
theorem filterMap_eq {view : α → Option β} (appends : Appends property first second)
    (hidden : ∀ element, property element → view element = none) :
    second.filterMap view = first.filterMap view := by
  obtain ⟨more, rfl, ofMore⟩ := appends
  have none : more.filterMap view = [] :=
    List.filterMap_eq_nil_iff.mpr fun element member => hidden element (ofMore element member)
  rw [List.filterMap_append, none, List.append_nil]

theorem any_eq {test : α → Bool} (appends : Appends property first second)
    (hidden : ∀ element, property element → test element = false) :
    second.any test = first.any test := by
  obtain ⟨more, rfl, ofMore⟩ := appends
  have none : more.any test = false :=
    List.any_eq_false.mpr fun element member => by simp [hidden element (ofMore element member)]
  rw [List.any_append, none, Bool.or_false]

theorem filter_eq {test : α → Bool} (appends : Appends property first second)
    (hidden : ∀ element, property element → test element = false) :
    second.filter test = first.filter test := by
  obtain ⟨more, rfl, ofMore⟩ := appends
  have none : more.filter test = [] :=
    List.filter_eq_nil_iff.mpr fun element member => by simp [hidden element (ofMore element member)]
  rw [List.filter_append, none, List.append_nil]

theorem countP_eq {test : α → Bool} (appends : Appends property first second)
    (hidden : ∀ element, property element → test element = false) :
    second.countP test = first.countP test := by
  rw [List.countP_eq_length_filter, List.countP_eq_length_filter, appends.filter_eq hidden]

end Appends

end UnixDomainStream.Library
