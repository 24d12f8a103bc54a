import Mathlib.Data.List.Basic
import Mathlib.Data.List.Nodup

/-!
# Ledgers

A ledger issues consecutive numbers for values and settles open entries, each at
most once.  An operation settles the open entries it addresses; the answer of an
entry is the answer of the first later operation that addresses it.
-/

namespace UnixDomainStream.Library

structure Ledger (α : Type) where
  issued : Nat
  entries : List (Nat × α)
  positive : ∀ entry ∈ entries, 0 < entry.1
  bounded : ∀ entry ∈ entries, entry.1 ≤ issued
  distinct : (entries.map Prod.fst).Nodup

namespace Ledger

variable {α β : Type}

def empty : Ledger α where
  issued := 0
  entries := []
  positive := by simp
  bounded := by simp
  distinct := List.nodup_nil

def issue (value : α) (ledger : Ledger α) : Ledger α where
  issued := ledger.issued + 1
  entries := ledger.entries ++ [(ledger.issued + 1, value)]
  positive := by
    intro entry member
    rcases List.mem_append.mp member with old | new
    · exact ledger.positive entry old
    · rw [List.mem_singleton.mp new]
      exact Nat.succ_pos _
  bounded := by
    intro entry member
    rcases List.mem_append.mp member with old | new
    · exact Nat.le_succ_of_le (ledger.bounded entry old)
    · have same := List.mem_singleton.mp new
      exact Nat.le_of_eq (congrArg Prod.fst same)
  distinct := by
    rw [List.map_append, List.nodup_append]
    refine ⟨ledger.distinct, by simp, ?_⟩
    intro number old other new
    obtain ⟨entry, member, rfl⟩ := List.mem_map.mp old
    have bound := ledger.bounded entry member
    simp only [List.map_cons, List.map_nil, List.mem_singleton] at new
    omega

/-- Drop the addressed entries. -/
def remove (addressed : Nat × α → Bool) (ledger : Ledger α) : Ledger α where
  issued := ledger.issued
  entries := ledger.entries.filter fun entry => !addressed entry
  positive := fun entry member => ledger.positive entry (List.mem_of_mem_filter member)
  bounded := fun entry member => ledger.bounded entry (List.mem_of_mem_filter member)
  distinct := ledger.distinct.sublist ((List.filter_sublist).map Prod.fst)

/-- The open entries an operation addresses. -/
def addressed (address : Nat × α → Bool) (ledger : Ledger α) : List (Nat × α) :=
  ledger.entries.filter address

def find? (number : Nat) (ledger : Ledger α) : Option α :=
  (ledger.entries.find? fun entry => entry.1 == number).map Prod.snd

@[simp]
theorem issued_issue (value : α) (ledger : Ledger α) :
    (ledger.issue value).issued = ledger.issued + 1 := rfl

@[simp]
theorem issued_remove (address : Nat × α → Bool) (ledger : Ledger α) :
    (ledger.remove address).issued = ledger.issued := rfl

@[simp]
theorem entries_empty : (empty : Ledger α).entries = [] := rfl

@[simp]
theorem entries_issue (value : α) (ledger : Ledger α) :
    (ledger.issue value).entries = ledger.entries ++ [(ledger.issued + 1, value)] := rfl

@[simp]
theorem mem_remove {address : Nat × α → Bool} {ledger : Ledger α} {entry : Nat × α} :
    entry ∈ (ledger.remove address).entries ↔ entry ∈ ledger.entries ∧ address entry = false := by
  simp [remove, List.mem_filter]

@[simp]
theorem mem_addressed {address : Nat × α → Bool} {ledger : Ledger α} {entry : Nat × α} :
    entry ∈ ledger.addressed address ↔ entry ∈ ledger.entries ∧ address entry = true := by
  simp [addressed, List.mem_filter]

theorem remove_congr {left right : Nat × α → Bool} {ledger : Ledger α}
    (same : ∀ entry ∈ ledger.entries, left entry = right entry) :
    ledger.remove left = ledger.remove right := by
  have kept : (ledger.entries.filter fun entry => !left entry) =
      ledger.entries.filter fun entry => !right entry :=
    List.filter_congr fun entry member => by rw [same entry member]
  simp only [remove, kept]

theorem remove_false (ledger : Ledger α) : (ledger.remove fun _ => false) = ledger := by
  simp [remove]

/-- A number has one entry at most. -/
theorem eq_of_mem {ledger : Ledger α} {number : Nat} {first second : α}
    (left : (number, first) ∈ ledger.entries) (right : (number, second) ∈ ledger.entries) :
    first = second := by
  have same := List.inj_on_of_nodup_map ledger.distinct left right rfl
  exact (Prod.mk.inj same).2

theorem find?_eq_some {ledger : Ledger α} {number : Nat} {value : α} :
    ledger.find? number = some value ↔ (number, value) ∈ ledger.entries := by
  constructor
  · intro found
    obtain ⟨entry, located, rfl⟩ := Option.map_eq_some_iff.mp found
    have same : entry.1 = number := by simpa using List.find?_some located
    rw [← same]
    exact List.mem_of_find?_eq_some located
  · intro member
    cases located : ledger.entries.find? fun entry => entry.1 == number with
    | none =>
        have absent := List.find?_eq_none.mp located _ member
        simp at absent
    | some entry =>
        have same : entry.1 = number := by simpa using List.find?_some located
        have listed := List.mem_of_find?_eq_some located
        rw [← same] at member
        rw [find?, located, Option.map_some, eq_of_mem member listed]

theorem find?_eq_none {ledger : Ledger α} {number : Nat} :
    ledger.find? number = none ↔ ∀ value, (number, value) ∉ ledger.entries := by
  rw [Option.eq_none_iff_forall_ne_some]
  exact forall_congr' fun value => not_congr find?_eq_some

/-- The entries under an open number. -/
theorem filter_of_mem {ledger : Ledger α} {number : Nat} {value : α}
    (member : (number, value) ∈ ledger.entries) :
    ledger.entries.filter (fun entry => entry.1 == number) = [(number, value)] := by
  have unique : (ledger.entries.filter fun entry => entry.1 == number).length ≤ 1 := by
    have distinct : ((ledger.entries.filter fun entry => entry.1 == number).map Prod.fst).Nodup :=
      ledger.distinct.sublist (List.filter_sublist.map Prod.fst)
    have same : ∀ key ∈ (ledger.entries.filter fun entry => entry.1 == number).map Prod.fst,
        key = number := by
      intro key listed
      obtain ⟨entry, kept, rfl⟩ := List.mem_map.mp listed
      simpa using (List.mem_filter.mp kept).2
    have replicated := List.eq_replicate_of_mem same
    rw [replicated, List.nodup_replicate, List.length_map] at distinct
    exact distinct
  have kept : (number, value) ∈ ledger.entries.filter fun entry => entry.1 == number :=
    List.mem_filter.mpr ⟨member, by simp⟩
  obtain ⟨entry, single⟩ := List.length_eq_one_iff.mp
    (Nat.le_antisymm unique (List.length_pos_of_mem kept))
  rw [single] at kept ⊢
  rw [List.mem_singleton.mp kept]

/-- A number that is not open has no entries. -/
theorem filter_of_absent {ledger : Ledger α} {number : Nat}
    (absent : ∀ value, (number, value) ∉ ledger.entries) :
    ledger.entries.filter (fun entry => entry.1 == number) = [] := by
  rw [List.filter_eq_nil_iff]
  intro entry member same
  have key : entry.1 = number := by simpa using same
  subst key
  exact absent entry.2 member

end Ledger

/-! ## Operations and answers -/

/-- What the operations of a service do to a ledger: one may issue a value, and
it answers those open entries that it addresses. -/
structure Service (Operation α β : Type) where
  issue? : Operation → Option α
  answer? : Operation → Nat × α → Option β

/-- A ledger together with the answers given so far, all to issued numbers. -/
structure Book (α β : Type) where
  ledger : Ledger α
  answers : List ((Nat × α) × β)
  positive : ∀ answer ∈ answers, 0 < answer.1.1
  answered : ∀ answer ∈ answers, answer.1.1 ≤ ledger.issued

namespace Book

variable {Operation α β : Type} (service : Service Operation α β)

def empty : Book α β := ⟨.empty, [], by simp, by simp⟩

/-- The ledger after one operation. -/
def applyLedger (ledger : Ledger α) (operation : Operation) : Ledger α :=
  let remaining := ledger.remove fun entry => (service.answer? operation entry).isSome
  match service.issue? operation with
  | none => remaining
  | some value => remaining.issue value

/-- The answers one operation gives. -/
def applyAnswers (ledger : Ledger α) (operation : Operation) : List ((Nat × α) × β) :=
  ledger.entries.filterMap fun entry => (service.answer? operation entry).map (Prod.mk entry)

theorem issued_applyLedger (ledger : Ledger α) (operation : Operation) :
    (applyLedger service ledger operation).issued =
      ledger.issued + (service.issue? operation).toList.length := by
  cases issued : service.issue? operation with
  | none => simp [applyLedger, issued]
  | some value => simp [applyLedger, issued]

theorem applyAnswers_bounded {ledger : Ledger α} {operation : Operation}
    {answer : (Nat × α) × β} (given : answer ∈ applyAnswers service ledger operation) :
    0 < answer.1.1 ∧ answer.1.1 ≤ ledger.issued := by
  obtain ⟨entry, member, answered⟩ := List.mem_filterMap.mp given
  obtain ⟨value, _, rfl⟩ := Option.map_eq_some_iff.mp answered
  exact ⟨ledger.positive entry member, ledger.bounded entry member⟩

def apply (book : Book α β) (operation : Operation) : Book α β where
  ledger := applyLedger service book.ledger operation
  answers := book.answers ++ applyAnswers service book.ledger operation
  positive := by
    intro answer given
    rcases List.mem_append.mp given with old | new
    · exact book.positive answer old
    · exact (applyAnswers_bounded service new).1
  answered := by
    intro answer given
    rw [issued_applyLedger]
    rcases List.mem_append.mp given with old | new
    · exact Nat.le_add_right_of_le (book.answered answer old)
    · exact Nat.le_add_right_of_le (applyAnswers_bounded service new).2

def run (book : Book α β) (operations : List Operation) : Book α β :=
  operations.foldl (apply service) book

/-- The answers given to one number. -/
def answersOf (number : Nat) (book : Book α β) : List ((Nat × α) × β) :=
  book.answers.filter fun answer => answer.1.1 == number

/-- The answer of the first operation that addresses an entry. -/
def firstAnswer (entry : Nat × α) (operations : List Operation) : Option β :=
  operations.findSome? fun operation => service.answer? operation entry

@[simp]
theorem run_nil (book : Book α β) : book.run service [] = book := rfl

@[simp]
theorem run_cons (book : Book α β) (operation : Operation) (rest : List Operation) :
    book.run service (operation :: rest) = (book.apply service operation).run service rest := rfl

theorem run_append (book : Book α β) (left right : List Operation) :
    book.run service (left ++ right) = (book.run service left).run service right :=
  List.foldl_append

theorem issued_apply (book : Book α β) (operation : Operation) :
    (book.apply service operation).ledger.issued =
      book.ledger.issued + (service.issue? operation).toList.length :=
  issued_applyLedger service book.ledger operation

theorem issued_run (book : Book α β) (operations : List Operation) :
    (book.run service operations).ledger.issued =
      book.ledger.issued + (operations.filterMap service.issue?).length := by
  induction operations generalizing book with
  | nil => rfl
  | cons operation rest ih =>
      rw [run_cons, ih, issued_apply]
      cases issued : service.issue? operation with
      | none => simp [issued]
      | some value =>
          simp only [List.filterMap_cons, issued, Option.toList_some, List.length_cons,
            List.length_nil]
          omega

/-- Which old numbers stay open. -/
theorem mem_apply {book : Book α β} {operation : Operation} {entry : Nat × α}
    (old : entry.1 ≤ book.ledger.issued) :
    entry ∈ (book.apply service operation).ledger.entries ↔
      entry ∈ book.ledger.entries ∧ service.answer? operation entry = none := by
  cases issued : service.issue? operation with
  | none => simp [apply, applyLedger, issued]
  | some value =>
      simp only [apply, applyLedger, issued, Ledger.entries_issue, List.mem_append, Ledger.mem_remove,
        Option.isSome_eq_false_iff, Option.isNone_iff_eq_none, List.mem_singleton,
        Ledger.issued_remove, or_iff_left_iff_imp]
      intro same
      rw [same] at old
      exact absurd old (Nat.not_succ_le_self _)

/-- The answers an operation gives under one number are its answers to the
entries under that number. -/
theorem answersOf_apply (book : Book α β) (operation : Operation) (number : Nat) :
    (book.apply service operation).answersOf number =
      book.answersOf number ++
        (book.ledger.entries.filter fun entry => entry.1 == number).filterMap fun entry =>
          (service.answer? operation entry).map (Prod.mk entry) := by
  have commuted : ∀ entries : List (Nat × α),
      (entries.filterMap fun entry =>
          (service.answer? operation entry).map (Prod.mk entry)).filter
        (fun answer => answer.1.1 == number) =
      (entries.filter fun entry => entry.1 == number).filterMap fun entry =>
        (service.answer? operation entry).map (Prod.mk entry) := by
    intro entries
    induction entries with
    | nil => rfl
    | cons entry rest ih =>
        cases answered : service.answer? operation entry <;>
          cases same : entry.1 == number <;> simp_all
  simp only [answersOf, apply, applyAnswers, List.filter_append, commuted]

/-- A number that is not open is never answered again. -/
theorem answersOf_run_of_absent {book : Book α β} {number : Nat}
    (old : number ≤ book.ledger.issued)
    (absent : ∀ value, (number, value) ∉ book.ledger.entries) (operations : List Operation) :
    (∀ value, (number, value) ∉ (book.run service operations).ledger.entries) ∧
      (book.run service operations).answersOf number = book.answersOf number := by
  induction operations generalizing book with
  | nil => exact ⟨absent, rfl⟩
  | cons operation rest ih =>
      have later : number ≤ (book.apply service operation).ledger.issued := by
        rw [issued_apply]
        omega
      have closed : ∀ value, (number, value) ∉ (book.apply service operation).ledger.entries :=
        fun value member => absent value ((mem_apply service old).mp member).1
      have unanswered := answersOf_apply service book operation number
      rw [Ledger.filter_of_absent absent, List.filterMap_nil, List.append_nil] at unanswered
      rw [run_cons, ← unanswered]
      exact ih later closed

/-- An open entry stays open until the first operation that addresses it, and
the answer of that operation is the only one it gets. -/
theorem run_of_mem {book : Book α β} {number : Nat} {value : α}
    (member : (number, value) ∈ book.ledger.entries) (operations : List Operation) :
    (book.run service operations).ledger.find? number =
        (if (firstAnswer service (number, value) operations).isSome then none else some value) ∧
      (book.run service operations).answersOf number =
        book.answersOf number ++
          (firstAnswer service (number, value) operations).toList.map
            (Prod.mk (number, value)) := by
  induction operations generalizing book with
  | nil => simpa [firstAnswer] using Ledger.find?_eq_some.mpr member
  | cons operation rest ih =>
      have old : number ≤ book.ledger.issued := book.ledger.bounded _ member
      have step := answersOf_apply service book operation number
      rw [Ledger.filter_of_mem member] at step
      cases answered : service.answer? operation (number, value) with
      | none =>
          have still : (number, value) ∈ (book.apply service operation).ledger.entries :=
            (mem_apply service old).mpr ⟨member, answered⟩
          have same : firstAnswer service (number, value) (operation :: rest) =
              firstAnswer service (number, value) rest := by
            simp [firstAnswer, answered]
          rw [run_cons, same]
          simpa [step, answered] using ih still
      | some answer =>
          have later : number ≤ (book.apply service operation).ledger.issued := by
            rw [issued_apply]
            omega
          have closed : ∀ value,
              (number, value) ∉ (book.apply service operation).ledger.entries := by
            intro other listed
            obtain ⟨listed, unaddressed⟩ := (mem_apply service old).mp listed
            rw [Ledger.eq_of_mem listed member, answered] at unaddressed
            exact Option.some_ne_none answer unaddressed
          have first : firstAnswer service (number, value) (operation :: rest) =
              some answer := by
            simp [firstAnswer, answered]
          have rested := answersOf_run_of_absent service later closed rest
          rw [run_cons, first]
          refine ⟨?_, ?_⟩
          · exact Ledger.find?_eq_none.mpr rested.1
          · rw [rested.2, step]
            simp [answered]

/-- Exactly one answer: the first operation that addresses an issued value
settles it, and no other answer is given under its number. -/
theorem run_issued (before after : List Operation) {operation : Operation} {value : α}
    (issued : service.issue? operation = some value) :
    let number := (before.filterMap service.issue?).length + 1
    let book := empty.run service (before ++ operation :: after)
    book.ledger.find? number =
        (if (firstAnswer service (number, value) after).isSome then none else some value) ∧
      book.answersOf number =
        (firstAnswer service (number, value) after).toList.map (Prod.mk (number, value)) := by
  have counted : ((empty : Book α β).run service before).ledger.issued =
      (before.filterMap service.issue?).length := by
    rw [issued_run]
    exact Nat.zero_add _
  have unopened : ∀ other,
      ((before.filterMap service.issue?).length + 1, other) ∉
        ((empty : Book α β).run service before).ledger.entries := by
    intro other listed
    have bound := Ledger.bounded _ _ listed
    rw [counted] at bound
    exact Nat.not_succ_le_self _ bound
  have unanswered :
      ((empty : Book α β).run service before).answersOf
        ((before.filterMap service.issue?).length + 1) = [] := by
    refine List.filter_eq_nil_iff.mpr ?_
    intro answer given
    have bound := Book.answered _ answer given
    rw [counted] at bound
    simp only [beq_iff_eq]
    omega
  have opened :
      ((before.filterMap service.issue?).length + 1, value) ∈
        (((empty : Book α β).run service before).apply service operation).ledger.entries := by
    simp [apply, applyLedger, issued, counted]
  have settled := run_of_mem service opened after
  have step := answersOf_apply service ((empty : Book α β).run service before) operation
    ((before.filterMap service.issue?).length + 1)
  rw [unanswered, Ledger.filter_of_absent unopened, List.filterMap_nil] at step
  simp only [run_append, run_cons]
  rw [step] at settled
  simpa using settled

/-- Every issued number was issued by some operation. -/
theorem exists_issue {operations : List Operation} {number : Nat} (positive : 0 < number)
    (issued : number ≤ (operations.filterMap service.issue?).length) :
    ∃ before operation value after, operations = before ++ operation :: after ∧
      service.issue? operation = some value ∧
      number = (before.filterMap service.issue?).length + 1 := by
  induction operations generalizing number with
  | nil => exact absurd issued (Nat.not_le_of_gt positive)
  | cons operation rest ih =>
      cases first : service.issue? operation with
      | none =>
          rw [List.filterMap_cons_none first] at issued
          obtain ⟨before, issuer, value, after, rfl, issues, counted⟩ := ih positive issued
          refine ⟨operation :: before, issuer, value, after, rfl, issues, ?_⟩
          rw [List.filterMap_cons_none first, counted]
      | some value =>
          by_cases earliest : number = 1
          · exact ⟨[], operation, value, rest, rfl, first, earliest⟩
          · have smaller : number - 1 ≤ (rest.filterMap service.issue?).length := by
              rw [List.filterMap_cons_some first, List.length_cons] at issued
              omega
            obtain ⟨before, issuer, value, after, rfl, issues, counted⟩ :=
              ih (by omega) smaller
            refine ⟨operation :: before, issuer, value, after, rfl, issues, ?_⟩
            rw [List.filterMap_cons_some first, List.length_cons]
            omega

end Book

end UnixDomainStream.Library
