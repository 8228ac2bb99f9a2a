/-
Merging any number of sequences by their heads. A reader is the next element of a sequence and the
elements after it; each step takes the head that a comparison picks and drops a reader that has come
to its end. Whatever the comparison, nothing is lost and nothing is added.
-/
import Mathlib.Data.List.Basic

namespace Lib

namespace Merge

variable {α : Type}

/-- A sequence that is not empty: its head and the rest. -/
abbrev Reader (α : Type) := α × List α

/-- Adds a sequence, unless it is empty. -/
def addReader (readers : List (Reader α)) : List α → List (Reader α)
  | [] => readers
  | a :: l => readers ++ [(a, l)]

/-- Runs over the readers with the one picked so far; returns it between those before and after it. -/
def select (first : α → α → Bool) (before : List (Reader α)) (t : Reader α) (between : List (Reader α)) :
    List (Reader α) → List (Reader α) × Reader α × List (Reader α)
  | [] => (before, t, between)
  | i :: rest =>
    if first t.1 i.1 then select first before t (between ++ [i]) rest
    else select first (before ++ t :: between) i [] rest

/-- Takes one element. -/
def next (first : α → α → Bool) : List (Reader α) → Option (α × List (Reader α))
  | [] => none
  | t :: rest =>
    let (before, t, after) := select first [] t [] rest
    some (t.1, addReader before t.2 ++ after)

/-- Takes elements until there are none; also returns the readers that are left. -/
def run (first : α → α → Bool) : Nat → List (Reader α) → List α × List (Reader α)
  | 0, readers => ([], readers)
  | fuel + 1, readers =>
    match next first readers with
    | none => ([], readers)
    | some (a, readers) => (a :: (run first fuel readers).1, (run first fuel readers).2)

/-- All elements that are still to be read. -/
def contents (readers : List (Reader α)) : List α := readers.flatMap fun r => r.1 :: r.2

@[simp] theorem contents_append (a b : List (Reader α)) : contents (a ++ b) = contents a ++ contents b := by
  simp [contents]

@[simp] theorem contents_cons (r : Reader α) (l : List (Reader α)) : contents (r :: l) = r.1 :: r.2 ++ contents l := by
  simp [contents]

@[simp] theorem contents_nil : contents ([] : List (Reader α)) = [] := rfl

@[simp] theorem contents_addReader (readers : List (Reader α)) (l : List α) :
    contents (addReader readers l) = contents readers ++ l := by
  cases l with
  | nil => simp [addReader]
  | cons a l => simp [addReader]

theorem contents_foldl_addReader : ∀ (ls : List (List α)) (readers : List (Reader α)),
    contents (ls.foldl addReader readers) = contents readers ++ ls.flatten
  | [], readers => by simp
  | l :: ls, readers => by
    rw [List.foldl_cons, contents_foldl_addReader ls, contents_addReader]
    simp

variable {first : α → α → Bool}

/-- Selecting only splits the list of readers. -/
theorem select_split : ∀ (rest before : List (Reader α)) (t : Reader α) (between : List (Reader α)),
    (select first before t between rest).1 ++ (select first before t between rest).2.1 ::
      (select first before t between rest).2.2 = before ++ t :: between ++ rest
  | [], before, t, between => by simp [select]
  | i :: rest, before, t, between => by
    unfold select
    split
    · rw [select_split rest]; simp
    · rw [select_split rest]; simp

theorem next_perm {readers readers' : List (Reader α)} {a : α} (h : next first readers = some (a, readers')) :
    (a :: contents readers').Perm (contents readers) := by
  cases readers with
  | nil => cases h
  | cons t rest =>
    have hsplit := @select_split α first rest [] t []
    rcases hsel : select first [] t [] rest with ⟨before, u, after⟩
    rw [next, hsel] at h
    rw [hsel] at hsplit
    cases h
    have hrs : contents (t :: rest) = contents before ++ (u.1 :: u.2 ++ contents after) := by
      rw [← contents_cons, ← contents_append]
      exact congrArg contents hsplit.symm
    rw [hrs, contents_append, contents_addReader, List.append_assoc]
    exact List.perm_middle.symm

theorem next_none {readers : List (Reader α)} (h : next first readers = none) : readers = [] := by
  cases readers with
  | nil => rfl
  | cons t rest => cases h

/-- A run with enough fuel reads everything, and nothing else. -/
theorem run_spec : ∀ (fuel : Nat) (readers : List (Reader α)), (contents readers).length ≤ fuel →
    (run first fuel readers).2 = [] ∧ (run first fuel readers).1.Perm (contents readers)
  | 0, readers, h => by
    cases readers with
    | nil => exact ⟨rfl, List.Perm.refl _⟩
    | cons r rest => rw [contents_cons] at h; simp at h
  | fuel + 1, readers, h => by
    unfold run
    cases hn : next first readers with
    | none =>
      rw [next_none hn]
      exact ⟨rfl, List.Perm.refl _⟩
    | some r =>
      obtain ⟨a, readers'⟩ := r
      have hperm := next_perm hn
      have hlen : (contents readers').length ≤ fuel := by
        have := hperm.length_eq
        simp only [List.length_cons] at this
        omega
      obtain ⟨h1, h2⟩ := run_spec fuel readers' hlen
      exact ⟨h1, (h2.cons a).trans hperm⟩

end Merge

end Lib
