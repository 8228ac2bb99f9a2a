/-
The TLogs of a snapshot or of the current stretch of a volume (TLog.cpp): the list operations
that mark, replace, cut and search them. `out` parameters are vectors the code appends to.
-/
import VolumeDriver.Types
import Mathlib.Tactic

namespace VolumeDriver

open Lib

/-- A TLog as the snapshots file records it. -/
structure TLog where
  id : TLogId
  written_to_backend : Bool := false
  size : Nat := 0
  deriving DecidableEq, Repr

/-- The name of the TLog's object on the backend. -/
def TLog.getName (t : TLog) : String := "tlog_" ++ toString t.id

/-- TLogs, oldest first. -/
abbrev TLogs := List TLog

namespace TLogs

variable (l : TLogs)

/-- The longest run of written TLogs at the front. -/
def tlogsOnBackend : TLogs := l.takeWhile (·.written_to_backend)

/-- Appends the ids, oldest first. -/
def getOrderedTLogIds (out : List TLogId) : List TLogId := out ++ l.map (·.id)

/-- Appends the ids, newest first. -/
def getReverseOrderedTLogIds (out : List TLogId) : List TLogId := out ++ l.reverse.map (·.id)

/-- The TLog is in the list. -/
def tlogReferenced (tlog_id : TLogId) : Bool := l.any (·.id == tlog_id)

/-- All TLogs are on the backend. -/
def writtenToBackend : Bool := l.all (·.written_to_backend)

/-- Replaces all TLogs, provided they still are the ones the replacement was computed from. -/
def replace (l : TLogs) (ins : List TLogId) (out : List TLog) : Except Exn TLogs :=
  if ins.length ≠ l.length then .error (.ioException "In tlogs not equal to out ones")
  else if l.map (·.id) ≠ ins then .error (.ioException "In tlogs not equal to out ones")
  else if out.length = 0 then .error (.ioException "Result of a scrub cannot be empty, refusing replace")
  else .ok out

/-- Cuts the list after a TLog, whose size may be corrected; `none` if it is not there. -/
def snip : TLogs → TLogId → Option Nat → Option TLogs
  | [], _, _ => none
  | t :: l, tlog_id, backend_size =>
    if t.id = tlog_id then some [{ t with size := backend_size.getD t.size }]
    else (snip l tlog_id backend_size).map (t :: ·)

/-- Marks a TLog; a call that meets an unwritten TLog on its way throws. The list is returned
also then, as the code mutates it in place. -/
def setTLogWrittenToBackend : TLogs → TLogId → Bool → TLogs × Except Exn Bool
  | [], _, _ => ([], .ok false)
  | t :: l, tid, on_backend =>
    if t.id = tid then ({ t with written_to_backend := on_backend } :: l, .ok true)
    else if on_backend = true ∧ t.written_to_backend = false then
      (t :: l, .error (.ioException
        ("TLog " ++ t.getName ++ ": unexpected state 'written_to_backend == false'.")))
    else ((t :: (setTLogWrittenToBackend l tid on_backend).1), (setTLogWrittenToBackend l tid on_backend).2)

/-- A `tribool`: indeterminate if the TLog is not there. -/
def isTLogWrittenToBackend (tid : TLogId) : Option Bool :=
  (l.find? (·.id = tid)).map (·.written_to_backend)

/-- The loop of `getReversedTLogsOnBackendSinceLastCork`, over the reversed list. -/
def reversedSinceLastCork (cork : Option UUID) : Bool → List TLog → List TLogId → Except Exn (Bool × List TLogId)
  | _, [], reverse_vec => .ok (false, reverse_vec)
  | seen_written_to_backend, t :: l, reverse_vec =>
    if cork = some t.id then
      if t.written_to_backend = false then .error (.corkNotOnBackend t.getName)
      else .ok (true, reverse_vec)
    else if t.written_to_backend then reversedSinceLastCork cork true l (reverse_vec ++ [t.id])
    else do
      VERIFY (seen_written_to_backend = false) "not seen_written_to_backend"
      reversedSinceLastCork cork seen_written_to_backend l reverse_vec

/-- Collects, newest first, the written TLogs since `cork`; says whether `cork` was seen. -/
def getReversedTLogsOnBackendSinceLastCork (cork : Option UUID) (reverse_vec : List TLogId) :
    Except Exn (Bool × List TLogId) :=
  reversedSinceLastCork cork false l.reverse reverse_vec

/-! ## Marking -/

/-- No written TLog follows an unwritten one. -/
def WrittenFirst : Prop :=
  l.Pairwise fun a b => b.written_to_backend = true → a.written_to_backend = true

theorem setTLogWrittenToBackend_ids : ∀ (l : TLogs) (tid : TLogId) (b : Bool),
    (setTLogWrittenToBackend l tid b).1.map (·.id) = l.map (·.id)
  | [], _, _ => rfl
  | t :: l, tid, b => by
    unfold setTLogWrittenToBackend
    split
    · rfl
    · split
      · rfl
      · simp [setTLogWrittenToBackend_ids l tid b]

/-- Marking in two lists in turn: the second is looked at only when the first does not have it. -/
theorem setTLogWrittenToBackend_append : ∀ (l l₂ : TLogs) (tid : TLogId) (b : Bool),
    setTLogWrittenToBackend (l ++ l₂) tid b =
      match setTLogWrittenToBackend l tid b with
      | (l', .error e) => (l' ++ l₂, .error e)
      | (l', .ok true) => (l' ++ l₂, .ok true)
      | (l', .ok false) => (l' ++ (setTLogWrittenToBackend l₂ tid b).1, (setTLogWrittenToBackend l₂ tid b).2)
  | [], l₂, tid, b => rfl
  | t :: l, l₂, tid, b => by
    simp only [List.cons_append, setTLogWrittenToBackend]
    split
    · rfl
    · split
      · rfl
      · rw [setTLogWrittenToBackend_append l l₂ tid b]
        rcases setTLogWrittenToBackend l tid b with ⟨l', _ | _ | _⟩ <;> rfl

theorem setTLogWrittenToBackend_same : ∀ (l : TLogs) (tid : TLogId) (b : Bool),
    (setTLogWrittenToBackend l tid b).2 ≠ .ok true → (setTLogWrittenToBackend l tid b).1 = l
  | [], _, _, _ => rfl
  | t :: l, tid, b, h => by
    unfold setTLogWrittenToBackend at h ⊢
    split at h
    · exact absurd rfl h
    · split at h
      · rename_i hid hw; rw [if_neg hid, if_pos hw]
      · rename_i hid hw
        rw [if_neg hid, if_neg hw, setTLogWrittenToBackend_same l tid b h]

/-- A call that finds the TLog has only written TLogs before it, and marks it. -/
theorem setTLogWrittenToBackend_true : ∀ {l : TLogs} {tid : TLogId}, (setTLogWrittenToBackend l tid true).2 = .ok true →
      ∃ l₁ t l₂, l = l₁ ++ t :: l₂ ∧ t.id = tid ∧ (∀ x ∈ l₁, x.written_to_backend = true) ∧
        (setTLogWrittenToBackend l tid true).1 = l₁ ++ { t with written_to_backend := true } :: l₂
  | [], _, h => by cases h
  | t :: l, tid, h => by
    unfold setTLogWrittenToBackend at h ⊢
    split at h
    · rename_i hid
      rw [if_pos hid]
      exact ⟨[], t, l, rfl, hid, by simp, rfl⟩
    · split at h
      · cases h
      · rename_i hid hw
        rw [if_neg hid, if_neg hw]
        obtain ⟨l₁, t', l₂, rfl, h1, h2, h3⟩ := setTLogWrittenToBackend_true h
        refine ⟨t :: l₁, t', l₂, rfl, h1, fun x hx => ?_, by rw [h3]; rfl⟩
        rcases List.mem_cons.1 hx with rfl | hx
        · simpa using hw
        · exact h2 x hx

/-! ## Cutting -/

theorem snip_some : ∀ {l : TLogs} {tid : TLogId} {sz : Option Nat} {l' : TLogs}, snip l tid sz = some l' →
    ∃ l₁ t l₂, l = l₁ ++ t :: l₂ ∧ t.id = tid ∧ tid ∉ l₁.map (·.id) ∧ l' = l₁ ++ [{ t with size := sz.getD t.size }]
  | [], _, _, _, h => by cases h
  | t :: l, tid, sz, l', h => by
    unfold snip at h
    split at h
    · rename_i hid
      cases h
      exact ⟨[], t, l, rfl, hid, by simp, rfl⟩
    · rename_i hid
      rw [Option.map_eq_some_iff] at h
      obtain ⟨l'', hs, rfl⟩ := h
      obtain ⟨l₁, t', l₂, rfl, h1, h2, rfl⟩ := snip_some hs
      refine ⟨t :: l₁, t', l₂, rfl, h1, ?_, rfl⟩
      simp only [List.map_cons, List.mem_cons, not_or]
      exact ⟨fun h => hid h.symm, h2⟩

theorem snip_none : ∀ {l : TLogs} {tid : TLogId} {sz : Option Nat}, snip l tid sz = none → tid ∉ l.map (·.id)
  | [], _, _, _ => by simp
  | t :: l, tid, sz, h => by
    unfold snip at h
    split at h
    · cases h
    · rename_i hid
      rw [Option.map_eq_none_iff] at h
      simp only [List.map_cons, List.mem_cons, not_or]
      exact ⟨fun h => hid h.symm, snip_none h⟩

theorem replace_ok {l : TLogs} {ins : List TLogId} {out l' : List TLog} (h : replace l ins out = .ok l') :
    l' = out ∧ out ≠ [] ∧ l.map (·.id) = ins := by
  unfold replace at h
  split at h
  · cases h
  · split at h
    · cases h
    · split at h
      · cases h
      · rename_i h1 h2 h3
        cases h
        exact ⟨rfl, fun he => h3 (by rw [he]; rfl), by simpa using h2⟩

end TLogs

end VolumeDriver
