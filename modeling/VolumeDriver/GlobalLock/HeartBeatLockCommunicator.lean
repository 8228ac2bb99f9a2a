/-
Contenders for a global lock. Each `HeartBeatLockCommunicator` reads the stored lock and writes its own
in its place, on condition that the stored one still has the tag that it knows. The reads and the writes
of any number of contenders interleave; a write may be refused, may get lost, or may be carried out
without the contender being told.
-/
import VolumeDriver.Lib.Steps
import Mathlib.Logic.Function.Basic
import Mathlib.Tactic

namespace VolumeDriver.GlobalLock

open Lib Function List

/-! ## Locks, tags and the store -/

/-- `HeartBeatLock`. The uuid is the contender's number, so that locks of distinct contenders differ. -/
structure HeartBeatLock where
  uuid : Nat
  has_lock : Bool := true
  counter : Nat := 0
  deriving DecidableEq, Repr

/-- `operator++`. -/
def HeartBeatLock.next (l : HeartBeatLock) : HeartBeatLock := { l with counter := (l.counter + 1) % 2 ^ 64 }

/-- What becomes of a write: the store decides and answers; the request does not reach the store; or the
store decides and the answer is an exception. -/
inductive Fate
  | answered | lost | unanswered
  deriving DecidableEq, Repr

/-- What `write` tells its caller: it returns, throws `LockHasChanged`, or throws something else. -/
inductive Report
  | written | lockHasChanged | threw
  deriving DecidableEq, Repr

/-- Where a contender is: outside of a call, in `tryToAcquireLock` after its read, and in `refreshLock`
before a write or a read, with `count` attempts begun. -/
inductive Phase
  | idle
  | acquiring
  | updating (count : Nat)
  | reading (count : Nat)
  deriving DecidableEq, Repr

/-- What the calls so far have told the user: none was made; the lock was acquired; it was not acquired,
is lost or was freed. -/
inductive Standing
  | fresh | holding | over
  deriving DecidableEq, Repr

/-- A `HeartBeatLockCommunicator`. `result` is what the last call returned. The rest is not in the
program: `writes` counts the writes of the last `refreshLock`; `superseded` says that another contender
has acquired the lock after this one did last, and `since` that somebody has refreshed or freed it since
this one last read it in `tryToAcquireLock`. -/
structure Contender (Tag : Type) where
  lock_ : HeartBeatLock
  tag_ : Option Tag := none
  phase : Phase := .idle
  standing : Standing := .fresh
  result : Option Bool := none
  writes : Nat := 0
  acquired : Bool := false
  superseded : Bool := false
  since : Bool := false
  deriving DecidableEq, Repr

open Contender

/-- The stored lock, all locks that were ever stored (the newest first) and the contenders. -/
structure State (Tag : Type) where
  store : Option HeartBeatLock := none
  history : List HeartBeatLock := []
  contender : Nat → Contender Tag := fun i => { lock_ := { uuid := i } }

open State

variable {Tag : Type} (tag : HeartBeatLock → Tag) (max_update_retries : Nat)

section
variable [DecidableEq Tag]

variable (s : State Tag)

/-- A write goes through if it reaches the store and the stored lock has the given tag; without a tag, if
there is no lock. -/
def State.applies (t : Option Tag) (fate : Fate) : Bool :=
  fate != .lost && s.store.map tag == t

/-- What the writer is told. -/
def State.report (t : Option Tag) (fate : Fate) : Report :=
  match fate with
  | .answered => if s.applies tag t fate then .written else .lockHasChanged
  | _ => .threw

/-- The store after a write. -/
def State.write (l : HeartBeatLock) (t : Option Tag) (fate : Fate) : State Tag :=
  if s.applies tag t fate then { s with store := some l, history := l :: s.history } else s

/-- Replaces one contender, and marks the others. -/
def State.put (i : Nat) (c : Contender Tag) (mark : Contender Tag → Contender Tag) : State Tag :=
  { s with contender := fun j => if j = i then c else mark (s.contender j) }

variable (c : Contender Tag)

/-- Another contender has acquired the lock. -/
def Contender.supersede : Contender Tag := { c with superseded := true }

/-- The lock was refreshed or freed. -/
def Contender.refreshed : Contender Tag := { c with since := true }

/-! ## The calls -/

/-- The end of `tryToAcquireLock` and `putLock`: the write on condition of the tag `t`. -/
def State.take (i : Nat) (t : Option Tag) (fate : Fate) : State Tag :=
  let c := s.contender i
  match s.report tag t fate with
  | .written =>
    (s.write tag c.lock_ t fate).put i
      { c with tag_ := some (tag c.lock_), phase := .idle, standing := .holding, result := some true, acquired := true,
               superseded := false } supersede
  | _ => (s.write tag c.lock_ t fate).put i { c with phase := .idle, standing := .over, result := some false } id

/-- `refreshLock` gives the lock up. -/
def Contender.lose : Contender Tag :=
  { c with phase := .idle, standing := .over, result := some false }

/-- The loop of `refreshLock`. -/
def Contender.again (count : Nat) : Contender Tag :=
  if count < max_update_retries then { c with phase := .updating count } else c.lose

/-- After a write of `refreshLock`: it returns, throws, or goes on to read the lock. -/
def Contender.updated (count : Nat) (r : Report) (late : Bool) : Contender Tag :=
  match r with
  | .written => { c with tag_ := some (tag c.lock_), phase := .idle, result := some true, writes := c.writes + 1 }
  | .lockHasChanged => { c with phase := .reading (count + 1), writes := c.writes + 1 }
  | .threw =>
    if late then { c with phase := .idle, writes := c.writes + 1 }
    else { c with phase := .reading (count + 1), writes := c.writes + 1 }

/-- The contenders' calls, cut at their accesses to the store. `ok` says whether a read succeeds, `late`
whether `max_wait_time` would be exceeded. -/
inductive Action
  | tryToAcquireLock (i : Nat) (ok : Bool)
  | acquire (i : Nat) (fate : Fate)
  | putLock (i : Nat) (fate : Fate)
  | refreshLock (i : Nat)
  | update (i : Nat) (fate : Fate) (late : Bool)
  | reread (i : Nat) (ok : Bool)
  | freeLock (i : Nat) (fate : Fate)
  deriving DecidableEq, Repr

/-- The marks that a write of `refreshLock` or `freeLock` leaves on the others. -/
def State.marks (t : Option Tag) (fate : Fate) : Contender Tag → Contender Tag :=
  if s.applies tag t fate then refreshed else id

/-- One access. A contender makes one call at a time, and refreshes or frees the lock only if it knows a
tag. -/
def step (s : State Tag) : Action → State Tag
  | .tryToAcquireLock i ok =>
    let c := s.contender i
    match c.phase with
    | .idle =>
      match ok, s.store with
      | true, some l =>
        s.put i { c with tag_ := some (tag l), phase := .acquiring, result := none, since := false } id
      -- no lock, or none that can be read
      | _, _ => s.put i { c with standing := .over, result := some false } id
    | _ => s
  | .acquire i fate =>
    match (s.contender i).phase with
    | .acquiring => s.take tag i (s.contender i).tag_ fate
    | _ => s
  | .putLock i fate =>
    match (s.contender i).phase with
    | .idle => s.take tag i none fate
    | _ => s
  | .refreshLock i =>
    let c := s.contender i
    match c.phase, c.tag_ with
    | .idle, some _ =>
      s.put i (again max_update_retries { c with lock_ := c.lock_.next, result := none, writes := 0 } 0) id
    | _, _ => s
  | .update i fate late =>
    let c := s.contender i
    match c.phase with
    | .updating count =>
      (s.write tag c.lock_ c.tag_ fate).put i (c.updated tag count (s.report tag c.tag_ fate) late)
        (s.marks tag c.tag_ fate)
    | _ => s
  | .reread i ok =>
    let c := s.contender i
    match c.phase with
    | .reading count =>
      match ok, s.store with
      | true, some l =>
        -- `getLock` has taken the tag over before the owners are compared
        let c := { c with tag_ := some (tag l) }
        s.put i (if l.uuid ≠ c.lock_.uuid then c.lose else c.again max_update_retries count) id
      | _, _ => s.put i (c.again max_update_retries count) id
    | _ => s
  | .freeLock i fate =>
    let c := s.contender i
    match c.phase, c.tag_ with
    | .idle, some _ =>
      let c := { c with lock_ := { c.lock_ with has_lock := false }, standing := .over, result := none }
      (s.write tag c.lock_ c.tag_ fate).put i
        (if s.report tag c.tag_ fate = .written then { c with tag_ := some (tag c.lock_) } else c)
        (s.marks tag c.tag_ fate)
    | _, _ => s

/-! ## Taking over, and when it is safe -/

/-- What holds of one access. A contender whose lock was taken over leaves the store alone in `refreshLock`
and `freeLock` and is not told that it has refreshed the lock; a `refreshLock` of it that completes its read
returns false; a take-over succeeds only if nobody has refreshed or freed the lock since it was read; and
the writes of `refreshLock` are bounded. -/
structure Exclusive (s : State Tag) (a : Action) : Prop where
  kept : ∀ i, (∃ fate late, a = .update i fate late) ∨ (∃ fate, a = .freeLock i fate) →
    (s.contender i).acquired = true → (s.contender i).superseded = true →
    (step tag max_update_retries s a).store = s.store ∧
      ((s.contender i).result ≠ some true → ((step tag max_update_retries s a).contender i).result ≠ some true)
  lost : ∀ i, a = .reread i true → (∃ count, (s.contender i).phase = .reading count) → s.store.isSome →
    (s.contender i).acquired = true → (s.contender i).superseded = true →
    ((step tag max_update_retries s a).contender i).phase = .idle ∧
      ((step tag max_update_retries s a).contender i).result = some false
  taken : ∀ i fate, a = .acquire i fate → (s.contender i).phase = .acquiring →
    ((step tag max_update_retries s a).contender i).result = some true → (s.contender i).since = false
  bounded : ∀ i, (s.contender i).writes ≤ max_update_retries

/-- A communicator is used as `HeartBeat` does: it is asked once to acquire the lock; if it has, the lock
is refreshed as long as `refreshLock` does not return false, and freed at most once, as the last call. The
counter does not wrap, and no attempt of `refreshLock` writes the lock that is stored already (an earlier
attempt, which was reported as an exception, has stored it). -/
def State.careful : Action → Bool
  | .tryToAcquireLock i _ | .putLock i _ => (s.contender i).standing = .fresh
  | .refreshLock i => (s.contender i).standing = .holding && decide ((s.contender i).lock_.counter + 1 < 2 ^ 64)
  | .update i fate _ => !s.applies tag (s.contender i).tag_ fate || s.store != some (s.contender i).lock_
  | .freeLock i _ => (s.contender i).standing = .holding
  | _ => true

/-- The access is one that `HeartBeat` makes. -/
def Careful (s : State Tag) (a : Action) : Prop := s.careful tag a = true

instance (s : State Tag) (a : Action) : Decidable (Careful tag s a) := inferInstanceAs (Decidable (_ = true))

end

/-! ## The invariant -/

/-- The locks of one contender grow in rank from write to write. -/
def HeartBeatLock.rank (l : HeartBeatLock) : Nat := 2 * l.counter + if l.has_lock then 0 else 1

/-- One contender against the store: what its tag stands for, by its standing and phase. -/
structure Fine (store : Option HeartBeatLock) (history : List HeartBeatLock) (i : Nat) (c : Contender Tag) : Prop where
  owner : c.lock_.uuid = i
  lock : c.standing ≠ .over → c.lock_.has_lock = true
  fresh : c.standing = .fresh → ∀ v ∈ history, v.uuid ≠ i
  acquiring : c.phase = .acquiring → c.standing = .fresh ∧
    ∃ w ∈ history, c.tag_ = some (tag w) ∧ (c.since = true → store ≠ some w)
  updating : ∀ count, c.phase = .updating count → c.standing = .holding ∧ c.writes = count ∧ count < max_update_retries
  reading : ∀ count, c.phase = .reading count → c.standing = .holding ∧ c.writes = count
  holding : c.standing = .holding → ∃ w ∈ history, w.uuid = i ∧ c.tag_ = some (tag w)
  superseded : c.standing = .holding → c.superseded = true → ∀ v, store = some v → v.uuid ≠ i
  writes : c.writes ≤ max_update_retries

/-- The locks of one contender are stored in the order of their rank, and none outranks the one that the
contender has now. -/
structure Inv (s : State Tag) : Prop where
  store : s.store = s.history.head?
  sorted : s.history.Pairwise fun new old => new.uuid = old.uuid → old.rank < new.rank
  below : ∀ v ∈ s.history, v.rank ≤ (s.contender v.uuid).lock_.rank
  fine : ∀ i, Fine tag max_update_retries s.store s.history i (s.contender i)

variable {l : HeartBeatLock}

theorem HeartBeatLock.rank_next (h : l.counter + 1 < 2 ^ 64) : l.rank < l.next.rank := by
  unfold HeartBeatLock.rank HeartBeatLock.next
  dsimp only
  omega

/-- The marks that the accesses of others leave. -/
def Marking (mark : Contender Tag → Contender Tag) : Prop :=
  ∀ c, ∃ superseded since, mark c = { c with superseded := superseded, since := since }

theorem marking_id : Marking (id : Contender Tag → Contender Tag) := fun c => ⟨c.superseded, c.since, rfl⟩

theorem marking_supersede : Marking (supersede : Contender Tag → Contender Tag) := fun c => ⟨true, c.since, rfl⟩

theorem marking_refreshed : Marking (refreshed : Contender Tag → Contender Tag) := fun c => ⟨c.superseded, true, rfl⟩

section
variable {tag} {max_update_retries} {s : State Tag} {i : Nat} {c : Contender Tag}

variable {history : List HeartBeatLock} {store : Option HeartBeatLock}

/-- A new lock of another contender leaves a contender fine: its tag is no longer that of the stored lock,
and the stored lock is not its own. -/
theorem Fine.grow (h : Fine tag max_update_retries store history i c) (hl : l.uuid ≠ i)
    (hnew : l ∉ history) (superseded since : Bool) :
    Fine tag max_update_retries (some l) (l :: history) i { c with superseded := superseded, since := since } where
  __ := h
  fresh hf v hv := by
    rcases mem_cons.1 hv with rfl | hv
    · exact hl
    · exact h.fresh hf v hv
  acquiring hp := by
    obtain ⟨hf, w, hw, htag, _⟩ := h.acquiring hp
    refine ⟨hf, w, mem_cons_of_mem _ hw, htag, ?_⟩
    rintro _ ⟨⟩
    exact hnew hw
  holding hs := by
    obtain ⟨w, hw, hown, htag⟩ := h.holding hs
    exact ⟨w, mem_cons_of_mem _ hw, hown, htag⟩
  superseded _ _ v hv := by
    cases hv
    exact hl

namespace Inv

variable (h : Inv tag max_update_retries s)

include h

theorem proceed (hc : Fine tag max_update_retries s.store s.history i c)
    (hrank : (s.contender i).lock_.rank ≤ c.lock_.rank) : Inv tag max_update_retries (s.put i c id) where
  __ := h
  below v hv := by
    show v.rank ≤ (if v.uuid = i then c else s.contender v.uuid).lock_.rank
    have hle := h.below v hv
    split
    · next heq =>
      subst heq
      omega
    · exact hle
  fine j := by
    show Fine _ _ _ _ j (if j = i then c else s.contender j)
    split
    · next heq =>
      subst heq
      exact hc
    · exact h.fine j

theorem store_new {mark : Contender Tag → Contender Tag} (hlock : c.lock_ = l) (hmark : Marking mark)
    (hnew : ∀ v ∈ s.history, v.uuid = i → v.rank < l.rank)
    (hc : Fine tag max_update_retries (some l) (l :: s.history) i c) :
    Inv tag max_update_retries (put { s with store := some l, history := l :: s.history } i c mark) := by
  subst hlock
  have hown := hc.owner
  constructor
  · rfl
  · exact pairwise_cons.2 ⟨fun v hv heq => hnew v hv (heq.symm.trans hown), h.sorted⟩
  · intro v hv
    show v.rank ≤ (if v.uuid = i then c else mark (s.contender v.uuid)).lock_.rank
    split
    · next heq =>
      rcases mem_cons.1 hv with rfl | hv
      · exact Nat.le_refl _
      · exact Nat.le_of_lt (hnew v hv heq)
    · next hne =>
      rcases mem_cons.1 hv with rfl | hv
      · exact absurd hown hne
      · obtain ⟨a, b, heq⟩ := hmark (s.contender v.uuid)
        rw [heq]
        exact h.below v hv
  · intro j
    show Fine _ _ _ _ j (if j = i then c else mark (s.contender j))
    split
    · next heq =>
      subst heq
      exact hc
    · next hne =>
      obtain ⟨a, b, heq⟩ := hmark (s.contender j)
      rw [heq]
      refine (h.fine j).grow (fun hj => hne (hj.symm.trans hown)) (fun hmem => ?_) a b
      exact absurd (hnew _ hmem hown) (Nat.lt_irrefl _)

/-- The stored lock of a contender outranks its earlier ones, so that a lock of the same contender with at
least that rank is new or is the stored one. -/
theorem outranks {w : HeartBeatLock} (hstore : s.store = some w) (hw : w.uuid = i) (hl : l.uuid = i)
    (hle : w.rank ≤ l.rank) (hne : w ≠ l) : ∀ v ∈ s.history, v.uuid = i → v.rank < l.rank := by
  have hlt : w.rank < l.rank := by
    refine Nat.lt_of_le_of_ne hle fun heq => hne ?_
    obtain ⟨wu, wh, wc⟩ := w
    obtain ⟨lu, lh, lc⟩ := l
    simp only [HeartBeatLock.rank] at heq hw hl
    cases wh <;> cases lh <;> simp at heq ⊢ <;> omega
  obtain ⟨tail, htail⟩ : ∃ tail, s.history = w :: tail := head?_eq_some_iff.1 (h.store.symm.trans hstore)
  intro v hv hown
  rw [htail] at hv
  rcases mem_cons.1 hv with rfl | hv
  · exact hlt
  · have hsorted := h.sorted
    rw [htail] at hsorted
    exact Nat.lt_trans ((pairwise_cons.1 hsorted).1 v hv (hw.trans hown.symm)) hlt

end Inv

/-! ## The steps -/

theorem Fine.leave (h : Fine tag max_update_retries store history i c) (t : Option Tag) (result : Option Bool) :
    Fine tag max_update_retries store history i
      { c with tag_ := t, phase := .idle, standing := .over, result := result } := by
  constructor <;> simp [h.owner, h.writes]

theorem again_lock (c : Contender Tag) (count : Nat) : (c.again max_update_retries count).lock_ = c.lock_ := by
  unfold again
  split <;> rfl

theorem Fine.again (h : Fine tag max_update_retries store history i c) {count : Nat}
    (hs : c.standing = .holding) (hw : c.writes = count) :
    Fine tag max_update_retries store history i (c.again max_update_retries count) := by
  unfold Contender.again
  split
  · next hlt =>
    constructor
    case writes => exact h.writes
    all_goals simp_all [h.owner, h.lock, h.holding, h.superseded]
  · exact h.leave _ _

theorem Fine.updated {store history} {count : Nat} (hown : c.lock_.uuid = i) (hlock : c.lock_.has_lock = true)
    (hs : c.standing = .holding) (hw : c.writes = count) (hlt : count < max_update_retries)
    (hold : ∃ w ∈ history, w.uuid = i ∧ c.tag_ = some (tag w))
    (hsup : c.superseded = true → ∀ v, store = some v → v.uuid ≠ i) {r : Report} (hr : r = .written → c.lock_ ∈ history)
    (late : Bool) : Fine tag max_update_retries store history i (c.updated tag count r late) := by
  unfold Contender.updated
  split
  · constructor
    case holding => exact fun _ => ⟨c.lock_, hr rfl, hown, rfl⟩
    all_goals simp_all
  · constructor
    case holding => exact fun _ => hold
    all_goals simp_all
  · split
    all_goals
      constructor
      case holding => exact fun _ => hold
      all_goals simp_all

variable [DecidableEq Tag]

theorem applies_iff {t : Option Tag} {fate : Fate} :
    s.applies tag t fate = true ↔ fate ≠ .lost ∧ s.store.map tag = t := by
  simp [applies]

theorem applies_of_written {t : Option Tag} {fate : Fate} (h : s.report tag t fate = .written) :
    s.applies tag t fate = true := by
  unfold report at h
  split at h
  · split at h
    · assumption
    · cases h
  · cases h

namespace Inv

variable (h : Inv tag max_update_retries s)

include h

theorem take (hfresh : (s.contender i).standing = .fresh) (t : Option Tag) (fate : Fate) :
    Inv tag max_update_retries (s.take tag i t fate) := by
  have hf := h.fine i
  have hnew : ∀ v ∈ s.history, v.uuid = i → v.rank < (s.contender i).lock_.rank :=
    fun v hv heq => absurd heq (hf.fresh hfresh v hv)
  have hlock := hf.lock (by simp [hfresh])
  unfold State.take State.write
  dsimp only
  by_cases happ : s.applies tag t fate = true
  · rw [if_pos happ]
    split
    · refine h.store_new rfl marking_supersede hnew ?_
      constructor <;> simp [hf.owner, hf.writes, hlock]
    · refine h.store_new rfl marking_id hnew ?_
      constructor <;> simp [hf.owner, hf.writes]
  · rw [if_neg happ]
    split
    · next hr => exact absurd (applies_of_written hr) happ
    · exact h.proceed (hf.leave _ _) (Nat.le_refl _)

variable {fate : Fate}

/-- If a write of the holder goes through, the stored lock is its own. -/
theorem own_of_applies (htag : Injective tag) (hs : (s.contender i).standing = .holding)
    (happ : s.applies tag (s.contender i).tag_ fate = true) : ∃ w, s.store = some w ∧ w.uuid = i := by
  obtain ⟨w, _, hown, hw⟩ := (h.fine i).holding hs
  have heq := (applies_iff.1 happ).2
  rw [hw] at heq
  obtain ⟨v, hv, hvw⟩ := Option.map_eq_some_iff.1 heq
  exact ⟨v, hv, (htag hvw).symm ▸ hown⟩

theorem not_superseded (htag : Injective tag) (hs : (s.contender i).standing = .holding)
    (happ : s.applies tag (s.contender i).tag_ fate = true) : (s.contender i).superseded = false := by
  obtain ⟨w, hw, hown⟩ := h.own_of_applies htag hs happ
  by_contra hsup
  exact (h.fine i).superseded hs (by simpa using hsup) w hw hown

theorem overwrite (htag : Injective tag) (hs : (s.contender i).standing = .holding)
    (hlock : c.lock_ = l) (hl : l.uuid = i) (hle : (s.contender i).lock_.rank ≤ l.rank)
    (hne : s.applies tag (s.contender i).tag_ fate = true → s.store ≠ some l)
    (hc : ∀ store history, (∀ v ∈ s.history, v ∈ history) →
      (s.applies tag (s.contender i).tag_ fate = true → l ∈ history) →
      ((s.contender i).superseded = true → ∀ v, store = some v → v.uuid ≠ i) →
      Fine tag max_update_retries store history i c) :
    Inv tag max_update_retries
      ((s.write tag l (s.contender i).tag_ fate).put i c (s.marks tag (s.contender i).tag_ fate)) := by
  unfold write marks
  by_cases happ : s.applies tag (s.contender i).tag_ fate = true
  · rw [if_pos happ, if_pos happ]
    obtain ⟨w, hw, hown⟩ := h.own_of_applies htag hs happ
    have hwl : w.rank ≤ l.rank := by
      have hmem : w ∈ s.history := mem_of_head? (h.store.symm.trans hw)
      exact Nat.le_trans (hown ▸ h.below w hmem) hle
    refine h.store_new hlock marking_refreshed (h.outranks hw hown hl hwl ?_) (hc _ _ ?_ ?_ ?_)
    · rintro rfl
      exact hne happ hw
    · exact fun v hv => mem_cons_of_mem _ hv
    · exact fun _ => mem_cons_self ..
    · rw [h.not_superseded htag hs happ]
      exact nofun
  · rw [if_neg happ, if_neg happ]
    exact h.proceed (hc _ _ (fun _ hv => hv) (fun hp => absurd hp happ) ((h.fine i).superseded hs)) (hlock ▸ hle)

theorem step (htag : Injective tag) {a : Action} (ha : Careful tag s a) :
    Inv tag max_update_retries (step tag max_update_retries s a) := by
  unfold Careful at ha
  unfold GlobalLock.step
  cases a with
  | tryToAcquireLock i ok =>
    have hfresh : (s.contender i).standing = .fresh := by simpa [careful] using ha
    have hf := h.fine i
    dsimp only
    split
    · next hp =>
      split
      · next l hl =>
        refine h.proceed ?_ (Nat.le_refl _)
        have hmem : l ∈ s.history := mem_of_head? (h.store.symm.trans hl)
        constructor
        case fresh => exact hf.fresh
        case acquiring => exact fun _ => ⟨hfresh, l, hmem, rfl, nofun⟩
        all_goals simp_all [hf.owner, hf.writes, hf.lock]
      · refine h.proceed ?_ (Nat.le_refl _)
        constructor <;> simp_all [hf.owner, hf.writes]
    · exact h
  | acquire i fate =>
    dsimp only
    split
    · next hp => exact h.take ((h.fine i).acquiring hp).1 _ _
    · exact h
  | putLock i fate =>
    dsimp only
    split
    · exact h.take (by simpa [careful] using ha) _ _
    · exact h
  | refreshLock i =>
    simp only [careful, Bool.and_eq_true, decide_eq_true_eq] at ha
    obtain ⟨hs, hcount⟩ := ha
    have hf := h.fine i
    dsimp only
    split
    · next hp _ =>
      refine h.proceed (Fine.again ?_ hs rfl) ?_
      · constructor
        case holding => exact hf.holding
        case superseded => exact hf.superseded
        all_goals simp_all [hf.owner, hf.lock, HeartBeatLock.next]
      · rw [again_lock]
        exact Nat.le_of_lt (HeartBeatLock.rank_next hcount)
    · exact h
  | update i fate late =>
    have hf := h.fine i
    dsimp only
    split
    · next count hp =>
      obtain ⟨hs, hw, hlt⟩ := hf.updating count hp
      refine h.overwrite htag hs ?_ hf.owner (Nat.le_refl _) (fun happ => ?_) fun store history hsub hmem hsup => ?_
      · unfold updated
        split
        · rfl
        · rfl
        · split <;> rfl
      · simpa [careful, happ] using ha
      · obtain ⟨w, hw', hown, htagw⟩ := hf.holding hs
        exact Fine.updated hf.owner (hf.lock (by simp [hs])) hs hw hlt ⟨w, hsub w hw', hown, htagw⟩ hsup
          (fun hr => hmem (applies_of_written hr)) late
    · exact h
  | reread i ok =>
    have hf := h.fine i
    dsimp only
    split
    · next count hp =>
      obtain ⟨hs, hw⟩ := hf.reading count hp
      split
      · next l hl =>
        have hmem : l ∈ s.history := mem_of_head? (h.store.symm.trans hl)
        split
        · exact h.proceed (hf.leave _ _) (Nat.le_refl _)
        · next heq =>
          -- the stored lock is the contender's own
          have hown : l.uuid = i := (not_not.1 heq).trans hf.owner
          refine h.proceed (Fine.again ?_ hs hw) ?_
          · constructor
            case holding => exact fun _ => ⟨l, hmem, hown, rfl⟩
            case superseded => exact hf.superseded
            case writes => exact hf.writes
            all_goals simp_all [hf.owner, hf.lock]
          · rw [again_lock]
      · refine h.proceed (hf.again hs hw) ?_
        rw [again_lock]
    · exact h
  | freeLock i fate =>
    have hs : (s.contender i).standing = .holding := by simpa [careful] using ha
    have hf := h.fine i
    have hlock := hf.lock (by simp [hs])
    dsimp only
    split
    · next hp _ =>
      have hrank : (s.contender i).lock_.rank <
          ({ (s.contender i).lock_ with has_lock := false } : HeartBeatLock).rank := by
        simp [HeartBeatLock.rank, hlock]
      refine h.overwrite htag hs ?_ hf.owner (Nat.le_of_lt hrank) (fun _ hstore => ?_) ?_
      · split <;> rfl
      · -- a freed lock outranks whatever the contender has stored
        have hmem := mem_of_head? (h.store.symm.trans hstore)
        have hown : ({ (s.contender i).lock_ with has_lock := false } : HeartBeatLock).uuid = i := hf.owner
        have hle := h.below _ hmem
        rw [hown] at hle
        exact Nat.not_lt.2 hle hrank
      · intro store history hsub hmem hsup
        split
        all_goals constructor <;> simp [hf.owner, hf.writes, hp]
    · exact h

theorem exclusive (htag : Injective tag) {a : Action} (ha : Careful tag s a) :
    Exclusive tag max_update_retries s a := by
  unfold Careful at ha
  constructor
  · intro i hi _ hsup
    rcases hi with ⟨fate, late, rfl⟩ | ⟨fate, rfl⟩
    · unfold GlobalLock.step
      dsimp only
      split
      · next count hp =>
        obtain ⟨hs, -, -⟩ := (h.fine i).updating count hp
        have hno : ¬s.applies tag (s.contender i).tag_ fate = true := fun happ => by
          simp [h.not_superseded htag hs happ] at hsup
        have hr : s.report tag (s.contender i).tag_ fate ≠ .written := fun hr => hno (applies_of_written hr)
        unfold State.write
        rw [if_neg hno]
        refine ⟨rfl, fun hres => ?_⟩
        show (if i = i then _ else _ : Contender Tag).result ≠ _
        rw [if_pos rfl]
        unfold updated
        split
        · next heq => exact absurd heq hr
        · exact hres
        · split <;> exact hres
      · exact ⟨rfl, id⟩
    · have hs : (s.contender i).standing = .holding := by simpa [State.careful] using ha
      have hno : ¬s.applies tag (s.contender i).tag_ fate = true := fun happ => by
        simp [h.not_superseded htag hs happ] at hsup
      unfold GlobalLock.step
      dsimp only
      split
      · unfold State.write
        rw [if_neg hno]
        refine ⟨rfl, fun _ => ?_⟩
        show (if i = i then _ else _ : Contender Tag).result ≠ _
        rw [if_pos rfl]
        split <;> exact nofun
      · exact ⟨rfl, id⟩
  · rintro i rfl ⟨count, hp⟩ hstore _ hsup
    have hf := h.fine i
    obtain ⟨hs, -⟩ := hf.reading count hp
    obtain ⟨l, hl⟩ := Option.isSome_iff_exists.1 hstore
    have hother : l.uuid ≠ (s.contender i).lock_.uuid := by
      rw [hf.owner]
      exact hf.superseded hs hsup l hl
    unfold GlobalLock.step
    dsimp only
    rw [hp, hl]
    dsimp only
    rw [if_pos hother]
    show (if i = i then _ else _ : Contender Tag).phase = _ ∧ (if i = i then _ else _ : Contender Tag).result = _
    rw [if_pos rfl]
    exact ⟨rfl, rfl⟩
  · rintro i fate rfl hp hres
    obtain ⟨-, w, hw, htagw, hsince⟩ := (h.fine i).acquiring hp
    by_contra hne
    have hno : ¬s.applies tag (s.contender i).tag_ fate = true := fun happ => by
      -- the lock that was read is no longer stored
      have heq := (applies_iff.1 happ).2
      rw [htagw] at heq
      obtain ⟨v, hv, hvw⟩ := Option.map_eq_some_iff.1 heq
      exact hsince (by simpa using hne) (htag hvw ▸ hv)
    have hr : s.report tag (s.contender i).tag_ fate ≠ .written := fun hr => hno (applies_of_written hr)
    unfold GlobalLock.step State.take at hres
    dsimp only at hres
    rw [hp] at hres
    dsimp only at hres
    split at hres
    · next heq => exact hr heq
    · change (if i = i then _ else _ : Contender Tag).result = _ at hres
      rw [if_pos rfl] at hres
      cases hres
  · exact fun i => (h.fine i).writes

end Inv

end

/-! ## Runs -/

theorem Inv.init : Inv tag max_update_retries ({} : State Tag) where
  store := rfl
  sorted := List.Pairwise.nil
  below _ hv := nomatch hv
  fine i := by constructor <;> simp

/-- In every interleaving of the accesses of any number of contenders that are used as `HeartBeat` does:
a lock that was taken over is not written by its old holder any more. -/
theorem taken_over_exclusive [DecidableEq Tag] (htag : Injective tag) (as : List Action)
    (has : Each (step tag max_update_retries) (Careful tag) {} as) :
    Each (step tag max_update_retries) (Exclusive tag max_update_retries) {} as :=
  each_imp (Inv tag max_update_retries) (fun _ _ h ha => ⟨h.exclusive htag ha, h.step htag ha⟩)
    (Inv.init tag max_update_retries) has

/-- The first contender holds the lock; a refresh of it is not answered and is found by the read that
follows. The second one takes over; the first finds out. -/
theorem holder_finds_out :
    Each (step id 100) (Exclusive id 100) {}
      [.putLock 0 .answered, .refreshLock 0, .update 0 .lost false, .reread 0 true, .update 0 .answered false,
        .tryToAcquireLock 1 true, .acquire 1 .answered, .refreshLock 0, .update 0 .answered false, .reread 0 true] :=
  taken_over_exclusive id 100 (fun _ _ h => h) _ (by decide +kernel)

/-- The holder is told that it has lost the lock and has learnt the new tag by that; `freeLock` then
overwrites the lock of the contender that has taken over. -/
theorem freed_after_loss :
    let s := runs (step id 100) {}
      [.putLock 0 .answered, .tryToAcquireLock 1 true, .acquire 1 .answered, .refreshLock 0, .update 0 .answered false,
        .reread 0 true]
    let s' := step id 100 s (.freeLock 0 .answered)
    (s.contender 0).acquired = true ∧ (s.contender 0).superseded = true ∧ (s.contender 0).result = some false ∧
      s.store = some { uuid := 1 } ∧ s'.store = some { uuid := 0, has_lock := false, counter := 1 } := by
  decide +kernel

/-- A refresh is carried out but not answered; the other contender reads; the holder reads as well, writes
the same lock once more and is told that it has refreshed it. The take-over succeeds nevertheless. -/
example :
    let s := runs (step id 100) {}
      [.putLock 0 .answered, .refreshLock 0, .update 0 .unanswered false, .tryToAcquireLock 1 true, .reread 0 true,
        .update 0 .answered false]
    let s' := step id 100 s (.acquire 1 .answered)
    (s.contender 0).result = some true ∧ (s.contender 1).since = true ∧ (s'.contender 1).result = some true := by
  decide +kernel

end VolumeDriver.GlobalLock
