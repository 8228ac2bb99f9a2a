/-
Bringing a metadata store in sync with the backend (MetaDataStoreBuilder.cpp), as metadata server
slaves do, and its dry run, which is to change nothing and to say what the real run would do. A store
whose cork is not found on the backend is cleared before the second attempt, also by a dry run.
-/
import VolumeDriver.Restart.CorkInterval
import VolumeDriver.MetaData.Journal

namespace VolumeDriver

open Lib CachedMetaDataStore

namespace MetaDataStoreBuilder

open BackendRestartAccumulator

/-! ## The code -/

/-- What the builder throws: its caller tells a cork that is not found from all else. -/
inductive Thrown
  | corkNotFound
  | other (e : Exn)
  deriving DecidableEq, Repr

/-- What a run reports. -/
structure Result where
  num_tlogs : Nat := 0
  full_rebuild : Bool := false
  backend_scrub_id : ScrubId
  deriving DecidableEq, Repr

/-- What the builder reads from the backend; `none` and `false` if that fails. -/
structure Backend where
  snapshots : Option SnapshotPersistor
  parents : Option (List Member)
  config : Bool
  nsid_map : NSIDMap
  replay : ReplayConfig := {}

variable {page_bits : Nat} {β : Type} (B : MetaDataBackendInterface page_bits β)

/-- A call that throws leaves the store as it was at that point. -/
abbrev Outcome (page_bits : Nat) (β α : Type) := Except (Thrown × CachedMetaDataStore page_bits β) α

/-- A call to the store. -/
def store {α : Type} (r : CachedMetaDataStore.Result page_bits β α) : Outcome page_bits β α :=
  r.mapError fun (e, s) => (.other e, s)

/-- The accumulator throws `CorkNotFoundException` for a cork that it did not see. -/
def thrown : Exn → Thrown
  | .corkNotFound => .corkNotFound
  | e => .other e

/-- A mismatch of the scrub ids, or a cork without scrub id. -/
def need_rebuild (check_scrub_id : Bool) (sp_scrub_id : ScrubId) (md_scrub_id : Option ScrubId)
    (lastCork : Option UUID) : Bool :=
  check_scrub_id &&
    match md_scrub_id with
    | some md_scrub_id => md_scrub_id != sp_scrub_id
    | none => lastCork.isSome

/-- The TLogs to replay. The map has an entry for each clone id, of which there are 256. -/
def tlogs_to_replay (bi : Backend) (sp : SnapshotPersistor) (start_cork end_cork : Option UUID) :
    Except Thrown CloneTLogs :=
  if bi.config = false then throw (.other .backendObjectDoesNotExist)
  else
    match bi.parents with
    | none => throw (.other .backendObjectDoesNotExist)
    | some parents => do
      let tlogs ← (accumulate (⟨sp, ""⟩ :: parents) start_cork end_cork).mapError thrown
      (VERIFY (tlogs.length ≤ min (parents.length + 1) (2 ^ 8)) "tlogs.size() <= nsid_map.size()").mapError .other
      (VERIFY (tlogs ≠ []) "not tlogs.empty()").mapError .other
      (VERIFY (tlogs.getLast?.map (·.1) = some 0) "tlogs.back().first == SCOCloneID(0)").mapError .other
      pure tlogs

/-- The interval's end: the one asked for, or the last cork on the backend. -/
def end_cork (sp : SnapshotPersistor) : Option UUID → Option UUID
  | some to_cork => some to_cork
  | none => sp.lastCork

/-- Replays the TLogs. -/
def process (bi : Backend) (s : CachedMetaDataStore page_bits β) (tlogs : CloneTLogs) (end_cork : Option UUID)
    (check_scrub_id : Bool) (sp_scrub_id : ScrubId) : Outcome page_bits β (CachedMetaDataStore page_bits β) := do
  let from_scratch := s.lastCork.isNone
  let s ← store (processCloneTLogs B bi.replay s tlogs bi.nsid_map true end_cork)
  if from_scratch || check_scrub_id then store (s.set_scrub_id B sp_scrub_id) else pure s

/-- `id` is the id of the TLog that `trimToBackend` starts. -/
def update_metadata_store_ (bi : Backend) (id : TLogId) (s : CachedMetaDataStore page_bits β)
    (from_cork to_cork : Option UUID) (check_scrub_id dry_run full_rebuild : Bool) :
    Outcome page_bits β (CachedMetaDataStore page_bits β × Result) :=
  match bi.snapshots with
  | none => throw (.other .backendObjectDoesNotExist, s)
  | some sp => do
    let sp := sp.trimToBackend id
    let rebuild := need_rebuild check_scrub_id sp.scrub_id s.scrub_id s.lastCork
    let s ← if rebuild && !dry_run then store (s.clear_all_keys B) else pure s
    let start_cork := if rebuild then none else from_cork
    let res : Result := { full_rebuild := full_rebuild || rebuild, backend_scrub_id := sp.scrub_id }
    if start_cork ≠ none ∧ start_cork = end_cork sp to_cork then pure (s, res)
    else do
      let tlogs ← (tlogs_to_replay bi sp start_cork (end_cork sp to_cork)).mapError fun e => (e, s)
      let res := { res with num_tlogs := (tlogs.map (·.2.length)).sum }
      if dry_run then pure (s, res)
      else do
        let s ← process B bi s tlogs (end_cork sp to_cork) check_scrub_id sp.scrub_id
        pure (s, res)

/-- `operator()`; the two attempts start TLogs of their own. -/
def call (bi : Backend) (ids : TLogId × TLogId) (s : CachedMetaDataStore page_bits β) (to_cork : Option UUID)
    (check_scrub_id dry_run : Bool) : Outcome page_bits β (CachedMetaDataStore page_bits β × Result) :=
  match update_metadata_store_ B bi ids.1 s s.lastCork to_cork check_scrub_id dry_run false with
  | .error (.corkNotFound, s) => do
    let s ← store (s.clear_all_keys B)
    update_metadata_store_ B bi ids.2 s none to_cork check_scrub_id dry_run true
  | r => r

/-! ## The dry run -/

/-- The store after a call. -/
def storeAfter {α : Type} : Outcome page_bits β (CachedMetaDataStore page_bits β × α) → CachedMetaDataStore page_bits β
  | .ok (s, _) => s
  | .error (_, s) => s

/-- A dry run changes nothing, and a real run after it returns what it said. -/
structure Faithful (bi : Backend) (ids : TLogId × TLogId) (s : CachedMetaDataStore page_bits β) (to_cork : Option UUID)
    (check_scrub_id : Bool) : Prop where
  unchanged : storeAfter (call B bi ids s to_cork check_scrub_id true) = s
  predicts : ∀ s₁ res, call B bi ids s to_cork check_scrub_id true = .ok (s₁, res) → ∀ ids' s₂ res',
    call B bi ids' s₁ to_cork check_scrub_id false = .ok (s₂, res') →
      res'.num_tlogs = res.num_tlogs ∧ res'.full_rebuild = res.full_rebuild

/-- The snapshots files that the builder reads: the volume's, trimmed to what is on the backend, and its
ancestors'. -/
def chain (sp : SnapshotPersistor) (parents : List Member) (id : TLogId) : List Member :=
  ⟨sp.trimToBackend id, ""⟩ :: parents

/-- Distinct TLogs and corks on the backend, every ancestor with the snapshot that its clone was taken
from, and enough clone ids. -/
def WellFormed (bi : Backend) : Prop :=
  ∀ sp parents id, bi.snapshots = some sp → bi.parents = some parents →
    BackendRestartAccumulator.WellFormed (cut (chain sp parents id)) ∧ parents.length < 2 ^ 8

/-- The cork that the store is to catch up from: its own, or none if it has to be rebuilt. -/
def start_cork (sp : SnapshotPersistor) (s : CachedMetaDataStore page_bits β) (check_scrub_id : Bool) : Option UUID :=
  if need_rebuild check_scrub_id sp.scrub_id s.scrub_id s.lastCork then none else s.lastCork

/-- The corks that the store is to catch up from and up to are the same, or the backend, if it can be read,
has both of them in this order among what the accumulator comes across. -/
def CorksInOrder (bi : Backend) (s : CachedMetaDataStore page_bits β) (to_cork : Option UUID)
    (check_scrub_id : Bool) : Prop :=
  ∀ sp parents id, bi.snapshots = some sp → bi.config = true → bi.parents = some parents →
    let start_cork := start_cork (sp.trimToBackend id) s check_scrub_id
    let end_cork := end_cork (sp.trimToBackend id) to_cork
    (start_cork ≠ none ∧ start_cork = end_cork) ∨ Found (cut (chain sp parents id)) start_cork end_cork

/-! ## What an attempt finds -/

/-- What an attempt returns, from what it reads. -/
def estimate (bi : Backend) (id : TLogId) (s : CachedMetaDataStore page_bits β) (from_cork to_cork : Option UUID)
    (check_scrub_id full_rebuild : Bool) : Except Thrown Result :=
  match bi.snapshots with
  | none => throw (.other .backendObjectDoesNotExist)
  | some sp =>
    let sp := sp.trimToBackend id
    let rebuild := need_rebuild check_scrub_id sp.scrub_id s.scrub_id s.lastCork
    let start_cork := if rebuild then none else from_cork
    let res : Result := { full_rebuild := full_rebuild || rebuild, backend_scrub_id := sp.scrub_id }
    if start_cork ≠ none ∧ start_cork = end_cork sp to_cork then pure res
    else do
      let tlogs ← tlogs_to_replay bi sp start_cork (end_cork sp to_cork)
      pure { res with num_tlogs := (tlogs.map (·.2.length)).sum }

/-- A real run's outcome is the estimate, unless the store fails. -/
def Follows (r : Outcome page_bits β (CachedMetaDataStore page_bits β × Result)) (est : Except Thrown Result) : Prop :=
  match r with
  | .ok (_, res) => est = .ok res
  | .error (.corkNotFound, _) => est = .error .corkNotFound
  | .error (.other _, _) => True

section
variable {B} {bi : Backend} {id id' : TLogId} {s s' : CachedMetaDataStore page_bits β} {from_cork to_cork : Option UUID}
  {check_scrub_id full_rebuild : Bool}

/-- An attempt of a dry run leaves the store alone. -/
theorem update_dry : update_metadata_store_ B bi id s from_cork to_cork check_scrub_id true full_rebuild =
    match estimate bi id s from_cork to_cork check_scrub_id full_rebuild with
    | .ok res => .ok (s, res)
    | .error e => .error (e, s) := by
  unfold update_metadata_store_ estimate
  cases bi.snapshots with
  | none => rfl
  | some sp =>
    simp only [Bool.not_true, Bool.and_false, Bool.false_eq_true, if_false, if_true, pure_bind]
    generalize (if need_rebuild check_scrub_id _ _ _ = true then none else from_cork) = start_cork
    by_cases h : start_cork ≠ none ∧ start_cork = end_cork (sp.trimToBackend id) to_cork
    · rw [if_pos h, if_pos h]
      rfl
    · rw [if_neg h, if_neg h]
      cases tlogs_to_replay bi (sp.trimToBackend id) start_cork (end_cork (sp.trimToBackend id) to_cork) <;> rfl

theorem store_bind_follows {α : Type} {r : CachedMetaDataStore.Result page_bits β α}
    {f : α → Outcome page_bits β (CachedMetaDataStore page_bits β × Result)} {est : Except Thrown Result}
    (hf : ∀ a, Follows (f a) est) : Follows (store r >>= f) est := by
  rcases r with ⟨e, s⟩ | a
  · trivial
  · exact hf a

variable (sp : SnapshotPersistor)

theorem replay_follows (start_cork : Option UUID) (res : Result) :
    Follows (if start_cork ≠ none ∧ start_cork = end_cork sp to_cork then pure (s, res)
      else do
        let tlogs ← (tlogs_to_replay bi sp start_cork (end_cork sp to_cork)).mapError fun e => (e, s)
        let s ← process B bi s tlogs (end_cork sp to_cork) check_scrub_id sp.scrub_id
        pure (s, { res with num_tlogs := (tlogs.map (·.2.length)).sum }))
    (if start_cork ≠ none ∧ start_cork = end_cork sp to_cork then pure res
      else do
        let tlogs ← tlogs_to_replay bi sp start_cork (end_cork sp to_cork)
        pure { res with num_tlogs := (tlogs.map (·.2.length)).sum }) := by
  by_cases h : start_cork ≠ none ∧ start_cork = end_cork sp to_cork
  · rw [if_pos h, if_pos h]
    rfl
  · rw [if_neg h, if_neg h]
    cases tlogs_to_replay bi sp start_cork (end_cork sp to_cork) with
    | error e =>
      cases e with
      | corkNotFound => rfl
      | other e => trivial
    | ok tlogs =>
      simp only [Except.mapError, ok_bind, process, bind_assoc]
      refine store_bind_follows fun s₁ => ?_
      split
      · exact store_bind_follows fun s₂ => rfl
      · rfl

/-- An attempt of a real run returns what that of the dry run does. -/
theorem update_follows : Follows (update_metadata_store_ B bi id s from_cork to_cork check_scrub_id false full_rebuild)
      (estimate bi id s from_cork to_cork check_scrub_id full_rebuild) := by
  unfold update_metadata_store_ estimate
  cases bi.snapshots with
  | none => trivial
  | some sp =>
    simp only [Bool.not_false, Bool.and_true, Bool.false_eq_true, if_false]
    split
    · exact store_bind_follows fun s₁ => replay_follows ..
    · rw [pure_bind]
      exact replay_follows ..

/-! ## The id of the new TLog -/

theorem lastCork_newTLog : (sp.newTLog id).lastCork = sp.lastCork := by
  simp [SnapshotPersistor.newTLog, SnapshotPersistor.lastCork]

theorem written_newTLog : (sp.newTLog id).getCurrentTLogsWrittenToBackend = sp.getCurrentTLogsWrittenToBackend := by
  simp [SnapshotPersistor.newTLog, SnapshotPersistor.getCurrentTLogsWrittenToBackend]

theorem accumulate_newTLog (parents : List Member) (start_cork stop_cork : Option UUID) :
    accumulate (⟨sp.newTLog id, ""⟩ :: parents) start_cork stop_cork =
      accumulate (⟨sp, ""⟩ :: parents) start_cork stop_cork := by
  unfold accumulate
  congr 1
  funext acc
  simp only [vold, BackendRestartAccumulator.call, walk_file, written_newTLog, if_true]
  rfl

theorem tlogs_to_replay_newTLog (start_cork stop_cork : Option UUID) :
    tlogs_to_replay bi (sp.newTLog id) start_cork stop_cork = tlogs_to_replay bi sp start_cork stop_cork := by
  unfold tlogs_to_replay
  cases bi.parents with
  | none => rfl
  | some parents => simp only [accumulate_newTLog]

theorem trimToBackend_eq : ∃ sp' : SnapshotPersistor, ∀ id, sp.trimToBackend id = sp'.newTLog id := by
  unfold SnapshotPersistor.trimToBackend
  split
  · exact ⟨_, fun _ => rfl⟩
  · exact ⟨_, fun _ => rfl⟩

theorem estimate_id : estimate bi id s from_cork to_cork check_scrub_id full_rebuild =
    estimate bi id' s from_cork to_cork check_scrub_id full_rebuild := by
  unfold estimate
  cases bi.snapshots with
  | none => rfl
  | some sp =>
    obtain ⟨sp', hsp⟩ := trimToBackend_eq sp
    have hend : ∀ id, end_cork (sp'.newTLog id) to_cork = end_cork sp' to_cork := by
      intro id
      cases to_cork with
      | none => exact lastCork_newTLog sp'
      | some to_cork => rfl
    have hscrub : ∀ id, (sp'.newTLog id).scrub_id = sp'.scrub_id := fun _ => rfl
    simp only [hsp, hend, hscrub, tlogs_to_replay_newTLog]

/-! ## The retry -/

theorem verify_not_found {p : Prop} [Decidable p] {what : String} {f : Unit → Except Thrown CloneTLogs}
    (h : (VERIFY p what).mapError .other >>= f = .error .corkNotFound) : f () = .error .corkNotFound := by
  by_cases hp : p
  · rwa [VERIFY_of hp] at h
  · simp [VERIFY, verify, hp, Except.mapError, bind, Except.bind] at h

theorem tlogs_to_replay_not_found {sp : SnapshotPersistor} {start_cork stop_cork : Option UUID} :
    tlogs_to_replay bi sp start_cork stop_cork = .error .corkNotFound ↔
      bi.config = true ∧ ∃ parents, bi.parents = some parents ∧
        accumulate (⟨sp, ""⟩ :: parents) start_cork stop_cork = .error .corkNotFound := by
  unfold tlogs_to_replay
  cases bi.config with
  | false => simp [throw, throwThe, MonadExceptOf.throw]
  | true =>
    cases bi.parents with
    | none => simp [throw, throwThe, MonadExceptOf.throw]
    | some parents =>
      cases hacc : accumulate (⟨sp, ""⟩ :: parents) start_cork stop_cork with
      | error e => cases e <;> simp [Except.mapError, thrown, hacc, bind, Except.bind]
      | ok tlogs =>
        simp only [Except.mapError, ok_bind, Bool.true_eq_false, if_false, hacc]
        constructor
        · intro h
          have h₁ := verify_not_found h
          have h₂ := verify_not_found h₁
          have h₃ := verify_not_found h₂
          cases h₃
        · rintro ⟨-, _, hp, h⟩
          cases hp
          rw [hacc] at h
          cases h

theorem estimate_not_found {sp : SnapshotPersistor} (hsp : bi.snapshots = some sp) : let sp := sp.trimToBackend id
    let start_cork := if need_rebuild check_scrub_id sp.scrub_id s.scrub_id s.lastCork then none else from_cork
    estimate bi id s from_cork to_cork check_scrub_id full_rebuild = .error .corkNotFound ↔
      ¬(start_cork ≠ none ∧ start_cork = end_cork sp to_cork) ∧
        tlogs_to_replay bi sp start_cork (end_cork sp to_cork) = .error .corkNotFound := by
  intro sp start_cork
  simp only [estimate, hsp]
  by_cases h : start_cork ≠ none ∧ start_cork = end_cork sp to_cork
  · rw [if_pos h]
    constructor
    · intro he
      cases he
    · rintro ⟨hn, -⟩
      exact absurd h hn
  · rw [if_neg h]
    cases tlogs_to_replay bi sp start_cork (end_cork sp to_cork) with
    | error e =>
      constructor
      · intro he
        cases he
        exact ⟨h, rfl⟩
      · rintro ⟨-, he⟩
        cases he
        rfl
    | ok tlogs => simp [pure, Except.pure]

theorem clear_all_keys_lastCork (h : clear_all_keys B s = .ok s') : s'.lastCork = none := by
  obtain ⟨s₁, -, h⟩ := bind_ok h
  obtain ⟨b, -, h⟩ := bind_ok h
  rw [← pure_ok h]
  rfl

section
variable (hbi : WellFormed bi)
include hbi

theorem corksInOrder_iff (id : TLogId) : CorksInOrder bi s to_cork check_scrub_id ↔
    estimate bi id s s.lastCork to_cork check_scrub_id false ≠ .error .corkNotFound := by
  cases hsp : bi.snapshots with
  | none =>
    have he : estimate bi id s s.lastCork to_cork check_scrub_id false =
        .error (.other .backendObjectDoesNotExist) := by
      simp only [estimate, hsp]
      rfl
    constructor
    · intro _ h
      rw [he] at h
      cases h
    · intro _ sp _ _ h
      rw [hsp] at h
      cases h
  | some sp =>
    constructor
    · intro h he
      obtain ⟨hdiffer, ht⟩ := (estimate_not_found hsp).1 he
      obtain ⟨hc, parents, hp, ha⟩ := tlogs_to_replay_not_found.1 ht
      obtain ⟨hwf, hlen⟩ := hbi sp parents id hsp hp
      have hfound := (h sp parents id hsp hc hp).resolve_left hdiffer
      exact (accumulate_not_found_iff hwf (.inl hlen) hdiffer).1 ha hfound
    · intro h sp' parents id' hsp' hc hp
      rw [hsp] at hsp'
      cases hsp'
      obtain ⟨hwf, hlen⟩ := hbi sp parents id' hsp hp
      by_contra hn
      rw [not_or] at hn
      -- the ids of the new TLogs do not matter
      refine h (estimate_id.trans ((estimate_not_found hsp).2 ⟨hn.1, ?_⟩))
      exact tlogs_to_replay_not_found.2 ⟨hc, parents, hp, (accumulate_not_found_iff hwf (.inl hlen) hn.1).2 hn.2⟩

variable {ids : TLogId × TLogId}

theorem call_dry_of_found (h : CorksInOrder bi s to_cork check_scrub_id) : call B bi ids s to_cork check_scrub_id true =
      match estimate bi ids.1 s s.lastCork to_cork check_scrub_id false with
      | .ok res => .ok (s, res)
      | .error e => .error (e, s) := by
  have hfound := (corksInOrder_iff hbi ids.1).1 h
  unfold call
  rw [update_dry]
  cases he : estimate bi ids.1 s s.lastCork to_cork check_scrub_id false with
  | ok res => rfl
  | error e =>
    cases e with
    | corkNotFound => exact absurd he hfound
    | other e => rfl

theorem call_real_of_found {res : Result} (h : CorksInOrder bi s to_cork check_scrub_id)
    (hr : call B bi ids s to_cork check_scrub_id false = .ok (s', res)) :
    estimate bi ids.1 s s.lastCork to_cork check_scrub_id false = .ok res := by
  have hfound := (corksInOrder_iff hbi ids.1).1 h
  have hf : Follows (update_metadata_store_ B bi ids.1 s s.lastCork to_cork check_scrub_id false false)
      (estimate bi ids.1 s s.lastCork to_cork check_scrub_id false) := update_follows
  unfold call at hr
  split at hr
  · rename_i s₁ hu
    rw [hu] at hf
    exact absurd hf hfound
  · rw [hr] at hf
    exact hf

theorem storeAfter_call_of_not_found (h : ¬CorksInOrder bi s to_cork check_scrub_id)
    (hclear : clear_all_keys B s = .ok s') : storeAfter (call B bi ids s to_cork check_scrub_id true) = s' := by
  rw [corksInOrder_iff hbi ids.1, not_not] at h
  unfold call
  rw [update_dry, h]
  simp only [store, hclear]
  show storeAfter (update_metadata_store_ B bi ids.2 s' none to_cork check_scrub_id true true) = s'
  rw [update_dry]
  cases estimate bi ids.2 s' none to_cork check_scrub_id true <;> rfl

theorem faithful_of_inOrder (h : CorksInOrder bi s to_cork check_scrub_id) :
    Faithful B bi ids s to_cork check_scrub_id := by
  constructor
  case unchanged =>
    rw [call_dry_of_found hbi h]
    cases estimate bi ids.1 s s.lastCork to_cork check_scrub_id false <;> rfl
  case predicts =>
    intro s₁ res hdry ids' s₂ res' hreal
    rw [call_dry_of_found hbi h] at hdry
    cases he : estimate bi ids.1 s s.lastCork to_cork check_scrub_id false with
    | error e => rw [he] at hdry; cases hdry
    | ok res₁ =>
      rw [he] at hdry
      cases hdry
      have hr := call_real_of_found hbi h hreal
      rw [estimate_id, he] at hr
      cases hr
      exact ⟨rfl, rfl⟩

end

end

section
variable {bi : Backend} (hbi : WellFormed bi) (ids : TLogId × TLogId) (s : CachedMetaDataStore page_bits β)
  (to_cork : Option UUID) (check_scrub_id : Bool)
include hbi

/-- Corks in order make a dry run faithful; and of a store that has a cork and can be cleared no other does. -/
theorem dry_run_faithful_iff :
    (CorksInOrder bi s to_cork check_scrub_id → Faithful B bi ids s to_cork check_scrub_id) ∧
      (s.lastCork ≠ none → (∃ s', clear_all_keys B s = .ok s') →
        Faithful B bi ids s to_cork check_scrub_id → CorksInOrder bi s to_cork check_scrub_id) := by
  refine ⟨faithful_of_inOrder hbi, ?_⟩
  rintro hcork ⟨s', hclear⟩ hf
  by_contra hn
  have hsame := (storeAfter_call_of_not_found hbi hn hclear).symm.trans hf.unchanged
  exact hcork (hsame ▸ clear_all_keys_lastCork hclear)

end

/-- A backend with the TLogs `tlogs`. -/
def withTLogs (tlogs : List TLogId) : Backend where
  snapshots := some { current := tlogs.map (⟨·, true, 1⟩), snapshots := [], parent := none, scrub_id := 7 }
  parents := some []
  config := true
  nsid_map := fun _ _ => .ok []

/-- TLogs 1 and 2: a store with cork 1 can be asked what it misses, but one with cork 2 not what it misses up
to cork 1. -/
theorem dry_run_faithful_in_order :
    (∃ s, create (Journal.backend 1) { calls := [.setCork 1, .set_scrub_id 7] } 1 = .ok s ∧
      Faithful (Journal.backend 1) (withTLogs [1, 2]) (3, 4) s none true) ∧
    ∃ s, create (Journal.backend 1) { calls := [.setCork 2, .set_scrub_id 7] } 1 = .ok s ∧
      ¬Faithful (Journal.backend 1) (withTLogs [1, 2]) (3, 4) s (some 1) true := by
  have hbi : WellFormed (withTLogs [1, 2]) := by
    rintro _ _ id ⟨⟩ ⟨⟩
    refine ⟨⟨nofun, ?_, List.nodup_nil, ?_⟩, by decide⟩
    · show [1, 2].Nodup
      decide
    · intro v hv c hc
      rw [List.mem_singleton.1 hv] at hc
      cases hc
  refine ⟨⟨_, rfl, (dry_run_faithful_iff (Journal.backend 1) hbi _ _ _ _).1 ?_⟩, ⟨_, rfl, fun hf => ?_⟩⟩
  · rintro _ _ id ⟨⟩ - ⟨⟩
    refine .inr ⟨.inl ?_, ?_⟩
    · rintro c ⟨⟩
      show 1 ∈ [1, 2]
      decide
    · rintro c ⟨⟩
      show 2 ∈ [1, 2]
      decide
  · have horder := (dry_run_faithful_iff (Journal.backend 1) hbi _ _ _ _).2 (by rintro ⟨⟩) ⟨_, rfl⟩ hf _ _ 3 rfl rfl rfl
    rcases horder with ⟨-, ⟨⟩⟩ | ⟨hstart | ⟨v, hv, a, ⟨⟩, b, ⟨⟩, -, -, hcork⟩, -⟩
    · exact absurd (hstart 2 rfl) (by decide)
    · rw [List.mem_singleton.1 hv] at hcork
      cases hcork

/-- A store with cork 1, of a volume that was restored to a snapshot before that TLog: the dry run clears it
and announces a full rebuild, but for the real run after it the store was empty to begin with. -/
theorem dry_run_clears_store : ∃ s, create (Journal.backend 1) { calls := [.setCork 1, .set_scrub_id 7] } 1 = .ok s ∧
    s.lastCork = some 1 ∧
    (∃ s₁, call (Journal.backend 1) (withTLogs [2]) (3, 4) s none true true = .ok (s₁, ⟨1, true, 7⟩) ∧
      s₁.lastCork = none ∧
      ∃ s₂, call (Journal.backend 1) (withTLogs [2]) (5, 6) s₁ none true false = .ok (s₂, ⟨1, false, 7⟩)) ∧
    ¬Faithful (Journal.backend 1) (withTLogs [2]) (3, 4) s none true := by
  refine ⟨_, rfl, rfl, ⟨_, rfl, rfl, _, rfl⟩, fun h => ?_⟩
  obtain ⟨-, hfull⟩ := h.predicts _ _ rfl (5, 6) _ _ rfl
  cases hfull

end MetaDataStoreBuilder

end VolumeDriver
