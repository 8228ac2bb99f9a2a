/-
Catching up with the backend when a volume restarts (replay_tlogs_on_backend_since_last_cork in
VolumeFactory.cpp): the written TLogs after the metadata store's cork are replayed on the store, and
`lastCork` of the snapshots file becomes its cork.
-/
import VolumeDriver.Snapshot.Cork
import VolumeDriver.MetaData.CloneTLogs

namespace VolumeDriver

open Lib CachedMetaDataStore List
open SnapshotPersistor (getTLogs_none init mem_written written_nodup)

/-- What the restart reads of a volume's configuration. -/
structure VolumeConfig where
  id : String
  parent : Option ParentConfig := none

namespace SnapshotPersistor

/-- The cork of the snapshot with the name. -/
def getSnapshotCork (sp : SnapshotPersistor) (name : SnapshotName) : Except Exn UUID :=
  match sp.snapshots.find_name name with
  | some s => pure s.cork_uuid
  | none => throw (.snapshotNotFound ("Could not find snapshot " ++ name))

end SnapshotPersistor

namespace Restart

variable {page_bits : Nat} {β : Type}

/-- The cork of the snapshot that a clone was taken from; `createSnapshotPersistor` reads the
snapshots file of another volume. -/
def get_implicit_start_cork (config : VolumeConfig)
    (createSnapshotPersistor : String → Except Exn SnapshotPersistor) (sp : SnapshotPersistor) :
    Except Exn (Option UUID) :=
  match config.parent with
  | some parent =>
    match sp.parent with
    | some p => do
      let psp ← createSnapshotPersistor parent.nspace
      let cork ← psp.getSnapshotCork p.snapshot
      pure (some cork)
    | none => throw (.assertion "sp.parent()")
  | none => do
    VERIFY (sp.parent = none) "not sp.parent()"
    pure none

/-- Every TLog to replay must be on the backend. -/
def check_clone_tlogs_in_backend (objectExists : SCOCloneID → TLogId → Bool) (clone_tlogs : CloneTLogs) :
    Except Exn Unit :=
  if clone_tlogs.all fun pair => pair.2.all (objectExists pair.1) then .ok ()
  else .error (.ioException "TLog missing from the backend")

/-- What the restart finds outside the volume: other volumes' snapshots files, the objects on the
backend and the TLogs there, and how a clone's metadata is built from scratch. -/
structure Surroundings (page_bits : Nat) (β : Type) where
  createSnapshotPersistor : String → Except Exn SnapshotPersistor
  objectExists : SCOCloneID → TLogId → Bool
  nsid_map : NSIDMap
  builder : CachedMetaDataStore page_bits β → Result page_bits β (CachedMetaDataStore page_bits β)
  cfg : ReplayConfig := {}

variable (B : MetaDataBackendInterface page_bits β)

/-- The body of the function, whose exceptions are caught. -/
def replay_on_backend (env : Surroundings page_bits β) (config : VolumeConfig)
    (mdstore : CachedMetaDataStore page_bits β) (sp : SnapshotPersistor) :
    Result page_bits β (CachedMetaDataStore page_bits β) :=
  let sp_cork := sp.lastCork
  let md_cork := mdstore.lastCork
  if config.parent ≠ none ∧ md_cork = none then do
    let mdstore ← clear_all_keys B mdstore
    env.builder mdstore
  else do
    let start_cork ← (get_implicit_start_cork config env.createSnapshotPersistor sp).mapError fun e => (e, mdstore)
    let tlogs_to_replay_now ← (sp.getTLogsOnBackendSinceLastCork md_cork start_cork).mapError fun e => (e, mdstore)
    if tlogs_to_replay_now ≠ [] then do
      (check_clone_tlogs_in_backend env.objectExists [(0, tlogs_to_replay_now)]).mapError fun e => (e, mdstore)
      processCloneTLogs B env.cfg mdstore [(0, tlogs_to_replay_now)] env.nsid_map true sp_cork
    else pure mdstore

/-- All exceptions but one are turned into one that says what failed. -/
def replay_tlogs_on_backend_since_last_cork (env : Surroundings page_bits β)
    (config : VolumeConfig) (mdstore : CachedMetaDataStore page_bits β) (sp : SnapshotPersistor) :
    Result page_bits β (CachedMetaDataStore page_bits β) :=
  match replay_on_backend B env config mdstore sp with
  | .ok s => .ok s
  | .error (.corkNotOnBackend what, s) => .error (.corkNotOnBackend what, s)
  | .error (_, s) =>
    .error (.ioException "Local restart not possible, exception during replay of TLogs from backend", s)

/-! ## What the store contains -/

/-- The store holds what the TLogs `tlogs` bind, and nothing else. -/
def Contains (nsid_map : NSIDMap) (s : CachedMetaDataStore page_bits β)
    (tlogs : List TLogId) : Prop :=
  ∃ r, CombinedTLogReader (nsid_map 0) tlogs = .ok r ∧
    s.locationOf B = replay (fun _ => .discarded_location_and_hash) (cloneBindings 0 r)

/-- Written TLogs are on the backend, can be read and hold entries of this volume. -/
def OnBackend (env : Surroundings page_bits β) (tlogs : List TLogId) : Prop :=
  ∀ t ∈ tlogs, env.objectExists 0 t = true ∧
    ∃ l, env.nsid_map 0 t = .ok l ∧ ∀ e ∈ l, e.isLocation = true → ∃ ca, e.clusterAddress = .ok ca

theorem OnBackend.read {env : Surroundings page_bits β} : ∀ {tlogs : List TLogId}, OnBackend env tlogs →
    ∃ r, CombinedTLogReader (env.nsid_map 0) tlogs = .ok r ∧ ∀ e ∈ r, ∃ ca, e.clusterAddress = .ok ca
  | [], _ => ⟨[], rfl, by simp⟩
  | t :: tlogs, h => by
    obtain ⟨-, l, h1, h2⟩ := h t (mem_cons_self ..)
    obtain ⟨r, h3, h4⟩ := OnBackend.read fun x hx => h x (mem_cons_of_mem _ hx)
    refine ⟨l.filter (·.isLocation) ++ r, CombinedTLogReader_cons h1 h3, ?_⟩
    intro e he
    rcases mem_append.1 he with he | he
    · rw [mem_filter] at he
      exact h2 e he.1 he.2
    · exact h4 e he

/-! ## The cork after the replay -/

/-- The cork names what was replayed. For a store whose cork is none or the id of a written TLog, the
TLogs to replay end with the one that `lastCork` names, and there are none after that one. A store
that holds the TLogs up to its cork holds all written ones after the replay; its cork then names the
last of them and never goes back. -/
structure CorkExact (sp : SnapshotPersistor) : Prop where
  last : ∀ md_cork : Option UUID, (∀ c ∈ md_cork, c ∈ sp.written) →
    ∃ l, sp.getTLogsOnBackendSinceLastCork md_cork none = .ok l ∧
      ∀ id, l.getLast? = some id → ∃ cork, sp.lastCork = some cork ∧ sp.Names cork id
  none_after : sp.getTLogsOnBackendSinceLastCork sp.lastCork none = .ok []
  replayed : ∀ {page_bits : Nat} {β : Type} {B : MetaDataBackendInterface page_bits β} {env : Surroundings page_bits β}
    {mdstore : CachedMetaDataStore page_bits β} {done l : List TLogId} {id : String}, B.Lawful → B.NonFailing →
    0 < env.cfg.replayClustersCached → OnBackend env sp.written → Linked B mdstore → Slots mdstore →
    mdstore.corks_ = [] → (∀ c ∈ mdstore.lastCork, c ∈ sp.written) →
    sp.getTLogsOnBackendSinceLastCork mdstore.lastCork none = .ok l → sp.written = done ++ l →
    Contains B env.nsid_map mdstore done →
    ∃ s', replay_tlogs_on_backend_since_last_cork B env { id := id } mdstore sp = .ok s' ∧
      Contains B env.nsid_map s' sp.written ∧
      (∀ id, sp.written.getLast? = some id → ∃ cork, s'.lastCork = some cork ∧ sp.Names cork id) ∧
      ∀ cork id, mdstore.lastCork = some cork → sp.Names cork id → ∃ cork' id', s'.lastCork = some cork' ∧
        sp.Names cork' id' ∧ sp.written.idxOf id ≤ sp.written.idxOf id'

variable {sp : SnapshotPersistor}

theorem getTLogs_admissible (hi : sp.Inv) (hp : sp.parent = none) (hw : sp.allTLogs.WrittenFirst)
    {md_cork : Option UUID} (hc : ∀ c ∈ md_cork, c ∈ sp.written) :
    ∃ done l, sp.written = done ++ l ∧ sp.getTLogsOnBackendSinceLastCork md_cork none = .ok l ∧
      (md_cork = none → done = []) ∧ ∀ c, md_cork = some c → done.getLast? = some c := by
  cases md_cork with
  | none =>
    refine ⟨[], sp.written, rfl, getTLogs_none hp hw, fun _ => rfl, ?_⟩
    intro c h; cases h
  | some c =>
    have hcw := hc c rfl
    obtain ⟨t, ht, -, rfl⟩ := mem_written hcw
    obtain ⟨done, l, h1, h2⟩ := hi.getTLogs_split hp hw hcw (Or.inl ⟨rfl, mem_map_of_mem ht⟩)
    refine ⟨done ++ [t.id], l, by rw [h1]; simp, h2, ?_, ?_⟩
    · intro h; cases h
    · rintro c ⟨⟩; simp

theorem idxOf_le_getLast {l : List TLogId} (hn : l.Nodup) {id last : TLogId} (hl : l.getLast? = some last)
    (hid : id ∈ l) : l.idxOf id ≤ l.idxOf last := by
  obtain ⟨ys, rfl⟩ := List.getLast?_eq_some_iff.1 hl
  have hlast : (ys ++ [last]).idxOf last = ys.length := by
    rw [nodup_append] at hn
    have hnot : last ∉ ys := fun h => hn.2.2 last h last (by simp) rfl
    rw [idxOf_append_of_notMem hnot]
    simp
  have hlt := idxOf_lt_length_of_mem hid
  rw [length_append, length_singleton] at hlt
  omega

/-- With no snapshot written in part, the replay makes `lastCork` the store's cork, or finds that it
already names the last written TLog. -/
theorem replay_ok (hi : sp.Inv) (hp : sp.parent = none) (hw : sp.allTLogs.WrittenFirst) (hn : sp.NonePartial)
    {B : MetaDataBackendInterface page_bits β} {env : Surroundings page_bits β}
    {mdstore : CachedMetaDataStore page_bits β} {done l : List TLogId} {id : String} (hB : B.Lawful)
    (hN : B.NonFailing) (hmax : 0 < env.cfg.replayClustersCached)
    (hon : OnBackend env sp.written) (hl : Linked B mdstore) (hs : Slots mdstore) (hcorks : mdstore.corks_ = [])
    (hc : ∀ c ∈ mdstore.lastCork, c ∈ sp.written)
    (hget : sp.getTLogsOnBackendSinceLastCork mdstore.lastCork none = .ok l) (hdone : sp.written = done ++ l)
    (hcont : Contains B env.nsid_map mdstore done) :
    ∃ s', replay_tlogs_on_backend_since_last_cork B env { id := id } mdstore sp = .ok s' ∧
      Contains B env.nsid_map s' sp.written ∧
      ∀ id, sp.written.getLast? = some id → ∃ cork, s'.lastCork = some cork ∧ sp.Names cork id := by
  have hstart : get_implicit_start_cork { id := id } env.createSnapshotPersistor sp = .ok none := by
    unfold get_implicit_start_cork
    rw [VERIFY_of hp]; rfl
  obtain ⟨done', l', h1, h2, h3, h4⟩ := getTLogs_admissible hi hp hw hc
  rw [hget] at h2
  obtain rfl := Except.ok.inj h2
  obtain rfl : done = done' := append_cancel_right (hdone.symm.trans h1)
  by_cases hnil : l = []
  · -- nothing to replay: the store's cork already names the last written TLog
    subst hnil
    rw [append_nil] at hdone
    refine ⟨mdstore, ?_, hdone ▸ hcont, ?_⟩
    · unfold replay_tlogs_on_backend_since_last_cork replay_on_backend
      rw [if_neg (by simp), hstart]
      simp [Except.mapError, hget, pure, Except.pure]
    · intro id hid
      cases hmd : mdstore.lastCork with
      | none => rw [hdone, h3 hmd] at hid; cases hid
      | some c =>
        rw [hdone, h4 c hmd] at hid
        cases hid
        obtain ⟨t, ht, -, rfl⟩ := mem_written (hc _ hmd)
        exact ⟨t.id, rfl, Or.inl ⟨rfl, mem_map_of_mem ht⟩⟩
  · have honl : OnBackend env l := fun t ht => hon t (by rw [hdone]; exact mem_append_right _ ht)
    obtain ⟨r, hr, hsane⟩ := honl.read
    obtain ⟨s', hs', -, -, hloc, hcork, -, -⟩ :=
      processCloneTLogs_ok hB hN hmax hr hsane hl hs hcorks sp.lastCork
    obtain ⟨r₀, hr₀, hloc₀⟩ := hcont
    refine ⟨s', ?_, ⟨r₀ ++ r, ?_, ?_⟩, ?_⟩
    · have hcheck : check_clone_tlogs_in_backend env.objectExists [(0, l)] = .ok () := by
        unfold check_clone_tlogs_in_backend
        simpa using fun t ht => (honl t ht).1
      unfold replay_tlogs_on_backend_since_last_cork replay_on_backend
      rw [if_neg (by simp), hstart]
      simp [Except.mapError, hget, hnil, hcheck, hs']
    · rw [hdone]; exact CombinedTLogReader_append hr₀ hr
    · rw [hloc, hloc₀, cloneBindings, cloneBindings, cloneBindings, ← replay_append, ← map_append]
    · intro id hid
      rcases hi.lastCork_cases hn with ⟨hw0, -⟩ | ⟨cork, id', hlast, hget', hname⟩
      · rw [hw0] at hid; cases hid
      · rw [hget'] at hid
        cases hid
        exact ⟨cork, hcork.trans hlast, hname⟩

/-- In the states of a volume that is no clone, the cork names what was replayed exactly if no
snapshot is on the backend only in part. -/
theorem corkExact_iff (h : SnapshotPersistor.Reachable SnapshotPersistor.LegalOnBackend none sp) :
    CorkExact sp ↔ sp.NonePartial := by
  have hi := h.legal.inv
  have hw := h.writtenFirst
  have hp := h.legal.parent fun _ _ hl => hl
  constructor
  · -- for a store without a cork the TLogs to replay are all written ones
    intro hex
    by_contra hn
    obtain ⟨id, hid, hnot⟩ := hi.lastCork_partial hw hn
    obtain ⟨l, hl, hlast⟩ := hex.last none (by simp)
    rw [getTLogs_none hp hw] at hl
    obtain rfl := Except.ok.inj hl
    obtain ⟨cork, hcork, hname⟩ := hlast id hid
    exact hnot cork hcork hname
  · intro hn
    refine ⟨?_, hi.getTLogs_lastCork hp hw hn, ?_⟩
    · intro md_cork hc
      obtain ⟨done, l, h1, h2, -, -⟩ := getTLogs_admissible hi hp hw hc
      refine ⟨l, h2, ?_⟩
      intro id hid
      have hlast : sp.written.getLast? = some id := by
        rw [h1, List.getLast?_append, hid]; rfl
      rcases hi.lastCork_cases hn with ⟨hw0, -⟩ | ⟨cork, id', hcork, hget, hname⟩
      · rw [hw0] at hlast; cases hlast
      · rw [hget] at hlast
        cases hlast
        exact ⟨cork, hcork, hname⟩
    · intro page_bits β B env mdstore done l id hB hN hmax hon hl hs hcorks hc hget hdone hcont
      obtain ⟨s', h1, h2, h3⟩ := replay_ok hi hp hw hn hB hN hmax hon hl hs hcorks hc hget hdone hcont
      refine ⟨s', h1, h2, h3, ?_⟩
      intro cork id hmd hname
      obtain ⟨t, ht, -, rfl⟩ := mem_written (hc cork hmd)
      have hid : id ∈ sp.written := by
        rcases hname with ⟨rfl, -⟩ | ⟨s, hs, hcs, hls⟩
        · exact hc _ hmd
        · rcases hi.corks s hs with h | h
          · rw [hls] at h
            rw [Option.some.inj h, hcs]; exact hc _ hmd
          · rw [hcs] at h
            exact absurd (mem_map_of_mem ht) h
      have hne : sp.written ≠ [] := ne_nil_of_mem hid
      obtain ⟨cork', hc', hn'⟩ := h3 _ (List.getLast?_eq_getLast_of_ne_nil hne)
      exact ⟨cork', _, hc', hn', idxOf_le_getLast (written_nodup hi)
        (List.getLast?_eq_getLast_of_ne_nil hne) hid⟩

theorem not_corkExact (id : TLogId) (l : List TLogId) (hc : sp.lastCork = none)
    (hl : sp.getTLogsOnBackendSinceLastCork none none = .ok (id :: l)) : ¬ CorkExact sp := by
  intro h
  obtain ⟨l', hl', hlast⟩ := h.last none (by simp)
  rw [hl] at hl'
  obtain rfl := Except.ok.inj hl'
  obtain ⟨cork, hcork, -⟩ := hlast _ (List.getLast?_eq_getLast_of_ne_nil (cons_ne_nil id l))
  rw [hc] at hcork
  cases hcork

/-- The first snapshot has two TLogs, of which only the first is written: `lastCork` is none, and the
written TLog is to be replayed. -/
theorem not_corkExact_partial : ∃ sp, SnapshotPersistor.Reachable SnapshotPersistor.LegalOnBackend none sp ∧
    sp.lastCork = none ∧ sp.getTLogsOnBackendSinceLastCork none none = .ok [1] ∧ ¬ CorkExact sp := by
  refine ⟨((((init none 0 1).step (.newTLog 2)).step (.snapshot "a" [] false 3)).step
    (.setTLogWrittenToBackend 1 true)), ?_, by decide, by decide, not_corkExact 1 [] (by decide) (by decide)⟩
  exact .step (.step (.step (.init 0 1) ⟨⟨by decide, by decide⟩, by simp⟩) ⟨⟨by decide, by decide⟩, by simp⟩)
    ⟨trivial, by simp⟩

/-- A snapshot that is written as a whole, with its cork, and current TLogs that are not. -/
theorem corkExact_written : ∃ sp : SnapshotPersistor, sp.lastCork = some 2 ∧ CorkExact sp := by
  have h : SnapshotPersistor.Reachable SnapshotPersistor.LegalOnBackend none
      (((((init none 0 1).step (.newTLog 2)).step (.snapshot "a" [] false 3)).step
        (.setTLogWrittenToBackend 1 true)).step (.setTLogWrittenToBackend 2 true)) :=
    .step (.step (.step (.step (.init 0 1) ⟨⟨by decide, by decide⟩, by simp⟩) ⟨⟨by decide, by decide⟩, by simp⟩)
      ⟨trivial, by simp⟩) ⟨trivial, by simp⟩
  exact ⟨_, by decide, (corkExact_iff h).2 (by unfold SnapshotPersistor.NonePartial; decide)⟩

end Restart

end VolumeDriver
