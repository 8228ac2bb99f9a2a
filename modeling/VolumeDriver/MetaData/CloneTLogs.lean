/-
Replaying TLogs on the metadata store (CachedMetaDataStore::processCloneTLogs): the TLogs of a
chain of clones, oldest ancestor first, grouped by page and written into the pages under the clone
id they have in this volume.
-/
import VolumeDriver.MetaData.Cache
import VolumeDriver.MetaData.Generator

namespace VolumeDriver

open Lib List
open PageGenerator (entries generate generate_ok ofPage pageOf)

/-- The TLogs to replay, by clone id. -/
abbrev CloneTLogs := List (SCOCloneID × List TLogId)

/-- The TLogs on the backend of each clone of the chain. -/
abbrev NSIDMap := SCOCloneID → TLogId → Except Exn (List Entry)

/-- How the entries are read ahead: `replayClustersCached`, and the order of the hash table. -/
structure ReplayConfig where
  replayClustersCached : Nat := 2 ^ 20
  begin_ : PageGenerator.Pages → Nat := fun _ => 0

/-- TLogs and the entries of each. -/
abbrev Logs := List (TLogId × List Entry)

/-- The entries of all of them. -/
abbrev Logs.entries (logs : Logs) : List Entry := (logs.map Prod.snd).flatten

/-- The location entries that a `CombinedTLogReader` over some TLogs returns. -/
def CombinedTLogReader (nsid : TLogId → Except Exn (List Entry)) (tlogs : List TLogId) : Except Exn (List Entry) := do
  let ls ← tlogs.mapM nsid
  pure (ls.flatten.filter (·.isLocation))

/-- The addresses and locations that entries stand for in clone `cloneid`. -/
def cloneBindings (cloneid : SCOCloneID) (l : List Entry) : Bindings :=
  l.map fun e => (e.clusteraddress, e.loc_and_hash.withCloneID cloneid)

namespace CachedMetaDataStore

variable {page_bits : Nat} {β : Type} (B : MetaDataBackendInterface page_bits β)

/-- Writes the entries of one page after the other. -/
def processPages (s : CachedMetaDataStore page_bits β) (pages : List (List Entry)) (cloneid : SCOCloneID) :
    Result page_bits β (CachedMetaDataStore page_bits β) :=
  pages.foldlM (fun s pd => writeAll B s (cloneBindings cloneid pd)) s

/-- Replays the entries of one clone. -/
def processTLogReaderInterface (cfg : ReplayConfig) (s : CachedMetaDataStore page_bits β) (r : List Entry)
    (cloneid : SCOCloneID) : Result page_bits β (CachedMetaDataStore page_bits β) := do
  s.VERIFY (0 < cfg.replayClustersCached) "cached_max_ > 0"
  let (pages, x) := generate page_bits cfg.replayClustersCached cfg.begin_ r.length { reader_ := r }
  let s ← processPages B s pages cloneid
  match x with
  | none => pure s
  | some x => throw (x, s)

/-- The loop over the clones; their ids go down. -/
def processClones (cfg : ReplayConfig) (nsidmap : NSIDMap) (s : CachedMetaDataStore page_bits β)
    (prev_cloneid : Option SCOCloneID) : CloneTLogs → Result page_bits β (CachedMetaDataStore page_bits β)
  | [] => pure s
  | (cloneid, tlogs) :: ctl => do
    s.VERIFY (∀ prev ∈ prev_cloneid, cloneid < prev) "prev_cloneid > cloneid"
    let r ← (CombinedTLogReader (nsidmap cloneid) tlogs).mapError fun e => (e, s)
    let s ← processTLogReaderInterface B cfg s r cloneid
    processClones cfg nsidmap s (some cloneid) ctl

/-- Replays all TLogs, and records the cork if the pages are written. -/
def processCloneTLogs (cfg : ReplayConfig) (s : CachedMetaDataStore page_bits β) (ctl : CloneTLogs) (nsidmap : NSIDMap)
    (sync : Bool) (cork : Option UUID) : Result page_bits β (CachedMetaDataStore page_bits β) := do
  s.VERIFY (s.corks_.length = 0 ∨ (s.corks_.length = 1 ∧ ∀ c ∈ s.corks_.head?, c.2.toList = []))
    "corks_.size() == 0 or (corks_.size() == 1 and corks_.front().second->empty())"
  let s ← processClones B cfg nsidmap s none ctl
  let s ←
    if sync then do
      let s ← maybeWritePages B s s.page_list_
      match cork with
      | none => pure s
      | some cork => do
        let b ← s.call (B.setCork s.backend_ cork)
        pure { s with backend_ := b }
    else pure s
  pure { s with cork_uuid_ := cork }

/-! ## What a replay writes -/

variable {B} {W : ClusterAddress → Prop} {I : CachedMetaDataStore page_bits β → Prop}
  {s s' : CachedMetaDataStore page_bits β}

theorem Keeps.processPages (hI : Keeps B (fun _ => True) I) (cloneid : SCOCloneID) : ∀ (pages : List (List Entry))
    {s : CachedMetaDataStore page_bits β}, I s → Slots s →
    ∃ s', processPages B s pages cloneid = .ok s' ∧ Cache B s (cloneBindings cloneid pages.flatten) s' ∧ Slots s'
  | [], s, _, hs => ⟨s, rfl, .refl, hs⟩
  | pd :: pages, s, h, hs => by
    obtain ⟨s₁, h1, hc₁, hs₁⟩ := hI.writeAll (cloneBindings cloneid pd) (by simp) h hs
    obtain ⟨s', h2, hc₂, hs'⟩ := hI.processPages cloneid pages (hI.cache h hc₁ (by simp)) hs₁
    refine ⟨s', ?_, ?_, hs'⟩
    · unfold CachedMetaDataStore.processPages at h2 ⊢
      rw [foldlM_cons, h1]; exact h2
    · have := hc₁.trans B hc₂
      rwa [cloneBindings, cloneBindings, ← map_append, ← flatten_cons] at this

variable {nsid : TLogId → Except Exn (List Entry)} {r : List Entry} {tlogs : List TLogId} {cfg : ReplayConfig}

theorem CombinedTLogReader_isLocation (h : CombinedTLogReader nsid tlogs = .ok r) : ∀ e ∈ r, e.isLocation = true := by
  obtain ⟨ls, _, h⟩ := bind_ok h
  rw [← pure_ok h]
  exact fun e he => (mem_filter.1 he).2

theorem CombinedTLogReader_append {a b : List TLogId} {ra rb : List Entry}
    (ha : CombinedTLogReader nsid a = .ok ra) (hb : CombinedTLogReader nsid b = .ok rb) :
    CombinedTLogReader nsid (a ++ b) = .ok (ra ++ rb) := by
  obtain ⟨la, h1, h2⟩ := bind_ok ha
  obtain ⟨lb, h3, h4⟩ := bind_ok hb
  unfold CombinedTLogReader
  rw [mapM_append, h1, ok_bind, h3, ← pure_ok h2, ← pure_ok h4]
  simp [pure, Except.pure]

theorem CombinedTLogReader_cons {t : TLogId} {l : List Entry} (ht : nsid t = .ok l)
    (h : CombinedTLogReader nsid tlogs = .ok r) :
    CombinedTLogReader nsid (t :: tlogs) = .ok (l.filter (·.isLocation) ++ r) := by
  have hone : CombinedTLogReader nsid [t] = .ok (l.filter (·.isLocation)) := by
    unfold CombinedTLogReader
    rw [mapM_cons, ht]
    simp [pure, Except.pure]
  exact CombinedTLogReader_append hone h

theorem CombinedTLogReader_logs : ∀ {logs : Logs},
    (∀ t ∈ logs, ∃ l, nsid t.1 = .ok l ∧ l.filter (·.isLocation) = t.2) →
      CombinedTLogReader nsid (logs.map Prod.fst) = .ok logs.entries
  | [], _ => rfl
  | t :: logs, ht => by
    obtain ⟨l, h1, h2⟩ := ht t (mem_cons_self ..)
    have hcons := CombinedTLogReader_cons h1 (CombinedTLogReader_logs fun x hx => ht x (mem_cons_of_mem _ hx))
    rwa [h2] at hcons

theorem filter_cloneBindings (cloneid : SCOCloneID) (pa : PageAddress) (l : List Entry) :
    (shown (cloneBindings cloneid l)).filter (fun p => CachePage.pageAddress page_bits p.1 = pa) =
      shown (cloneBindings cloneid (ofPage page_bits pa l)) := by
  simp only [shown, cloneBindings, ofPage, map_map, filter_map]
  rfl

theorem replay_generate (page_bits : Nat) (hmax : 0 < cfg.replayClustersCached)
    (hsane : ∀ e ∈ r, ∃ ca, e.clusterAddress = .ok ca) (cloneid : SCOCloneID) :
    ∃ pages, generate page_bits cfg.replayClustersCached cfg.begin_ r.length { reader_ := r } = (pages, none) ∧
      ∀ m, replay m (shown (cloneBindings cloneid pages.flatten)) = replay m (shown (cloneBindings cloneid r)) := by
  obtain ⟨pages, h1, h2⟩ := @generate_ok page_bits _ hmax cfg.begin_ r.length { reader_ := r }
    ⟨⟨by simp, by simp, by simp⟩, rfl, hsane⟩ (Nat.zero_le _) (fun _ => hmax) (by simp)
  refine ⟨pages, h1, fun m => replay_of_classes (CachePage.pageAddress page_bits) (fun pa => ?_) m⟩
  rw [filter_cloneBindings, filter_cloneBindings, h2 pa]
  rfl

/-- For every window and every order of the hash table the generator's loop ends without a failed `VERIFY`, never has
more than `cached_max` entries read ahead, hands out every entry once, those of one address in order, and so leaves
what the entries one by one leave. -/
theorem generated_pages (page_bits cached_max : Nat) (hmax : 0 < cached_max)
    (begin_ : Nat → PageGenerator.Pages → Nat) (r : List Entry)
    (hloc : ∀ e ∈ r, ∃ ca loc, Entry.mkLocation ca loc = .ok e) :
    ∃ g gs, PageGenerator.Generator.new page_bits cached_max (begin_ r.length) r = .ok g ∧
      g.run page_bits cached_max begin_ r.length = .ok gs ∧
      (gs.map (·.current_)).flatten.Perm r ∧
      (∀ ca, (gs.map (·.current_)).flatten.filter (·.clusteraddress = ca) = r.filter (·.clusteraddress = ca)) ∧
      (∀ g ∈ gs, g.cached_ = g.current_.length + (entries g.pages_).length ∧ g.cached_ ≤ cached_max) ∧
      ∀ cloneid m, (gs.map (·.current_)).foldl (fun m pd => replay m (cloneBindings cloneid pd)) m =
        replay m (cloneBindings cloneid r) := by
  have hsane : ∀ e ∈ r, ∃ ca, e.clusterAddress = .ok ca := fun e he => by
    obtain ⟨ca, loc, h⟩ := hloc e he
    obtain ⟨rfl, -, hle⟩ := Entry.mkLocation_ok h
    exact ⟨ca, by simp [Entry.clusterAddress, verify_of hle, pure, Except.pure]⟩
  have hok : PageGenerator.Ok page_bits { reader_ := r } := ⟨⟨by simp, by simp, by simp⟩, rfl, hsane⟩
  obtain ⟨g, hnew, hg, htotal, hpage⟩ := PageGenerator.Generator.update_ok (begin_ r.length)
    (g := { reader_ := r }) ⟨hok, hmax, Nat.zero_le _, by simp, fun _ => hmax⟩
  obtain ⟨gs, hrun, hall, hout⟩ := PageGenerator.Generator.run_ok begin_ r.length hg (by simpa using htotal.le)
  have hsame : ∀ pa, ofPage page_bits pa (gs.map (·.current_)).flatten =
      ofPage page_bits pa r := fun pa => (hout pa).trans (hpage pa)
  have hca : ∀ (ca) (l : List Entry), l.filter (·.clusteraddress = ca) =
      (ofPage page_bits (CachePage.pageAddress page_bits ca) l).filter (·.clusteraddress = ca) := by
    intro ca l
    rw [ofPage, filter_filter]
    refine filter_congr fun e _ => ?_
    by_cases h : e.clusteraddress = ca <;> simp [h, pageOf]
  have haddr : ∀ ca, (gs.map (·.current_)).flatten.filter (·.clusteraddress = ca) = r.filter (·.clusteraddress = ca) :=
    fun ca => by rw [hca, hsame, ← hca]
  refine ⟨g, gs, ?_, hrun, perm_iff_count.2 fun e => ?_, haddr, fun g hg => ?_, fun cloneid m => ?_⟩
  · rw [PageGenerator.Generator.new, VERIFY_of hmax, ok_bind, hnew]
  · rw [← count_filter (p := fun x => x.clusteraddress = e.clusteraddress) (by simp), haddr, count_filter (by simp)]
  · have h := hall g hg
    have := h.ok.cached
    have := h.size
    have := h.le
    simp only at *
    exact ⟨by omega, h.max⟩
  · generalize gs.map (·.current_) = pages at haddr
    have hbind : ∀ ca (l : List Entry), (cloneBindings cloneid l).filter (fun p => p.1 = ca) =
        cloneBindings cloneid (l.filter (·.clusteraddress = ca)) := fun ca l => by
      rw [cloneBindings, filter_map]; rfl
    calc pages.foldl (fun m pd => replay m (cloneBindings cloneid pd)) m
        = replay m (cloneBindings cloneid pages.flatten) := by
          simp only [replay, cloneBindings, foldl_map, foldl_flatten]
      _ = replay m (cloneBindings cloneid r) := replay_of_classes id (fun ca => by
          simp only [id, hbind, haddr]) m

/-- Address 5 is written twice, and a window of two entries is full before its second write is read. -/
theorem generated_pages_rewritten :
    let r : List Entry := [⟨5, ⟨⟨⟨1, 0, 0⟩, 0⟩, 0⟩⟩, ⟨9, ⟨⟨⟨1, 0, 0⟩, 1⟩, 0⟩⟩, ⟨5, ⟨⟨⟨1, 0, 0⟩, 2⟩, 0⟩⟩]
    ∃ g gs, PageGenerator.Generator.new 1 2 (fun _ => 3) r = .ok g ∧
      g.run 1 2 (fun n _ => n) 3 = .ok gs ∧ (gs.map (·.current_)).flatten.Perm r := by
  intro r
  obtain ⟨g, gs, hnew, hrun, hperm, _⟩ := generated_pages 1 2 (by decide) (fun n _ => n) r fun e he => by
    simp only [r, mem_cons, not_mem_nil, or_false] at he
    exact ⟨e.clusteraddress, e.loc_and_hash, by rcases he with rfl | rfl | rfl <;> rfl⟩
  exact ⟨g, gs, hnew, hrun, hperm⟩

/-- The store after a call, also one that throws. -/
def after {α : Type} (r : Result page_bits β α) (store : α → CachedMetaDataStore page_bits β) :
    CachedMetaDataStore page_bits β :=
  match r with
  | .ok a => store a
  | .error (_, s) => s

/-- However a call ends, it leaves the store in a state with `P`. -/
def Ends {α : Type} (r : Result page_bits β α) (store : α → CachedMetaDataStore page_bits β)
    (P : CachedMetaDataStore page_bits β → Prop) : Prop :=
  P (after r store)

variable {P : CachedMetaDataStore page_bits β → Prop}

theorem Ends.imp {α : Type} {r : Result page_bits β α} {store : α → CachedMetaDataStore page_bits β}
    {Q : CachedMetaDataStore page_bits β → Prop} (h : Ends r store P) (hPQ : ∀ s, P s → Q s) : Ends r store Q := by
  rcases r with ⟨e, s⟩ | a
  · exact hPQ s h
  · exact hPQ _ h

theorem Ends.bind {α γ : Type} {r : Result page_bits β α} {f : α → Result page_bits β γ}
    {mid : α → CachedMetaDataStore page_bits β} {store : γ → CachedMetaDataStore page_bits β}
    (h : Ends r mid P) (hf : ∀ a, P (mid a) → Ends (f a) store P) : Ends (r >>= f) store P := by
  rcases r with ⟨e, s⟩ | a
  · exact h
  · exact hf a h

theorem Ends.verify {p : Prop} [Decidable p] {what : String} (h : P s) : Ends (s.VERIFY p what) (fun _ => s) P := by
  unfold CachedMetaDataStore.VERIFY Lib.verify
  split <;> exact h

/-- A replay only makes steps of the cache and writes, also when it throws half way. -/
theorem Keeps.processClones_ends (hI : Keeps B (fun _ => True) I) (cfg : ReplayConfig) (nsidmap : NSIDMap) :
    ∀ (ctl : CloneTLogs) (prev : Option SCOCloneID) {s : CachedMetaDataStore page_bits β}, I s → Slots s →
      Ends (processClones B cfg nsidmap s prev ctl) id fun s' => (∃ l, Cache B s l s') ∧ Slots s'
  | [], _, s, _, hs => ⟨⟨[], .refl⟩, hs⟩
  | (cloneid, tlogs) :: ctl, prev, s, h, hs => by
    have hstart : (∃ l, Cache B s l s) ∧ Slots s := ⟨⟨[], .refl⟩, hs⟩
    have hclone : ∀ r, Ends (processTLogReaderInterface B cfg s r cloneid) id
        fun s' => (∃ l, Cache B s l s') ∧ Slots s' := by
      intro r
      refine (Ends.verify hstart).bind fun _ _ => ?_
      generalize generate page_bits cfg.replayClustersCached cfg.begin_ r.length { reader_ := r } = g
      obtain ⟨s₁, h1, hc₁, hs₁⟩ := hI.processPages cloneid g.1 h hs
      simp only [h1, ok_bind]
      cases g.2 <;> exact ⟨⟨_, hc₁⟩, hs₁⟩
    refine (Ends.verify hstart).bind fun _ _ => ?_
    cases CombinedTLogReader (nsidmap cloneid) tlogs with
    | error e => exact hstart
    | ok r =>
      exact (hclone r).bind fun s₁ ⟨⟨l, hc₁⟩, hs₁⟩ =>
        (hI.processClones_ends cfg nsidmap ctl (some cloneid) (hI.cache h hc₁ (by simp)) hs₁).imp
          fun s' ⟨⟨l, hc⟩, hs'⟩ => ⟨⟨_, hc₁.trans B hc⟩, hs'⟩

theorem Keeps.processTLogReaderInterface (hI : Keeps B (fun _ => True) I) (hB : B.Lawful)
    (hmax : 0 < cfg.replayClustersCached) (hsane : ∀ e ∈ r, ∃ ca, e.clusterAddress = .ok ca)
    (cloneid : SCOCloneID) (h : I s) (hs : Slots s) :
    ∃ s' l, processTLogReaderInterface B cfg s r cloneid = .ok s' ∧ Cache B s l s' ∧ Slots s' ∧
      s'.locationOf B = replay (s.locationOf B) (shown (cloneBindings cloneid r)) := by
  obtain ⟨pages, h1, h2⟩ := replay_generate page_bits hmax hsane cloneid
  obtain ⟨s', h3, hc, hs'⟩ := hI.processPages cloneid pages h hs
  refine ⟨s', _, ?_, hc, hs', ?_⟩
  · unfold CachedMetaDataStore.processTLogReaderInterface CachedMetaDataStore.VERIFY
    rw [verify_of hmax, ok_bind, h1]
    simp only [h3, ok_bind]
    rfl
  · rw [(hc.linked B hB (hI.linked h)).2, h2]

theorem processCloneTLogs_ok (hB : B.Lawful) (hN : B.NonFailing) (hmax : 0 < cfg.replayClustersCached)
    {nsidmap : NSIDMap}
    (hr : CombinedTLogReader (nsidmap 0) tlogs = .ok r) (hsane : ∀ e ∈ r, ∃ ca, e.clusterAddress = .ok ca)
    (hl : Linked B s) (hs : Slots s) (hc : s.corks_ = []) (cork : Option UUID) :
    ∃ s', processCloneTLogs B cfg s [(0, tlogs)] nsidmap true cork = .ok s' ∧ Linked B s' ∧ Slots s' ∧
      s'.locationOf B = replay (s.locationOf B) (cloneBindings 0 r) ∧ s'.cork_uuid_ = cork ∧ s'.corks_ = [] ∧
      B.lastCorkUUID s'.backend_ = cork.or (B.lastCorkUUID s.backend_) := by
  have hI := keeps_linked hB hN
  obtain ⟨s₁, l, h1, hc₁, hs₁, hloc₁⟩ := hI.processTLogReaderInterface hB hmax hsane 0 hl hs
  obtain ⟨hl₁, -⟩ := hc₁.linked B hB hl
  obtain ⟨s₂, h2, hc₂, hw⟩ := hI.maybeWritePages hl₁
  obtain ⟨hl₂, hloc₂⟩ := hc₂.linked B hB hl₁
  have hf := (hc₁.frame B hB).trans B (hc₂.frame B hB)
  have hshown : shown (cloneBindings 0 r) = cloneBindings 0 r := by
    refine shown_of_fixed fun p hp => ?_
    obtain ⟨e, he, rfl⟩ := mem_map.1 hp
    exact ClusterLocationAndHash.fixup_of_not_isNull (Entry.isLocation_iff.1 (CombinedTLogReader_isLocation hr e he))
  have hloc : s₂.locationOf B = replay (s.locationOf B) (cloneBindings 0 r) := by
    rw [hloc₂, hloc₁, hshown]; rfl
  have hclones : processClones B cfg nsidmap s none [(0, tlogs)] = .ok s₁ := by
    unfold processClones CachedMetaDataStore.VERIFY
    rw [verify_of (by simp), ok_bind, hr]
    simp only [Except.mapError, ok_bind, h1]
    rfl
  unfold processCloneTLogs CachedMetaDataStore.VERIFY
  rw [verify_of (by rw [hc]; simp), ok_bind, hclones]
  simp only [ok_bind, if_true, h2]
  cases cork with
  | none =>
    obtain ⟨hl', hloc'⟩ := hl₂.congr B { s₂ with cork_uuid_ := none } rfl rfl rfl rfl
    exact ⟨_, rfl, hl', hs₁.congr hw.size hw.num hw.list, hloc'.trans hloc, rfl, hf.corks.trans hc, hf.lastCork⟩
  | some u =>
    obtain ⟨b, hb⟩ := hN.cork s₂.backend_ u
    obtain ⟨hst, -, hlast⟩ := hB.cork hb
    obtain ⟨hl', hloc'⟩ := hl₂.congr B { s₂ with backend_ := b, cork_uuid_ := some u } rfl rfl rfl hst
    refine ⟨_, ?_, hl', hs₁.congr hw.size hw.num hw.list, hloc'.trans hloc, rfl, hf.corks.trans hc, hlast⟩
    simp only [call, hb, Except.mapError]
    rfl

end CachedMetaDataStore

end VolumeDriver
