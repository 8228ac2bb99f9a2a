/-
All operations of the cached metadata store as one transition system, including calls that throw:
these leave the store as it was when they threw. Two of the operations drop pages unwritten; an
invariant of the cache that setting corks and scrub ids does not touch is kept by all the others.
-/
import VolumeDriver.MetaData.Refine
import VolumeDriver.MetaData.Relocs

namespace VolumeDriver

open Lib

namespace CachedMetaDataStore

variable {page_bits : Nat} {β : Type} (B : MetaDataBackendInterface page_bits β)

/-- The operations. -/
inductive Operation
  | basic (op : Op)
  | processCloneTLogs (cfg : ReplayConfig) (ctl : CloneTLogs) (nsidmap : NSIDMap) (sync : Bool) (cork : Option UUID)
  | applyRelocs (relocs : List Entry) (scid : SCOCloneID) (tmp scrub_id : ScrubId)
  | clear_all_keys
  | drop_cache_including_dirty_pages

/-- The store after an operation, however it ends. -/
def operate (s : CachedMetaDataStore page_bits β) : Operation → CachedMetaDataStore page_bits β
  | .basic op => after (step B s op) Prod.fst
  | .processCloneTLogs cfg ctl nsidmap sync cork => after (processCloneTLogs B cfg s ctl nsidmap sync cork) id
  | .applyRelocs relocs scid tmp scrub_id => after (applyRelocs B s relocs scid tmp scrub_id) Prod.fst
  | .clear_all_keys => after (clear_all_keys B s) id
  | .drop_cache_including_dirty_pages => after (drop_cache_including_dirty_pages B s) id

/-- An invariant of the cache that corks and scrub ids have no part in. -/
structure Stable (I : CachedMetaDataStore page_bits β → Prop) : Prop extends Keeps B (fun _ => True) I where
  setCork : ∀ {s} (u : UUID), I s → ∃ b, B.setCork s.backend_ u = .ok b ∧ I { s with backend_ := b }
  set_scrub_id : ∀ {s} (id : ScrubId), I s → ∃ b, B.set_scrub_id s.backend_ id = .ok b ∧ I { s with backend_ := b }
  frame : ∀ {s} (corks cork_uuid scrub_id), I s →
    I { s with corks_ := corks, cork_uuid_ := cork_uuid, scrub_id_ := scrub_id }

variable {B} {I : CachedMetaDataStore page_bits β → Prop} {s s' : CachedMetaDataStore page_bits β}

theorem verifyFront_ends (cork : Option UUID) {P : CachedMetaDataStore page_bits β → Prop} (h : P s) :
    Ends (s.verifyFront cork) (fun _ => s) P := by
  cases cork with
  | none => exact h
  | some c => exact (Ends.verify h).bind fun _ h => .verify h

/-! ## Operations that lose nothing -/

theorem Stable.unCork_ends (hI : Stable B I) (h : I s) (hs : Slots s) (cork : Option UUID) :
    Ends (unCork B s cork) id fun s' => I s' ∧ Slots s' := by
  have hends := verifyFront_ends cork (P := fun s' => I s' ∧ Slots s') ⟨h, hs⟩
  rcases hv : s.verifyFront cork with x | u
  · unfold unCork
    rw [hv] at hends ⊢
    exact hends
  · rcases he : s.corks_ with _ | ⟨front, _ | ⟨second, rest⟩⟩
    · unfold unCork; rw [hv, he]; exact ⟨h, hs⟩
    · unfold unCork; rw [hv, he]; exact ⟨h, hs⟩
    · have hf : ∀ c, cork = some c → front.1 = c := by
        rintro c rfl
        obtain ⟨_, hv⟩ := verify_bind_ok hv
        simpa [he] using verify_ok hv
      obtain ⟨s₂, b, h1, hc, hs₂, -, hb⟩ := hI.unCork h hs he hf (by simp) fun u hi => by
        obtain ⟨b, hb, -⟩ := hI.setCork u hi; exact ⟨b, hb⟩
      have h₂ := hI.cache h hc (by simp)
      obtain ⟨b', hb', h₃⟩ := hI.setCork front.1 h₂
      rw [hb] at hb'
      cases hb'
      rw [h1]
      exact ⟨hI.frame (second :: rest) (some front.1) s₂.scrub_id_ h₃, hs₂.congr rfl rfl rfl⟩

theorem Stable.writeCluster (hI : Stable B I) (h : I s) (hs : Slots s) (ca : ClusterAddress)
    (loc : ClusterLocationAndHash) : I (s.writeCluster ca loc) ∧ Slots (s.writeCluster ca loc) := by
  unfold CachedMetaDataStore.writeCluster
  split
  · exact ⟨hI.frame _ _ _ h, hs.congr rfl rfl rfl⟩
  · exact ⟨h, hs⟩

theorem Stable.step_ends (hI : Stable B I) (hB : B.Lawful) (h : I s) (hs : Slots s) (op : Op) :
    Ends (step B s op) Prod.fst fun s' => I s' ∧ Slots s' := by
  cases op with
  | cork cork =>
    change I (s.cork cork) ∧ Slots (s.cork cork)
    unfold CachedMetaDataStore.cork
    split
    · exact ⟨h, hs⟩
    · exact ⟨hI.frame _ _ _ h, hs.congr rfl rfl rfl⟩
  | writeCluster ca loc => exact hI.writeCluster h hs ca loc
  | discardCluster ca => exact hI.writeCluster h hs ca _
  | unCork cork => exact (hI.unCork_ends h hs cork).bind fun _ h => h
  | readCluster ca =>
    obtain ⟨s', h1, hc, hs'⟩ := hI.readCluster hB h hs ca
    rw [step, h1]
    exact ⟨hI.cache_nil h hc, hs'⟩
  | set_cache_capacity n =>
    rw [step]
    by_cases hn : 0 < n
    · obtain ⟨s', h1, hc, hs'⟩ := hI.set_cache_capacity h hs hn
      rw [h1]
      exact ⟨hI.cache_nil h hc, hs'⟩
    · unfold CachedMetaDataStore.set_cache_capacity CachedMetaDataStore.VERIFY verify
      rw [if_neg hn]
      exact ⟨h, hs⟩

theorem Stable.processCloneTLogs_ends (hI : Stable B I) (h : I s) (hs : Slots s) (cfg : ReplayConfig)
    (ctl : CloneTLogs) (nsidmap : NSIDMap) (sync : Bool) (cork : Option UUID) :
    Ends (processCloneTLogs B cfg s ctl nsidmap sync cork) id fun s' => I s' ∧ Slots s' := by
  refine (Ends.verify ⟨h, hs⟩).bind fun _ _ => ?_
  have hclones : Ends (processClones B cfg nsidmap s none ctl) id fun s' => I s' ∧ Slots s' :=
    (hI.processClones_ends cfg nsidmap ctl none h hs).imp fun s' ⟨⟨l, hc⟩, hs'⟩ => ⟨hI.cache h hc (by simp), hs'⟩
  refine hclones.bind fun s₁ (⟨h₁, hs₁⟩ : I s₁ ∧ Slots s₁) => ?_
  cases sync with
  | false => exact ⟨hI.frame _ cork _ h₁, hs₁.congr rfl rfl rfl⟩
  | true =>
    obtain ⟨s₂, h2, hc₂, hw⟩ := hI.maybeWritePages h₁
    have h₂ := hI.cache_nil h₁ hc₂
    have hs₂ := hs₁.wroteOut hw
    simp only [if_true, h2, ok_bind]
    cases cork with
    | none => exact ⟨hI.frame _ none _ h₂, hs₂.congr rfl rfl rfl⟩
    | some u =>
      obtain ⟨b, hb, h₃⟩ := hI.setCork u h₂
      simp only [call, hb, Except.mapError, ok_bind]
      exact ⟨hI.frame _ (some u) _ h₃, hs₂.congr rfl rfl rfl⟩

theorem Stable.setScrubId (hI : Stable B I) (h : I s) (hs : Slots s) (id : ScrubId) :
    ∃ s', CachedMetaDataStore.set_scrub_id B s id = .ok s' ∧ I s' ∧ Slots s' := by
  obtain ⟨b, hb, h'⟩ := hI.set_scrub_id id h
  refine ⟨{ s with backend_ := b, scrub_id_ := some id }, ?_, hI.frame _ _ (some id) h', hs.congr rfl rfl rfl⟩
  unfold CachedMetaDataStore.set_scrub_id call
  rw [hb]; rfl

theorem Stable.applyRelocs_ends (hI : Stable B I) (hB : B.Lawful) (h : I s) (hs : Slots s) (relocs : List Entry)
    (scid : SCOCloneID) (tmp scrub_id : ScrubId) :
    Ends (applyRelocs B s relocs scid tmp scrub_id) Prod.fst fun s' => I s' ∧ Slots s' := by
  unfold applyRelocs
  obtain ⟨s₁, h1, hi₁, hs₁⟩ := hI.setScrubId h hs tmp
  rw [h1, ok_bind]
  have hpairs : Ends (applyPairs B scid s₁ (relocs.filter (·.isLocation)) 0) Prod.fst fun s' => I s' ∧ Slots s' :=
    (hI.applyPairs_ends hB scid _ 0 hi₁ hs₁).imp fun s' ⟨⟨l, hc⟩, hs'⟩ => ⟨hI.cache hi₁ hc (by simp), hs'⟩
  refine hpairs.bind fun ⟨s₂, n⟩ ⟨hi₂, hs₂⟩ => ?_
  obtain ⟨s₃, h3, hc₃, hs₃⟩ := hI.write_dirty_pages hi₂ hs₂
  obtain ⟨s₄, h4, h₄⟩ := hI.setScrubId (hI.cache_nil hi₂ hc₃) hs₃ scrub_id
  dsimp only
  rw [h3, ok_bind, h4]
  exact h₄

/-! ## Operations that drop pages -/

/-- The cache is empty, and what it held is lost; all counters stay. -/
theorem drop_ok (h : Linked B s) (hs : Slots s) (ie : Bool) :
    ∃ f, do_write_dirty_pages_to_backend_and_clear_page_list B s false ie =
      .ok { s with pages_ := f, page_list_ := [], page_map_ := fun _ => none, num_pages_ := 0 } := by
  obtain ⟨_, h1, ⟨hl, l, m, n, rfl⟩, rfl, rfl⟩ := hs.foldUnlink (f := fun s i => pure (s.unlink i))
    (J := fun s' => Linked B s' ∧ ∃ l m n, s' = { s with page_list_ := l, page_map_ := m, num_pages_ := n }) (by
    rintro _ i ⟨hl, l, m, n, rfl⟩ hi
    exact ⟨_, rfl, ⟨hl.unlink B hi, _, _, _, rfl⟩, rfl, rfl⟩) h.nodup ⟨h, _, _, _, rfl⟩
  obtain rfl : m = fun _ => none := by
    funext pa
    cases hm : m pa with
    | none => rfl
    | some i => cases ((hl.map pa i).1 hm).1
  refine ⟨fun i => { s.pages_ i with data := CachePage.reset page_bits }, ?_⟩
  unfold do_write_dirty_pages_to_backend_and_clear_page_list
  simp only [Bool.false_eq_true, if_false]
  rw [h1]
  rfl

end CachedMetaDataStore

end VolumeDriver
