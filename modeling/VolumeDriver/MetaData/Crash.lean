/-
Corks and crashes. A cork is recorded on the backend after the pages of its TLog were written, and
page writes are only guaranteed to be there once a later cork was recorded. Whatever a crash leaves,
replaying the TLogs that follow the recorded cork gives the map that all TLogs give.
-/
import VolumeDriver.MetaData.CloneTLogs
import VolumeDriver.MetaData.Refine
import VolumeDriver.Lib.Lists

namespace VolumeDriver

open Lib List
open CachePage

/-- The TLogs of a volume with their location entries, oldest first. -/
abbrev History := List (TLogId × List Entry)

namespace History

/-- All entries as bindings. -/
def bindings (h : History) : Bindings :=
  (h.map fun t => t.2.map Entry.binding).flatten

/-- What the TLogs say of every address, starting from an empty store. -/
def toMap (h : History) : ClusterMap :=
  replay (fun _ => .discarded_location_and_hash) h.bindings

@[simp] theorem bindings_append (a b : History) : bindings (a ++ b) = bindings a ++ bindings b := by
  simp [bindings]

theorem bindings_eq (h : History) : h.bindings = (List.map Prod.snd h).flatten.map Entry.binding := by
  simp [bindings, map_flatten, Function.comp_def]

theorem toMap_append (a b : History) : toMap (a ++ b) = replay a.toMap b.bindings := by
  rw [toMap, bindings_append, replay_append]; rfl

end History

namespace Journal

variable {page_bits : Nat}

/-! ## What is left after a crash -/

/-- What a crash may leave of the calls made: all up to the last cork that was recorded, which is
a barrier, and any of the page writes after it. -/
def Crash (calls left : List (Call page_bits)) : Prop :=
  ∃ pre post post', (pre ++ post) <+: calls ∧ (∀ c ∈ post, ∀ u, c ≠ .setCork u) ∧
    (pre = [] ∨ ∃ pre' u, pre = pre' ++ [.setCork u]) ∧ post'.Sublist post ∧ left = pre ++ post'

/-- The pages after some calls on an empty backend. -/
def pagesOf (calls : List (Call page_bits)) : PageAddress → Option (PageData page_bits) :=
  calls.foldl applyPages fun _ => none

/-- The location of an address in stored pages. -/
def locationIn (m : PageAddress → Option (PageData page_bits)) (ca : ClusterAddress) : ClusterLocationAndHash :=
  ((m (pageAddress page_bits ca)).getD (reset page_bits) (offset page_bits ca)).fixup

/-- A page write that agrees with `m` on all addresses but those in `K`. -/
def PageWrite (m : ClusterMap) (K : ClusterAddress → Prop) : Call page_bits → Prop
  | .putPage pa data => ∀ k : Fin (2 ^ page_bits), ¬ K (clusterAddress page_bits pa + k) →
      (data k).fixup = m (clusterAddress page_bits pa + k)
  | .discardPage pa => ∀ k : Fin (2 ^ page_bits), ¬ K (clusterAddress page_bits pa + k) →
      ClusterLocationAndHash.discarded_location_and_hash = m (clusterAddress page_bits pa + k)
  | _ => False

variable {m : ClusterMap} {K : ClusterAddress → Prop}

theorem eq_clusterAddress_add (ca : ClusterAddress) :
    ca = clusterAddress page_bits (pageAddress page_bits ca) + offset page_bits ca := by
  rw [clusterAddress_eq, pageAddress_eq, offset_val, Nat.mul_comm, Nat.div_add_mod]

theorem PageWrite.agree : ∀ {w : List (Call page_bits)}, (∀ c ∈ w, PageWrite m K c) →
    ∀ {pages : PageAddress → Option (PageData page_bits)}, (∀ ca, ¬ K ca → locationIn pages ca = m ca) →
      ∀ ca, ¬ K ca → locationIn (w.foldl applyPages pages) ca = m ca
  | [], _, _, h => h
  | c :: w, hw, pages, h => by
    refine PageWrite.agree (fun x hx => hw x (mem_cons_of_mem _ hx)) fun ca hK => ?_
    have hc := hw c (mem_cons_self ..)
    cases c with
    | putPage pa | discardPage pa =>
      by_cases hpa : pageAddress page_bits ca = pa
      · subst hpa
        have := hc (offset page_bits ca)
        rw [← eq_clusterAddress_add] at this
        rw [← this hK]
        simp [locationIn, applyPages, reset] <;> rfl
      · rw [← h ca hK]
        simp [locationIn, applyPages, hpa]
    | setCork u => exact hc.elim
    | set_scrub_id u => exact hc.elim
    | clear_all_keys => exact hc.elim

theorem PageWrite.not_setCork {c : Call page_bits} (h : PageWrite m K c) (u : UUID) : c ≠ .setCork u := by
  rintro rfl; exact h

/-- The addresses of a TLog. -/
def Keys (l : List Entry) (ca : ClusterAddress) : Prop := ca ∈ l.map (·.clusteraddress)

/-- The calls made when the TLogs `done` were uncorked, one after the other: the page writes of a
TLog touch its addresses only, and its cork follows once the pages are as the TLogs say. -/
inductive Journaled : History → List (Call page_bits) → Prop
  | nil : Journaled [] []
  | uncork {done : History} {calls w : List (Call page_bits)} {t : TLogId × List Entry} (prev : Journaled done calls)
      (writes : ∀ c ∈ w, PageWrite done.toMap (Keys t.2) c)
      (pages : ∀ ca, locationIn (pagesOf (calls ++ w)) ca = History.toMap (done ++ [t]) ca) :
      Journaled (done ++ [t]) (calls ++ w ++ [.setCork t.1])

/-- The cork after some calls. -/
def corkOf (calls : List (Call page_bits)) : Option UUID := calls.foldl applyCork none

/-- The addresses that may be ahead of the cork: those of the TLog that comes next. -/
def Ahead (rest : History) (K : ClusterAddress → Prop) : ClusterAddress → Prop :=
  match rest with
  | [] => K
  | t :: _ => Keys t.2

theorem foldl_applyCork_pageWrites : ∀ {w : List (Call page_bits)} (_ : ∀ c ∈ w, PageWrite m K c) (c : Option UUID),
    w.foldl applyCork c = c
  | [], _, _ => rfl
  | x :: w, hw, c => by
    have hx := hw x (mem_cons_self ..)
    have ih := foldl_applyCork_pageWrites (fun y hy => hw y (mem_cons_of_mem _ hy))
    cases x with
    | putPage | discardPage => exact ih c
    | setCork | set_scrub_id | clear_all_keys => exact hx.elim

theorem barrier_unique {a w pre post : List (Call page_bits)} {u : UUID} (hw : ∀ c ∈ w, ∀ u, c ≠ .setCork u)
    (hpost : ∀ c ∈ post, ∀ u, c ≠ .setCork u) (hpre : pre = [] ∨ ∃ pre' u, pre = pre' ++ [.setCork u])
    (h : pre ++ post = a ++ [.setCork u] ++ w) : pre = a ++ [.setCork u] ∧ post = w := by
  rcases append_eq_append_iff.1 h with ⟨x, h1, h2⟩ | ⟨x, h1, h2⟩
  · -- the barrier comes before `u` was recorded: then `u` is among the calls after it
    rcases eq_nil_or_concat x with rfl | ⟨x', c, rfl⟩
    · exact ⟨by simpa using h1.symm, by simpa using h2⟩
    · rw [concat_eq_append, ← append_assoc] at h1
      have := (append_inj' h1 rfl).2
      exact absurd (List.cons.inj this).1.symm (hpost c (by rw [h2]; simp) u)
  · -- it comes later: then there is a cork among the writes
    rcases hpre with rfl | ⟨pre', u', rfl⟩
    · have := congrArg List.length h1
      simp at this
    · rcases eq_nil_or_concat x with rfl | ⟨x', c, rfl⟩
      · exact ⟨by simpa using h1, by simpa using h2.symm⟩
      · rw [concat_eq_append, ← append_assoc] at h1
        have := (append_inj' h1 rfl).2
        exact absurd (List.cons.inj this).1.symm (hw c (by rw [h2]; simp) u')

/-- What a crash leaves agrees with the TLogs up to the recorded cork, but for the addresses of the
TLog that comes next. -/
theorem Journaled.crash {done : History} {calls : List (Call page_bits)} (h : Journaled done calls) :
    ∀ {w left : List (Call page_bits)} {K : ClusterAddress → Prop}, (∀ c ∈ w, PageWrite done.toMap K c) →
      Crash (calls ++ w) left → ∃ done' rest, done = done' ++ rest ∧ corkOf left = done'.getLast?.map Prod.fst ∧
        ∀ ca, ¬ Ahead rest K ca → locationIn (pagesOf left) ca = done'.toMap ca := by
  induction h with
  | nil =>
    rintro w left K hw ⟨pre, post, post', ⟨z, hz⟩, _, hpre, hsub, rfl⟩
    have hmem : ∀ c ∈ pre ++ post, c ∈ w := fun c hc => by
      rw [nil_append] at hz
      rw [← hz]; exact mem_append_left _ hc
    have hnil : pre = [] := by
      refine hpre.resolve_right ?_
      rintro ⟨pre', u, rfl⟩
      exact (hw _ (hmem (.setCork u) (by simp))).not_setCork u rfl
    subst hnil
    have hpw : ∀ c ∈ post', PageWrite (History.toMap []) K c :=
      fun c hc => hw c (hmem c (by simpa using hsub.subset hc))
    refine ⟨[], [], rfl, foldl_applyCork_pageWrites hpw none, fun ca hK => ?_⟩
    exact PageWrite.agree hpw (fun ca _ => rfl) ca hK
  | @uncork done calls w₀ t prev hw₀ hpages ih =>
    rintro w left K hw ⟨pre, post, post', hprefix, hpost, hpre, hsub, rfl⟩
    have hcase : (pre ++ post) <+: (calls ++ w₀) ∨
        ∃ w₁, w₁ <+: w ∧ pre ++ post = calls ++ w₀ ++ [.setCork t.1] ++ w₁ := by
      rcases prefix_or_prefix_of_prefix hprefix (prefix_append _ _) with h | ⟨w₁, h⟩
      · rcases prefix_concat_iff.1 h with h | h
        · exact .inr ⟨[], nil_prefix, by simpa using h⟩
        · exact .inl h
      · refine .inr ⟨w₁, ?_, h.symm⟩
        rw [← h] at hprefix
        exact (prefix_append_right_inj _).1 hprefix
    rcases hcase with hbefore | ⟨w₁, hw₁, heq⟩
    · -- the crash came before the cork of `t` was recorded
      obtain ⟨done', rest, hd, hc, hloc⟩ := ih hw₀ ⟨pre, post, post', hbefore, hpost, hpre, hsub, rfl⟩
      refine ⟨done', rest ++ [t], by rw [hd, append_assoc], hc, fun ca hK => hloc ca ?_⟩
      cases rest with
      | nil => exact hK
      | cons x rest => exact hK
    · -- it came after: page writes of the next TLog may be there
      have hw₁' : ∀ c ∈ w₁, PageWrite (History.toMap (done ++ [t])) K c := fun c hc => hw c (hw₁.subset hc)
      obtain ⟨rfl, rfl⟩ := barrier_unique (fun c hc u => (hw₁' c hc).not_setCork u) hpost hpre heq
      have hpw : ∀ c ∈ post', PageWrite (History.toMap (done ++ [t])) K c := fun c hc => hw₁' c (hsub.subset hc)
      refine ⟨done ++ [t], [], by simp, ?_, fun ca hK => ?_⟩
      · rw [corkOf, foldl_append, foldl_applyCork_pageWrites hpw, foldl_append]
        simp [applyCork]
      · rw [pagesOf, foldl_append]
        refine PageWrite.agree hpw (fun ca _ => ?_) ca hK
        rw [foldl_append]
        exact hpages ca

theorem PageWrite.mono {K' : ClusterAddress → Prop} (hK : ∀ ca, K ca → K' ca) : ∀ {c : Call page_bits},
    PageWrite m K c → PageWrite m K' c
  | .putPage _ _, h => fun k hk => h k fun h' => hk (hK _ h')
  | .discardPage _, h => fun k hk => h k fun h' => hk (hK _ h')
  | .setCork _, h => h
  | .set_scrub_id _, h => h
  | .clear_all_keys, h => h

end Journal

namespace CachedMetaDataStore

open Journal

variable {page_bits : Nat} {β : Type}

/-! ## The calls of a store -/

theorem Linked.locationOf_page {B : MetaDataBackendInterface page_bits β} {s : CachedMetaDataStore page_bits β}
    (h : Linked B s) {i : Nat} (hi : i ∈ s.page_list_) (k : Fin (2 ^ page_bits)) :
    s.locationOf B (clusterAddress page_bits (s.pages_ i).page_address + k) = ((s.pages_ i).data k).fixup := by
  rw [locationOf, pageAddress_add, offset_add, contents_of_some B (h.mapped B hi)]

theorem Linked.stored_of_clean {B : MetaDataBackendInterface page_bits β} {s : CachedMetaDataStore page_bits β}
    (h : Linked B s) (hc : ∀ i ∈ s.page_list_, (s.pages_ i).dirty = false) (ca : ClusterAddress) :
    (B.stored s.backend_ (pageAddress page_bits ca) (offset page_bits ca)).fixup = s.locationOf B ca := by
  rw [locationOf]
  cases hm : s.page_map_ (pageAddress page_bits ca) with
  | none => rw [contents_of_none B hm]
  | some i =>
    obtain ⟨hi, ha⟩ := (h.map _ _).1 hm
    rw [contents_of_some B hm, ← ha]
    exact (h.clean i hi (hc i hi) _).symm

variable {m : ClusterMap} {K : ClusterAddress → Prop} {c₀ : List (Call page_bits)}
  {s s' : CachedMetaDataStore page_bits (Journal page_bits)}

/-- Since the calls `c₀` the store has written pages that are ahead of `m` in the addresses `K` at
most. -/
structure Writing (c₀ : List (Call page_bits)) (m : ClusterMap)
    (K : ClusterAddress → Prop) (s : CachedMetaDataStore page_bits (Journal page_bits)) : Prop where
  linked : Linked (backend page_bits) s
  base : s.backend_.base = fun _ => none
  outside : ∀ ca, ¬ K ca → s.locationOf (backend page_bits) ca = m ca
  calls : ∃ w, s.backend_.calls = c₀ ++ w ∧ ∀ c ∈ w, PageWrite m K c

theorem Writing.record (h : Writing c₀ m K s) {c : Call page_bits} (hc : PageWrite m K c) :
    ∃ w, (s.backend_.record c).calls = c₀ ++ w ∧ ∀ c ∈ w, PageWrite m K c := by
  obtain ⟨w, h1, h2⟩ := h.calls
  refine ⟨w ++ [c], by rw [Journal.record, h1, append_assoc], fun x hx => ?_⟩
  rcases mem_append.1 hx with hx | hx
  · exact h2 x hx
  · rw [mem_singleton.1 hx]; exact hc

theorem keeps_writing : Keeps (backend page_bits) K (Writing c₀ m K) where
  linked := fun h => h.linked
  put := fun _ _ => ⟨_, rfl⟩
  discard := fun _ _ _ _ => ⟨_, rfl⟩
  write := fun {s i ca} loc hK h hm => by
    obtain ⟨hl, hloc⟩ := h.linked.write (backend page_bits) loc hm
    refine ⟨hl, h.base, fun a ha => ?_, h.calls⟩
    rw [hloc, Function.update_of_ne fun he : a = ca => ha (he ▸ hK)]
    exact h.outside a ha
  internal := fun {s s'} h hi => by
    obtain ⟨hl, hloc⟩ := hi.linked (backend page_bits) (backend_lawful page_bits) h.linked
    have hout : ∀ ca, ¬ K ca → s'.locationOf (backend page_bits) ca = m ca := fun ca ha => by
      rw [hloc]; exact h.outside ca ha
    cases hi with
    | put hi hc =>
      cases hc
      refine ⟨hl, h.base, hout, h.record fun k hk => ?_⟩
      rw [← h.linked.locationOf_page hi]; exact h.outside _ hk
    | discard hi he _ hc =>
      cases hc
      refine ⟨hl, h.base, hout, h.record fun k hk => ?_⟩
      rw [← h.outside _ hk, h.linked.locationOf_page hi,
        ClusterLocationAndHash.fixup_of_isNull (of_decide_eq_true he k)]
    | touch | evict | load | slots => exact ⟨hl, h.base, hout, h.calls⟩

end CachedMetaDataStore

/-! ## Runs of a volume -/

/-- The TLogs of a running volume: those whose cork was recorded, and those still corked. -/
structure TLogRun where
  done : History := []
  corked : History := []

namespace TLogRun

open CachedMetaDataStore (Op)

/-- A cork starts a TLog, a write adds an entry to the newest one, and uncorking finishes the oldest. -/
def step (r : TLogRun) : Op → TLogRun
  | .cork u => if r.corked.getLast?.map Prod.fst = some u then r else { r with corked := r.corked ++ [(u, [])] }
  | .writeCluster ca loc =>
    match r.corked.getLast? with
    | some t => { r with corked := r.corked.dropLast ++ [(t.1, t.2 ++ [⟨ca, loc⟩])] }
    | none => r
  | .unCork _ =>
    match r.corked with
    | t :: corked => { done := r.done ++ [t], corked := corked }
    | [] => r
  | _ => r

/-- The TLogs after some operations. -/
def run (r : TLogRun) (ops : List Op) : TLogRun := ops.foldl step r

/-- All TLogs. -/
def history (r : TLogRun) : History := r.done ++ r.corked

/-- Their ids. -/
def ids (r : TLogRun) : List TLogId := List.map Prod.fst r.history

/-- A volume corks with the id of a new TLog or again with that of the newest, and writes locations
of its own that it can log. It does not discard. -/
def Legal (r : TLogRun) : Op → Prop
  | .cork u => u ∉ r.ids ∨ r.corked.getLast?.map Prod.fst = some u
  | .writeCluster ca loc => r.corked ≠ [] ∧ Entry.mkLocation ca loc = .ok ⟨ca, loc⟩ ∧ loc.withCloneID 0 = loc
  | .discardCluster _ => False
  | .unCork cork => 2 ≤ r.corked.length ∧ ∀ c, cork = some c → r.corked.head?.map Prod.fst = some c
  | .set_cache_capacity n => 0 < n
  | .readCluster _ => True

/-- Every operation is legal. -/
def LegalRun (r : TLogRun) : List Op → Prop
  | [] => True
  | op :: ops => r.Legal op ∧ (r.step op).LegalRun ops

end TLogRun

/-- A location entry of a volume's own, as TLogs hold it. -/
structure Entry.Own (e : Entry) : Prop where
  location : e.isLocation = true
  sane : e.clusterAddress = .ok e.clusteraddress
  own : e.loc_and_hash.withCloneID 0 = e.loc_and_hash

theorem Entry.Own.of_mkLocation {ca : ClusterAddress} {loc : ClusterLocationAndHash}
    (h : Entry.mkLocation ca loc = .ok ⟨ca, loc⟩) (ho : loc.withCloneID 0 = loc) : Entry.Own ⟨ca, loc⟩ := by
  obtain ⟨_, hn, hle⟩ := Entry.mkLocation_ok h
  refine ⟨Entry.isLocation_iff.2 hn, ?_, ho⟩
  unfold Entry.clusterAddress
  simp [verify_of hle, pure, Except.pure]

namespace CachedMetaDataStore

open Journal

variable {page_bits : Nat} {s s' : CachedMetaDataStore page_bits (Journal page_bits)} {r : TLogRun}

/-- The cork of a TLog has what its entries say. -/
def CorkOf (c : UUID × CaLocMap) (t : TLogId × List Entry) : Prop :=
  c.1 = t.1 ∧ ∀ ca, c.2[ca]? = lastBinding (t.2.map Entry.binding) ca

/-- The store of a volume with the TLogs `r`. -/
structure Follows (r : TLogRun) (s : CachedMetaDataStore page_bits (Journal page_bits)) : Prop where
  linked : Linked (backend page_bits) s
  slots : Slots s
  base : s.backend_.base = fun _ => none
  location : s.locationOf (backend page_bits) = r.done.toMap
  calls : ∃ c₀ w, s.backend_.calls = c₀ ++ w ∧ Journaled r.done c₀ ∧ ∀ c ∈ w, PageWrite r.done.toMap (fun _ => False) c
  corks : List.Forall₂ CorkOf s.corks_ r.corked
  ids : r.ids.Nodup
  own : ∀ t ∈ r.history, ∀ e ∈ t.2, e.Own

theorem Follows.writing (h : Follows r s) (K : ClusterAddress → Prop) :
    ∃ c₀, Journaled r.done c₀ ∧ Writing c₀ r.done.toMap K s := by
  obtain ⟨c₀, w, h1, h2, h3⟩ := h.calls
  refine ⟨c₀, h2, h.linked, h.base, fun ca _ => by rw [h.location], w, h1, fun c hc => (h3 c hc).mono fun _ h => h.elim⟩

theorem Follows.cache (h : Follows r s) (hc : Cache (backend page_bits) s [] s') (hs : Slots s') : Follows r s' := by
  have hB := backend_lawful page_bits
  obtain ⟨c₀, hj, hw⟩ := h.writing fun _ => False
  obtain ⟨w, h1, h2⟩ := (keeps_writing.cache_nil hw hc).calls
  obtain ⟨hl, hloc⟩ := hc.linked _ hB h.linked
  have hf := hc.frame _ hB
  exact ⟨hl, hs, (keeps_writing.cache_nil hw hc).base, by rw [hloc]; exact h.location, ⟨c₀, w, h1, hj, h2⟩,
    hf.corks ▸ h.corks, h.ids, h.own⟩

theorem Follows.cork (h : Follows r s) {u : UUID} (hl : r.Legal (.cork u)) : Follows (r.step (.cork u)) (s.cork u) := by
  have hlast : s.corks_.getLast?.map (·.1) = r.corked.getLast?.map Prod.fst := by
    have := (forall₂_map_left_iff.2 (forall₂_map_right_iff.2 (h.corks.imp fun _ _ hc => hc.1)) :
      List.Forall₂ (· = ·) (s.corks_.map Prod.fst) (r.corked.map Prod.fst))
    rw [forall₂_eq_eq_eq] at this
    rw [← List.getLast?_map, ← List.getLast?_map, this]
  simp only [CachedMetaDataStore.cork, TLogRun.step]
  rw [hlast]
  split
  · exact h
  · rename_i hne
    obtain ⟨hl', hloc⟩ := h.linked.congr (backend page_bits) { s with corks_ := s.corks_ ++ [(u, ∅)] } rfl rfl
      rfl rfl
    have hnew : u ∉ r.ids := hl.resolve_right hne
    refine ⟨hl', h.slots.congr rfl rfl rfl, h.base, hloc.trans h.location, h.calls, ?_, ?_, ?_⟩
    · exact rel_append h.corks (.cons ⟨rfl, by simp⟩ .nil)
    · have := h.ids
      simp only [TLogRun.ids, TLogRun.history, map_append, ← append_assoc] at this hnew ⊢
      exact this.append (nodup_singleton u) (by simpa using hnew)
    · intro t ht e he
      simp only [TLogRun.history, mem_append, mem_singleton] at ht
      rcases ht with ht | ht | rfl
      · exact h.own t (mem_append_left _ ht) e he
      · exact h.own t (mem_append_right _ ht) e he
      · cases he

theorem Follows.write (h : Follows r s) {ca : ClusterAddress} {loc : ClusterLocationAndHash}
    (hl : r.Legal (.writeCluster ca loc)) : Follows (r.step (.writeCluster ca loc)) (s.writeCluster ca loc) := by
  obtain ⟨hne, hmk, hown⟩ := hl
  rcases eq_nil_or_concat r.corked with hc | ⟨l', t, hc⟩
  · exact absurd hc hne
  rw [concat_eq_append] at hc
  have hcorks := h.corks
  rw [hc] at hcorks
  obtain ⟨l, ⟨u, c⟩, hs, hrest, hu, hmap⟩ := forall₂_concat_right hcorks
  have hw : s.writeCluster ca loc = { s with corks_ := l ++ [(u, c.insert ca loc)] } := by
    simp [writeCluster, hs]
  have hr : r.step (.writeCluster ca loc) = { r with corked := l' ++ [(t.1, t.2 ++ [⟨ca, loc⟩])] } := by
    simp [TLogRun.step, hc]
  obtain ⟨hl', hloc⟩ := h.linked.congr (backend page_bits) { s with corks_ := l ++ [(u, c.insert ca loc)] } rfl
    rfl rfl rfl
  have hhist : ∀ t', t' ∈ r.done ++ (l' ++ [t]) → t' ∈ r.history := fun t' ht => by
    rw [TLogRun.history, hc]; exact ht
  rw [hw, hr]
  refine ⟨hl', h.slots.congr rfl rfl rfl, h.base, hloc.trans h.location, h.calls, ?_, ?_, ?_⟩
  · refine rel_append hrest (.cons ⟨hu, fun a => ?_⟩ .nil)
    rw [Std.TreeMap.getElem?_insert, map_append, lastBinding_append, hmap a]
    change _ = (lastBinding [(ca, loc)] a).or _
    by_cases ha : ca = a
    · subst ha; simp [lastBinding]
    · simp [lastBinding, ha]
  · have := h.ids
    simp only [TLogRun.ids, TLogRun.history, hc, map_append, map_cons, map_nil] at this ⊢
    exact this
  · intro t' ht e he
    simp only [TLogRun.history, mem_append, mem_singleton] at ht
    rcases ht with ht | ht | rfl
    · exact h.own t' (hhist t' (by simp [ht])) e he
    · exact h.own t' (hhist t' (by simp [ht])) e he
    · rcases mem_append.1 he with he | he
      · exact h.own t (hhist t (by simp)) e he
      · rw [mem_singleton.1 he]; exact Entry.Own.of_mkLocation hmk hown

/-- Uncorking: the page writes of the oldest corked TLog are ahead in its addresses only, and its
cork is recorded when all of them are there. -/
theorem Follows.unCork (h : Follows r s) {cork : Option UUID} (hl : r.Legal (.unCork cork)) :
    ∃ s', unCork (backend page_bits) s cork = .ok s' ∧ Follows (r.step (.unCork cork)) s' := by
  have hB := backend_lawful page_bits
  obtain ⟨hlen, hfront⟩ := hl
  obtain ⟨t, t₂, rest, hr⟩ : ∃ t t₂ rest, r.corked = t :: t₂ :: rest := by
    rcases hc : r.corked with _ | ⟨t, _ | ⟨t₂, rest⟩⟩
    · rw [hc] at hlen; simp at hlen
    · rw [hc] at hlen; simp at hlen
    · exact ⟨t, t₂, rest, rfl⟩
  have hcorks := h.corks
  rw [hr] at hcorks
  obtain ⟨front, crest, hfc, hrest, he⟩ := forall₂_cons_right_iff.1 hcorks
  obtain ⟨second, crest, _, _, rfl⟩ := forall₂_cons_right_iff.1 hrest
  have hf : ∀ c, cork = some c → front.1 = c := fun c hc => by
    have := hfront c hc
    rw [hr] at this
    rw [hfc.1]; exact Option.some.inj this
  have hkeys : ∀ p ∈ front.2.toList, Keys t.2 p.1 := fun p hp => by
    have := Std.TreeMap.mem_toList_iff_getElem?_eq_some.1 hp
    rw [hfc.2] at this
    have hmem := mem_map_of_mem (f := Prod.fst) (lastBinding_mem this)
    rwa [map_map] at hmem
  obtain ⟨c₀, hj, hw⟩ := h.writing (Keys t.2)
  obtain ⟨s₂, b, h1, hc, hs₂, hclean, hb⟩ :=
    keeps_writing.unCork hw h.slots he hf hkeys fun u _ => (backend_nonFailing page_bits).cork _ u
  have hw₂ := keeps_writing.cache hw hc hkeys
  obtain ⟨w, hcalls, hpw⟩ := hw₂.calls
  obtain ⟨hl₂, hloc₂⟩ := hc.linked _ hB h.linked
  obtain ⟨hl', hloc'⟩ := hl₂.congr (backend page_bits)
    { s₂ with backend_ := b, cork_uuid_ := some front.1, corks_ := second :: crest } rfl rfl rfl (hB.cork hb).1
  have ht : t ∈ r.history := by rw [TLogRun.history, hr]; simp
  have hloc : s₂.locationOf (backend page_bits) = History.toMap (r.done ++ [t]) := by
    rw [hloc₂, h.location, History.toMap_append]
    funext ca
    rw [replay_apply, replay_apply, shown_of_fixed fun p hp => ?_, lastBinding_toList, hfc.2]
    · simp [History.bindings]
    · have := Std.TreeMap.mem_toList_iff_getElem?_eq_some.1 hp
      rw [hfc.2] at this
      obtain ⟨e, he, hep⟩ := mem_map.1 (lastBinding_mem this)
      have hnull := Entry.isLocation_iff.1 (h.own t ht e he).location
      rw [← (Prod.mk.inj hep).2]
      exact ClusterLocationAndHash.fixup_of_not_isNull hnull
  have hbcalls : b.calls = c₀ ++ w ++ [.setCork t.1] := by
    cases hb
    rw [Journal.record, hcalls, hfc.1]
  have hjour : Journaled (r.done ++ [t]) b.calls := by
    rw [hbcalls]
    refine .uncork hj hpw fun ca => ?_
    rw [← hloc, ← hl₂.stored_of_clean hclean ca, stored_eq, locationIn, pages, hw₂.base, hcalls]
    rfl
  have hstep : r.step (.unCork cork) = { done := r.done ++ [t], corked := t₂ :: rest } := by
    simp only [TLogRun.step, hr]
  have hhist : (r.step (.unCork cork)).history = r.history := by
    simp [hstep, TLogRun.history, hr]
  refine ⟨_, h1, hl', hs₂.congr rfl rfl rfl, ?_, ?_, ⟨b.calls, [], by simp, ?_, by simp⟩, ?_, ?_, ?_⟩
  · cases hb; exact hw₂.base
  · rw [hloc', hloc, hstep]
  · rw [hstep]; exact hjour
  · rw [hstep]; exact hrest
  · rw [TLogRun.ids, hhist]; exact h.ids
  · rw [hhist]; exact h.own

theorem Follows.step (h : Follows r s) {op : Op} (hl : r.Legal op) :
    ∃ s' out, step (backend page_bits) s op = .ok (s', out) ∧ Follows (r.step op) s' := by
  have hI := keeps_linked (backend_lawful page_bits) (backend_nonFailing page_bits)
  cases op with
  | cork u => exact ⟨_, _, rfl, h.cork hl⟩
  | writeCluster ca loc => exact ⟨_, _, rfl, h.write hl⟩
  | discardCluster ca => exact hl.elim
  | unCork cork =>
    obtain ⟨s', h1, hs⟩ := h.unCork hl
    exact ⟨s', [], by rw [CachedMetaDataStore.step, h1]; rfl, hs⟩
  | readCluster ca =>
    obtain ⟨s', h1, hc, hs⟩ := hI.readCluster (backend_lawful page_bits) h.linked h.slots ca
    exact ⟨s', _, by rw [CachedMetaDataStore.step, h1]; rfl, h.cache hc hs⟩
  | set_cache_capacity n =>
    obtain ⟨s', h1, hc, hs⟩ := hI.set_cache_capacity h.linked h.slots hl
    exact ⟨s', [], by rw [CachedMetaDataStore.step, h1]; rfl, h.cache hc hs⟩

theorem Follows.run : ∀ (ops : List Op) {r : TLogRun} {s : CachedMetaDataStore page_bits (Journal page_bits)},
    Follows r s → r.LegalRun ops → ∃ s' out, run (backend page_bits) s ops = .ok (s', out) ∧ Follows (r.run ops) s'
  | [], r, s, h, _ => ⟨s, [], rfl, h⟩
  | op :: ops, r, s, h, hl => by
    obtain ⟨s₁, out₁, h1, hs₁⟩ := h.step hl.1
    obtain ⟨s', out, h2, hs'⟩ := Follows.run ops hs₁ hl.2
    exact ⟨s', out₁ ++ out, by simp only [CachedMetaDataStore.run, h1, h2, ok_bind]; rfl, hs'⟩

theorem Follows.create (page_bits : Nat) (parent : PageAddress → Bool) {capacity : Nat} (hc : 0 < capacity) :
    ∃ s, create (backend page_bits) { parent := parent } capacity = .ok s ∧ Follows {} s := by
  obtain ⟨s, h1, hl, hs, hcorks, _, hb, hm⟩ :=
    create_ok (B := backend page_bits) (b := { parent := parent }) hc
  refine ⟨s, h1, hl, hs, by rw [hb], funext fun ca => ?_, ⟨[], [], by rw [hb]; rfl, .nil, by simp⟩,
    by rw [hcorks]; exact .nil, nodup_nil, by simp [TLogRun.history]⟩
  rw [locationOf, contents_of_none _ (by rw [hm]), hb]
  rfl

/-! ## Crashes -/

theorem prefix_unique {a b x y : History} (hn : (List.map Prod.fst (a ++ x)).Nodup) (h : a ++ x = b ++ y)
    (hl : a.getLast?.map Prod.fst = b.getLast?.map Prod.fst) : a = b ∧ x = y := by
  have key : ∀ {a b x y : History}, (List.map Prod.fst (a ++ x)).Nodup → ∀ z, b = a ++ z → x = z ++ y →
      a.getLast?.map Prod.fst = b.getLast?.map Prod.fst → z = [] := by
    intro a b x y hn z hb hx hl
    rcases eq_nil_or_concat z with rfl | ⟨z', t, rfl⟩
    · rfl
    · rw [hb, concat_eq_append, ← append_assoc, List.getLast?_concat] at hl
      rcases eq_nil_or_concat a with rfl | ⟨a', t', rfl⟩
      · simp at hl
      · rw [hx] at hn
        simp only [concat_eq_append, List.getLast?_concat, Option.map_some, Option.some.injEq, map_append,
          map_cons, map_nil, nodup_append] at hl hn
        exact absurd hl (hn.2.2 t'.1 (by simp) t.1 (by simp))
  rcases append_eq_append_iff.1 h with ⟨z, h1, h2⟩ | ⟨z, h1, h2⟩
  · have hz := key hn z h1 h2 hl
    subst hz
    exact ⟨by simpa using h1.symm, by simpa using h2⟩
  · have hz := key (h ▸ hn) z h1 h2 hl.symm
    subst hz
    exact ⟨by simpa using h1, by simpa using h2.symm⟩

/-- The map after a crash and a replay of the TLogs `mid`, which follow the recorded cork. -/
theorem Follows.crash (h : Follows r s) {left : List (Call page_bits)} (hc : Crash s.backend_.calls left)
    {done mid more : History} (hh : r.history = done ++ mid ++ more) (hne : mid ≠ [])
    (hl : corkOf left = done.getLast?.map Prod.fst) :
    replay (locationIn (pagesOf left)) mid.bindings = History.toMap (done ++ mid) := by
  obtain ⟨c₀, w, h1, hj, hw⟩ := h.calls
  rw [h1] at hc
  obtain ⟨done', rest, hd, hcork, hloc⟩ := hj.crash hw hc
  have hn := h.ids
  rw [TLogRun.ids, hh, append_assoc] at hn
  have hsplit : done ++ (mid ++ more) = done' ++ (rest ++ r.corked) := by
    rw [← append_assoc, ← hh, TLogRun.history, hd, append_assoc]
  obtain ⟨rfl, hrest⟩ := prefix_unique hn hsplit (hl.symm.trans hcork)
  rw [History.toMap_append]
  refine replay_congr fun ca hca => hloc ca fun hahead => hca ?_
  -- the addresses ahead of the cork are those of the first TLog that is replayed
  cases rest with
  | nil => exact hahead.elim
  | cons t rest =>
    obtain ⟨mid', rfl⟩ : ∃ mid', mid = t :: mid' := by
      cases mid with
      | nil => exact absurd rfl hne
      | cons t' mid' =>
        exact ⟨mid', by rw [(List.cons.inj hrest).1]⟩
    obtain ⟨e, he, rfl⟩ := mem_map.1 hahead
    refine mem_map.2 ⟨e.binding, ?_, rfl⟩
    simp only [History.bindings, map_cons, flatten_cons, mem_append]
    exact .inl (mem_map_of_mem he)

/-- A volume is run, its process dies at any point, and the store is opened again on what is left of
the backend. Replaying the TLogs that follow the recorded cork, up to any one of them, gives the map
that all TLogs up to that one give from an empty store. -/
theorem crash_then_replay (page_bits : Nat) (parent : PageAddress → Bool) {capacity : Nat} (hcap : 0 < capacity)
    (ops : List Op) (hl : TLogRun.LegalRun {} ops) :
    ∃ s s' out, create (backend page_bits) { parent := parent } capacity = .ok s ∧
      run (backend page_bits) s ops = .ok (s', out) ∧
      ∀ left, Crash s'.backend_.calls left →
      ∀ done mid more, (TLogRun.run {} ops).history = done ++ mid ++ more → mid ≠ [] →
        (backend page_bits).lastCorkUUID { parent := parent, calls := left } = done.getLast?.map Prod.fst →
      ∀ capacity' cfg nsidmap, 0 < capacity' → 0 < cfg.replayClustersCached →
        (∀ t ∈ (TLogRun.run {} ops).history, ∃ l, nsidmap 0 t.1 = .ok l ∧ l.filter (·.isLocation) = t.2) →
      ∃ s₁ s₂, create (backend page_bits) { parent := parent, calls := left } capacity' = .ok s₁ ∧
        s₁.lastCork = done.getLast?.map Prod.fst ∧
        processCloneTLogs (backend page_bits) cfg s₁ [(0, List.map Prod.fst mid)] nsidmap true
          (mid.getLast?.map Prod.fst) = .ok s₂ ∧
        s₂.locationOf (backend page_bits) = History.toMap (done ++ mid) := by
  obtain ⟨s, h1, hf⟩ := Follows.create page_bits parent hcap
  obtain ⟨s', out, h2, hf'⟩ := hf.run ops hl
  refine ⟨s, s', out, h1, h2, ?_⟩
  intro left hcrash done mid more hh hne hcork capacity' cfg nsidmap hcap' hmax hread
  have hmid : ∀ t ∈ mid, t ∈ (TLogRun.run {} ops).history := fun t ht => by
    rw [hh]; simp [ht]
  have hread' := CombinedTLogReader_logs fun t ht => hread t (hmid t ht)
  have hown : ∀ e ∈ (List.map Prod.snd mid).flatten, e.Own := fun e he => by
    obtain ⟨l, hl, he⟩ := mem_flatten.1 he
    obtain ⟨t, ht, rfl⟩ := mem_map.1 hl
    exact hf'.own t (hmid t ht) e he
  have hbind : cloneBindings 0 (List.map Prod.snd mid).flatten = mid.bindings := by
    rw [History.bindings_eq]
    exact map_congr_left fun e he => by rw [(hown e he).own]; rfl
  obtain ⟨s₁, h3, hl₁, hs₁, hcorks₁, hcork₁, hb₁, hm₁⟩ :=
    create_ok (B := backend page_bits) (b := { parent := parent, calls := left }) hcap'
  obtain ⟨s₂, h4, _, _, hloc, _⟩ := processCloneTLogs_ok (backend_lawful page_bits) (backend_nonFailing page_bits) hmax
    hread' (fun e he => ⟨_, (hown e he).sane⟩) hl₁ hs₁ hcorks₁ (mid.getLast?.map Prod.fst)
  refine ⟨s₁, s₂, h3, hcork₁.trans hcork, h4, ?_⟩
  rw [hloc, hbind, ← hf'.crash hcrash hh hne hcork]
  congr 1
  funext ca
  rw [locationOf, contents_of_none _ (by rw [hm₁]), hb₁]
  rfl

/-- Two TLogs, of which the first was uncorked; the crash takes all that was written. -/
theorem crash_then_replay_all_lost :
    ∃ s s' out, create (backend 1) {} 1 = .ok s ∧
      run (backend 1) s [.cork 1, .writeCluster 0 ⟨⟨⟨1, 0, 0⟩, 0⟩, 7⟩, .writeCluster 5 ⟨⟨⟨1, 0, 0⟩, 1⟩, 8⟩, .cork 2,
        .writeCluster 0 ⟨⟨⟨2, 0, 0⟩, 0⟩, 9⟩, .unCork (some 1)] = .ok (s', out) ∧
      ∃ s₁ s₂, create (backend 1) { calls := [] } 1 = .ok s₁ ∧
        processCloneTLogs (backend 1) {} s₁ [(0, [1, 2])]
          (fun _ id => .ok (if id = 1 then [⟨0, ⟨⟨⟨1, 0, 0⟩, 0⟩, 7⟩⟩, ⟨5, ⟨⟨⟨1, 0, 0⟩, 1⟩, 8⟩⟩]
            else [⟨0, ⟨⟨⟨2, 0, 0⟩, 0⟩, 9⟩⟩])) true (some 2) = .ok s₂ ∧
        s₂.locationOf (backend 1) 0 = ⟨⟨⟨2, 0, 0⟩, 0⟩, 9⟩ ∧ s₂.locationOf (backend 1) 5 = ⟨⟨⟨1, 0, 0⟩, 1⟩, 8⟩ := by
  obtain ⟨s, s', out, h1, h2, h⟩ := crash_then_replay 1 (fun _ => false) Nat.one_pos
    ([.cork 1, .writeCluster 0 ⟨⟨⟨1, 0, 0⟩, 0⟩, 7⟩, .writeCluster 5 ⟨⟨⟨1, 0, 0⟩, 1⟩, 8⟩, .cork 2,
        .writeCluster 0 ⟨⟨⟨2, 0, 0⟩, 0⟩, 9⟩, .unCork (some 1)])
    ⟨.inl (by decide), ⟨by decide, rfl, rfl⟩, ⟨by decide, rfl, rfl⟩, .inl (by decide), ⟨by decide, rfl, rfl⟩,
      ⟨by decide, by rintro c ⟨⟩; rfl⟩, trivial⟩
  have hread : ∀ t ∈ [((1 : TLogId), [(⟨0, ⟨⟨⟨1, 0, 0⟩, 0⟩, 7⟩⟩ : Entry), ⟨5, ⟨⟨⟨1, 0, 0⟩, 1⟩, 8⟩⟩]),
      (2, [⟨0, ⟨⟨⟨2, 0, 0⟩, 0⟩, 9⟩⟩])], ∃ l, (.ok (if t.1 = 1 then [⟨0, ⟨⟨⟨1, 0, 0⟩, 0⟩, 7⟩⟩, ⟨5, ⟨⟨⟨1, 0, 0⟩, 1⟩, 8⟩⟩]
        else [⟨0, ⟨⟨⟨2, 0, 0⟩, 0⟩, 9⟩⟩]) : Except Exn (List Entry)) = .ok l ∧ l.filter (·.isLocation) = t.2 := by
    intro t ht
    simp only [mem_cons, not_mem_nil, or_false] at ht
    rcases ht with rfl | rfl <;> exact ⟨_, rfl, rfl⟩
  obtain ⟨s₁, s₂, h3, _, h4, h5⟩ := h [] ⟨[], [], [], nil_prefix, by simp, .inl rfl, .refl _, rfl⟩ []
    [(1, [⟨0, ⟨⟨⟨1, 0, 0⟩, 0⟩, 7⟩⟩, ⟨5, ⟨⟨⟨1, 0, 0⟩, 1⟩, 8⟩⟩]), (2, [⟨0, ⟨⟨⟨2, 0, 0⟩, 0⟩, 9⟩⟩])] [] rfl (by simp)
    rfl 1 {} (fun _ id => .ok (if id = 1 then [⟨0, ⟨⟨⟨1, 0, 0⟩, 0⟩, 7⟩⟩, ⟨5, ⟨⟨⟨1, 0, 0⟩, 1⟩, 8⟩⟩]
      else [⟨0, ⟨⟨⟨2, 0, 0⟩, 0⟩, 9⟩⟩])) Nat.one_pos (by decide) hread
  exact ⟨s, s', out, h1, h2, s₁, s₂, h3, h4, by rw [h5]; rfl, by rw [h5]; rfl⟩

end CachedMetaDataStore

end VolumeDriver
