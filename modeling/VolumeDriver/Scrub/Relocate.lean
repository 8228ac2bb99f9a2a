/-
Applying the relocations of a scrub to the live metadata (Volume::applyScrubbingWork). The map afterwards
is the one that a replay of the new TLogs in place of the old ones gives, and it has no location in a SCO
that is given up.
-/
import VolumeDriver.Scrub.Result
import VolumeDriver.MetaData.Relocs
import VolumeDriver.MetaData.Journal

namespace VolumeDriver

open Lib CachedMetaDataStore List Journal Entry

theorem SCO.withCloneID_inj {x y : SCO} (hx : x.cloneID = 0) (hy : y.cloneID = 0) {scid : SCOCloneID}
    (h : x.withCloneID scid = y.withCloneID scid) : x = y := by
  obtain ⟨n, c, v⟩ := x
  obtain ⟨n', c', v'⟩ := y
  cases hx
  cases hy
  cases h
  rfl

/-- The location of an entry as the metadata shows it. -/
def Entry.located (scid : SCOCloneID) (e : Entry) : ClusterLocationAndHash := (e.loc_and_hash.withCloneID scid).fixup

variable {e : Entry}

theorem Entry.located_eq (h : e.isLocation = true) (scid : SCOCloneID) :
    e.located scid = e.loc_and_hash.withCloneID scid :=
  ClusterLocationAndHash.fixup_of_not_isNull (isLocation_iff.1 h)

theorem shown_cloneBindings (scid : SCOCloneID) (l : List Entry) :
    shown (cloneBindings scid l) = l.map fun e => (e.clusteraddress, e.located scid) := by
  unfold shown cloneBindings
  rw [map_map]
  rfl

theorem Entry.number_ne_zero (h : e.isLocation = true) : e.sco.number ≠ 0 := by
  have hnull := isLocation_iff.1 h
  exact ne_of_beq_false hnull

theorem Entry.located_sco (e : Entry) (scid : SCOCloneID) :
    (e.located scid).clusterLocation.sco = e.sco.withCloneID scid ∨
      (e.located scid).clusterLocation.sco.number = 0 := by
  unfold located
  by_cases h : (e.loc_and_hash.withCloneID scid).isNull = true
  · rw [ClusterLocationAndHash.fixup_of_isNull h]
    exact Or.inr rfl
  · rw [ClusterLocationAndHash.fixup_of_not_isNull (by simpa using h)]
    exact Or.inl rfl

namespace Scrubbing

namespace Scrubber

variable {args : ScrubberArgs} {ids : FreshIds} {b b' : BackendInterface} {T : List Entry} {s : Scrubbed}
  {result : ScrubberResult} {kept : List Entry} {pairs : List (Entry × Entry)} {data : List ScrubbingSCOData}
  {logs rlogs : Logs}

/-! ## Patching and replaying -/

section
variable (hf : Facts args b T s kept pairs data logs)
include hf

theorem Facts.live_nodup : ((pairs.map Prod.fst ++ kept).map (·.clusteraddress)).Nodup := by
  rw [(hf.live.map _).nodup_iff]
  exact latest_nodup _ T

theorem Facts.out_nodup : (logs.entries.map (·.clusteraddress)).Nodup := by
  rw [hf.addresses.nodup_iff]
  exact latest_nodup _ T

theorem Facts.lastBinding_out {V : Type} (value : Entry → V) (he : e ∈ pairs.map Prod.snd ++ kept) :
    lastBinding (logs.entries.map fun e => (e.clusteraddress, value e)) e.clusteraddress =
      some (value e) := by
  apply lastBinding_of_nodup
  · rw [map_map]
    exact hf.out_nodup
  · exact mem_map.2 ⟨e, hf.out.mem_iff.2 he, rfl⟩

theorem Facts.lastBinding_kept {V : Type} (value : Entry → V)
    {a : ClusterAddress} (ha : a ∉ pairs.map fun p => p.1.clusteraddress) :
    lastBinding (logs.entries.map fun e => (e.clusteraddress, value e)) a =
      lastBinding (T.map fun e => (e.clusteraddress, value e)) a := by
  by_cases hT : a ∈ T.map (·.clusteraddress)
  · obtain ⟨e, he, rfl⟩ := mem_map.1 ((mem_latest_keys (fun e : Entry => e.clusteraddress)).2 hT)
    have hk : e ∈ kept := by
      rcases mem_append.1 (hf.live.mem_iff.2 he) with hm | hk
      · obtain ⟨p, hp, rfl⟩ := mem_map.1 hm
        exact absurd (mem_map.2 ⟨p, hp, rfl⟩) ha
      · exact hk
    rw [hf.lastBinding_out value (mem_append_right _ hk)]
    exact (lastBinding_of_mem_latest (fun e : Entry => e.clusteraddress) value he).symm
  · -- neither log has the address
    have hout : a ∉ logs.entries.map (·.clusteraddress) := by
      rw [hf.addresses.mem_iff, mem_latest_keys]
      exact hT
    rw [lastBinding_eq_none.2, lastBinding_eq_none.2]
    · rw [map_map]; exact hT
    · rw [map_map]; exact hout

end

section
variable (hc : Completed args ids b T b' result s kept pairs data logs rlogs)
include hc

theorem Completed.wellFormed : ∀ p ∈ pairs, WellFormed p := by
  intro p hp
  have hmem : ∀ e ∈ [p.1, p.2], e.isLocation = true ∧ e.clusterAddress = .ok e.clusteraddress := by
    intro e he
    apply hc.sane
    rw [← hc.relocations]
    exact mem_flatMap.2 ⟨p, hp, he⟩
  have hold := hmem p.1 (by simp)
  have hnew := hmem p.2 (by simp)
  refine ⟨hold.1, hnew.1, hold.2, ?_⟩
  rw [hnew.2, (hc.facts.copying.copied p hp).1]

/-- Patching the map of the old TLogs gives the map of the new ones. -/
theorem Completed.patch_replay (scid : SCOCloneID) {P S : List Entry} {m : ClusterMap}
    (hT : ∀ e ∈ T, e.isLocation = true ∧ e.sco.cloneID = 0)
    (hS : ∀ e ∈ S, e.sco.cloneID = 0 ∧ e.sco ∉ T.map (·.sco)) :
    patchAll (·.clusterLocation) (replay m (shown (cloneBindings scid (P ++ T ++ S)))) (pairs.map (relocation scid)) =
      replay m (shown (cloneBindings scid (P ++ logs.entries ++ S))) := by
  have hf := hc.facts
  have hkeys : (pairs.map (relocation scid)).map (·.key) = pairs.map fun p => p.1.clusteraddress := by
    rw [map_map]; rfl
  have hlatest : ∀ p ∈ pairs, p.1 ∈ latest (·.clusteraddress) T := fun p hp =>
    hf.live.mem_iff.1 (mem_append_left _ (mem_map_of_mem hp))
  simp only [shown_cloneBindings, map_append]
  apply patchAll_replay
  · rw [hkeys]
    have := hf.live_nodup
    rw [map_append, map_map] at this
    exact (nodup_append.1 this).1
  · intro q hq
    obtain ⟨p, hp, rfl⟩ := mem_map.1 hq
    refine ⟨p.1.located scid, lastBinding_of_mem_latest _ (located scid) (hlatest p hp), ?_⟩
    rw [located_eq (hc.wellFormed p hp).old]
    rfl
  · intro q hq
    obtain ⟨p, hp, rfl⟩ := mem_map.1 hq
    show lastBinding _ p.1.clusteraddress = some (p.2.loc_and_hash.withCloneID scid)
    rw [← (hf.copying.copied p hp).1, ← located_eq (hc.wellFormed p hp).new scid]
    exact hf.lastBinding_out (located scid) (mem_append_left _ (mem_map_of_mem hp))
  · intro a ha
    rw [hkeys] at ha
    exact hf.lastBinding_kept (located scid) ha
  · -- a newer location is in another SCO
    intro q hq v hv htag
    obtain ⟨p, hp, rfl⟩ := mem_map.1 hq
    obtain ⟨e, he, hev⟩ := mem_map.1 (lastBinding_mem hv)
    have hv : e.located scid = v := congrArg Prod.snd hev
    have hpT := (latest_sublist _ T).subset (hlatest p hp)
    have hsco : (e.located scid).clusterLocation.sco = p.1.sco.withCloneID scid := by
      rw [hv, htag]
      rfl
    rcases e.located_sco scid with h | h
    · have := SCO.withCloneID_inj (hS e he).1 (hT p.1 hpT).2 (h.symm.trans hsco)
      exact (hS e he).2 (mem_map.2 ⟨p.1, hpT, this.symm⟩)
    · rw [hsco] at h
      exact number_ne_zero (hT p.1 hpT).1 h

/-! ## The SCOs that are given up -/

theorem Completed.deleted_mem {x : SCO} (hx : x ∈ result.sconames_to_be_deleted) : x ∈ T.map (·.sco) := by
  obtain ⟨d, hd, rfl, -⟩ := (hc.deleted x).1 hx
  rw [← hc.facts.listed.names, ← PartScrubber.map_uses_names (latest (·.clusteraddress) T), ← hc.facts.placed.names]
  exact mem_map_of_mem hd

theorem Completed.out_not_deleted
    (hcon : Contiguous T) (hsco : ∀ e ∈ T, b (.sco e.sco) ≠ none) (he : e ∈ logs.entries) :
    e.sco ∉ result.sconames_to_be_deleted := by
  intro hx
  have hf := hc.facts
  rcases mem_append.1 (hf.out.mem_iff.1 he) with hm | hk
  · -- a new SCO is one that was not there
    obtain ⟨p, hp, rfl⟩ := mem_map.1 hm
    obtain ⟨x, hxT, hxe⟩ := mem_map.1 (hc.deleted_mem hx)
    apply hsco x hxT
    rw [hxe]
    exact (hf.copying.copied p hp).2.2.1
  · -- a SCO has one state
    obtain ⟨d, hd, hname, hstate, -⟩ := hf.placed.kept e hk
    obtain ⟨d', hd', hname', hmoved⟩ := (hc.deleted e.sco).1 hx
    have hnodup : (s.pool.scodata_.map (·.sconame_)).Nodup := by
      rw [hf.placed.names, PartScrubber.map_uses_names]
      exact hf.listed.nodup hcon
    have heq := inj_on_of_nodup_map hnodup hd hd' (hname.trans hname'.symm)
    subst heq
    rcases hmoved with h | h <;> rw [hstate] at h <;> cases h

theorem Completed.out_cloneID
    (hT : ∀ e ∈ T, e.sco.cloneID = 0) (he : e ∈ logs.entries) : e.sco.cloneID = 0 := by
  rcases mem_append.1 (hc.facts.out.mem_iff.1 he) with hm | hk
  · obtain ⟨p, hp, rfl⟩ := mem_map.1 hm
    obtain ⟨x, hx, v, hv⟩ := hc.facts.renamed p hp
    rw [hv]
    exact hT x hx
  · exact hT e ((latest_sublist _ T).subset (hc.facts.live.mem_iff.1 (mem_append_right _ hk)))

end

/-! ## Relocation and replay -/

/-- The volume applies the result of a completed scrub of the entries `T` of a snapshot: the map that was
the replay of `P ++ T ++ S` becomes that of `P ++ out ++ S`, where `out` are the new TLogs, and has no
location in a SCO that is given up. -/
theorem applyRelocs_commutes_with_replay {page_bits : Nat} {β : Type} {B : MetaDataBackendInterface page_bits β}
    (hB : B.Lawful) (hN : B.NonFailing) {store : CachedMetaDataStore page_bits β} (hl : Linked B store)
    (hs : Slots store) {i : Input} (himm : args.apply_immediately = false)
    (hin : fetchSnapshot args.snapshot_name b = .ok i)
    (hcon : Contiguous i.entries) (hsco : ∀ e ∈ i.entries, b (.sco e.sco) ≠ none)
    (hrun : run args ids b = .ok (b', result)) {P S : List Entry}
    (hclone : ∀ e ∈ P ++ i.entries ++ S, e.sco.cloneID = 0) (hother : ∀ e ∈ P ++ S, e.sco ∉ i.entries.map (·.sco))
    (scid : SCOCloneID) (tmp scrub_id : ScrubId)
    (hM : store.locationOf B =
      replay (fun _ => .discarded_location_and_hash) (shown (cloneBindings scid (P ++ i.entries ++ S)))) :
    ∃ relocs out store', readRelocs b' result.relocs = .ok relocs ∧
      CombinedTLogReader (fun id => b'.read (.tlog id)) (result.tlogs_out.map (·.id)) = .ok out ∧
      applyRelocs B store relocs scid tmp scrub_id = .ok (store', result.relocNum) ∧
      store'.corks_ = store.corks_ ∧
      store'.locationOf B =
        replay (fun _ => .discarded_location_and_hash) (shown (cloneBindings scid (P ++ out ++ S))) ∧
      ∀ a, ∀ sco ∈ result.sconames_to_be_deleted,
        (store'.locationOf B a).clusterLocation.sco ≠ sco.withCloneID scid := by
  obtain ⟨s, kept, pairs, data, logs, rlogs, hc⟩ := run_ok himm hin hcon hrun
  have hloc := fetchSnapshot_isLocation hin
  have hcT : ∀ e ∈ i.entries, e.sco.cloneID = 0 := fun e he => hclone e (by simp [he])
  obtain ⟨store', happly, hcorks, hmap⟩ := applyRelocs_ok hB hN hl hs hc.wellFormed scid tmp scrub_id
  have hres : store'.locationOf B = replay (fun _ => .discarded_location_and_hash)
      (shown (cloneBindings scid (P ++ logs.entries ++ S))) := by
    rw [hmap, hM]
    exact hc.patch_replay scid (fun e he => ⟨hloc e he, hcT e he⟩) fun e he =>
      ⟨hclone e (by simp [he]), hother e (by simp [he])⟩
  refine ⟨_, _, store', hc.read_relocs, hc.read_tlogs_out, by rw [hc.relocNum]; exact happly, hcorks, hres, ?_⟩
  intro a x hx heq
  obtain ⟨e₀, he₀, rfl⟩ := mem_map.1 (hc.deleted_mem hx)
  rw [hres, replay_apply, shown_cloneBindings] at heq
  cases hv : lastBinding ((P ++ logs.entries ++ S).map fun e => (e.clusteraddress, e.located scid)) a with
  | none =>
    rw [hv] at heq
    exact number_ne_zero (hloc e₀ he₀) (congrArg SCO.number heq).symm
  | some v =>
    rw [hv] at heq
    obtain ⟨e, he, hev⟩ := mem_map.1 (lastBinding_mem hv)
    have hv : e.located scid = v := congrArg Prod.snd hev
    rw [Option.getD_some, ← hv] at heq
    rcases e.located_sco scid with h | h
    · rw [h] at heq
      -- the SCO is one of the snapshot, which older and newer entries do not name
      by_cases hPS : e ∈ P ++ S
      · have hsame := SCO.withCloneID_inj (hclone e (by simp at hPS; grind)) (hcT e₀ he₀) heq
        exact hother e hPS (hsame ▸ mem_map_of_mem he₀)
      · have hout : e ∈ logs.entries := by
          simp only [mem_append] at he hPS
          tauto
        have hsame := SCO.withCloneID_inj (hc.out_cloneID hcT hout) (hcT e₀ he₀) heq
        exact hc.out_not_deleted hcon hsco hout (hsame ▸ hx)
    · rw [heq] at h
      exact number_ne_zero (hloc e₀ he₀) h

theorem exists_store (page_bits : Nat) (l : Bindings) :
    ∃ s : CachedMetaDataStore page_bits (Journal page_bits), Linked (backend page_bits) s ∧ Slots s ∧
      s.locationOf (backend page_bits) = replay (fun _ => .discarded_location_and_hash) (shown l) := by
  have hB := backend_lawful page_bits
  obtain ⟨s, -, hl, hs, -, -, hb, hm⟩ := create_ok (B := backend page_bits) (b := {}) Nat.one_pos
  obtain ⟨s', -, hc, hs'⟩ :=
    (keeps_linked hB (backend_nonFailing page_bits)).writeAll l (by simp) hl hs
  obtain ⟨hl', hloc⟩ := hc.linked _ hB hl
  refine ⟨s', hl', hs', ?_⟩
  rw [hloc]
  congr 1
  funext ca
  rw [locationOf, contents_of_none _ (by rw [hm]), hb]
  rfl

/-- Address 2 was written again after the snapshot; the SCOs are those of a parent. -/
theorem applyRelocs_commutes_with_replay_sample :
    ∃ (store store' : CachedMetaDataStore 1 (Journal 1)) (b' : BackendInterface) (result : ScrubberResult)
      (relocs out : List Entry), run Sample.args Sample.ids Sample.backend = .ok (b', result) ∧
      readRelocs b' result.relocs = .ok relocs ∧
      applyRelocs (backend 1) store relocs 3 500 501 = .ok (store', result.relocNum) ∧
      store'.locationOf (backend 1) = replay (fun _ => .discarded_location_and_hash)
        (shown (cloneBindings 3 ([Sample.entry 5 9 0 1] ++ out ++ [Sample.entry 2 10 0 1]))) := by
  obtain ⟨store, hl, hs, hM⟩ :=
    exists_store 1 (cloneBindings 3 ([Sample.entry 5 9 0 1] ++ Sample.entries ++ [Sample.entry 2 10 0 1]))
  have hrun : (run Sample.args Sample.ids Sample.backend).toOption.map (fun _ => ()) = some () := by decide
  obtain ⟨i, hi, hentries⟩ := Sample.fetched
  obtain ⟨⟨b', result⟩, hr, -⟩ := toOption_map_ok hrun
  obtain ⟨relocs, out, store', h1, -, h2, -, h3, -⟩ := applyRelocs_commutes_with_replay
    (backend_lawful 1) (backend_nonFailing 1) hl hs rfl hi
    (hentries ▸ contiguous_of_sorted (by decide) (by decide)) (hentries ▸ by decide) hr
    (P := [Sample.entry 5 9 0 1]) (S := [Sample.entry 2 10 0 1])
    (hentries ▸ by decide) (hentries ▸ by decide) 3 500 501 (hentries ▸ hM)
  exact ⟨store, store', b', result, relocs, out, hr, h1, h2, h3⟩

end Scrubber

end Scrubbing

end VolumeDriver
