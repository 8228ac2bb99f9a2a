/-
What the data part of a scrub copies. At any time the new SCOs are those on the backend and the one that
is being written; every entry is in one of the logs, and where an entry was rewritten the cluster at its
new location is the one at its old location.
-/
import VolumeDriver.Scrub.Pool

namespace VolumeDriver

open Lib Function List

namespace Scrubbing

namespace Files

/-! ## SCOs, on the backend or being written -/

/-- A SCO, on the backend or being written. -/
def view (f : Files) (name : SCO) : Option Bytes :=
  match f.backendinterface_ (.sco name) with
  | some file => some file
  | none => if name = f.current_sco_name_ then f.current_sco_ else none

/-- The cluster at a location, on the backend or in the new SCO. -/
def cluster (f : Files) (cluster_size : Nat) (loc : ClusterLocation) : Option Bytes :=
  (f.view loc.sco).bind fun file => clusterAt cluster_size file loc.offset

/-- SCOs are only added and only get longer. -/
def Grows (f f' : Files) : Prop := ∀ name file, f.view name = some file → ∃ more, f'.view name = some (file ++ more)

theorem Grows.of_eq {f f' : Files} (h : ∀ name, f'.view name = f.view name) : Grows f f' :=
  fun name file hv => ⟨[], by rw [h, hv, append_nil]⟩

variable {loc : ClusterLocation} {file : Bytes} {name : SCO} {e : Entry}

theorem Grows.cluster {f f' : Files} (h : Grows f f') {cluster_size : Nat} {c : Bytes}
    (hc : f.cluster cluster_size loc = some c) : f'.cluster cluster_size loc = some c := by
  obtain ⟨file, hv, hc⟩ := Option.bind_eq_some_iff.1 hc
  obtain ⟨more, hv'⟩ := h _ _ hv
  exact Option.bind_eq_some_iff.2 ⟨_, hv', clusterAt_append more hc⟩

theorem view_of_backend {f : Files} (h : f.backendinterface_ (.sco name) = some file) : f.view name = some file := by
  unfold view
  rw [h]

/-! ## The invariant -/

/-- The state after the entries `kept` stayed as they are and those of `pairs` were rewritten. `b₀` is the
backend before the scrub. -/
structure Copying (b₀ : BackendInterface) (cfg : SCOPoolConfig) (kept : List Entry) (pairs : List (Entry × Entry))
    (f : Files) : Prop where
  buffer : f.buffer_.length = cfg.cluster_size_
  le : b₀.Le f.backendinterface_
  opened : ∀ x ∈ f.sconame_map_, ∀ file, x.2 = some file → f.backendinterface_ (.sco x.1) = some file
  current : ∀ file, f.current_sco_ = some file →
    file.length = f.current_offset_ * cfg.cluster_size_ ∧ f.current_offset_ ≤ max 1 cfg.sco_size_ ∧
      f.backendinterface_ (.sco f.current_sco_name_) = none
  added : ∀ name, f.backendinterface_ name ≠ none ↔ b₀ name ≠ none ∨ ∃ sco ∈ f.new_scos_, name = .sco sco
  fresh : ∀ sco ∈ f.new_scos_, b₀ (.sco sco) = none
  relocations : f.relocations_tlog = pairs.flatMap fun p => [p.1, p.2]
  rewritten : f.rewritten_tlog = pairs.map Prod.snd
  nonrewritten : f.nonrewritten_tlog = kept
  copied : ∀ p ∈ pairs, p.2.clusteraddress = p.1.clusteraddress ∧ p.2.loc_and_hash.weed = p.1.loc_and_hash.weed ∧
    b₀ (.sco p.2.sco) = none ∧
    ∀ c, b₀.cluster cfg.cluster_size_ p.1.clusterLocation = some c →
      f.cluster cfg.cluster_size_ p.2.clusterLocation = some c

variable {b₀ : BackendInterface} {cfg : SCOPoolConfig} {kept : List Entry} {pairs : List (Entry × Entry)} {f f' : Files}

theorem Copying.copied_of_grows (h : Copying b₀ cfg kept pairs f) (hg : Grows f f') :
    ∀ p ∈ pairs, p.2.clusteraddress = p.1.clusteraddress ∧ p.2.loc_and_hash.weed = p.1.loc_and_hash.weed ∧
      b₀ (.sco p.2.sco) = none ∧
      ∀ c, b₀.cluster cfg.cluster_size_ p.1.clusterLocation = some c →
        f'.cluster cfg.cluster_size_ p.2.clusterLocation = some c := by
  intro p hp
  obtain ⟨h1, h2, h3, h4⟩ := h.copied p hp
  exact ⟨h1, h2, h3, fun c hc => hg.cluster (h4 c hc)⟩

/-! ## Reading -/

theorem mem_closeLast {m : List (SCO × Option Bytes)} {x : SCO × Option Bytes} (h : x ∈ closeLast m) :
    x ∈ m ∨ x.2 = none := by
  unfold closeLast at h
  split at h
  · exact Or.inl h
  · rcases mem_append.1 h with h | h
    · exact Or.inl (mem_of_mem_dropLast h)
    · rw [mem_singleton.1 h]; exact Or.inr rfl

theorem openSCO_ok {sco_name : SCO}
    (hopen : ∀ x ∈ f.sconame_map_, ∀ file, x.2 = some file → f.backendinterface_ (.sco x.1) = some file)
    (h : f.openSCO sco_name = .ok (f', file)) :
    f.backendinterface_ (.sco sco_name) = some file ∧ ∃ m, f' = { f with sconame_map_ := m } ∧
      ∀ x ∈ m, ∀ file, x.2 = some file → f.backendinterface_ (.sco x.1) = some file := by
  unfold openSCO at h
  split at h
  · obtain ⟨file', hread, h⟩ := bind_ok h
    cases pure_ok h
    have hb := BackendInterface.read_ok hread
    refine ⟨hb, _, rfl, ?_⟩
    intro x hx file' hfile
    rcases (mem_orderedInsert _).1 hx with rfl | hx
    · cases hfile; exact hb
    · rcases mem_closeLast hx with hx | hx
      · exact hopen x hx file' hfile
      · rw [hx] at hfile; cases hfile
  · rename_i k fd hfind
    obtain ⟨-, h⟩ := VERIFY_bind_ok h
    have hk : k = sco_name := by simpa using List.find?_some hfind
    split at h
    · cases h
    · rename_i file'
      cases pure_ok h
      exact ⟨hk ▸ hopen _ (mem_of_find?_eq_some hfind) _ rfl, _, rfl, hopen⟩

theorem Copying.fetch (h : Copying b₀ cfg kept pairs f) (hf : f.fetch cfg loc = .ok f') :
    Copying b₀ cfg kept pairs f' ∧ (∀ c, b₀.cluster cfg.cluster_size_ loc = some c → f'.buffer_ = c) ∧
      f'.current_sco_ = f.current_sco_ ∧ f'.current_offset_ = f.current_offset_ := by
  obtain ⟨⟨f₁, file⟩, hopen, hf⟩ := bind_ok hf
  obtain ⟨hfile, m, rfl, hm⟩ := openSCO_ok h.opened hopen
  rw [← pure_ok hf]
  refine ⟨{ h with buffer := pread_length h.buffer, opened := hm, copied := ?_ }, ?_, rfl, rfl⟩
  · exact h.copied_of_grows (.of_eq fun _ => rfl)
  · -- a SCO that was there before the scrub is the one that was opened
    intro c hc
    obtain ⟨file₀, hfile₀, hclus⟩ := Option.bind_eq_some_iff.1 hc
    have hsame : file₀ = file := Option.some.inj ((h.le _ _ hfile₀).symm.trans hfile)
    subst hsame
    exact pread_of_clusterAt hclus h.buffer

/-! ## Writing -/

theorem Copying.writeSCO (h : Copying b₀ cfg kept pairs f) (hcur : f.current_sco_ = some file)
    (hf : f.writeSCO file = .ok f') :
    Copying b₀ cfg kept pairs f' ∧ f'.current_sco_ = none ∧ f'.buffer_ = f.buffer_ ∧
      ∀ name, f'.view name = f'.backendinterface_ (.sco name) := by
  unfold Files.writeSCO at hf
  obtain ⟨b, hb, hf⟩ := bind_ok hf
  have hle := BackendInterface.Le.write hb
  obtain ⟨hnone, rfl⟩ := BackendInterface.write_ok hb
  rw [← pure_ok hf]
  have hview : ∀ name, view { f with
      backendinterface_ := update f.backendinterface_ (.sco f.current_sco_name_) (some file)
      current_sco_ := none
      new_scos_ := f.new_scos_ ++ [f.current_sco_name_] } name = f.view name := by
    intro name
    unfold view
    dsimp only
    by_cases hname : name = f.current_sco_name_
    · subst hname
      rw [update_self, hnone, hcur]
      exact (if_pos rfl).symm
    · rw [update_of_ne (fun he => hname (ObjectName.sco.inj he)), if_neg hname, if_neg hname]
  refine ⟨⟨h.buffer, h.le.trans hle, ?_, ?_, ?_, ?_, h.relocations, h.rewritten, h.nonrewritten, ?_⟩, rfl, rfl, ?_⟩
  · intro x hx file' hfile
    exact hle _ _ (h.opened x hx file' hfile)
  · intro file' hfile; cases hfile
  · intro name
    show update f.backendinterface_ (.sco f.current_sco_name_) (some file) name ≠ none ↔ _
    by_cases hname : name = .sco f.current_sco_name_
    · subst hname
      simp
    · rw [update_of_ne hname, h.added name]
      simp only [mem_append, mem_singleton]
      constructor
      · rintro (hb | ⟨sco, hsco, rfl⟩)
        · exact Or.inl hb
        · exact Or.inr ⟨sco, Or.inl hsco, rfl⟩
      · rintro (hb | ⟨sco, hsco | rfl, rfl⟩)
        · exact Or.inl hb
        · exact Or.inr ⟨sco, hsco, rfl⟩
        · exact absurd rfl hname
  · intro sco hsco
    rcases mem_append.1 hsco with hsco | hsco
    · exact h.fresh sco hsco
    · rw [mem_singleton.1 hsco]
      exact h.le.none hnone
  · exact h.copied_of_grows (.of_eq hview)
  · intro name
    unfold view
    split
    · rename_i file' hfile; rw [hfile]
    · rename_i hfile; rw [hfile]; split <;> rfl

theorem Copying.finish (h : Copying b₀ cfg kept pairs f) (hf : f.finish cfg = .ok f') :
    Copying b₀ cfg kept pairs f' ∧ f'.current_sco_ = none ∧ f'.buffer_ = f.buffer_ := by
  unfold Files.finish at hf
  split at hf
  · rename_i hcur
    rw [← pure_ok hf]
    exact ⟨h, hcur, rfl⟩
  · rename_i file hcur
    obtain ⟨-, hf⟩ := VERIFY_bind_ok hf
    obtain ⟨h1, h2, h3, -⟩ := h.writeSCO hcur hf
    exact ⟨h1, h2, h3⟩

theorem tryVersions_ok {b : BackendInterface} {sco : SCO} : ∀ {n : Nat} {version : SCOVersion},
    tryVersions b sco n version = .ok name → b (.sco name) = none
  | 0, _, h => by cases h
  | n + 1, version, h => by
    unfold tryVersions at h
    dsimp only at h
    split at h
    · rename_i hne
      rw [← pure_ok h]
      exact BackendInterface.objectExists_false.1 hne
    · exact tryVersions_ok h

section
variable (h : Copying b₀ cfg kept pairs f)
include h

theorem Copying.begin_ (hcur : f.current_sco_ = none) {reused : SCO} (hf : f.begin_ reused = .ok f') :
    Copying b₀ cfg kept pairs f' ∧ f'.current_sco_ = some [] ∧ f'.current_offset_ = 0 ∧ f'.buffer_ = f.buffer_ := by
  obtain ⟨name, hname, hf⟩ := bind_ok hf
  have hnone := tryVersions_ok hname
  rw [← pure_ok hf]
  refine ⟨{ h with current := ?_, copied := ?_ }, rfl, rfl, rfl⟩
  · rintro file hfile
    cases hfile
    exact ⟨by simp, Nat.zero_le _, hnone⟩
  · refine h.copied_of_grows ?_
    intro n file hv
    refine ⟨[], ?_⟩
    rw [append_nil]
    unfold view at hv
    split at hv
    · rename_i file' hfile
      rw [← hv]; exact view_of_backend hfile
    · rw [hcur] at hv
      split at hv <;> cases hv

theorem Copying.append (hsize : cfg.sco_size_ < 2 ^ 16)
    (hcur : f.current_sco_ = some file) (hoff : f.current_offset_ < max 1 cfg.sco_size_)
    (hc : ∀ c, b₀.cluster cfg.cluster_size_ e.clusterLocation = some c → f.buffer_ = c) (hf : f.append e = .ok f') :
    (∃ e', Copying b₀ cfg kept (pairs ++ [(e, e')]) f') ∧ 0 < f'.current_offset_ ∧ f'.current_sco_ ≠ none := by
  unfold Files.append at hf
  obtain ⟨ca, hca, hf⟩ := bind_ok hf
  obtain ⟨log, hlog, hf⟩ := bind_ok hf
  obtain ⟨relocs₁, hrelocs₁, hf⟩ := bind_ok hf
  obtain ⟨relocs, hrelocs, hf⟩ := bind_ok hf
  have hlog := TLogWriter.add_ok hlog
  have hrelocs₁ := TLogWriter.copy_ok hca hrelocs₁
  have hrelocs := TLogWriter.add_ok hrelocs
  have haddr := Entry.clusterAddress_ok hca
  subst hlog hrelocs₁ hrelocs haddr
  obtain ⟨hlen, -, hnone⟩ := h.current file hcur
  have hmod : (f.current_offset_ + 1) % 2 ^ 16 = f.current_offset_ + 1 := Nat.mod_eq_of_lt (by omega)
  rw [hmod, hcur] at hf
  rw [← pure_ok hf]
  have hview : view { f with
      current_sco_ := some (file ++ f.buffer_)
      current_offset_ := f.current_offset_ + 1
      rewritten_tlog := f.rewritten_tlog ++
        [⟨e.clusteraddress, ⟨⟨f.current_sco_name_, f.current_offset_⟩, e.loc_and_hash.weed⟩⟩]
      relocations_tlog := f.relocations_tlog ++ [e] ++
        [⟨e.clusteraddress, ⟨⟨f.current_sco_name_, f.current_offset_⟩, e.loc_and_hash.weed⟩⟩] } f.current_sco_name_ =
      some (file ++ f.buffer_) := by
    unfold view
    rw [hnone]
    exact if_pos rfl
  refine ⟨⟨⟨e.clusteraddress, ⟨⟨f.current_sco_name_, f.current_offset_⟩, e.loc_and_hash.weed⟩⟩,
    h.buffer, h.le, h.opened, ?_, h.added, h.fresh, ?_, ?_, h.nonrewritten, ?_⟩, Nat.succ_pos _, Option.some_ne_none _⟩
  · rintro file' hfile
    cases hfile
    refine ⟨?_, ?_, hnone⟩
    · show (file ++ f.buffer_).length = (f.current_offset_ + 1) * cfg.cluster_size_
      rw [length_append, hlen, h.buffer, Nat.succ_mul]
    · exact hoff
  · show f.relocations_tlog ++ [e] ++ [_] = _
    rw [h.relocations]; simp
  · show f.rewritten_tlog ++ [_] = _
    rw [h.rewritten]; simp
  · intro p hp
    rcases mem_append.1 hp with hp | hp
    · refine h.copied_of_grows ?_ p hp
      intro name file' hv
      by_cases hname : name = f.current_sco_name_
      · subst hname
        have hfile : file' = file := by
          unfold view at hv
          rw [hnone, hcur] at hv
          simpa using hv.symm
        subst hfile
        exact ⟨f.buffer_, hview⟩
      · refine ⟨[], ?_⟩
        rw [append_nil, ← hv]
        unfold view
        rw [if_neg hname, if_neg hname]
    · rw [mem_singleton.1 hp]
      refine ⟨rfl, rfl, h.le.none hnone, fun c hcl => ?_⟩
      rw [← hc c hcl]
      exact Option.bind_eq_some_iff.2 ⟨_, hview, clusterAt_last hlen h.buffer⟩

theorem Copying.keep (hf : f.keep e = .ok f') :
    Copying b₀ cfg (kept ++ [e]) pairs f' ∧ f'.current_sco_ = f.current_sco_ ∧
      f'.current_offset_ = f.current_offset_ ∧ f'.new_scos_ = f.new_scos_ := by
  obtain ⟨ca, hca, hf⟩ := bind_ok hf
  obtain ⟨log, hlog, hf⟩ := bind_ok hf
  have hlog := TLogWriter.copy_ok hca hlog
  subst hlog
  rw [← pure_ok hf]
  refine ⟨{ h with nonrewritten := ?_, copied := ?_ }, rfl, rfl, rfl⟩
  · show f.nonrewritten_tlog ++ [e] = kept ++ [e]
    rw [h.nonrewritten]
  · exact h.copied_of_grows (.of_eq fun _ => rfl)

theorem Copying.close (hbegun : ∀ file, f.current_sco_ = some file → 0 < f.current_offset_) (hf : f.close = .ok f') :
    Copying b₀ cfg kept pairs f' ∧ (∀ name, f'.view name = f'.backendinterface_ (.sco name)) ∧
      (f.current_sco_ = none → f' = f) ∧ (f.current_sco_ ≠ none → f'.new_scos_ ≠ []) := by
  unfold Files.close at hf
  split at hf
  · split at hf
    · cases hf
    · rename_i file hcur
      obtain ⟨h1, -, -, h2⟩ := h.writeSCO hcur hf
      refine ⟨h1, h2, ?_, ?_⟩
      · intro hnone; rw [hnone] at hcur; cases hcur
      · obtain ⟨b, -, hf⟩ := bind_ok hf
        rw [← pure_ok hf]
        simp
  · rename_i hoff
    rw [← pure_ok hf]
    have hnone : f.current_sco_ = none := by
      cases hcur : f.current_sco_ with
      | none => rfl
      | some file => exact absurd (hbegun file hcur) hoff
    refine ⟨h, ?_, fun _ => rfl, fun hne => absurd hnone hne⟩
    intro name
    unfold view
    rw [hnone]
    split
    · rename_i file' hfile; rw [hfile]
    · rename_i hfile; rw [hfile]; split <;> rfl

end

/-! ## The names of the new SCOs -/

/-- A new SCO is another version of one of the old ones. -/
structure Renamed (names : List SCO) (f : Files) : Prop where
  current : ∀ file, f.current_sco_ = some file → ∃ n ∈ names, ∃ v, f.current_sco_name_ = { n with version := v }
  rewritten : ∀ e ∈ f.rewritten_tlog, ∃ n ∈ names, ∃ v, e.sco = { n with version := v }

variable {names : List SCO}

theorem Renamed.fetch (h : Renamed names f) (hc : Copying b₀ cfg kept pairs f) (hf : f.fetch cfg loc = .ok f') :
    Renamed names f' := by
  obtain ⟨⟨f₁, file⟩, hopen, hf⟩ := bind_ok hf
  obtain ⟨-, m, rfl, -⟩ := openSCO_ok hc.opened hopen
  rw [← pure_ok hf]
  exact ⟨h.current, h.rewritten⟩

theorem Renamed.writeSCO (h : Renamed names f) (hf : f.writeSCO file = .ok f') : Renamed names f' := by
  obtain ⟨b, -, hf⟩ := bind_ok hf
  rw [← pure_ok hf]
  refine ⟨?_, h.rewritten⟩
  intro file hfile; cases hfile

theorem Renamed.finish (h : Renamed names f) (hf : f.finish cfg = .ok f') : Renamed names f' := by
  unfold Files.finish at hf
  split at hf
  · rw [← pure_ok hf]; exact h
  · obtain ⟨-, hf⟩ := VERIFY_bind_ok hf
    exact h.writeSCO hf

theorem tryVersions_version {b : BackendInterface} {sco : SCO} : ∀ {n : Nat} {version : SCOVersion},
    tryVersions b sco n version = .ok name → ∃ v, name = { sco with version := v }
  | 0, _, h => by cases h
  | n + 1, version, h => by
    unfold tryVersions at h
    dsimp only at h
    split at h
    · exact ⟨_, (pure_ok h).symm⟩
    · exact tryVersions_version h

theorem Renamed.begin_ (h : Renamed names f) {reused : SCO} (hr : reused ∈ names) (hf : f.begin_ reused = .ok f') :
    Renamed names f' := by
  obtain ⟨name, hname, hf⟩ := bind_ok hf
  rw [← pure_ok hf]
  exact ⟨fun _ _ => ⟨reused, hr, tryVersions_version hname⟩, h.rewritten⟩

theorem Renamed.append (h : Renamed names f) (hcur : f.current_sco_ = some file) (hf : f.append e = .ok f') :
    Renamed names f' := by
  obtain ⟨ca, -, hf⟩ := bind_ok hf
  obtain ⟨log, hlog, hf⟩ := bind_ok hf
  obtain ⟨relocs₁, -, hf⟩ := bind_ok hf
  obtain ⟨relocs, -, hf⟩ := bind_ok hf
  have hlog := TLogWriter.add_ok hlog
  subst hlog
  rw [← pure_ok hf]
  refine ⟨fun _ _ => h.current file hcur, ?_⟩
  intro x hx
  rcases mem_append.1 hx with hx | hx
  · exact h.rewritten x hx
  · rw [mem_singleton.1 hx]
    exact h.current file hcur

theorem Renamed.keep (h : Renamed names f) (hf : f.keep e = .ok f') : Renamed names f' := by
  obtain ⟨ca, -, hf⟩ := bind_ok hf
  obtain ⟨log, -, hf⟩ := bind_ok hf
  rw [← pure_ok hf]
  exact ⟨h.current, h.rewritten⟩

theorem Renamed.close (h : Renamed names f) (hf : f.close = .ok f') : Renamed names f' := by
  unfold Files.close at hf
  split at hf
  · split at hf
    · cases hf
    · exact h.writeSCO hf
  · rw [← pure_ok hf]; exact h

end Files

end Scrubbing

end VolumeDriver
