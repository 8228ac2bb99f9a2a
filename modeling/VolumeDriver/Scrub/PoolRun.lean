/-
A whole run of the data part of a scrub: what one entry does to the pool, and what holds after all of
them. The entries are divided into those that stay and those that are rewritten, according to the states
of their SCOs.
-/
import VolumeDriver.Scrub.Copy
import VolumeDriver.Scrub.States

namespace VolumeDriver

open Lib List

namespace Scrubbing

namespace SCOPool

/-- The pool after the entries `done`: those in `kept` stayed, those of `pairs` were rewritten. -/
structure Inv (b₀ : BackendInterface) (cfg : SCOPoolConfig) (last : SCO) (data₀ : List ScrubbingSCOData)
    (done kept : List Entry) (pairs : List (Entry × Entry)) (p : SCOPool) : Prop where
  copying : Files.Copying b₀ cfg kept pairs p.toFiles
  renamed : Files.Renamed (data₀.map (·.sconame_)) p.toFiles
  begun : ∀ file, p.current_sco_ = some file → 0 < p.current_offset_
  nothing : pairs = [] ↔ p.new_scos_ = [] ∧ p.current_sco_ = none
  placed : Cursor.Placed cfg last data₀ kept (pairs.map Prod.fst) p.scodata_
  split : (pairs.map Prod.fst ++ kept).Perm done
  here : ∀ e, done.getLast? = some e → ∃ d, p.scodata_[p.scodata_iterator_]? = some d ∧ d.sconame_ = e.sco

variable {b₀ : BackendInterface} {cfg : SCOPoolConfig} {last : SCO} {data₀ : List ScrubbingSCOData}
  {done kept : List Entry} {pairs : List (Entry × Entry)} {p p' : SCOPool} {e : Entry}

/-! ## The constructor -/

theorem make_ok {scos : List ScrubbingSCOData} (hun : ∀ d ∈ scos, d.state = .Unknown)
    (h : make cfg scos b₀ last = .ok p) : Inv b₀ cfg last scos [] [] [] p := by
  obtain ⟨data, hdata, h⟩ := bind_ok h
  have hdata := mapM_ok (fun d => if d.sconame_ = last then { d with state := .NotScrubbed } else d) (by
    intro d d' hd
    obtain ⟨-, hd⟩ := VERIFY_bind_ok hd
    exact (pure_ok hd).symm) hdata
  subst hdata
  rw [← pure_ok h]
  refine ⟨⟨by simp, .refl _, by simp, by simp, by simp, by simp, rfl, rfl, rfl, by simp⟩, ⟨by simp, by simp⟩,
    by simp, ⟨fun _ => ⟨rfl, rfl⟩, fun _ => rfl⟩, ⟨?_, ?_, by simp, by simp⟩, List.Perm.refl _, by simp⟩
  · unfold Cursor.keys
    rw [map_map]
    refine map_congr_left fun d _ => ?_
    simp only [Function.comp_apply]
    split <;> rfl
  · intro d hd
    obtain ⟨x, hx, rfl⟩ := mem_map.1 hd
    by_cases hlast : x.sconame_ = last
    · rw [if_pos hlast]
      refine ⟨?_, fun _ => Or.inl hlast, ?_⟩
      · intro hs; cases hs
      · rintro (hs | hs) <;> cases hs
    · rw [if_neg hlast]
      refine ⟨fun _ => hlast, ?_, ?_⟩
      · intro hs; rw [hun x hx] at hs; cases hs
      · rintro (hs | hs) <;> rw [hun x hx] at hs <;> cases hs

/-! ## Rewriting -/

/-- Afterwards there is a new SCO with room for a cluster. -/
theorem MaybeUpdateCurrentSCO_ok (hc : Files.Copying b₀ cfg kept pairs p.toFiles)
    (hr : Files.Renamed (p.scodata_.map (·.sconame_)) p.toFiles)
    (hj : ∀ d ∈ p.scodata_, Justified cfg last d) (h : p.MaybeUpdateCurrentSCO cfg = .ok p') :
    Files.Copying b₀ cfg kept pairs p'.toFiles ∧ Files.Renamed (p.scodata_.map (·.sconame_)) p'.toFiles ∧
      p'.buffer_ = p.buffer_ ∧
      (∃ file, p'.current_sco_ = some file) ∧ p'.current_offset_ < max 1 cfg.sco_size_ ∧
      Cursor.Stepped cfg last p.scodata_ p'.scodata_ ∧ p'.scodata_iterator_ = p.scodata_iterator_ := by
  unfold MaybeUpdateCurrentSCO at h
  split at h
  · obtain ⟨f₁, hfin, h⟩ := bind_ok h
    obtain ⟨⟨c, reused⟩, hreuse, h⟩ := bind_ok h
    obtain ⟨f₂, hbegin, h⟩ := bind_ok h
    rw [← pure_ok h]
    obtain ⟨h1, h2, h3⟩ := hc.finish hfin
    obtain ⟨h4, h5, h6, h7⟩ := h1.begin_ h2 hbegin
    obtain ⟨h8, h9, h10⟩ := Cursor.reuse_ok hreuse hj
    refine ⟨h4, (hr.finish hfin).begin_ h10 hbegin, h7.trans h3, ⟨[], h5⟩, ?_, h8, h9⟩
    show f₂.current_offset_ < _
    omega
  · rename_i hroom
    rw [← pure_ok h]
    push Not at hroom
    obtain ⟨file, hfile⟩ := Option.ne_none_iff_exists'.1 hroom.1
    refine ⟨hc, hr, rfl, ⟨file, hfile⟩, by omega, ⟨?_, hj⟩, rfl⟩
    exact forall₂_same.2 fun d _ => .refl d

theorem rewrite_ok (hc : Files.Copying b₀ cfg kept pairs p.toFiles)
    (hr : Files.Renamed (p.scodata_.map (·.sconame_)) p.toFiles) (hsize : cfg.sco_size_ < 2 ^ 16)
    (hj : ∀ d ∈ p.scodata_, Justified cfg last d) (h : p.rewrite cfg e = .ok p') :
    (∃ e', Files.Copying b₀ cfg kept (pairs ++ [(e, e')]) p'.toFiles) ∧
      Files.Renamed (p.scodata_.map (·.sconame_)) p'.toFiles ∧ 0 < p'.current_offset_ ∧ p'.current_sco_ ≠ none ∧
      Cursor.Stepped cfg last p.scodata_ p'.scodata_ ∧ p'.scodata_iterator_ = p.scodata_iterator_ := by
  obtain ⟨f₁, hfetch, h⟩ := bind_ok h
  obtain ⟨p₂, hupd, h⟩ := bind_ok h
  obtain ⟨f₃, happ, h⟩ := bind_ok h
  rw [← pure_ok h]
  obtain ⟨h1, h2, -⟩ := hc.fetch hfetch
  obtain ⟨h3, hr', h4, ⟨file, h5⟩, h6, h7, h8⟩ :=
    MaybeUpdateCurrentSCO_ok (p := { p with toFiles := f₁ }) h1 (hr.fetch hc hfetch) hj hupd
  obtain ⟨h9, h10, h11⟩ := h3.append hsize h5 h6 (fun c hcl => h4.trans (h2 c hcl)) happ
  exact ⟨h9, hr'.append h5 happ, h10, h11, h7, h8⟩

/-! ## One entry -/

theorem countDown_data (c : Cursor) :
    c.countDown.scodata_ = c.scodata_ ∧ c.countDown.scodata_iterator_ = c.scodata_iterator_ := by
  unfold Cursor.countDown
  exact ⟨rfl, rfl⟩

theorem Inv.countDown (hi : Inv b₀ cfg last data₀ done kept pairs p) :
    Inv b₀ cfg last data₀ done kept pairs { p with toCursor := p.toCursor.countDown } := by
  obtain ⟨h1, h2⟩ := countDown_data p.toCursor
  refine ⟨hi.copying, hi.renamed, hi.begun, hi.nothing, ?_, hi.split, ?_⟩
  · rw [h1]
    exact hi.placed
  · rw [h1, h2]
    exact hi.here

/-- One more entry: it stays, or it is rewritten. -/
theorem Inv.step (hi : Inv b₀ cfg last data₀ done kept pairs p) (hsize : cfg.sco_size_ < 2 ^ 16)
    (h : p.doEntry cfg e = .ok p') :
    ∃ kept' pairs', Inv b₀ cfg last data₀ (done ++ [e]) kept' pairs' p' := by
  obtain ⟨⟨cur, state⟩, henter, h⟩ := bind_ok h
  obtain ⟨p₁, hplace, h⟩ := bind_ok h
  rw [← pure_ok h]
  suffices hinv : ∃ kept' pairs', Inv b₀ cfg last data₀ (done ++ [e]) kept' pairs' p₁ by
    obtain ⟨kept', pairs', hinv⟩ := hinv
    exact ⟨kept', pairs', hinv.countDown⟩
  obtain ⟨c₁, hs₁, hs₂, hat⟩ := Cursor.enter_ok henter hi.placed.justified
  have hplaced := (hi.placed.step hs₁).step hs₂
  obtain ⟨d, hd, hname, hstate, hused⟩ := hat.here
  have hmem : d ∈ cur.scodata_ := mem_of_getElem? hd
  by_cases hns : state = .NotScrubbed
  · subst hns
    obtain ⟨f, hkeep, hplace⟩ := bind_ok hplace
    rw [← pure_ok hplace]
    obtain ⟨h1, h2, h3, h4⟩ := hi.copying.keep hkeep
    refine ⟨kept ++ [e], pairs, h1, hi.renamed.keep hkeep, ?_, ?_, { hplaced with kept := ?_ }, ?_, ?_⟩
    · intro file hfile
      show 0 < f.current_offset_
      rw [h3]
      exact hi.begun file (h2 ▸ hfile)
    · show pairs = [] ↔ f.new_scos_ = [] ∧ f.current_sco_ = none
      rw [h4, h2]
      exact hi.nothing
    · intro x hx
      rcases mem_append.1 hx with hx | hx
      · exact hplaced.kept x hx
      · rw [mem_singleton.1 hx]
        exact ⟨d, hmem, hname, hstate, hused⟩
    · rw [← append_assoc]
      exact hi.split.append_right [e]
    · intro x hx
      rw [List.getLast?_concat] at hx
      cases hx
      exact ⟨d, hd, hname⟩
  · -- all other states of a SCO that was decided mean that it goes
    have hmoved : state.Moved := by
      cases state with
      | Unknown => exact absurd rfl hat.decided
      | Scrubbed => exact Or.inl rfl
      | NotScrubbed => exact absurd rfl hns
      | Reused => exact Or.inr rfl
    have hrw : rewrite cfg { p with toCursor := cur } e = .ok p₁ := by
      rcases hmoved with rfl | rfl
      · exact hplace
      · exact hplace
    have hnames := hplaced.names
    obtain ⟨⟨e', h1⟩, hr, h2, hcur, h3, h4⟩ := rewrite_ok (p := { p with toCursor := cur }) hi.copying
      (hnames ▸ hi.renamed) hsize hplaced.justified hrw
    have hplaced' : Cursor.Placed cfg last data₀ kept (pairs.map Prod.fst ++ [e]) p₁.scodata_ := by
      refine Cursor.Placed.step { hplaced with moved := ?_ } h3
      intro x hx
      rcases mem_append.1 hx with hx | hx
      · exact hplaced.moved x hx
      · rw [mem_singleton.1 hx]
        exact ⟨d, hmem, hname, hstate ▸ hmoved, hused⟩
    refine ⟨kept, pairs ++ [(e, e')], h1, hnames ▸ hr, fun _ _ => h2, ?_, ?_, ?_, ?_⟩
    · constructor
      · intro hnil; simp at hnil
      · intro hnone; exact absurd hnone.2 hcur
    · rw [map_append, map_singleton]
      exact hplaced'
    · rw [map_append, map_singleton, append_assoc]
      refine List.Perm.trans ?_ (hi.split.append_right [e])
      rw [append_assoc]
      exact perm_append_comm.append_left _
    · intro x hx
      rw [List.getLast?_concat] at hx
      cases hx
      -- the cursor did not move while the entry was rewritten
      obtain ⟨d', hd', hev⟩ := forall₂_getElem? h3.evolves hd
      rw [← h4] at hd'
      exact ⟨d', hd', hev.sconame.trans hname⟩

/-! ## All entries -/

/-- A run leaves the entries `kept` where they are, rewrites those of `pairs`, and has put all new SCOs
on the backend. -/
structure Ran (b₀ : BackendInterface) (cfg : SCOPoolConfig) (last : SCO) (data₀ : List ScrubbingSCOData)
    (entries kept : List Entry) (pairs : List (Entry × Entry)) (p : SCOPool) : Prop where
  copying : Files.Copying b₀ cfg kept pairs p.toFiles
  renamed : Files.Renamed (data₀.map (·.sconame_)) p.toFiles
  written : ∀ name, p.toFiles.view name = p.backendinterface_ (.sco name)
  nothing : pairs = [] ↔ p.new_scos_ = []
  placed : Cursor.Placed cfg last data₀ kept (pairs.map Prod.fst) p.scodata_
  split : (pairs.map Prod.fst ++ kept).Perm entries
  ends : ∀ e, entries.getLast? = some e → (p.scodata_.map (·.sconame_)).getLast? = some e.sco

theorem Inv.run_entries (hi : Inv b₀ cfg last data₀ [] [] [] p) (hsize : cfg.sco_size_ < 2 ^ 16) {entries : List Entry}
    (h : entries.foldlM (doEntry cfg) p = .ok p') : ∃ kept pairs, Inv b₀ cfg last data₀ entries kept pairs p' := by
  refine foldlM_pre (fun done p => ∃ kept pairs, Inv b₀ cfg last data₀ done kept pairs p) ?_ entries [] p p'
    ⟨[], [], hi⟩ h
  rintro done p e p₁ ⟨kept, pairs, hinv⟩ hp₁
  exact hinv.step hsize hp₁

theorem Inv.run (hi : Inv b₀ cfg last data₀ [] [] [] p) (hsize : cfg.sco_size_ < 2 ^ 16) {entries : List Entry}
    {relocNum : Nat} (h : p.run cfg entries = .ok (p', relocNum)) :
    ∃ kept pairs, Ran b₀ cfg last data₀ entries kept pairs p' ∧ relocNum = pairs.length := by
  obtain ⟨p₁, hfold, h⟩ := bind_ok h
  obtain ⟨hend, h⟩ := VERIFY_bind_ok h
  obtain ⟨f, hclose, h⟩ := bind_ok h
  cases pure_ok h
  obtain ⟨kept, pairs, hinv⟩ := hi.run_entries hsize hfold
  obtain ⟨h1, h2, h3, h3'⟩ := hinv.copying.close hinv.begun hclose
  refine ⟨kept, pairs, ⟨h1, hinv.renamed.close hclose, h2, ?_, hinv.placed, hinv.split, ?_⟩, ?_⟩
  · show pairs = [] ↔ f.new_scos_ = []
    rw [hinv.nothing]
    by_cases hcur : p₁.current_sco_ = none
    · rw [h3 hcur]
      exact and_iff_left hcur
    · exact ⟨fun h => absurd h.2 hcur, fun h => absurd h (h3' hcur)⟩
  · intro e he
    obtain ⟨d, hd, hname⟩ := hinv.here e he
    show (p₁.scodata_.map (·.sconame_)).getLast? = some e.sco
    -- the cursor is at the last SCO, as it is not at the end
    have hlt := (List.getElem?_eq_some_iff.1 hd).1
    have hlast : p₁.scodata_iterator_ = p₁.scodata_.length - 1 := by omega
    rw [List.getLast?_map, List.getLast?_eq_getElem?, ← hlast, hd, Option.map_some, hname]
  · rw [hinv.copying.relocations]
    simp [length_flatMap]

end SCOPool

end Scrubbing

end VolumeDriver
