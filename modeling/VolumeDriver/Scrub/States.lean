/-
The states of the SCOs during the data part of a scrub. A SCO is decided once: it is scrubbed if few of
its entries are left and it is not the last one, and it is not scrubbed otherwise. A scrubbed SCO may
later give its number to a new one.
-/
import VolumeDriver.Scrub.Pool

namespace VolumeDriver

open Lib List

namespace Scrubbing

/-! ## How the data evolve -/

/-- A state and a later one. -/
def State.Leads (a b : State) : Prop := a = b ∨ (a = .Unknown ∧ b ≠ .Reused) ∨ (a = .Scrubbed ∧ b = .Reused)

/-- Its clusters are copied, and it is to be deleted. -/
def State.Moved (a : State) : Prop := a = .Scrubbed ∨ a = .Reused

theorem State.Leads.refl (a : State) : a.Leads a := Or.inl rfl

theorem State.Leads.moved {a b : State} (h : a.Leads b) (ha : a.Moved) : b.Moved := by
  rcases h with rfl | ⟨rfl, -⟩ | ⟨-, rfl⟩
  · exact ha
  · rcases ha with ha | ha <;> cases ha
  · exact Or.inr rfl

theorem State.Leads.notScrubbed {b : State} (h : State.NotScrubbed.Leads b) : b = .NotScrubbed := by
  rcases h with rfl | ⟨h, -⟩ | ⟨h, -⟩
  · rfl
  · cases h
  · cases h

/-- The data of a SCO, earlier and later. -/
structure Evolves (d d' : ScrubbingSCOData) : Prop where
  sconame : d'.sconame_ = d.sconame_
  usageCount : d'.usageCount = d.usageCount
  state : d.state.Leads d'.state

theorem Evolves.refl (d : ScrubbingSCOData) : Evolves d d := ⟨rfl, rfl, .refl _⟩

/-- Why a SCO is in its state; `last` is the last SCO. -/
structure Justified (cfg : SCOPoolConfig) (last : SCO) (d : ScrubbingSCOData) : Prop where
  unknown : d.state = .Unknown → d.sconame_ ≠ last
  notScrubbed : d.state = .NotScrubbed → d.sconame_ = last ∨ cfg.minimum_used_entries_ ≤ d.usageCount
  moved : d.state.Moved → d.sconame_ ≠ last ∧ (d.usageCount = 0 ∨ d.usageCount < cfg.minimum_used_entries_)

namespace Cursor

variable {cfg : SCOPoolConfig} {last sco : SCO} {c c' : Cursor}

/-! ## One step -/

variable {d d' : ScrubbingSCOData}

theorem leave_ok {n : Nat} (h : leave n d = .ok d') (hj : Justified cfg last d) :
    Evolves d d' ∧ Justified cfg last d' := by
  unfold leave at h
  split at h
  · rename_i hu
    obtain ⟨h0, h⟩ := VERIFY_bind_ok h
    rw [← pure_ok h]
    refine ⟨⟨rfl, rfl, ?_⟩, ?_, ?_, ?_⟩
    · rw [hu]; exact Or.inr (Or.inl ⟨rfl, by simp⟩)
    · intro hs; cases hs
    · intro hs; cases hs
    · intro _; exact ⟨hj.unknown hu, Or.inl h0⟩
  · obtain ⟨-, h⟩ := VERIFY_bind_ok h
    rw [← pure_ok h]
    exact ⟨.refl d, hj⟩

theorem skip_ok {n : Nat} : ∀ {l l' : List ScrubbingSCOData} {k : Nat}, skip sco n l = .ok (l', k) →
    (∀ d ∈ l, Justified cfg last d) →
    List.Forall₂ Evolves l l' ∧ (∀ d ∈ l', Justified cfg last d) ∧ ∀ d, l'[k]? = some d → d.sconame_ = sco
  | [], l', k, h, _ => by
    cases pure_ok h
    exact ⟨.nil, by simp, by simp⟩
  | d :: l, l', k, h, hj => by
    unfold skip at h
    split at h
    · rename_i hsco
      cases pure_ok h
      refine ⟨forall₂_same.2 fun x _ => .refl x, hj, ?_⟩
      intro x hx
      cases hx; exact hsco.symm
    · obtain ⟨d', hd, h⟩ := bind_ok h
      obtain ⟨⟨rest, m⟩, hrest, h⟩ := bind_ok h
      cases pure_ok h
      obtain ⟨h1, h2⟩ := leave_ok hd (hj d (mem_cons_self ..))
      obtain ⟨h3, h4, h5⟩ := skip_ok hrest fun x hx => hj x (mem_cons_of_mem _ hx)
      refine ⟨.cons h1 h3, ?_, ?_⟩
      · intro x hx
        rcases mem_cons.1 hx with rfl | hx
        · exact h2
        · exact h4 x hx
      · intro x hx
        exact h5 x hx

/-- The data, earlier and later. -/
structure Stepped (cfg : SCOPoolConfig) (last : SCO) (l l' : List ScrubbingSCOData) : Prop where
  evolves : List.Forall₂ Evolves l l'
  justified : ∀ d ∈ l', Justified cfg last d

theorem advance_ok (h : c.advance sco = .ok c') (hj : ∀ d ∈ c.scodata_, Justified cfg last d) :
    Stepped cfg last c.scodata_ c'.scodata_ ∧ ∀ d, c'.scodata_[c'.scodata_iterator_]? = some d → d.sconame_ = sco := by
  obtain ⟨⟨rest, n⟩, hskip, h⟩ := bind_ok h
  rw [← pure_ok h]
  obtain ⟨h1, h2, h3⟩ := skip_ok hskip fun d hd => hj d (mem_of_mem_drop hd)
  refine ⟨⟨?_, ?_⟩, ?_⟩
  · show List.Forall₂ Evolves c.scodata_ (c.scodata_.take c.scodata_iterator_ ++ rest)
    conv_lhs => rw [← take_append_drop c.scodata_iterator_ c.scodata_]
    exact rel_append (forall₂_same.2 fun x _ => .refl x) h1
  · intro d hd
    rcases mem_append.1 hd with hd | hd
    · exact hj d (mem_of_mem_take hd)
    · exact h2 d hd
  · intro d hd
    apply h3
    rw [← hd]
    show rest[n]? = (c.scodata_.take c.scodata_iterator_ ++ rest)[c.scodata_iterator_ + n]?
    by_cases hle : c.scodata_iterator_ ≤ c.scodata_.length
    · rw [List.getElem?_append_right (by rw [length_take]; omega), length_take, Nat.min_eq_left hle,
        Nat.add_sub_cancel_left]
    · -- beyond the end there is nothing to skip
      rw [drop_eq_nil_of_le (by omega)] at h1
      cases h1
      rw [List.getElem?_eq_none (by simp), List.getElem?_eq_none (by rw [append_nil, length_take]; omega)]

theorem decided_ok (hj : Justified cfg last d) :
    Evolves d (decided cfg d) ∧ Justified cfg last (decided cfg d) ∧ (decided cfg d).state ≠ .Unknown := by
  unfold decided
  split
  · rename_i hu
    by_cases hmin : d.usageCount < cfg.minimum_used_entries_
    · rw [if_pos hmin]
      refine ⟨⟨rfl, rfl, ?_⟩, ⟨?_, ?_, ?_⟩, by simp⟩
      · rw [hu]; exact Or.inr (Or.inl ⟨rfl, by simp⟩)
      · intro hs; cases hs
      · intro hs; cases hs
      · intro _; exact ⟨hj.unknown hu, Or.inr hmin⟩
    · rw [if_neg hmin]
      refine ⟨⟨rfl, rfl, ?_⟩, ⟨?_, ?_, ?_⟩, by simp⟩
      · rw [hu]; exact Or.inr (Or.inl ⟨rfl, by simp⟩)
      · intro hs; cases hs
      · intro _; exact Or.inr (Nat.le_of_not_lt hmin)
      · rintro (hs | hs) <;> cases hs
  · rename_i hu
    exact ⟨.refl d, hj, hu⟩

theorem forall₂_set {l : List ScrubbingSCOData} {i : Nat} (hi : l[i]? = some d)
    (h : Evolves d d') : List.Forall₂ Evolves l (l.set i d') := by
  rw [forall₂_iff_get]
  refine ⟨by simp, ?_⟩
  intro j h₁ h₂
  rw [get_eq_getElem, get_eq_getElem, getElem_set]
  split
  · rename_i hij
    subst hij
    rw [List.getElem?_eq_getElem h₁] at hi
    cases hi; exact h
  · exact .refl _

theorem Stepped.set {l : List ScrubbingSCOData} {i : Nat} (hj : ∀ d ∈ l, Justified cfg last d)
    (hi : l[i]? = some d) (he : Evolves d d') (hd : Justified cfg last d') : Stepped cfg last l (l.set i d') := by
  refine ⟨forall₂_set hi he, ?_⟩
  intro x hx
  rcases mem_or_eq_of_mem_set hx with hx | rfl
  · exact hj x hx
  · exact hd

/-- The cursor is at the entry's SCO, which is decided and has entries left. -/
structure At (c : Cursor) (sco : SCO) (state : State) : Prop where
  decided : state ≠ .Unknown
  here : ∃ d, c.scodata_[c.scodata_iterator_]? = some d ∧ d.sconame_ = sco ∧ d.state = state ∧ d.usageCount ≠ 0

theorem enter_ok {state : State} (h : c.enter cfg sco = .ok (c', state)) (hj : ∀ d ∈ c.scodata_, Justified cfg last d) :
    ∃ l, Stepped cfg last c.scodata_ l ∧ Stepped cfg last l c'.scodata_ ∧ At c' sco state := by
  obtain ⟨c₁, hadv, h⟩ := bind_ok h
  obtain ⟨h1, h2⟩ := advance_ok hadv hj
  refine ⟨c₁.scodata_, h1, ?_⟩
  split at h
  · cases h
  · rename_i d hd
    obtain ⟨husage, h⟩ := VERIFY_bind_ok h
    cases pure_ok h
    obtain ⟨h3, h4, h5⟩ := decided_ok (h1.justified d (mem_of_getElem? hd))
    refine ⟨.set h1.justified hd h3 h4, h5, decided cfg d, ?_, ?_, rfl, ?_⟩
    · show (c₁.scodata_.set c₁.scodata_iterator_ (decided cfg d))[c₁.scodata_iterator_]? = _
      rw [List.getElem?_set_self']
      rw [hd]; rfl
    · rw [h3.sconame]; exact h2 d hd
    · rw [h3.usageCount]; exact husage

theorem reuse_ok {name : SCO} (h : c.reuse = .ok (c', name)) (hj : ∀ d ∈ c.scodata_, Justified cfg last d) :
    Stepped cfg last c.scodata_ c'.scodata_ ∧ c'.scodata_iterator_ = c.scodata_iterator_ ∧
      name ∈ c.scodata_.map (·.sconame_) := by
  unfold reuse at h
  split at h
  · cases h
  · rename_i n hn
    obtain ⟨-, h⟩ := VERIFY_bind_ok h
    split at h
    · cases h
    · rename_i d hd
      cases pure_ok h
      -- the search stopped at a scrubbed SCO
      have hstate : d.state = .Scrubbed := by
        obtain ⟨hlt, hp, -⟩ := List.findIdx?_eq_some_iff_getElem.1 hn
        rw [getElem_drop] at hp
        rw [List.getElem?_eq_some_iff] at hd
        obtain ⟨_, hd⟩ := hd
        rw [hd] at hp
        simpa using hp
      have hmem := mem_of_getElem? hd
      have hjd := hj d hmem
      have hev : Evolves d { d with state := .Reused } :=
        ⟨rfl, rfl, by rw [hstate]; exact Or.inr (Or.inr ⟨rfl, rfl⟩)⟩
      refine ⟨.set hj hd hev ⟨?_, ?_, ?_⟩, rfl, mem_map_of_mem hmem⟩
      · intro hs; cases hs
      · intro hs; cases hs
      · intro _; exact hjd.moved (Or.inl hstate)

theorem getSCONamesToBeDeleted_ok {names : List SCO} (h : c.getSCONamesToBeDeleted = .ok names) :
    (∀ x, x ∈ names ↔ ∃ d ∈ c.scodata_, d.sconame_ = x ∧ d.state.Moved) ∧ ∀ d ∈ c.scodata_, d.state ≠ .Unknown := by
  have hfold : ∀ (l : List ScrubbingSCOData) (out : List SCO),
      l.foldlM (fun (out : List SCO) (d : ScrubbingSCOData) => do
      VERIFY (d.state ≠ State.Unknown) "it->state != scrubbing::ScrubbingSCOData::State::Unknown"
      pure (if d.state = State.Scrubbed ∨ d.state = State.Reused then out ++ [d.sconame_] else out)) out = .ok names →
      (∀ x, x ∈ names ↔ x ∈ out ∨ ∃ d ∈ l, d.sconame_ = x ∧ d.state.Moved) ∧ ∀ d ∈ l, d.state ≠ .Unknown := by
    intro l
    induction l with
    | nil =>
      intro out hl
      rw [← pure_ok hl]
      simp
    | cons d l ih =>
      intro out hl
      rw [foldlM_cons] at hl
      obtain ⟨out', hd, hl⟩ := bind_ok hl
      obtain ⟨hunknown, hd⟩ := VERIFY_bind_ok hd
      obtain ⟨hmem, hall⟩ := ih out' hl
      refine ⟨?_, forall_mem_cons.2 ⟨hunknown, hall⟩⟩
      intro x
      rw [hmem x, ← pure_ok hd]
      by_cases hm : d.state = .Scrubbed ∨ d.state = .Reused
      · have hmoved : d.state.Moved := hm
        rw [if_pos hm]
        simp only [mem_append, mem_singleton, exists_mem_cons_iff, hmoved, and_true, or_assoc, eq_comm (a := x)]
      · have hmoved : ¬ d.state.Moved := hm
        rw [if_neg hm]
        simp only [exists_mem_cons_iff, hmoved, and_false, false_or]
  obtain ⟨hmem, hall⟩ := hfold c.scodata_ [] h
  refine ⟨fun x => ?_, hall⟩
  rw [hmem x]
  simp

/-! ## A whole run -/

/-- The name and the count of each SCO, which never change. -/
def keys (l : List ScrubbingSCOData) : List (SCO × Nat) := l.map fun d => (d.sconame_, d.usageCount)

/-- The SCOs of the entries that were `kept` and of those that were `moved`. -/
structure Placed (cfg : SCOPoolConfig) (last : SCO) (data₀ : List ScrubbingSCOData) (kept moved : List Entry)
    (l : List ScrubbingSCOData) : Prop where
  keys : keys l = keys data₀
  justified : ∀ d ∈ l, Justified cfg last d
  kept : ∀ e ∈ kept, ∃ d ∈ l, d.sconame_ = e.sco ∧ d.state = .NotScrubbed ∧ d.usageCount ≠ 0
  moved : ∀ e ∈ moved, ∃ d ∈ l, d.sconame_ = e.sco ∧ d.state.Moved ∧ d.usageCount ≠ 0

variable {data₀ l l' : List ScrubbingSCOData} {kept moved : List Entry}

theorem Stepped.keys (h : Stepped cfg last l l') : keys l' = keys l := by
  unfold Cursor.keys
  rw [← forall₂_eq_eq_eq, forall₂_map_left_iff, forall₂_map_right_iff]
  exact h.evolves.flip.imp fun d' d hev => by rw [hev.sconame, hev.usageCount]

theorem Placed.names (h : Placed cfg last data₀ kept moved l) : l.map (·.sconame_) = data₀.map (·.sconame_) := by
  have hk := congrArg (List.map Prod.fst) h.keys
  unfold Cursor.keys at hk
  rwa [map_map, map_map] at hk

theorem Placed.step (h : Placed cfg last data₀ kept moved l) (hs : Stepped cfg last l l') :
    Placed cfg last data₀ kept moved l' := by
  refine ⟨hs.keys.trans h.keys, hs.justified, ?_, ?_⟩
  · intro e he
    obtain ⟨d, hd, h1, h2, h3⟩ := h.kept e he
    obtain ⟨d', hd', hev⟩ := exists_of_forall₂_left hs.evolves hd
    exact ⟨d', hd', hev.sconame.trans h1, (h2 ▸ hev.state).notScrubbed, by rw [hev.usageCount]; exact h3⟩
  · intro e he
    obtain ⟨d, hd, h1, h2, h3⟩ := h.moved e he
    obtain ⟨d', hd', hev⟩ := exists_of_forall₂_left hs.evolves hd
    exact ⟨d', hd', hev.sconame.trans h1, hev.state.moved h2, by rw [hev.usageCount]; exact h3⟩

end Cursor

end Scrubbing

end VolumeDriver
