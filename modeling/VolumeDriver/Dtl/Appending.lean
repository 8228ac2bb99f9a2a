/-
What a DTL server does with the entries of a volume that writes one location after the other
(`Backend::addEntries`, `Backend::removeUpTo`): the cache stays in order, new entries go behind those
that are there, and the SCOs up to one that is on the backend go from the front.
-/
import VolumeDriver.Dtl.Contiguous

namespace VolumeDriver

open Lib Contiguous List

namespace Contiguous

theorem InOrder.snoc {scos : SCOs} {n : Nat} {es : List CacheEntry} (h : InOrder scos)
    (hbelow : ∀ p ∈ scos, p.1.number < n) (hpos : n ≠ 0) (hlt : n < 2 ^ 32) (hne : es ≠ [])
    (hsco : ∀ e ∈ es, e.cli_.sco = ⟨n, 0, 0⟩)
    (hincreasing : (es.map (·.cli_)).Pairwise fun a b => b.offset > a.offset)
    (hoffset : ∀ e ∈ es, offsets > e.cli_.offset) : InOrder (scos ++ [(⟨n, 0, 0⟩, es)]) := by
  have hmem : ∀ {P : SCO × List CacheEntry → Prop}, (∀ p ∈ scos, P p) → P (⟨n, 0, 0⟩, es) →
      ∀ p ∈ scos ++ [(⟨n, 0, 0⟩, es)], P p := by
    intro P hold hnew p hp
    rcases mem_append.mp hp with hp | hp
    · exact hold p hp
    · rw [mem_singleton.mp hp]
      exact hnew
  constructor
  · rw [pairwise_append]
    refine ⟨h.numbers, pairwise_singleton .., fun p hp q hq => ?_⟩
    rw [mem_singleton.mp hq]
    exact hbelow p hp
  · exact hmem h.nonempty hne
  · exact hmem h.plain rfl
  · exact hmem h.number_pos hpos
  · exact hmem h.number_lt hlt
  · exact hmem h.sco hsco
  · exact hmem h.increasing hincreasing
  · exact hmem h.offset_lt hoffset

theorem InOrder.nil : InOrder [] := by
  constructor <;> simp

theorem mem_locations {n o count : Nat} {l : ClusterLocation} (h : l ∈ locations n o count) :
    l.sco = ⟨n, 0, 0⟩ ∧ o ≤ l.offset ∧ l.offset < o + count := by
  obtain ⟨i, hi, rfl⟩ := mem_map.mp h
  obtain ⟨hle, hlt⟩ := mem_range'_1.mp hi
  exact ⟨rfl, hle, hlt⟩

theorem locations_increasing (n o count : Nat) : (locations n o count).Pairwise fun a b => b.offset > a.offset :=
  pairwise_map.mpr pairwise_lt_range'

end Contiguous

namespace Backend

theorem entries_eq (b : Backend) : b.entries = Contiguous.entries b.scos := rfl

theorem append_snoc (es : List CacheEntry) (p : SCO × List CacheEntry) : ∀ scos : SCOs,
    append es (scos ++ [p]) = scos ++ [(p.1, p.2 ++ es)]
  | [] => rfl
  | [q] => rfl
  | q :: r :: scos => by
    have ih := append_snoc es p (r :: scos)
    simp only [cons_append] at ih ⊢
    rw [append, ih]

/-- A cache whose volume writes to SCO `n` from offset `o` on. -/
structure Tail (b : Backend) (n o : Nat) : Prop where
  below : ∀ p ∈ b.scos, p.1.number ≤ n
  opened : b.scosdeque_.getLast? = some ⟨n, 0, 0⟩ → b.current_ = true ∧ b.check_offset_ = o
  offsets : ∀ p ∈ b.scos, p.1.number = n → ∀ e ∈ p.2, e.cli_.offset < o

section
variable {b : Backend} {n o : Nat} {es : List CacheEntry}

theorem Tail.next (h : ∀ p ∈ b.scos, p.1.number < n) (o : Nat) : Tail b n o where
  below := fun p hp => Nat.le_of_lt (h p hp)
  opened := by
    intro hlast
    obtain ⟨p, hp, heq⟩ := mem_map.mp (mem_of_getLast? hlast)
    have hlt := h p hp
    rw [heq] at hlt
    exact absurd hlt (Nat.lt_irrefl _)
  offsets := fun p hp heq => absurd heq (Nat.ne_of_lt (h p hp))

theorem Tail.cases (ht : Tail b n o) (hin : InOrder b.scos) : (∃ scos old, b.scos = scos ++ [(⟨n, 0, 0⟩, old)]) ∨
      b.scosdeque_.getLast? ≠ some ⟨n, 0, 0⟩ ∧ ∀ p ∈ b.scos, p.1.number < n := by
  rcases eq_nil_or_concat b.scos with hnil | ⟨scos, p, hscos⟩
  · right
    rw [scosdeque_, hnil]
    exact ⟨by simp, by simp⟩
  · rw [concat_eq_append] at hscos
    have hp : p ∈ b.scos := by
      rw [hscos]
      exact mem_append_right scos (mem_singleton_self p)
    by_cases heq : p.1.number = n
    · left
      refine ⟨scos, p.2, hscos.trans ?_⟩
      rw [← heq, ← hin.plain p hp]
    · have hlt : p.1.number < n := Nat.lt_of_le_of_ne (ht.below p hp) heq
      right
      constructor
      · rw [scosdeque_, hscos, map_append, map_singleton, List.getLast?_append, List.getLast?_singleton]
        intro hsome
        rw [Option.some_or] at hsome
        exact heq (by rw [Option.some.inj hsome])
      · intro q hq
        rw [hscos] at hq
        rcases mem_append.mp hq with hq | hq
        · have hnums := hin.numbers
          rw [hscos] at hnums
          have hqp := (pairwise_append.mp hnums).2.2 q hq p (mem_singleton_self p)
          exact Nat.lt_trans hqp hlt
        · rw [mem_singleton.mp hq]
          exact hlt

theorem verify_ok {p : Prop} [Decidable p] (what : String) (h : p) : verify p what b = .ok () b := by
  rw [verify, if_pos h]
  rfl

/-- The entries of one SCO at consecutive locations. -/
structure Batch (n o : Nat) (es : List CacheEntry) : Prop where
  ne : es ≠ []
  locs : es.map (·.cli_) = locations n o es.length

theorem Batch.mem {e : CacheEntry} (h : Batch n o es) (he : e ∈ es) :
    e.cli_.sco = ⟨n, 0, 0⟩ ∧ o ≤ e.cli_.offset ∧ e.cli_.offset < o + es.length :=
  mem_locations (h.locs ▸ mem_map_of_mem he)

theorem Batch.increasing (h : Batch n o es) : (es.map (·.cli_)).Pairwise fun a b => b.offset > a.offset :=
  h.locs ▸ locations_increasing n o es.length

theorem add_entries_ok {scos : SCOs} {p : SCO × List CacheEntry} (hscos : b.scos = scos ++ [p])
    (hcurrent : b.current_ = true) : add_entries es b = .ok () { b with scos := scos ++ [(p.1, p.2 ++ es)] } := by
  refine run_get_bind.trans ?_
  refine (run_bind (verify_ok "current_" hcurrent)).trans ?_
  rw [hscos, append_snoc]
  rfl

/-- The SCOs before the one the volume writes to, and the entries that this one has. -/
structure Selected (b : Backend) (n o : Nat) (scos : SCOs) (old : List CacheEntry) : Prop where
  entries : b.entries = Contiguous.entries scos ++ old
  inOrder : InOrder scos
  below : ∀ p ∈ scos, p.1.number < n
  sco : ∀ e ∈ old, e.cli_.sco = ⟨n, 0, 0⟩
  increasing : (old.map (·.cli_)).Pairwise fun a b => b.offset > a.offset
  offset_lt : ∀ e ∈ old, e.cli_.offset < o

theorem selectSCO_ok (hin : InOrder b.scos) (ht : Tail b n o) : ∃ scos old, Selected b n o scos old ∧
    selectSCO ⟨⟨n, 0, 0⟩, o⟩ b =
      .ok () { b with scos := scos ++ [(⟨n, 0, 0⟩, old)], current_ := true, check_offset_ := o } := by
  rcases ht.cases hin with ⟨scos, old, hscos⟩ | ⟨hlast, hbelow⟩
  · have hmem : ((⟨n, 0, 0⟩ : SCO), old) ∈ b.scos := by
      rw [hscos]
      exact mem_append_right scos (mem_singleton_self _)
    have hlast : b.scosdeque_.getLast? = some ⟨n, 0, 0⟩ := by
      rw [scosdeque_, hscos, map_append, map_singleton, List.getLast?_append, List.getLast?_singleton]
      rfl
    obtain ⟨hcurrent, hcheck⟩ := ht.opened hlast
    refine ⟨scos, old, ?_, ?_⟩
    · constructor
      · rw [entries_eq, hscos, Contiguous.entries, flatMap_append, flatMap_singleton]
        rfl
      · exact InOrder.sublist hin (hscos ▸ sublist_append_left ..)
      · intro p hp
        have hnums := hin.numbers
        rw [hscos] at hnums
        exact (pairwise_append.mp hnums).2.2 p hp _ (mem_singleton_self _)
      · exact hin.sco _ hmem
      · exact hin.increasing _ hmem
      · exact ht.offsets _ hmem rfl
    · refine run_get_bind.trans ?_
      rw [if_neg (not_not.mpr hlast), verify_ok _ hcheck.symm, ← hscos, ← hcheck, ← hcurrent]
  · have hnew : (⟨n, 0, 0⟩ : SCO) ∉ b.scosdeque_ := by
      intro hmem
      obtain ⟨p, hp, heq⟩ := mem_map.mp hmem
      have hltn := hbelow p hp
      rw [heq] at hltn
      exact Nat.lt_irrefl _ hltn
    refine ⟨b.scos, [], ⟨(append_nil _).symm, hin, hbelow, by simp, List.Pairwise.nil, by simp⟩, ?_⟩
    refine run_get_bind.trans ?_
    rw [if_pos hlast]
    refine (run_bind (m := (modify fun b => { b with current_ := false } : M _)) rfl).trans ?_
    refine run_get_bind.trans ?_
    exact (run_bind (verify_ok "res.second" hnew)).trans rfl

theorem addEntries_ok (hin : InOrder b.scos) (ht : Tail b n o)
    (hflag : b.first_command_must_be_getEntries = true → b.scos = []) (hpos : n ≠ 0) (hlt : n < 2 ^ 32)
    (hes : Batch n o es) (hfit : o + es.length ≤ offsets) :
    ∃ b', addEntries es b = .ok () b' ∧ b'.entries = b.entries ++ es ∧ InOrder b'.scos ∧ Tail b' n (o + es.length) ∧
      b'.first_command_must_be_getEntries = false := by
  -- a cache that is cleared was empty
  obtain ⟨b₀, hb₀, hscos₀, hflag₀, ht₀⟩ : ∃ b₀, (if b.first_command_must_be_getEntries then b.clear else b) = b₀ ∧
      b₀.scos = b.scos ∧ b₀.first_command_must_be_getEntries = false ∧ Tail b₀ n o := by
    refine ⟨_, rfl, ?_⟩
    split
    · next h =>
      refine ⟨(hflag h).symm, rfl, Tail.next ?_ o⟩
      intro p hp
      cases hp
    · next h => exact ⟨rfl, by simpa using h, ht⟩
  obtain ⟨scos, old, hsel, hrun⟩ := selectSCO_ok (hscos₀ ▸ hin) ht₀
  cases es with
  | nil => exact absurd rfl hes.ne
  | cons e rest =>
    have hcli : e.cli_ = ⟨⟨n, 0, 0⟩, o⟩ := by
      have hlocs := hes.locs
      rw [length_cons, locations, List.range'_succ] at hlocs
      exact (List.cons.inj hlocs).1
    have hlast : e.cli_.sco = ((e :: rest).getLast (cons_ne_nil e rest)).cli_.sco := by
      rw [(hes.mem (getLast_mem _)).1, hcli]
    have hall : ∀ x ∈ old ++ e :: rest, x.cli_.sco = ⟨n, 0, 0⟩ ∧ x.cli_.offset < o + (e :: rest).length := by
      intro x hx
      rcases mem_append.mp hx with hx | hx
      · exact ⟨hsel.sco x hx, Nat.lt_of_lt_of_le (hsel.offset_lt x hx) (Nat.le_add_right ..)⟩
      · exact ⟨(hes.mem hx).1, (hes.mem hx).2.2⟩
    refine ⟨{ b₀ with
      scos := scos ++ [(⟨n, 0, 0⟩, old ++ e :: rest)], current_ := true, check_offset_ := o + (rest.length + 1) },
      ?_, ?_, ?_, ?_, hflag₀⟩
    · refine (run_bind (verify_ok _ hlast)).trans ?_
      have hclear : (modify fun b => if b.first_command_must_be_getEntries then b.clear else b : M _) b = .ok ⟨⟩ b₀ :=
        congrArg (EStateM.Result.ok PUnit.unit) hb₀
      refine (run_bind hclear).trans ?_
      rw [hcli]
      refine (run_bind hrun).trans ?_
      exact (run_bind (add_entries_ok rfl rfl)).trans rfl
    · have hentries : b₀.entries = b.entries := by rw [entries_eq, hscos₀, entries_eq]
      rw [← hentries, hsel.entries, append_assoc, entries_eq, Contiguous.entries, flatMap_append, flatMap_singleton]
      rfl
    · apply hsel.inOrder.snoc hsel.below hpos hlt (by simp) fun x hx => (hall x hx).1
      · rw [map_append, pairwise_append]
        refine ⟨hsel.increasing, hes.increasing, ?_⟩
        intro l hl l' hl'
        obtain ⟨x, hx, rfl⟩ := mem_map.mp hl
        obtain ⟨y, hy, rfl⟩ := mem_map.mp hl'
        exact Nat.lt_of_lt_of_le (hsel.offset_lt x hx) (hes.mem hy).2.1
      · intro x hx
        exact Nat.lt_of_lt_of_le (hall x hx).2 hfit
    · constructor
      · intro p hp
        rcases mem_append.mp hp with hp | hp
        · exact Nat.le_of_lt (hsel.below p hp)
        · rw [mem_singleton.mp hp]
      · intro _
        exact ⟨rfl, rfl⟩
      · intro p hp heq
        rcases mem_append.mp hp with hp | hp
        · exact absurd heq (Nat.ne_of_lt (hsel.below p hp))
        · rw [mem_singleton.mp hp]
          exact fun x hx => (hall x hx).2

/-- The SCOs up to the one that is on the backend go. The one that is written to is not among them. -/
theorem removeUpTo_ok (b : Backend) (m : Nat) : ∃ b', removeUpTo ⟨m, 0, 0⟩ b = .ok ⟨⟩ b' ∧ b'.scos = rest m b.scos ∧
    b'.first_command_must_be_getEntries = b.first_command_must_be_getEntries ∧
      ∀ n o, Tail b n o → m < n → Tail b' n o := by
  obtain ⟨b', hb'⟩ : ∃ b', (b.scosdeque_.head?.elim b fun oldest =>
      if m < oldest.number then b
      else popUpTo m (if b.scosdeque_.getLast? = some (⟨m, 0, 0⟩ : SCO) then { b with current_ := false } else b)) =
        b' := ⟨_, rfl⟩
  have hscos : b'.scos = rest m b.scos := by
    rw [← hb']
    cases hs : b.scos with
    | nil =>
      simp only [scosdeque_, hs]
      exact hs
    | cons p ps =>
      simp only [scosdeque_, hs, map_cons, List.head?_cons, Option.elim_some]
      split
      · next hlt =>
        rw [hs, rest, dropWhile_cons_of_neg (by simpa using hlt)]
      · rw [rest, ← hs]
        split <;> rfl
  obtain ⟨hflag, hcheck⟩ : b'.first_command_must_be_getEntries = b.first_command_must_be_getEntries ∧
      b'.check_offset_ = b.check_offset_ := by
    rw [← hb']
    cases b.scosdeque_.head? with
    | none => exact ⟨rfl, rfl⟩
    | some oldest =>
      rw [Option.elim_some]
      split
      · exact ⟨rfl, rfl⟩
      · split <;> exact ⟨rfl, rfl⟩
  have hcurrent : b.scosdeque_.getLast? ≠ some ⟨m, 0, 0⟩ → b'.current_ = b.current_ := by
    intro hne
    rw [← hb']
    cases b.scosdeque_.head? with
    | none => rfl
    | some oldest =>
      rw [Option.elim_some]
      split
      · rfl
      · rfl
  refine ⟨b', ?_, hscos, hflag, fun n o ht hmn => ?_⟩
  · refine (run_bind (verify_ok _ rfl)).trans ?_
    refine (run_bind (verify_ok _ rfl)).trans ?_
    refine congrArg (EStateM.Result.ok PUnit.unit) (Eq.trans ?_ hb')
    dsimp only
    cases b.scosdeque_.head? <;> rfl
  · have hsub : ∀ p ∈ b'.scos, p ∈ b.scos := by
      intro p hp
      rw [hscos] at hp
      exact (dropWhile_sublist _).mem hp
    constructor
    · exact fun p hp => ht.below p (hsub p hp)
    · intro hlast
      have hold : b.scosdeque_.getLast? = some ⟨n, 0, 0⟩ := by
        have hsuffix : b'.scosdeque_ <:+ b.scosdeque_ := by
          rw [scosdeque_, scosdeque_, hscos]
          exact (dropWhile_suffix _).map _
        obtain ⟨front, hfront⟩ := hsuffix
        rw [← hfront, List.getLast?_append, hlast]
        rfl
      have hne : b.scosdeque_.getLast? ≠ some ⟨m, 0, 0⟩ := by
        rw [hold]
        intro heq
        have hnm : n = m := congrArg SCO.number (Option.some.inj heq)
        omega
      rw [hcurrent hne, hcheck]
      exact ht.opened hold
    · exact fun p hp => ht.offsets p (hsub p hp)

end

end Backend

end VolumeDriver
