/-
For which corks the TLogs that the accumulator collects are those after the one up to and including
the other. The corks of a chain are its TLogs and the ends of its scrubbed snapshots, in order; an
ancestor's file counts up to the snapshot that its clone was taken from. The code does not come across
the scrubbed snapshots inside an ancestor, refuses two corks that are the same, and takes the end of a
visit for its start cork also after it came across the end cork.
-/
import VolumeDriver.Restart.Accumulator

namespace VolumeDriver

open Lib Function List Snapshots

namespace BackendRestartAccumulator

/-- Distinct TLogs and corks; a cork is the last TLog of its snapshot, or none if scrubbing replaced
that one. -/
structure WellFormed (chain : List Member) : Prop where
  cut : ∀ m ∈ chain.tail, Cut m
  tlogs : (tlogsOf (segments chain)).Nodup
  corks : ((segments chain).filterMap (·.cork)).Nodup
  ends : ∀ v ∈ segments chain, ∀ c ∈ v.cork, v.tlogs.getLast? = some c ∨ c ∉ tlogsOf (segments chain)

/-! ## The interval -/

/-- What a cork may name: a TLog, or the end of a scrubbed snapshot. -/
structure Mark where
  id : UUID
  tlog : Bool
  deriving DecidableEq, Repr

/-- The marks of some TLogs, among `all` of the chain. -/
def Visit.marks (all : List TLogId) (v : Visit) : List Mark :=
  v.tlogs.map (⟨·, true⟩) ++ (v.cork.toList.filter (· ∉ all)).map (⟨·, false⟩)

/-- The marks of some visits, in turn. -/
def marksOf (all : List TLogId) (vs : List Visit) : List Mark := vs.flatMap (Visit.marks all)

/-- Everything a cork may name in a chain, in order. -/
def marks (chain : List Member) : List Mark := marksOf (tlogsOf (segments chain)) (segments chain)

/-- The marks that the code comes across. -/
abbrev visited (chain : List Member) : List Mark := marksOf (tlogsOf (segments chain)) (visits chain 0)

/-- What the marks are named by. -/
def ids (l : List Mark) : List UUID := l.map Mark.id

/-- The TLogs among the marks. -/
def tlogIds (l : List Mark) : List TLogId := (l.filter Mark.tlog).map Mark.id

/-- The marks after `s` up to and including `e`. -/
def between (l : List Mark) (s e : Option UUID) : List Mark := pastStart Mark.id s (throughEnd Mark.id e l)

/-- Both corks occur, the first not after the second. -/
structure NotAfter (l : List Mark) (s e : Option UUID) : Prop where
  start : ∀ c ∈ s, c ∈ ids (throughEnd Mark.id e l)
  last : ∀ c ∈ e, c ∈ ids l

/-- The TLogs collected are exactly those of the interval, and intervals that meet make up one. -/
structure Exact (chain : List Member) (s e : Option UUID) : Prop where
  succeeds : (∃ ctl, accumulate chain s e = .ok ctl) ↔ NotAfter (marks (cut chain)) s e
  tlogs : ∀ ctl, accumulate chain s e = .ok ctl → ctl.flatMap (·.2) = tlogIds (between (marks (cut chain)) s e)
  clone_ids : ∀ ctl, accumulate chain s e = .ok ctl → (ctl.map (·.1)).Pairwise (· > ·)
  meet : ∀ m, NotAfter (marks (cut chain)) s (some m) → NotAfter (marks (cut chain)) (some m) e →
    tlogIds (between (marks (cut chain)) s (some m)) ++ tlogIds (between (marks (cut chain)) (some m) e) =
      tlogIds (between (marks (cut chain)) s e)

/-- The code comes across the cork: it names a TLog or the end of a visit. -/
def Seen (chain : List Member) (c : UUID) : Prop :=
  c ∈ tlogsOf (visits chain 0) ∨ some c ∈ (visits chain 0).map (·.cork)

/-- The end cork is a TLog of the visit whose end the start cork names. -/
def Late (vs : List Visit) (s e : Option UUID) : Prop :=
  ∃ v ∈ vs, ∃ a ∈ s, ∃ b ∈ e, a ≠ b ∧ b ∈ v.tlogs ∧ v.cork = some a

/-- The code finds the corks: among what it comes across, the start cork is not after the end cork, or it
ends the visit in which the end cork is a TLog. -/
structure Found (chain : List Member) (s e : Option UUID) : Prop where
  start : (∀ c ∈ s, c ∈ ids (throughEnd Mark.id e (visited chain))) ∨ Late (visits chain 0) s e
  last : ∀ c ∈ e, c ∈ ids (visited chain)

/-- For corks in order: they differ, the code comes across both and there are enough clone ids; and the
end cork is no TLog of the visit that the start cork ends. -/
structure Sound (chain : List Member) (s e : Option UUID) : Prop where
  differ : NotAfter (marks chain) s e → ∀ c ∈ s, e ≠ some c
  start : NotAfter (marks chain) s e → ∀ c ∈ s, Seen chain c
  last : NotAfter (marks chain) s e → ∀ c ∈ e, Seen chain c
  depth : NotAfter (marks chain) s e → chain.length ≤ 2 ^ 8
  early : ¬Late (visits chain 0) s e

/-! ## Marks -/

theorem marksOf_append (all : List TLogId) (vs vs' : List Visit) :
    marksOf all (vs ++ vs') = marksOf all vs ++ marksOf all vs' := by
  simp [marksOf]

theorem marksOf_cons (all : List TLogId) (v : Visit) (vs : List Visit) :
    marksOf all (v :: vs) = v.marks all ++ marksOf all vs := rfl

theorem ids_append (l l' : List Mark) : ids (l ++ l') = ids l ++ ids l' := map_append

theorem tlogIds_append (l l' : List Mark) : tlogIds (l ++ l') = tlogIds l ++ tlogIds l' := by
  simp [tlogIds]

theorem tlogIds_map (l : List TLogId) : tlogIds (l.map (⟨·, true⟩)) = l := by
  simp [tlogIds, filter_map, comp_def]

theorem tlogIds_corks (l : List UUID) : tlogIds (l.map (⟨·, false⟩)) = [] := by
  simp [tlogIds, filter_map, comp_def]

theorem ids_map (l : List TLogId) : ids (l.map (⟨·, true⟩)) = l := by
  simp [ids, comp_def]

theorem mem_ids_marks {all : List TLogId} {v : Visit} {c : UUID} :
    c ∈ ids (v.marks all) ↔ c ∈ v.tlogs ∨ (v.cork = some c ∧ c ∉ all) := by
  unfold ids Visit.marks
  rw [map_append, mem_append]
  apply or_congr
  · simp
  · simp only [map_map, mem_map, mem_filter, Option.mem_toList, decide_eq_true_eq]
    constructor
    · rintro ⟨c', h, rfl⟩; exact h
    · intro h; exact ⟨c, h, rfl⟩

variable {vs : List Visit}

theorem mem_ids_marksOf {all : List TLogId} {c : UUID} :
    c ∈ ids (marksOf all vs) ↔ ∃ v ∈ vs, c ∈ v.tlogs ∨ (v.cork = some c ∧ c ∉ all) := by
  induction vs with
  | nil => simp [marksOf, ids]
  | cons v vs ih => rw [marksOf_cons, ids_append, mem_append, mem_ids_marks, ih]; simp

section
variable {all : List TLogId} {v : Visit} {vs : List Visit} {acc : BackendRestartAccumulator} {s e : Option UUID}

theorem throughEnd_marks_of_mem (h : ∃ c ∈ e, c ∈ v.tlogs) :
    throughEnd Mark.id e (v.marks all) = (throughEnd id e v.tlogs).map (⟨·, true⟩) := by
  obtain ⟨c, rfl, hc⟩ := h
  unfold Visit.marks
  rw [throughEnd_append_of_mem ⟨c, rfl, by simpa using hc⟩, throughEnd_map]
  rfl

theorem throughEnd_marks_of_not_mem (h : ∀ c ∈ e, c ∉ v.tlogs) : throughEnd Mark.id e (v.marks all) = v.marks all := by
  unfold Visit.marks
  rw [throughEnd_append_of_not_mem (by simpa using h)]
  congr 1
  cases e with
  | none => rfl
  | some c =>
    cases v.cork with
    | none => rfl
    | some c' => by_cases hc : c' ∈ all <;> by_cases hcc : c' = c <;> simp [hc, through]

/-! ## One visit, by its marks -/

/-- A visit sees the end cork if it is one of its marks. -/
theorem look_end_iff (ho : Orderly all (v :: vs)) (he : acc.end_seen_ = false) :
    (acc.look v).1.end_seen_ = true ↔ ∃ c ∈ acc.end_cork_, c ∈ ids (v.marks all) := by
  unfold look
  rw [if_neg (by simp [he])]
  cases hend : acc.end_cork_ with
  | none => cases v.cork <;> simp
  | some c =>
    simp only [Option.any_some, Bool.or_eq_true, decide_eq_true_eq, Option.mem_def, Option.some.injEq, exists_eq_left',
      mem_ids_marks]
    constructor
    · rintro (hc | hc)
      · exact .inl hc
      · cases hcork : v.cork with
        | none => simp [hcork] at hc
        | some c' =>
          have : c = c' := by simpa [hcork] using hc
          subst this
          by_cases ha : c ∈ all
          · exact .inl (ho.cork_mem hcork ha)
          · exact .inr ⟨rfl, ha⟩
    · rintro (hc | ⟨hc, _⟩)
      · exact .inl hc
      · exact .inr (by simp [hc])

/-- It sees the start cork if that is one of its marks up to the end cork, or ends the visit and comes too late. -/
theorem look_start_iff (ho : Orderly all (v :: vs)) (he : acc.end_seen_ = false)
    (hne : ∀ c ∈ acc.start_cork_, acc.end_cork_ ≠ some c) :
    (acc.look v).1.start_seen_ = true ↔ acc.start_seen_ = true ∨
      (∃ c ∈ acc.start_cork_, c ∈ ids (throughEnd Mark.id acc.end_cork_ (v.marks all))) ∨
        Late [v] acc.start_cork_ acc.end_cork_ := by
  unfold look
  rw [if_neg (by simp [he])]
  simp only [Bool.or_eq_true, or_assoc]
  refine or_congr_right ?_
  cases hs : acc.start_cork_ with
  | none => cases v.cork <;> simp [Late]
  | some a =>
    have hcork : v.cork.any (some a = some ·) = true ↔ v.cork = some a := by
      cases v.cork <;> simp [eq_comm]
    rw [hcork]
    simp only [Option.any_some, decide_eq_true_eq, Option.mem_def, Option.some.injEq, exists_eq_left', Late,
      mem_singleton, exists_eq_left]
    by_cases hm : ∃ c ∈ acc.end_cork_, c ∈ v.tlogs
    · -- the walk stops at the end cork, the cork of the visit is looked at nevertheless
      rw [throughEnd_marks_of_mem hm]
      rw [ids_map]
      refine or_congr_right ?_
      obtain ⟨b, hb, hbm⟩ := hm
      constructor
      · intro hc
        exact ⟨b, hb, fun hab => hne a hs (hab ▸ hb), hbm, hc⟩
      · rintro ⟨b, _, _, _, hc⟩
        exact hc
    · have hm' : ∀ c ∈ acc.end_cork_, c ∉ v.tlogs := fun c hc hcm => hm ⟨c, hc, hcm⟩
      rw [throughEnd_marks_of_not_mem hm', throughEnd_of_not_mem (by simpa using hm'), mem_ids_marks]
      constructor
      · rintro (ha | hc)
        · exact .inl (.inl ha)
        · by_cases hall : a ∈ all
          · exact .inl (.inl (ho.cork_mem hc hall))
          · exact .inl (.inr ⟨hc, hall⟩)
      · rintro ((ha | ⟨hc, _⟩) | ⟨b, hb, _, hbm, _⟩)
        · exact .inl ha
        · exact .inr hc
        · exact absurd ⟨b, hb, hbm⟩ hm

/-- The marks of a visit give the TLogs that it collects. -/
theorem look_tlogs (all : List TLogId) (he : acc.end_seen_ = false) (hr : Ready acc v.tlogs) :
    (acc.look v).2 = tlogIds (if acc.start_seen_ then throughEnd Mark.id acc.end_cork_ (v.marks all)
      else between (v.marks all) acc.start_cork_ acc.end_cork_) := by
  unfold look between
  rw [if_neg (by simp [he])]
  by_cases hm : ∃ c ∈ acc.end_cork_, c ∈ v.tlogs
  · rw [throughEnd_marks_of_mem hm, pastStart_map]
    split
    · rw [tlogIds_map]
    · rw [tlogIds_map]
      rfl
  · have hm' : ∀ c ∈ acc.end_cork_, c ∉ v.tlogs := fun c hc hcm => hm ⟨c, hc, hcm⟩
    rw [throughEnd_marks_of_not_mem hm', throughEnd_of_not_mem (by simpa using hm')]
    cases hb : acc.start_seen_ with
    | true => simp [Visit.marks, tlogIds_append, tlogIds_map, tlogIds_corks]
    | false =>
      cases hs : acc.start_cork_ with
      | none => exact absurd hs (hr.given hb)
      | some a =>
        simp only [Bool.false_eq_true, if_false, pastStart_some]
        unfold Visit.marks
        by_cases ha : a ∈ v.tlogs
        · have hpast : past Mark.id a (v.tlogs.map (⟨·, true⟩)) = (past id a v.tlogs).map (⟨·, true⟩) :=
            pastStart_map _ (some a) v.tlogs
          rw [past_append_of_mem (by simpa using ha), tlogIds_append, tlogIds_corks, append_nil, hpast, tlogIds_map]
        · have hpast : tlogIds (past Mark.id a ((v.cork.toList.filter (· ∉ all)).map (⟨·, false⟩))) = [] := by
            rw [← pastStart_some, pastStart_map, tlogIds_corks]
          rw [past_append_of_not_mem (by simpa using ha), hpast, past_of_not_mem (by simpa using ha)]

/-! ## All visits -/

/-- What is left after a list of visits: which corks were seen, and the TLogs collected. -/
structure Visited (all : List TLogId) (acc : BackendRestartAccumulator) (vs : List Visit) : Prop where
  start : (acc.lookAll vs).1.start_seen_ = true ↔ acc.start_seen_ = true ∨
    (∃ c ∈ acc.start_cork_, c ∈ ids (throughEnd Mark.id acc.end_cork_ (marksOf all vs))) ∨
      Late vs acc.start_cork_ acc.end_cork_
  last : (acc.lookAll vs).1.end_seen_ = true ↔ ∃ c ∈ acc.end_cork_, c ∈ ids (marksOf all vs)
  tlogs : (acc.lookAll vs).2 = tlogIds (if acc.start_seen_ then throughEnd Mark.id acc.end_cork_ (marksOf all vs)
    else between (marksOf all vs) acc.start_cork_ acc.end_cork_)

theorem late_cons : Late (v :: vs) s e ↔ Late [v] s e ∨ Late vs s e := by
  simp [Late, or_and_right, exists_or]

theorem Orderly.not_late (ho : Orderly all (v :: vs)) (h : ∃ c ∈ e, c ∈ ids (v.marks all)) : ¬Late vs s e := by
  rintro ⟨v', hv', a, _, b, hb, _, hbm, _⟩
  obtain ⟨c, hc, hcm⟩ := h
  have : c = b := Option.some.inj (hc.symm.trans hb)
  subst this
  have hrest : c ∈ tlogsOf vs := mem_flatMap.2 ⟨v', hv', hbm⟩
  rcases mem_ids_marks.1 hcm with hm | ⟨_, hn⟩
  · exact ho.cons.2.2 hm hrest
  · exact hn (ho.cons.2.1.subset hrest)

/-- The same for all visits: what is seen and collected is read off the marks. -/
theorem lookAll_visited : ∀ {vs : List Visit} {acc : BackendRestartAccumulator}, Orderly all vs →
    Ready acc (tlogsOf vs) → acc.end_seen_ = false → (∀ c ∈ acc.start_cork_, acc.end_cork_ ≠ some c) →
    Visited all acc vs
  | [], acc, _, hr, he, _ => by
    have ht : throughEnd Mark.id acc.end_cork_ [] = [] := by cases acc.end_cork_ <;> rfl
    have hp : pastStart Mark.id acc.start_cork_ [] = [] := by cases acc.start_cork_ <;> rfl
    constructor
    case start => simp [lookAll, marksOf, ht, ids, Late]
    case last => simp [lookAll, marksOf, ids, he]
    case tlogs => cases acc.start_seen_ <;> simp [lookAll, marksOf, between, ht, hp, tlogIds]
  | v :: vs, acc, ho, hr, he, hne => by
    have hstart := look_start_iff ho he hne
    have hend := look_end_iff ho he
    have hr1 : Ready acc v.tlogs := hr.mono (by rw [tlogsOf_cons]; exact subset_append_left _ _)
    have hout := look_tlogs all he hr1
    by_cases hm : ∃ c ∈ acc.end_cork_, c ∈ ids (v.marks all)
    · -- the end cork is in this visit: the others are left out
      have hrest := lookAll_of_end_seen (hend.2 hm) vs
      have hthrough : throughEnd Mark.id acc.end_cork_ (v.marks all ++ marksOf all vs) =
          throughEnd Mark.id acc.end_cork_ (v.marks all) := throughEnd_append_of_mem hm
      have hlate : Late (v :: vs) acc.start_cork_ acc.end_cork_ ↔ Late [v] acc.start_cork_ acc.end_cork_ :=
        late_cons.trans (or_iff_left (ho.not_late hm))
      constructor
      case start =>
        rw [lookAll, hrest, marksOf_cons, hthrough, hlate]
        exact hstart
      case last =>
        rw [lookAll, hrest, marksOf_cons]
        simp only [hend.2 hm, true_iff]
        obtain ⟨c, hc, hcm⟩ := hm
        exact ⟨c, hc, by rw [ids_append]; exact mem_append_left _ hcm⟩
      case tlogs =>
        rw [lookAll, hrest, append_nil, hout, marksOf_cons, between, between, hthrough]
    · -- the visits go on, with the start cork seen if this one has it
      have hm' : ∀ c ∈ acc.end_cork_, c ∉ ids (v.marks all) := fun c hc hcm => hm ⟨c, hc, hcm⟩
      have hthrough : throughEnd Mark.id acc.end_cork_ (v.marks all ++ marksOf all vs) =
          v.marks all ++ throughEnd Mark.id acc.end_cork_ (marksOf all vs) := throughEnd_append_of_not_mem hm'
      have hwhole : throughEnd Mark.id acc.end_cork_ (v.marks all) = v.marks all := throughEnd_of_not_mem hm'
      have hearly : ¬Late [v] acc.start_cork_ acc.end_cork_ := by
        rintro ⟨_, hv, a, _, b, hb, _, hbm, _⟩
        rw [mem_singleton.1 hv] at hbm
        exact hm' b hb (mem_ids_marks.2 (.inl hbm))
      have hlate : Late (v :: vs) acc.start_cork_ acc.end_cork_ ↔ Late vs acc.start_cork_ acc.end_cork_ :=
        late_cons.trans (or_iff_right hearly)
      rw [hwhole, or_iff_left hearly] at hstart
      obtain ⟨hs1, he1, _⟩ := look_corks acc v
      have hend1 : (acc.look v).1.end_seen_ = false := by
        rw [← Bool.not_eq_true, hend]
        exact hm
      obtain ⟨ihs, ihe, iht⟩ := lookAll_visited ho.cons.2.1 (hr.look ho) hend1 (by rw [hs1, he1]; exact hne)
      rw [hs1, he1] at ihs
      rw [he1] at ihe
      rw [hs1, he1] at iht
      constructor
      case start =>
        rw [lookAll, ihs, hstart, marksOf_cons, hthrough, ids_append, hlate]
        simp only [mem_append, and_or_left, exists_or, or_assoc]
      case last =>
        rw [lookAll, ihe, marksOf_cons, ids_append]
        constructor
        · rintro ⟨c, hc, hcm⟩
          exact ⟨c, hc, mem_append_right _ hcm⟩
        · rintro ⟨c, hc, hcm⟩
          exact ⟨c, hc, (mem_append.1 hcm).resolve_left (hm' c hc)⟩
      case tlogs =>
        rw [lookAll, iht, hout, marksOf_cons, between, between, between, hthrough, hwhole]
        cases hb : acc.start_seen_ with
        | true =>
          rw [if_pos rfl, if_pos (hstart.2 (.inl hb)), if_pos rfl, tlogIds_append]
        | false =>
          simp only [Bool.false_eq_true, if_false]
          cases hs : acc.start_cork_ with
          | none => exact absurd hs (hr.given hb)
          | some a =>
            rw [hb, hs] at hstart
            by_cases ha : a ∈ ids (v.marks all)
            · rw [if_pos (hstart.2 (.inr ⟨a, rfl, ha⟩)), pastStart_some, pastStart_some, past_append_of_mem ha,
                tlogIds_append]
            · have hnot : ¬(acc.look v).1.start_seen_ = true := by
                rw [hstart]
                rintro (h | ⟨c, hc, hcm⟩)
                · simp at h
                · exact ha (Option.some.inj hc ▸ hcm)
              rw [if_neg hnot, pastStart_some, pastStart_some, pastStart_some, past_append_of_not_mem ha,
                past_of_not_mem ha]
              rfl

end

/-! ## Visits and snapshots -/

section
variable {all : List TLogId} {m : Member} {chain : List Member} {start clone_id : SCOCloneID}

theorem cuts_of_cut : ∀ {chain : List Member} (start : SCOCloneID), (∀ m ∈ chain, Cut m) → Cuts chain start
  | [], _, _ => trivial
  | m :: _, _, h => ⟨.inr (h m (mem_cons_self ..)), cuts_of_cut _ fun m' hm' => h m' (mem_cons_of_mem m hm')⟩

theorem cuts_of_tail : ∀ {chain : List Member}, (∀ m ∈ chain.tail, Cut m) → Cuts chain 0
  | [], _ => trivial
  | _ :: _, h => ⟨.inl rfl, cuts_of_cut _ h⟩

/-- A file that is visited snapshot by snapshot, or the one visit of an ancestor's. -/
theorem Member.visits_cases (hm : clone_id = 0 ∨ Cut m) : m.visits clone_id = m.segments ∧ clone_id = 0 ∨
    ∃ older snap, clone_id ≠ 0 ∧ m.segments = (older ++ [snap]).map segment ++ [⟨[], none⟩] ∧
      m.sp.snapshots = older ++ [snap] ∧
      m.visits clone_id = [⟨(allTLogs older ++ snap.tlogs).map (·.id), some snap.cork_uuid⟩] := by
  by_cases hid : clone_id = 0
  · exact .inl ⟨if_pos hid, hid⟩
  · have hc := hm.resolve_left hid
    obtain ⟨older, snap, hs, hfind, _⟩ := hc.find
    refine .inr ⟨older, snap, hid, ?_, hs, ?_⟩
    · unfold Member.segments
      rw [hs, hc.current]
    · unfold Member.visits
      rw [if_neg hid, hfind, hs]
      simp [allTLogs]

theorem tlogsOf_segments_map (ss : Snapshots) : tlogsOf (ss.map segment) = (allTLogs ss).map (·.id) := by
  unfold tlogsOf allTLogs
  rw [flatMap_map, map_flatten, map_map]
  rfl

theorem Member.tlogsOf_visits (hm : clone_id = 0 ∨ Cut m) : tlogsOf (m.visits clone_id) = tlogsOf m.segments := by
  rcases Member.visits_cases hm with ⟨h, _⟩ | ⟨older, snap, _, hseg, _, hv⟩
  · rw [h]
  · rw [hseg, hv, tlogsOf_append, tlogsOf_segments_map]
    simp [tlogsOf, allTLogs]

theorem tlogsOf_visits : ∀ {chain : List Member} {start : SCOCloneID}, Cuts chain start →
    tlogsOf (visits chain start) = tlogsOf (segments chain)
  | [], _, _ => rfl
  | m :: parents, start, h => by
    rw [visits, segments, tlogsOf_append, tlogsOf_append, tlogsOf_visits h.2, Member.tlogsOf_visits h.1]

theorem Member.ends_visits (hm : clone_id = 0 ∨ Cut m)
    (h : ∀ v ∈ m.segments, ∀ c ∈ v.cork, v.tlogs.getLast? = some c ∨ c ∉ all) :
    ∀ v ∈ m.visits clone_id, ∀ c ∈ v.cork, v.tlogs.getLast? = some c ∨ c ∉ all := by
  rcases Member.visits_cases hm with ⟨hv, _⟩ | ⟨older, snap, _, hseg, _, hv⟩
  · rw [hv]; exact h
  · intro v hmem c hc
    rw [hv, mem_singleton] at hmem
    subst hmem
    refine (h (segment snap) (by simp [hseg]) c hc).imp_left fun hl => ?_
    rw [map_append, List.getLast?_append]
    change (snap.tlogs.map (·.id)).getLast? = some c at hl
    rw [hl]; rfl

theorem ends_visits : ∀ {chain : List Member} {start : SCOCloneID}, Cuts chain start →
    (∀ v ∈ segments chain, ∀ c ∈ v.cork, v.tlogs.getLast? = some c ∨ c ∉ all) →
    ∀ v ∈ visits chain start, ∀ c ∈ v.cork, v.tlogs.getLast? = some c ∨ c ∉ all
  | [], _, _, _, v, hv => by simp [visits] at hv
  | m :: parents, start, hc, h, v, hv => by
    rcases mem_append.1 hv with hv | hv
    · exact ends_visits hc.2 (fun v hv => h v (mem_append_left _ hv)) v hv
    · exact Member.ends_visits hc.1 (fun v hv => h v (mem_append_right _ hv)) v hv

theorem WellFormed.orderly (h : WellFormed chain) : Orderly (tlogsOf (segments chain)) (visits chain 0) := by
  have hc := cuts_of_tail h.cut
  constructor
  case nodup => rw [tlogsOf_visits hc]; exact h.tlogs
  case subset => rw [tlogsOf_visits hc]; exact List.Subset.refl _
  case ends => exact ends_visits hc h.ends

/-! ## Hidden corks -/

/-- The corks of some visits. -/
def corksOf (vs : List Visit) : List UUID := vs.filterMap (·.cork)

theorem corksOf_append (vs vs' : List Visit) : corksOf (vs ++ vs') = corksOf vs ++ corksOf vs' := filterMap_append

/-- The corks of an ancestor's snapshots before the last. -/
def Member.hidden (m : Member) (clone_id : SCOCloneID) : List UUID :=
  if clone_id = 0 then [] else m.sp.snapshots.dropLast.map (·.cork_uuid)

/-- The corks that the code does not come across. -/
def hidden : List Member → SCOCloneID → List UUID
  | [], _ => []
  | m :: parents, start => hidden parents ((start + 1) % 2 ^ 8) ++ m.hidden start

theorem Member.corks_perm (hm : clone_id = 0 ∨ Cut m) :
    (corksOf m.segments).Perm (corksOf (m.visits clone_id) ++ m.hidden clone_id) := by
  rcases Member.visits_cases hm with ⟨hv, hid⟩ | ⟨older, snap, hid, hseg, hs, hv⟩
  · rw [hv, Member.hidden, if_pos hid, append_nil]
  · have hcorks : corksOf (older.map segment) = older.map (·.cork_uuid) := by
      simp [corksOf, filterMap_map, segment, comp_def]
    rw [hseg, hv, Member.hidden, if_neg hid, hs, dropLast_concat, map_append, corksOf_append, corksOf_append, hcorks]
    simp [corksOf, segment]

theorem corks_perm : ∀ {chain : List Member} {start : SCOCloneID}, Cuts chain start →
    (corksOf (segments chain)).Perm (corksOf (visits chain start) ++ hidden chain start)
  | [], _, _ => List.Perm.refl _
  | m :: parents, start, h => by
    have h1 := corks_perm h.2
    have h2 := Member.corks_perm h.1
    rw [perm_iff_count] at h1 h2 ⊢
    intro c
    have h1 := h1 c
    have h2 := h2 c
    rw [segments, visits, hidden, corksOf_append, corksOf_append]
    simp only [count_append] at h1 h2 ⊢
    omega

/-- A mark that the code may come across, if `corks` are the ends of its visits. -/
def visible (corks : List UUID) (k : Mark) : Bool := k.tlog || decide (k.id ∈ corks)

variable {corks : List UUID} {c : UUID}

theorem marks_filter_of_hidden {v : Visit} (h : ∀ c ∈ v.cork, c ∉ corks) :
    (v.marks all).filter (visible corks) = v.tlogs.map (⟨·, true⟩) := by
  unfold Visit.marks
  rw [filter_append]
  have htlogs : (v.tlogs.map (fun t => (⟨t, true⟩ : Mark))).filter (visible corks) = v.tlogs.map (⟨·, true⟩) := by
    rw [filter_eq_self]
    intro k hk
    obtain ⟨t, _, rfl⟩ := mem_map.1 hk
    rfl
  have hcork : ((v.cork.toList.filter (· ∉ all)).map (fun c => (⟨c, false⟩ : Mark))).filter (visible corks) = [] := by
    rw [filter_eq_nil_iff]
    intro k hk
    obtain ⟨c, hc, rfl⟩ := mem_map.1 hk
    have hc := h c (by simpa using (mem_filter.1 hc).1)
    simp [visible, hc]
  rw [htlogs, hcork, append_nil]

theorem marksOf_filter_of_visible (h : corksOf vs ⊆ corks) :
    (marksOf all vs).filter (visible corks) = marksOf all vs := by
  rw [filter_eq_self]
  intro k hk
  obtain ⟨v, hv, hk⟩ := mem_flatMap.1 hk
  rcases mem_append.1 hk with hk | hk
  · obtain ⟨t, _, rfl⟩ := mem_map.1 hk
    rfl
  · obtain ⟨c, hc, rfl⟩ := mem_map.1 hk
    have hc : v.cork = some c := by simpa using (mem_filter.1 hc).1
    simp [visible, h (mem_filterMap.2 ⟨v, hv, hc⟩)]

theorem marksOf_filter_of_hidden : ∀ {ss : Snapshots}, (∀ s ∈ ss, s.cork_uuid ∉ corks) →
    (marksOf all (ss.map segment)).filter (visible corks) = (allTLogs ss).map (fun t => ⟨t.id, true⟩)
  | [], _ => rfl
  | s :: ss, h => by
    have hs : ∀ c ∈ (segment s).cork, c ∉ corks := by
      rintro c ⟨⟩
      exact h s (mem_cons_self ..)
    rw [map_cons, marksOf_cons, filter_append, marks_filter_of_hidden hs,
      marksOf_filter_of_hidden fun s' hs' => h s' (mem_cons_of_mem s hs')]
    simp [segment, allTLogs]

theorem Member.marks_visits (hm : clone_id = 0 ∨ Cut m) (hv : corksOf (m.visits clone_id) ⊆ corks)
    (hh : ∀ c ∈ m.hidden clone_id, c ∉ corks) :
    marksOf all (m.visits clone_id) = (marksOf all m.segments).filter (visible corks) := by
  rcases Member.visits_cases hm with ⟨h, _⟩ | ⟨older, snap, hid, hseg, hs, h⟩
  · rw [h] at hv ⊢
    rw [marksOf_filter_of_visible hv]
  · have hold : ∀ s ∈ older, s.cork_uuid ∉ corks := fun s hmem => by
      refine hh _ ?_
      rw [Member.hidden, if_neg hid, hs, dropLast_concat]
      exact mem_map_of_mem hmem
    have hlast : corksOf ([snap].map segment) ⊆ corks := by
      rw [h] at hv
      exact hv
    have hmap : (older ++ [snap]).map segment = older.map segment ++ [snap].map segment := map_append
    rw [h, hseg, hmap, marksOf_append, marksOf_append, filter_append, filter_append, marksOf_filter_of_hidden hold]
    have hsnap : (marksOf all ([snap].map segment)).filter (visible corks) = (segment snap).marks all := by
      rw [marksOf_filter_of_visible hlast]
      simp [marksOf]
    rw [hsnap]
    simp [marksOf, Visit.marks, segment]

theorem marks_visits : ∀ {chain : List Member} {start : SCOCloneID}, Cuts chain start →
    corksOf (visits chain start) ⊆ corks → (∀ c ∈ hidden chain start, c ∉ corks) →
    marksOf all (visits chain start) = (marksOf all (segments chain)).filter (visible corks)
  | [], _, _, _, _ => rfl
  | m :: parents, start, hc, hv, hh => by
    rw [visits, corksOf_append] at hv
    obtain ⟨hv1, hv2⟩ := append_subset.1 hv
    rw [visits, segments, marksOf_append, marksOf_append, filter_append,
      marks_visits hc.2 hv1 fun c hc => hh c (mem_append_left _ hc),
      Member.marks_visits hc.1 hv2 fun c hc => hh c (mem_append_right _ hc)]

/-- The code sees all marks, but not those of corks inside an ancestor's file. -/
theorem WellFormed.marks_visits (h : WellFormed chain) : visited chain =
    (marks chain).filter (visible (corksOf (visits chain 0))) := by
  have hc := cuts_of_tail h.cut
  have hnodup : (corksOf (visits chain 0) ++ hidden chain 0).Nodup := (corks_perm hc).nodup_iff.1 h.corks
  refine BackendRestartAccumulator.marks_visits hc (List.Subset.refl _) fun c hh hv => ?_
  exact (nodup_append'.1 hnodup).2.2 hv hh

theorem tlogIds_visible (corks : List UUID) (l : List Mark) : tlogIds (l.filter (visible corks)) = tlogIds l := by
  unfold tlogIds
  rw [filter_filter]
  congr 1
  apply filter_congr
  intro k _
  cases hk : k.tlog <;> simp [visible, hk]

/-! ## Corks that the code comes across -/

variable {s e : Option UUID}

theorem WellFormed.seen_iff (h : WellFormed chain) : Seen chain c ↔ c ∈ ids (visited chain) := by
  rw [mem_ids_marksOf]
  constructor
  · rintro (hc | hc)
    · obtain ⟨v, hv, hcv⟩ := mem_flatMap.1 hc
      exact ⟨v, hv, .inl hcv⟩
    · obtain ⟨v, hv, hcv⟩ := mem_map.1 hc
      refine ⟨v, hv, ?_⟩
      rcases h.orderly.ends v hv c hcv with hl | hn
      · exact .inl (mem_of_getLast? hl)
      · exact .inr ⟨hcv, hn⟩
  · rintro ⟨v, hv, hc | ⟨hc, _⟩⟩
    · exact .inl (mem_flatMap.2 ⟨v, hv, hc⟩)
    · exact .inr (mem_map.2 ⟨v, hv, hc⟩)

theorem mem_marks_cork {k : Mark} (hk : k ∈ marksOf all vs) (hc : k.tlog = false) : k.id ∉ all := by
  obtain ⟨v, _, hk⟩ := mem_flatMap.1 hk
  rcases mem_append.1 hk with hk | hk
  · obtain ⟨t, _, rfl⟩ := mem_map.1 hk
    cases hc
  · obtain ⟨c, hcm, rfl⟩ := mem_map.1 hk
    simpa using (mem_filter.1 hcm).2

section
variable (h : WellFormed chain)
include h

theorem WellFormed.visible_of_seen {k : Mark} (hk : k ∈ marks chain) (hs : Seen chain k.id) :
    visible (corksOf (visits chain 0)) k = true := by
  cases ht : k.tlog with
  | true => simp [visible, ht]
  | false =>
    rcases hs with hs | hs
    · rw [tlogsOf_visits (cuts_of_tail h.cut)] at hs
      exact absurd hs (mem_marks_cork hk ht)
    · obtain ⟨v, hv, hc⟩ := mem_map.1 hs
      have : k.id ∈ corksOf (visits chain 0) := mem_filterMap.2 ⟨v, hv, hc⟩
      simp [visible, this]

theorem WellFormed.throughEnd_visits (he : ∀ c ∈ e, Seen chain c) : throughEnd Mark.id e (visited chain) =
      (throughEnd Mark.id e (marks chain)).filter (visible (corksOf (visits chain 0))) := by
  rw [h.marks_visits]
  exact throughEnd_filter fun k hk hke => h.visible_of_seen hk (he k.id hke)

theorem WellFormed.mem_throughEnd_visits (he : ∀ c ∈ e, Seen chain c)
    (hc : Seen chain c) : c ∈ ids (throughEnd Mark.id e (visited chain)) ↔
      c ∈ ids (throughEnd Mark.id e (marks chain)) := by
  rw [h.throughEnd_visits he]
  constructor
  · intro hm
    obtain ⟨k, hk, rfl⟩ := mem_map.1 hm
    exact mem_map.2 ⟨k, (mem_filter.1 hk).1, rfl⟩
  · intro hm
    obtain ⟨k, hk, rfl⟩ := mem_map.1 hm
    exact mem_map.2 ⟨k, mem_filter.2 ⟨hk, h.visible_of_seen (throughEnd_subset e hk) hc⟩, rfl⟩

/-- For corks that the code sees, the hidden marks make no difference. -/
theorem WellFormed.between_visits (hs : ∀ c ∈ s, Seen chain c) (he : ∀ c ∈ e, Seen chain c) :
    tlogIds (between (visited chain) s e) = tlogIds (between (marks chain) s e) := by
  unfold between
  rw [h.throughEnd_visits he, pastStart_filter, tlogIds_visible]
  intro k hk hks
  exact h.visible_of_seen (throughEnd_subset e hk) (hs k.id hks)

/-! ## Running the code -/

/-- The run succeeds if the corks are found. -/
theorem WellFormed.accumulate_iff (hne : ∀ c ∈ s, e ≠ some c) : ∃ ctl,
    (∀ r, accumulate chain s e = .ok r ↔ r = ctl ∧ Found chain s e) ∧
      (accumulate chain s e = .error .corkNotFound ↔ ¬Found chain s e) ∧
      ctl.flatMap (·.2) = tlogIds (between (visited chain) s e) ∧ ctl.map (·.1) = cloneIds chain 0 := by
  let acc : BackendRestartAccumulator := { start_cork_ := s, end_cork_ := e, start_seen_ := s.isNone }
  have hr : Ready acc (tlogsOf (visits chain 0)) := by
    constructor
    case once =>
      intro hb c hc
      change s.isNone = true at hb
      change s = some c at hc
      simp [hc] at hb
    case given =>
      intro hb hs
      change s.isNone = false at hb
      change s = none at hs
      simp [hs] at hb
  have hcreate : create s e = .ok acc := by
    unfold create
    rw [VERIFY_of]
    · rfl
    · rintro ⟨hs, he⟩
      obtain ⟨c, hc⟩ := Option.ne_none_iff_exists'.1 hs
      exact hne c hc (he ▸ hc)
  obtain ⟨ctl, hrun, htl, hid⟩ := vold_eq (cuts_of_tail h.cut) h.orderly hr
  obtain ⟨hstart, hlast, htlogs⟩ := lookAll_visited h.orderly hr rfl hne
  have hseen : (acc.lookAll (visits chain 0)).1.start_seen_ = true ↔
      (∀ c ∈ s, c ∈ ids (throughEnd Mark.id e (visited chain))) ∨ Late (visits chain 0) s e := by
    rw [hstart]
    change s.isNone = true ∨ (∃ c ∈ s, _) ∨ _ ↔ _
    cases s with
    | none => simp
    | some c => simp [acc]
  have hclone : accumulate chain s e = clone_tlogs { (acc.lookAll (visits chain 0)).1 with clone_tlogs_ := ctl } := by
    unfold accumulate
    rw [hcreate, ok_bind, hrun, ok_bind]
    rfl
  have hlast' : ((acc.lookAll (visits chain 0)).1.end_cork_ ≠ none ∧
      (acc.lookAll (visits chain 0)).1.end_seen_ = false) ↔ ¬∀ c ∈ e, c ∈ ids (visited chain) := by
    rw [(lookAll_corks (visits chain 0) acc).2.1, ← Bool.not_eq_true, hlast]
    change e ≠ none ∧ (¬∃ c ∈ e, _) ↔ _
    cases e with
    | none => simp
    | some c => simp
  have hres : accumulate chain s e = .ok ctl ∧ Found chain s e ∨
      accumulate chain s e = .error .corkNotFound ∧ ¬Found chain s e := by
    rw [hclone, clone_tlogs]
    split
    · next hb => exact .inr ⟨rfl, fun hf => by rw [hseen.2 hf.start] at hb; cases hb⟩
    · next hb =>
      split
      · next hu => exact .inr ⟨rfl, fun hf => hlast'.1 hu hf.last⟩
      · next hu => exact .inl ⟨rfl, hseen.1 (by simpa using hb), by_contra fun hn => hu (hlast'.2 hn)⟩
  refine ⟨ctl, fun r => ?_, ?_, ?_, hid⟩
  · rcases hres with ⟨h1, h2⟩ | ⟨h1, h2⟩ <;> simp [h1, h2, eq_comm]
  · rcases hres with ⟨h1, h2⟩ | ⟨h1, h2⟩ <;> simp [h1, h2]
  · rw [htl, htlogs]
    change tlogIds (if s.isNone then _ else _) = _
    cases s with
    | none => rfl
    | some c => rfl

end

theorem accumulate_same (hs : s = some c) (he : e = some c) (r : CloneTLogs) : accumulate chain s e ≠ .ok r := by
  subst hs he
  simp [accumulate, create, VERIFY, verify]

/-! ## Late start corks -/

theorem last_not_mem_through {l : List TLogId} {a b : TLogId} (hn : l.Nodup) (hl : l.getLast? = some a) (hb : b ∈ l)
    (hab : a ≠ b) : a ∉ through id b l := by
  induction l with
  | nil => cases hb
  | cons t l ih =>
    obtain ⟨hnt, hn⟩ := nodup_cons.1 hn
    rw [through]
    split
    · rename_i ht
      change t = b at ht
      simpa [ht] using hab
    · rename_i ht
      change t ≠ b at ht
      have hb := (mem_cons.1 hb).resolve_left (Ne.symm ht)
      have hl : l.getLast? = some a := by
        cases l with
        | nil => cases hb
        | cons x l => simpa using hl
      rw [mem_cons, not_or]
      exact ⟨fun hat => hnt (hat ▸ mem_of_getLast? hl), ih hn hl hb⟩

theorem Late.seen (hl : Late (visits chain 0) s e) :
    (∀ c ∈ s, e ≠ some c) ∧ (∀ c ∈ s, Seen chain c) ∧ (∀ c ∈ e, Seen chain c) := by
  obtain ⟨v, hv, a, ⟨⟩, b, ⟨⟩, hab, hbm, hcork⟩ := hl
  refine ⟨?_, ?_, ?_⟩
  · rintro c ⟨⟩ ⟨⟩
    exact hab rfl
  · rintro c ⟨⟩
    exact .inr (mem_map.2 ⟨v, hv, hcork⟩)
  · rintro c ⟨⟩
    exact .inl (mem_flatMap.2 ⟨v, hv, hbm⟩)

/-- A start cork that ends the visit in which the end cork is a TLog comes after that. -/
theorem WellFormed.not_notAfter_of_late (h : WellFormed chain) (hl : Late (visits chain 0) s e) :
    ¬NotAfter (marks chain) s e := by
  rintro ⟨hstart, -⟩
  obtain ⟨-, hseena, hseenb⟩ := hl.seen
  obtain ⟨v, hv, a, ha, b, hb, hab, hbm, hcork⟩ := hl
  have ho := h.orderly
  have hc := cuts_of_tail h.cut
  have hmem := (h.mem_throughEnd_visits hseenb (hseena a ha)).2 (hstart a ha)
  have hnodup : (corksOf (visits chain 0)).Nodup :=
    (nodup_append'.1 ((corks_perm hc).nodup_iff.1 h.corks)).1
  -- the visits before, the visit of the end cork, and the visits after
  obtain ⟨before, later, hsplit⟩ := append_of_mem hv
  unfold visited at hmem
  rw [hsplit] at ho hmem hnodup
  obtain ⟨ho1, ho2, hdisj⟩ := ho.append
  have hball : b ∈ tlogsOf (segments chain) := ho2.subset (mem_append_left _ hbm)
  have hbefore : ∀ c ∈ e, c ∉ ids (marksOf (tlogsOf (segments chain)) before) := fun c hce hcm => by
    have : c = b := Option.some.inj (hce.symm.trans hb)
    subst this
    obtain ⟨v', hv', hcv | ⟨_, hn⟩⟩ := mem_ids_marksOf.1 hcm
    · exact hdisj (mem_flatMap.2 ⟨v', hv', hcv⟩) (mem_append_left _ hbm)
    · exact hn hball
  have hthrough : throughEnd Mark.id e (v.marks (tlogsOf (segments chain)) ++
      marksOf (tlogsOf (segments chain)) later) = (throughEnd id e v.tlogs).map (⟨·, true⟩) := by
    rw [throughEnd_append_of_mem ⟨b, hb, mem_ids_marks.2 (.inl hbm)⟩, throughEnd_marks_of_mem ⟨b, hb, hbm⟩]
  rw [marksOf_append, marksOf_cons, throughEnd_append_of_not_mem hbefore, hthrough, ids_append, mem_append] at hmem
  have hvnodup : v.tlogs.Nodup := by simpa [tlogsOf] using ho2.cons.1.nodup
  rcases hmem with hmem | hmem
  · obtain ⟨v', hv', hav | ⟨hav, _⟩⟩ := mem_ids_marksOf.1 hmem
    · -- a TLog of an earlier visit is not the last of this one
      have ha' : a ∈ tlogsOf before := mem_flatMap.2 ⟨v', hv', hav⟩
      exact hdisj ha' (mem_append_left _ (ho2.cork_mem hcork (ho1.subset ha')))
    · rw [corksOf_append] at hnodup
      have h1 : a ∈ corksOf before := mem_filterMap.2 ⟨v', hv', hav⟩
      have h2 : a ∈ corksOf (v :: later) := mem_filterMap.2 ⟨v, mem_cons_self .., hcork⟩
      exact (nodup_append'.1 hnodup).2.2 h1 h2
  · rw [ids_map, show e = some b from hb] at hmem
    rcases ho2.ends v (mem_cons_self ..) a hcork with hlast | hn
    · exact last_not_mem_through hvnodup hlast hbm hab hmem
    · exact hn (ho2.subset (mem_append_left _ (through_subset hmem)))

/-! ## Clone ids -/

theorem cloneIds_ge : ∀ {chain : List Member} {start : Nat}, start + chain.length ≤ 2 ^ 8 →
    (∀ i ∈ cloneIds chain start, start ≤ i) ∧ (cloneIds chain start).Pairwise (· > ·)
  | [], _, _ => by simp [cloneIds]
  | [_], _, _ => by simp [cloneIds]
  | _ :: m :: parents, start, h => by
    rw [length_cons] at h
    have hnext : (start + 1) % 2 ^ 8 = start + 1 := Nat.mod_eq_of_lt (by rw [length_cons] at h; omega)
    have hlen : start + 1 + (m :: parents).length ≤ 2 ^ 8 := by omega
    rw [cloneIds, hnext]
    obtain ⟨h1, h2⟩ := cloneIds_ge hlen
    constructor
    · intro i hi
      rcases mem_append.1 hi with hi | hi
      · exact Nat.le_of_succ_le (h1 i hi)
      · rw [mem_singleton.1 hi]
    · rw [pairwise_append]
      refine ⟨h2, pairwise_singleton _ _, fun i hi j hj => ?_⟩
      rw [mem_singleton.1 hj]
      exact h1 i hi

theorem cloneIds_lt : ∀ {chain : List Member} {start : Nat}, start < 2 ^ 8 →
    (∀ i ∈ cloneIds chain start, i < 2 ^ 8) ∧ (cloneIds chain start).length = chain.length
  | [], _, _ => by simp [cloneIds]
  | m :: parents, start, h => by
    have hnext : (start + 1) % 2 ^ 8 < 2 ^ 8 := Nat.mod_lt _ (by decide)
    obtain ⟨h1, h2⟩ := cloneIds_lt hnext
    rw [cloneIds]
    constructor
    · intro i hi
      rcases mem_append.1 hi with hi | hi
      · exact h1 i hi
      · rwa [mem_singleton.1 hi]
    · rw [length_append, h2, length_singleton, length_cons]

/-- There are as many clone ids as a byte has values. -/
theorem cloneIds_pairwise_iff : (cloneIds chain 0).Pairwise (· > ·) ↔ chain.length ≤ 2 ^ 8 := by
  constructor
  · intro h
    have hzero : 0 < 2 ^ 8 := by decide
    obtain ⟨hlt, hlen⟩ := cloneIds_lt hzero
    have hnodup : (cloneIds chain 0).Nodup := h.imp fun hij => Nat.ne_of_gt hij
    have hsub : cloneIds chain 0 ⊆ List.range (2 ^ 8) := fun i hi => mem_range.2 (hlt i hi)
    have := (hnodup.subperm hsub).length_le
    rwa [hlen, length_range] at this
  · intro h
    exact (cloneIds_ge (by simpa using h)).2

/-! ## The interval of the code -/

theorem WellFormed.seen_of_ok (h : WellFormed chain) {r : CloneTLogs} (hr : accumulate chain s e = .ok r) :
    (∀ c ∈ s, e ≠ some c) ∧ (∀ c ∈ s, Seen chain c) ∧ (∀ c ∈ e, Seen chain c) := by
  have hne : ∀ c ∈ s, e ≠ some c := fun c hs he => accumulate_same hs he r hr
  obtain ⟨ctl, hiff, _⟩ := h.accumulate_iff hne
  obtain ⟨_, hstart, hlast⟩ := (hiff r).1 hr
  refine ⟨hne, fun c hc => ?_, fun c hc => h.seen_iff.2 (hlast c hc)⟩
  rcases hstart with hstart | hlate
  · obtain ⟨k, hk, hkc⟩ := mem_map.1 (hstart c hc)
    exact h.seen_iff.2 (mem_map.2 ⟨k, throughEnd_subset e hk, hkc⟩)
  · exact hlate.seen.2.1 c hc

/-- Corks that the code comes across are found if the start cork is not after the end cork, or is late. -/
theorem WellFormed.succeeds_iff (h : WellFormed chain) (hne : ∀ c ∈ s, e ≠ some c) (hs : ∀ c ∈ s, Seen chain c)
    (he : ∀ c ∈ e, Seen chain c) :
    (∃ r, accumulate chain s e = .ok r) ↔ NotAfter (marks chain) s e ∨ Late (visits chain 0) s e := by
  obtain ⟨ctl, hiff, _⟩ := h.accumulate_iff hne
  have hvisit : (∀ c ∈ s, c ∈ ids (throughEnd Mark.id e (visited chain))) ↔
      ∀ c ∈ s, c ∈ ids (throughEnd Mark.id e (marks chain)) :=
    forall₂_congr fun c hc => h.mem_throughEnd_visits he (hs c hc)
  have hlast : ∀ c ∈ e, c ∈ ids (visited chain) := fun c hc =>
    h.seen_iff.1 (he c hc)
  constructor
  · rintro ⟨r, hr⟩
    obtain ⟨_, hstart | hlate, _⟩ := (hiff r).1 hr
    · refine .inl ⟨hvisit.1 hstart, fun c hc => ?_⟩
      have hmem := hlast c hc
      rw [h.marks_visits] at hmem
      obtain ⟨k, hk, hkc⟩ := mem_map.1 hmem
      exact mem_map.2 ⟨k, (mem_filter.1 hk).1, hkc⟩
    · exact .inr hlate
  · rintro (hna | hlate)
    · exact ⟨ctl, (hiff ctl).2 ⟨rfl, .inl (hvisit.2 hna.start), hlast⟩⟩
    · exact ⟨ctl, (hiff ctl).2 ⟨rfl, .inr hlate, hlast⟩⟩

section
variable (h : WellFormed (cut chain)) (hw : chain.length ≤ 2 ^ 8 ∨ cut chain = chain)
include h hw

theorem Sound.of_exact (hx : Exact chain s e) : Sound (cut chain) s e := by
  have hcut := accumulate_cut h.cut hw s e
  have hok : NotAfter (marks (cut chain)) s e → ∃ r, accumulate (cut chain) s e = .ok r := by
    rw [← hcut]
    exact hx.succeeds.2
  have hseen : NotAfter (marks (cut chain)) s e →
      (∀ c ∈ s, e ≠ some c) ∧ (∀ c ∈ s, Seen (cut chain) c) ∧ (∀ c ∈ e, Seen (cut chain) c) := fun hna => by
    obtain ⟨r, hr⟩ := hok hna
    exact h.seen_of_ok hr
  constructor
  case differ => exact fun hna => (hseen hna).1
  case start => exact fun hna => (hseen hna).2.1
  case last => exact fun hna => (hseen hna).2.2
  case depth =>
    intro hna
    obtain ⟨r, hr⟩ := hok hna
    obtain ⟨ctl, hiff, _, _, hid⟩ := h.accumulate_iff (h.seen_of_ok hr).1
    have hids := hx.clone_ids r (hcut.trans hr)
    rw [((hiff r).1 hr).1, hid] at hids
    exact cloneIds_pairwise_iff.1 hids
  case early =>
    -- a late start cork is taken for a start cork, though it comes after the end cork
    intro hlate
    obtain ⟨hne, hs, he⟩ := hlate.seen
    obtain ⟨r, hr⟩ := (h.succeeds_iff hne hs he).2 (.inr hlate)
    exact h.not_notAfter_of_late hlate (hx.succeeds.1 ⟨r, hcut.trans hr⟩)

theorem accumulate_not_found_iff (hne : ¬(s ≠ none ∧ s = e)) :
    accumulate chain s e = .error .corkNotFound ↔ ¬Found (cut chain) s e := by
  rw [accumulate_cut h.cut hw]
  obtain ⟨_, _, hiff, _⟩ := h.accumulate_iff (s := s) (e := e) fun c hs he =>
    hne ⟨by rw [Option.mem_def.1 hs]; simp, (Option.mem_def.1 hs).trans he.symm⟩
  exact hiff

theorem Sound.exact (hx : Sound (cut chain) s e) : Exact chain s e := by
  have hcut := accumulate_cut h.cut hw s e
  constructor
  case succeeds =>
    rw [hcut]
    constructor
    · rintro ⟨r, hr⟩
      obtain ⟨hne, hs, he⟩ := h.seen_of_ok hr
      exact ((h.succeeds_iff hne hs he).1 ⟨r, hr⟩).resolve_right hx.early
    · intro hna
      exact (h.succeeds_iff (hx.differ hna) (hx.start hna) (hx.last hna)).2 (.inl hna)
  case tlogs =>
    intro r hr
    rw [hcut] at hr
    obtain ⟨hne, hs, he⟩ := h.seen_of_ok hr
    obtain ⟨ctl, hiff, _, htl, _⟩ := h.accumulate_iff hne
    rw [((hiff r).1 hr).1, htl, h.between_visits hs he]
  case clone_ids =>
    intro r hr
    rw [hcut] at hr
    obtain ⟨hne, hs, he⟩ := h.seen_of_ok hr
    obtain ⟨ctl, hiff, _, _, hid⟩ := h.accumulate_iff hne
    have hna := ((h.succeeds_iff hne hs he).1 ⟨r, hr⟩).resolve_right hx.early
    rw [((hiff r).1 hr).1, hid]
    exact cloneIds_pairwise_iff.2 (hx.depth hna)
  case meet =>
    intro m hsm hme
    rw [← tlogIds_append]
    exact congrArg tlogIds (intervals_append hsm.start (hme.start m rfl))

/-- The accumulator collects the TLogs after the start cork up to and including the end cork, for every
chain and any two corks, exactly if the corks are sound. An ancestor beyond the clone ids that there are
has to end at its snapshot, as the code reads all of a file with clone id 0. -/
theorem accumulate_exact_iff (s e : Option UUID) : Exact chain s e ↔ Sound (cut chain) s e :=
  ⟨Sound.of_exact h hw, Sound.exact h hw⟩

end

end

/-! ## A clone -/

/-- The parent has a scrubbed snapshot, whose cork 10 is no TLog any more, before the one that the clone
was taken from, and another one after it. -/
def parentFile : SnapshotPersistor where
  snapshots := [⟨[⟨1, true, 0⟩], 0, "a", [], true, 10⟩, ⟨[⟨2, true, 0⟩, ⟨3, true, 0⟩], 1, "b", [], false, 3⟩,
    ⟨[⟨4, true, 0⟩], 2, "d", [], false, 4⟩]
  current := [⟨9, true, 0⟩]

/-- The clone's file, with a TLog that is not on the backend. -/
def cloneFile : SnapshotPersistor where
  snapshots := [⟨[⟨5, true, 0⟩, ⟨6, true, 0⟩], 0, "c", [], false, 6⟩]
  current := [⟨7, true, 0⟩, ⟨8, false, 0⟩]

/-- The clone and its parent. -/
def clone : List Member := [⟨cloneFile, ""⟩, ⟨parentFile, "b"⟩]

theorem clone_wellFormed : WellFormed (cut clone) where
  cut := by
    intro m hm
    rw [mem_singleton.1 hm]
    exact ⟨⟨[⟨[⟨1, true, 0⟩], 0, "a", [], true, 10⟩], _, rfl, rfl, by decide⟩, by decide, rfl⟩
  tlogs := by decide
  corks := by decide
  ends := by decide

/-- From a TLog of the parent to the end of the clone's snapshot. -/
theorem clone_interval_exact : Exact clone (some 2) (some 6) := by
  rw [accumulate_exact_iff clone_wellFormed (.inl (by decide))]
  constructor
  case differ => rintro - c ⟨⟩; decide
  case start => rintro - c ⟨⟩; exact .inl (by decide)
  case last => rintro - c ⟨⟩; exact .inl (by decide)
  case depth => intro _; decide
  case early => rintro ⟨v, hv, a, ⟨⟩, b, ⟨⟩, hab, hbm, hcork⟩; revert v; decide

/-- The cork of the parent's scrubbed snapshot is not found, an interval between a cork and itself is
refused, and the end of the clone's snapshot is accepted as the start of an interval that ends at an
earlier TLog of that snapshot. -/
theorem clone_interval_wrong : ¬Exact clone (some 10) none ∧ ¬Exact clone (some 6) (some 6) ∧
    ¬Exact clone (some 6) (some 5) := by
  refine ⟨fun h => ?_, fun h => ?_, fun h => ?_⟩
  · obtain ⟨r, hr⟩ := h.succeeds.2 ⟨by rintro c ⟨⟩; decide, by rintro c ⟨⟩⟩
    have herror : accumulate clone (some 10) none = .error .corkNotFound := by rfl
    cases herror.symm.trans hr
  · obtain ⟨r, hr⟩ := h.succeeds.2 ⟨by rintro c ⟨⟩; decide, by rintro c ⟨⟩; decide⟩
    exact accumulate_same rfl rfl r hr
  · have hok : accumulate clone (some 6) (some 5) = .ok [(1, []), (0, [])] := by rfl
    exact absurd ((h.succeeds.1 ⟨_, hok⟩).start 6 rfl) (by decide)

end BackendRestartAccumulator

end VolumeDriver
