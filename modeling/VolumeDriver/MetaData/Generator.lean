/-
The generator that groups TLog entries by page (PageGenerator.cpp). It reads ahead a bounded number
of entries and hands out one page after the other, in the order of a hash table, which is a
parameter here. The entries of one page keep their order.
-/
import VolumeDriver.MetaData.Page
import VolumeDriver.Lib.Replay

namespace VolumeDriver

open Lib List

namespace PageGenerator

/-- The entries read ahead, by page. -/
abbrev Pages := List (PageAddress × List Entry)

/-- An entry joins the others of its page. -/
def push (pa : PageAddress) (e : Entry) : Pages → Pages
  | [] => [(pa, [e])]
  | p :: pages => if p.1 = pa then (p.1, p.2 ++ [e]) :: pages else p :: push pa e pages

/-- The generator between two pages. -/
structure State where
  pages_ : Pages := []
  cached_ : Nat := 0
  reader_ : List Entry

/-- The loop of `get_more_data_`. An insane cluster address throws. -/
def readAhead (page_bits cached_max : Nat) : Pages → Nat → List Entry → Except Exn State
  | pages, cached, [] => .ok ⟨pages, cached, []⟩
  | pages, cached, e :: reader =>
    match e.clusterAddress with
    | .error x => .error x
    | .ok ca =>
      if cached_max ≤ cached + 1 then .ok ⟨push (CachePage.pageAddress page_bits ca) e pages, cached + 1, reader⟩
      else readAhead page_bits cached_max (push (CachePage.pageAddress page_bits ca) e pages) (cached + 1) reader

/-- Reads ahead, unless everything was read. -/
def get_more_data_ (page_bits cached_max : Nat) (st : State) : Except Exn State :=
  match st.reader_ with
  | [] => .ok st
  | _ => do
    VERIFY (st.cached_ < cached_max) "cached_ < cached_max_"
    readAhead page_bits cached_max st.pages_ st.cached_ st.reader_

/-- The pages handed out until the generator is finished or throws; `begin_` is the position of the
hash table's first element. Every page has at least one entry, so as many rounds as there are
entries are enough. -/
def generate (page_bits cached_max : Nat) (begin_ : Pages → Nat) : Nat → State → List (List Entry) × Option Exn
  | 0, _ => ([], none)
  | rounds + 1, st =>
    match get_more_data_ page_bits cached_max st with
    | .error x => ([], some x)
    | .ok st =>
      if st.cached_ = 0 then ([], none)
      else
        let i := begin_ st.pages_ % st.pages_.length
        match st.pages_[i]? with
        | none => ([], some (.assertion "not pages_.empty()"))
        | some p =>
          let r := generate page_bits cached_max begin_ rounds
            ⟨st.pages_.eraseIdx i, st.cached_ - p.2.length, st.reader_⟩
          (p.2 :: r.1, r.2)

/-! ## Groups -/

variable {page_bits : Nat}

/-- The page an entry belongs to. -/
def pageOf (page_bits : Nat) (e : Entry) : PageAddress := CachePage.pageAddress page_bits e.clusteraddress

/-- The entries of page `pa`, in order. -/
def ofPage (page_bits : Nat) (pa : PageAddress) (l : List Entry) : List Entry :=
  l.filter fun e => pageOf page_bits e = pa

/-- The entries of all pages. -/
def entries (pages : Pages) : List Entry := (pages.map Prod.snd).flatten

/-- Groups by page: one for each page, none empty, entries in the group of their page. -/
structure Grouped (page_bits : Nat) (pages : Pages) : Prop where
  nodup : (pages.map Prod.fst).Nodup
  nonempty : ∀ p ∈ pages, p.2 ≠ []
  page : ∀ p ∈ pages, ∀ e ∈ p.2, pageOf page_bits e = p.1

@[simp] theorem entries_cons (p : PageAddress × List Entry) (pages : Pages) :
    entries (p :: pages) = p.2 ++ entries pages := rfl

@[simp] theorem ofPage_append (pa : PageAddress) (a b : List Entry) :
    ofPage page_bits pa (a ++ b) = ofPage page_bits pa a ++ ofPage page_bits pa b :=
  filter_append ..

variable {pages pages' : Pages} {cached_max : Nat}

theorem Grouped.sublist (h : Grouped page_bits pages) (hsub : pages'.Sublist pages) : Grouped page_bits pages' :=
  ⟨h.nodup.sublist (hsub.map _), fun q hq => h.nonempty q (hsub.subset hq), fun q hq => h.page q (hsub.subset hq)⟩

theorem Grouped.ofPage_other (h : Grouped page_bits pages) {pa : PageAddress} (hpa : pa ∉ pages.map Prod.fst) :
    ofPage page_bits pa (entries pages) = [] := by
  rw [ofPage, filter_eq_nil_iff]
  intro e he
  obtain ⟨l, hl, he⟩ := mem_flatten.1 he
  obtain ⟨p, hp, rfl⟩ := mem_map.1 hl
  have := h.page p hp e he
  simp only [decide_eq_true_eq]
  rintro rfl
  exact hpa (mem_map.2 ⟨p, hp, this.symm⟩)

theorem push_keys (pa : PageAddress) (e : Entry) : ∀ (pages : Pages) (x : PageAddress),
    x ∈ (push pa e pages).map Prod.fst ↔ x = pa ∨ x ∈ pages.map Prod.fst
  | [], x => by simp [push]
  | p :: pages, x => by
    unfold push
    split
    · rename_i h
      simp only [map_cons, mem_cons]
      rw [h]; tauto
    · simp only [map_cons, mem_cons, push_keys pa e pages x]
      tauto

theorem Grouped.push {e : Entry} : ∀ {pages : Pages}, Grouped page_bits pages →
    Grouped page_bits (push (pageOf page_bits e) e pages)
  | [], _ => ⟨by simp [PageGenerator.push], by simp [PageGenerator.push], by simp [PageGenerator.push]⟩
  | p :: pages, h => by
    have hnd := nodup_cons.1 h.nodup
    unfold PageGenerator.push
    split
    · rename_i hp
      refine ⟨h.nodup, fun q hq => ?_, fun q hq x hx => ?_⟩
      · rcases mem_cons.1 hq with rfl | hq
        · simp
        · exact h.nonempty q (mem_cons_of_mem _ hq)
      · rcases mem_cons.1 hq with rfl | hq
        · rcases mem_append.1 hx with hx | hx
          · exact h.page p (mem_cons_self ..) x hx
          · rw [mem_singleton.1 hx]; exact hp.symm
        · exact h.page q (mem_cons_of_mem _ hq) x hx
    · rename_i hp
      have ih := Grouped.push (e := e) (h.sublist (sublist_cons_self ..))
      refine ⟨nodup_cons.2 ⟨fun hm => ?_, ih.nodup⟩, fun q hq => ?_, fun q hq => ?_⟩
      · rcases (push_keys _ _ _ _).1 hm with hm | hm
        · exact hp hm
        · exact hnd.1 hm
      · rcases mem_cons.1 hq with rfl | hq
        · exact h.nonempty q (mem_cons_self ..)
        · exact ih.nonempty q hq
      · rcases mem_cons.1 hq with rfl | hq
        · exact h.page q (mem_cons_self ..)
        · exact ih.page q hq

theorem Grouped.ofPage_push {e : Entry} (pa : PageAddress) : ∀ {pages : Pages}, Grouped page_bits pages →
    ofPage page_bits pa (entries (PageGenerator.push (pageOf page_bits e) e pages)) =
      ofPage page_bits pa (entries pages) ++ ofPage page_bits pa [e]
  | [], _ => by simp [PageGenerator.push, entries, ofPage]
  | p :: pages, h => by
    have htail := h.sublist (sublist_cons_self ..)
    unfold PageGenerator.push
    split
    · rename_i hp
      simp only [entries_cons, ofPage_append, append_assoc]
      by_cases he : pageOf page_bits e = pa
      · have : pa ∉ pages.map Prod.fst := by
          rw [← he, ← hp]; exact (nodup_cons.1 h.nodup).1
        rw [htail.ofPage_other this]; simp
      · rw [show ofPage page_bits pa [e] = [] from filter_cons_of_neg (by simpa using he)]; simp
    · rw [entries_cons, entries_cons, ofPage_append, ofPage_append, htail.ofPage_push pa, append_assoc]

theorem push_length (pa : PageAddress) (e : Entry) : ∀ (pages : Pages),
    (entries (push pa e pages)).length = (entries pages).length + 1
  | [] => rfl
  | p :: pages => by
    unfold push
    split
    · simp only [entries_cons, length_append, length_singleton]; omega
    · simp only [entries_cons, length_append, push_length pa e pages]; omega

/-! ## Reading ahead -/

/-- A state of the generator between two pages. -/
structure Ok (page_bits : Nat) (st : State) : Prop where
  grouped : Grouped page_bits st.pages_
  cached : st.cached_ = (entries st.pages_).length
  sane : ∀ e ∈ st.reader_, ∃ ca, e.clusterAddress = .ok ca

/-- The entries of page `pa` that were not handed out yet. -/
abbrev State.left (page_bits : Nat) (st : State) (pa : PageAddress) : List Entry :=
  ofPage page_bits pa (entries st.pages_) ++ ofPage page_bits pa st.reader_

/-- Reading ahead loses no entry and keeps the order within each page. -/
structure ReadAhead (page_bits cached_max : Nat) (st st' : State) : Prop where
  ok : Ok page_bits st'
  max : st'.reader_ ≠ [] → cached_max ≤ st'.cached_
  le : st'.cached_ ≤ cached_max
  page : ∀ pa, st'.left page_bits pa = st.left page_bits pa
  total : st'.cached_ + st'.reader_.length = st.cached_ + st.reader_.length

theorem readAhead_ok : ∀ {reader : List Entry} {pages : Pages} {cached : Nat},
    Ok page_bits ⟨pages, cached, reader⟩ → cached < cached_max →
    ∃ st', readAhead page_bits cached_max pages cached reader = .ok st' ∧
      ReadAhead page_bits cached_max ⟨pages, cached, reader⟩ st'
  | [], pages, cached, h, hc => ⟨_, rfl, h, by simp, hc.le, fun _ => rfl, rfl⟩
  | e :: reader, pages, cached, h, hc => by
    obtain ⟨ca, hca⟩ := h.sane e (mem_cons_self ..)
    have hpage : CachePage.pageAddress page_bits ca = pageOf page_bits e := by
      rw [Entry.clusterAddress_ok hca]; rfl
    have hok : Ok page_bits ⟨push (pageOf page_bits e) e pages, cached + 1, reader⟩ :=
      ⟨h.grouped.push, by rw [push_length, ← h.cached], fun x hx => h.sane x (mem_cons_of_mem _ hx)⟩
    have hsame : ∀ pa, State.left page_bits ⟨push (pageOf page_bits e) e pages, cached + 1, reader⟩ pa =
        State.left page_bits ⟨pages, cached, e :: reader⟩ pa := fun pa => by
      rw [State.left, h.grouped.ofPage_push pa, append_assoc, ← ofPage_append]
      rfl
    rw [readAhead, hca]
    simp only [hpage]
    split
    · exact ⟨_, rfl, hok, fun _ => ‹_›, hc, hsame, by simp; omega⟩
    · rename_i hlt
      obtain ⟨st', h1, hr⟩ := readAhead_ok hok (not_le.1 hlt)
      refine ⟨st', h1, hr.ok, hr.max, hr.le, fun pa => (hr.page pa).trans (hsame pa), ?_⟩
      have := hr.total
      simp at this ⊢
      omega

/-! ## Handing out -/

theorem Grouped.eraseIdx (h : Grouped page_bits pages) {i : Nat} {p : PageAddress × List Entry}
    (hp : pages[i]? = some p) : Grouped page_bits (pages.eraseIdx i) ∧
      (entries pages).length = p.2.length + (entries (pages.eraseIdx i)).length ∧
      ∀ pa, ofPage page_bits pa (entries pages) =
        ofPage page_bits pa p.2 ++ ofPage page_bits pa (entries (pages.eraseIdx i)) := by
  obtain ⟨hi, hget⟩ := List.getElem?_eq_some_iff.1 hp
  have hsplit : pages = pages.take i ++ p :: pages.drop (i + 1) := by
    rw [← hget, getElem_cons_drop, take_append_drop]
  have herase : pages.eraseIdx i = pages.take i ++ pages.drop (i + 1) := eraseIdx_eq_take_drop_succ ..
  generalize pages.take i = a at hsplit herase
  generalize pages.drop (i + 1) = b at hsplit herase
  rw [herase, hsplit]
  rw [hsplit] at h
  have hsub : (a ++ b).Sublist (a ++ p :: b) := (sublist_cons_self p b).append_left a
  have hent : ∀ x y : Pages, entries (x ++ y) = entries x ++ entries y := fun x y => by simp [entries]
  refine ⟨h.sublist hsub, ?_, fun pa => ?_⟩
  · simp only [hent, entries_cons, length_append]; omega
  · simp only [hent, entries_cons, ofPage_append]
    by_cases hpa : pa = p.1
    · -- the page's own group: the groups before it have none of its entries
      have hnd := h.nodup
      rw [map_append, map_cons, nodup_append, nodup_cons] at hnd
      have : pa ∉ a.map Prod.fst := fun hm => hnd.2.2 pa hm p.1 (mem_cons_self ..) hpa
      rw [(h.sublist (sublist_append_left ..)).ofPage_other this]; simp
    · have : ofPage page_bits pa p.2 = [] := by
        rw [ofPage, filter_eq_nil_iff]
        intro e he
        have := h.page p (by simp) e he
        simp only [decide_eq_true_eq]
        rintro rfl
        exact hpa this
      rw [this]; simp

theorem Ok.handOut {st : State} (h : Ok page_bits st) (hz : st.cached_ ≠ 0) (k : Nat) :
    ∃ p, st.pages_[k % st.pages_.length]? = some p ∧ p.2 ≠ [] ∧ p.2.length ≤ st.cached_ ∧
      Ok page_bits ⟨st.pages_.eraseIdx (k % st.pages_.length), st.cached_ - p.2.length, st.reader_⟩ ∧
      ∀ pa, ofPage page_bits pa (entries st.pages_) =
        ofPage page_bits pa p.2 ++ ofPage page_bits pa (entries (st.pages_.eraseIdx (k % st.pages_.length))) := by
  have hcached := h.cached
  have hlen : 0 < st.pages_.length := by
    rcases hp : st.pages_ with _ | _
    · rw [hp] at hcached
      exact absurd hcached hz
    · simp
  have hget := List.getElem?_eq_getElem (Nat.mod_lt k hlen)
  obtain ⟨hg, hsum, hpage⟩ := h.grouped.eraseIdx hget
  exact ⟨_, hget, h.grouped.nonempty _ (mem_of_getElem? hget), by omega, ⟨hg, by simp only; omega, h.sane⟩, hpage⟩

/-! ## All members of the class -/

/-- The generator with its current page. -/
structure Generator extends State where
  tlog_finished_ : Bool := false
  current_ : List Entry := []
  current_size_ : Nat := 0

namespace Generator

variable (page_bits cached_max : Nat)

/-- The loop has met a null pointer unless it stopped at `cached_max_`. -/
def get_more_data_ (g : Generator) : Except Exn Generator :=
  if g.tlog_finished_ then .ok g
  else do
    VERIFY (g.cached_ < cached_max) "cached_ < cached_max_"
    let st ← readAhead page_bits cached_max g.pages_ g.cached_ g.reader_
    return { g with toState := st, tlog_finished_ := st.cached_ < cached_max }

/-- `k` tells which element of the hash table is the first one. -/
def update_current_ (g : Generator) (k : Nat) : Except Exn Generator :=
  if 0 < g.cached_ then
    match g.pages_[k % g.pages_.length]? with
    | none => .error (.assertion "not pages_.empty()")
    | some p => do
      VERIFY (p.2 ≠ []) "not current_.empty()"
      return { g with pages_ := g.pages_.eraseIdx (k % g.pages_.length), current_ := p.2, current_size_ := p.2.length }
  else do
    VERIFY (g.pages_ = []) "pages_.empty()"
    return { g with current_ := [], current_size_ := 0 }

/-- Reads ahead and takes the next page. -/
def update_ (begin_ : Pages → Nat) (g : Generator) : Except Exn Generator := do
  let g ← g.get_more_data_ page_bits cached_max
  g.update_current_ (begin_ g.pages_)

/-- The current page is done with. -/
def next (begin_ : Pages → Nat) (g : Generator) : Except Exn Generator :=
  update_ page_bits cached_max begin_ { g with cached_ := g.cached_ - g.current_size_, current_size_ := 0 }

/-- Nothing is left. -/
def finished (g : Generator) : Bool := g.cached_ = 0

/-- The constructor. -/
def new (begin_ : Pages → Nat) (reader : List Entry) : Except Exn Generator := do
  VERIFY (0 < cached_max) "cached_max_ > 0"
  update_ page_bits cached_max begin_ { reader_ := reader }

/-- The states in which the loop of `processPages` takes `current()`. A hash table may have another
order each time. To run out of rounds is an error here, so a result means that the loop has ended. -/
def run (begin_ : Nat → Pages → Nat) : Nat → Generator → Except Exn (List Generator)
  | 0, g => if g.finished then .ok [] else .error (.assertion "finished()")
  | rounds + 1, g =>
    if g.finished then .ok []
    else do
      let g' ← g.next page_bits cached_max (begin_ rounds)
      return g :: (← run begin_ rounds g')

variable {page_bits cached_max}

/-- The generator after an update: `current_` is counted as long as it is not passed. -/
structure Holds (page_bits cached_max : Nat) (g : Generator) : Prop where
  ok : Ok page_bits ⟨g.pages_, g.cached_ - g.current_size_, g.reader_⟩
  size : g.current_size_ = g.current_.length
  le : g.current_size_ ≤ g.cached_
  max : g.cached_ ≤ cached_max
  pos : g.cached_ ≠ 0 → 0 < g.current_size_
  read : g.cached_ = 0 ∨ g.tlog_finished_ = true → g.reader_ = []

/-- The generator before an update. -/
structure Ready (page_bits cached_max : Nat) (g : Generator) : Prop where
  ok : Ok page_bits g.toState
  pos : 0 < cached_max
  max : g.cached_ ≤ cached_max
  read : g.tlog_finished_ = true → g.reader_ = []
  lt : g.tlog_finished_ = false → g.cached_ < cached_max

theorem Holds.ready {g : Generator} (h : Holds page_bits cached_max g) (hz : g.cached_ ≠ 0) :
    Ready page_bits cached_max { g with cached_ := g.cached_ - g.current_size_, current_size_ := 0 } := by
  have hcur := h.pos hz
  have hmax := h.max
  exact ⟨h.ok, by omega, by simp only; omega, fun hb => h.read (.inr hb), fun _ => by simp only; omega⟩

theorem update_ok (begin_ : Pages → Nat) {g : Generator} (h : Ready page_bits cached_max g) :
    ∃ g', update_ page_bits cached_max begin_ g = .ok g' ∧ Holds page_bits cached_max g' ∧
      g'.cached_ + g'.reader_.length = g.cached_ + g.reader_.length ∧
      ∀ pa, ofPage page_bits pa g'.current_ ++ g'.left page_bits pa = g.left page_bits pa := by
  obtain ⟨st, b, hmore, hra, hb⟩ : ∃ st b, g.get_more_data_ page_bits cached_max =
      .ok { g with toState := st, tlog_finished_ := b } ∧ ReadAhead page_bits cached_max g.toState st ∧
        (b = true → st.reader_ = []) := by
    unfold get_more_data_
    cases hf : g.tlog_finished_ with
    | true => exact ⟨g.toState, true, by rw [if_pos rfl, ← hf],
        ⟨h.ok, fun hne => absurd (h.read hf) hne, h.max, fun _ => rfl, rfl⟩, fun _ => h.read hf⟩
    | false =>
      obtain ⟨st, h1, hra⟩ := readAhead_ok h.ok (h.lt hf)
      refine ⟨st, st.cached_ < cached_max, ?_, hra, fun hb => ?_⟩
      · simp only [VERIFY_of (h.lt hf), ok_bind, h1]
        rfl
      · by_contra hne
        have := hra.max hne
        simp at hb
        omega
  have hfull := hra.ok.cached
  unfold update_ update_current_
  simp only [hmore, ok_bind]
  split
  · rename_i hz
    obtain ⟨p, hget, hne, hlen, hok, hpage⟩ := hra.ok.handOut (Nat.ne_of_gt hz) (begin_ st.pages_)
    simp only [hget, VERIFY_of hne, ok_bind]
    refine ⟨_, rfl, ⟨hok, rfl, hlen, hra.le, fun _ => length_pos_iff.2 hne, ?_⟩, hra.total, fun pa => ?_⟩
    · rintro (h0 | hb')
      · exact absurd h0 (Nat.ne_of_gt hz)
      · exact hb hb'
    · rw [← hra.page pa, State.left, State.left, hpage pa, append_assoc]
  · rename_i hz
    have h0 : st.cached_ = 0 := Nat.eq_zero_of_not_pos hz
    have hnil : st.pages_ = [] := by
      rcases hp : st.pages_ with _ | ⟨q, ps⟩
      · rfl
      · have hq := length_pos_iff.2 (hra.ok.grouped.nonempty q (by simp [hp]))
        rw [hp, entries_cons, length_append] at hfull
        omega
    simp only [VERIFY_of hnil, ok_bind]
    refine ⟨_, rfl, ⟨hra.ok, rfl, Nat.zero_le _, hra.le, fun hne => absurd h0 hne, fun _ => ?_⟩, hra.total, hra.page⟩
    by_contra hne
    have := hra.max hne
    have := h.pos
    omega

theorem run_ok (begin_ : Nat → Pages → Nat) : ∀ (rounds : Nat) {g : Generator},
    Holds page_bits cached_max g → g.cached_ + g.reader_.length ≤ rounds →
    ∃ gs, run page_bits cached_max begin_ rounds g = .ok gs ∧ (∀ g ∈ gs, Holds page_bits cached_max g) ∧
      ∀ pa, ofPage page_bits pa (gs.map (·.current_)).flatten =
        ofPage page_bits pa g.current_ ++ g.left page_bits pa := by
  intro rounds g h hr
  have hcached := h.ok.cached
  have hsize := h.size
  have hle := h.le
  simp only at hcached
  by_cases hz : g.cached_ = 0
  · have hf : g.finished = true := by simp [finished, hz]
    refine ⟨[], by cases rounds <;> rw [run, if_pos hf], by simp, fun pa => ?_⟩
    rw [State.left, length_eq_zero_iff.1 (show g.current_.length = 0 by omega), h.read (.inl hz),
      length_eq_zero_iff.1 (show (entries g.pages_).length = 0 by omega)]
    rfl
  · have hf : ¬g.finished = true := by simp [finished, hz]
    have hcur := h.pos hz
    cases rounds with
    | zero => omega
    | succ rounds =>
      obtain ⟨g', hnext, h', htotal, hpage⟩ := update_ok (begin_ rounds) (h.ready hz)
      obtain ⟨gs, hrun, hall, hout⟩ := run_ok begin_ rounds h' (by simp only at htotal; omega)
      refine ⟨g :: gs, ?_, by simpa using ⟨h, hall⟩, fun pa => ?_⟩
      · rw [run, if_neg hf, next, hnext, ok_bind, hrun]
        rfl
      · rw [← hpage pa, ← hout pa, map_cons, flatten_cons, ofPage_append]

theorem generate_update {begin_ : Pages → Nat} {g g' : Generator} (hg : Ready page_bits cached_max g)
    (h : update_ page_bits cached_max begin_ g = .ok g') (rounds : Nat) :
    generate page_bits cached_max begin_ (rounds + 1) g.toState =
      if g'.cached_ = 0 then ([], none)
      else
        let r := generate page_bits cached_max begin_ rounds ⟨g'.pages_, g'.cached_ - g'.current_size_, g'.reader_⟩
        (g'.current_ :: r.1, r.2) := by
  obtain ⟨g₁, hmore, hcur⟩ := bind_ok h
  have hsame : PageGenerator.get_more_data_ page_bits cached_max g.toState = .ok g₁.toState := by
    unfold get_more_data_ at hmore
    unfold PageGenerator.get_more_data_
    cases hf : g.tlog_finished_ with
    | true =>
      rw [if_pos hf] at hmore
      rw [hg.read hf, ← Except.ok.inj hmore]
    | false =>
      rw [if_neg (by simp [hf]), VERIFY_of (hg.lt hf), ok_bind] at hmore
      obtain ⟨st, h1, h2⟩ := bind_ok hmore
      rw [← pure_ok h2]
      split
      · -- nothing is read
        rename_i hr
        rw [hr, readAhead] at h1
        rw [← Except.ok.inj h1, ← hr]
      · rw [VERIFY_of (hg.lt hf), ok_bind, h1]
  rw [generate, hsame]
  simp only
  unfold update_current_ at hcur
  split at hcur
  · rename_i hz
    split at hcur
    · cases hcur
    · rename_i p hget
      obtain ⟨-, h2⟩ := VERIFY_bind_ok hcur
      rw [← pure_ok h2]
  · rename_i hz
    obtain ⟨-, h2⟩ := VERIFY_bind_ok hcur
    rw [← pure_ok h2]
    simp [Nat.eq_zero_of_not_pos hz]

/-- With the same order of the hash table each time, `generate` hands out the pages of the class. -/
theorem generate_run (begin_ : Pages → Nat) : ∀ (rounds : Nat) {g : Generator}, Ready page_bits cached_max g →
    g.cached_ + g.reader_.length ≤ rounds →
    ∃ g' gs, update_ page_bits cached_max begin_ g = .ok g' ∧
      run page_bits cached_max (fun _ => begin_) rounds g' = .ok gs ∧
      generate page_bits cached_max begin_ rounds g.toState = (gs.map (·.current_), none) := by
  intro rounds g h hr
  obtain ⟨g', hup, h', htotal, -⟩ := update_ok begin_ h
  cases rounds with
  | zero =>
    have hf : g'.finished = true := by simp [finished]; omega
    exact ⟨g', [], hup, by rw [run, if_pos hf], rfl⟩
  | succ rounds =>
    have hgen := generate_update h hup rounds
    by_cases hz : g'.cached_ = 0
    · exact ⟨g', [], hup, by rw [run, if_pos (by simp [finished, hz])], by rw [hgen, if_pos hz]; rfl⟩
    · have hcur := h'.pos hz
      obtain ⟨g₂, gs, hnext, hrun, hrest⟩ := generate_run begin_ rounds (h'.ready hz) (by simp only; omega)
      refine ⟨g', g' :: gs, hup, ?_, ?_⟩
      · rw [run, if_neg (by simp [finished, hz]), next, hnext, ok_bind, hrun]
        rfl
      · rw [hgen, if_neg hz]
        simp only [hrest, map_cons]

end Generator

/-- With sane addresses the generator hands out all entries, those of one page in order. -/
theorem generate_ok {cached_max : Nat} (hmax : 0 < cached_max) (begin_ : Pages → Nat) (rounds : Nat) (st : State)
    (h : Ok page_bits st) (hc : st.cached_ ≤ cached_max) (hr : st.reader_ ≠ [] → st.cached_ < cached_max)
    (hrounds : st.cached_ + st.reader_.length ≤ rounds) :
    ∃ out, generate page_bits cached_max begin_ rounds st = (out, none) ∧
      ∀ pa, ofPage page_bits pa out.flatten = st.left page_bits pa := by
  have hready : Generator.Ready page_bits cached_max { toState := st, tlog_finished_ := st.reader_.isEmpty } :=
    ⟨h, hmax, hc, isEmpty_iff.1, fun hne => hr (by simpa using hne)⟩
  obtain ⟨g, gs, hup, hrun, hgen⟩ := Generator.generate_run begin_ rounds hready hrounds
  obtain ⟨g', hup', hg, htotal, hpage⟩ := Generator.update_ok begin_ hready
  cases hup.symm.trans hup'
  obtain ⟨gs', hrun', -, hout⟩ := Generator.run_ok (fun _ => begin_) rounds hg (htotal ▸ hrounds)
  cases hrun.symm.trans hrun'
  exact ⟨_, hgen, fun pa => (hout pa).trans (hpage pa)⟩

end PageGenerator

end VolumeDriver
