/-
What the barriers of a pool guarantee. For every producer the tasks that are queued, running and
completed are ordered by its barriers, whatever the threads do and however often tasks fail; so a
barrier is started alone and after everything that was added before it.
-/
import VolumeDriver.Lib.Barrier
import VolumeDriver.Pool.ThreadPool

namespace VolumeDriver.Pool

open Lib Function List ThreadPool Queue

variable {T B : Type}

/-! ## The queue of one producer -/

theorem Queue.firstRunnable_some {runnable : Task T B → Bool} : ∀ {ts pre post : List (Task T B)} {x : Task T B},
    firstRunnable runnable ts = some (pre, x, post) → ts = pre ++ x :: post ∧ x.barrier = false
  | [], _, _, _, h => nomatch h
  | t :: ts, pre, post, x, h => by
    unfold firstRunnable at h
    split at h
    · cases h
    next hbar =>
      split at h
      · cases h
        exact ⟨rfl, by simpa using hbar⟩
      · obtain ⟨⟨pre', x', post'⟩, hfound, heq⟩ := Option.map_eq_some_iff.mp h
        cases heq
        obtain ⟨rfl, hx⟩ := firstRunnable_some hfound
        exact ⟨rfl, hx⟩

/-- `active` changes the queue by moving a task that is no barrier to the front, if at all. When it
says yes there is a front task, and it is no barrier while tasks are being processed. -/
structure Queue.Activated (q : Queue T B) (b : Bool) (q' : Queue T B) : Prop where
  count : q'.w_ = q.w_
  tasks : q'.tasks = q.tasks ∨
    ∃ pre x post, q.tasks = pre ++ x :: post ∧ x.barrier = false ∧ q'.tasks = x :: (pre ++ post)
  front : b = true → ∃ t rest, q'.tasks = t :: rest ∧ (t.barrier = true → q'.w_ = 0)

theorem Queue.active_activated (traits : Traits) (runnable : Task T B → Bool) (q : Queue T B) :
    q.Activated (q.active traits runnable).1 (q.active traits runnable).2 := by
  unfold active
  split
  · exact ⟨rfl, Or.inl rfl, nofun⟩
  next t ts htasks =>
    split
    · exact ⟨rfl, Or.inl rfl, nofun⟩
    next hblocked =>
      have hfront : ∃ u rest, q.tasks = u :: rest ∧ (u.barrier = true → q.w_ = 0) := by
        refine ⟨t, ts, htasks, fun hbar => ?_⟩
        simpa [hbar] using hblocked
      split
      · split
        · exact ⟨rfl, Or.inl rfl, fun _ => hfront⟩
        · split
          · exact ⟨rfl, Or.inl rfl, nofun⟩
          next pre x post hfound =>
            obtain ⟨hts, hx⟩ := firstRunnable_some hfound
            refine ⟨rfl, Or.inr ⟨t :: pre, x, post, ?_, hx, rfl⟩, fun _ => ⟨x, _, rfl, ?_⟩⟩
            · rw [htasks, hts, cons_append]
            · rw [hx]
              nofun
      · exact ⟨rfl, Or.inl rfl, fun _ => hfront⟩

theorem Queue.splitAtBarrier_append : ∀ ts : List (Task T B), (splitAtBarrier ts).1 ++ (splitAtBarrier ts).2 = ts
  | [] => rfl
  | t :: ts => by
    unfold splitAtBarrier
    split
    · rfl
    · rw [cons_append, splitAtBarrier_append ts]

theorem Queue.splitAtBarrier_fst : ∀ (ts : List (Task T B)), ∀ t ∈ (splitAtBarrier ts).1, t.barrier = false
  | [], _, h => nomatch h
  | t :: ts, u, h => by
    unfold splitAtBarrier at h
    split at h
    · cases h
    next hbar =>
      rcases mem_cons.mp h with rfl | h
      · simpa using hbar
      · exact splitAtBarrier_fst ts u h

theorem Queue.requeue_tasks (traits : Traits) (t : Task T B) (q : Queue T B) :
    ∃ pre post, q.tasks = pre ++ post ∧ (∀ u ∈ pre, u.barrier = false) ∧
      (q.requeue traits t).tasks = pre ++ t :: post ∧ (q.requeue traits t).w_ = q.w_ := by
  unfold requeue
  split
  · exact ⟨[], q.tasks, rfl, nofun, rfl, rfl⟩
  · exact ⟨(splitAtBarrier q.tasks).1, (splitAtBarrier q.tasks).2, (splitAtBarrier_append q.tasks).symm,
      splitAtBarrier_fst q.tasks, rfl, rfl⟩

/-! ## The threads -/

theorem reduceOption_set {α : Type} : ∀ {cur : List (Option α)} {i : Nat} (t : α), cur[i]? = some none →
    (cur.set i (some t)).reduceOption.Perm (t :: cur.reduceOption)
  | [], _, _, h => by simp at h
  | _ :: cur, 0, t, h => by
    obtain rfl : _ = none := by simpa using h
    simp
  | c :: cur, i + 1, t, h => by
    have ih := reduceOption_set t (show cur[i]? = some none by simpa using h)
    cases c with
    | none => simpa using ih
    | some u =>
      exact (ih.cons u).trans (List.Perm.swap t u _)

theorem reduceOption_clear {α : Type} {cur : List (Option α)} {i : Nat} {t : α} (h : cur[i]? = some (some t)) :
    cur.reduceOption.Perm (t :: (cur.set i none).reduceOption) := by
  have hi : i < cur.length := (List.getElem?_eq_some_iff.mp h).1
  have hnone : (cur.set i none)[i]? = some none := by simp [hi]
  have hback : (cur.set i none).set i (some t) = cur := by
    rw [set_set, ← (List.getElem?_eq_some_iff.mp h).2, set_getElem_self]
  simpa only [hback] using reduceOption_set t hnone

/-! ## One producer -/

/-- The queue of a producer whose tasks `added` are queued, `running` or `completed`. -/
structure Fine (q : Queue T B) (running completed added : List (Task T B)) : Prop where
  count : q.w_ = running.length
  all : (q.tasks ++ (running ++ completed)).Perm added
  ordered : Ordered (fun t => t.barrier = true) Task.id q.tasks running completed

namespace Fine

variable {q : Queue T B} {running running' completed added : List (Task T B)} {t : Task T B}

theorem empty : Fine ({} : Queue T B) [] [] [] := ⟨rfl, List.Perm.nil, Ordered.nil⟩

theorem perm_running (h : Fine q running completed added) (hperm : running.Perm running') :
    Fine q running' completed added := by
  refine ⟨h.count.trans hperm.length_eq, ?_, h.ordered.perm_running hperm⟩
  exact ((hperm.symm.append_right completed).append_left q.tasks).trans h.all

theorem push_back (h : Fine q running completed added) (hlast : ∀ u ∈ added, u.id < t.id) :
    Fine (q.push_back t) running completed (added ++ [t]) := by
  refine ⟨h.count, ?_, h.ordered.add fun u hu => hlast u (h.all.mem_iff.mp hu)⟩
  calc q.tasks ++ [t] ++ (running ++ completed)
    _ |>.Perm (t :: (q.tasks ++ (running ++ completed))) := by
      rw [append_assoc]
      exact perm_middle
    _ |>.Perm (t :: added) := h.all.cons t
    _ |>.Perm (added ++ [t]) := (perm_append_singleton t added).symm

theorem active {q' : Queue T B} {b : Bool} (h : Fine q running completed added) (hq : q.Activated b q') :
    Fine q' running completed added := by
  rcases hq.tasks with htasks | ⟨pre, x, post, htasks, hx, htasks'⟩
  · refine ⟨hq.count.trans h.count, ?_, ?_⟩ <;> rw [htasks]
    · exact h.all
    · exact h.ordered
  · refine ⟨hq.count.trans h.count, ?_, ?_⟩ <;> rw [htasks']
    · refine List.Perm.trans (List.Perm.append_right _ ?_) h.all
      rw [htasks]
      exact perm_middle.symm
    · have hord := h.ordered
      rw [htasks] at hord
      exact hord.promote (by rw [hx]; nofun)

theorem alone (h : Fine q running completed added) (hcount : t.barrier = true → q.w_ = 0) :
    t.barrier = true → running = [] := by
  intro hbar
  exact eq_nil_of_length_eq_zero (h.count.symm.trans (hcount hbar))

theorem take {rest : List (Task T B)} (h : Fine q running completed added) (hfront : q.tasks = t :: rest)
    (hcount : t.barrier = true → q.w_ = 0) (hperm : running'.Perm (t :: running)) (hlen : running'.length < 2 ^ 32) :
    Fine q.pop_front.addW running' completed added := by
  have hrest : q.pop_front.addW.tasks = rest := by
    rw [addW_tasks, pop_front_tasks, hfront, tail_cons]
  have hlength : running'.length = running.length + 1 := hperm.length_eq
  refine ⟨?_, ?_, ?_⟩
  · show (q.w_ + 1) % 2 ^ 32 = running'.length
    rw [h.count, ← hlength, Nat.mod_eq_of_lt hlen]
  · rw [hrest]
    refine List.Perm.trans ?_ h.all
    rw [hfront]
    calc rest ++ (running' ++ completed)
      _ |>.Perm (rest ++ (t :: running ++ completed)) := (hperm.append_right completed).append_left rest
      _ |>.Perm (t :: rest ++ (running ++ completed)) := perm_middle
  · rw [hrest]
    have hord := h.ordered
    rw [hfront] at hord
    exact hord.start hperm (h.alone hcount)

theorem removeW_w_ (hcount : q.w_ = running.length) (hperm : running.Perm (t :: running')) :
    q.removeW.w_ = running'.length := by
  have hlength : running.length = running'.length + 1 := hperm.length_eq
  show (if q.w_ = 0 then 2 ^ 32 - 1 else q.w_ - 1) = running'.length
  rw [if_neg (by omega)]
  omega

theorem taskOk (h : Fine q running completed added) (hperm : running.Perm (t :: running')) :
    Fine q.removeW running' (completed ++ [t]) added := by
  refine ⟨removeW_w_ h.count hperm, ?_, ?_⟩ <;> rw [removeW_tasks]
  case refine_2 => exact h.ordered.complete hperm
  refine List.Perm.trans (List.Perm.append_left _ ?_) h.all
  calc running' ++ (completed ++ [t])
    _ |>.Perm (t :: (running' ++ completed)) := by
      rw [← append_assoc]
      exact perm_append_singleton t (running' ++ completed)
    _ |>.Perm (running ++ completed) := hperm.symm.append_right completed

theorem taskNok (traits : Traits) (h : Fine q running completed added) (hperm : running.Perm (t :: running')) :
    Fine (q.requeue traits t).removeW running' completed added := by
  obtain ⟨pre, post, htasks, hpre, hrequeued, hw⟩ := q.requeue_tasks traits t
  refine ⟨removeW_w_ (hw.trans h.count) hperm, ?_, ?_⟩ <;> rw [removeW_tasks, hrequeued]
  · refine List.Perm.trans ?_ h.all
    rw [htasks]
    calc pre ++ t :: post ++ (running' ++ completed)
      _ |>.Perm (t :: (pre ++ post) ++ (running' ++ completed)) := perm_middle.append_right _
      _ |>.Perm (pre ++ post ++ (t :: running' ++ completed)) := perm_middle.symm
      _ |>.Perm (pre ++ post ++ (running ++ completed)) := (hperm.symm.append_right completed).append_left _
  · have hord := h.ordered
    rw [htasks] at hord
    refine hord.requeue hperm fun u hu => ?_
    rw [hpre u hu]
    nofun

end Fine

/-! ## The pool -/

section Pool

variable [LinearOrder T]

/-- The tasks of producer `p` in a list. -/
def tasksOf (p : T) (ts : List (Task T B)) : List (Task T B) := ts.filter fun t => t.producer = p

variable {p : T} {t : Task T B} {s s' : ThreadPool T B}

theorem mem_tasksOf {ts : List (Task T B)} : t ∈ tasksOf p ts ↔ t ∈ ts ∧ t.producer = p := by
  simp [tasksOf]

@[simp] theorem tasksOf_nil (p : T) : tasksOf p ([] : List (Task T B)) = [] := rfl

theorem tasksOf_append (p : T) (ts us : List (Task T B)) : tasksOf p (ts ++ us) = tasksOf p ts ++ tasksOf p us :=
  filter_append ts us

theorem tasksOf_cons_self (t : Task T B) (ts : List (Task T B)) :
    tasksOf t.producer (t :: ts) = t :: tasksOf t.producer ts := by
  simp [tasksOf]

theorem tasksOf_cons_ne (h : t.producer ≠ p) (ts : List (Task T B)) : tasksOf p (t :: ts) = tasksOf p ts := by
  simp [tasksOf, h]

theorem tasksOf_perm (p : T) {ts us : List (Task T B)} (h : ts.Perm us) : (tasksOf p ts).Perm (tasksOf p us) :=
  h.filter _

/-- Every task knows its place, no producer's queue has gone, and the queue of every producer is in
order with what the threads have taken from it. -/
structure Inv (s : ThreadPool T B) : Prop where
  threads : s.currentTasks_.length < 2 ^ 32
  places : s.added.map Task.id = List.range s.added.length
  known : ∀ t ∈ s.added, t.producer ∈ s.keys
  fine : ∀ p, Fine (s.taskQueues_ p) (tasksOf p s.running) (tasksOf p s.completed) (tasksOf p s.added)

namespace Inv

theorem running_added (h : Inv s) (ht : t ∈ s.running) : t ∈ s.added := by
  have hmem : t ∈ tasksOf t.producer s.running := mem_tasksOf.mpr ⟨ht, rfl⟩
  have hall := (h.fine t.producer).all.mem_iff.mp (mem_append_right _ (mem_append_left _ hmem))
  exact (mem_tasksOf.mp hall).1

theorem init (num_threads : UInt32) : Inv (ThreadPool.init num_threads : ThreadPool T B) := by
  have hrunning : (ThreadPool.init num_threads : ThreadPool T B).running = [] :=
    reduceOption_replicate_none
  refine ⟨?_, rfl, nofun, fun p => ?_⟩
  · show (List.replicate num_threads.toNat (none : Option (Task T B))).length < 2 ^ 32
    rw [length_replicate]
    exact num_threads.toNat_lt
  · rw [hrunning]
    exact Fine.empty

theorem id_lt (h : Inv s) (ht : t ∈ s.added) : t.id < s.added.length := by
  have hid : t.id ∈ s.added.map Task.id := mem_map_of_mem ht
  rw [h.places] at hid
  exact mem_range.mp hid

theorem push_back (h : Inv s) (hid : t.id = s.added.length) (p : T) :
    Fine (update s.taskQueues_ t.producer ((s.taskQueues_ t.producer).push_back t) p)
      (tasksOf p s.running) (tasksOf p s.completed) (tasksOf p (s.added ++ [t])) := by
  rw [tasksOf_append]
  by_cases hp : p = t.producer
  · subst hp
    rw [update_self, tasksOf_cons_self]
    refine (h.fine t.producer).push_back fun u hu => ?_
    rw [hid]
    exact h.id_lt (mem_tasksOf.mp hu).1
  · rw [update_of_ne hp, tasksOf_cons_ne (Ne.symm hp), tasksOf_nil, append_nil]
    exact h.fine p

theorem addTask (h : Inv s) (producer : T) (barrier : Bool) (body : B) : Inv (s.addTask producer barrier body) := by
  have hfine := h.push_back (t := ⟨s.added.length, producer, barrier, body⟩) rfl
  have hplaces : (s.added ++ [(⟨s.added.length, producer, barrier, body⟩ : Task T B)]).map Task.id
      = List.range (s.added ++ [(⟨s.added.length, producer, barrier, body⟩ : Task T B)]).length := by
    rw [map_append, h.places, length_append, length_singleton, range_succ]
    rfl
  unfold ThreadPool.addTask
  split
  next hkey =>
    refine ⟨h.threads, hplaces, fun t ht => ?_, hfine⟩
    rcases mem_append.mp ht with ht | ht
    · exact h.known t ht
    · rw [mem_singleton.mp ht]
      exact hkey
  next hkey =>
    refine ⟨h.threads, hplaces, fun t ht => ?_, hfine⟩
    refine (mem_orderedInsert ..).mpr ?_
    rcases mem_append.mp ht with ht | ht
    · exact Or.inr (h.known t ht)
    · rw [mem_singleton.mp ht]
      exact Or.inl rfl

end Inv

/-! ## Taking a task -/

/-- Asking queues whether they are active may reorder them and changes nothing else. -/
structure Asked (s s' : ThreadPool T B) : Prop where
  inv : Inv s'
  current : s'.currentTasks_ = s.currentTasks_
  added : s'.added = s.added
  completed : s'.completed = s.completed

theorem Asked.activeAt (h : Asked s s') (traits : Traits) (elapsed : Task T B → Bool) (p : T) :
    Asked s (s'.activeAt traits elapsed p).2 := by
  refine ⟨⟨h.inv.threads, h.inv.places, h.inv.known, fun p' => ?_⟩, h.current, h.added, h.completed⟩
  show Fine (update s'.taskQueues_ p ((s'.taskQueues_ p).active traits (s'.runnable elapsed)).2 p') _ _ _
  by_cases hp : p' = p
  · subst hp
    rw [update_self]
    exact (h.inv.fine p').active (active_activated traits (s'.runnable elapsed) (s'.taskQueues_ p'))
  · rw [update_of_ne hp]
    exact h.inv.fine p'

theorem Asked.findQueue (traits : Traits) (elapsed : Nat → Task T B → Bool) (p0 : T) :
    ∀ {ps : List T} {k : Nat} {s' : ThreadPool T B}, Asked s s' → Asked s (s'.findQueue traits elapsed p0 k ps).2.2
  | [], _, _, h => h
  | p :: ps, k, s', h => by
    have hnext := h.activeAt traits (elapsed k) p
    unfold ThreadPool.findQueue
    split
    next heq => rwa [heq] at hnext
    next heq =>
      rw [heq] at hnext
      exact Asked.findQueue traits elapsed p0 hnext

theorem Asked.searchQueue (h : Asked s s') (traits : Traits) (elapsed : Nat → Task T B → Bool) (p0 : T)
    (ps : List T) : Asked s (s'.searchQueue traits elapsed p0 ps).2.2 := by
  have hnext := h.activeAt traits (elapsed 0) p0
  unfold ThreadPool.searchQueue
  split
  next heq => rwa [heq] at hnext
  next heq =>
    rw [heq] at hnext
    exact hnext.findQueue traits elapsed p0

/-- The front task of a queue that said it is active. -/
structure Front (s : ThreadPool T B) (t : Task T B) : Prop where
  tasks : ∃ rest, (s.taskQueues_ t.producer).tasks = t :: rest
  alone : t.barrier = true → (s.taskQueues_ t.producer).w_ = 0

theorem Asked.front {s'' : ThreadPool T B} {traits : Traits} {elapsed : Task T B → Bool} (h : Asked s s')
    (hactive : s'.activeAt traits elapsed p = (true, s'')) : ∃ t, t.producer = p ∧ Asked s s'' ∧ Front s'' t := by
  have hasked : Asked s s'' := by simpa only [hactive] using h.activeAt traits elapsed p
  have hq := active_activated traits (s'.runnable elapsed) (s'.taskQueues_ p)
  have hset : s''.taskQueues_ p = ((s'.taskQueues_ p).active traits (s'.runnable elapsed)).2 := by
    have hs : (s'.activeAt traits elapsed p).2 = s'' := congrArg Prod.snd hactive
    rw [← hs]
    exact update_self ..
  obtain ⟨t, rest, htasks, halone⟩ := hq.front (congrArg Prod.fst hactive)
  rw [← hset] at htasks halone
  -- the queue of `p` holds only tasks of `p`
  have hmem : t ∈ tasksOf p s''.added := by
    refine (hasked.inv.fine p).all.mem_iff.mp (mem_append_left _ ?_)
    rw [htasks]
    exact mem_cons_self ..
  obtain rfl := (mem_tasksOf.mp hmem).2
  exact ⟨t, rfl, hasked, ⟨rest, htasks⟩, halone⟩

/-- A thread takes no task, or the front task of an active queue. -/
theorem getTaskInt_cases (h : Inv s) (traits : Traits) (elapsed : Nat → Task T B → Bool) (thread : Nat) :
    (∃ s', s.getTaskInt traits elapsed thread = (none, s') ∧ Asked s s') ∨
      ∃ s' t, s.getTaskInt traits elapsed thread = s'.take thread t.producer ∧ Asked s s' ∧ Front s' t := by
  have hself : Asked s s := ⟨h, rfl, rfl, rfl⟩
  unfold getTaskInt
  split
  · exact Or.inl ⟨s, rfl, hself⟩
  next p0 ps _ =>
    split
    next p k s' hsearch =>
      have hfound : Asked s s' := by simpa only [hsearch] using hself.searchQueue traits elapsed p0 ps
      split
      next s'' hactive => exact Or.inl ⟨s'', rfl, by simpa only [hactive] using hfound.activeAt traits (elapsed k) p⟩
      next s'' hactive =>
        obtain ⟨t, rfl, hasked, hfront⟩ := hfound.front hactive
        exact Or.inr ⟨s'', t, rfl, hasked, hfront⟩

/-! ## Every action keeps the order -/

namespace Inv

variable {thread : Nat}

theorem take (h : Inv s) (hfront : Front s t) (hfree : s.currentTasks_[thread]? = some none) :
    (s.take thread t.producer).1 = some t ∧ Inv (s.take thread t.producer).2 := by
  obtain ⟨rest, htasks⟩ := hfront.tasks
  have hperm := reduceOption_set t hfree
  have hlen : (s.currentTasks_.set thread (some t)).length < 2 ^ 32 := by
    rw [length_set]
    exact h.threads
  have hrunning : (tasksOf t.producer (s.currentTasks_.set thread (some t)).reduceOption).length < 2 ^ 32 := by
    refine Nat.lt_of_le_of_lt ?_ hlen
    exact (length_filter_le ..).trans (reduceOption_length_le _)
  unfold ThreadPool.take
  rw [htasks]
  refine ⟨rfl, hlen, h.places, h.known, fun p => ?_⟩
  show Fine (update s.taskQueues_ t.producer _ p) (tasksOf p (s.currentTasks_.set thread (some t)).reduceOption) _ _
  have hperm' := tasksOf_perm p hperm
  by_cases hp : p = t.producer
  · subst hp
    rw [tasksOf_cons_self] at hperm'
    rw [update_self]
    exact (h.fine t.producer).take htasks hfront.alone hperm' hrunning
  · rw [tasksOf_cons_ne (Ne.symm hp)] at hperm'
    rw [update_of_ne hp]
    exact (h.fine p).perm_running hperm'.symm

theorem producer_known (h : Inv s) (hcur : s.currentTasks_[thread]? = some (some t)) : t.producer ∈ s.keys :=
  h.known t (h.running_added ((reduceOption_clear hcur).mem_iff.mpr (mem_cons_self ..)))

/-- A thread gives its task back: only the queue of that task's producer has to be in order again. -/
theorem fine_clear (h : Inv s) (hcur : s.currentTasks_[thread]? = some (some t)) {q : Queue T B}
    {completed : List (Task T B)} (hother : ∀ p ≠ t.producer, tasksOf p completed = tasksOf p s.completed)
    (hq : ∀ running', (tasksOf t.producer s.running).Perm (t :: running') →
      Fine q running' (tasksOf t.producer completed) (tasksOf t.producer s.added)) (p : T) :
    Fine (update s.taskQueues_ t.producer q p) (tasksOf p (s.currentTasks_.set thread none).reduceOption)
      (tasksOf p completed) (tasksOf p s.added) := by
  have hperm := tasksOf_perm p (reduceOption_clear hcur)
  by_cases hp : p = t.producer
  · subst hp
    rw [tasksOf_cons_self] at hperm
    rw [update_self]
    exact hq _ hperm
  · rw [tasksOf_cons_ne (Ne.symm hp)] at hperm
    rw [update_of_ne hp, hother p hp]
    exact (h.fine p).perm_running hperm

theorem taskOk (h : Inv s) (hcur : s.currentTasks_[thread]? = some (some t)) : Inv (s.taskOk thread t) := by
  unfold ThreadPool.taskOk
  rw [if_pos (h.producer_known hcur)]
  refine ⟨(length_set ..).trans_lt h.threads, h.places, h.known, h.fine_clear hcur ?_ ?_⟩
  · intro p hp
    show tasksOf p (s.completed ++ [t]) = _
    rw [tasksOf_append, tasksOf_cons_ne (Ne.symm hp), tasksOf_nil, append_nil]
  · intro running' hperm
    show Fine _ _ (tasksOf _ (s.completed ++ [t])) _
    rw [tasksOf_append, tasksOf_cons_self]
    exact (h.fine t.producer).taskOk hperm

theorem taskNok (h : Inv s) (traits : Traits) (hcur : s.currentTasks_[thread]? = some (some t)) :
    Inv (s.taskNok traits thread t) := by
  unfold ThreadPool.taskNok
  rw [if_pos (h.producer_known hcur)]
  refine ⟨(length_set ..).trans_lt h.threads, h.places, h.known, h.fine_clear hcur (fun _ _ => rfl) ?_⟩
  exact fun _ hperm => (h.fine t.producer).taskNok traits hperm

end Inv

/-- The barrier rule for an action: a thread takes a barrier only when all tasks its producer added
before are completed and none of the producer's tasks is running. -/
def BarrierRule (traits : Traits) (s : ThreadPool T B) (a : ThreadPool.Action T B) : Prop :=
  ∀ t, s.taken traits a = some t → t.barrier = true →
    (∀ u ∈ s.added, u.producer = t.producer → u.id < t.id → u ∈ s.completed) ∧
      ∀ u ∈ s.running, u.producer ≠ t.producer

theorem Front.barrierRule (h : Inv s) (hfront : Front s t) (hbar : t.barrier = true) :
    (∀ u ∈ s.added, u.producer = t.producer → u.id < t.id → u ∈ s.completed) ∧
      ∀ u ∈ s.running, u.producer ≠ t.producer := by
  have hfine := h.fine t.producer
  obtain ⟨rest, htasks⟩ := hfront.tasks
  have hnone : tasksOf t.producer s.running = [] := hfine.alone hfront.alone hbar
  refine ⟨fun u hu hprod hlt => ?_, fun u hu hprod => ?_⟩
  · have hord := hfine.ordered
    rw [hnone, htasks] at hord
    have hmem := hfine.all.mem_iff.mpr (mem_tasksOf.mpr ⟨hu, hprod⟩)
    rw [hnone, htasks] at hmem
    exact (mem_tasksOf.mp (hord.of_front hbar hmem hlt)).1
  · have hmem : u ∈ tasksOf t.producer s.running := mem_tasksOf.mpr ⟨hu, hprod⟩
    rw [hnone] at hmem
    cases hmem

/-- One action keeps the barrier rule and the invariant. -/
theorem step_inv (traits : Traits) (s : ThreadPool T B) (a : ThreadPool.Action T B) (h : Inv s) :
    BarrierRule traits s a ∧ Inv (s.step traits a) := by
  cases a with
  | addTask producer barrier body => exact ⟨nofun, h.addTask producer barrier body⟩
  | getTask thread elapsed =>
    unfold BarrierRule taken step
    dsimp only
    split
    next hfree =>
      rcases getTaskInt_cases h traits elapsed thread with ⟨s', heq, hasked⟩ | ⟨s', t, heq, hasked, hfront⟩
      · rw [heq]
        exact ⟨nofun, hasked.inv⟩
      · rw [← hasked.current] at hfree
        obtain ⟨htaken, hinv⟩ := hasked.inv.take hfront hfree
        rw [heq]
        refine ⟨fun u hu hbar => ?_, hinv⟩
        obtain rfl : t = u := Option.some.inj (htaken.symm.trans hu)
        have hrule := hfront.barrierRule hasked.inv hbar
        unfold running at hrule ⊢
        rwa [hasked.added, hasked.completed, hasked.current] at hrule
    · exact ⟨nofun, h⟩
  | taskOk thread =>
    refine ⟨nofun, ?_⟩
    unfold step
    dsimp only
    split
    next t hcur => exact h.taskOk hcur
    · exact h
  | taskNok thread =>
    refine ⟨nofun, ?_⟩
    unfold step
    dsimp only
    split
    next t hcur => exact h.taskNok traits hcur
    · exact h

/-! ## What was added -/

/-- Producer, barrier and body of a task, which its producer gives. -/
def Task.given (t : Task T B) : T × Bool × B := (t.producer, t.barrier, t.body)

/-- What an action gives to the pool. -/
def given : ThreadPool.Action T B → Option (T × Bool × B)
  | .addTask producer barrier body => some (producer, barrier, body)
  | _ => none

/-- Only `addTask` gives something to the pool. -/
theorem step_added (traits : Traits) (a : ThreadPool.Action T B) (h : Inv s) :
    (s.step traits a).added.map Task.given = s.added.map Task.given ++ (given a).toList := by
  cases a with
  | addTask producer barrier body =>
    unfold step ThreadPool.addTask
    dsimp only
    split <;> simp [given, Task.given]
  | getTask thread elapsed =>
    simp only [given, Option.toList_none, append_nil]
    unfold step
    dsimp only
    split
    · rcases getTaskInt_cases h traits elapsed thread with ⟨s', heq, hasked⟩ | ⟨s', t, heq, hasked, -⟩
      · rw [heq, hasked.added]
      · rw [heq, ← hasked.added]
        unfold ThreadPool.take
        split <;> rfl
    · rfl
  | taskOk thread =>
    simp only [given, Option.toList_none, append_nil]
    unfold step ThreadPool.taskOk
    dsimp only
    split
    · split <;> rfl
    · rfl
  | taskNok thread =>
    simp only [given, Option.toList_none, append_nil]
    unfold step ThreadPool.taskNok
    dsimp only
    split
    · split <;> rfl
    · rfl

theorem runs_added (traits : Traits) : ∀ (as : List (ThreadPool.Action T B)) {s : ThreadPool T B}, Inv s →
    (runs (step traits) s as).added.map Task.given = s.added.map Task.given ++ as.filterMap given
  | [], _, _ => by simp
  | a :: as, s, h => by
    rw [runs_cons, runs_added traits as (step_inv traits s a h).2, step_added traits a h, append_assoc]
    cases hg : given a <;> simp [hg]

/-! ## Every run -/

theorem nodup_of_tasksOf : ∀ {ts : List (Task T B)}, (∀ p, (tasksOf p ts).Nodup) → ts.Nodup
  | [], _ => nodup_nil
  | t :: ts, h => by
    have hself := h t.producer
    rw [tasksOf_cons_self] at hself
    refine nodup_cons.mpr ⟨fun ht => ?_, nodup_of_tasksOf fun p => ?_⟩
    · exact (nodup_cons.mp hself).1 (mem_tasksOf.mpr ⟨ht, rfl⟩)
    · exact (h p).sublist ((sublist_cons_self t ts).filter _)

/-- The account of a pool: its tasks differ in their place, each is queued, running or completed in
exactly one way, no task runs or was completed twice, and the barriers of a producer were completed in
the order in which they were added. -/
structure Accounted (s : ThreadPool T B) : Prop where
  places : s.added.map Task.id = List.range s.added.length
  all : ∀ p, ((s.taskQueues_ p).tasks ++ (tasksOf p s.running ++ tasksOf p s.completed)).Perm (tasksOf p s.added)
  single : s.running.Nodup
  once : s.completed.Nodup
  order : ∀ p, (tasksOf p s.completed).Pairwise fun a b => a.barrier = true → b.barrier = true → a.id < b.id

theorem Inv.accounted (h : Inv s) : Accounted s := by
  have hnodup : ∀ p, (tasksOf p s.running ++ tasksOf p s.completed).Nodup := fun p =>
    (nodup_append.mp (h.fine p).ordered.nodup).2.1
  refine ⟨h.places, fun p => (h.fine p).all, ?_, ?_, fun p => (h.fine p).ordered.done⟩
  · exact nodup_of_tasksOf fun p => (nodup_append.mp (hnodup p)).1
  · exact nodup_of_tasksOf fun p => (nodup_append.mp (hnodup p)).2.1

/-- Whatever the producers and the threads do, a barrier is started alone and after everything its
producer added before, and none of the tasks that were given to the pool is lost or done twice. -/
theorem barriers_hold (traits : Traits) (num_threads : UInt32) (as : List (ThreadPool.Action T B)) :
    Each (step traits) (BarrierRule traits) (init num_threads) as ∧
      Accounted (runs (step traits) (init num_threads) as) ∧
      (runs (step traits) (init num_threads) as).added.map Task.given = as.filterMap given := by
  obtain ⟨hrule, hinv⟩ : Each (step traits) (BarrierRule traits) (init num_threads) as ∧
      Inv (runs (step traits) (init num_threads) as) :=
    each_of_invariant (Q := fun _ => True) Inv (fun s a h _ => step_inv traits s a h) (Inv.init num_threads)
      fun _ _ => trivial
  exact ⟨hrule, hinv.accounted, runs_added traits as (Inv.init num_threads)⟩

end Pool

end VolumeDriver.Pool
