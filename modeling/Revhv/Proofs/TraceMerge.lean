import Revhv.Lib.KWayMerge
import Revhv.Um.TraceMerge

/-!
# `Revhv.Proofs.TraceMerge`: the merge writes every entry once and in order

* `HeapOk`: the heap holds exactly the first entries that are left, one
  for each stream that has any.
* `mergeLoop_merges`: from such a heap the loop ends, and what it writes is
  a merge of what is left.
* `merge_writes_all`: `merge_format_write` ends, writes every entry of
  every stream once and in the stream's order, and writes sorted streams
  sorted.
-/

set_option autoImplicit false

namespace Revhv.TraceParser

open Revhv.Lib Revhv.Lib.KWayMerge Revhv.Trace

/-! ### What is left -/

/-- The entries of a stream that are not written yet. -/
def CoreStream.left (s : CoreStream) : List Entry := s.entries.drop s.cursor

/-- The entries of stream `i` that are not written yet. -/
def rest (streams : List CoreStream) (i : Nat) : List Entry :=
  match streams[i]? with
  | none => []
  | some s => s.left

/-- The number of all of them. -/
def total (streams : List CoreStream) : Nat := (streams.map fun s => s.left.length).sum

/-- A stream is done when nothing is left of it. -/
theorem done_iff (s : CoreStream) : s.done = true ↔ s.left = [] := by
  rw [CoreStream.done, CoreStream.left, decide_eq_true_iff, List.drop_eq_nil_iff]

/-- Its current entry is the first one that is left. -/
theorem current?_eq (s : CoreStream) : s.current? = s.left.head? := by
  rw [CoreStream.current?, CoreStream.left, List.head?_drop]

/-- Advancing the cursor drops the first entry that is left. -/
theorem left_advance (s : CoreStream) :
    ({ s with cursor := s.cursor + 1 } : CoreStream).left = s.left.tail := by
  show s.entries.drop (s.cursor + 1) = (s.entries.drop s.cursor).tail
  rw [List.tail_drop]

/-- What is left of stream `i`. -/
theorem rest_of_getElem? {streams : List CoreStream} {i : Nat} {s : CoreStream}
    (h : streams[i]? = some s) : rest streams i = s.left := by
  rw [rest, h]

/-- The stream behind a list that is not empty. -/
theorem stream_of_rest {streams : List CoreStream} {i : Nat} {a : Entry} {l : List Entry}
    (h : rest streams i = a :: l) : ∃ s, streams[i]? = some s ∧ s.left = a :: l := by
  cases hget : streams[i]? with
  | none =>
    rw [rest, hget] at h
    cases h
  | some s =>
    rw [rest_of_getElem? hget] at h
    exact ⟨s, rfl, h⟩

/-- A stream with its cursor advanced. -/
theorem rest_set {streams : List CoreStream} {i : Nat} {s s' : CoreStream}
    (h : streams[i]? = some s) :
    rest (streams.set i s') = Function.update (rest streams) i s'.left := by
  funext j
  have hi : i < streams.length := (List.getElem?_eq_some_iff.mp h).1
  by_cases hj : j = i
  · subst hj
    rw [Function.update_self]
    apply rest_of_getElem?
    rw [List.getElem?_set_self hi]
  · rw [Function.update_of_ne hj, rest, rest, List.getElem?_set_ne (Ne.symm hj)]

/-- A sum after one element has changed. -/
theorem sum_set (streams : List CoreStream) {i : Nat} {s : CoreStream} (s' : CoreStream)
    (h : streams[i]? = some s) :
    total (streams.set i s') + s.left.length = total streams + s'.left.length := by
  induction streams generalizing i with
  | nil => cases h
  | cons t streams ih =>
    cases i with
    | zero =>
      cases h
      show s'.left.length + total streams + _ = s.left.length + total streams + _
      omega
    | succ i =>
      have hrest := ih (i := i) h
      show t.left.length + total (streams.set i s') + _ = t.left.length + total streams + _
      omega

/-! ### The heap -/

/-- The element stands for the first entry that is left of its stream. -/
def IsHead (streams : List CoreStream) (e : HeapElem) : Prop :=
  ∃ a l, rest streams e.streamIndex = a :: l ∧ a.timestamp = e.timestamp

/-- The heap holds one element for each stream that has entries left. -/
structure HeapOk (q : MinHeap) (heap : q.State) (streams : List CoreStream) : Prop where
  nodup : (q.elems heap).Nodup
  mem : ∀ e, e ∈ q.elems heap ↔ IsHead streams e

section
variable {q : MinHeap} {streams : List CoreStream}

/-- What a push adds. -/
theorem pushCurrent_spec (heap : q.State) (s : CoreStream) (i : Nat) :
    ∃ heap', pushCurrent q heap s i = some heap' ∧
      ((s.left = [] ∧ q.elems heap' = q.elems heap) ∨
        ∃ a l, s.left = a :: l ∧ q.elems heap' = ⟨a.timestamp, i⟩ ::ₘ q.elems heap) := by
  rw [pushCurrent, current?_eq]
  cases hleft : s.left with
  | nil =>
    rw [if_pos ((done_iff s).mpr hleft)]
    exact ⟨heap, rfl, Or.inl ⟨rfl, rfl⟩⟩
  | cons a l =>
    have hdone : ¬ s.done = true := by
      rw [done_iff, hleft]
      exact List.cons_ne_nil a l
    rw [if_neg hdone]
    exact ⟨_, rfl, Or.inr ⟨a, l, rfl, q.elems_push heap _⟩⟩

/-- The loop that fills the heap, over the streams in `is`. -/
theorem initHeap_loop {is : List Nat} (hnodup : is.Nodup) (hbound : ∀ i ∈ is, i < streams.length)
    {heap : q.State} (hheap : (q.elems heap).Nodup)
    (hfresh : ∀ e ∈ q.elems heap, e.streamIndex ∉ is) :
    ∃ heap', is.foldlM
        (fun heap i => streams[i]?.bind fun s => pushCurrent q heap s i) heap = some heap' ∧
      (q.elems heap').Nodup ∧
      ∀ e, e ∈ q.elems heap' ↔ e ∈ q.elems heap ∨ (e.streamIndex ∈ is ∧ IsHead streams e) := by
  -- By induction over the streams left. The heap holds the heads of those seen.
  induction is generalizing heap with
  | nil => exact ⟨heap, rfl, hheap, fun e => by simp⟩
  | cons i is ih =>
    rw [List.nodup_cons] at hnodup
    have hi := hbound i List.mem_cons_self
    have hget : streams[i]? = some streams[i] := List.getElem?_eq_getElem hi
    have hrest : rest streams i = streams[i].left := rest_of_getElem? hget
    have hbound' : ∀ j ∈ is, j < streams.length := by
      intro j hj
      exact hbound j (List.mem_cons_of_mem i hj)
    rcases pushCurrent_spec heap streams[i] i with ⟨heap₁, hpush, hcases⟩
    have hround : ∀ rounds : List Nat, (i :: rounds).foldlM
        (fun heap i => streams[i]?.bind fun s => pushCurrent q heap s i) heap =
        rounds.foldlM (fun heap i => streams[i]?.bind fun s => pushCurrent q heap s i) heap₁ := by
      intro rounds
      rw [List.foldlM_cons, hget]
      show (pushCurrent q heap streams[i] i).bind _ = _
      rw [hpush]
      rfl
    rw [hround]
    rcases hcases with ⟨hempty, helems⟩ | ⟨a, l, hleft, helems⟩
    · -- Nothing is left of stream `i`, so no element stands for it.
      rcases @ih hnodup.2 hbound' heap₁ (helems ▸ hheap) (by
          intro e he
          rw [helems] at he
          exact fun hmem => hfresh e he (List.mem_cons_of_mem i hmem)) with
        ⟨heap', hloop, hnodup', hmem⟩
      refine ⟨heap', hloop, hnodup', ?_⟩
      intro e
      rw [hmem e, helems, List.mem_cons]
      constructor
      · rintro (hold | ⟨hlater, hhead⟩)
        · exact Or.inl hold
        · exact Or.inr ⟨Or.inr hlater, hhead⟩
      · rintro (hold | ⟨hhere | hlater, hhead⟩)
        · exact Or.inl hold
        · rcases hhead with ⟨a, l, hcons, -⟩
          rw [hhere, hrest, hempty] at hcons
          cases hcons
        · exact Or.inr ⟨hlater, hhead⟩
    · -- The head of stream `i` is pushed, and no other element has its index.
      have hnew : (⟨a.timestamp, i⟩ : HeapElem) ∉ q.elems heap := by
        intro hmem
        exact hfresh _ hmem List.mem_cons_self
      rcases @ih hnodup.2 hbound' heap₁ (helems ▸ Multiset.nodup_cons.mpr ⟨hnew, hheap⟩) (by
          intro e he
          rw [helems, Multiset.mem_cons] at he
          rcases he with rfl | hold
          · exact hnodup.1
          · exact fun hmem => hfresh e hold (List.mem_cons_of_mem i hmem)) with
        ⟨heap', hloop, hnodup', hmem⟩
      refine ⟨heap', hloop, hnodup', ?_⟩
      intro e
      rw [hmem e, helems, Multiset.mem_cons, List.mem_cons]
      constructor
      · rintro ((rfl | hold) | ⟨hlater, hhead⟩)
        · exact Or.inr ⟨Or.inl rfl, a, l, hrest.trans hleft, rfl⟩
        · exact Or.inl hold
        · exact Or.inr ⟨Or.inr hlater, hhead⟩
      · rintro (hold | ⟨hhere | hlater, hhead⟩)
        · exact Or.inl (Or.inr hold)
        · rcases hhead with ⟨b, m, hcons, htime⟩
          rw [hhere, hrest, hleft] at hcons
          cases hcons
          rcases e with ⟨timestamp, index⟩
          cases hhere
          cases htime
          exact Or.inl (Or.inl rfl)
        · exact Or.inr ⟨hlater, hhead⟩

/-- The heap is right when the loop starts. -/
theorem initHeap_ok (streams : List CoreStream) :
    ∃ heap, initHeap q streams = some heap ∧ HeapOk q heap streams := by
  -- The empty heap holds the head of no stream.
  have hnone : ∀ e ∈ q.elems q.empty, e.streamIndex ∉ List.range streams.length := by
    intro e he
    rw [q.elems_empty] at he
    exact absurd he (Multiset.notMem_zero e)
  have hnodup : (q.elems q.empty).Nodup := by
    rw [q.elems_empty]
    exact Multiset.nodup_zero
  rcases @initHeap_loop q streams _ List.nodup_range (fun i hi => List.mem_range.mp hi) _ hnodup
    hnone with ⟨heap, hloop, hnodup', hmem⟩
  refine ⟨heap, hloop, hnodup', ?_⟩
  intro e
  rw [hmem e, q.elems_empty]
  constructor
  · rintro (hzero | ⟨-, hhead⟩)
    · exact absurd hzero (Multiset.notMem_zero e)
    · exact hhead
  · intro hhead
    refine Or.inr ⟨?_, hhead⟩
    rcases hhead with ⟨a, l, hcons, -⟩
    rcases stream_of_rest hcons with ⟨s, hget, -⟩
    exact List.mem_range.mpr (List.getElem?_eq_some_iff.mp hget).1

/-- The element on top stands for a least of the first entries that are
left. -/
theorem HeapOk.least {heap : q.State} (h : HeapOk q heap streams) {e : HeapElem}
    (htop : q.top? heap = some e) {j : Nat} {b : Entry} {m : List Entry}
    (hcons : rest streams j = b :: m) : e.timestamp.toNat ≤ b.timestamp.toNat := by
  have hmem : (⟨b.timestamp, j⟩ : HeapElem) ∈ q.elems heap := (h.mem _).mpr ⟨b, m, hcons, rfl⟩
  have hfirst := q.top_first heap e _ htop hmem
  have hnot : ¬ b.timestamp < e.timestamp := of_decide_eq_false hfirst
  rw [UInt64.lt_iff_toNat_lt] at hnot
  omega

/-- A round of the loop keeps the heap right. -/
theorem heapOk_round {heap : q.State} (h : HeapOk q heap streams) {e : HeapElem}
    (htop : q.top? heap = some e) {s s' : CoreStream} (hget : streams[e.streamIndex]? = some s) :
    ∃ heap', pushCurrent q (q.pop heap) s' e.streamIndex = some heap' ∧
      HeapOk q heap' (streams.set e.streamIndex s') := by
  have hrest : rest (streams.set e.streamIndex s')
      = Function.update (rest streams) e.streamIndex s'.left := rest_set hget
  have hpop : ∀ f, f ∈ q.elems (q.pop heap) ↔ f ≠ e ∧ IsHead streams f := by
    intro f
    rw [q.elems_pop heap e htop, h.nodup.mem_erase_iff, h.mem]
  have hpopNodup : (q.elems (q.pop heap)).Nodup := by
    rw [q.elems_pop heap e htop]
    exact h.nodup.erase e
  -- The only head of the stream of `e` is `e` itself.
  have hown : ∀ f, IsHead streams f → f.streamIndex = e.streamIndex → f = e := by
    rintro ⟨timestamp, index⟩ ⟨a, l, hcons, htime⟩ hindex
    rcases (h.mem e).mp (q.top_mem heap e htop) with ⟨b, m, hcons', htime'⟩
    cases e with
    | mk timestamp' index' =>
      cases hindex
      cases htime
      cases htime'
      rw [hcons'] at hcons
      cases hcons
      rfl
  have hother : ∀ f, f.streamIndex ≠ e.streamIndex →
      (IsHead (streams.set e.streamIndex s') f ↔ IsHead streams f) := by
    intro f hne
    unfold IsHead
    rw [hrest, Function.update_of_ne hne]
  rcases pushCurrent_spec (q.pop heap) s' e.streamIndex with
    ⟨heap', hpush, ⟨hempty, helems⟩ | ⟨a, l, hleft, helems⟩⟩
  · refine ⟨heap', hpush, helems ▸ hpopNodup, ?_⟩
    intro f
    rw [helems, hpop]
    by_cases hindex : f.streamIndex = e.streamIndex
    · constructor
      · rintro ⟨hne, hhead⟩
        exact absurd (hown f hhead hindex) hne
      · rintro ⟨b, m, hcons, -⟩
        rw [hrest, hindex, Function.update_self, hempty] at hcons
        cases hcons
    · rw [hother f hindex]
      refine ⟨fun hboth => hboth.2, fun hhead => ⟨?_, hhead⟩⟩
      intro heq
      exact hindex (congrArg HeapElem.streamIndex heq)
  · refine ⟨heap', hpush, ?_, ?_⟩
    · rw [helems]
      refine Multiset.nodup_cons.mpr ⟨?_, hpopNodup⟩
      rw [hpop]
      rintro ⟨hne, hhead⟩
      exact hne (hown _ hhead rfl)
    · intro f
      rw [helems, Multiset.mem_cons, hpop]
      by_cases hindex : f.streamIndex = e.streamIndex
      · constructor
        · rintro (rfl | ⟨hne, hhead⟩)
          · refine ⟨a, l, ?_, rfl⟩
            rw [hrest, Function.update_self, hleft]
          · exact absurd (hown f hhead hindex) hne
        · rintro ⟨b, m, hcons, htime⟩
          rw [hrest, hindex, Function.update_self, hleft] at hcons
          cases hcons
          rcases f with ⟨timestamp, index⟩
          cases hindex
          cases htime
          exact Or.inl rfl
      · rw [hother f hindex]
        have hne : f ≠ e := fun heq => hindex (congrArg HeapElem.streamIndex heq)
        have hnew : f ≠ ⟨a.timestamp, e.streamIndex⟩ := by
          intro heq
          rw [heq] at hindex
          exact hindex rfl
        exact ⟨fun hor => (hor.resolve_left hnew).2, fun hhead => Or.inr ⟨hne, hhead⟩⟩

/-! ### The loop -/

/-- The key of the merge. -/
def timeKey (a : Entry) : Nat := a.timestamp.toNat

/-- With nothing on top nothing is left. -/
theorem HeapOk.empty {heap : q.State} (h : HeapOk q heap streams) (htop : q.top? heap = none)
    (i : Nat) : rest streams i = [] := by
  cases hcons : rest streams i with
  | nil => rfl
  | cons a l =>
    have hmem : (⟨a.timestamp, i⟩ : HeapElem) ∈ q.elems heap := (h.mem _).mpr ⟨a, l, hcons, rfl⟩
    rw [q.elems_none heap htop] at hmem
    exact absurd hmem (Multiset.notMem_zero _)

/-- From a heap that is right the loop ends as soon as it has a round
for each entry that is left and one more, and writes a merge of what is
left. -/
theorem mergeLoop_merges (n : Nat) {streams : List CoreStream} {heap : q.State}
    (h : HeapOk q heap streams) (hn : total streams = n) :
    ∃ out, Merges timeKey (rest streams) out ∧ ∀ rounds written, n < rounds →
      mergeLoop q rounds heap streams written = some (written ++ out) := by
  -- By induction over the records left, for whatever the heap looks like.
  induction n generalizing streams heap with
  | zero =>
    have hempty : ∀ i, rest streams i = [] := by
      intro i
      cases hcons : rest streams i with
      | nil => rfl
      | cons a l =>
        rcases stream_of_rest hcons with ⟨s, hget, hleft⟩
        have hset := sum_set streams ⟨s.coreId, [], 0⟩ hget
        rw [hleft, hn, List.length_cons] at hset
        have hnil : (⟨s.coreId, [], 0⟩ : CoreStream).left.length = 0 := rfl
        omega
    refine ⟨[], Merges.done hempty, ?_⟩
    intro rounds written hrounds
    cases rounds with
    | zero => omega
    | succ rounds =>
      rw [mergeLoop]
      cases htop : q.top? heap with
      | none => rw [List.append_nil]
      | some e =>
        rcases (h.mem e).mp (q.top_mem heap e htop) with ⟨a, l, hcons, -⟩
        rw [hempty] at hcons
        cases hcons
  | succ n ih =>
    -- An empty heap means that no stream has a head. Otherwise the top is the
    -- least of the heads.
    cases htop : q.top? heap with
    | none =>
      refine ⟨[], Merges.done (h.empty htop), ?_⟩
      intro rounds written hrounds
      cases rounds with
      | zero => omega
      | succ rounds => rw [mergeLoop, htop, List.append_nil]
    | some e =>
      rcases (h.mem e).mp (q.top_mem heap e htop) with ⟨a, l, hcons, htime⟩
      rcases stream_of_rest hcons with ⟨s, hget, hleft⟩
      have hadvance := left_advance s
      have hround := @heapOk_round _ _ _ h e htop s { s with cursor := s.cursor + 1 } hget
      rcases hround with ⟨heap', hpush, hok⟩
      -- One record less is left.
      have hless : total (streams.set e.streamIndex { s with cursor := s.cursor + 1 }) = n := by
        have hset := sum_set streams { s with cursor := s.cursor + 1 } hget
        rw [hadvance, hleft, hn, List.length_cons, List.tail_cons] at hset
        omega
      rcases ih hok hless with ⟨out, hmerges, hloop⟩
      refine ⟨(e.streamIndex, a) :: out, ?_, ?_⟩
      · rw [rest_set hget, hadvance, hleft, List.tail_cons] at hmerges
        refine Merges.take hcons ?_ hmerges
        intro j b m hj
        show a.timestamp.toNat ≤ b.timestamp.toNat
        rw [htime]
        exact h.least htop hj
      · intro rounds written hrounds
        cases rounds with
        | zero => omega
        | succ rounds =>
          have hcurrent : s.current? = some a := by
            rw [current?_eq, hleft]
            rfl
          have hrest := hloop rounds (written ++ [(e.streamIndex, a)]) (by omega)
          rw [List.append_assoc] at hrest
          rw [mergeLoop, htop]
          simp only [hget, hcurrent, hpush, Option.bind_eq_bind, Option.bind_some]
          exact hrest

/-- `merge_format_write` ends with a merge of the streams. -/
theorem mergeFormatWrite_merges (q : MinHeap) (streams : List CoreStream) :
    ∃ out, Merges timeKey (rest streams) out ∧ ∀ rounds, total streams < rounds →
      mergeFormatWrite q rounds streams = some out := by
  rcases initHeap_ok (q := q) streams with ⟨heap, hinit, hok⟩
  rcases mergeLoop_merges (total streams) hok rfl with ⟨out, hmerges, hloop⟩
  refine ⟨out, hmerges, ?_⟩
  intro rounds hrounds
  rw [mergeFormatWrite, hinit]
  exact hloop rounds [] hrounds

end

/-! ### All streams -/

/-- The streams that `open_trace_streams` has opened, by core and
entries. -/
def openedStreams (files : List (UInt16 × List Entry)) : List CoreStream :=
  files.map fun file => .opened file.1 file.2

/-- The entries of stream `i`. -/
def entriesOf (files : List (UInt16 × List Entry)) (i : Nat) : List Entry :=
  (files[i]?.map Prod.snd).getD []

/-- An opened stream has all of its entries left. -/
theorem rest_openedStreams (files : List (UInt16 × List Entry)) :
    rest (openedStreams files) = entriesOf files := by
  funext i
  rw [rest, openedStreams, entriesOf, List.getElem?_map]
  cases files[i]? with
  | none => rfl
  | some file => rfl

/-- Whatever the queue does with equal timestamps: after a finite number
of rounds the merge has ended, without a read past the end. Each
stream's entries have been written once and in their order, nothing else
has been written, and the whole is in the order of the timestamps if
every stream is. -/
theorem merge_writes_all (q : MinHeap) (files : List (UInt16 × List Entry)) :
    ∃ out, (∀ rounds, total (openedStreams files) < rounds →
        mergeFormatWrite q rounds (openedStreams files) = some out) ∧
      (∀ i, stream out i = entriesOf files i) ∧ (∀ p ∈ out, p.1 < files.length) ∧
      ((∀ file ∈ files, file.2.Pairwise fun a b => a.timestamp ≤ b.timestamp) →
        out.Pairwise fun a b => a.2.timestamp ≤ b.2.timestamp) := by
  rcases mergeFormatWrite_merges q (openedStreams files) with ⟨out, hmerges, hrounds⟩
  rw [rest_openedStreams] at hmerges
  refine ⟨out, hrounds, stream_of_merges hmerges, ?_, ?_⟩
  · intro p hp
    have hmem := mem_of_merges hmerges hp
    by_contra hge
    rw [entriesOf, List.getElem?_eq_none (Nat.le_of_not_lt hge)] at hmem
    exact absurd hmem List.not_mem_nil
  · intro hsorted
    have hkeys : ∀ i, (entriesOf files i).Pairwise fun a b => timeKey a ≤ timeKey b := by
      intro i
      -- An index without a file has no records.
      cases hfile : files[i]? with
      | none =>
        rw [entriesOf, hfile]
        exact List.Pairwise.nil
      | some file =>
        rw [entriesOf, hfile]
        exact (hsorted file (List.mem_of_getElem? hfile)).imp UInt64.le_iff_toNat_le.mp
    exact (sorted_of_merges hmerges hkeys).imp UInt64.le_iff_toNat_le.mpr

/-- A queue that is a sorted list. -/
def sortedHeap : MinHeap :=
  PriorityQueue.ofKey (fun e => e.timestamp.toNat) HeapElem.gt fun _ _ h =>
    UInt64.lt_iff_toNat_lt.mp (of_decide_eq_true h)

/-- An entry with that timestamp. -/
def entryAt (timestamp : UInt64) : Entry := ⟨.eptTargetTransition, 0, 0, timestamp, fun _ => 0⟩

/-- Three cores, one without entries, two with one timestamp in common. -/
def sampleFiles : List (UInt16 × List Entry) :=
  [(0, [entryAt 1, entryAt 5]), (1, []), (2, [entryAt 1, entryAt 3, entryAt 7])]

/-- Three files of different lengths, merged. -/
theorem merge_writes_sample : ∃ out,
    mergeFormatWrite sortedHeap 6 (openedStreams sampleFiles) = some out ∧
      (∀ i, stream out i = entriesOf sampleFiles i) ∧
      out.Pairwise fun a b => a.2.timestamp ≤ b.2.timestamp := by
  rcases merge_writes_all sortedHeap sampleFiles with ⟨out, hrounds, hstreams, -, hsorted⟩
  refine ⟨out, hrounds 6 (by decide), hstreams, hsorted ?_⟩
  intro file hfile
  simp only [sampleFiles, List.mem_cons, List.not_mem_nil, or_false] at hfile
  rcases hfile with rfl | rfl | rfl
  · decide
  · exact List.Pairwise.nil
  · decide

end Revhv.TraceParser
