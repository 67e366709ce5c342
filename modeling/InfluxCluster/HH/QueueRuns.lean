/-
  Whole runs of an open queue: when the tail is the last segment.

  `Open` sets head and tail to the first and the last segment.  From then on the list, the head and
  the tail are three things that five methods change.  All of them keep `Shape`; four of them also
  keep the tail at the end of the list (`QueueShape`).

  THE FIFTH is `PurgeOlderThan`.  When every segment is old the loop puts a new one behind the last
  and drops the last, and it does not set `l.tail`.  The tail is then a closed segment that is not in
  the list any more, and it STAYS there: no later round of the loop sets it (`Stale`).

  So the queue is as one would expect in every state of a run exactly if every purge of the run finds
  a segment that it does not purge (`structured_iff`).  A run has its own clock, set before each
  method.  It ends at a method that meets an I/O fault or does not return.
-/
import InfluxCluster.HH.QueueAck
import InfluxCluster.HH.QueuePurge
import InfluxCluster.Lib.Lockstep

namespace InfluxCluster.HH

open InfluxCluster.Lib

/-! ## `PurgeOlderThan` and the tail -/

/-- The tail is not one of the segments. -/
def Stale (s : QState) : Prop := ∃ p, s.q.tail = some p ∧ p < s.next ∧ p ∉ s.q.segments

section Purge

variable {s s' : QState} {cutoff : Time} {p q : Ptr} {ps : List Ptr}

theorem Stale.not_structured (h : Stale s) : ¬ Structured s := by
  obtain ⟨p, htail, -, hp⟩ := h
  intro hst
  exact hp (List.mem_of_getLast? (hst.tail_eq.symm.trans htail))

theorem Stale.trimmed (h : Stale s) (p : Ptr) : Stale (s.trimmed p) := by
  obtain ⟨r, htail, hlt, hr⟩ := h
  exact ⟨r, htail, hlt, fun hmem => hr (List.mem_of_mem_tail hmem)⟩

/-- The new segment is not the tail, whether that is stale already or was the one before. -/
theorem Shape.replaced (h : Shape s) (hsegs : s.q.segments = [p]) :
    Shape (s.replaced p) ∧ Stale (s.replaced p) := by
  have hb := h.toBody.added (h.toBody.renewable.nextFree hsegs)
  have hsegs' : (s.added s.newSegment s.newDisk).q.segments = [p, s.next] := by
    show s.q.segments ++ [s.next] = _
    rw [hsegs]
    rfl
  have hrest : (s.replaced p).q.segments = [s.next] := trimmed_segments hsegs'
  have hp : p < s.next := h.fresh p (by rw [hsegs]; exact List.mem_cons_self)
  obtain ⟨r, htail, hlt, hcase⟩ := h.tail
  have hclosed : ((s.replaced p).heap r).file = none := by
    by_cases hrp : r = p
    · rw [hrp]
      exact trimmed_file _ p
    · have hr : (s.heap r).file = none := hcase.resolve_left fun hlast => by
        rw [hsegs] at hlast
        exact hrp (Option.some.inj hlast).symm
      rw [show (s.replaced p).heap r = (s.added s.newSegment s.newDisk).heap r from
        Function.update_of_ne hrp .., added_heap_of_lt _ _ hlt]
      exact hr
  refine ⟨⟨(hb.trimmed hsegs').2, r, htail, Nat.lt_succ_of_lt hlt, .inr hclosed⟩,
    r, htail, Nat.lt_succ_of_lt hlt, ?_⟩
  rw [hrest, List.mem_singleton]
  exact Nat.ne_of_lt hlt

/-- **A purge that returns nil** keeps the shape.  The tail is the last segment afterwards if it was
    and there was a segment that is not old; otherwise it is stale.  By induction on the rounds. -/
theorem Shape.purgeLoop (fuel : Nat) : ∀ {s : QState}, Shape s →
    Queue.purgeLoop cutoff fuel s = .ok () s' →
    Shape s' ∧ (Stale s → Stale s') ∧
      ((∃ p ∈ s.q.segments, s.older cutoff p = false) → Structured s → Structured s') ∧
      ((∀ p ∈ s.q.segments, s.older cutoff p = true) → Stale s') := by
  induction fuel with
  | zero =>
    intro s _ he
    cases he
  | succ fuel ih =>
    intro s h he
    have ha := h.toBody.attached
    obtain ⟨p, ps, hsegs, -⟩ := h.exists_head
    have hp : p ∈ s.q.segments := by
      rw [hsegs]
      exact List.mem_cons_self
    cases hold : s.older cutoff p with
    | false =>
      rw [ha.purgeLoop_young hsegs hold] at he
      cases he
      refine ⟨h, id, fun _ => id, fun hall => ?_⟩
      rw [hall p hp] at hold
      cases hold
    | true =>
      cases ps with
      | nil =>
        rcases ha.purgeLoop_replace h.calm (h.toBody.renewable.nextFree hsegs) hsegs hold fuel with
          ⟨-, he'⟩ | he'
        · rw [he'] at he
          cases he
        · rw [he'] at he
          obtain ⟨hshape, hstale⟩ := h.replaced hsegs
          obtain ⟨hs', hkeep, -, -⟩ := ih hshape he
          refine ⟨hs', fun _ => hkeep hstale, ?_, fun _ => hkeep hstale⟩
          rintro ⟨r, hr, hyoung⟩
          rw [hsegs, List.mem_singleton] at hr
          rw [hr, hold] at hyoung
          cases hyoung
      | cons q qs =>
        rw [ha.purgeLoop_trim hsegs hold] at he
        obtain ⟨htrim, hb⟩ := h.toBody.trimmed hsegs
        obtain ⟨t, ht, htshape, htst⟩ := h.trimHead
        cases htrim.symm.trans ht
        have hsame : ∀ r ∈ q :: qs, (s.trimmed p).older cutoff r = s.older cutoff r := fun r hr =>
          older_congr (ha.trimmed_same hsegs hr).2.1 (ha.trimmed_same hsegs hr).2.2
        obtain ⟨hs', hkeep, hyoung, hall⟩ := ih htshape he
        rw [trimmed_segments hsegs] at hyoung hall
        refine ⟨hs', fun hst => hkeep (hst.trimmed p), ?_, fun hall' => hall fun r hr => ?_⟩
        · rintro ⟨r, hr, hry⟩ hst
          rw [hsegs] at hr
          rcases List.mem_cons.mp hr with rfl | hr
          · rw [hold] at hry
            cases hry
          · exact hyoung ⟨r, hr, by rw [hsame r hr, hry]⟩ (htst hst)
        · rw [hsame r hr]
          exact hall' r (ha.trimmed_same hsegs hr).1

/-- A purge finds a segment that it does not purge: in terms of the files, and of the segments. -/
theorem Shape.purgeSafe_iff (h : Shape s) (when_ : Time) : PurgeSafe s when_ ↔
    ∃ p ∈ s.q.segments, s.older (Queue.truncateSecond when_) p = false := by
  rw [PurgeSafe, or_iff_right h.nonempty]
  refine exists_congr fun p => and_congr_right fun hp => ?_
  obtain ⟨f, hf, -⟩ := (h.sized p hp).stored
  rw [QState.older, hf, Option.any_some, decide_eq_false_iff_not, not_lt]
  simp

/-- `PurgeOlderThan` keeps the shape, and the tail at the end exactly if it is safe. -/
theorem Shape.purgeOlderThan (h : Shape s) (fuel : Nat) (when_ : Time)
    (he : Queue.purgeOlderThan fuel when_ s = .ok () s') :
    Shape s' ∧ (Structured s → (Structured s' ↔ PurgeSafe s when_)) := by
  have hlen : s.q.segments.length ≠ 0 := fun hz => h.nonempty (List.length_eq_zero_iff.mp hz)
  rw [Queue.purgeOlderThan, bind_ok (self_run s), if_pos hlen] at he
  obtain ⟨hs', -, hyoung, hall⟩ := h.purgeLoop fuel he
  refine ⟨hs', fun hst => ?_⟩
  rw [h.purgeSafe_iff]
  refine ⟨fun hst' => ?_, fun hex => hyoung hex hst⟩
  by_contra hnone
  refine (hall fun p hp => ?_).not_structured hst'
  by_contra hp'
  exact hnone ⟨p, hp, Bool.eq_false_iff.mpr hp'⟩

end Purge

/-! ## Runs -/

/-- The method meets no I/O fault and returns.  Every error of `PurgeOlderThan` is one; `Append` may
    ask for a file that is too large; a new segment of `Append` or `SetMaxSegmentSize` may find its
    name taken. -/
def Method.Undisturbed (s : QState) : Method → Prop
  | .append b => s.Roomy b
  | .setMaxSegmentSize size => s.Resizable size
  | .purgeOlderThan fuel when_ => returned (Queue.purgeOlderThan fuel when_ s) = some ()
  | .openQueue | .current | .advance => True

instance (s : QState) (m : Method) : Decidable (m.Undisturbed s) :=
  match m with
  | .append _ => inferInstanceAs (Decidable (QState.Roomy _ _))
  | .setMaxSegmentSize _ => inferInstanceAs (Decidable (QState.Resizable _ _))
  | .purgeOlderThan _ _ => inferInstanceAs (Decidable (_ = _))
  | .openQueue | .current | .advance => isTrue trivial

/-- One method of a run without faults, at its time. -/
def QState.step (s : QState) (c : Time × Method) : Option QState :=
  if c.2.Undisturbed (s.facing c.1 []) then some (c.2.after (s.facing c.1 [])) else none

/-- A purge finds a segment that it does not purge. -/
def TailSafe (s : QState) (c : Time × Method) : Prop :=
  match c.2 with
  | .purgeOlderThan _ when_ => PurgeSafe (s.facing c.1 []) when_
  | .openQueue | .append _ | .current | .advance | .setMaxSegmentSize _ => True

instance (s : QState) (c : Time × Method) : Decidable (TailSafe s c) :=
  match c with
  | (_, .purgeOlderThan _ _) => inferInstanceAs (Decidable (PurgeSafe _ _))
  | (_, .openQueue) | (_, .append _) | (_, .current) | (_, .advance) | (_, .setMaxSegmentSize _) =>
    isTrue trivial

theorem Shape.facing {s : QState} (h : Shape s) (now : Time) : Shape (s.facing now []) :=
  ⟨⟨⟨fun p hp => ⟨(h.sized p hp).handle, (h.sized p hp).stored⟩, h.paths, h.fresh, h.numeric,
    h.owned, rfl⟩, h.nonempty, h.head_eq⟩, h.tail⟩

/-- **One step**, method by method: the shape is kept, and the tail is the last segment afterwards
    exactly if the step is safe. -/
theorem Shape.step {s s' : QState} (h : Shape s) {c : Time × Method} (hstep : s.step c = some s') :
    Shape s' ∧ (Structured s → (Structured s' ↔ TailSafe s c)) := by
  obtain ⟨now, m⟩ := c
  rw [QState.step] at hstep
  split at hstep
  case isFalse => cases hstep
  case isTrue hm =>
    cases hstep
    have hf : Shape (s.facing now []) := h.facing now
    have hst : Structured s → Structured (s.facing now []) := fun hst =>
      hf.structured_iff.mpr hst.tail_eq
    have hsafe : ∀ {t : QState}, Shape t ∧ (Structured (s.facing now []) → Structured t) →
        Shape t ∧ (Structured s → (Structured t ↔ True)) := fun ht =>
      ⟨ht.1, fun hs => iff_true_intro (ht.2 (hst hs))⟩
    cases m with
    | openQueue => exact hsafe hf.openQueue
    | append b => exact hsafe (hf.append hm)
    | current => exact hsafe hf.current
    | advance => exact hsafe hf.advance
    | setMaxSegmentSize size => exact hsafe (hf.setMaxSegmentSize hm)
    | purgeOlderThan fuel when_ =>
      obtain ⟨hs', hiff⟩ := hf.purgeOlderThan fuel when_ (eq_ok_of_returned hm)
      exact ⟨hs', fun hs => hiff (hst hs)⟩

/-- **The queue is as one would expect in every state of a run exactly if every purge of the run
    finds a segment that it does not purge.**  From `Open` on any directory. -/
theorem structured_run_iff {maxSize maxSegmentSize : Int} {d : Disk} {s₀ : QState}
    (hd : d.script = [])
    (hopen : Queue.openQueue (QState.fresh maxSize maxSegmentSize d) = .ok () s₀)
    (w : List (Time × Method)) :
    (∀ k s, (w.take k).foldlM QState.step s₀ = some s → Structured s)
      ↔ Along QState.step (fun s c => (s.step c).isSome → TailSafe s c) s₀ w := by
  obtain ⟨hshape, hst⟩ := shape_of_openQueue hd hopen
  exact foldlM_take_inv_iff (fun s c s' h hstep => (h.step hstep).1)
    (fun s c s' h hs hstep => (h.step hstep).2 hs) w hshape hst

/-- Two segments; the first is purged. -/
theorem structured_run_iff_two : ∃ s₀ s, Queue.openQueue (QState.fresh 1000 17 Disk.empty) = .ok () s₀ ∧
    [(0, Method.append [1]), (2000000000, .append [2]),
      (2000000000, .purgeOlderThan 3 2000000000)].foldlM QState.step s₀ = some s ∧
    s.q.segments = [1] ∧ Structured s := by
  set s₀ := final (Queue.openQueue (QState.fresh 1000 17 Disk.empty)) with hs₀
  set w := [((0 : Time), Method.append [1]), (2000000000, .append [2]),
    (2000000000, .purgeOlderThan 3 2000000000)] with hw
  have hopen : Queue.openQueue (QState.fresh 1000 17 Disk.empty) = .ok () s₀ :=
    eq_ok_of_returned (by decide +kernel)
  obtain ⟨s, hs⟩ := Option.isSome_iff_exists.mp
    (show (w.foldlM QState.step s₀).isSome from by decide +kernel)
  refine ⟨s₀, s, hopen, hs, ?_, ?_⟩
  · have hsegs : (w.foldlM QState.step s₀).map (fun s => s.q.segments) = some [1] := by
      decide +kernel
    rw [hs] at hsegs
    exact Option.some.inj hsegs
  · exact (structured_run_iff rfl hopen w).mpr (by decide +kernel) 3 s hs

/-- **The tail is lost**: one segment, and a purge after which it is old. -/
theorem purge_loses_tail : ∃ s₀ s, Queue.openQueue (QState.fresh 1000 100 Disk.empty) = .ok () s₀ ∧
    [(0, Method.append [1]), (5000000000, .purgeOlderThan 2 5000000000)].foldlM QState.step s₀
      = some s ∧
    s.q.tail = some 0 ∧ s.q.segments = [1] ∧ (s.heap 0).file = none ∧ ¬ Structured s := by
  set s₀ := final (Queue.openQueue (QState.fresh 1000 100 Disk.empty)) with hs₀
  set w := [((0 : Time), Method.append [1]), (5000000000, .purgeOlderThan 2 5000000000)] with hw
  obtain ⟨s, hs⟩ := Option.isSome_iff_exists.mp
    (show (w.foldlM QState.step s₀).isSome from by decide +kernel)
  have hvals : (w.foldlM QState.step s₀).map (fun s => (s.q.tail, s.q.segments, (s.heap 0).file))
      = some (some 0, [1], none) := by
    decide +kernel
  rw [hs] at hvals
  obtain ⟨htail, hrest⟩ := Prod.mk.inj (Option.some.inj hvals)
  obtain ⟨hsegs, hclosed⟩ := Prod.mk.inj hrest
  refine ⟨s₀, s, eq_ok_of_returned (by decide +kernel), hs, htail, hsegs, hclosed, fun hst => ?_⟩
  have hbad := hst.tail_eq
  rw [htail, hsegs] at hbad
  exact absurd hbad (by decide)

end InfluxCluster.HH
