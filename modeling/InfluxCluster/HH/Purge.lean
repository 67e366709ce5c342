/-
  Purging the processor of an inactive node (`hh/service.go`, `purgeInactiveProcessors` and
  `WriteShard`; `hh/node_processor.go`).

  A pass reads `LastModified`, asks whether the node is active, compares the time with `MaxAge`,
  closes the processor and removes its directory.  It holds `s.mu` all the while.
  `Service.WriteShard` takes `s.mu` only to look the processor up, and `LastModified` takes no lock
  of the processor.  So a call that has looked it up BEFORE the pass can still write, until `Close`:
  the processor accepts the write, and the pass goes on with the time that it read before.

  THE TIME OF THE QUEUE.  `LastModified` is the time of the tail's file.  On a queue in use every
  accepted write sets it, in the tail or in a new one (`Good.append_time`).  So what was accepted
  before the pass read it is old enough, and a pass deletes nothing fresh EXACTLY IF what was
  accepted since then is old enough too (`nothing_fresh_deleted_iff`).

  A `Site` is one processor, from `Open` to the removal of its directory.  The calls and the pass
  are cut where they give up a lock.  The goroutine of the processor is left out: it deletes nothing
  for the pass.  Waiting for it in `Close` is a matter of `Shutdown`.
-/
import InfluxCluster.HH.QueueShape
import InfluxCluster.HH.Senders

namespace InfluxCluster.HH

open InfluxCluster.Lib

/-! ## The time of the tail -/

section Time

variable {s : QState} {chain cs : List (Ptr × Log Bytes)} {c : Ptr × Log Bytes}

/-- `LastModified` is the time of the tail's file. -/
theorem Good.lastModified_eq (h : Good s (cs ++ [c])) {f : File}
    (hf : s.disk.file? (s.heap c.1).path = some f) : Queue.lastModified s = .ok f.modTime s := by
  obtain ⟨off, hhandle⟩ := (h.holds c (by simp)).handle
  have htail : s.q.tail = some c.1 := by
    rw [h.tail_eq, List.map_append]
    exact List.getLast?_concat
  have hseg : Segment.lastModified { seg := s.heap c.1, disk := s.disk }
      = .ok f.modTime { seg := s.heap c.1, disk := s.disk } := by
    rw [Segment.lastModified]
    dsimp only
    rw [hhandle]
    dsimp only
    rw [hf]
  rw [Queue.lastModified, bind_ok (self_run s), htail]
  dsimp only
  rw [call_ok hseg, QState.put, Function.update_eq_self]

/-- A queue in use has a time. -/
theorem Good.exists_lastModified (h : Good s chain) : ∃ t, Queue.lastModified s = .ok t s := by
  obtain ⟨cs, c, rfl, -, -⟩ := h.exists_tail
  obtain ⟨t, ht⟩ := (h.holds c (by simp)).stored
  exact ⟨t, h.lastModified_eq ht⟩

/-- The clock does not change it. -/
theorem Good.lastModified_tick (h : Good s chain) {t : Time} (ht : Queue.lastModified s = .ok t s)
    (now : Time) : Queue.lastModified { s with disk := s.disk.at now }
      = .ok t { s with disk := s.disk.at now } := by
  obtain ⟨cs, c, rfl, -, -⟩ := h.exists_tail
  obtain ⟨t', hstored⟩ := (h.holds c (by simp)).stored
  have hsame := ht.symm.trans (h.lastModified_eq hstored)
  injection hsame with hsame
  rw [hsame]
  exact (h.tick now).lastModified_eq hstored

/-- A slice that is stored sets the time of the file. -/
theorem Segment.append_time {s s' : SegState} {log : Log Bytes} {b : Bytes}
    (h : Clean s.seg s.disk log) (hfit : s.seg.size + b.length ≤ s.seg.maxSize)
    (hc : s.disk.Calm 4) (hr : s.seg.size + b.length + 8 ≤ maxOffset)
    (he : Segment.append b s = .ok () s') :
    s'.disk.now = s.disk.now ∧
      ∃ data, s'.disk.file? s'.seg.path = some { data := data, modTime := s.disk.now } := by
  obtain ⟨hd, t, ho, hname⟩ := h.onFile
  have hsz := h.size_eq
  rw [Segment.append_eq ho rfl (putUint64_length _) hfit hc (by unfold footerSize at *; omega)] at he
  cases he
  refine ⟨rfl, ?_⟩
  simp only [SegState.filed, hname]
  exact ⟨_, Disk.file?_put_self _ _ _⟩

/-- A new segment's file has the time at which it was made. -/
theorem addSegment_time {l : Segment} {d' : Disk} (hcalm : s.disk.script = [])
    (hfree : NextFree s.disk) (he : Queue.addSegment s = .ok s.next (s.added l d')) :
    d'.now = s.disk.now ∧ ∃ data, d'.file? l.path = some { data := data, modTime := s.disk.now } := by
  by_cases hblocked : s.Blocked
  · rw [addSegment_blocked hblocked] at he
    cases he
  · rw [addSegment_free hcalm hfree hblocked] at he
    injection he with _ hs
    have hdisk : s.newDisk = d' := congrArg QState.disk hs
    have hheap : Function.update s.heap s.next s.newSegment = Function.update s.heap s.next l :=
      congrArg QState.heap hs
    rw [← hdisk, ← Function.update_injective s.heap s.next hheap]
    exact ⟨rfl, _, Disk.file?_put_self _ _ _⟩

/-- The segment at the end takes the slice at this time, or is full. -/
theorem Good.append_last_time (h : Good s (cs ++ [c])) {b : Bytes} (hb : b ≠ [])
    (hroom : HH.Roomy (s.heap c.1) b) :
    (∃ t, Segment.append b { seg := s.heap c.1, disk := s.disk } = .ok () t ∧
      Good (s.put c.1 t) (cs ++ [(c.1, c.2.push b)]) ∧ (s.put c.1 t).disk.now = s.disk.now ∧
      Queue.lastModified (s.put c.1 t) = .ok s.disk.now (s.put c.1 t)) ∨
    ((s.heap c.1).maxSize < (s.heap c.1).size + b.length ∧
      Segment.append b { seg := s.heap c.1, disk := s.disk }
        = .error .segmentFull { seg := s.heap c.1, disk := s.disk }) := by
  rcases h.append_last hb hroom with ⟨t, he, hg⟩ | hfull
  · by_cases hfit : (s.heap c.1).size + b.length ≤ (s.heap c.1).maxSize
    · obtain ⟨hnow, data, hf⟩ := Segment.append_time
        (s := { seg := s.heap c.1, disk := s.disk }) (h.holds c (by simp)) hfit
        (Disk.calm_of_script_nil h.calm 4) (hroom hfit) he
      exact .inl ⟨t, he, hg, hnow, hg.lastModified_eq (by rw [put_heap_self]; exact hf)⟩
    · have hfull := Segment.append_full (s := { seg := s.heap c.1, disk := s.disk }) (b := b) ?_
        (by show (s.heap c.1).maxSize < (s.heap c.1).size + b.length; omega)
      · rw [he] at hfull
        cases hfull
      · obtain ⟨off, ho⟩ := (h.holds c (by simp)).handle
        rw [ho]
        exact Option.some_ne_none _
  · exact .inr hfull

/-- **An accepted write sets the time of the queue**; one that is refused does, or changes
    nothing. -/
theorem Good.append_time (h : Good s chain) {b : Bytes} (hb : b ≠ []) (hroom : s.Roomy b) :
    ∃ s' chain', Good s' chain' ∧ s'.disk.now = s.disk.now ∧
      ((Queue.append b s = .ok () s' ∧ Queue.lastModified s' = .ok s.disk.now s') ∨
        ∃ e, Queue.append b s = .error e s' ∧
          (s' = s ∨ Queue.lastModified s' = .ok s.disk.now s')) := by
  obtain ⟨cs, c, rfl, htail, hopen⟩ := h.exists_tail
  by_cases hq : s.usage + b.length ≤ s.q.maxSize
  · rcases h.append_last_time hb (hroom.1 c.1 htail) with ⟨t, he, hg, hnow, htime⟩ | ⟨hfull, -⟩
    · exact ⟨_, _, hg, hnow, .inl ⟨append_stored htail hq he, htime⟩⟩
    · rw [append_full htail hq hopen hfull]
      have hfree : NextFree s.disk := hroom.2.2 ⟨hq, c.1, htail, hfull⟩
      rcases h.addSegment hfree with ⟨l, d', ha, hg, hsize, hmax⟩ | ⟨e, ha⟩
      · obtain ⟨hnow, data, hf⟩ := addSegment_time h.calm hfree ha
        have hnew : (s.rolled l d').heap s.next = l := Function.update_self ..
        rw [append_rolled ha]
        rcases hg.append_last_time hb (hroom.rolled hsize hmax) with ⟨t, he, hg', hnow', htime'⟩ | ⟨-, he⟩
        · have hnow'' : (s.rolled l d').disk.now = s.disk.now := hnow
          rw [hnow''] at hnow' htime'
          exact ⟨_, _, hg', hnow', .inl ⟨call_ok he, htime'⟩⟩
        · refine ⟨_, _, hg, hnow, .inr ⟨.segmentFull, ?_, .inr ?_⟩⟩
          · rw [call_error he, QState.put, Function.update_eq_self]
          · exact hg.lastModified_eq (by rw [hnew]; exact hf)
      · exact ⟨s, _, h, rfl, .inr ⟨e, bind_error ha, .inl rfl⟩⟩
  · exact ⟨s, _, h, rfl, .inr ⟨.queueFull, append_queueFull htail (by omega), .inl rfl⟩⟩

end Time

/-! ## The system -/

/-- Where the pass is with the processor. -/
inductive Pass
  /-- No pass is under way; `s.mu` is free. -/
  | idle
  | begun
  /-- `LastModified` has returned the time. -/
  | looked (lm : Time)
  /-- The node is not active. -/
  | inactive (lm : Time)
  /-- The time is before the limit. -/
  | old
  | closed
  /-- The directory is removed, and the processor has left the map. -/
  | removed
  deriving DecidableEq

/-- The pass has closed the processor. -/
def Pass.Ended (pass : Pass) : Prop := pass = .closed ∨ pass = .removed

instance (pass : Pass) : Decidable pass.Ended := inferInstanceAs (Decidable (_ ∨ _))

/-- A processor, the calls of `Service.WriteShard` that have looked it up, and the pass; when the
    writes that it has were accepted, which of them since the pass read the time, and for those that
    were deleted, when they were accepted and deleted. -/
structure Site where
  n : NodeProcessor
  holders : Nat
  pass : Pass
  accepted : List Time
  late : List Time
  deleted : List (Time × Time)

/-- The wall clock. -/
def Site.now (s : Site) : Time := s.n.queue.disk.now

/-- The time goes on to `t`. -/
def Site.at (s : Site) (t : Time) : Site :=
  { s with n := { s.n with queue := { s.n.queue with disk := s.n.queue.disk.at t } } }

/-- A processor in the map that no call has looked up; it has writes that were accepted earlier. -/
def Site.start (n : NodeProcessor) (accepted : List Time) : Site :=
  { n := n, holders := 0, pass := .idle, accepted := accepted, late := [], deleted := [] }

/-- What the parties do. -/
inductive PurgeOp (Point : Type)
  | tick (t : Time)
  /-- `Service.WriteShard` finds the processor in the map. -/
  | lookup
  /-- A call that has found it calls its `WriteShard`. -/
  | write (shardID : UInt64) (points : List Point)
  | begin
  | lastModified
  | active (env : Env Point)
  | check
  | close
  /-- `Purge`, and the processor leaves the map. -/
  | purge

section System

variable {Point : Type} (c : PointCodec Point) (maxAge : Time)

/-- One step; `none` if the party is not there, waits for `s.mu`, or a block does not fit on the
    disk.  Where the code continues with the next processor, the pass is over for this one. -/
def PurgeOp.step (s : Site) : PurgeOp Point → Option Site
  | .tick t => if s.now ≤ t then some (s.at t) else none
  | .lookup => if s.pass = .idle then some { s with holders := s.holders + 1 } else none
  | .write shardID points =>
    if 0 < s.holders ∧ s.n.queue.Roomy (marshalWrite c shardID points) then
      match NodeProcessor.writeShard c shardID points s.n with
      | .ok _ n => some { s with
          n := n, holders := s.holders - 1, accepted := s.now :: s.accepted, late := s.now :: s.late }
      | .error _ n => some { s with n := n, holders := s.holders - 1 }
    else none
  | .begin => if s.pass = .idle then some { s with pass := .begun } else none
  | .lastModified =>
    match s.pass with
    | .begun =>
      match NodeProcessor.lastModified s.n with
      | .ok lm n => some { s with n := n, pass := .looked lm, late := [] }
      | .error _ n => some { s with n := n, pass := .idle }
    | _ => none
  | .active env =>
    match s.pass with
    | .looked lm =>
      match NodeProcessor.active env s.n with
      | .ok false n => some { s with n := n, pass := .inactive lm }
      | .ok true n | .error _ n => some { s with n := n, pass := .idle }
    | _ => none
  | .check =>
    match s.pass with
    -- `lm.Before(time.Now().Add(-MaxAge))`
    | .inactive lm => some { s with pass := if lm + maxAge < s.now then .old else .idle }
    | _ => none
  | .close =>
    match s.pass with
    | .old =>
      match NodeProcessor.close s.n with
      | .ok _ n => some { s with n := n, pass := .closed }
      | .error _ n => some { s with n := n, pass := .idle }
    | _ => none
  | .purge =>
    match s.pass with
    | .closed =>
      match NodeProcessor.purge s.n with
      | .ok _ n => some { s with
          n := n, pass := .removed, accepted := [], late := []
          deleted := s.deleted ++ s.accepted.map fun t => (t, s.now) }
      | .error _ n => some { s with n := n, pass := .idle }
    | _ => none

/-- The steps that are possible, branch by branch. -/
inductive PurgeOp.Does (s : Site) : PurgeOp Point → Site → Prop
  | tick {t : Time} (hle : s.now ≤ t) : Does s (.tick t) (s.at t)
  | lookup : Does s .lookup { s with holders := s.holders + 1 }
  | accepted {shardID : UInt64} {points : List Point} {n : NodeProcessor}
    (hroom : s.n.queue.Roomy (marshalWrite c shardID points))
    (hwrite : NodeProcessor.writeShard c shardID points s.n = .ok () n) :
    Does s (.write shardID points) { s with
      n := n, holders := s.holders - 1, accepted := s.now :: s.accepted, late := s.now :: s.late }
  | refused {shardID : UInt64} {points : List Point} {e : NErr} {n : NodeProcessor}
    (hroom : s.n.queue.Roomy (marshalWrite c shardID points))
    (hwrite : NodeProcessor.writeShard c shardID points s.n = .error e n) :
    Does s (.write shardID points) { s with n := n, holders := s.holders - 1 }
  | begin (hpass : s.pass = .idle) : Does s .begin { s with pass := .begun }
  | looked {lm : Time} {n : NodeProcessor} (hpass : s.pass = .begun)
    (hread : NodeProcessor.lastModified s.n = .ok lm n) :
    Does s .lastModified { s with n := n, pass := .looked lm, late := [] }
  | unread {e : NErr} {n : NodeProcessor} (hpass : s.pass = .begun)
    (hread : NodeProcessor.lastModified s.n = .error e n) :
    Does s .lastModified { s with n := n, pass := .idle }
  | inactive {env : Env Point} {lm : Time} {n : NodeProcessor} (hpass : s.pass = .looked lm)
    (hactive : NodeProcessor.active env s.n = .ok false n) :
    Does s (.active env) { s with n := n, pass := .inactive lm }
  | active {env : Env Point} {lm : Time} {n : NodeProcessor} (hpass : s.pass = .looked lm)
    (hactive : NodeProcessor.active env s.n = .ok true n
      ∨ ∃ e, NodeProcessor.active env s.n = .error e n) :
    Does s (.active env) { s with n := n, pass := .idle }
  | check {lm : Time} (hpass : s.pass = .inactive lm) :
    Does s .check { s with pass := if lm + maxAge < s.now then .old else .idle }
  | closed {n : NodeProcessor} (hpass : s.pass = .old)
    (hclose : NodeProcessor.close s.n = .ok () n) : Does s .close { s with n := n, pass := .closed }
  | unclosed {e : NErr} {n : NodeProcessor} (hpass : s.pass = .old)
    (hclose : NodeProcessor.close s.n = .error e n) : Does s .close { s with n := n, pass := .idle }
  | removed {n : NodeProcessor} (hpass : s.pass = .closed)
    (hpurge : NodeProcessor.purge s.n = .ok () n) :
    Does s .purge { s with
      n := n, pass := .removed, accepted := [], late := []
      deleted := s.deleted ++ s.accepted.map fun t => (t, s.now) }
  | unremoved {e : NErr} {n : NodeProcessor} (hpass : s.pass = .closed)
    (hpurge : NodeProcessor.purge s.n = .error e n) : Does s .purge { s with n := n, pass := .idle }

/-- **Every step is one of these.** -/
theorem PurgeOp.does_of_step {s s' : Site} {op : PurgeOp Point}
    (h : op.step c maxAge s = some s') : PurgeOp.Does c maxAge s op s' := by
  unfold PurgeOp.step at h
  cases op with
  | tick t =>
    obtain ⟨hle, h⟩ := Option.ite_none_right_eq_some.mp h
    cases h
    exact .tick hle
  | lookup =>
    obtain ⟨-, h⟩ := Option.ite_none_right_eq_some.mp h
    cases h
    exact .lookup
  | write shardID points =>
    obtain ⟨⟨-, hroom⟩, h⟩ := Option.ite_none_right_eq_some.mp h
    rcases hwrite : NodeProcessor.writeShard c shardID points s.n with ⟨_, n⟩ | ⟨e, n⟩
    · rw [hwrite] at h
      cases h
      exact .accepted hroom hwrite
    · rw [hwrite] at h
      cases h
      exact .refused hroom hwrite
  | begin =>
    obtain ⟨hpass, h⟩ := Option.ite_none_right_eq_some.mp h
    cases h
    exact .begin hpass
  | lastModified =>
    dsimp only at h
    split at h
    · rename_i hpass
      rcases hread : NodeProcessor.lastModified s.n with ⟨lm, n⟩ | ⟨e, n⟩
      · rw [hread] at h
        cases h
        exact .looked hpass hread
      · rw [hread] at h
        cases h
        exact .unread hpass hread
    · cases h
  | active env =>
    dsimp only at h
    split at h
    · rename_i hpass
      rcases hactive : NodeProcessor.active env s.n with ⟨_ | _, n⟩ | ⟨e, n⟩
      · rw [hactive] at h
        cases h
        exact .inactive hpass hactive
      · rw [hactive] at h
        cases h
        exact .active hpass (Or.inl hactive)
      · rw [hactive] at h
        cases h
        exact .active hpass (Or.inr ⟨e, hactive⟩)
    · cases h
  | check =>
    dsimp only at h
    split at h
    · rename_i hpass
      cases h
      exact .check hpass
    · cases h
  | close =>
    dsimp only at h
    split at h
    · rename_i hpass
      rcases hclose : NodeProcessor.close s.n with ⟨_, n⟩ | ⟨e, n⟩
      · rw [hclose] at h
        cases h
        exact .closed hpass hclose
      · rw [hclose] at h
        cases h
        exact .unclosed hpass hclose
    · cases h
  | purge =>
    dsimp only at h
    split at h
    · rename_i hpass
      rcases hpurge : NodeProcessor.purge s.n with ⟨_, n⟩ | ⟨e, n⟩
      · rw [hpurge] at h
        cases h
        exact .removed hpass hpurge
      · rw [hpurge] at h
        cases h
        exact .unremoved hpass hpurge
    · cases h

/-- **Nothing fresh is deleted**: every write that a pass deleted was accepted `MaxAge` before. -/
def Site.NothingFreshDeleted (s : Site) : Prop := ∀ w ∈ s.deleted, w.1 + maxAge ≤ w.2

/-- When the directory is removed, what was accepted since the pass read the time is old as well. -/
def PurgeOp.InTime (s : Site) : PurgeOp Point → Prop
  | .purge => ∀ t ∈ s.late, t + maxAge ≤ s.now
  | _ => True

/-- The pass has read the time, and has not closed the processor. -/
def Pass.Reading : Pass → Prop
  | .looked _ | .inactive _ | .old => True
  | .idle | .begun | .closed | .removed => False

/-- No call writes while the pass goes by a time that it has read. -/
def PurgeOp.Quiet (s : Site) : PurgeOp Point → Prop
  | .write _ _ => ¬ s.pass.Reading
  | _ => True

/-- Nothing fresh is deleted at any moment of the run. -/
def NeverFresh (s : Site) (ops : List (PurgeOp Point)) : Prop :=
  ∀ k s', (ops.take k).foldlM (PurgeOp.step c maxAge) s = some s' → s'.NothingFreshDeleted maxAge

/-! ## The invariant -/

/-- **A queue in use whose time is not before any write** that it accepted, and not in the
    future. -/
def Stamped (q : QState) (accepted : List Time) : Prop :=
  ∃ chain lm, Good q chain ∧ Queue.lastModified q = .ok lm q ∧ (∀ t ∈ accepted, t ≤ lm) ∧
    lm ≤ q.disk.now

/-- What the pass knows about a write that was there when it read the time. -/
def Pass.Aged (now t : Time) : Pass → Prop
  | .looked lm | .inactive lm => t ≤ lm
  | .old | .closed => t + maxAge ≤ now
  | .idle | .begun | .removed => True

structure Kept (s : Site) : Prop where
  inUse : ¬ s.pass.Ended → s.n.done = true ∧ Stamped s.n.queue s.accepted
  ended : s.pass.Ended → s.n.done = false
  late : ∀ t ∈ s.late, t ∈ s.accepted
  aged : ∀ t ∈ s.accepted, t ∈ s.late ∨ s.pass.Aged maxAge s.now t

variable {c maxAge} {s s' : Site}

theorem Stamped.tick {q : QState} {accepted : List Time} (h : Stamped q accepted) {t : Time}
    (ht : q.disk.now ≤ t) : Stamped { q with disk := q.disk.at t } accepted := by
  obtain ⟨chain, lm, hgood, hlm, haccepted, hnow⟩ := h
  exact ⟨chain, lm, hgood.tick t, hgood.lastModified_tick hlm t, haccepted, Nat.le_trans hnow ht⟩

/-- What is known stays known as time goes on. -/
theorem Pass.Aged.mono {now now' t : Time} {pass : Pass} (h : pass.Aged maxAge now t)
    (hle : now ≤ now') : pass.Aged maxAge now' t := by
  cases pass with
  | old | closed => exact Nat.le_trans h hle
  | looked lm | inactive lm => exact h
  | idle | begun | removed => trivial

/-- `WriteShard` of a processor in use is accepted and sets the time, or is refused. -/
theorem writeShard_stamped {n : NodeProcessor} {accepted : List Time} (hdone : n.done = true)
    (h : Stamped n.queue accepted) {shardID : UInt64} {points : List Point}
    (hroom : n.queue.Roomy (marshalWrite c shardID points)) :
    ∃ q, q.disk.now = n.queue.disk.now ∧
      ((NodeProcessor.writeShard c shardID points n = .ok () { n with queue := q } ∧
          Stamped q (n.queue.disk.now :: accepted)) ∨
        ∃ e, NodeProcessor.writeShard c shardID points n = .error e { n with queue := q } ∧
          Stamped q accepted) := by
  obtain ⟨chain, lm, hgood, hlm, haccepted, hnow⟩ := h
  have hopen : ¬ n.done = false := by
    rw [hdone]
    exact Bool.noConfusion
  have hwrite : NodeProcessor.writeShard c shardID points n
      = NodeProcessor.call (Queue.append (marshalWrite c shardID points)) n := by
    rw [NodeProcessor.writeShard, bind_ok (NodeProcessor.self_eq _), if_neg hopen]
  rw [hwrite, NodeProcessor.call]
  obtain ⟨q, chain', hgood', hnow', ⟨happend, htime⟩ | ⟨e, happend, hsame⟩⟩ :=
    hgood.append_time (marshalWrite_ne_nil c shardID points) hroom
  · rw [happend]
    refine ⟨q, hnow', .inl ⟨rfl, chain', _, hgood', htime, ?_, ?_⟩⟩
    · intro t ht
      rcases List.mem_cons.mp ht with rfl | ht
      · exact Nat.le_refl _
      · exact Nat.le_trans (haccepted t ht) hnow
    · exact Nat.le_of_eq hnow'.symm
  · rw [happend]
    refine ⟨q, hnow', .inr ⟨_, rfl, ?_⟩⟩
    rcases hsame with rfl | htime
    · exact ⟨chain, lm, hgood, hlm, haccepted, hnow⟩
    · exact ⟨chain', _, hgood', htime, fun t ht => Nat.le_trans (haccepted t ht) hnow,
        Nat.le_of_eq hnow'.symm⟩

/-- `WriteShard` of a processor that is closed is refused. -/
theorem writeShard_closed {n : NodeProcessor} (hdone : n.done = false) {shardID : UInt64}
    {points : List Point} : NodeProcessor.writeShard c shardID points n = .error .closed n := by
  rw [NodeProcessor.writeShard, bind_ok (NodeProcessor.self_eq _), if_pos hdone]
  rfl

/-- A write is accepted, by a processor that is in use. -/
theorem Kept.accepted (hs : Kept maxAge s) {shardID : UInt64} {points : List Point}
    {n : NodeProcessor} (hroom : s.n.queue.Roomy (marshalWrite c shardID points))
    (hwrite : NodeProcessor.writeShard c shardID points s.n = .ok () n) :
    ¬ s.pass.Ended ∧ Kept maxAge { s with
      n := n, holders := s.holders - 1, accepted := s.now :: s.accepted, late := s.now :: s.late } := by
  have hnot : ¬ s.pass.Ended := by
    intro hended
    rw [writeShard_closed (hs.ended hended)] at hwrite
    cases hwrite
  obtain ⟨hdone, hstamped⟩ := hs.inUse hnot
  obtain ⟨q, hnow, ⟨hok, hstamped'⟩ | ⟨e, herr, -⟩⟩ := writeShard_stamped hdone hstamped hroom
  · rw [hok] at hwrite
    cases hwrite
    refine ⟨hnot, fun _ => ⟨hdone, hstamped'⟩, fun h => absurd h hnot, fun t ht => ?_,
      fun t ht => ?_⟩
    · rcases List.mem_cons.mp ht with rfl | ht
      · exact List.mem_cons_self
      · exact List.mem_cons_of_mem _ (hs.late t ht)
    · rcases List.mem_cons.mp ht with rfl | ht
      · exact .inl List.mem_cons_self
      · rcases hs.aged t ht with hlate | haged
        · exact .inl (List.mem_cons_of_mem _ hlate)
        · exact .inr (haged.mono (Nat.le_of_eq hnow.symm))
  · rw [herr] at hwrite
    cases hwrite

/-- A write is refused: the processor is closed, or has no room. -/
theorem Kept.refused (hs : Kept maxAge s) {shardID : UInt64} {points : List Point} {e : NErr}
    {n : NodeProcessor} (hroom : s.n.queue.Roomy (marshalWrite c shardID points))
    (hwrite : NodeProcessor.writeShard c shardID points s.n = .error e n) :
    Kept maxAge { s with n := n, holders := s.holders - 1 } := by
  by_cases hended : s.pass.Ended
  · rw [writeShard_closed (hs.ended hended)] at hwrite
    cases hwrite
    exact ⟨hs.inUse, hs.ended, hs.late, hs.aged⟩
  · obtain ⟨hdone, hstamped⟩ := hs.inUse hended
    obtain ⟨q, hnow, ⟨hok, -⟩ | ⟨e, herr, hstamped'⟩⟩ := writeShard_stamped hdone hstamped hroom
    · rw [hok] at hwrite
      cases hwrite
    · rw [herr] at hwrite
      cases hwrite
      refine ⟨fun _ => ⟨hdone, hstamped'⟩, fun h => absurd h hended, hs.late, fun t ht => ?_⟩
      exact (hs.aged t ht).imp_right fun haged => haged.mono (Nat.le_of_eq hnow.symm)

/-- The pass goes on without closing the processor. -/
theorem Kept.goto (hs : Kept maxAge s) (h : ¬ s.pass.Ended) {pass : Pass} (h' : ¬ pass.Ended)
    (haged : ∀ t ∈ s.accepted, t ∈ s.late ∨ pass.Aged maxAge s.now t) :
    Kept maxAge { s with pass := pass } :=
  ⟨fun _ => hs.inUse h, fun hended => absurd hended h', hs.late, haged⟩

/-- The pass is over for this processor. -/
theorem Kept.giveUp (hs : Kept maxAge s) (h : ¬ s.pass.Ended) :
    Kept maxAge { s with pass := .idle } :=
  hs.goto h (by decide) fun _ _ => .inr trivial

theorem not_ended_of_eq {pass : Pass} (h : s.pass = pass) (hpass : ¬ pass.Ended) : ¬ s.pass.Ended :=
  h ▸ hpass

/-- `LastModified` of a processor in use. -/
theorem Kept.lastModified (hs : Kept maxAge s) (hpass : s.pass = .begun) :
    ∃ lm, NodeProcessor.lastModified s.n = .ok lm s.n ∧
      Kept maxAge { s with pass := .looked lm, late := [] } := by
  obtain ⟨hdone, chain, lm, hgood, hlm, haccepted, hnow⟩ :=
    hs.inUse (not_ended_of_eq hpass (by decide))
  refine ⟨lm, ?_, fun _ => ⟨hdone, chain, lm, hgood, hlm, haccepted, hnow⟩, ?_,
    fun t ht => absurd ht List.not_mem_nil, fun t ht => .inr (haccepted t ht)⟩
  · rw [NodeProcessor.lastModified, NodeProcessor.call, hlm]
  · rintro (hended | hended) <;> cases hended

/-- `Active` leaves the processor alone. -/
theorem active_state {n n' : NodeProcessor} {env : Env Point} {b : Bool}
    (h : NodeProcessor.active env n = .ok b n' ∨ ∃ e, NodeProcessor.active env n = .error e n') :
    n' = n := by
  have hactive : NodeProcessor.active env n = NodeProcessor.answer (env.dataNode n.nodeID) n := rfl
  rw [hactive] at h
  cases hd : env.dataNode n.nodeID with
  | error e =>
    rw [hd] at h
    rcases h with h | ⟨e, h⟩ <;> cases h
    rfl
  | ok b =>
    rw [hd] at h
    rcases h with h | ⟨e, h⟩ <;> cases h
    rfl

theorem Kept.check (hs : Kept maxAge s) {lm : Time} (hpass : s.pass = .inactive lm) :
    Kept maxAge { s with pass := if lm + maxAge < s.now then .old else .idle } := by
  have hnot : ¬ s.pass.Ended := not_ended_of_eq hpass (by rintro (h | h) <;> cases h)
  have haged := hs.aged
  rw [hpass] at haged
  by_cases hold : lm + maxAge < s.now
  · rw [if_pos hold]
    refine hs.goto hnot (by decide) fun t ht => ?_
    rcases haged t ht with hlate | hle
    · exact .inl hlate
    · exact .inr (Nat.le_trans (Nat.add_le_add_right hle maxAge) (Nat.le_of_lt hold))
  · rw [if_neg hold]
    exact hs.giveUp hnot

/-- `Close` of a processor in use. -/
theorem Kept.close (hs : Kept maxAge s) (hpass : s.pass = .old) :
    ∃ n, NodeProcessor.close s.n = .ok () n ∧ Kept maxAge { s with n := n, pass := .closed } := by
  obtain ⟨hdone, chain, lm, hgood, -⟩ := hs.inUse (not_ended_of_eq hpass (by decide))
  obtain ⟨q, hclose, hdisk, -⟩ := close_good hgood
  have haged := hs.aged
  rw [hpass] at haged
  refine ⟨{ s.n with done := false, queue := q }, ?_, fun h => absurd (.inl rfl) h, fun _ => rfl,
    hs.late, fun t ht => (haged t ht).imp_right fun h => ?_⟩
  · rw [NodeProcessor.close, bind_ok (NodeProcessor.self_eq _), if_pos hdone]
    show NodeProcessor.call Queue.close { s.n with done := false } = _
    rw [NodeProcessor.call, hclose]
  · have h : t + maxAge ≤ s.n.queue.disk.now := h
    rw [← hdisk] at h
    exact h

/-- `Purge` of a processor that is closed. -/
theorem Kept.purge_ok (hs : Kept maxAge s) (hpass : s.pass = .closed) :
    NodeProcessor.purge s.n = .ok () { s.n with
      queue := { s.n.queue with disk := s.n.queue.disk.removeAll } } := by
  have hclosed : ¬ s.n.done = true := by
    rw [hs.ended (.inl hpass)]
    exact Bool.noConfusion
  rw [NodeProcessor.purge, bind_ok (NodeProcessor.self_eq _), if_neg hclosed]
  rfl

/-- **The removal deletes nothing fresh exactly if it is in time.** -/
theorem Kept.removed_iff (hs : Kept maxAge s) (hpass : s.pass = .closed)
    (hbefore : s.NothingFreshDeleted maxAge) :
    (∀ w ∈ s.deleted ++ s.accepted.map fun t => (t, s.now), w.1 + maxAge ≤ w.2)
      ↔ ∀ t ∈ s.late, t + maxAge ≤ s.now := by
  constructor
  · intro h t ht
    exact h (t, s.now) (List.mem_append_right _ (List.mem_map_of_mem (hs.late t ht)))
  · intro h w hw
    rcases List.mem_append.mp hw with hw | hw
    · exact hbefore w hw
    · obtain ⟨t, ht, rfl⟩ := List.mem_map.mp hw
      -- it was there when the pass read the time, or came later
      rcases hs.aged t ht with hlate | haged
      · exact h t hlate
      · rw [hpass] at haged
        exact haged

/-- **Every step keeps it.** -/
theorem Kept.does (hs : Kept maxAge s) {op : PurgeOp Point} (h : PurgeOp.Does c maxAge s op s') :
    Kept maxAge s' := by
  cases h with
  | tick hle =>
    refine ⟨fun h => ?_, hs.ended, hs.late, fun t' ht' => ?_⟩
    · obtain ⟨hdone, hstamped⟩ := hs.inUse h
      exact ⟨hdone, hstamped.tick hle⟩
    · exact (hs.aged t' ht').imp_right fun haged => haged.mono hle
  | lookup => exact ⟨hs.inUse, hs.ended, hs.late, hs.aged⟩
  | accepted hroom hwrite => exact (hs.accepted hroom hwrite).2
  | refused hroom hwrite => exact hs.refused hroom hwrite
  | begin hpass =>
    exact hs.goto (not_ended_of_eq hpass (by decide)) (by decide) fun _ _ => .inr trivial
  | looked hpass hread =>
    obtain ⟨lm, hok, hkept⟩ := hs.lastModified hpass
    rw [hok] at hread
    cases hread
    exact hkept
  | unread hpass hread =>
    obtain ⟨lm, hok, -⟩ := hs.lastModified hpass
    rw [hok] at hread
    cases hread
  | inactive hpass hactive =>
    rename_i lm n
    cases active_state (.inl hactive)
    have haged := hs.aged
    rw [hpass] at haged
    refine hs.goto (not_ended_of_eq hpass ?_) ?_ haged
    · rintro (h | h) <;> cases h
    · rintro (h | h) <;> cases h
  | active hpass hactive =>
    cases active_state hactive
    exact hs.giveUp (not_ended_of_eq hpass (by rintro (h | h) <;> cases h))
  | check hpass => exact hs.check hpass
  | closed hpass hclose =>
    obtain ⟨n, hok, hkept⟩ := hs.close hpass
    rw [hok] at hclose
    cases hclose
    exact hkept
  | unclosed hpass hclose =>
    obtain ⟨n, hok, -⟩ := hs.close hpass
    rw [hok] at hclose
    cases hclose
  | removed hpass hpurge =>
    rw [hs.purge_ok hpass] at hpurge
    cases hpurge
    exact ⟨fun h => absurd (.inr rfl) h, fun _ => hs.ended (.inl hpass),
      fun t ht => absurd ht List.not_mem_nil, fun t ht => absurd ht List.not_mem_nil⟩
  | unremoved hpass hpurge =>
    rw [hs.purge_ok hpass] at hpurge
    cases hpurge

/-- **What one step does.** -/
theorem Kept.step (hs : Kept maxAge s) {op : PurgeOp Point} (hstep : op.step c maxAge s = some s') :
    Kept maxAge s' ∧ (s.NothingFreshDeleted maxAge →
      (s'.NothingFreshDeleted maxAge ↔ op.InTime maxAge s)) := by
  have hdoes := PurgeOp.does_of_step c maxAge hstep
  refine ⟨hs.does hdoes, fun hbefore => ?_⟩
  cases hdoes with
  | removed hpass hpurge => exact hs.removed_iff hpass hbefore
  | unremoved hpass hpurge =>
    rw [hs.purge_ok hpass] at hpurge
    cases hpurge
  | _ => exact iff_true_intro hbefore

/-- Without a write in between, nothing is late when the pass closes the processor. -/
theorem Kept.quiet_step (hs : Kept maxAge s)
    (hlate : s.pass.Reading ∨ s.pass = .closed → s.late = []) {op : PurgeOp Point}
    (hquiet : op.Quiet s) (hstep : op.step c maxAge s = some s') :
    s'.pass.Reading ∨ s'.pass = .closed → s'.late = [] := by
  cases PurgeOp.does_of_step c maxAge hstep with
  | tick hle => exact hlate
  | lookup => exact hlate
  | accepted hroom hwrite =>
    -- then the pass has not read the time either
    have hnot := (hs.accepted hroom hwrite).1
    rintro (h | h)
    · exact absurd h hquiet
    · exact absurd (.inl h) hnot
  | refused hroom hwrite => exact hlate
  | begin hpass => rintro (h | h) <;> cases h
  | looked hpass hread => exact fun _ => rfl
  | unread hpass hread => rintro (h | h) <;> cases h
  | inactive hpass hactive => exact fun _ => hlate (.inl (by rw [hpass]; trivial))
  | active hpass hactive => rintro (h | h) <;> cases h
  | check hpass => exact fun _ => hlate (.inl (by rw [hpass]; trivial))
  | closed hpass hclose => exact fun _ => hlate (.inl (by rw [hpass]; trivial))
  | unclosed hpass hclose => rintro (h | h) <;> cases h
  | removed hpass hpurge => exact fun _ => rfl
  | unremoved hpass hpurge => rintro (h | h) <;> cases h

/-- A quiet run is in time. -/
theorem Kept.inTime_of_quiet (hs : Kept maxAge s)
    (hlate : s.pass.Reading ∨ s.pass = .closed → s.late = []) {ops : List (PurgeOp Point)}
    (hquiet : Along (PurgeOp.step c maxAge) (fun s op => op.Quiet s) s ops) :
    Along (PurgeOp.step c maxAge)
      (fun s op => (PurgeOp.step c maxAge s op).isSome → op.InTime maxAge s) s ops := by
  induction ops generalizing s with
  | nil => trivial
  | cons op ops ih =>
    obtain ⟨hop, hrest⟩ := hquiet
    refine ⟨fun hsome => ?_, fun s' hstep => ?_⟩
    · cases op with
      | purge =>
        rw [PurgeOp.step] at hsome
        rcases hpass : s.pass with _ | _ | _ | _ | _ | _ | _ <;> rw [hpass] at hsome <;>
          try cases hsome
        show ∀ t ∈ s.late, _
        rw [hlate (.inr hpass)]
        exact fun t ht => absurd ht List.not_mem_nil
      | _ => trivial
    · exact ih (hs.step hstep).1 (hs.quiet_step hlate hop hstep) (hrest s' hstep)

/-- **A pass deletes nothing fresh exactly if what was accepted since it read the time is old too**,
    in every interleaving of the pass with `WriteShard`, on a processor in use.  So it does if no
    call writes between the two. -/
theorem nothing_fresh_deleted_iff {n : NodeProcessor} {accepted : List Time} (hdone : n.done = true)
    (hstamped : Stamped n.queue accepted) (ops : List (PurgeOp Point)) :
    (NeverFresh c maxAge (Site.start n accepted) ops
      ↔ Along (PurgeOp.step c maxAge)
          (fun s op => (PurgeOp.step c maxAge s op).isSome → op.InTime maxAge s)
          (Site.start n accepted) ops) ∧
    (Along (PurgeOp.step c maxAge) (fun s op => op.Quiet s) (Site.start n accepted) ops →
      NeverFresh c maxAge (Site.start n accepted) ops) := by
  have hkept : Kept maxAge (Site.start n accepted) := by
    refine ⟨fun _ => ⟨hdone, hstamped⟩, fun hended => ?_, fun t ht => absurd ht List.not_mem_nil,
      fun _ _ => .inr trivial⟩
    rcases hended with hended | hended <;> cases hended
  have hexact : NeverFresh c maxAge (Site.start n accepted) ops ↔ _ :=
    foldlM_take_inv_iff (J := Kept maxAge) (fun s op s' hs hstep => (hs.step hstep).1)
      (fun s op s' hs hbefore hstep => (hs.step hstep).2 hbefore) ops hkept
      fun w hw => absurd hw List.not_mem_nil
  exact ⟨hexact, fun hquiet => hexact.mpr (hkept.inTime_of_quiet (fun _ => rfl) hquiet)⟩

end System

/-- A node that is not there. -/
def missingNode : Env Unit := { dataNode := fun _ => .ok false, writeShard := fun _ _ _ => .ok () }

/-- A processor that was opened on an empty directory. -/
def emptyProcessor : NodeProcessor := { nodeID := 1, done := true, queue := emptyQueue }

theorem emptyProcessor_stamped : Stamped emptyProcessor.queue [] := by
  obtain ⟨chain, hgood⟩ := emptyQueue_opened.good
  have hlm : Queue.lastModified emptyQueue = .ok 0 (final (Queue.lastModified emptyQueue)) :=
    eq_ok_of_returned (by decide +kernel)
  obtain ⟨t, ht⟩ := hgood.exists_lastModified
  have hzero : t = 0 := by
    rw [ht] at hlm
    injection hlm
  exact ⟨chain, t, hgood, ht, fun t ht => absurd ht List.not_mem_nil, Nat.le_of_eq hzero⟩

/-- Two calls look the processor up.  One writes; a thousand nanoseconds later the other one writes,
    after the pass has read the time. -/
def writeInBetween : List (PurgeOp Unit) :=
  [.lookup, .lookup, .write 7 [()], .tick 1000, .begin, .lastModified, .active missingNode,
    .write 8 [()], .check, .close, .purge]

theorem nothing_fresh_deleted_empty : emptyProcessor.done = true ∧ Stamped emptyProcessor.queue [] ∧
    ((NeverFresh tally 100 (Site.start emptyProcessor []) writeInBetween
      ↔ Along (PurgeOp.step tally 100)
          (fun s op => (PurgeOp.step tally 100 s op).isSome → op.InTime 100 s)
          (Site.start emptyProcessor []) writeInBetween) ∧
    (Along (PurgeOp.step tally 100) (fun s op => op.Quiet s) (Site.start emptyProcessor [])
        writeInBetween →
      NeverFresh tally 100 (Site.start emptyProcessor []) writeInBetween)) :=
  ⟨rfl, emptyProcessor_stamped, nothing_fresh_deleted_iff rfl emptyProcessor_stamped writeInBetween⟩

/-- **With a `MaxAge` of a hundred, a write is deleted at the moment at which it was accepted.** -/
theorem fresh_write_deleted :
    (writeInBetween.foldlM (PurgeOp.step tally 100) (Site.start emptyProcessor [])).map Site.deleted
        = some [(1000, 1000), (0, 1000)] ∧
      ¬ NeverFresh tally 100 (Site.start emptyProcessor []) writeInBetween := by
  have hrun : (writeInBetween.foldlM (PurgeOp.step tally 100)
      (Site.start emptyProcessor [])).map Site.deleted = some [(1000, 1000), (0, 1000)] := by
    decide +kernel
  refine ⟨hrun, fun hnever => ?_⟩
  obtain ⟨s, hs, hdeleted⟩ := Option.map_eq_some_iff.mp hrun
  have hold := hnever 11 s hs (1000, 1000) (by rw [hdeleted]; exact List.mem_cons_self)
  exact absurd hold (by decide)

end InfluxCluster.HH
