/-
  The queue while nothing fails.

  `Good s chain` is the invariant of a queue in use: it holds the chain with every segment `Clean`,
  nothing is scripted to fail, and the segment files in the directory are exactly those of the
  chain.  Each method keeps it and is one move of the abstract queue:

      append             pushLast, with a roll before it if the tail is full; or an error
      current            the first item of the first log, `io.EOF` if it has none
      advance            Chain.advance
      setMaxSegmentSize  nothing, or a roll

  An `append` that is refused can still have rolled over: the new segment is made BEFORE the slice
  is tried on it, and it stays when the slice is too long even for an empty segment.
-/
import InfluxCluster.HH.QueueSpec
import InfluxCluster.HH.SegmentRun

namespace InfluxCluster.HH

open InfluxCluster.Lib

/-- The segment files in the directory are those of the chain. -/
structure Tidy (s : QState) (chain : List (Ptr × Log Bytes)) : Prop where
  owned : ∀ name f, s.disk.file? name = some f → parseUint name ≠ none →
    ∃ c ∈ chain, (s.heap c.1).path = name
  numeric : ∀ c ∈ chain, parseUint (s.heap c.1).path ≠ none

/-- **The invariant of a queue in use**, while nothing fails. -/
structure Good (s : QState) (chain : List (Ptr × Log Bytes)) : Prop extends
    Rep Clean s chain, Tidy s chain where
  calm : s.disk.script = []
  nonempty : chain ≠ []

/-- `Append(b)` passes the limit of the queue and finds the tail full. -/
def RollsOver (s : QState) (b : Bytes) : Prop :=
  s.usage + b.length ≤ s.q.maxSize ∧
  ∃ p ∈ s.q.tail, (s.heap p).maxSize < (s.heap p).size + b.length

instance (s : QState) (b : Bytes) : Decidable (RollsOver s b) := inferInstanceAs (Decidable (_ ∧ _))

/-- **There is room for the slice**: what passes a limit ends below the largest offset, in the tail
    and in a new segment, and there is a free name for the new segment of an `Append` that rolls
    over.  A name that is taken counts as a fault of the call that meets it, like a file that is too
    large. -/
def QState.Roomy (s : QState) (b : Bytes) : Prop :=
  (∀ p ∈ s.q.tail, HH.Roomy (s.heap p) b) ∧
  (footerSize + b.length ≤ s.q.maxSegmentSize → footerSize + b.length + 8 ≤ maxOffset) ∧
  (RollsOver s b → NextFree s.disk)

instance (s : QState) (b : Bytes) : Decidable (s.Roomy b) := inferInstanceAs (Decidable (_ ∧ _))

/-- Then there is room for it in the new segment. -/
theorem QState.Roomy.rolled {s : QState} {b : Bytes} (h : s.Roomy b) {l : Segment} {d : Disk}
    (hsize : l.size = footerSize) (hmax : l.maxSize = s.q.maxSegmentSize) :
    HH.Roomy ((s.rolled l d).heap s.next) b := by
  rw [show (s.rolled l d).heap s.next = l from Function.update_self .., HH.Roomy, hsize, hmax]
  intro hle
  have := h.2.1 hle
  omega

/-- There is a free name for the new segment of a `SetMaxSegmentSize(size)` that finds the tail at
    its new limit. -/
def QState.Resizable (s : QState) (size : Int) : Prop :=
  (∃ p ∈ s.q.tail, size ≤ (s.heap p).size) → NextFree s.disk

instance (s : QState) (size : Int) : Decidable (s.Resizable size) :=
  inferInstanceAs (Decidable (_ → _))

section Tidy

variable {s : QState} {cs ds : List (Ptr × Log Bytes)} {c : Ptr × Log Bytes}

theorem Tidy.update (h : Tidy s (cs ++ c :: ds)) (hl : Linked Clean s (cs ++ c :: ds))
    {t : SegState} {log : Log Bytes} (hf : Frame { seg := s.heap c.1, disk := s.disk } t) :
    Tidy (s.put c.1 t) (cs ++ (c.1, log) :: ds) := by
  have hpath := put_path hf
  have hmem : ∀ p, (∃ x ∈ cs ++ (c.1, log) :: ds, x.1 = p) ↔ ∃ x ∈ cs ++ c :: ds, x.1 = p := by
    intro p
    simp [or_and_right, exists_or]
  refine ⟨?_, ?_⟩
  · intro name f hfile hnum
    have hold : ∃ g, s.disk.file? name = some g := by
      by_cases hn : name = (s.heap c.1).path
      · obtain ⟨u, hu⟩ := (hl.holds c (by simp)).stored
        exact ⟨_, by rw [hn]; exact hu⟩
      · exact ⟨f, by rw [← hfile]; exact (Disk.file?_congr (hf.others name hn)).symm⟩
    obtain ⟨g, hg⟩ := hold
    obtain ⟨x, hx, hxp⟩ := h.owned name g hg hnum
    obtain ⟨y, hy, hyx⟩ := (hmem x.1).mpr ⟨x, hx, rfl⟩
    exact ⟨y, hy, by rw [hpath, hyx, hxp]⟩
  · intro x hx
    obtain ⟨y, hy, hyx⟩ := (hmem x.1).mp ⟨x, hx, rfl⟩
    rw [hpath, ← hyx]
    exact h.numeric y hy

theorem Tidy.rolled (h : Tidy s cs) (hl : Linked Clean s cs) {l : Segment} {d' : Disk}
    (hp : l.path = nextPath s.disk) (he : Elsewhere (nextPath s.disk) s.disk d') :
    Tidy (s.rolled l d') (cs ++ [(s.next, Log.empty)]) := by
  have hheap : ∀ c ∈ cs, (s.rolled l d').heap c.1 = s.heap c.1 := fun c hc =>
    Function.update_of_ne (Nat.ne_of_lt (hl.fresh c hc)) ..
  have hnew : (s.rolled l d').heap s.next = l := Function.update_self ..
  refine ⟨?_, ?_⟩
  · intro name f hfile hnum
    by_cases hn : name = nextPath s.disk
    · exact ⟨(s.next, Log.empty), by simp, by rw [hnew, hp, hn]⟩
    · have hold : s.disk.file? name = some f := by
        rw [← hfile]; exact (Disk.file?_congr (he.others name hn)).symm
      obtain ⟨x, hx, hxp⟩ := h.owned name f hold hnum
      exact ⟨x, List.mem_append_left _ hx, by rw [hheap x hx, hxp]⟩
  · intro x hx
    rcases List.mem_append.mp hx with hx | hx
    · rw [hheap x hx]; exact h.numeric x hx
    · rw [List.mem_singleton.mp hx, hnew, hp]
      exact numeric_nextPath s.disk

theorem Tidy.trimmed (h : Tidy s (c :: cs)) (hl : Linked Clean s (c :: cs)) :
    Tidy (s.trimmed c.1) cs := by
  have hrest : Linked Clean s ([c] ++ cs) := hl
  have hheap : ∀ x ∈ cs, (s.trimmed c.1).heap x.1 = s.heap x.1 := fun x hx =>
    Function.update_of_ne
      (fun he => hrest.disjoint List.mem_cons_self hx (by rw [he])) ..
  refine ⟨?_, ?_⟩
  · intro name f hfile hnum
    have hne : name ≠ (s.heap c.1).path := by
      rintro rfl
      rw [show (s.trimmed c.1).disk = s.disk.remove (s.heap c.1).path from rfl,
        Disk.file?_remove_self] at hfile
      cases hfile
    have hold : s.disk.file? name = some f := by
      rw [← hfile]; exact (Disk.file?_remove_ne _ hne).symm
    obtain ⟨x, hx, hxp⟩ := h.owned name f hold hnum
    rcases List.mem_cons.mp hx with rfl | hx
    · exact absurd hxp.symm hne
    · exact ⟨x, hx, by rw [hheap x hx, hxp]⟩
  · intro x hx
    rw [hheap x hx]
    exact h.numeric x (List.mem_cons_of_mem c hx)

end Tidy

section Good

variable {s : QState} {chain cs ds : List (Ptr × Log Bytes)} {c : Ptr × Log Bytes}

/-! ## The three changes of the chain -/

theorem Good.update (h : Good s (cs ++ c :: ds)) {t : SegState} {log : Log Bytes}
    (ht : Clean t.seg t.disk log) (hf : Frame { seg := s.heap c.1, disk := s.disk } t)
    (hcalm : t.disk.script = []) : Good (s.put c.1 t) (cs ++ (c.1, log) :: ds) :=
  ⟨h.toRep.update layout_clean ht hf, h.toTidy.update h.toLinked hf, hcalm, by simp⟩

theorem Good.update_head (h : Good s (c :: cs)) {t : SegState} {log : Log Bytes}
    (ht : Clean t.seg t.disk log) (hf : Frame { seg := s.heap c.1, disk := s.disk } t)
    (hcalm : t.disk.script = []) : Good (s.put c.1 t) ((c.1, log) :: cs) := by
  have h' : Good s ([] ++ c :: cs) := h
  exact h'.update ht hf hcalm

theorem Good.trimmed {c' : Ptr × Log Bytes} (h : Good s (c :: c' :: cs)) :
    Queue.trimHead s = .ok () (s.trimmed c.1) ∧ Good (s.trimmed c.1) (c' :: cs) := by
  obtain ⟨he, hr⟩ := trimHead_rep layout_clean h.toRep
  exact ⟨he, hr, h.toTidy.trimmed h.toLinked, h.calm, List.cons_ne_nil _ _⟩

/-- `trimHead` on a queue whose first segment is used up. -/
theorem Good.trimHead (h : Good s (c :: cs)) (hd : c.2.Drained) :
    ∃ s' chain', Queue.trimHead s = .ok () s' ∧ Good s' chain' ∧
      logs chain' = Chain.trim (logs (c :: cs)) := by
  cases cs with
  | nil =>
    refine ⟨_, _, trimHead_single ?_, h, (if_neg fun hx => hx.2 rfl).symm⟩
    rw [h.segments_eq]
    exact Nat.le_refl 1
  | cons c' cs =>
    obtain ⟨he, hg⟩ := h.trimmed
    exact ⟨_, _, he, hg, (if_pos ⟨hd, List.cons_ne_nil _ _⟩).symm⟩

/-- `addSegment` under a free name fails only where a directory has it, and then nothing has
    happened. -/
theorem Good.addSegment (h : Good s chain) (hfree : NextFree s.disk) :
    (∃ l d', Queue.addSegment s = .ok s.next (s.added l d') ∧
      Good (s.rolled l d') (chain ++ [(s.next, Log.empty)]) ∧
      l.size = footerSize ∧ l.maxSize = s.q.maxSegmentSize) ∨
    ∃ e, Queue.addSegment s = .error e s := by
  rcases addSegment_cases hfree with ⟨l, d', he, hcl, hp, hm, hel, hscr⟩ | ⟨e, d', he, -, hd, -⟩
  · refine Or.inl ⟨l, d', he, ⟨h.toRep.rolled layout_clean h.nonempty hfree hcl hp hel,
      h.toTidy.rolled h.toLinked hp hel, ?_, by simp⟩, ?_, hm⟩
    · show d'.script = []
      rw [hscr, h.calm, List.drop_nil]
    · rw [hcl.size_eq]
      rfl
  · refine Or.inr ⟨e, ?_⟩
    rw [he, hd (Disk.calm_of_script_nil h.calm 2)]

/-! ## The methods -/

/-- A chain in use has a last segment, the tail. -/
theorem Good.exists_tail (h : Good s chain) : ∃ cs c, chain = cs ++ [c] ∧ s.q.tail = some c.1 ∧
    (s.heap c.1).file ≠ none :=
  h.toRep.exists_tail layout_clean h.nonempty

theorem logs_append (cs ds : List (Ptr × Log Bytes)) : logs (cs ++ ds) = logs cs ++ logs ds :=
  List.map_append

/-- The segment at the end takes the slice, or is full. -/
theorem Good.append_last (h : Good s (cs ++ [c])) {b : Bytes} (hb : b ≠ [])
    (hroom : HH.Roomy (s.heap c.1) b) :
    (∃ t, Segment.append b { seg := s.heap c.1, disk := s.disk } = .ok () t ∧
      Good (s.put c.1 t) (cs ++ [(c.1, c.2.push b)])) ∨
    ((s.heap c.1).maxSize < (s.heap c.1).size + b.length ∧
      Segment.append b { seg := s.heap c.1, disk := s.disk }
        = .error .segmentFull { seg := s.heap c.1, disk := s.disk }) := by
  have hc := h.holds c (by simp)
  by_cases hfit : (s.heap c.1).size + b.length ≤ (s.heap c.1).maxSize
  · obtain ⟨t, he, hcl, hf, hs⟩ := Segment.append_clean
      (s := { seg := s.heap c.1, disk := s.disk }) hc hb hfit
      (Disk.calm_of_script_nil h.calm 4) (hroom hfit)
    refine Or.inl ⟨t, he, h.update hcl hf ?_⟩
    rw [hs]
    show s.disk.script.drop 4 = []
    rw [h.calm, List.drop_nil]
  · obtain ⟨off, ho⟩ := hc.handle
    have hlt : (s.heap c.1).maxSize < (s.heap c.1).size + b.length := by omega
    exact Or.inr ⟨hlt, Segment.append_full
      (s := { seg := s.heap c.1, disk := s.disk }) (by rw [ho]; exact Option.some_ne_none _) hlt⟩

/-- **`Append`** stores the slice at the end, in the tail or in a new segment if the tail is full;
    or it is refused, and at most an empty segment is new. -/
theorem Good.append (h : Good s chain) {b : Bytes} (hb : b ≠ []) (hroom : s.Roomy b) :
    ∃ s' chain', Good s' chain' ∧
      ((Queue.append b s = .ok () s' ∧
          (logs chain' = Chain.pushLast b (logs chain) ∨
            RollsOver s b ∧ logs chain' = Chain.pushLast b (Chain.roll (logs chain)))) ∨
        ∃ e, Queue.append b s = .error e s' ∧
          (logs chain' = logs chain ∨ RollsOver s b ∧ logs chain' = Chain.roll (logs chain))) := by
  obtain ⟨cs, c, rfl, htail, hopen⟩ := h.exists_tail
  by_cases hq : s.usage + b.length ≤ s.q.maxSize
  · rcases h.append_last hb (hroom.1 c.1 htail) with ⟨t, he, hg⟩ | ⟨hfull, -⟩
    · refine ⟨_, _, hg, Or.inl ⟨append_stored htail hq he, Or.inl ?_⟩⟩
      rw [logs_append, logs_append]
      exact (Chain.pushLast_append b (logs cs) c.2).symm
    · have hroll : RollsOver s b := ⟨hq, c.1, htail, hfull⟩
      rw [append_full htail hq hopen hfull]
      rcases h.addSegment (hroom.2.2 hroll) with ⟨l, d', ha, hg, hsize, hmax⟩ | ⟨e, ha⟩
      · rw [append_rolled ha]
        rcases hg.append_last hb (hroom.rolled hsize hmax) with ⟨t, he, hg'⟩ | ⟨-, he⟩
        · refine ⟨_, _, hg', Or.inl ⟨call_ok he, Or.inr ⟨hroll, ?_⟩⟩⟩
          rw [logs_append, Chain.roll, Chain.pushLast_append]
          rfl
        · refine ⟨_, _, hg, Or.inr ⟨.segmentFull, ?_, Or.inr ⟨hroll, logs_append _ _⟩⟩⟩
          rw [call_error he, QState.put, Function.update_eq_self]
      · exact ⟨s, _, h, Or.inr ⟨e, bind_error ha, Or.inl rfl⟩⟩
  · exact ⟨s, _, h, Or.inr ⟨.queueFull, append_queueFull htail (by omega), Or.inl rfl⟩⟩

/-- **`Current`** looks at the first log: at its end it answers `io.EOF`; a record longer than the
    limit of the segment is an error. -/
theorem Good.current (h : Good s (c :: cs)) :
    ∃ s', Good s' (c :: cs) ∧
      ((c.2.Drained ∧ Queue.current s = .error .eof s') ∨
        ∃ r rest, c.2.remaining = r :: rest ∧
          (Queue.current s = .ok r s' ∨ ∃ m n, Queue.current s = .error (.recordSize m n) s')) := by
  have hc := h.holds c List.mem_cons_self
  rw [current_eq_call h.head_eq]
  by_cases hd : c.2.Drained
  · refine ⟨s, h, Or.inl ⟨hd, ?_⟩⟩
    rw [call_error (Segment.current_eof (s := { seg := s.heap c.1, disk := s.disk })
      (hc.pos_eq_end_iff.mpr hd)), QState.put, Function.update_eq_self]
  · have hlt := Log.cursor_lt_of_not_drained hd
    obtain ⟨t, k, he, hh, hf, hk, hcur⟩ := Segment.current_holds
      (s := { seg := s.heap c.1, disk := s.disk }) hc.toHolds hlt (Disk.calm_of_script_nil h.calm 2)
    have hg : Good (s.put c.1 t) ((c.1, c.2) :: cs) := by
      refine h.update_head ⟨hh, hcur, hc.nonempty⟩ hf ?_
      rw [hk]
      show s.disk.script.drop k = []
      rw [h.calm, List.drop_nil]
    refine ⟨_, hg, Or.inr ⟨_, _, Log.remaining_of_lt hlt, ?_⟩⟩
    split at he
    · exact Or.inr ⟨_, _, call_error he⟩
    · exact Or.inl (call_ok he)

/-- **`Advance`** moves past the first item of the first log, and drops the first segment when it
    is used up and another follows. -/
theorem Good.advance (h : Good s chain) :
    ∃ s' chain', Queue.advance s = .ok () s' ∧ Good s' chain' ∧
      logs chain' = Chain.advance (logs chain) := by
  obtain ⟨c, cs, rfl⟩ := List.exists_cons_of_ne_nil h.nonempty
  have hhead : s.q.head = some c.1 := h.head_eq
  have hc := h.holds c List.mem_cons_self
  obtain ⟨t, he, hcl, hf, k, hk⟩ := Segment.advance_clean
    (s := { seg := s.heap c.1, disk := s.disk }) hc (Disk.calm_of_script_nil h.calm 3)
  have hg : Good (s.put c.1 t) ((c.1, c.2.next) :: cs) := by
    refine h.update_head hcl hf ?_
    rw [hk]
    show s.disk.script.drop k = []
    rw [h.calm, List.drop_nil]
  rw [Queue.advance, bind_ok (self_run s), hhead]
  dsimp only
  by_cases hd : c.2.next.Drained
  · rw [if_pos hd] at he
    rw [bind_ok (attempt_error (call_error he))]
    exact hg.trimHead hd
  · rw [if_neg hd] at he
    rw [bind_ok (attempt_ok (call_ok he))]
    refine ⟨_, _, rfl, hg, ?_⟩
    exact (if_neg (fun hx => hd hx.1)).symm

/-! ## `SetMaxSegmentSize` -/

/-- The limits of the segments are not part of the invariant. -/
theorem Good.limited (h : Good s chain) (size : Int) (ps : List Ptr) (m : Int) :
    Good { s.limited size ps with q := { s.q with maxSegmentSize := m } } chain := by
  refine ⟨h.toRep.limited layout_clean size ps m, ⟨?_, ?_⟩, h.calm, h.nonempty⟩
  · intro name f hf hn
    obtain ⟨c, hc, hp⟩ := h.owned name f hf hn
    exact ⟨c, hc, by rw [← hp]; exact limited_path s size ps c.1⟩
  · intro c hc
    have hn := h.numeric c hc
    rw [← limited_path s size ps c.1] at hn
    exact hn

/-- **`SetMaxSegmentSize`** changes nothing of the content; it rolls over when the tail is beyond
    the new limit. -/
theorem Good.setMaxSegmentSize (h : Good s chain) {size : Int} (hfree : s.Resizable size) :
    ∃ s' chain', Good s' chain' ∧ final (Queue.setMaxSegmentSize size s) = s' ∧
      (logs chain' = logs chain ∨ logs chain' = Chain.roll (logs chain)) := by
  obtain ⟨cs, c, rfl, htail, -⟩ := h.exists_tail
  have hg := h.limited size s.q.segments size
  rw [setMaxSegmentSize_run htail]
  split
  · rename_i hle
    rw [limited_size] at hle
    rcases hg.addSegment (hfree ⟨c.1, htail, hle⟩) with ⟨l, d', ha, hroll, -, -⟩ | ⟨e, ha⟩
    · refine ⟨_, _, hroll, ?_, Or.inr (logs_append _ _)⟩
      rw [bind_ok ha, assign_run]
      rfl
    · exact ⟨_, _, hg, by rw [bind_error ha]; rfl, Or.inl rfl⟩
  · exact ⟨_, _, hg, rfl, Or.inl rfl⟩

end Good

end InfluxCluster.HH
