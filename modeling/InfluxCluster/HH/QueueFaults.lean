/-
  The queue when its calls may fail: the invariant, and `Open`.

  `Sound s chain` is what is left of `Good` when calls fail: each segment has a layout, but its
  footer may be ahead of its position and its cached size may be wrong, and the directory may have
  stubs of segments that could not be made.  A queue that is not open is `Sound` with the empty
  chain.

  `trimHead` and `addSegment` keep it whatever fails.  So does `Open` (`Sound.openQueue`): it writes
  to no file that has a footer, so that when it gives up half-way the segments there were are still
  good.
-/
import InfluxCluster.HH.QueueOpen

namespace InfluxCluster.HH

open InfluxCluster.Lib

/-! ## The invariant -/

/-- The segment has a layout, with some footer. -/
def Loose (l : Segment) (d : Disk) (log : Log Bytes) : Prop := ∃ j, Holds l d log j

theorem layout_loose : Layout Loose where
  holds h := h
  congr := fun ⟨j, h⟩ hd => ⟨j, h.congr hd⟩
  limit := fun _ ⟨j, h⟩ => ⟨j, h.handle, h.footer_le, h.stored, h.pos_eq, h.size_eq, h.fits⟩
  ofClean h := ⟨_, h.toHolds⟩

/-- Every file with the name of a segment has a layout, or is too short to be opened. -/
def FilesOK (d : Disk) : Prop :=
  ∀ name f, d.file? name = some f → parseUint name ≠ none → FileOK f.data

/-- One file changed, and is as it should be. -/
theorem FilesOK.of_others {d d' : Disk} (h : FilesOK d) (path : FileName)
    (hothers : ∀ name, name ≠ path → d'.entries.lookup name = d.entries.lookup name)
    (hpath : ∀ f, d'.file? path = some f → FileOK f.data) : FilesOK d' := by
  intro name f hf hn
  by_cases hname : name = path
  · rw [hname] at hf
    exact hpath f hf
  · rw [Disk.file?_congr (hothers name hname)] at hf
    exact h name f hf hn

/-- `addSegment` leaves a segment or a stub. -/
theorem FilesOK.addSegment {s : QState} (h : FilesOK s.disk) (hfree : NextFree s.disk) :
    FilesOK (final (Queue.addSegment s)).disk := by
  rcases addSegment_cases hfree with ⟨l, d', he, hcl, hp, -, hel, -⟩ | ⟨e, d', he, hel, -, hstub⟩
  · rw [he]
    refine h.of_others _ hel.others fun f hf => ?_
    rw [← hp] at hf
    exact (hcl.toHolds.fileOK hf).1
  · rw [he]
    rcases hstub with rfl | ⟨g, hg, hok⟩
    · exact h
    · refine h.of_others _ hel.others fun f hf => ?_
      rw [show d'.file? (nextPath s.disk) = some f from hf] at hg
      cases hg
      exact hok

/-- **The invariant of a queue whose calls may fail.** -/
structure Sound (s : QState) (chain : List (Ptr × Log Bytes)) : Prop
    extends Rep Loose s chain where
  files : FilesOK s.disk
  numeric : ∀ c ∈ chain, parseUint (s.heap c.1).path ≠ none

section Sound

variable {s : QState} {chain cs ds : List (Ptr × Log Bytes)} {c : Ptr × Log Bytes}

/-- The clock and the faults to come are not part of it. -/
theorem Sound.of_entries (h : Sound s chain) {d : Disk} (hd : d.entries = s.disk.entries) :
    Sound { s with disk := d } chain := by
  refine ⟨⟨h.toLinked.of_agree layout_loose (fun _ _ => rfl) (fun _ _ => by rw [hd])
    (Nat.le_refl _), h.segments_eq, h.head_eq, h.tail_eq⟩, ?_, h.numeric⟩
  intro name f hf hn
  refine h.files name f ?_ hn
  rw [← hf]
  exact Disk.file?_congr (by rw [hd])

/-- A method of one segment that leaves it with a layout. -/
theorem Sound.update (h : Sound s (cs ++ c :: ds)) {t : SegState} {log : Log Bytes}
    (ht : Loose t.seg t.disk log) (hf : Frame { seg := s.heap c.1, disk := s.disk } t) :
    Sound (s.put c.1 t) (cs ++ (c.1, log) :: ds) := by
  refine ⟨h.toRep.update layout_loose ht hf, ?_, ?_⟩
  · refine h.files.of_others _ hf.others fun f hfile => ?_
    obtain ⟨j, hj⟩ := ht
    refine (hj.fileOK ?_).1
    rw [hf.path_eq]
    exact hfile
  · intro x hx
    rw [put_path hf]
    rcases List.mem_append.mp hx with hx | hx
    · exact h.numeric x (List.mem_append_left _ hx)
    · rcases List.mem_cons.mp hx with rfl | hx
      · exact h.numeric c (List.mem_append_right _ List.mem_cons_self)
      · exact h.numeric x (List.mem_append_right _ (List.mem_cons_of_mem c hx))

/-- The first segment is dropped. -/
theorem Sound.trimmed {c' : Ptr × Log Bytes} (h : Sound s (c :: c' :: cs)) :
    Queue.trimHead s = .ok () (s.trimmed c.1) ∧ Sound (s.trimmed c.1) (c' :: cs) := by
  obtain ⟨he, hr⟩ := trimHead_rep layout_loose h.toRep
  have hrest : Linked Loose s ([c] ++ c' :: cs) := h.toLinked
  refine ⟨he, hr, ?_, ?_⟩
  · refine h.files.of_others (s.heap c.1).path (fun name hn => lookup_remove_ne _ hn) fun f hf => ?_
    rw [show (s.trimmed c.1).disk = s.disk.remove (s.heap c.1).path from rfl,
      Disk.file?_remove_self] at hf
    cases hf
  · intro x hx
    have hne : x.1 ≠ c.1 := fun he =>
      hrest.disjoint List.mem_cons_self hx (by rw [he])
    rw [show (s.trimmed c.1).heap x.1 = s.heap x.1 from Function.update_of_ne hne ..]
    exact h.numeric x (List.mem_cons_of_mem c hx)

theorem Sound.trimHead (h : Sound s chain) :
    ∃ chain', Sound (final (Queue.trimHead s)) chain' := by
  by_cases hlen : s.q.segments.length ≤ 1
  · rw [trimHead_single hlen]
    exact ⟨chain, h⟩
  · match chain, h with
    | [], h | [_], h =>
      rw [h.segments_eq] at hlen
      simp at hlen
    | c :: c' :: cs, h =>
      obtain ⟨he, hs⟩ := h.trimmed
      rw [he]
      exact ⟨_, hs⟩

/-- `addSegment` puts an empty segment behind the others, which becomes the tail if the caller says
    so; or it fails and leaves at most a stub. -/
theorem Sound.addSegment (h : Sound s chain) (hne : chain ≠ []) (hfree : NextFree s.disk) :
    (∃ l d', Queue.addSegment s = .ok s.next (s.added l d') ∧
      Sound (s.rolled l d') (chain ++ [(s.next, Log.empty)]) ∧ l.size = footerSize ∧
      l.maxSize = s.q.maxSegmentSize ∧ d'.script = s.disk.script.drop 2) ∨
    ∃ e d', Queue.addSegment s = .error e { s with disk := d' } ∧
      Sound { s with disk := d' } chain := by
  have hfiles := h.files.addSegment hfree
  rcases addSegment_cases hfree with ⟨l, d', he, hcl, hp, hm, hel, hscr⟩ | ⟨e, d', he, hel, -⟩
  · rw [he] at hfiles
    refine Or.inl ⟨l, d', he, ⟨h.toRep.rolled layout_loose hne hfree hcl hp hel, hfiles, ?_⟩, ?_, hm, hscr⟩
    · intro x hx
      rcases List.mem_append.mp hx with hx | hx
      · rw [show (s.rolled l d').heap x.1 = s.heap x.1 from
          Function.update_of_ne (Nat.ne_of_lt (h.fresh x hx)) ..]
        exact h.numeric x hx
      · rw [List.mem_singleton.mp hx,
          show (s.rolled l d').heap s.next = l from Function.update_self .., hp]
        exact numeric_nextPath s.disk
    · rw [hcl.size_eq]
      rfl
  · rw [he] at hfiles
    exact Or.inr ⟨e, d', he, ⟨h.toLinked.elsewhere layout_loose hfree hel, h.segments_eq, h.head_eq,
      h.tail_eq⟩, hfiles, h.numeric⟩

theorem Sound.update_head (h : Sound s (c :: cs)) {t : SegState} {log : Log Bytes}
    (ht : Loose t.seg t.disk log) (hf : Frame { seg := s.heap c.1, disk := s.disk } t) :
    Sound (s.put c.1 t) ((c.1, log) :: cs) := by
  have h' : Sound s ([] ++ c :: cs) := h
  exact h'.update ht hf

/-- A method of the head that only reads, whatever fails in it. -/
theorem Sound.reads_head {α : Type} {x : SegM α} (h : Sound s (c :: cs)) (hx : Reads x) :
    Sound (final (call c.1 x s)) (c :: cs) := by
  rw [final_call]
  have hsame := hx { seg := s.heap c.1, disk := s.disk }
  obtain ⟨j, hj⟩ := h.holds c List.mem_cons_self
  exact h.update_head ⟨j, Holds.sameFile (s := ⟨s.heap c.1, s.disk⟩) hj hsame⟩ hsame.frame

end Sound

/-! ## `Open` -/

/-- What loading leaves alone: the queue, the segments there were, and the files with a footer. -/
structure Reloaded (s s' : QState) : Prop where
  q_eq : s'.q = s.q
  next_le : s.next ≤ s'.next
  heap_eq : ∀ p, p < s.next → s'.heap p = s.heap p
  whole : ∀ name f, s.disk.file? name = some f → footerSize ≤ f.data.length →
    s'.disk.entries.lookup name = s.disk.entries.lookup name
  files : FilesOK s.disk → FilesOK s'.disk

theorem Reloaded.refl (s : QState) : Reloaded s s :=
  ⟨rfl, Nat.le_refl _, fun _ _ => rfl, fun _ _ _ _ => rfl, fun h => h⟩

theorem Reloaded.trans {s t u : QState} (h : Reloaded s t) (h' : Reloaded t u) : Reloaded s u := by
  refine ⟨h'.q_eq.trans h.q_eq, Nat.le_trans h.next_le h'.next_le, ?_, ?_,
    fun hok => h'.files (h.files hok)⟩
  · intro p hp
    exact (h'.heap_eq p (Nat.lt_of_lt_of_le hp h.next_le)).trans (h.heap_eq p hp)
  · intro name f hf hlen
    have hlook := h.whole name f hf hlen
    rw [← Disk.file?_congr hlook] at hf
    exact (h'.whole name f hf hlen).trans hlook

theorem Linked.reloaded {s s' : QState} {chain : List (Ptr × Log Bytes)}
    (h : Linked Loose s chain) (hr : Reloaded s s') : Linked Loose s' chain := by
  refine h.of_agree layout_loose (fun c hc => hr.heap_eq c.1 (h.fresh c hc)) ?_ hr.next_le
  intro c hc
  obtain ⟨j, hj⟩ := h.holds c hc
  obtain ⟨t, ht⟩ := hj.stored
  exact hr.whole _ _ ht (hj.fileOK ht).2

/-- Opening one file. -/
theorem newSegmentPtr_loose {s : QState} {name : FileName} {f : File} (m : Int)
    (hf : s.disk.file? name = some f) (hok : FileOK f.data) :
    Reloaded s (final (newSegmentPtr name m s)) ∧
    (∀ other, other ≠ name → (final (newSegmentPtr name m s)).disk.entries.lookup other
      = s.disk.entries.lookup other) ∧
    ∀ p s', newSegmentPtr name m s = .ok p s' → p = s.next ∧ s.next < s'.next ∧
      (s'.heap s.next).path = name ∧ ∃ log, Loose (s'.heap s.next) s'.disk log := by
  obtain ⟨helse, ⟨g, hg, hgok⟩, hwhole, hopen⟩ := Segment.newSegment_fileOK m hf hok
  have hkeep : ∀ name' f', s.disk.file? name' = some f' → footerSize ≤ f'.data.length →
      (final (newSegment name m s.disk)).entries.lookup name' = s.disk.entries.lookup name' := by
    intro name' f' hf' hlen
    by_cases hn : name' = name
    · rw [hn, hf] at hf'
      cases hf'
      rw [hwhole hlen]
    · exact helse.others name' hn
  have hfiles : FilesOK s.disk → FilesOK (final (newSegment name m s.disk)) := fun h =>
    h.of_others name helse.others fun f' hf' => by
      rw [hg] at hf'
      cases hf'
      exact hgok
  rw [newSegmentPtr]
  cases he : newSegment name m s.disk with
  | ok l d' =>
    rw [he, final_ok] at hkeep hfiles helse
    obtain ⟨hp, log, hl⟩ := hopen l d' he
    refine ⟨⟨rfl, Nat.le_succ _, ?_, hkeep, hfiles⟩, helse.others, ?_⟩
    · intro p hp
      exact Function.update_of_ne (Nat.ne_of_lt hp) ..
    · intro p s' hx
      cases hx
      refine ⟨rfl, Nat.lt_succ_self _, ?_, log, ?_⟩
      · simp only [Function.update_self]
        exact hp
      · simp only [Function.update_self]
        exact hl
  | error e d' =>
    rw [he, final_error] at hkeep hfiles helse
    refine ⟨⟨rfl, Nat.le_refl _, fun _ _ => rfl, hkeep, hfiles⟩, helse.others, ?_⟩
    intro p s' hx
    cases hx

/-- **The loop of `loadSegments`**, by induction on the entries still to be looked at: if it comes
    to its end there is a segment for every file. -/
theorem loadEntries_loose (m : Int) (files : List (FileName × Entry)) :
    ∀ s : QState, (files.map Prod.fst).Nodup →
      (∀ e ∈ files, segmentID e ≠ none → ∃ f, s.disk.file? e.1 = some f ∧ FileOK f.data) →
      Reloaded s (final (Queue.loadEntries m files s)) ∧
      ∀ ps s', Queue.loadEntries m files s = .ok ps s' → ∃ chain, ps = chain.map Prod.fst ∧
        Linked Loose s' chain ∧ chain.map (fun c => (s'.heap c.1).path) = segmentNames files := by
  induction files with
  | nil =>
    intro s _ _
    refine ⟨Reloaded.refl s, ?_⟩
    intro ps s' he
    cases he
    exact ⟨[], rfl, Linked.nil, rfl⟩
  | cons e files ih =>
    intro s hnd hst
    rw [List.map_cons, List.nodup_cons] at hnd
    rw [Queue.loadEntries]
    cases hid : segmentID e with
    | none =>
      rw [segmentNames_cons_none hid]
      exact ih s hnd.2 fun x hx => hst x (List.mem_cons_of_mem e hx)
    | some n =>
      dsimp only
      obtain ⟨f, hf, hok⟩ := hst e List.mem_cons_self (by rw [hid]; exact Option.some_ne_none n)
      obtain ⟨hre, hothers, hnew⟩ := newSegmentPtr_loose m hf hok
      cases he : newSegmentPtr e.1 m s with
      | error x s1 =>
        rw [he, final_error] at hre
        rw [bind_error he]
        exact ⟨hre, fun ps s' hx => by cases hx⟩
      | ok p s1 =>
        rw [he, final_ok] at hre hothers
        obtain ⟨rfl, hlt, hp1, log, hl1⟩ := hnew p s1 he
        -- the other files are as they were
        have hst1 : ∀ x ∈ files, segmentID x ≠ none →
            ∃ g, s1.disk.file? x.1 = some g ∧ FileOK g.data := by
          intro x hx hxid
          have hne : x.1 ≠ e.1 := fun hxe => hnd.1 (by rw [← hxe]; exact List.mem_map_of_mem hx)
          obtain ⟨g, hg, hgok⟩ := hst x (List.mem_cons_of_mem e hx) hxid
          exact ⟨g, by rw [Disk.file?_congr (hothers x.1 hne)]; exact hg, hgok⟩
        obtain ⟨hre', hload⟩ := ih s1 hnd.2 hst1
        rw [bind_ok he]
        cases he' : Queue.loadEntries m files s1 with
        | error x s2 =>
          rw [he', final_error] at hre'
          rw [bind_error he']
          exact ⟨hre.trans hre', fun ps s' hx => by cases hx⟩
        | ok ps s2 =>
          rw [he', final_ok] at hre'
          rw [bind_ok he']
          refine ⟨hre.trans hre', ?_⟩
          intro ps' s' hx
          cases hx
          obtain ⟨chain, rfl, hlink, hpaths⟩ := hload ps s2 he'
          have hheap : s2.heap s.next = s1.heap s.next := hre'.heap_eq _ hlt
          have hone : Linked Loose s1 [(s.next, log)] := by
            refine ⟨?_, List.nodup_singleton _, ?_⟩
            · intro c hc
              rw [List.mem_singleton.mp hc]
              exact hl1
            · intro c hc
              rw [List.mem_singleton.mp hc]
              exact hlt
          refine ⟨(s.next, log) :: chain, rfl, ?_, ?_⟩
          · show Linked Loose s2 ([(s.next, log)] ++ chain)
            refine (hone.reloaded hre').append hlink ?_
            intro c hc d hd
            rw [List.mem_singleton.mp hc, hheap, hp1]
            intro heq
            have hmem : e.1 ∈ segmentNames files := by
              rw [← hpaths, heq]
              exact List.mem_map_of_mem hd
            obtain ⟨x, hx, hxe⟩ := List.mem_map.mp hmem
            exact hnd.1 (List.mem_map.mpr ⟨x, (List.mem_filter.mp hx).1, hxe⟩)
          · rw [segmentNames_cons_some hid, List.map_cons, hpaths, hheap, hp1]

section Sound

variable {s : QState} {chain cs : List (Ptr × Log Bytes)} {c : Ptr × Log Bytes}

/-- Loading the whole directory. -/
theorem Sound.loadSegments (h : Sound s chain) :
    Reloaded s (final (Queue.loadSegments s)) ∧
    ∀ ps s', Queue.loadSegments s = .ok ps s' → ∃ chain', ps = chain'.map Prod.fst ∧
      Linked Loose s' chain' ∧
      chain'.map (fun c => (s'.heap c.1).path) = segmentNames s.disk.readDir := by
  refine loadEntries_loose _ s.disk.readDir s
    ((Disk.readDir_sorted s.disk).imp fun h => ne_of_lt h) ?_
  intro e he hid
  have hmem : e.1 ∈ segmentNames s.disk.readDir :=
    List.mem_map.mpr ⟨e, List.mem_filter.mpr ⟨he, Option.ne_none_iff_isSome.mp hid⟩, rfl⟩
  obtain ⟨⟨f, hf⟩, hn⟩ := mem_segmentNames.mp hmem
  exact ⟨f, hf, h.files e.1 f hf hn⟩

/-- The end of `Open`: head and tail are set, and a first segment with nothing left is dropped. -/
theorem openEnds_sound (hl : Linked Loose s chain) (hseg : s.q.segments = chain.map Prod.fst)
    (hfiles : FilesOK s.disk) (hnum : ∀ c ∈ chain, parseUint (s.heap c.1).path ≠ none)
    (hne : chain ≠ []) : ∃ chain', Sound (final (Queue.openEnds s)) chain' := by
  set s1 : QState := { s with q := { s.q with
    head := s.q.segments.head?, tail := s.q.segments.getLast? } } with hs1
  have hs : Sound s1 chain := by
    refine ⟨⟨⟨hl.holds, hl.paths, hl.fresh⟩, hseg, ?_, ?_⟩, hfiles, hnum⟩
    · show s.q.segments.head? = _
      rw [hseg]
    · show s.q.segments.getLast? = _
      rw [hseg]
  obtain ⟨c, cs, rfl⟩ := List.exists_cons_of_ne_nil hne
  have hhead : s1.q.head = some c.1 := hs.head_eq
  have hderef : deref s1.q.head s1 = .ok c.1 s1 := by
    rw [hhead]; rfl
  have hcur := hs.reads_head Segment.reads_current
  rw [Queue.openEnds, bind_ok (assign_run _ _), bind_ok (self_run _), bind_ok hderef]
  cases he : call c.1 Segment.current s1 with
  | ok b s2 =>
    rw [he] at hcur
    rw [bind_ok (attempt_ok he)]
    exact ⟨_, hcur⟩
  | error e s2 =>
    rw [he] at hcur
    rw [bind_ok (attempt_error he)]
    cases e with
    | eof => exact hcur.trimHead
    | _ => exact ⟨_, hcur⟩

/-- **`Open` keeps the invariant**, whatever fails in it: the queue is the directory's, or as it
    was. -/
theorem Sound.openQueue (h : Sound s chain) :
    ∃ chain', Sound (final (Queue.openQueue s)) chain' := by
  obtain ⟨hre, hload⟩ := h.loadSegments
  rw [Queue.openQueue]
  cases he : Queue.loadSegments s with
  | error e s1 =>
    rw [he, final_error] at hre
    rw [bind_error he]
    refine ⟨chain, ⟨h.toLinked.reloaded hre, ?_, ?_, ?_⟩, hre.files h.files, ?_⟩
    · exact (congrArg Queue.segments hre.q_eq).trans h.segments_eq
    · exact (congrArg Queue.head hre.q_eq).trans h.head_eq
    · exact (congrArg Queue.tail hre.q_eq).trans h.tail_eq
    · intro c hc
      show parseUint (s1.heap c.1).path ≠ none
      rw [hre.heap_eq c.1 (h.fresh c hc)]
      exact h.numeric c hc
  | ok ps s1 =>
    rw [he, final_ok] at hre
    obtain ⟨chain', rfl, hlink, hpaths⟩ := hload ps s1 he
    set s2 : QState := { s1 with q := { s1.q with segments := chain'.map Prod.fst } } with hs2
    have hlink2 : Linked Loose s2 chain' := ⟨hlink.holds, hlink.paths, hlink.fresh⟩
    have hfiles2 : FilesOK s2.disk := hre.files h.files
    rw [bind_ok he, bind_ok (assign_run _ _)]
    by_cases hnil : chain' = []
    · -- no segment files: the queue was not open, and gets a first segment
      subst hnil
      have hold : chain = [] := by
        refine List.eq_nil_iff_forall_not_mem.mpr fun c hc => ?_
        have hmem : (s.heap c.1).path ∈ segmentNames s.disk.readDir := by
          refine mem_segmentNames.mpr ⟨?_, h.numeric c hc⟩
          exact Option.ne_none_iff_exists'.mp (h.toLinked.file_ne_none layout_loose hc)
        rw [← hpaths] at hmem
        cases hmem
      subst hold
      rw [if_pos List.map_nil]
      have hfree : NextFree s2.disk := by
        cases he.symm.trans (loadEntries_none s.q.maxSegmentSize hpaths.symm s)
        exact nextFree_of_segmentNames_nil hpaths.symm
      have hfiles3 := hfiles2.addSegment hfree
      rcases addSegment_cases hfree with ⟨l, d', ha, hcl, hp, -, hel, -⟩ | ⟨e, d', ha, -⟩
      · rw [ha] at hfiles3
        rw [bind_ok ha]
        refine openEnds_sound (hlink2.added layout_loose hfree hcl hp hel) rfl hfiles3 ?_
          (List.cons_ne_nil _ _)
        intro c hc
        rw [List.mem_singleton.mp hc,
          show (s2.added l d').heap s2.next = l from Function.update_self .., hp]
        exact numeric_nextPath s2.disk
      · rw [ha] at hfiles3
        rw [bind_error ha]
        refine ⟨[], ⟨Linked.nil, rfl, ?_, ?_⟩, hfiles3, fun c hc => absurd hc List.not_mem_nil⟩
        · exact (congrArg Queue.head hre.q_eq).trans h.head_eq
        · exact (congrArg Queue.tail hre.q_eq).trans h.tail_eq
    · rw [if_neg fun hx => hnil (List.map_eq_nil_iff.mp hx)]
      refine openEnds_sound hlink2 rfl hfiles2 ?_ hnil
      intro c hc
      have hmem : (s1.heap c.1).path ∈ segmentNames s.disk.readDir := by
        rw [← hpaths]
        exact List.mem_map_of_mem hc
      exact (mem_segmentNames.mp hmem).2

end Sound

end InfluxCluster.HH
