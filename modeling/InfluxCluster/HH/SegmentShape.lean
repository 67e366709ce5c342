/-
  A segment of which nothing is known but its SHAPE: the file is open under its name, it is on disk,
  and `size` is its length.

  The layout of `SegmentSpec` is about records, and it is lost when an empty slice is appended: the
  cached `currentSize` is then taken for "nothing left", and the next `advance` goes somewhere into
  a record.  The shape is not lost.  Whatever bytes the file has, as long as nothing fails

  * `append` makes it longer by the slice and its length, or is refused (`Sized.append`);
  * `current` and `advance` leave its length alone (`Sized.current`, `Sized.advance`), because the
    one write of `advance` goes over the footer;
  * `newSegment` finds the length, and writes only to a file that it finds empty
    (`newSegment_sized`).

  Which files a queue has and how large they are rests on this, and so is known for slices and
  directories of every kind.
-/
import InfluxCluster.HH.SegmentFaults
import InfluxCluster.HH.SegmentRun

namespace InfluxCluster.HH

open InfluxCluster.Lib

/-- **The shape of a segment**: its file is open under its name, is on disk with a footer, and
    `size` is its length. -/
structure Sized (l : Segment) (d : Disk) : Prop where
  handle : ∃ off, l.file = some { name := l.path, off := off }
  stored : ∃ f, d.file? l.path = some f ∧ l.size = f.data.length ∧ footerSize ≤ f.data.length

/-- From `s` to `t` only the segment's own file changed, to one of the same length, and nothing is
    scripted to fail. -/
structure Steady (s t : SegState) : Prop extends Frame s t where
  sized : Sized t.seg t.disk
  size_eq : t.seg.size = s.seg.size
  calm : t.disk.script = []

section Sized

variable {l : Segment} {d d' : Disk} {s t u : SegState}

/-- Only the own file is looked at. -/
theorem Sized.congr (h : Sized l d) (hd : d'.entries.lookup l.path = d.entries.lookup l.path) :
    Sized l d' := by
  obtain ⟨f, hf, hrest⟩ := h.stored
  exact ⟨h.handle, f, by rw [← hf]; exact Disk.file?_congr hd, hrest⟩

theorem Sized.limit (h : Sized l d) (m : Int) : Sized { l with maxSize := m } d :=
  ⟨h.handle, h.stored⟩

theorem Sized.file_ne_none (h : Sized l d) : l.file ≠ none := by
  obtain ⟨off, ho⟩ := h.handle
  rw [ho]
  exact Option.some_ne_none _

/-- The open handle and the file under it, with the footer set apart. -/
theorem Sized.onFile (h : Sized s.seg s.disk) : ∃ hd f a c, OnFile s hd f ∧ hd.name = s.seg.path ∧
    f.data = a ++ c ∧ c.length = footerSize ∧ s.seg.size = a.length + footerSize := by
  obtain ⟨off, ho⟩ := h.handle
  obtain ⟨f, hf, hsize, hlen⟩ := h.stored
  refine ⟨_, f, f.data.take (f.data.length - footerSize), f.data.drop (f.data.length - footerSize),
    ⟨ho, hf⟩, rfl, (List.take_append_drop _ _).symm, ?_, ?_⟩
  · rw [List.length_drop]
    omega
  · rw [hsize, List.length_take]
    omega

/-- The size does not depend on the handle. -/
theorem Sized.sameFile (h : Sized s.seg s.disk) (hs : SameFile s t) : Sized t.seg t.disk := by
  obtain ⟨off, ho⟩ := h.handle
  obtain ⟨f, hf, hsize, hlen⟩ := h.stored
  have hname := hs.handle
  rw [ho] at hname
  obtain ⟨hd, hfile, hn⟩ := Option.map_eq_some_iff.mp hname
  refine ⟨⟨hd.off, ?_⟩, f, ?_, ?_, hlen⟩
  · rw [hfile, hs.path_eq, ← show hd.name = s.seg.path from hn]
  · rw [hs.path_eq, ← hf]
    exact Disk.file?_congr (by rw [hs.entries_eq])
  · rw [hs.size_eq, hsize]

theorem Steady.refl (h : Sized s.seg s.disk) (hc : s.disk.script = []) : Steady s s :=
  ⟨Frame.refl s, h, rfl, hc⟩

/-- Reading is steady. -/
theorem Steady.sameFile (h : Steady s t) (hs : SameFile t u) (hc : u.disk.script = []) :
    Steady s u := by
  refine ⟨⟨?_, ?_, ?_, fun name hn => ?_⟩, h.sized.sameFile hs, ?_, hc⟩
  · rw [hs.path_eq, h.path_eq]
  · rw [hs.maxSize_eq, h.maxSize_eq]
  · rw [hs.now_eq, h.now_eq]
  · rw [hs.entries_eq]
    exact h.others name hn
  · rw [hs.size_eq, h.size_eq]

/-- A method that only reads, on a disk without faults. -/
theorem keeps_steady {α : Type} {x : SegM α} (hx : Reads x)
    (hc : ∀ t, t.disk.script = [] → (final (x t)).disk.script = []) : Keeps (Steady s) x :=
  keeps_iff.mpr fun t ht => ht.sameFile (hx t) (hc t ht.calm)

end Sized

/-! ## Programs that only read -/

section Reading

variable {s : SegState}

theorem keeps_fileSeek (pos : Int) (w : Whence) : Keeps (Steady s) (fileSeek pos w) := by
  refine keeps_steady (reads_fileSeek pos w) fun t ht => ?_
  rw [fileSeek]
  cases openFile? t with
  | error e => exact ht
  | ok hf =>
    cases w with
    | set =>
      dsimp only
      split <;> exact ht
    | fromEnd =>
      dsimp only
      split <;> exact ht

theorem keeps_fileRead (n : Nat) : Keeps (Steady s) (fileRead n) := by
  refine keeps_steady (reads_fileRead n) fun t ht => ?_
  have hskip : (t.disk.skip 1).script = [] := by
    rw [Disk.skip, ht]
    rfl
  rw [fileRead]
  cases openFile? t with
  | error e => exact ht
  | ok hf =>
    dsimp only
    cases t.disk.outcome with
    | fail m => exact hskip
    | ok =>
      dsimp only
      split <;> exact hskip

namespace Segment

theorem keeps_self : Keeps (Steady s) self := fun _ ht => ht

theorem keeps_currentSize (n : Int) :
    Keeps (Steady s) (assign fun l => { l with currentSize := n }) :=
  keeps_steady (reads_assign_currentSize n) fun _ ht => ht

theorem keeps_seekToCurrent : Keeps (Steady s) seekToCurrent := by
  refine Triple.bind keeps_self fun l => Triple.bind (keeps_fileSeek l.pos .set) fun n => ?_
  split
  · exact keeps_throw _
  · exact keeps_pure ()

theorem keeps_readBytes (n : Nat) : Keeps (Steady s) (readBytes n) := by
  refine Triple.bind (keeps_fileRead n) fun b => ?_
  dsimp only
  split
  · exact keeps_throw_bind _ _
  · exact keeps_pure b

theorem keeps_readUint64 : Keeps (Steady s) readUint64 :=
  Triple.bind (keeps_readBytes 8) fun b => keeps_pure (beNat b)

/-- `current` only reads. -/
theorem keeps_current : Keeps (Steady s) current := by
  refine Triple.bind keeps_self fun l => ?_
  dsimp only
  split
  · exact keeps_throw_bind _ _
  · refine Triple.bind keeps_seekToCurrent fun _ => Triple.bind keeps_readUint64 fun sz =>
      Triple.bind (keeps_currentSize _) fun _ => ?_
    split
    · exact keeps_throw_bind _ _
    · split
      · exact keeps_throw_bind _ _
      · exact keeps_readBytes sz

theorem keeps_pos (n : Int) : Keeps (Steady s) (assign fun l => { l with pos := n }) :=
  keeps_iff.mpr fun _ ht =>
    ⟨⟨ht.path_eq, ht.maxSize_eq, ht.now_eq, ht.others⟩, ⟨ht.sized.handle, ht.sized.stored⟩,
      ht.size_eq, ht.calm⟩

/-- `segment.open` on a file that is not empty. -/
theorem keeps_openSegment (hs : s.seg.size ≠ 0) (h : Sized s.seg s.disk)
    (hc : s.disk.script = []) : Steady s (final (openSegment s)) := by
  rw [openSegment, bind_ok (self_eq s), if_neg hs]
  refine keeps_iff.mp ?_ s (Steady.refl h hc)
  refine Triple.bind (Triple.bind (keeps_fileSeek _ _) fun _ => keeps_pure ()) fun _ =>
    Triple.bind keeps_readUint64 fun pos => Triple.bind (keeps_pos _) fun _ =>
    Triple.bind keeps_seekToCurrent fun _ => Triple.bind keeps_self fun l => ?_
  split
  · exact Triple.bind keeps_readUint64 fun n => keeps_currentSize (int64 n)
  · exact keeps_pure ()

/-- The end of `advance`, once `pos` has moved. -/
theorem keeps_advance_end : Keeps (Steady s) (do
    seekToCurrent
    let sz ← readUint64
    assign fun l => { l with currentSize := int64 sz }
    let l ← self
    if l.pos = l.size - footerSize then
      assign fun l => { l with currentSize := 0 }
      throw .eof) := by
  refine Triple.bind keeps_seekToCurrent fun _ => Triple.bind keeps_readUint64 fun sz =>
    Triple.bind (keeps_currentSize _) fun _ => Triple.bind keeps_self fun l => ?_
  split
  · exact Triple.bind (keeps_currentSize _) fun _ => keeps_throw _
  · exact keeps_pure ()

end Segment

end Reading

/-! ## The methods -/

section Methods

variable {s : SegState}

/-- **`current`** is steady. -/
theorem Sized.current (h : Sized s.seg s.disk) (hc : s.disk.script = []) :
    Steady s (final (Segment.current s)) :=
  keeps_iff.mp Segment.keeps_current s (Steady.refl h hc)

/-- **`advance`** is steady: its one write goes over the footer. -/
theorem Sized.advance (h : Sized s.seg s.disk) (hc : s.disk.script = []) :
    Steady s (final (Segment.advance s)) := by
  obtain ⟨hd, f, a, c, ho, hname, hdata, hl, hsize⟩ := h.onFile
  by_cases hend : s.seg.pos = s.seg.size - footerSize
  · rw [Segment.advance_eof h.file_ne_none hend]
    exact (Steady.refl h hc).sameFile ⟨rfl, rfl, rfl, rfl, rfl, rfl, rfl⟩ hc
  have hseek := Segment.seekEnd_footer ho hdata hl
  rw [Segment.advance, bind_ok (Segment.self_eq s), if_neg h.file_ne_none]
  dsimp only
  rw [if_neg hend, bind_ok hseek]
  by_cases hroom : a.length + 8 ≤ maxOffset
  · rw [bind_ok (Segment.writeUint64_footer ho hdata hl (n := 0)
      (Disk.calm_of_script_nil hc 1) hroom), bind_ok (Segment.fileSync_eq (m := 0)
      (onFile_filed _ _ _ _) (Disk.calm_of_script_nil (by
        show s.disk.script.drop 1 = []
        rw [hc, List.drop_nil]) 1)), synced_filed, bind_ok (Segment.assign_eq _ _)]
    refine keeps_iff.mp Segment.keeps_advance_end _ ⟨⟨rfl, rfl, rfl, fun name hn => ?_⟩, ?_, rfl, ?_⟩
    · rw [hname]
      exact lookup_put_ne _ _ hn
    · rw [hname]
      refine ⟨⟨_, rfl⟩, _, Disk.file?_put_self _ _ _, ?_, ?_⟩
      · show s.seg.size = _
        rw [hsize, List.length_append, putUint64_length, footerSize]
        rfl
      · rw [List.length_append, putUint64_length, footerSize]
        omega
    · show s.disk.script.drop 2 = []
      rw [hc, List.drop_nil]
  · -- the kernel refuses the write, and nothing has happened
    have hwrite : fileWrite (putUint64 (uint64 (s.seg.pos + s.seg.currentSize + 8)))
        (s.moved hd a.length) = .error (.os .tooLarge)
          { s.moved hd a.length with disk := s.disk.skip 1 } := by
      rw [fileWrite, openFile?_of_onFile (onFile_moved ho a.length)]
      simp only [Disk.outcome_of_calm (n := 0) (Disk.calm_of_script_nil
        (show (s.moved hd a.length).disk.script = [] from hc) 1)]
      rw [if_pos (by rw [putUint64_length]; omega)]
      rfl
    rw [Segment.writeUint64, Segment.writeBytes, bind_error (bind_error hwrite)]
    refine (Steady.refl h hc).sameFile ⟨by rw [ho.1]; rfl, rfl, rfl, rfl, rfl, rfl, rfl⟩ ?_
    show s.disk.script.drop 1 = []
    rw [hc, List.drop_nil]

/-- **`append`** makes the file longer by the slice and its length, or is refused. -/
theorem Sized.append (h : Sized s.seg s.disk) (hc : s.disk.script = []) {b : Bytes}
    (hroom : Roomy s.seg b) :
    (s.seg.size + b.length ≤ s.seg.maxSize ∧ ∃ t, Segment.append b s = .ok () t ∧ Frame s t ∧
      Sized t.seg t.disk ∧ t.seg.size = s.seg.size + (b.length + 8) ∧ t.disk.script = []) ∨
    (s.seg.maxSize < s.seg.size + b.length ∧ Segment.append b s = .error .segmentFull s) := by
  obtain ⟨hd, f, a, c, ho, hname, hdata, hl, hsize⟩ := h.onFile
  by_cases hfit : s.seg.size + b.length ≤ s.seg.maxSize
  · have hr := hroom hfit
    refine .inl ⟨hfit, _, Segment.append_eq ho hdata hl hfit (Disk.calm_of_script_nil hc 4)
      (by unfold footerSize at *; omega), ⟨rfl, rfl, rfl, fun name hn => ?_⟩, ?_, rfl, ?_⟩
    · simp only [SegState.filed, hname]
      exact lookup_put_ne _ _ hn
    · rw [hname]
      refine ⟨⟨_, rfl⟩, _, Disk.file?_put_self _ _ _, ?_, ?_⟩
      · show s.seg.size + (b.length + 8) = _
        simp only [List.length_append, putUint64_length, hsize, footerSize]
        omega
      · simp only [List.length_append, putUint64_length, footerSize]
        omega
    · show s.disk.script.drop 4 = []
      rw [hc, List.drop_nil]
  · have hfull : s.seg.maxSize < s.seg.size + b.length := by omega
    exact .inr ⟨hfull, Segment.append_full h.file_ne_none hfull⟩

/-- A segment with a log knows the size of its file. -/
theorem Clean.sized {l : Segment} {d : Disk} {log : Log Bytes} (h : Clean l d log) :
    Sized l d := by
  obtain ⟨t, ht⟩ := h.stored
  refine ⟨h.handle, _, ht, ?_, ?_⟩
  · rw [h.size_eq, List.length_append, putUint64_length, footerSize]
    rfl
  · rw [List.length_append, putUint64_length, footerSize]
    omega

/-- **`newSegment` on a file** finds its length, and writes only if that is 0; or it fails, and has
    written nothing. -/
theorem newSegment_sized {d : Disk} {path : FileName} (maxSize : Int) {f : File}
    (hf : d.file? path = some f) (hc : d.script = []) :
    (∃ l d', newSegment path maxSize d = .ok l d' ∧ Sized l d' ∧ l.path = path ∧
      l.maxSize = maxSize ∧ Elsewhere path d d' ∧ d'.script = [] ∧
      (f.data ≠ [] → d'.entries = d.entries)) ∨
    ∃ e d', newSegment path maxSize d = .error e d' ∧ d'.entries = d.entries ∧ d'.now = d.now ∧
      d'.script = [] := by
  by_cases hempty : f.data = []
  · rcases Segment.newSegment_emptyFile maxSize hf hempty with ⟨l, g, he, hcl, hp, hm⟩ | ⟨hn, -⟩
    · refine .inl ⟨l, _, he, hcl.sized, hp, hm, ⟨rfl, fun name hn => lookup_put_ne _ _ hn⟩, ?_,
        fun hne => absurd hempty hne⟩
      show d.script.drop 2 = []
      rw [hc, List.drop_nil]
    · exact absurd (Disk.calm_of_script_nil hc 2) hn
  by_cases hshort : f.data.length < footerSize
  · exact .inr ⟨_, d, Segment.newSegment_short hf hempty hshort, rfl, rfl, hc⟩
  · rw [Segment.newSegment_of_file (Segment.openOrCreate_of_file hf) hf]
    set s : SegState := ⟨⟨f.data.length, some ⟨path, 0⟩, path, 0, 0, maxSize⟩, d⟩ with hs
    have hlen : s.seg.size ≠ 0 := by
      show (f.data.length : Int) ≠ 0
      unfold footerSize at hshort
      omega
    have hsized : Sized s.seg s.disk := ⟨⟨0, rfl⟩, f, hf, rfl, by omega⟩
    have hsteady := Segment.keeps_openSegment hlen hsized hc
    obtain ⟨hentries, hnow⟩ := Segment.openSegment_disk hlen
    cases hrun : Segment.openSegment s with
    | ok u t =>
      rw [hrun] at hsteady hentries hnow
      exact .inl ⟨t.seg, t.disk, rfl, hsteady.sized, hsteady.path_eq, hsteady.maxSize_eq,
        ⟨hnow, fun name _ => by rw [show t.disk.entries = d.entries from hentries]⟩, hsteady.calm,
        fun _ => hentries⟩
    | error e t =>
      rw [hrun] at hsteady hentries hnow
      exact .inr ⟨e, t.disk, rfl, hentries, hnow, hsteady.calm⟩

end Methods

end InfluxCluster.HH
