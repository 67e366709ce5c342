/-
  An append that is cut off.

  The length of the new record goes over the OLD FOOTER, and the new footer is the last of the three
  writes.  `append_cut` gives the file for each of the four points at which the process can stop or
  a write can fail:

      0 writes   records | footer
      1 write    records | length of b                 — read as the footer by `newSegment`
      2 writes   records | length of b | b             — the end of b is read as the footer
      3 writes   records | length of b | b | footer

  With 0 or 3 writes the segment is found again, without or with the new record.  With 1 or 2 it is
  found again only if the bytes that stand where the footer is expected happen to be the right ones.
-/
import InfluxCluster.HH.SegmentFaults
import InfluxCluster.HH.SegmentRun

namespace InfluxCluster.HH

open InfluxCluster.Lib

/-! ## The file after the cut -/

/-- The faults that stop an append after `k` of its writes. -/
def cutScript (k : Nat) : List Outcome := List.replicate k .ok ++ [.fail 0]

theorem calm_cutScript {d : Disk} {k : Nat} (h : d.script = cutScript k) : d.Calm k := by
  intro o ho
  rw [h, cutScript, List.take_left' List.length_replicate] at ho
  exact (List.mem_replicate.mp ho).2

theorem outcome_cutScript {d : Disk} {k : Nat} (h : d.script = cutScript k) :
    (d.skip k).outcome = .fail 0 := by
  rw [Disk.outcome, Disk.skip, h, cutScript, List.drop_left' List.length_replicate]
  rfl

/-- What stands behind the records when an append of `b` has been stopped after `k` writes; `foot`
    was there before. -/
def cutTail (foot b : Bytes) (pos : Int) : Nat → Bytes
  | 0 => foot
  | 1 => putUint64 (uint64 b.length)
  | 2 => putUint64 (uint64 b.length) ++ b
  | _ => putUint64 (uint64 b.length) ++ b ++ putUint64 (uint64 pos)

/-- **`append`, stopped after `k` of its writes.**  In memory only the offset of the handle has
    changed. -/
theorem Segment.append_cut {s : SegState} {h : Handle} {f : File} {a c b : Bytes} {k : Nat}
    (ho : OnFile s h f) (hd : f.data = a ++ c) (hl : c.length = footerSize)
    (hfit : s.seg.size + b.length ≤ s.seg.maxSize) (hr : a.length + b.length + 16 ≤ maxOffset)
    (hk : k ≤ 3) (hs : s.disk.script = cutScript k) :
    ∃ s' off t, append b s = .error (.os .failed) s' ∧
      s'.seg = { s.seg with file := some { h with off := off } } ∧
      s'.disk.file? h.name = some { data := a ++ cutTail c b s.seg.pos k, modTime := t } ∧
      s'.disk.script = [] := by
  have hopen := file_ne_none_of_onFile ho
  have hseek := seekEnd_footer ho hd hl
  have hcalm := calm_cutScript hs
  have hout := outcome_cutScript hs
  have hrun : append b s = (writeUint64 (uint64 b.length) >>= fun _ => writeBytes b >>= fun _ =>
      writeUint64 (uint64 s.seg.pos) >>= fun _ => fileSync >>= fun _ => assign fun l =>
        { l with
          currentSize := if l.currentSize = 0 then b.length else l.currentSize,
          size := l.size + (b.length + 8) }) (s.moved h a.length) := by
    rw [append, bind_ok (self_eq s), if_neg hopen]
    dsimp only
    rw [if_neg (by omega), bind_ok hseek]
  have hscript : ∀ name data, (s.filed name data (k + 1)).disk.script = [] := by
    intro name data
    show s.disk.script.drop (k + 1) = []
    rw [hs, cutScript, List.drop_eq_nil_iff]
    simp
  have hfile : ∀ data, ∃ t, (s.filed h.name data (k + 1)).disk.file? h.name
      = some { data := data, modTime := t } := fun data => ⟨_, Disk.file?_put_self _ _ _⟩
  rw [hrun]
  obtain rfl | rfl | rfl | rfl : k = 0 ∨ k = 1 ∨ k = 2 ∨ k = 3 := by omega
  · -- nothing written: the old footer is still there
    have hw := writeBytes_fail (b := putUint64 (uint64 b.length)) (onFile_moved ho a.length) hout
    refine ⟨_, a.length, f.modTime, bind_error hw, rfl, ?_, ?_⟩
    · rw [← show f.data = a ++ cutTail c b s.seg.pos 0 from hd]
      simp only [SegState.wrote, List.take_zero, overwrite_nil]
      exact Disk.file?_put_self _ _ _
    · show s.disk.script.drop 1 = []
      rw [hs]
      rfl
  · obtain ⟨t, ht⟩ := hfile (a ++ putUint64 (uint64 b.length) ++ b.take 0)
    rw [bind_ok (writeUint64_footer ho hd hl (n := 0) hcalm (by omega)),
      bind_error (writeBytes_filed_fail hout)]
    refine ⟨_, _, t, rfl, rfl, ?_, hscript _ _⟩
    rw [ht, List.take_zero, List.append_nil]
    rfl
  · obtain ⟨t, ht⟩ := hfile (a ++ putUint64 (uint64 b.length) ++ b ++ (putUint64 _).take 0)
    rw [bind_ok (writeUint64_footer ho hd hl (n := 1) hcalm (by omega)),
      bind_ok (writeBytes_filed (n := 0) hcalm
        (by rw [List.length_append, putUint64_length]; omega)), writeUint64,
      bind_error (writeBytes_filed_fail hout)]
    refine ⟨_, _, t, rfl, rfl, ?_, hscript _ _⟩
    rw [ht, List.take_zero, List.append_nil, List.append_assoc]
    rfl
  · -- all three written: only the `Sync` failed
    obtain ⟨t, ht⟩ := hfile
      (a ++ putUint64 (uint64 b.length) ++ b ++ putUint64 (uint64 s.seg.pos))
    have hsync : fileSync (s.filed h.name
          (a ++ putUint64 (uint64 b.length) ++ b ++ putUint64 (uint64 s.seg.pos)) 3)
        = .error (.os .failed) (s.filed h.name
          (a ++ putUint64 (uint64 b.length) ++ b ++ putUint64 (uint64 s.seg.pos)) 4) := by
      rw [fileSync_fail (onFile_filed _ _ _ _) hout, synced_filed]
    rw [bind_ok (writeUint64_footer ho hd hl (n := 2) hcalm (by omega)),
      bind_ok (writeBytes_filed (n := 1) hcalm
        (by rw [List.length_append, putUint64_length]; omega)), writeUint64,
      bind_ok (writeBytes_filed (n := 0) hcalm
        (by simp only [List.length_append, putUint64_length]; omega)), bind_error hsync]
    refine ⟨_, _, t, rfl, rfl, ?_, hscript _ _⟩
    rw [ht, List.append_assoc, List.append_assoc]
    rfl

/-! ## Is the segment found again? -/

/-- The segment after an append of `b` has been stopped after `k` of its writes. -/
def cutAppend (b : Bytes) (k : Nat) (s : SegState) : SegState :=
  final (Segment.append b { s with disk := { s.disk with script := cutScript k } })

/-- The position is the old one, and the records to come are the old ones, without or with `b` at
    the end. -/
def Intact (l : Segment) (d : Disk) (pos : Int) (rem : List Bytes) (b : Bytes) : Prop :=
  l.pos = pos ∧ (unread l d = some rem ∨ unread l d = some (rem ++ [b]))

/-- The segment survives the cut: it is intact when the file is opened again, and when the segment
    in memory is used on. -/
structure SurvivesCut (s : SegState) (b : Bytes) (k : Nat) (rem : List Bytes) : Prop where
  reopened : ∀ maxSize, ∃ l d,
    newSegment s.seg.path maxSize (cutAppend b k s).disk = .ok l d ∧ Intact l d s.seg.pos rem b
  continued : Intact (cutAppend b k s).seg (cutAppend b k s).disk s.seg.pos rem b

/-- What a cut leaves of a segment with the layout. -/
theorem cutAppend_spec {s : SegState} {log : Log Bytes} {b : Bytes} {k : Nat}
    (h : Holds s.seg s.disk log log.cursor) (hfit : s.seg.size + b.length ≤ s.seg.maxSize)
    (hroom : s.seg.size + b.length + 8 ≤ maxOffset) (hk : k ≤ 3) :
    ∃ off t, (cutAppend b k s).seg
        = { s.seg with file := some { name := s.seg.path, off := off } } ∧
      (cutAppend b k s).disk.file? s.seg.path = some
        { data := frames footerSize log.items
            ++ cutTail (putUint64 (offset footerSize log.items log.cursor)) b s.seg.pos k,
          modTime := t } ∧
      (cutAppend b k s).disk.script = [] := by
  obtain ⟨hd, t, ho, hname⟩ := h.onFile
  have hsz := h.size_eq
  set s0 : SegState := { s with disk := { s.disk with script := cutScript k } } with hs0
  have ho' : OnFile s0 hd _ := ho
  obtain ⟨s', off, t', he, hseg, hfile, hscr⟩ := Segment.append_cut (b := b) (k := k) ho' rfl
    (putUint64_length _) hfit (by unfold footerSize at *; omega) hk rfl
  have hcut : cutAppend b k s = s' := by
    rw [cutAppend, ← hs0, he]; rfl
  rw [hcut]
  exact ⟨off, t', by rw [hseg, hname], by rw [← hname]; exact hfile, hscr⟩

/-- In memory the old records are still there: a cut changes nothing in front of the footer. -/
theorem cutAppend_continued {s : SegState} {log : Log Bytes} {b : Bytes} {k : Nat}
    (h : Holds s.seg s.disk log log.cursor) (hfit : s.seg.size + b.length ≤ s.seg.maxSize)
    (hroom : s.seg.size + b.length + 8 ≤ maxOffset) (hk : k ≤ 3) :
    Intact (cutAppend b k s).seg (cutAppend b k s).disk s.seg.pos log.remaining b := by
  obtain ⟨off, t, hseg, hfile, -⟩ := cutAppend_spec h hfit hroom hk
  refine ⟨by rw [hseg], Or.inl ?_⟩
  rw [← h.unread_eq]
  obtain ⟨u, hu⟩ := h.stored
  have hn : (s.seg.size - footerSize).toNat = (frames footerSize log.items).length := by
    rw [h.size_eq]; omega
  rw [unread, unread, hseg]
  simp only
  rw [hfile, hu]
  simp only [hn, List.take_left]

/-- Behind the records stands the old footer: the segment is found again as it was. -/
theorem reopened_of_footer {s : SegState} {log : Log Bytes} {b : Bytes} {k : Nat}
    (h : Holds s.seg s.disk log log.cursor) (hfit : s.seg.size + b.length ≤ s.seg.maxSize)
    (hroom : s.seg.size + b.length + 8 ≤ maxOffset) (hk : k ≤ 3)
    (htail : cutTail (putUint64 (offset footerSize log.items log.cursor)) b s.seg.pos k
      = putUint64 (offset footerSize log.items log.cursor)) (maxSize : Int) :
    ∃ l d, newSegment s.seg.path maxSize (cutAppend b k s).disk = .ok l d ∧
      Intact l d s.seg.pos log.remaining b := by
  obtain ⟨off, t, -, hfile, hscr⟩ := cutAppend_spec h hfit hroom hk
  rw [htail] at hfile
  obtain ⟨l, m, he, hh, -, -, -⟩ := Segment.newSegment_holds maxSize log.cursor_le hfile h.fits
    (Disk.calm_of_script_nil hscr 2)
  refine ⟨l, _, he, ?_, Or.inl hh.unread_eq⟩
  rw [hh.pos_eq, h.pos_eq]

/-- All three writes were made: the segment is found again with the new record. -/
theorem reopened_of_three {s : SegState} {log : Log Bytes} {b : Bytes}
    (h : Holds s.seg s.disk log log.cursor) (hfit : s.seg.size + b.length ≤ s.seg.maxSize)
    (hroom : s.seg.size + b.length + 8 ≤ maxOffset) (maxSize : Int) :
    ∃ l d, newSegment s.seg.path maxSize (cutAppend b 3 s).disk = .ok l d ∧
      Intact l d s.seg.pos log.remaining b := by
  obtain ⟨off, t, -, hfile, hscr⟩ := cutAppend_spec h hfit hroom (Nat.le_refl 3)
  have hbytes := h.pushed_bytes hroom
  rw [List.append_assoc, List.append_assoc, ← List.append_assoc (putUint64 _)] at hbytes
  rw [show cutTail (putUint64 (offset footerSize log.items log.cursor)) b s.seg.pos 3
    = putUint64 (uint64 b.length) ++ b ++ putUint64 (uint64 s.seg.pos) from rfl, hbytes] at hfile
  have hsz := h.size_eq
  have hflen := Holds.frames_push_length log b
  obtain ⟨l, m, he, hh, -, -, -⟩ := Segment.newSegment_holds maxSize (log.push b).cursor_le hfile
    (by unfold footerSize at *; omega) (Disk.calm_of_script_nil hscr 2)
  refine ⟨l, _, he, ?_, Or.inr ?_⟩
  · rw [hh.pos_eq, h.pos_eq]
    show ((offset footerSize (log.items ++ [b]) log.cursor : Nat) : Int) = _
    rw [offset_append log.cursor_le]
  · rw [hh.unread_eq, ← Log.remaining_push]

/-- One write was made: the length of `b` is taken for the position. -/
theorem pos_of_one {s : SegState} {log : Log Bytes} {b : Bytes} {l : Segment} {d : Disk}
    {maxSize : Int} (h : Holds s.seg s.disk log log.cursor)
    (hfit : s.seg.size + b.length ≤ s.seg.maxSize) (hroom : s.seg.size + b.length + 8 ≤ maxOffset)
    (he : newSegment s.seg.path maxSize (cutAppend b 1 s).disk = .ok l d) :
    l.pos = b.length := by
  obtain ⟨off, t, -, hfile, hscr⟩ := cutAppend_spec h hfit hroom (show 1 ≤ 3 by omega)
  have hsz := h.size_eq
  have hlen : b.length ≤ maxOffset := by unfold footerSize at *; omega
  obtain ⟨hpos, -⟩ := Segment.newSegment_ok hfile rfl (putUint64_length _) he
  rw [hpos]
  show int64 (beNat (putUint64 (uint64 b.length))) = b.length
  rw [uint64_ofNat hlen, beNat_putUint64 hlen, int64_ofNat hlen]

/-- Two writes were made: as many bytes as `b` has stand between the records and what is taken for
    the footer, and they are no record. -/
theorem empty_of_two {s : SegState} {log : Log Bytes} {b : Bytes} {l : Segment} {d : Disk}
    {maxSize : Int} (h : Holds s.seg s.disk log log.cursor)
    (hfit : s.seg.size + b.length ≤ s.seg.maxSize) (hroom : s.seg.size + b.length + 8 ≤ maxOffset)
    (he : newSegment s.seg.path maxSize (cutAppend b 2 s).disk = .ok l d)
    (hi : Intact l d s.seg.pos log.remaining b) : b = [] := by
  obtain ⟨off, t, -, hfile, hscr⟩ := cutAppend_spec h hfit hroom (show 2 ≤ 3 by omega)
  have hle := offset_le footerSize log.items log.cursor
  set tail : Bytes := putUint64 (uint64 b.length) ++ b with htail
  have htlen : tail.length = b.length + 8 := by
    rw [htail, List.length_append, putUint64_length, Nat.add_comm]
  -- the file as newSegment sees it: a footer of eight bytes at the end
  have hsplit : frames footerSize log.items ++ cutTail
      (putUint64 (offset footerSize log.items log.cursor)) b s.seg.pos 2
      = (frames footerSize log.items ++ tail.take b.length) ++ tail.drop b.length := by
    rw [List.append_assoc, List.take_append_drop]
    rfl
  have hfoot : (tail.drop b.length).length = footerSize := by
    rw [List.length_drop, htlen, footerSize]; omega
  rw [hsplit] at hfile
  obtain ⟨-, hsize, hpath, -, hent, -⟩ := Segment.newSegment_ok hfile rfl hfoot he
  have hfile' := (Disk.file?_congr (by rw [hent])).trans hfile
  have hfront : (frames footerSize log.items ++ tail.take b.length).length
      = (frames footerSize log.items).length + b.length := by
    rw [List.length_append, List.length_take, htlen]; omega
  have hlsize : l.size - footerSize
      = (frames footerSize log.items ++ tail.take b.length).length := by
    have hwhole : (frames footerSize log.items ++ tail.take b.length
        ++ tail.drop b.length).length = _ + (tail.drop b.length).length := List.length_append
    simp only at hsize
    omega
  have hlpos : l.pos = offset footerSize log.items log.cursor := by rw [hi.1, h.pos_eq]
  have hread : unread l d = deframe footerSize
      (frames footerSize log.remaining ++ tail.take b.length) := by
    rw [unread, hpath, hfile']
    simp only
    rw [if_neg (by omega), hlpos, hlsize, Int.toNat_natCast, Int.toNat_natCast, List.take_left,
      List.drop_append_of_le_length hle, frames_drop_offset]
    rfl
  have hlen : ∀ rs, unread l d = some rs →
      (frames footerSize log.remaining).length + b.length = (frames footerSize rs).length := by
    intro rs hrs
    rw [hread] at hrs
    have hb := congrArg List.length (deframe_sound hrs)
    rw [List.length_append, List.length_take, htlen] at hb
    omega
  rcases hi.2 with hu | hu
  · have := hlen _ hu
    exact List.length_eq_zero_iff.mp (by omega)
  · have := hlen _ hu
    rw [frames_append, List.length_append, frames_cons, frames_nil, List.append_nil, frame_length,
      footerSize] at this
    omega

end InfluxCluster.HH
