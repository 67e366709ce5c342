/-
  The layout of a segment's file, and that the methods keep it.

  `Holds l d log j`: the file of segment `l` on disk `d` is the framing of `log.items` followed by a
  footer that points at record `j`, and the counters in memory agree with it — `size` is the length
  of the file, `pos` the position of the record under the log's cursor.  The footer has an index of
  its own because a failing `Sync` can leave it ahead of `pos`; as long as nothing fails it is the
  cursor, and that, together with a cached `currentSize` that is the size of the record at `pos`, is
  `Clean`.

  `append`, `current` and `advance` are `push`, "look" and `next` of that log, and each touches
  nothing but its own file (`Frame`).  Each comes in two versions: on a segment that `Holds` its log
  (`append_holds`, …) and on one that is `Clean` (`append_clean`, …).  The cached `currentSize` is
  the delicate field: it is set by three different operations, and `append` takes 0 to mean "nothing
  left to read", which is right only as long as no record is empty.
-/
import InfluxCluster.HH.SegmentExec
import InfluxCluster.Lib.Log

namespace InfluxCluster.HH

open InfluxCluster.Lib

/-! ## The layout -/

/-- **The layout of a segment.**  The file holds the items of `log`, framed, and a footer that
    points at record `j`; the counters in memory are those of the file and of the log's cursor. -/
structure Holds (l : Segment) (d : Disk) (log : Log Bytes) (j : Nat) : Prop where
  handle : ∃ off, l.file = some { name := l.path, off := off }
  footer_le : j ≤ log.items.length
  stored : ∃ t, d.file? l.path = some
    { data := frames footerSize log.items ++ putUint64 (offset footerSize log.items j),
      modTime := t }
  pos_eq : l.pos = offset footerSize log.items log.cursor
  size_eq : l.size = (frames footerSize log.items).length + footerSize
  fits : (frames footerSize log.items).length + footerSize ≤ maxOffset

/-- The size of the record under the cursor, 0 when there is none. -/
def currentLen (log : Log Bytes) : Nat := (log.remaining.head?.map List.length).getD 0

/-- **The layout while nothing fails**: the footer is `pos`, the cached size is the size of the
    record at `pos`, and no record is empty. -/
structure Clean (l : Segment) (d : Disk) (log : Log Bytes) : Prop
    extends Holds l d log log.cursor where
  cur_eq : l.currentSize = currentLen log
  nonempty : ∀ r ∈ log.items, r ≠ []

/-- The records from `pos` to the footer, read off the file; `none` if `pos` is not a position in
    front of the footer or the bytes between are not records. -/
def unread (l : Segment) (d : Disk) : Option (List Bytes) :=
  match d.file? l.path with
  | none => none
  | some f =>
    if l.pos < 0 ∨ l.size - footerSize < l.pos then none
    else deframe footerSize ((f.data.take (l.size - footerSize).toNat).drop l.pos.toNat)

/-- A method of segment `s.seg` touched its own file only. -/
structure Frame (s s' : SegState) : Prop where
  path_eq : s'.seg.path = s.seg.path
  maxSize_eq : s'.seg.maxSize = s.seg.maxSize
  now_eq : s'.disk.now = s.disk.now
  others : ∀ name, name ≠ s.seg.path → s'.disk.entries.lookup name = s.disk.entries.lookup name

theorem Frame.refl (s : SegState) : Frame s s := ⟨rfl, rfl, rfl, fun _ _ => rfl⟩

namespace Holds

variable {l : Segment} {d : Disk} {log : Log Bytes} {j : Nat}

/-- The record under the cursor, as it lies in the file. -/
theorem drop_pos (log : Log Bytes) (hlt : log.cursor < log.items.length) (foot : Bytes) :
    (frames footerSize log.items ++ foot).drop (offset footerSize log.items log.cursor)
      = putUint64 log.items[log.cursor].length
        ++ (log.items[log.cursor] ++ (frames footerSize (log.items.drop (log.cursor + 1)) ++ foot)) := by
  rw [List.drop_append_of_le_length (offset_le _ _ _), frames_drop_offset_cons hlt]
  simp only [putUint64, List.append_assoc]

/-- `pos` is at the footer exactly when everything has been read. -/
theorem pos_eq_end_iff (h : Holds l d log j) : l.pos = l.size - footerSize ↔ log.Drained := by
  rw [h.pos_eq, h.size_eq, Log.Drained,
    ← offset_eq_end_iff (w := footerSize) (by decide) log.cursor_le]
  omega

/-- What the file holds between `pos` and the footer is what remains of the log. -/
theorem unread_eq (h : Holds l d log j) : unread l d = some log.remaining := by
  obtain ⟨t, ht⟩ := h.stored
  have hle := offset_le footerSize log.items log.cursor
  rw [unread, ht]
  simp only
  rw [if_neg (by rw [h.pos_eq, h.size_eq]; omega), h.pos_eq, h.size_eq, Int.toNat_natCast,
    show ((frames footerSize log.items).length + (footerSize : Int) - footerSize).toNat
      = (frames footerSize log.items).length by omega,
    List.take_left, frames_drop_offset, Log.remaining]
  refine deframe_frames (by decide) fun r hr => ?_
  have := length_le_frames (w := footerSize) (List.mem_of_mem_drop hr)
  have := h.fits
  unfold maxOffset footerSize at *
  omega

theorem item_le (h : Holds l d log j) {r : Bytes} (hr : r ∈ log.items) : r.length ≤ maxOffset := by
  have := length_le_frames (w := footerSize) hr
  have := h.fits
  omega

/-- The open handle and the file under it. -/
theorem onFile {s : SegState} (h : Holds s.seg s.disk log j) : ∃ hd t,
    OnFile s hd { data := frames footerSize log.items
      ++ putUint64 (offset footerSize log.items j), modTime := t } ∧ hd.name = s.seg.path := by
  obtain ⟨off, ho⟩ := h.handle
  obtain ⟨t, ht⟩ := h.stored
  exact ⟨_, t, ⟨ho, ht⟩, rfl⟩

/-- The layout depends on nothing but the segment's own file. -/
theorem congr {d' : Disk} (h : Holds l d log j)
    (hd : d'.entries.lookup l.path = d.entries.lookup l.path) : Holds l d' log j := by
  refine ⟨h.handle, h.footer_le, ?_, h.pos_eq, h.size_eq, h.fits⟩
  obtain ⟨t, ht⟩ := h.stored
  exact ⟨t, by rw [← ht, Disk.file?, Disk.file?, hd]⟩

/-- The bytes that `append` writes over the footer make the layout of the longer log. -/
theorem pushed_bytes {b : Bytes} (h : Holds l d log j) (hr : l.size + b.length + 8 ≤ maxOffset) :
    frames footerSize log.items ++ putUint64 (uint64 b.length) ++ b ++ putUint64 (uint64 l.pos)
      = frames footerSize (log.push b).items
        ++ putUint64 (offset footerSize (log.push b).items log.cursor) := by
  have hsz := h.size_eq
  have hle := offset_le footerSize log.items log.cursor
  have hpos : uint64 l.pos = offset footerSize log.items log.cursor := by
    rw [h.pos_eq, uint64_ofNat (by unfold footerSize at *; omega)]
  have hlen : uint64 (b.length : Int) = b.length :=
    uint64_ofNat (by unfold footerSize at *; omega)
  rw [hpos, hlen, Log.push_items, offset_append log.cursor_le, frames_append, frames_cons, frame]
  simp [putUint64]

theorem frames_push_length (log : Log Bytes) (b : Bytes) : (frames footerSize (log.push b).items).length
    = (frames footerSize log.items).length + (b.length + 8) := by
  rw [Log.push_items, frames_append, List.length_append, frames_cons, frames_nil,
    List.append_nil, frame_length, footerSize]
  omega

end Holds

theorem lookup_put_ne (d : Disk) {name other : FileName} (f : File) (h : other ≠ name) :
    (d.put name f).entries.lookup other = d.entries.lookup other := AList.lookup_insert_ne h

theorem currentLen_of_lt {log : Log Bytes} (h : log.cursor < log.items.length) :
    currentLen log = log.items[log.cursor].length := by
  rw [currentLen, Log.remaining_of_lt h]; rfl

theorem currentLen_of_drained {log : Log Bytes} (h : log.Drained) : currentLen log = 0 := by
  rw [currentLen, (Log.remaining_eq_nil_iff log).mpr h]; rfl

namespace Segment

/-! ## The methods on the layout -/

/-- **`append` is `push`.** -/
theorem append_holds {s : SegState} {log : Log Bytes} {j : Nat} {b : Bytes}
    (h : Holds s.seg s.disk log j) (hfit : s.seg.size + b.length ≤ s.seg.maxSize)
    (hc : s.disk.Calm 4) (hr : s.seg.size + b.length + 8 ≤ maxOffset) :
    ∃ s', append b s = .ok () s' ∧ Holds s'.seg s'.disk (log.push b) log.cursor ∧ Frame s s' ∧
      s'.disk.script = s.disk.script.drop 4 ∧
      s'.seg.currentSize = if s.seg.currentSize = 0 then (b.length : Int) else s.seg.currentSize := by
  obtain ⟨hd, t, ho, hname⟩ := h.onFile
  have hsz := h.size_eq
  have hdata := h.pushed_bytes hr
  have hflen := Holds.frames_push_length log b
  refine ⟨_, append_eq ho rfl (putUint64_length _) hfit hc (by unfold footerSize at *; omega),
    ?_, ?_, ?_, rfl⟩
  · refine ⟨⟨_, by rw [hname]; rfl⟩, Nat.le_trans log.cursor_le (by simp), ⟨s.disk.now, ?_⟩, ?_,
      ?_, ?_⟩
    · simp only [SegState.filed, hname, hdata]
      exact Disk.file?_put_self _ _ _
    · simp only [SegState.filed, Log.push_cursor, Log.push_items, offset_append log.cursor_le]
      exact h.pos_eq
    · simp only [hflen, hsz]
      omega
    · rw [hflen]
      unfold footerSize at *
      omega
  · refine ⟨rfl, rfl, rfl, fun name hne => ?_⟩
    simp only [SegState.filed, hname]
    exact lookup_put_ne _ _ hne
  · rfl

/-- `append` on a clean segment: the cached size was 0 exactly if nothing was left to read. -/
theorem append_clean {s : SegState} {log : Log Bytes} {b : Bytes} (h : Clean s.seg s.disk log)
    (hb : b ≠ []) (hfit : s.seg.size + b.length ≤ s.seg.maxSize)
    (hc : s.disk.Calm 4) (hr : s.seg.size + b.length + 8 ≤ maxOffset) :
    ∃ s', append b s = .ok () s' ∧ Clean s'.seg s'.disk (log.push b) ∧ Frame s s' ∧
      s'.disk.script = s.disk.script.drop 4 := by
  obtain ⟨s', he, hh, hf, hs, hcur⟩ := append_holds h.toHolds hfit hc hr
  refine ⟨s', he, ⟨hh, ?_, ?_⟩, hf, hs⟩
  · rw [hcur, h.cur_eq]
    by_cases hd : log.Drained
    · rw [currentLen_of_drained hd, if_pos Nat.cast_zero, currentLen, Log.remaining_push,
        (Log.remaining_eq_nil_iff log).mpr hd]
      rfl
    · have hlt := Log.cursor_lt_of_not_drained hd
      have hne : log.items[log.cursor] ≠ [] := h.nonempty _ (List.getElem_mem hlt)
      have hpos : 0 < log.items[log.cursor].length := List.length_pos_iff.mpr hne
      rw [currentLen_of_lt hlt, if_neg (by omega), currentLen, Log.remaining_push,
        Log.remaining_of_lt hlt]
      rfl
  · intro r hr
    rcases List.mem_append.mp hr with hr | hr
    · exact h.nonempty r hr
    · rw [List.mem_singleton.mp hr]; exact hb

/-- The state after `current` has read up to `off`, `k` I/O calls later. -/
def looked (s : SegState) (off cs k : Nat) : SegState :=
  { seg := { s.seg with file := some { name := s.seg.path, off := off }, currentSize := cs },
    disk := s.disk.skip k }

/-- **`current` looks at the record under the cursor**, and caches its size. -/
theorem current_holds {s : SegState} {log : Log Bytes} {j : Nat} (h : Holds s.seg s.disk log j)
    (hlt : log.cursor < log.items.length) (hc : s.disk.Calm 2) :
    ∃ s' k, (current s = if (log.items[log.cursor].length : Int) > s.seg.maxSize
        then .error (.recordSize s.seg.maxSize log.items[log.cursor].length) s'
        else .ok log.items[log.cursor] s') ∧
      Holds s'.seg s'.disk log j ∧ Frame s s' ∧ s'.disk = s.disk.skip k ∧
      s'.seg.currentSize = currentLen log := by
  obtain ⟨hd, t, ho, hname⟩ := h.onFile
  have hne : s.seg.pos ≠ s.seg.size - footerSize := fun he =>
    absurd (h.pos_eq_end_iff.mp he) (Nat.ne_of_lt hlt)
  have he := current_eq ho h.pos_eq hne (Holds.drop_pos log hlt _)
    (h.item_le (List.getElem_mem hlt)) rfl hc
  have hcur := currentLen_of_lt hlt
  have hkeep : ∀ off k, Holds (looked s off (currentLen log) k).seg
      (looked s off (currentLen log) k).disk log j := fun off k =>
    ⟨⟨off, rfl⟩, h.footer_le, h.stored, h.pos_eq, h.size_eq, h.fits⟩
  have hframe : ∀ off k, Frame s (looked s off (currentLen log) k) := fun _ _ =>
    ⟨rfl, rfl, rfl, fun _ _ => rfl⟩
  rw [← currentLen_of_lt hlt, hname] at he
  rw [← currentLen_of_lt hlt]
  by_cases hmax : (currentLen log : Int) > s.seg.maxSize
  · refine ⟨looked s (offset footerSize log.items log.cursor + 8) (currentLen log) 1, 1, ?_,
      hkeep _ _, hframe _ _, rfl, rfl⟩
    rw [he, if_pos hmax, if_pos hmax]
    rfl
  · refine ⟨looked s (offset footerSize log.items log.cursor + 8 + currentLen log)
      (currentLen log) 2, 2, ?_, hkeep _ _, hframe _ _, rfl, rfl⟩
    rw [he, if_neg hmax, if_neg hmax]
    rfl

/-- What `advance` finds at the new position: the next header, or at the end the footer it has
    just written. -/
theorem header_at {items : List Bytes} {k : Nat} (hk : k ≤ items.length)
    (hfits : (frames footerSize items).length ≤ maxOffset) :
    beNat (((frames footerSize items ++ putUint64 (offset footerSize items k)).drop
        (offset footerSize items k)).take 8)
      = if h : k < items.length then items[k].length else offset footerSize items k := by
  have hle := offset_le footerSize items k
  by_cases hlt : k < items.length
  · have hdrop := Holds.drop_pos ⟨items, k, hk⟩ hlt (putUint64 (offset footerSize items k))
    have hmem := length_le_frames (w := footerSize) (List.getElem_mem hlt)
    simp only at hdrop
    rw [hdrop, List.take_left' (putUint64_length _), dif_pos hlt, beNat_putUint64 (by omega)]
  · have hend : offset footerSize items k = (frames footerSize items).length :=
      (offset_eq_end_iff (by decide) hk).mpr (by omega)
    rw [dif_neg hlt]
    conv_lhs => rw [hend]
    rw [List.drop_left, List.take_of_length_le (by rw [putUint64_length]), ← hend,
      beNat_putUint64 (by omega)]

/-- The state after `advance` has moved to record `k`. -/
def advanced (s : SegState) (items : List Bytes) (k : Nat) (cs : Int) : SegState :=
  { seg := { s.seg with
      file := some { name := s.seg.path, off := offset footerSize items k + 8 },
      pos := (offset footerSize items k : Int), currentSize := cs },
    disk := (s.disk.skip 3).put s.seg.path
      { data := frames footerSize items ++ putUint64 (offset footerSize items k),
        modTime := s.disk.now } }

/-- **`advance` is `next`**, provided the cached size is the size of the record at `pos`; it
    answers `io.EOF` when that was the last record. -/
theorem advance_holds {s : SegState} {log : Log Bytes} {j : Nat} (h : Holds s.seg s.disk log j)
    (hnd : ¬ log.Drained) (hcur : s.seg.currentSize = currentLen log) (hc : s.disk.Calm 3) :
    ∃ s', (advance s = if log.next.Drained then .error .eof s' else .ok () s') ∧
      Holds s'.seg s'.disk log.next log.next.cursor ∧ Frame s s' ∧
      s'.disk.script = s.disk.script.drop 3 ∧ s'.seg.currentSize = currentLen log.next := by
  obtain ⟨hd, t, ho, hname⟩ := h.onFile
  have hlt := Log.cursor_lt_of_not_drained hnd
  have hnext := Log.next_of_lt hlt
  have hne : s.seg.pos ≠ s.seg.size - footerSize := fun he => hnd (h.pos_eq_end_iff.mp he)
  have hfits := h.fits
  have hle := offset_le footerSize log.items (log.cursor + 1)
  have hp : s.seg.pos + s.seg.currentSize + 8
      = (offset footerSize log.items (log.cursor + 1) : Nat) := by
    rw [h.pos_eq, hcur, currentLen_of_lt hlt, offset_succ hlt, footerSize]
    omega
  have hhead := header_at (k := log.cursor + 1) hlt (by omega)
  have hbound : (if h : log.cursor + 1 < log.items.length then log.items[log.cursor + 1].length
      else offset footerSize log.items (log.cursor + 1)) ≤ maxOffset := by
    split
    · rename_i hlt'; exact h.item_le (List.getElem_mem hlt')
    · omega
  have he := advance_eq ho rfl (putUint64_length _) hne hp hle
    (by unfold footerSize at *; omega) hhead hbound hc
  have hdrained : (offset footerSize log.items (log.cursor + 1) : Int)
      = s.seg.size - footerSize ↔ log.next.Drained := by
    have hend := offset_eq_end_iff (w := footerSize) (by decide)
      (show log.cursor + 1 ≤ log.items.length from hlt)
    rw [h.size_eq, hnext]
    exact Iff.trans (by omega) hend
  have hholds : ∀ cs, Holds (advanced s log.items (log.cursor + 1) cs).seg
      (advanced s log.items (log.cursor + 1) cs).disk log.next log.next.cursor := by
    intro cs
    rw [hnext]
    exact ⟨⟨_, rfl⟩, hlt, ⟨s.disk.now, Disk.file?_put_self _ _ _⟩, rfl, h.size_eq, h.fits⟩
  have hframe : ∀ cs, Frame s (advanced s log.items (log.cursor + 1) cs) := fun cs =>
    ⟨rfl, rfl, rfl, fun name hn => lookup_put_ne _ _ hn⟩
  rw [hname] at he
  by_cases hdr : log.next.Drained
  · refine ⟨advanced s log.items (log.cursor + 1) 0, ?_, hholds 0, hframe 0, rfl,
      by rw [currentLen_of_drained hdr]; rfl⟩
    rw [he, if_pos hdr, if_pos (hdrained.mpr hdr)]
    rfl
  · have hlt' := Log.cursor_lt_of_not_drained hdr
    have hlen := currentLen_of_lt hlt'
    simp only [hnext] at hlt' hlen
    refine ⟨advanced s log.items (log.cursor + 1) (log.items[log.cursor + 1].length), ?_, hholds _,
      hframe _, rfl, ?_⟩
    · rw [he, if_neg hdr, if_neg (fun hx => hdr (hdrained.mp hx)), dif_pos hlt']
      rfl
    · rw [hnext, hlen]
      rfl

/-- `current` on a clean segment. -/
theorem current_clean {s : SegState} {log : Log Bytes} (h : Clean s.seg s.disk log)
    (hc : s.disk.Calm 2) :
    ∃ s', final (current s) = s' ∧ Clean s'.seg s'.disk log ∧ Frame s s' ∧
      ∃ k, s'.disk = s.disk.skip k := by
  by_cases hd : log.Drained
  · refine ⟨s, ?_, h, Frame.refl s, 0, rfl⟩
    rw [current_eof (h.pos_eq_end_iff.mpr hd)]
    rfl
  · obtain ⟨s', k, he, hh, hf, hk, hcur⟩ :=
      current_holds h.toHolds (Log.cursor_lt_of_not_drained hd) hc
    refine ⟨s', ?_, ⟨hh, hcur, h.nonempty⟩, hf, k, hk⟩
    rw [he]
    split <;> rfl

/-- `advance` on a clean segment; at the end it answers `io.EOF` and changes nothing. -/
theorem advance_clean {s : SegState} {log : Log Bytes} (h : Clean s.seg s.disk log)
    (hc : s.disk.Calm 3) :
    ∃ s', (advance s = if log.next.Drained then .error .eof s' else .ok () s') ∧
      Clean s'.seg s'.disk log.next ∧ Frame s s' ∧ ∃ k, s'.disk.script = s.disk.script.drop k := by
  by_cases hd : log.Drained
  · have hcur : s.seg.currentSize = 0 := by
      rw [h.cur_eq, currentLen_of_drained hd]; rfl
    obtain ⟨off, ho⟩ := h.handle
    have hseg : { s with seg := { s.seg with currentSize := 0 } } = s := by rw [← hcur]
    refine ⟨s, ?_, ?_, Frame.refl s, 0, rfl⟩
    · rw [Log.next_of_drained hd, if_pos hd,
        advance_eof (by rw [ho]; exact Option.some_ne_none _) (h.pos_eq_end_iff.mpr hd), hseg]
    · rw [Log.next_of_drained hd]
      exact h
  · obtain ⟨s', he, hh, hf, hs, hcur⟩ := advance_holds h.toHolds hd h.cur_eq hc
    refine ⟨s', he, ⟨hh, hcur, fun r hr => h.nonempty r ?_⟩, hf, 3, hs⟩
    rw [Log.next_items] at hr
    exact hr

/-- A file with the layout is opened at the record its footer points at. -/
theorem newSegment_holds {d : Disk} {path : FileName} (maxSize : Int) {items : List Bytes}
    {j : Nat} {t : Time} (hj : j ≤ items.length)
    (hf : d.file? path = some
      { data := frames footerSize items ++ putUint64 (offset footerSize items j), modTime := t })
    (hfits : (frames footerSize items).length + footerSize ≤ maxOffset) (hc : d.Calm 2) :
    ∃ l k, newSegment path maxSize d = .ok l (d.skip k) ∧ Holds l (d.skip k) ⟨items, j, hj⟩ j ∧
      l.path = path ∧ l.maxSize = maxSize ∧ l.currentSize = currentLen ⟨items, j, hj⟩ := by
  have hle := offset_le footerSize items j
  have hend := offset_eq_end_iff (w := footerSize) (by decide) hj
  have hlt_iff : offset footerSize items j < (frames footerSize items).length
      ↔ j < items.length := by omega
  have hhead := header_at hj (by omega)
  refine ⟨_, _, newSegment_existing (n := currentLen ⟨items, j, hj⟩) hf rfl (putUint64_length _)
    (beNat_putUint64 (by omega)) hle (by omega) ?_ hc, ?_, rfl, rfl, ?_⟩
  · intro hlt
    have hjlt := hlt_iff.mp hlt
    have hcur : currentLen ⟨items, j, hj⟩ = items[j].length := currentLen_of_lt hjlt
    have hmem := length_le_frames (w := footerSize) (List.getElem_mem hjlt)
    simp only
    rw [hhead, dif_pos hjlt, hcur]
    exact ⟨rfl, by omega⟩
  · exact ⟨⟨_, rfl⟩, hj, ⟨t, hf⟩, rfl,
      by simp only [List.length_append, putUint64_length, Nat.cast_add]; rfl, hfits⟩
  · by_cases hlt : offset footerSize items j < (frames footerSize items).length
    · simp only [if_pos hlt]
    · have hd : (⟨items, j, hj⟩ : Log Bytes).Drained := hend.mp (by omega)
      simp only [if_neg hlt, currentLen_of_drained hd, Nat.cast_zero]

/-- A new segment is the empty log. -/
theorem newSegment_clean {d : Disk} {path : FileName} (maxSize : Int)
    (hfree : d.entries.lookup path = none) (hc : d.Calm 2) :
    ∃ l f, newSegment path maxSize d = .ok l ((d.skip 2).put path f) ∧
      Clean l ((d.skip 2).put path f) Log.empty ∧ l.path = path ∧ l.maxSize = maxSize := by
  refine ⟨_, _, newSegment_create hfree hc, ⟨⟨⟨8, rfl⟩, Nat.le_refl 0, ⟨d.now, ?_⟩, rfl, rfl,
    by decide⟩, rfl, fun r hr => absurd hr List.not_mem_nil⟩, rfl, rfl⟩
  exact Disk.file?_put_self _ _ _

end Segment

end InfluxCluster.HH
