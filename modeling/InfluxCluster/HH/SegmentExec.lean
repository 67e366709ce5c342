/-
  What the methods of a segment do when no call fails.

  One equation for each call on the open file (`seekEnd_eq`, `writeBytes_eq`, `readBytes_eq`, …)
  under `Calm`, then one for each method, by running its body call by call.  The bytes written are
  spelled out, and nothing is said yet about what they mean: that is `SegmentSpec`.
-/
import InfluxCluster.HH.Segment

namespace InfluxCluster.HH

open InfluxCluster.Lib

/-! ## Calls on the open file, when they succeed -/

/-- The segment's file is open as `h`, and is `f` on disk. -/
def OnFile (s : SegState) (h : Handle) (f : File) : Prop :=
  s.seg.file = some h ∧ s.disk.file? h.name = some f

theorem openFile?_of_onFile {s : SegState} {h : Handle} {f : File} (ho : OnFile s h f) :
    openFile? s = .ok (h, f) := by
  rw [openFile?, ho.1]
  simp only [ho.2]

@[simp] theorem onFile_moved {s : SegState} {h : Handle} {f : File} (ho : OnFile s h f)
    (off : Nat) : OnFile (s.moved h off) { h with off := off } f := ⟨rfl, ho.2⟩

/-- The state after `b` has been written at the offset of the handle. -/
def SegState.wrote (s : SegState) (h : Handle) (f : File) (b : Bytes) : SegState :=
  { s.moved h (h.off + b.length) with
    disk := (s.disk.skip 1).put h.name
      { data := overwrite f.data h.off b, modTime := if b = [] then f.modTime else s.disk.now } }

/-- The handle is behind what was written. -/
theorem onFile_wrote (s : SegState) (h : Handle) (f : File) (b : Bytes) :
    OnFile (s.wrote h f b) { h with off := h.off + b.length }
      { data := overwrite f.data h.off b, modTime := if b = [] then f.modTime else s.disk.now } :=
  ⟨rfl, Disk.file?_put_self _ _ _⟩

/-- The state after `n` bytes have been read at the offset of the handle. -/
def SegState.didRead (s : SegState) (h : Handle) (n : Nat) : SegState :=
  { s.moved h (h.off + n) with disk := s.disk.skip 1 }

theorem onFile_didRead {s : SegState} {h : Handle} {f : File} (ho : OnFile s h f) (n : Nat) :
    OnFile (s.didRead h n) { h with off := h.off + n } f := ⟨rfl, ho.2⟩

/-- The state after one more I/O call that changed nothing. -/
def SegState.synced (s : SegState) : SegState := { s with disk := s.disk.skip 1 }

namespace Segment

@[simp] theorem self_eq (s : SegState) : self s = .ok s.seg s := rfl

@[simp] theorem assign_eq (g : Segment → Segment) (s : SegState) :
    assign g s = .ok () { s with seg := g s.seg } := rfl

theorem seek_eq {s : SegState} {h : Handle} {f : File} (ho : OnFile s h f) (n : Nat) :
    seek n s = .ok () (s.moved h n) := by
  have hs : fileSeek n .set s = .ok (n : Int) (s.moved h n) := by
    rw [fileSeek, openFile?_of_onFile ho]
    simp only
    rw [if_neg (by omega), Int.toNat_natCast]
  rw [seek, bind_ok hs, if_neg (fun hn => hn rfl)]
  rfl

theorem seekToCurrent_eq {s : SegState} {h : Handle} {f : File} {p : Nat} (ho : OnFile s h f)
    (hp : s.seg.pos = p) : seekToCurrent s = .ok () (s.moved h p) := by
  rw [seekToCurrent, bind_ok (self_eq s), hp, seek_eq ho]

/-- To the footer. -/
theorem seekEnd_eq {s : SegState} {h : Handle} {f : File} (ho : OnFile s h f)
    (hl : footerSize ≤ f.data.length) :
    seekEnd (-footerSize) s = .ok () (s.moved h (f.data.length - footerSize)) := by
  have hs : fileSeek (-footerSize) .fromEnd s
      = .ok ((f.data.length : Int) + -footerSize) (s.moved h (f.data.length - footerSize)) := by
    rw [fileSeek, openFile?_of_onFile ho]
    simp only
    rw [if_neg (by omega), show ((f.data.length : Int) + -footerSize).toNat
      = f.data.length - footerSize by omega]
  rw [seekEnd, bind_ok hs]
  rfl

/-- To where the data ends and the footer starts. -/
theorem seekEnd_footer {s : SegState} {h : Handle} {f : File} {a c : Bytes} (ho : OnFile s h f)
    (hd : f.data = a ++ c) (hl : c.length = footerSize) :
    seekEnd (-footerSize) s = .ok () (s.moved h a.length) := by
  have hlen : f.data.length = a.length + footerSize := by rw [hd, List.length_append, hl]
  rw [seekEnd_eq ho (by omega), hlen, Nat.add_sub_cancel]

theorem file_ne_none_of_onFile {s : SegState} {h : Handle} {f : File} (ho : OnFile s h f) :
    s.seg.file ≠ none := by
  rw [ho.1]
  exact Option.some_ne_none h

/-- A write at the handle, on a calm disk. -/
theorem writeBytes_eq {s : SegState} {h : Handle} {f : File} {b : Bytes} {n : Nat}
    (ho : OnFile s h f) (hc : s.disk.Calm (n + 1)) (hr : h.off + b.length ≤ maxOffset) :
    writeBytes b s = .ok () (s.wrote h f b) := by
  have hs : fileWrite b s = .ok b.length (s.wrote h f b) := by
    rw [fileWrite, openFile?_of_onFile ho]
    simp only [Disk.outcome_of_calm hc]
    rw [if_neg (by omega)]
    rfl
  rw [writeBytes, bind_ok hs, if_neg (fun hn => hn rfl)]
  rfl

/-- A read at the handle, of bytes that are there. -/
theorem readBytes_eq {s : SegState} {h : Handle} {f : File} {n m : Nat} (ho : OnFile s h f)
    (hc : s.disk.Calm (m + 1)) (hr : h.off + n ≤ f.data.length) :
    readBytes n s = .ok ((f.data.drop h.off).take n) (s.didRead h n) := by
  have hlen : ((f.data.drop h.off).take n).length = n := by
    rw [List.length_take, List.length_drop]; omega
  have hs : fileRead n s = .ok ((f.data.drop h.off).take n) (s.didRead h n) := by
    rw [fileRead, openFile?_of_onFile ho]
    simp only [Disk.outcome_of_calm hc, hlen]
    rw [if_neg]
    · rfl
    · rintro ⟨hn, he⟩
      rw [he, List.length_nil] at hlen
      exact hn hlen.symm
  rw [readBytes, bind_ok hs, if_neg (fun hn => hn hlen)]
  rfl

theorem readUint64_eq {s : SegState} {h : Handle} {f : File} {m : Nat} (ho : OnFile s h f)
    (hc : s.disk.Calm (m + 1)) (hr : h.off + 8 ≤ f.data.length) :
    readUint64 s = .ok (beNat ((f.data.drop h.off).take 8)) (s.didRead h 8) := by
  rw [readUint64, bind_ok (readBytes_eq ho hc hr)]
  rfl

theorem fileSync_eq {s : SegState} {h : Handle} {f : File} {m : Nat} (ho : OnFile s h f)
    (hc : s.disk.Calm (m + 1)) : fileSync s = .ok () s.synced := by
  rw [fileSync, openFile?_of_onFile ho]
  simp only [Disk.outcome_of_calm hc]
  rfl

/-! ## Writing at the end of the file -/

end Segment

/-- The state `k` I/O calls after `s`, in which the file has become `data` and the handle stands
    at its end: where `append` is between any two of its writes. -/
def SegState.filed (s : SegState) (name : FileName) (data : Bytes) (k : Nat) : SegState :=
  { seg := { s.seg with file := some { name := name, off := data.length } },
    disk := (s.disk.skip k).put name { data := data, modTime := s.disk.now } }

theorem onFile_filed (s : SegState) (name : FileName) (data : Bytes) (k : Nat) :
    OnFile (s.filed name data k) { name := name, off := data.length }
      { data := data, modTime := s.disk.now } :=
  ⟨rfl, Disk.file?_put_self _ _ _⟩

theorem synced_filed (s : SegState) (name : FileName) (data : Bytes) (k : Nat) :
    (s.filed name data k).synced = s.filed name data (k + 1) := by
  simp only [SegState.synced, SegState.filed, Disk.skip_put, Disk.skip_skip]

namespace Segment

/-- A write at the end makes the file longer. -/
theorem writeBytes_filed {s : SegState} {name : FileName} {data b : Bytes} {k n : Nat}
    (hc : s.disk.Calm (k + (n + 1))) (hr : data.length + b.length ≤ maxOffset) :
    writeBytes b (s.filed name data k) = .ok () (s.filed name (data ++ b) (k + 1)) := by
  have hc' : (s.filed name data k).disk.Calm (n + 1) := Disk.calm_skip hc
  rw [writeBytes_eq (onFile_filed s name data k) hc' hr]
  simp only [SegState.wrote, SegState.moved, SegState.filed, overwrite_end, Disk.skip_put,
    Disk.skip_skip, Disk.put_put, Disk.now_put, Disk.now_skip, ite_self, List.length_append]

/-- The first write of `append` and `advance`: over the footer. -/
theorem writeUint64_footer {s : SegState} {h : Handle} {f : File} {a c : Bytes} {x n : Nat}
    (ho : OnFile s h f) (hd : f.data = a ++ c) (hl : c.length = footerSize)
    (hc : s.disk.Calm (n + 1)) (hr : a.length + 8 ≤ maxOffset) :
    writeUint64 x (s.moved h a.length) = .ok () (s.filed h.name (a ++ putUint64 x) 1) := by
  have hw := writeBytes_eq (b := putUint64 x) (n := n) (onFile_moved ho a.length) hc
    (by rw [putUint64_length]; exact hr)
  have hne : putUint64 x ≠ [] := by
    intro he
    have := putUint64_length x
    rw [he, List.length_nil] at this
    omega
  have hov : overwrite f.data a.length (putUint64 x) = a ++ putUint64 x := by
    rw [hd]
    exact overwrite_tail (by rw [hl, putUint64_length]; exact Nat.le_refl 8)
  rw [writeUint64, hw]
  simp only [SegState.wrote, SegState.moved, SegState.filed, hov, if_neg hne, List.length_append]

/-! ## The methods, when their calls succeed -/

/-- **`append`, executed**: the new record over the old footer, a new footer behind it. -/
theorem append_eq {s : SegState} {h : Handle} {f : File} {a c b : Bytes}
    (ho : OnFile s h f) (hd : f.data = a ++ c) (hl : c.length = footerSize)
    (hfit : s.seg.size + b.length ≤ s.seg.maxSize) (hc : s.disk.Calm 4)
    (hr : a.length + b.length + 16 ≤ maxOffset) :
    append b s = .ok ()
      (let s' := s.filed h.name
          (a ++ putUint64 (uint64 b.length) ++ b ++ putUint64 (uint64 s.seg.pos)) 4
       { s' with seg := { s'.seg with
          currentSize := if s.seg.currentSize = 0 then b.length else s.seg.currentSize,
          size := s.seg.size + (b.length + 8) } }) := by
  have hopen := file_ne_none_of_onFile ho
  have hseek := seekEnd_footer ho hd hl
  rw [append, bind_ok (self_eq s), if_neg hopen]
  dsimp only
  rw [if_neg (by omega), bind_ok hseek,
    bind_ok (writeUint64_footer ho hd hl (n := 3) hc (by omega)),
    bind_ok (writeBytes_filed (n := 2) hc
      (by rw [List.length_append, putUint64_length]; omega)), writeUint64,
    bind_ok (writeBytes_filed (n := 1) hc
      (by simp only [List.length_append, putUint64_length]; omega)),
    bind_ok (fileSync_eq (m := 0) (onFile_filed _ _ _ _) (Disk.calm_skip (m := 3) hc)),
    synced_filed]
  rfl

/-- `append` on a full segment does nothing. -/
theorem append_full {s : SegState} {b : Bytes} (hopen : s.seg.file ≠ none)
    (hfull : s.seg.maxSize < s.seg.size + b.length) : append b s = .error .segmentFull s := by
  rw [append, bind_ok (self_eq s), if_neg hopen]
  dsimp only
  rw [if_pos hfull]
  rfl

/-- `current` at the end of the segment. -/
theorem current_eof {s : SegState} (h : s.seg.pos = s.seg.size - 8) : current s = .error .eof s := by
  rw [current, bind_ok (self_eq s), if_pos h]
  rfl

/-- **`current`, executed** up to the size check: the header at `pos` is read into `currentSize`. -/
theorem current_eq {s : SegState} {h : Handle} {f : File} {p n : Nat} {r rest : Bytes}
    (ho : OnFile s h f) (hp : s.seg.pos = p) (hne : s.seg.pos ≠ s.seg.size - 8)
    (hd : f.data.drop p = putUint64 n ++ (r ++ rest)) (hn : n ≤ maxOffset) (hr : r.length = n)
    (hc : s.disk.Calm 2) :
    current s = if (n : Int) > s.seg.maxSize
      then .error (.recordSize s.seg.maxSize n)
        { seg := { s.seg with file := some { h with off := p + 8 }, currentSize := n },
          disk := s.disk.skip 1 }
      else .ok r
        { seg := { s.seg with file := some { h with off := p + 8 + n }, currentSize := n },
          disk := s.disk.skip 2 } := by
  have hlen : f.data.length = p + (8 + (n + rest.length)) := by
    have hl := congrArg List.length hd
    simp only [List.length_drop, List.length_append, putUint64_length, hr] at hl
    omega
  have h8 : (f.data.drop p).take 8 = putUint64 n := by
    rw [hd, List.take_left' (putUint64_length n)]
  have hbody : (f.data.drop (p + 8)).take n = r := by
    rw [← List.drop_drop, hd, List.drop_left' (putUint64_length n), List.take_left' hr]
  have hread : readUint64 (s.moved h p) = .ok n ((s.moved h p).didRead { h with off := p } 8) := by
    rw [readUint64_eq (m := 1) (onFile_moved ho p) hc (by simp only; omega)]
    simp only [h8, beNat_putUint64 hn]
  rw [current, bind_ok (self_eq s), if_neg hne]
  dsimp only
  rw [bind_ok (seekToCurrent_eq ho hp), bind_ok hread, bind_ok (assign_eq _ _), int64_ofNat hn]
  by_cases hmax : (n : Int) > s.seg.maxSize
  · rw [if_pos hmax, if_pos hmax]
    rfl
  · rw [if_neg hmax, if_neg hmax, if_neg (by omega)]
    have ho' := onFile_didRead (onFile_moved ho p) 8
    have hb := readBytes_eq (s := { ((s.moved h p).didRead { h with off := p } 8) with
        seg := { ((s.moved h p).didRead { h with off := p } 8).seg with currentSize := (n : Int) } })
      (n := n) (m := 0) (h := { h with off := p + 8 }) (f := f) ho' (Disk.calm_skip (m := 1) hc)
      (by simp only; omega)
    rw [hbody] at hb
    rw [hb]
    simp only [SegState.didRead, SegState.moved, Disk.skip_skip]

/-- `advance` at the end of the segment. -/
theorem advance_eof {s : SegState} (hopen : s.seg.file ≠ none)
    (h : s.seg.pos = s.seg.size - footerSize) :
    advance s = .error .eof { s with seg := { s.seg with currentSize := 0 } } := by
  rw [advance, bind_ok (self_eq s), if_neg hopen]
  dsimp only
  rw [if_pos h]
  rfl

/-- **`advance`, executed**: the footer is overwritten with the position after the current record,
    and the eight bytes there are read — a header, or at the end the footer just written. -/
theorem advance_eq {s : SegState} {h : Handle} {f : File} {a c : Bytes} {p n : Nat}
    (ho : OnFile s h f) (hd : f.data = a ++ c) (hl : c.length = footerSize)
    (hne : s.seg.pos ≠ s.seg.size - footerSize) (hp : s.seg.pos + s.seg.currentSize + 8 = p)
    (hpa : p ≤ a.length) (hr : a.length + 8 ≤ maxOffset)
    (hn : beNat (((a ++ putUint64 p).drop p).take 8) = n) (hnmax : n ≤ maxOffset)
    (hc : s.disk.Calm 3) :
    advance s =
      let disk := (s.disk.skip 3).put h.name { data := a ++ putUint64 p, modTime := s.disk.now }
      let seg := { s.seg with file := some { h with off := p + 8 }, pos := (p : Int) }
      if (p : Int) = s.seg.size - footerSize
      then .error .eof { seg := { seg with currentSize := 0 }, disk := disk }
      else .ok () { seg := { seg with currentSize := n }, disk := disk } := by
  have hopen := file_ne_none_of_onFile ho
  have hseek := seekEnd_footer ho hd hl
  rw [advance, bind_ok (self_eq s), if_neg hopen]
  dsimp only
  rw [if_neg hne, bind_ok hseek, hp, uint64_ofNat (by omega),
    bind_ok (writeUint64_footer ho hd hl (n := 2) hc hr),
    bind_ok (fileSync_eq (m := 1) (onFile_filed _ _ _ _) (Disk.calm_skip (m := 1) hc)),
    synced_filed, bind_ok (assign_eq _ _)]
  -- the footer is on disk and `pos` has moved: read the record there
  set t : SegState := { s.filed h.name (a ++ putUint64 p) 2 with
    seg := { (s.filed h.name (a ++ putUint64 p) 2).seg with pos := (p : Int) } } with ht
  have ho' : OnFile t { name := h.name, off := (a ++ putUint64 p).length }
      { data := a ++ putUint64 p, modTime := s.disk.now } := onFile_filed _ _ _ _
  have hread : readUint64 (t.moved { name := h.name, off := (a ++ putUint64 p).length } p)
      = .ok n ((t.moved { name := h.name, off := (a ++ putUint64 p).length } p).didRead
          { name := h.name, off := p } 8) := by
    rw [readUint64_eq (m := 0) (onFile_moved ho' p) (Disk.calm_skip (m := 2) hc)
      (by simp only [List.length_append, putUint64_length]; omega)]
    simp only [hn]
  rw [bind_ok (seekToCurrent_eq ho' rfl), bind_ok hread, bind_ok (assign_eq _ _),
    bind_ok (self_eq _), int64_ofNat hnmax]
  simp only [ht, SegState.didRead, SegState.moved, SegState.filed, Disk.skip_put, Disk.skip_skip]
  split <;> rfl

/-! ## Opening a file -/

/-- `segment.open` on an empty file writes the footer. -/
theorem openSegment_empty {s : SegState} {h : Handle} {f : File} (ho : OnFile s h f)
    (hd : f.data = []) (hoff : h.off = 0) (hs : s.seg.size = 0) (hc : s.disk.Calm 2) :
    openSegment s = .ok ()
      { seg := { s.seg with
          file := some { h with off := 8 }, pos := 0, currentSize := 0, size := footerSize },
        disk := (s.disk.skip 2).put h.name { data := putUint64 0, modTime := s.disk.now } } := by
  set t : SegState := { s with seg := { s.seg with pos := 0, currentSize := 0 } } with ht
  have hw := writeBytes_eq (s := t) (b := putUint64 0) (n := 1) ho hc
    (by rw [hoff, putUint64_length]; decide)
  have hov : overwrite f.data 0 (putUint64 0) = putUint64 0 := by
    rw [hd]; exact overwrite_end [] _
  rw [openSegment, bind_ok (self_eq s), if_pos hs, bind_ok (assign_eq _ _), writeUint64,
    bind_ok hw, bind_ok (fileSync_eq (m := 0) (onFile_wrote t h f _)
      (Disk.calm_skip (m := 1) hc)), assign_eq]
  simp only [ht, SegState.synced, SegState.wrote, SegState.moved, hov, hoff, Disk.skip_put,
    Disk.skip_skip, putUint64_length, Nat.zero_add]
  rw [if_neg (by decide), Nat.one_add]

/-- `segment.open` on a file with a footer reads the position, and the size of the record there
    unless it is the end. -/
theorem openSegment_existing {s : SegState} {h : Handle} {f : File} {a c : Bytes} {p n : Nat}
    (ho : OnFile s h f) (hd : f.data = a ++ c) (hl : c.length = footerSize)
    (hsz : s.seg.size = f.data.length) (hp : beNat c = p) (hpa : p ≤ a.length)
    (hr : a.length ≤ maxOffset)
    (hn : p < a.length → beNat ((f.data.drop p).take 8) = n ∧ n ≤ maxOffset)
    (hc : s.disk.Calm 2) :
    openSegment s = .ok ()
      (if p < a.length then
        { seg := { s.seg with file := some { h with off := p + 8 }, pos := p, currentSize := n },
          disk := s.disk.skip 2 }
       else
        { seg := { s.seg with file := some { h with off := p }, pos := p },
          disk := s.disk.skip 1 }) := by
  have hflen : f.data.length = a.length + 8 := by rw [hd, List.length_append, hl]; rfl
  have hseek := seekEnd_footer ho hd hl
  have hfoot : (f.data.drop a.length).take 8 = c := by
    rw [hd, List.drop_left]
    exact List.take_of_length_le (Nat.le_of_eq hl)
  have hread : readUint64 (s.moved h a.length)
      = .ok p ((s.moved h a.length).didRead { h with off := a.length } 8) := by
    rw [readUint64_eq (m := 1) (onFile_moved ho a.length) hc (by simp only; omega)]
    simp only [hfoot, hp]
  set t : SegState := { (s.moved h a.length).didRead { h with off := a.length } 8 with
    seg := { ((s.moved h a.length).didRead { h with off := a.length } 8).seg with
      pos := (p : Int) } } with ht
  have ho' : OnFile t { h with off := a.length + 8 } f := onFile_didRead (onFile_moved ho _) 8
  rw [openSegment, bind_ok (self_eq s), if_neg (by rw [hsz, hflen]; omega), bind_ok hseek,
    bind_ok hread, bind_ok (assign_eq _ _), int64_ofNat (by omega),
    bind_ok (seekToCurrent_eq ho' rfl), bind_ok (self_eq _)]
  have hend : (t.moved { h with off := a.length + 8 } p).seg.pos
      < (t.moved { h with off := a.length + 8 } p).seg.size - footerSize ↔ p < a.length := by
    show (p : Int) < s.seg.size - footerSize ↔ p < a.length
    rw [hsz, hflen, footerSize]
    omega
  by_cases hlt : p < a.length
  · obtain ⟨hn1, hn2⟩ := hn hlt
    have hread' : readUint64 (t.moved { h with off := a.length + 8 } p)
        = .ok n ((t.moved { h with off := a.length + 8 } p).didRead { h with off := p } 8) := by
      rw [readUint64_eq (m := 0) (onFile_moved ho' p) (Disk.calm_skip (m := 1) hc)
        (by simp only; omega)]
      simp only [hn1]
    rw [if_pos (hend.mpr hlt), bind_ok hread', assign_eq, if_pos hlt, int64_ofNat hn2]
    simp only [ht, SegState.didRead, SegState.moved, Disk.skip_skip]
  · rw [if_neg (fun hc => hlt (hend.mp hc)), if_neg hlt]
    simp only [ht, SegState.didRead, SegState.moved]
    rfl

/-- What `newSegment` does once the file is there. -/
theorem newSegment_of_file {d d' : Disk} {path : FileName} {maxSize : Int} {f : File}
    (hop : openOrCreate path d = .ok d') (hf : d'.file? path = some f) :
    newSegment path maxSize d =
      match openSegment
          { seg := { size := f.data.length, file := some { name := path, off := 0 }, path := path,
                     pos := 0, currentSize := 0, maxSize := maxSize }, disk := d' } with
      | .ok _ s => .ok s.seg s.disk
      | .error e s => .error e s.disk := by
  rw [newSegment, hop]
  dsimp only
  split
  · next h =>
    cases hf.symm.trans h
  · next f' h =>
    cases hf.symm.trans h
    rfl

theorem openOrCreate_of_file {d : Disk} {path : FileName} {f : File}
    (hf : d.file? path = some f) : openOrCreate path d = .ok d := by
  rw [openOrCreate, Disk.lookup_of_file? hf]

/-- `newSegment` on a name that is free: an empty segment with its footer. -/
theorem newSegment_create {d : Disk} {path : FileName} {maxSize : Int}
    (hfree : d.entries.lookup path = none) (hc : d.Calm 2) :
    newSegment path maxSize d = .ok
      { size := footerSize, file := some { name := path, off := 8 }, path := path, pos := 0,
        currentSize := 0, maxSize := maxSize }
      ((d.skip 2).put path { data := putUint64 0, modTime := d.now }) := by
  have hop : openOrCreate path d = .ok (d.put path { data := [], modTime := d.now }) := by
    rw [openOrCreate, hfree]
  rw [newSegment_of_file hop (Disk.file?_put_self _ _ _),
    openSegment_empty (h := { name := path, off := 0 }) (f := { data := [], modTime := d.now })
      ⟨rfl, Disk.file?_put_self _ _ _⟩ rfl rfl rfl hc]
  simp only [Disk.skip_put, Disk.put_put, Disk.now_put]

/-- `newSegment` on an existing file: the footer is `pos`, and the header there `currentSize`. -/
theorem newSegment_existing {d : Disk} {path : FileName} {maxSize : Int} {f : File} {a c : Bytes}
    {p n : Nat} (hf : d.file? path = some f) (hd : f.data = a ++ c) (hl : c.length = footerSize)
    (hp : beNat c = p) (hpa : p ≤ a.length) (hr : a.length ≤ maxOffset)
    (hn : p < a.length → beNat ((f.data.drop p).take 8) = n ∧ n ≤ maxOffset) (hc : d.Calm 2) :
    newSegment path maxSize d = .ok
      { size := f.data.length, file := some { name := path, off := if p < a.length then p + 8 else p },
        path := path, pos := p, currentSize := if p < a.length then n else 0, maxSize := maxSize }
      (d.skip (if p < a.length then 2 else 1)) := by
  rw [newSegment_of_file (openOrCreate_of_file hf) hf,
    openSegment_existing (h := { name := path, off := 0 }) ⟨rfl, hf⟩ hd hl rfl hp hpa hr hn hc]
  by_cases hlt : p < a.length
  · simp only [if_pos hlt]
  · simp only [if_neg hlt]

end Segment

end InfluxCluster.HH
