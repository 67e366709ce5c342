/-
  A segment when its calls may fail.

  READS ARE HARMLESS.  Whatever fails in `current`, nothing but the handle, the cached
  `currentSize` and the script of faults is different afterwards (`SameFile`), so the layout still
  `Holds`.  The same is true of the second half of `newSegment`, and that tells what a successful
  `newSegment` has read even off a file that does not have the layout (`newSegment_ok`).

  NEW SEGMENTS.  `newSegment` writes the footer of a file it finds empty.  When that fails, a stub
  stays behind (`FileOK`): a file that is too short for a footer and is refused from then on, or a
  file with an empty layout (`newSegment_free`, `newSegment_fileOK`).

  WRITES.  `append` on a segment `Holds` only if all its calls succeed, or the first one fails at
  once (`append_refused`).  `advance` is more robust: it writes nothing but the footer, so a failing
  call leaves the old footer or the new one (`advance_loose`) — provided the footer is written whole
  or not at all, and the cached size of the current record is right.
-/
import InfluxCluster.HH.SegmentSpec

namespace InfluxCluster.HH

open InfluxCluster.Lib

/-! ## What reading can change -/

/-- From `s` to `t` nothing changed but the offset of the handle, the cached size of the current
    record and the faults to come. -/
structure SameFile (s t : SegState) : Prop where
  handle : t.seg.file.map Handle.name = s.seg.file.map Handle.name
  size_eq : t.seg.size = s.seg.size
  pos_eq : t.seg.pos = s.seg.pos
  path_eq : t.seg.path = s.seg.path
  maxSize_eq : t.seg.maxSize = s.seg.maxSize
  entries_eq : t.disk.entries = s.disk.entries
  now_eq : t.disk.now = s.disk.now

theorem SameFile.refl (s : SegState) : SameFile s s := ⟨rfl, rfl, rfl, rfl, rfl, rfl, rfl⟩

theorem SameFile.trans {s t u : SegState} (h : SameFile s t) (h' : SameFile t u) : SameFile s u :=
  ⟨h'.handle.trans h.handle, h'.size_eq.trans h.size_eq, h'.pos_eq.trans h.pos_eq,
    h'.path_eq.trans h.path_eq, h'.maxSize_eq.trans h.maxSize_eq, h'.entries_eq.trans h.entries_eq,
    h'.now_eq.trans h.now_eq⟩

/-- Who leaves the own file alone leaves the others alone. -/
theorem SameFile.frame {s t : SegState} (h : SameFile s t) : Frame s t :=
  ⟨h.path_eq, h.maxSize_eq, h.now_eq, fun _ _ => by rw [h.entries_eq]⟩

/-- The layout survives. -/
theorem Holds.sameFile {s t : SegState} {log : Log Bytes} {j : Nat}
    (h : Holds s.seg s.disk log j) (hs : SameFile s t) : Holds t.seg t.disk log j := by
  obtain ⟨off, ho⟩ := h.handle
  obtain ⟨u, hu⟩ := h.stored
  have hname := hs.handle
  rw [ho] at hname
  obtain ⟨hd, hfile, hn⟩ := Option.map_eq_some_iff.mp hname
  refine ⟨⟨hd.off, ?_⟩, h.footer_le, ⟨u, ?_⟩, ?_, ?_, h.fits⟩
  · rw [hfile, hs.path_eq, ← show hd.name = s.seg.path from hn]
  · rw [hs.path_eq, ← hu]
    exact Disk.file?_congr (by rw [hs.entries_eq])
  · rw [hs.pos_eq, h.pos_eq]
  · rw [hs.size_eq, h.size_eq]

/-- A program that from wherever it starts changes no more than `SameFile` allows. -/
def Reads {α : Type} (x : SegM α) : Prop := ∀ s, SameFile s (final (x s))

theorem Reads.keeps {α : Type} {x : SegM α} (h : Reads x) (s : SegState) :
    Keeps (SameFile s) x :=
  keeps_iff.mpr fun t ht => ht.trans (h t)

theorem Reads.of_keeps {α : Type} {x : SegM α} (h : ∀ s, Keeps (SameFile s) x) : Reads x :=
  fun s => keeps_iff.mp (h s) s (SameFile.refl s)

theorem Reads.bind {α β : Type} {x : SegM α} {f : α → SegM β} (hx : Reads x)
    (hf : ∀ a, Reads (f a)) : Reads (x >>= f) :=
  Reads.of_keeps fun s => Triple.bind (hx.keeps s) fun a => (hf a).keeps s

theorem Reads.pure {α : Type} (a : α) : Reads (Pure.pure a) := fun s => SameFile.refl s

theorem Reads.throw {α : Type} (e : Err) : Reads (throw e : SegM α) := fun s => SameFile.refl s

theorem Reads.throw_bind {α β : Type} (e : Err) (f : α → SegM β) : Reads (MonadExcept.throw e >>= f) :=
  fun s => SameFile.refl s

theorem Reads.ite {α : Type} {c : Prop} [Decidable c] {x y : SegM α} (hx : Reads x)
    (hy : Reads y) : Reads (if c then x else y) := by
  split
  · exact hx
  · exact hy

/-- `Seek` moves the handle, and fails on a file that is closed. -/
theorem reads_fileSeek (pos : Int) (w : Whence) : Reads (fileSeek pos w) := by
  intro s
  rw [fileSeek, openFile?]
  cases hf : s.seg.file with
  | none => exact SameFile.refl s
  | some h =>
    simp only
    cases hn : s.disk.file? h.name with
    | none => exact SameFile.refl s
    | some f =>
      have hmoved : ∀ off, SameFile s (s.moved h off) := fun off =>
        ⟨by rw [hf]; rfl, rfl, rfl, rfl, rfl, rfl, rfl⟩
      cases w with
      | set =>
        dsimp only
        split
        · exact SameFile.refl s
        · exact hmoved _
      | fromEnd =>
        dsimp only
        split
        · exact SameFile.refl s
        · exact hmoved _

/-- `Read` moves it too, and takes an entry of the script. -/
theorem reads_fileRead (n : Nat) : Reads (fileRead n) := by
  intro s
  have hskip : SameFile s { s with disk := s.disk.skip 1 } := ⟨rfl, rfl, rfl, rfl, rfl, rfl, rfl⟩
  rw [fileRead, openFile?]
  cases hf : s.seg.file with
  | none => exact SameFile.refl s
  | some h =>
    simp only
    cases hn : s.disk.file? h.name with
    | none => exact SameFile.refl s
    | some f =>
      dsimp only
      cases s.disk.outcome with
      | fail m => exact hskip
      | ok =>
        dsimp only
        split
        · exact hskip
        · exact ⟨by rw [hf]; rfl, rfl, rfl, rfl, rfl, rfl, rfl⟩

namespace Segment

theorem reads_self : Reads self := fun s => SameFile.refl s

/-- The cached size is not part of what `SameFile` protects. -/
theorem reads_assign_currentSize (n : Int) :
    Reads (assign fun l => { l with currentSize := n }) := fun _ => ⟨rfl, rfl, rfl, rfl, rfl, rfl, rfl⟩

theorem reads_seekToCurrent : Reads seekToCurrent :=
  Reads.bind reads_self fun l => Reads.bind (reads_fileSeek l.pos .set) fun _ =>
    Reads.ite (Reads.throw _) (Reads.pure ())

theorem reads_readBytes (n : Nat) : Reads (readBytes n) :=
  Reads.bind (reads_fileRead n) fun b => by
    dsimp only
    split
    · exact Reads.throw_bind _ _
    · exact Reads.pure b

theorem reads_readUint64 : Reads readUint64 :=
  Reads.bind (reads_readBytes 8) fun b => Reads.pure (beNat b)

/-- **`current` changes nothing that matters**, whatever fails in it. -/
theorem reads_current : Reads current := by
  refine Reads.bind reads_self fun l => ?_
  dsimp only
  split
  · exact Reads.throw_bind _ _
  · refine Reads.bind reads_seekToCurrent fun _ => Reads.bind reads_readUint64 fun sz =>
      Reads.bind (reads_assign_currentSize _) fun _ => ?_
    split
    · exact Reads.throw_bind _ _
    · split
      · exact Reads.throw_bind _ _
      · exact reads_readBytes sz

/-- A write that fails leaves the bytes it has written. -/
theorem writeBytes_fail {s : SegState} {h : Handle} {f : File} {b : Bytes} {n : Nat}
    (ho : OnFile s h f) (hout : s.disk.outcome = .fail n) :
    writeBytes b s = .error (.os .failed) (s.wrote h f (b.take n)) := by
  have hw : fileWrite b s = .error (.os .failed) (s.wrote h f (b.take n)) := by
    rw [fileWrite, openFile?_of_onFile ho]
    simp only [hout]
    rfl
  rw [writeBytes, bind_error hw]

/-- A write that fails leaves the bytes that it has written. -/
theorem writeBytes_filed_fail {s : SegState} {name : FileName} {data b : Bytes} {k n : Nat}
    (hout : (s.disk.skip k).outcome = .fail n) :
    writeBytes b (s.filed name data k)
      = .error (.os .failed) (s.filed name (data ++ b.take n) (k + 1)) := by
  rw [writeBytes_fail (onFile_filed s name data k) hout]
  simp only [SegState.wrote, SegState.moved, SegState.filed, overwrite_end, Disk.skip_put,
    Disk.skip_skip, Disk.put_put, Disk.now_put, Disk.now_skip, ite_self, List.length_append]

/-- A `Sync` that fails. -/
theorem fileSync_fail {s : SegState} {h : Handle} {f : File} {n : Nat} (ho : OnFile s h f)
    (hout : s.disk.outcome = .fail n) : fileSync s = .error (.os .failed) s.synced := by
  rw [fileSync, openFile?_of_onFile ho]
  simp only [hout]
  rfl

/-- A length that cannot be read. -/
theorem readUint64_fail {s : SegState} {h : Handle} {f : File} {n : Nat} (ho : OnFile s h f)
    (hout : s.disk.outcome = .fail n) : readUint64 s = .error (.os .failed) s.synced := by
  have hr : fileRead 8 s = .error (.os .failed) s.synced := by
    rw [fileRead, openFile?_of_onFile ho]
    simp only [hout]
    rfl
  rw [readUint64, readBytes, bind_error (bind_error hr)]

/-- On a file that is not empty `segment.open` writes nothing. -/
theorem openSegment_disk {s : SegState} (hs : s.seg.size ≠ 0) :
    (final (openSegment s)).disk.entries = s.disk.entries ∧
      (final (openSegment s)).disk.now = s.disk.now := by
  set I : SegState → Prop := fun t => t.disk.entries = s.disk.entries ∧ t.disk.now = s.disk.now
  have hreads : ∀ {α : Type} {x : SegM α}, Reads x → Keeps I x := fun {α x} hx =>
    keeps_iff.mpr fun t ht => ⟨(hx t).entries_eq.trans ht.1, (hx t).now_eq.trans ht.2⟩
  have hassign : ∀ g, Keeps I (assign g) := fun g => keeps_iff.mpr fun t ht => ht
  rw [openSegment, bind_ok (self_eq s), if_neg hs]
  refine (keeps_iff (I := I)).mp ?_ s ⟨rfl, rfl⟩
  refine Triple.bind (hreads (Reads.bind (reads_fileSeek _ _) fun _ => Reads.pure ())) fun _ =>
    Triple.bind (hreads reads_readUint64) fun pos => Triple.bind (hassign _) fun _ => hreads ?_
  refine Reads.bind reads_seekToCurrent fun _ => Reads.bind reads_self fun l => Reads.ite ?_ ?_
  · exact Reads.bind reads_readUint64 fun n => reads_assign_currentSize (int64 n)
  · exact Reads.pure ()

/-- What a successful `newSegment` has read off a file that is not empty: the footer, and nothing
    else that it keeps. -/
theorem newSegment_ok {d d' : Disk} {path : FileName} {maxSize : Int} {f : File} {a c : Bytes}
    {l : Segment} (hf : d.file? path = some f) (hd : f.data = a ++ c) (hl : c.length = footerSize)
    (h : newSegment path maxSize d = .ok l d') :
    l.pos = int64 (beNat c) ∧ l.size = f.data.length ∧ l.path = path ∧
      (∃ off, l.file = some { name := path, off := off }) ∧
      d'.entries = d.entries ∧ d'.now = d.now := by
  have hflen : f.data.length = a.length + 8 := by rw [hd, List.length_append, hl]; rfl
  rw [newSegment_of_file (openOrCreate_of_file hf) hf] at h
  set s : SegState := ⟨⟨f.data.length, some ⟨path, 0⟩, path, 0, 0, maxSize⟩, d⟩ with hs
  have ho : OnFile s ⟨path, 0⟩ f := ⟨rfl, hf⟩
  have hseek := seekEnd_eq ho (by rw [hflen]; exact Nat.le_add_left _ _)
  rw [show f.data.length - footerSize = a.length by rw [hflen]; rfl] at hseek
  have hfoot : (f.data.drop a.length).take 8 = c := by
    rw [hd, List.drop_left]
    exact List.take_of_length_le (Nat.le_of_eq hl)
  rw [openSegment, bind_ok (self_eq s), if_neg (by rw [hs]; simp only; omega),
    bind_ok hseek] at h
  have hout : d.outcome = .ok := by
    cases ho' : d.outcome with
    | ok => rfl
    | fail n =>
      rw [bind_error (readUint64_fail (onFile_moved ho a.length) ho')] at h
      cases h
  have hread := readUint64_eq (m := 0) (onFile_moved ho a.length)
    (Disk.calm_succ_iff.mpr ⟨hout, Disk.calm_zero _⟩) (by simp only; omega)
  rw [hfoot] at hread
  rw [bind_ok hread, bind_ok (assign_eq _ _)] at h
  -- from here on the program only reads
  set t : SegState := { (s.moved ⟨path, 0⟩ a.length).didRead ⟨path, a.length⟩ 8 with
    seg := { ((s.moved ⟨path, 0⟩ a.length).didRead ⟨path, a.length⟩ 8).seg with
      pos := int64 (beNat c) } } with ht
  have hrest : Reads (do
      seekToCurrent
      let l ← self
      if l.pos < l.size - footerSize then
        let currentSize ← readUint64
        assign fun l => { l with currentSize := int64 currentSize }) := by
    refine Reads.bind reads_seekToCurrent fun _ => Reads.bind reads_self fun l => Reads.ite ?_ ?_
    · exact Reads.bind reads_readUint64 fun n => reads_assign_currentSize (int64 n)
    · exact Reads.pure ()
  have hsame := hrest t
  split at h
  · rename_i u s' he
    cases h
    rw [he, final_ok] at hsame
    refine ⟨hsame.pos_eq, hsame.size_eq, hsame.path_eq, ?_, hsame.entries_eq, hsame.now_eq⟩
    obtain ⟨hd', hfile, hname⟩ := Option.map_eq_some_iff.mp hsame.handle
    exact ⟨hd'.off, by rw [hfile, ← show hd'.name = path from hname]⟩
  · cases h

end Segment

/-! ## A new segment -/

/-- Only the entry of `path` may have changed. -/
structure Elsewhere (path : FileName) (d d' : Disk) : Prop where
  now_eq : d'.now = d.now
  others : ∀ name, name ≠ path → d'.entries.lookup name = d.entries.lookup name

/-- What `newSegment` leaves behind when it fails is a file that a later `newSegment` refuses, or
    one with the layout. -/
def FileOK (data : Bytes) : Prop :=
  data.length < footerSize ∨ ∃ items j, j ≤ items.length ∧
    data = frames footerSize items ++ putUint64 (offset footerSize items j) ∧
    (frames footerSize items).length + footerSize ≤ maxOffset

/-- A footer that was cut short can be opened again. -/
theorem fileOK_take_footer (n : Nat) : FileOK ((putUint64 0).take n) := by
  by_cases hn : n < footerSize
  · left
    rw [List.length_take]
    omega
  · right
    refine ⟨[], 0, Nat.le_refl 0, ?_, by decide⟩
    exact List.take_of_length_le (by rw [putUint64_length]; unfold footerSize at hn; omega)

namespace Segment

/-- `segment.open` on an empty file, when the footer or the sync fails. -/
theorem openSegment_stub {s : SegState} {h : Handle} {f : File} (ho : OnFile s h f)
    (hd : f.data = []) (hoff : h.off = 0) (hs : s.seg.size = 0) (hc : ¬ s.disk.Calm 2) :
    ∃ e s' k g, openSegment s = .error e s' ∧ s'.disk = (s.disk.skip k).put h.name g ∧
      FileOK g.data := by
  set t : SegState := { s with seg := { s.seg with pos := 0, currentSize := 0 } } with ht
  have ho' : OnFile t h f := ho
  have hov : ∀ part, overwrite f.data h.off part = part := by
    intro part
    rw [hd, hoff]
    exact overwrite_end [] part
  rw [openSegment, bind_ok (self_eq s), if_pos hs, bind_ok (assign_eq _ _), writeUint64]
  cases ho1 : s.disk.outcome with
  | fail n =>
    refine ⟨_, _, 1, _, bind_error (writeBytes_fail ho' ho1), rfl, ?_⟩
    rw [hov]
    exact fileOK_take_footer n
  | ok =>
    have hc1 : s.disk.Calm 1 := Disk.calm_succ_iff.mpr ⟨ho1, Disk.calm_zero _⟩
    rw [bind_ok (writeBytes_eq (n := 0) ho' hc1 (by rw [hoff, putUint64_length]; decide))]
    cases ho2 : (s.disk.skip 1).outcome with
    | ok =>
      exact absurd (Disk.calm_succ_iff.mpr
        ⟨ho1, Disk.calm_succ_iff.mpr ⟨ho2, Disk.calm_zero _⟩⟩) hc
    | fail n =>
      refine ⟨_, _, 2, ⟨overwrite f.data h.off (putUint64 0),
        if putUint64 0 = [] then f.modTime else s.disk.now⟩,
        bind_error (fileSync_fail (onFile_wrote t h f _) ho2), ?_, ?_⟩
      · show ((s.disk.skip 1).put h.name _).skip 1 = _
        rw [Disk.skip_put, Disk.skip_skip]
      · rw [hov, ← List.take_of_length_le (Nat.le_of_eq (putUint64_length 0))]
        exact fileOK_take_footer 8

/-- **`newSegment` on an empty file**, whatever fails: an empty segment, or an error and a stub. -/
theorem newSegment_emptyFile {d : Disk} {path : FileName} (maxSize : Int) {f : File}
    (hf : d.file? path = some f) (hd : f.data = []) :
    (∃ l g, newSegment path maxSize d = .ok l ((d.skip 2).put path g) ∧
      Clean l ((d.skip 2).put path g) Log.empty ∧ l.path = path ∧ l.maxSize = maxSize) ∨
    (¬ d.Calm 2 ∧ ∃ e k g, newSegment path maxSize d = .error e ((d.skip k).put path g) ∧
      FileOK g.data) := by
  have hlen : (f.data.length : Int) = 0 := by rw [hd]; rfl
  rw [newSegment_of_file (openOrCreate_of_file hf) hf]
  by_cases hc : d.Calm 2
  · rw [openSegment_empty (h := { name := path, off := 0 }) ⟨rfl, hf⟩ hd rfl hlen hc]
    refine Or.inl ⟨_, _, rfl, ⟨⟨⟨8, rfl⟩, Nat.le_refl 0, ⟨d.now, ?_⟩, rfl, rfl, by decide⟩, rfl,
      fun r hr => absurd hr List.not_mem_nil⟩, rfl, rfl⟩
    exact Disk.file?_put_self _ _ _
  · obtain ⟨e, s', k, g, he, hdisk, hg⟩ := openSegment_stub (h := { name := path, off := 0 })
      (s := ⟨⟨f.data.length, some ⟨path, 0⟩, path, 0, 0, maxSize⟩, d⟩) ⟨rfl, hf⟩ hd rfl hlen hc
    refine Or.inr ⟨hc, e, k, g, ?_, hg⟩
    rw [he]
    simp only [hdisk]

/-- **`newSegment` on a name that no file has**, whatever fails: an empty segment, or an error and
    at most a stub under that name. -/
theorem newSegment_free {d : Disk} {path : FileName} (maxSize : Int)
    (hfree : d.file? path = none) :
    (∃ l d', newSegment path maxSize d = .ok l d' ∧ Clean l d' Log.empty ∧ l.path = path ∧
      l.maxSize = maxSize ∧ Elsewhere path d d' ∧ d'.script = d.script.drop 2) ∨
    (∃ e d', newSegment path maxSize d = .error e d' ∧ Elsewhere path d d' ∧
      (d.Calm 2 → d' = d) ∧ (d' = d ∨ ∃ f, d'.file? path = some f ∧ FileOK f.data)) := by
  cases hl : d.entries.lookup path with
  | some x =>
    cases x with
    | file f =>
      rw [Disk.file?, hl] at hfree
      cases hfree
    | dir =>
      refine Or.inr ⟨.os .isDir, d, ?_, ⟨rfl, fun _ _ => rfl⟩, fun _ => rfl, Or.inl rfl⟩
      rw [newSegment, openOrCreate, hl]
  | none =>
    -- the file is created, and is empty
    set d₀ := d.put path { data := [], modTime := d.now } with hd₀
    have hop : openOrCreate path d = .ok d₀ := by
      rw [openOrCreate, hl]
    have hf₀ : d₀.file? path = some { data := [], modTime := d.now } := Disk.file?_put_self _ _ _
    have hcreated : newSegment path maxSize d = newSegment path maxSize d₀ := by
      rw [newSegment_of_file hop hf₀, newSegment_of_file (openOrCreate_of_file hf₀) hf₀]
    have hput : ∀ k g, (d₀.skip k).put path g = (d.skip k).put path g := fun k g => by
      rw [hd₀, Disk.skip_put, Disk.put_put]
    have helse : ∀ k g, Elsewhere path d ((d.skip k).put path g) := fun k g =>
      ⟨rfl, fun name hn => lookup_put_ne _ _ hn⟩
    rw [hcreated]
    rcases newSegment_emptyFile maxSize hf₀ rfl with ⟨l, g, he, hcl, hp, hm⟩ | ⟨hc, e, k, g, he, hg⟩
    · rw [hput] at he hcl
      exact Or.inl ⟨l, _, he, hcl, hp, hm, helse 2 g, rfl⟩
    · rw [hput] at he
      exact Or.inr ⟨e, _, he, helse k g, fun h => absurd h hc,
        Or.inr ⟨g, Disk.file?_put_self _ _ _, hg⟩⟩

/-- A file too short for a footer is refused. -/
theorem newSegment_short {d : Disk} {path : FileName} {maxSize : Int} {f : File}
    (hf : d.file? path = some f) (hd : f.data ≠ []) (hlen : f.data.length < footerSize) :
    newSegment path maxSize d = .error (.os .invalid) d := by
  have hpos : 0 < f.data.length := List.length_pos_iff.mpr hd
  rw [newSegment_of_file (openOrCreate_of_file hf) hf]
  set s : SegState := ⟨⟨f.data.length, some ⟨path, 0⟩, path, 0, 0, maxSize⟩, d⟩ with hs
  have ho : OnFile s ⟨path, 0⟩ f := ⟨rfl, hf⟩
  have hseek : fileSeek (-footerSize) .fromEnd s = .error (.os .invalid) s := by
    rw [fileSeek, openFile?_of_onFile ho]
    simp only
    rw [if_pos (by omega)]
  have hrun : openSegment s = .error (.os .invalid) s := by
    rw [openSegment, bind_ok (self_eq s), if_neg (by rw [hs]; simp only; omega),
      bind_error (show seekEnd (-footerSize) s = _ from bind_error hseek)]
  rw [hrun]

end Segment

/-- The file of a log can be opened again, and has a footer. -/
theorem Holds.fileOK {l : Segment} {d : Disk} {log : Log Bytes} {j : Nat} (h : Holds l d log j)
    {f : File} (hf : d.file? l.path = some f) : FileOK f.data ∧ footerSize ≤ f.data.length := by
  obtain ⟨t, ht⟩ := h.stored
  rw [hf] at ht
  cases ht
  refine ⟨Or.inr ⟨log.items, j, h.footer_le, rfl, h.fits⟩, ?_⟩
  rw [List.length_append, putUint64_length]
  exact Nat.le_add_left _ _

namespace Segment

/-- **`newSegment` on a file that a segment can leave behind**, whatever fails: nothing else on disk
    changes, the file stays one of this kind, it is not written if it has a footer, and if there is
    a segment it has a layout. -/
theorem newSegment_fileOK {d : Disk} {path : FileName} (maxSize : Int) {f : File}
    (hf : d.file? path = some f) (hok : FileOK f.data) :
    Elsewhere path d (final (newSegment path maxSize d)) ∧
    (∃ g, (final (newSegment path maxSize d)).file? path = some g ∧ FileOK g.data) ∧
    (footerSize ≤ f.data.length →
      (final (newSegment path maxSize d)).entries = d.entries) ∧
    ∀ l d', newSegment path maxSize d = .ok l d' →
      l.path = path ∧ ∃ log j, Holds l d' log j := by
  by_cases hshort : f.data.length < footerSize
  · by_cases hd : f.data = []
    · have helse : ∀ k g, Elsewhere path d ((d.skip k).put path g) := fun k g =>
        ⟨rfl, fun name hn => lookup_put_ne _ _ hn⟩
      rcases newSegment_emptyFile maxSize hf hd with ⟨l, g, he, hcl, hp, -⟩ | ⟨-, e, k, g, he, hg⟩
      · rw [he]
        refine ⟨helse 2 g, ⟨g, Disk.file?_put_self _ _ _, ?_⟩, fun h => absurd h (by omega), ?_⟩
        · exact (hcl.toHolds.fileOK (by rw [hp]; exact Disk.file?_put_self _ _ _)).1
        · intro l' d' hx
          cases hx
          exact ⟨hp, _, _, hcl.toHolds⟩
      · rw [he]
        refine ⟨helse k g, ⟨g, Disk.file?_put_self _ _ _, hg⟩, fun h => absurd h (by omega), ?_⟩
        intro l' d' hx
        cases hx
    · rw [newSegment_short hf hd hshort]
      refine ⟨⟨rfl, fun _ _ => rfl⟩, ⟨f, hf, hok⟩, fun _ => rfl, ?_⟩
      intro l' d' hx
      cases hx
  · -- there is a footer: the file is only read
    obtain ⟨items, j, hj, hdata, hfits⟩ := hok.resolve_left hshort
    have hdisk : (final (newSegment path maxSize d)).entries = d.entries ∧
        (final (newSegment path maxSize d)).now = d.now := by
      rw [newSegment_of_file (openOrCreate_of_file hf) hf]
      have hopen := openSegment_disk
        (s := ⟨⟨f.data.length, some ⟨path, 0⟩, path, 0, 0, maxSize⟩, d⟩)
        (by simp only; unfold footerSize at hshort; omega)
      split
      · rename_i u s' he
        rw [he] at hopen
        exact hopen
      · rename_i e s' he
        rw [he] at hopen
        exact hopen
    refine ⟨⟨hdisk.2, fun _ _ => by rw [hdisk.1]⟩, ⟨f, ?_, hok⟩, fun _ => hdisk.1, ?_⟩
    · rw [← hf]
      exact Disk.file?_congr (by rw [hdisk.1])
    · intro l d' he
      obtain ⟨hpos, hsize, hp, hfile, hent, -⟩ := newSegment_ok hf hdata (putUint64_length _) he
      have hle := offset_le footerSize items j
      refine ⟨hp, ⟨items, j, hj⟩, j, ?_, hj, ⟨f.modTime, ?_⟩, ?_, ?_, hfits⟩
      · rw [hp]
        exact hfile
      · rw [hp, ← hdata, Disk.file?_congr (d := d) (by rw [hent]), hf]
      · rw [hpos, beNat_putUint64 (by omega), int64_ofNat (by omega)]
      · rw [hsize, hdata, List.length_append, putUint64_length]
        rfl

end Segment

/-! ## Writes -/

/-- A write of no bytes leaves the layout as it is. -/
theorem Holds.wrote_nil {s : SegState} {log : Log Bytes} {j : Nat} (h : Holds s.seg s.disk log j)
    {hd : Handle} {f : File} (ho : OnFile s hd f) (hname : hd.name = s.seg.path) (off : Nat) :
    Holds ((s.moved hd off).wrote { hd with off := off } f []).seg
        ((s.moved hd off).wrote { hd with off := off } f []).disk log j ∧
      Frame s ((s.moved hd off).wrote { hd with off := off } f []) := by
  obtain ⟨t, ht⟩ := h.stored
  have hf : f = { data := frames footerSize log.items
      ++ putUint64 (offset footerSize log.items j), modTime := t } := by
    have hfile := ho.2
    rw [hname, ht] at hfile
    exact (Option.some.inj hfile).symm
  refine ⟨⟨⟨off, ?_⟩, h.footer_le, ⟨t, ?_⟩, h.pos_eq, h.size_eq, h.fits⟩, rfl, rfl, rfl, ?_⟩
  · simp only [SegState.wrote, SegState.moved, List.length_nil, Nat.add_zero, hname]
  · simp only [SegState.wrote, SegState.moved, overwrite_nil, if_pos, hname, hf]
    exact Disk.file?_put_self _ _ _
  · intro name hn
    refine lookup_put_ne _ _ ?_
    rw [hname]
    exact hn

namespace Segment

/-- An `append` whose first write fails before its first byte leaves the segment as it is. -/
theorem append_refused {s : SegState} {log : Log Bytes} {j : Nat} {b : Bytes}
    (h : Holds s.seg s.disk log j) (hfit : s.seg.size + b.length ≤ s.seg.maxSize)
    (hout : s.disk.outcome = .fail 0) :
    ∃ t, append b s = .error (.os .failed) t ∧ Holds t.seg t.disk log j ∧ Frame s t := by
  obtain ⟨hd, u, ho, hname⟩ := h.onFile
  have hopen : s.seg.file ≠ none := by rw [ho.1]; exact Option.some_ne_none hd
  have hseek := seekEnd_eq ho (by
    rw [List.length_append, putUint64_length]; exact Nat.le_add_left _ _)
  rw [append, bind_ok (self_eq s), if_neg hopen]
  dsimp only
  rw [if_neg (by omega), bind_ok hseek, writeUint64,
    bind_error (writeBytes_fail (onFile_moved ho _) hout), List.take_zero]
  exact ⟨_, rfl, h.wrote_nil ho hname _⟩

/-- The end of `advance`, once `pos` has moved, only reads. -/
theorem reads_advance_end : Reads (do
    seekToCurrent
    let sz ← readUint64
    assign fun l => { l with currentSize := int64 sz }
    let l ← self
    if l.pos = l.size - footerSize then
      assign fun l => { l with currentSize := 0 }
      throw .eof) := by
  refine Reads.bind reads_seekToCurrent fun _ => Reads.bind reads_readUint64 fun sz =>
    Reads.bind (reads_assign_currentSize _) fun _ => Reads.bind reads_self fun l =>
    Reads.ite ?_ (Reads.pure ())
  exact Reads.bind (reads_assign_currentSize _) fun _ => Reads.throw _

/-- **`advance` when something fails in it**: the footer is the old one or the new one, and `pos` is
    the old one or has moved.  This needs a footer that is written whole or not at all, and a cached
    size that is right. -/
theorem advance_loose {s : SegState} {log : Log Bytes} {j : Nat} (h : Holds s.seg s.disk log j)
    (hsafe : log.Drained ∨ s.seg.currentSize = currentLen log ∧
      (s.disk.outcome = .ok ∨ s.disk.outcome = .fail 0)) :
    ∃ log' j', Holds (final (advance s)).seg (final (advance s)).disk log' j' ∧
      Frame s (final (advance s)) := by
  obtain ⟨hd, u, ho, hname⟩ := h.onFile
  have hopen : s.seg.file ≠ none := by rw [ho.1]; exact Option.some_ne_none hd
  by_cases hdr : log.Drained
  · rw [advance_eof hopen (h.pos_eq_end_iff.mpr hdr)]
    have hsame : SameFile s { s with seg := { s.seg with currentSize := 0 } } :=
      ⟨rfl, rfl, rfl, rfl, rfl, rfl, rfl⟩
    exact ⟨log, j, h.sameFile hsame, hsame.frame⟩
  obtain ⟨hcur, hout⟩ := hsafe.resolve_left hdr
  have hlt := Log.cursor_lt_of_not_drained hdr
  have hfits := h.fits
  have hle := offset_le footerSize log.items (log.cursor + 1)
  have hseek := seekEnd_eq ho (by
    rw [List.length_append, putUint64_length]; exact Nat.le_add_left _ _)
  have hend : (frames footerSize log.items ++ putUint64 (offset footerSize log.items j)).length
      - footerSize = (frames footerSize log.items).length := by
    rw [List.length_append, putUint64_length, footerSize, Nat.add_sub_cancel]
  have hp : s.seg.pos + s.seg.currentSize + 8
      = (offset footerSize log.items (log.cursor + 1) : Nat) := by
    rw [h.pos_eq, hcur, currentLen_of_lt hlt, offset_succ hlt, footerSize]
    omega
  rw [hend] at hseek
  rw [advance, bind_ok (self_eq s), if_neg hopen]
  dsimp only
  rw [if_neg (fun he => hdr (h.pos_eq_end_iff.mp he)), bind_ok hseek, hp, uint64_ofNat (by omega)]
  rcases hout with hout | hout
  · -- the new footer is on disk; `pos` moves only if the sync succeeds
    rw [bind_ok (writeUint64_footer ho rfl (putUint64_length _) (n := 0)
      (Disk.calm_succ_iff.mpr ⟨hout, Disk.calm_zero _⟩) (by unfold footerSize at *; omega)), hname]
    set t := s.filed s.seg.path (frames footerSize log.items
      ++ putUint64 (offset footerSize log.items (log.cursor + 1))) 1 with ht
    have hframe : Frame s t := ⟨rfl, rfl, rfl, fun name hn => lookup_put_ne _ _ hn⟩
    have hfile : ∃ u, t.disk.file? s.seg.path = some
        { data := frames footerSize log.items
            ++ putUint64 (offset footerSize log.items (log.cursor + 1)),
          modTime := u } :=
      ⟨_, Disk.file?_put_self _ _ _⟩
    cases hout' : (s.disk.skip 1).outcome with
    | fail n =>
      rw [bind_error (fileSync_fail (onFile_filed s _ _ 1) hout')]
      exact ⟨log, log.cursor + 1, ⟨⟨_, rfl⟩, hlt, hfile, h.pos_eq, h.size_eq, h.fits⟩,
        hframe.path_eq, hframe.maxSize_eq, hframe.now_eq, hframe.others⟩
    | ok =>
      rw [bind_ok (fileSync_eq (m := 0) (onFile_filed s _ _ 1)
        (Disk.calm_succ_iff.mpr ⟨hout', Disk.calm_zero _⟩)), bind_ok (assign_eq _ _)]
      set v : SegState := { t.synced with seg := { t.synced.seg with
        pos := (offset footerSize log.items (log.cursor + 1) : Int) } } with hv
      have hmoved : Holds v.seg v.disk log.next (log.cursor + 1) := by
        rw [Log.next_of_lt hlt]
        exact ⟨⟨_, rfl⟩, hlt, hfile, rfl, h.size_eq, h.fits⟩
      have hsame := reads_advance_end v
      exact ⟨log.next, log.cursor + 1, hmoved.sameFile hsame, hsame.path_eq, hsame.maxSize_eq,
        hsame.now_eq, fun name hn => (hsame.frame.others name hn).trans (hframe.others name hn)⟩
  · rw [writeUint64, bind_error (writeBytes_fail (onFile_moved ho _) hout), List.take_zero]
    exact ⟨log, j, h.wrote_nil ho hname _⟩

end Segment

end InfluxCluster.HH
