/-
  `Open` and `Close` while nothing fails.

  `Close` closes the files and forgets the segments; all that is left is the directory.  `Open`
  lists the directory, opens the numeric files in the order of the listing — which is the order of
  the NAMES AS STRINGS — and drops the first segment if it has nothing left to read.

  `Loadable d lg` says that each segment file of the directory holds the log `lg` gives to its name.
  Under it `Open` gives a queue in use whose content is that of the logs, in the order of the
  listing (`open_good`).
-/
import InfluxCluster.HH.QueueClean

namespace InfluxCluster.HH

open InfluxCluster.Lib

/-- The file `name` holds the log, with its cursor as the footer. -/
structure Stored (d : Disk) (name : FileName) (log : Log Bytes) : Prop where
  file : ∃ t, d.file? name = some
    { data := frames footerSize log.items
        ++ putUint64 (offset footerSize log.items log.cursor), modTime := t }
  fits : (frames footerSize log.items).length + footerSize ≤ maxOffset
  nonempty : ∀ r ∈ log.items, r ≠ []

/-- Every segment file of the directory holds the log of its name. -/
def Loadable (d : Disk) (lg : FileName → Log Bytes) : Prop :=
  ∀ name f, d.file? name = some f → parseUint name ≠ none → Stored d name (lg name)

/-- The names of the segment files, in the order of the listing. -/
def segmentNames (files : List (FileName × Entry)) : List FileName :=
  (files.filter fun e => (segmentID e).isSome).map Prod.fst

theorem segmentNames_cons_none {e : FileName × Entry} {files : List (FileName × Entry)}
    (h : segmentID e = none) : segmentNames (e :: files) = segmentNames files := by
  rw [segmentNames, List.filter_cons_of_neg (by rw [h]; exact Bool.false_ne_true), segmentNames]

theorem segmentNames_cons_some {e : FileName × Entry} {files : List (FileName × Entry)} {n : Nat}
    (h : segmentID e = some n) : segmentNames (e :: files) = e.1 :: segmentNames files := by
  rw [segmentNames, List.filter_cons_of_pos (by rw [h]; rfl), List.map_cons, segmentNames]

/-- The listed names of segment files are the numeric names of files. -/
theorem mem_segmentNames {d : Disk} {name : FileName} :
    name ∈ segmentNames d.readDir ↔ (∃ f, d.file? name = some f) ∧ parseUint name ≠ none := by
  rw [segmentNames, List.mem_map]
  constructor
  · rintro ⟨⟨n, e⟩, he, rfl⟩
    obtain ⟨hmem, hid⟩ := List.mem_filter.mp he
    have hl := Disk.mem_readDir.mp hmem
    cases e with
    | dir => cases hid
    | file f =>
      refine ⟨⟨f, by rw [Disk.file?, hl]⟩, ?_⟩
      exact Option.ne_none_iff_isSome.mpr hid
  · rintro ⟨⟨f, hf⟩, hn⟩
    refine ⟨(name, .file f),
      List.mem_filter.mpr ⟨Disk.mem_readDir.mpr (Disk.lookup_of_file? hf), ?_⟩, rfl⟩
    exact Option.ne_none_iff_isSome.mp hn

/-- Without segment files nothing is loaded, and the next name is free. -/
theorem loadEntries_none (m : Int) {files : List (FileName × Entry)} (h : segmentNames files = [])
    (s : QState) : Queue.loadEntries m files s = .ok [] s := by
  induction files with
  | nil => rfl
  | cons e files ih =>
    cases hid : segmentID e with
    | none =>
      rw [segmentNames_cons_none hid] at h
      rw [Queue.loadEntries, hid]
      exact ih h
    | some n =>
      rw [segmentNames_cons_some hid] at h
      cases h

theorem nextFree_of_segmentNames_nil {d : Disk} (h : segmentNames d.readDir = []) : NextFree d := by
  refine nextFree_of_none fun name f hf => ?_
  by_contra hn
  have hmem := mem_segmentNames.mpr ⟨⟨f, hf⟩, hn⟩
  rw [h] at hmem
  cases hmem

/-- They are listed in increasing order, each once. -/
theorem segmentNames_sorted (d : Disk) : (segmentNames d.readDir).Pairwise (· < ·) :=
  (Disk.readDir_sorted d).sublist (List.filter_sublist.map Prod.fst)

theorem segmentNames_nodup (d : Disk) : (segmentNames d.readDir).Nodup :=
  (segmentNames_sorted d).imp fun hlt => ne_of_lt hlt

/-- The listing has the names of the segments, if each has a numeric file and each numeric file is
    that of one of them. -/
theorem perm_segmentNames {α : Type} {d : Disk} {path : α → FileName} {l : List α}
    (hpaths : (l.map path).Nodup) (hfile : ∀ a ∈ l, ∃ f, d.file? (path a) = some f)
    (hnumeric : ∀ a ∈ l, parseUint (path a) ≠ none)
    (howned : ∀ name f, d.file? name = some f → parseUint name ≠ none → ∃ a ∈ l, path a = name) :
    (l.map path).Perm (segmentNames d.readDir) := by
  refine (List.perm_ext_iff_of_nodup hpaths (segmentNames_nodup d)).mpr fun name => ?_
  rw [mem_segmentNames, List.mem_map]
  constructor
  · rintro ⟨a, ha, rfl⟩
    exact ⟨hfile a ha, hnumeric a ha⟩
  · rintro ⟨⟨f, hf⟩, hn⟩
    exact howned name f hf hn

/-- What loading leaves alone: the queue, the segments there were, and the files. -/
structure Loaded (s s' : QState) : Prop where
  q_eq : s'.q = s.q
  next_le : s.next ≤ s'.next
  heap_eq : ∀ p, p < s.next → s'.heap p = s.heap p
  entries_eq : s'.disk.entries = s.disk.entries
  now_eq : s'.disk.now = s.disk.now
  calm : s.disk.script = [] → s'.disk.script = []

theorem Loaded.refl (s : QState) : Loaded s s :=
  ⟨rfl, Nat.le_refl _, fun _ _ => rfl, rfl, rfl, fun h => h⟩

theorem Loaded.trans {s t u : QState} (h : Loaded s t) (h' : Loaded t u) : Loaded s u :=
  ⟨h'.q_eq.trans h.q_eq, Nat.le_trans h.next_le h'.next_le,
    fun p hp => (h'.heap_eq p (Nat.lt_of_lt_of_le hp h.next_le)).trans (h.heap_eq p hp),
    h'.entries_eq.trans h.entries_eq, h'.now_eq.trans h.now_eq, fun hc => h'.calm (h.calm hc)⟩

/-- Opening one file that holds a log. -/
theorem newSegmentPtr_good {s : QState} {name : FileName} {log : Log Bytes} (m : Int)
    (hst : Stored s.disk name log) (hcalm : s.disk.script = []) :
    ∃ s', newSegmentPtr name m s = .ok s.next s' ∧ Loaded s s' ∧ s.next < s'.next ∧
      (s'.heap s.next).path = name ∧ Clean (s'.heap s.next) s'.disk log := by
  obtain ⟨t, ht⟩ := hst.file
  obtain ⟨l, k, he, hh, hp, -, hcur⟩ := Segment.newSegment_holds m log.cursor_le ht hst.fits
    (Disk.calm_of_script_nil hcalm 2)
  refine ⟨{ s with
      heap := Function.update s.heap s.next l, next := s.next + 1, disk := s.disk.skip k },
    ?_, ⟨rfl, Nat.le_succ _, ?_, rfl, rfl, ?_⟩, Nat.lt_succ_self _, ?_, ?_⟩
  · rw [newSegmentPtr, he]
  · intro p hp
    exact Function.update_of_ne (Nat.ne_of_lt hp) ..
  · intro hs
    show s.disk.script.drop k = []
    rw [hs, List.drop_nil]
  · simp only [Function.update_self]
    exact hp
  · simp only [Function.update_self]
    exact ⟨hh, hcur, hst.nonempty⟩

/-- **The loop of `loadSegments`**, by induction on the entries still to be looked at: a segment for
    every file, in the order of the entries. -/
theorem loadEntries_good (m : Int) (lg : FileName → Log Bytes) (files : List (FileName × Entry)) :
    ∀ s : QState, s.disk.script = [] → (files.map Prod.fst).Nodup →
      (∀ e ∈ files, segmentID e ≠ none → Stored s.disk e.1 (lg e.1)) →
      ∃ s' chain, Queue.loadEntries m files s = .ok (chain.map Prod.fst) s' ∧ Loaded s s' ∧
        Linked Clean s' chain ∧
        chain.map (fun c => (s'.heap c.1).path) = segmentNames files ∧
        logs chain = (segmentNames files).map lg := by
  induction files with
  | nil =>
    intro s _ _ _
    exact ⟨s, [], rfl, Loaded.refl s, Linked.nil, rfl, rfl⟩
  | cons e files ih =>
    intro s hcalm hnd hst
    rw [List.map_cons, List.nodup_cons] at hnd
    rw [Queue.loadEntries]
    cases hid : segmentID e with
    | none =>
      rw [segmentNames_cons_none hid]
      exact ih s hcalm hnd.2 fun x hx => hst x (List.mem_cons_of_mem e hx)
    | some n =>
      dsimp only
      obtain ⟨s1, he, hl1, hlt, hp1, hc1⟩ := newSegmentPtr_good m
        (hst e List.mem_cons_self (by rw [hid]; exact Option.some_ne_none n)) hcalm
      obtain ⟨s', chain, he', hl', hlink, hpaths, hlogs⟩ := ih s1 (hl1.calm hcalm) hnd.2 (by
        intro x hx hxid
        have hx' := hst x (List.mem_cons_of_mem e hx) hxid
        obtain ⟨t, ht⟩ := hx'.file
        exact ⟨⟨t, by rw [← ht]; exact Disk.file?_congr (by rw [hl1.entries_eq])⟩, hx'.fits,
          hx'.nonempty⟩)
      have hheap : s'.heap s.next = s1.heap s.next := hl'.heap_eq _ hlt
      refine ⟨s', (s.next, lg e.1) :: chain, ?_, hl1.trans hl', ?_, ?_, ?_⟩
      · rw [bind_ok he, bind_ok he']
        rfl
      · show Linked Clean s' ([(s.next, lg e.1)] ++ chain)
        refine Linked.append ⟨?_, List.nodup_singleton _, ?_⟩ hlink ?_
        · intro c hc
          rw [List.mem_singleton.mp hc, hheap]
          exact layout_clean.congr hc1 (by rw [hl'.entries_eq])
        · intro c hc
          rw [List.mem_singleton.mp hc]
          exact Nat.lt_of_lt_of_le hlt hl'.next_le
        · intro c hc d hd
          rw [List.mem_singleton.mp hc, hheap, hp1]
          intro heq
          have hmem : e.1 ∈ segmentNames files := by
            rw [← hpaths, heq]
            exact List.mem_map_of_mem hd
          refine hnd.1 ?_
          obtain ⟨x, hx, hxe⟩ := List.mem_map.mp hmem
          exact List.mem_map.mpr ⟨x, (List.mem_filter.mp hx).1, hxe⟩
      · rw [segmentNames_cons_some hid, List.map_cons, hpaths, hheap, hp1]
      · rw [segmentNames_cons_some hid, List.map_cons, logs, List.map_cons, ← hlogs]
        rfl

/-! ## `Open` -/

/-- The end of `Open`: head and tail are set, and a first segment with nothing left is dropped. -/
theorem openEnds_good {s : QState} {chain : List (Ptr × Log Bytes)} (hl : Linked Clean s chain)
    (ht : Tidy s chain) (hseg : s.q.segments = chain.map Prod.fst) (hne : chain ≠ [])
    (hcalm : s.disk.script = []) :
    ∃ s' chain', Queue.openEnds s = .ok () s' ∧ Good s' chain' ∧
      logs chain' = Chain.trim (logs chain) := by
  set s1 : QState := { s with q := { s.q with
    head := s.q.segments.head?, tail := s.q.segments.getLast? } } with hs1
  have hg : Good s1 chain := by
    refine ⟨⟨⟨hl.holds, hl.paths, hl.fresh⟩, hseg, ?_, ?_⟩, ⟨ht.owned, ht.numeric⟩, hcalm, hne⟩
    · show s.q.segments.head? = _
      rw [hseg]
    · show s.q.segments.getLast? = _
      rw [hseg]
  obtain ⟨c, cs, rfl⟩ := List.exists_cons_of_ne_nil hne
  have hhead : s1.q.head = some c.1 := hg.head_eq
  have hderef : deref s1.q.head s1 = .ok c.1 s1 := by
    rw [hhead]; rfl
  obtain ⟨s2, hg2, hcur⟩ := hg.current
  rw [current_eq_call hhead] at hcur
  rw [Queue.openEnds, bind_ok (assign_run _ _), bind_ok (self_run _), bind_ok hderef]
  rcases hcur with ⟨hd, he⟩ | ⟨r, rest, hrem, hcur⟩
  · rw [bind_ok (attempt_error he)]
    exact hg2.trimHead hd
  · have hnd : ¬ c.2.Drained := by
      rw [← Log.remaining_eq_nil_iff, hrem]
      exact List.cons_ne_nil r rest
    have hlogs : logs (c :: cs) = Chain.trim (logs (c :: cs)) :=
      (if_neg fun hx => hnd hx.1).symm
    rcases hcur with he | ⟨m, n, he⟩
    · rw [bind_ok (attempt_ok he)]
      exact ⟨s2, _, rfl, hg2, hlogs⟩
    · rw [bind_ok (attempt_error he)]
      exact ⟨s2, _, rfl, hg2, hlogs⟩

/-- Loading the whole directory. -/
theorem loadSegments_good {s : QState} {lg : FileName → Log Bytes} (hcalm : s.disk.script = [])
    (hload : Loadable s.disk lg) :
    ∃ s' chain, Queue.loadSegments s = .ok (chain.map Prod.fst) s' ∧ Loaded s s' ∧
      Linked Clean s' chain ∧ Tidy s' chain ∧ logs chain = (segmentNames s.disk.readDir).map lg := by
  have hnd : (s.disk.readDir.map Prod.fst).Nodup :=
    (Disk.readDir_sorted s.disk).imp fun h => ne_of_lt h
  have hst : ∀ e ∈ s.disk.readDir, segmentID e ≠ none → Stored s.disk e.1 (lg e.1) := by
    intro e he hid
    have hmem : e.1 ∈ segmentNames s.disk.readDir :=
      List.mem_map.mpr ⟨e, List.mem_filter.mpr ⟨he, Option.ne_none_iff_isSome.mp hid⟩, rfl⟩
    obtain ⟨⟨f, hf⟩, hn⟩ := mem_segmentNames.mp hmem
    exact hload e.1 f hf hn
  obtain ⟨s', chain, he, hl, hlink, hpaths, hlogs⟩ :=
    loadEntries_good s.q.maxSegmentSize lg s.disk.readDir s hcalm hnd hst
  refine ⟨s', chain, he, hl, hlink, ⟨?_, ?_⟩, hlogs⟩
  · intro name f hf hn
    have hf' : s.disk.file? name = some f := by
      rw [← hf]; exact (Disk.file?_congr (by rw [hl.entries_eq])).symm
    have hmem : name ∈ segmentNames s.disk.readDir := mem_segmentNames.mpr ⟨⟨f, hf'⟩, hn⟩
    rw [← hpaths] at hmem
    exact List.mem_map.mp hmem
  · intro c hc
    have hmem : (s'.heap c.1).path ∈ segmentNames s.disk.readDir := by
      rw [← hpaths]
      exact List.mem_map_of_mem hc
    exact (mem_segmentNames.mp hmem).2

/-- **`Open` on a directory with segment files**: a queue in use, whose logs are those of the files
    in the order of the listing. -/
theorem open_good {s : QState} {lg : FileName → Log Bytes} (hcalm : s.disk.script = [])
    (hload : Loadable s.disk lg) (hne : segmentNames s.disk.readDir ≠ []) :
    ∃ s' chain, Queue.openQueue s = .ok () s' ∧ Good s' chain ∧
      logs chain = Chain.trim ((segmentNames s.disk.readDir).map lg) := by
  obtain ⟨s1, chain, he, hl, hlink, htidy, hlogs⟩ := loadSegments_good hcalm hload
  have hchain : chain ≠ [] := by
    rintro rfl
    exact hne (List.map_eq_nil_iff.mp hlogs.symm)
  have hptrs : chain.map Prod.fst ≠ [] := fun h => hchain (List.map_eq_nil_iff.mp h)
  rw [Queue.openQueue, bind_ok he, bind_ok (assign_run _ _), if_neg hptrs, ← hlogs]
  exact openEnds_good ⟨hlink.holds, hlink.paths, hlink.fresh⟩ ⟨htidy.owned, htidy.numeric⟩ rfl
    hchain (hl.calm hcalm)

/-- **`Open` on a directory without segment files** makes one, empty. -/
theorem open_empty {s : QState} (hcalm : s.disk.script = [])
    (hnone : segmentNames s.disk.readDir = []) :
    (∃ s' chain, Queue.openQueue s = .ok () s' ∧ Good s' chain ∧ logs chain = [Log.empty]) ∨
    ∃ e s', Queue.openQueue s = .error e s' := by
  have hload : Loadable s.disk fun _ => Log.empty := by
    intro name f hf hn
    have hmem : name ∈ segmentNames s.disk.readDir := mem_segmentNames.mpr ⟨⟨f, hf⟩, hn⟩
    rw [hnone] at hmem
    cases hmem
  obtain ⟨s1, chain, he, hl, hlink, htidy, hlogs⟩ := loadSegments_good hcalm hload
  have hchain : chain = [] := by
    rw [hnone] at hlogs
    exact List.map_eq_nil_iff.mp hlogs
  subst hchain
  rw [List.map_nil] at he
  rw [Queue.openQueue, bind_ok he, bind_ok (assign_run _ _), if_pos rfl]
  set s2 : QState := { s1 with q := { s1.q with segments := [] } } with hs2
  have hlink2 : Linked Clean s2 [] := Linked.nil
  have hsame : s1 = s := by
    cases he.symm.trans (loadEntries_none s.q.maxSegmentSize hnone s)
    rfl
  have hfree : NextFree s2.disk := by
    show NextFree s1.disk
    rw [hsame]
    exact nextFree_of_segmentNames_nil hnone
  rcases addSegment_cases hfree with ⟨l, d', ha, hcl, hp, -, hel, hscr⟩ | ⟨e, d', ha, -⟩
  · have hadd := hlink2.added layout_clean hfree hcl hp hel
    have hcalm' : d'.script = [] := by
      rw [hscr]
      show s1.disk.script.drop 2 = []
      rw [hl.calm hcalm, List.drop_nil]
    have htidy' : Tidy (s2.added l d') [(s2.next, Log.empty)] := by
      have htidy2 : Tidy s2 [] := ⟨htidy.owned, htidy.numeric⟩
      have hroll := htidy2.rolled hlink2 hp hel
      exact ⟨hroll.owned, hroll.numeric⟩
    obtain ⟨s', chain', ho, hg, hlogs'⟩ :=
      openEnds_good hadd htidy' rfl (List.cons_ne_nil _ _) hcalm'
    refine Or.inl ⟨s', chain', ?_, hg, hlogs'⟩
    rw [bind_ok ha]
    exact ho
  · exact Or.inr ⟨e, _, bind_error ha⟩

/-! ## `Close` -/

theorem closeSegments_eq (ps : List Ptr) : ∀ s : QState, (∀ p ∈ ps, (s.heap p).file ≠ none) →
    ps.Nodup → ∃ s', Queue.closeSegments ps s = .ok () s' ∧ s'.q = s.q ∧ s'.next = s.next ∧
      s'.disk = s.disk := by
  induction ps with
  | nil => exact fun s _ _ => ⟨s, rfl, rfl, rfl, rfl⟩
  | cons p ps ih =>
    intro s hopen hnd
    obtain ⟨hp, hps⟩ := List.nodup_cons.mp hnd
    have hclose : Segment.close { seg := s.heap p, disk := s.disk }
        = .ok () { seg := { s.heap p with file := none }, disk := s.disk } := by
      rw [Segment.close, bind_ok (Segment.self_eq _), if_neg (hopen p List.mem_cons_self)]
      rfl
    set s1 : QState := s.put p { seg := { s.heap p with file := none }, disk := s.disk } with hs1
    have hopen1 : ∀ p' ∈ ps, (s1.heap p').file ≠ none := by
      intro p' hp'
      have hne : p' ≠ p := by
        rintro rfl
        exact hp hp'
      rw [hs1, put_heap_ne s _ hne]
      exact hopen p' (List.mem_cons_of_mem p hp')
    obtain ⟨s', he, hq, hn, hd⟩ := ih s1 hopen1 hps
    refine ⟨s', ?_, hq, hn, hd⟩
    rw [Queue.closeSegments, bind_ok (call_ok hclose)]
    exact he

/-- **`Close`** leaves the directory as it is. -/
theorem close_good {s : QState} {chain : List (Ptr × Log Bytes)} (h : Good s chain) :
    ∃ s', Queue.close s = .ok () s' ∧ s'.disk = s.disk ∧
      s'.q = { s.q with head := none, tail := none, segments := [] } := by
  have hopen : ∀ p ∈ s.q.segments, (s.heap p).file ≠ none := by
    intro p hp
    rw [h.segments_eq] at hp
    obtain ⟨c, hc, rfl⟩ := List.mem_map.mp hp
    obtain ⟨off, ho⟩ := (h.holds c hc).handle
    rw [ho]
    exact Option.some_ne_none _
  have hnd : s.q.segments.Nodup := by
    have hp := h.paths
    rw [h.segments_eq]
    rw [show chain.map (fun c => (s.heap c.1).path)
      = (chain.map Prod.fst).map (fun p => (s.heap p).path) by rw [List.map_map]; rfl] at hp
    exact List.Nodup.of_map _ hp
  obtain ⟨s1, he, hq, -, hd⟩ := closeSegments_eq s.q.segments s hopen hnd
  refine ⟨{ s1 with q := { s1.q with head := none, tail := none, segments := [] } }, ?_, hd, ?_⟩
  · rw [Queue.close, bind_ok (self_run s), bind_ok he]
    rfl
  · rw [hq]

end InfluxCluster.HH
