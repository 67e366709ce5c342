/-
  Closing a queue and opening it again.

  In memory the segments stand in the order in which they were made.  On disk there are only the
  names, and `Open` takes them in the order of the listing, which is the order of STRINGS: the tenth
  segment comes before the second.  A queue that has made ten segments can come back with its
  records in another order (`reopen_reorders`).

  What saves it is `NamesInOrder`: the segments that still have something to read stand in memory in
  the order of their names.  Then the listing, though it may move used-up segments around, brings
  back the same content, and what is appended later goes behind it (`reopen_preserves`).
-/
import InfluxCluster.HH.QueueFifo

namespace InfluxCluster.HH

open InfluxCluster.Lib

/-- The segments with something left to read stand in the order of their names. -/
def NamesInOrder (s : QState) : Prop :=
  (s.q.segments.filter fun p => decide ((s.heap p).pos ≠ (s.heap p).size - footerSize)).Pairwise
    fun p p' => (s.heap p).path < (s.heap p').path

instance (s : QState) : Decidable (NamesInOrder s) := inferInstanceAs (Decidable (List.Pairwise _ _))

/-- The log that the chain keeps under a file name. -/
def logAt (s : QState) (chain : List (Ptr × Log Bytes)) (name : FileName) : Log Bytes :=
  ((chain.find? fun c => (s.heap c.1).path = name).map Prod.snd).getD Log.empty

section Reopen

variable {s : QState} {chain : List (Ptr × Log Bytes)} {c : Ptr × Log Bytes}

/-- Names are different, so a name finds its own log. -/
theorem Linked.logAt_path (h : Linked Clean s chain) (hc : c ∈ chain) :
    logAt s chain (s.heap c.1).path = c.2 := by
  induction chain with
  | nil => cases hc
  | cons x xs ih =>
    have hx : Linked Clean s ([x] ++ xs) := h
    rcases List.mem_cons.mp hc with rfl | hc
    · rw [logAt, List.find?_cons_of_pos (by simp)]
      rfl
    · have hne : (s.heap x.1).path ≠ (s.heap c.1).path := hx.disjoint List.mem_cons_self hc
      rw [logAt, List.find?_cons_of_neg (by simpa using hne)]
      exact ih hx.right hc

/-- The directory of a queue in use can be loaded again. -/
theorem Good.loadable (h : Good s chain) : Loadable s.disk (logAt s chain) := by
  intro name f hf hn
  obtain ⟨c, hc, rfl⟩ := h.owned name f hf hn
  rw [h.toLinked.logAt_path hc]
  have hcl := h.holds c hc
  exact ⟨hcl.stored, hcl.fits, hcl.nonempty⟩

/-- The listing and the chain have the same files. -/
theorem Good.perm_segmentNames (h : Good s chain) :
    (chain.map fun c => (s.heap c.1).path).Perm (segmentNames s.disk.readDir) :=
  HH.perm_segmentNames h.paths
    (fun _ hc => Option.ne_none_iff_exists'.mp (h.toLinked.file_ne_none layout_clean hc)) h.numeric
    h.owned

/-- In order of names, the listing gives back the content. -/
theorem Good.content_listing (h : Good s chain) (hord : NamesInOrder s) :
    Chain.content ((segmentNames s.disk.readDir).map (logAt s chain))
      = Chain.content (logs chain) := by
  have hlogs : logs chain = (chain.map fun c => (s.heap c.1).path).map (logAt s chain) := by
    rw [List.map_map]
    exact List.map_congr_left fun c hc => (h.toLinked.logAt_path hc).symm
  rw [hlogs, Chain.content, Chain.content, List.flatMap_map, List.flatMap_map]
  refine (Chain.flatMap_eq_of_sorted
    (p := fun name => decide (¬ (logAt s chain name).Drained)) h.perm_segmentNames ?_ ?_
    (segmentNames_sorted s.disk)).symm
  · intro name _ hp
    exact (Log.remaining_eq_nil_iff _).mpr (by simpa using hp)
  · -- the condition speaks of positions, the logs of cursors
    have hdrained : ∀ c ∈ chain, (logAt s chain (s.heap c.1).path).Drained
        ↔ (s.heap c.1).pos = (s.heap c.1).size - footerSize := by
      intro c hc
      rw [h.toLinked.logAt_path hc]
      exact (h.holds c hc).pos_eq_end_iff.symm
    rw [NamesInOrder, h.segments_eq, List.filter_map, List.pairwise_map] at hord
    rw [List.filter_map, List.pairwise_map]
    have hfilter : chain.filter ((fun name => decide (¬ (logAt s chain name).Drained))
          ∘ fun c => (s.heap c.1).path)
        = chain.filter ((fun p => decide ((s.heap p).pos ≠ (s.heap p).size - footerSize))
          ∘ Prod.fst) := by
      refine List.filter_congr fun c hc => ?_
      simp only [Function.comp_apply, hdrained c hc, ne_eq]
    rw [hfilter]
    exact hord

end Reopen

/-- **Reopening preserves the queue** when its unread segments stand in the order of their names:
    `Close` and `Open` succeed, the content is the same, and a later `Append` goes behind it. -/
theorem reopen_preserves {s₀ : QState} {w : World} (hopen : Opened s₀)
    (hrun : Run s₀ (fun _ _ => True) w) (hord : NamesInOrder w.s) :
    ∃ s₁ s₂ rem, Queue.close w.s = .ok () s₁ ∧ Queue.openQueue s₁ = .ok () s₂ ∧
      content w.s = some rem ∧ content s₂ = some rem ∧
      ∀ b s₃, b ≠ [] → s₂.Roomy b → Queue.append b s₂ = .ok () s₃ →
        content s₃ = some (rem ++ [b]) := by
  obtain ⟨chain₀, hgood₀⟩ := hopen.good
  obtain ⟨chain, hi⟩ := hrun.inv hgood₀
  have hg := hi.good
  obtain ⟨s₁, hclose, hdisk, -⟩ := close_good hg
  have hload : Loadable s₁.disk (logAt w.s chain) := by
    rw [hdisk]; exact hg.loadable
  have hne : segmentNames s₁.disk.readDir ≠ [] := by
    rw [hdisk]
    intro hnil
    have hperm := hg.perm_segmentNames
    rw [hnil, List.perm_nil, List.map_eq_nil_iff] at hperm
    exact hg.nonempty hperm
  have hcalm : s₁.disk.script = [] := by
    rw [hdisk]; exact hg.calm
  obtain ⟨s₂, chain₂, hopen₂, hg₂, hlogs₂⟩ := open_good hcalm hload hne
  have hcontent : Chain.content (logs chain₂) = Chain.content (logs chain) := by
    rw [hlogs₂, Chain.content_trim, hdisk, hg.content_listing hord]
  refine ⟨s₁, s₂, _, hclose, hopen₂, hg.toRep.content_eq layout_clean, ?_, ?_⟩
  · rw [hg₂.toRep.content_eq layout_clean, hcontent]
  · intro b s₃ hb hroom hcall
    obtain ⟨s', chain₃, hg₃, ⟨he, hlogs₃⟩ | ⟨e, he, -⟩⟩ := hg₂.append hb hroom
    · rw [hcall] at he
      cases he
      have hroll : Chain.roll (logs chain₂) ≠ [] := by simp [Chain.roll]
      rw [hg₃.toRep.content_eq layout_clean, ← hcontent]
      rcases hlogs₃ with hl | ⟨-, hl⟩
      · rw [hl, Chain.content_pushLast hg₂.logs_ne_nil]
      · rw [hl, Chain.content_pushLast hroll, Chain.content_roll]
    · rw [hcall] at he
      cases he

/-- An opened queue with segments of 17 bytes, one record of one byte each, on an empty
    directory. -/
def smallQueue : QState := final (Queue.openQueue (QState.fresh 1000 17 Disk.empty))

theorem opened_smallQueue : Opened smallQueue := by
  refine ⟨QState.fresh 1000 17 Disk.empty, fun _ => Log.empty, rfl, ?_,
    eq_ok_of_returned (by decide +kernel)⟩
  intro name f hf
  exact absurd hf (Option.some_ne_none f).symm

/-- Ten records in ten segments.  After `Close` and `Open` the segment "10" stands between "1" and
    "2". -/
theorem reopen_reorders : ∃ w s₁ s₂, Run smallQueue (fun _ _ => True) w ∧
    Queue.close w.s = .ok () s₁ ∧ Queue.openQueue s₁ = .ok () s₂ ∧
    content w.s = some [[1], [2], [3], [4], [5], [6], [7], [8], [9], [10]] ∧
    content s₂ = some [[1], [10], [2], [3], [4], [5], [6], [7], [8], [9]] := by
  set w := [Act.append [1], .append [2], .append [3], .append [4], .append [5], .append [6],
    .append [7], .append [8], .append [9], .append [10]].foldl World.next (World.start smallQueue)
    with hw
  have hrun : Run smallQueue (fun _ _ => True) w := Run.schedule _ Run.start (by decide +kernel)
  exact ⟨w, _, _, hrun, eq_ok_of_returned (by decide +kernel),
    eq_ok_of_returned (by decide +kernel), by decide +kernel, by decide +kernel⟩

theorem reopen_preserves_two : ∃ w s₁ s₂ rem, Run smallQueue (fun _ _ => True) w ∧
    NamesInOrder w.s ∧ w.accepted = [[1], [2]] ∧ Queue.close w.s = .ok () s₁ ∧
    Queue.openQueue s₁ = .ok () s₂ ∧ content w.s = some rem ∧ content s₂ = some rem := by
  set w := [Act.append [1], .append [2]].foldl World.next (World.start smallQueue) with hw
  have hrun : Run smallQueue (fun _ _ => True) w := Run.schedule _ Run.start (by decide +kernel)
  have hord : NamesInOrder w.s := by decide +kernel
  obtain ⟨s₁, s₂, rem, h₁, h₂, hc, hc', -⟩ := reopen_preserves opened_smallQueue hrun hord
  exact ⟨w, s₁, s₂, rem, hrun, hord, by decide +kernel, h₁, h₂, hc, hc'⟩

end InfluxCluster.HH
