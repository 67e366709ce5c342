/-
  One sender and any number of writers on an open processor, while nothing fails on disk: hints are
  handed off in order, each once.

  `SendWrite` is cut where it calls something else — `Active`, `Current`, the writer, `Advance` —
  and a `WriteShard` may fall between any two of these, since both methods take the processor's lock
  for reading only.  `sendWrite_moves` says that the four moves in a row are the function of the
  source.

  SIMULATION.  Under the sender there is the producer/consumer system of `QueueFifo`: a `WriteShard`
  is one of its appends, and the sender is its one consumer, which advances past the block that its
  last `Current` returned (`Simulates.step`).  First in, first out comes from there.  What is added
  is the bookkeeping of the sender: the pairs delivered are the blocks advanced past, as far as they
  can be read, and between delivery and `Advance` the block at the head.
-/
import InfluxCluster.HH.NodeProcessor
import InfluxCluster.HH.QueueFifo

namespace InfluxCluster.HH

open InfluxCluster.Lib

/-! ## The system -/

/-- Where the sender is in `SendWrite`. -/
inductive PC
  | idle
  /-- The node is active. -/
  | active
  /-- `Current` has returned the block. -/
  | fetched (buf : Bytes)
  /-- The block has been delivered, or cannot be read. -/
  | advancing (buf : Bytes)
  deriving DecidableEq

/-- Where the sender goes on: a block that the node has refused stays. -/
def Verdict.pc {Point : Type} (buf : Bytes) : Verdict Point → PC
  | .skipped _ | .taken _ _ => .advancing buf
  | .refused _ => .idle

/-- What the parties do.  The moves of the sender are the parts of `SendWrite`. -/
inductive Move (Point : Type)
  | writeShard (shardID : UInt64) (points : List Point)
  | begin (env : Env Point)
  | fetch
  | deliver (env : Env Point)
  | advance
  | tick (t : Time)

/-- The queue with its histories, the sender, and the pairs accepted and delivered. -/
structure Handoff (Point : Type) where
  w : World
  pc : PC
  /-- The pairs whose `WriteShard` returned nil. -/
  accepted : List (UInt64 × List Point)
  /-- The pairs for which `writer.WriteShard` succeeded. -/
  delivered : List (UInt64 × List Point)

section System

variable {Point : Type} (c : PointCodec Point) (nodeID : UInt64)

/-- A move; one that the sender is not at does nothing. -/
def Handoff.next (h : Handoff Point) : Move Point → Handoff Point
  | .writeShard shardID points =>
    { h with
      w := h.w.next (.append (marshalWrite c shardID points))
      accepted :=
        match Queue.append (marshalWrite c shardID points) h.w.s with
        | .ok _ _ => h.accepted ++ [(shardID, points)]
        | .error _ _ => h.accepted }
  | .begin env =>
    match h.pc, env.dataNode nodeID with
    | .idle, .ok true => { h with pc := .active }
    | _, _ => h
  | .fetch =>
    match h.pc with
    | .active =>
      { h with
        w := h.w.next .current
        pc :=
          match Queue.current h.w.s with
          | .ok buf _ => .fetched buf
          | .error _ _ => .idle }
    | _ => h
  | .deliver env =>
    match h.pc with
    | .fetched buf =>
      { h with
        pc := (verdict c env nodeID buf).pc buf
        delivered := h.delivered ++ (verdict c env nodeID buf).sent }
    | _ => h
  | .advance =>
    match h.pc with
    | .advancing _ => { h with w := h.w.next .advance, pc := .idle }
    | _ => h
  | .tick t => { h with w := h.w.next (.tick t) }

/-- Nothing accepted or delivered yet. -/
def Handoff.start (s : QState) : Handoff Point :=
  { w := World.start s, pc := .idle, accepted := [], delivered := [] }

/-- The block of a `WriteShard` fits on the disk. -/
def Fits (h : Handoff Point) : Move Point → Prop
  | .writeShard shardID points => h.w.s.Roomy (marshalWrite c shardID points)
  | _ => True

instance (h : Handoff Point) (m : Move Point) : Decidable (Fits c h m) :=
  match m with
  | .writeShard _ _ => inferInstanceAs (Decidable (QState.Roomy _ _))
  | .begin _ | .fetch | .deliver _ | .advance | .tick _ => isTrue trivial

/-- What can be reached on a processor whose queue is `s₀`. -/
inductive HandoffRun (s₀ : QState) : Handoff Point → Prop
  | start : HandoffRun s₀ (Handoff.start s₀)
  | step {h : Handoff Point} {m : Move Point} (hrun : HandoffRun s₀ h) (hfits : Fits c h m) :
      HandoffRun s₀ (h.next c nodeID m)

/-! ## The moves are the methods -/

/-- The processor of the system. -/
def Handoff.processor (h : Handoff Point) : NodeProcessor :=
  { nodeID := nodeID, done := true, queue := h.w.s }

/-- The move of a writer is `WriteShard`. -/
theorem writeShard_move (h : Handoff Point) (shardID : UInt64) (points : List Point) :
    final (NodeProcessor.writeShard c shardID points (h.processor nodeID))
      = (h.next c nodeID (.writeShard shardID points)).processor nodeID := by
  have hopen : ¬ (h.processor nodeID).done = false := Bool.noConfusion
  rw [NodeProcessor.writeShard, bind_ok (NodeProcessor.self_eq _), if_neg hopen]
  simp only [NodeProcessor.call, Handoff.processor, Handoff.next, World.next]
  cases Queue.append (marshalWrite c shardID points) h.w.s with
  | ok u s => rfl
  | error e s => rfl

/-- The pair is accepted if `WriteShard` returns nil. -/
theorem accepted_move (h : Handoff Point) (shardID : UInt64) (points : List Point) :
    (h.next c nodeID (.writeShard shardID points)).accepted = h.accepted ++
      if returned (NodeProcessor.writeShard c shardID points (h.processor nodeID)) = some ()
      then [(shardID, points)] else [] := by
  have hopen : ¬ (h.processor nodeID).done = false := Bool.noConfusion
  have hcall : NodeProcessor.writeShard c shardID points (h.processor nodeID)
      = NodeProcessor.call (Queue.append (marshalWrite c shardID points)) (h.processor nodeID) := by
    rw [NodeProcessor.writeShard, bind_ok (NodeProcessor.self_eq _), if_neg hopen]
  cases happend : Queue.append (marshalWrite c shardID points) h.w.s with
  | ok u s =>
    rw [hcall, NodeProcessor.call_ok (n := h.processor nodeID) happend, returned, if_pos rfl]
    simp only [Handoff.next, happend]
  | error e s =>
    rw [hcall, NodeProcessor.call_error (n := h.processor nodeID) happend, returned,
      if_neg (Option.some_ne_none ()).symm, List.append_nil]
    simp only [Handoff.next, happend]

/-- A sender that has returned stays where it is until the next call begins. -/
theorem moves_of_idle {h : Handoff Point} (hpc : h.pc = .idle) (env : Env Point) :
    [.fetch, .deliver env, .advance].foldl (Handoff.next c nodeID) h = h := by
  simp only [List.foldl_cons, List.foldl_nil, Handoff.next, hpc]

/-- **The four moves of the sender in a row are `SendWrite`.** -/
theorem sendWrite_moves (h : Handoff Point) (env : Env Point) (hpc : h.pc = .idle) :
    final (NodeProcessor.sendWrite c env (h.processor nodeID))
      = ([.begin env, .fetch, .deliver env, .advance].foldl (Handoff.next c nodeID) h).processor
          nodeID := by
  set n := h.processor nodeID with hn
  rw [List.foldl_cons]
  cases hd : env.dataNode nodeID with
  | error e =>
    have hnext : h.next c nodeID (.begin env) = h := by
      rw [Handoff.next, hpc, hd]
    rw [NodeProcessor.sendWrite_dataNode (n := n) hd, hnext, moves_of_idle c nodeID hpc]
    rfl
  | ok b =>
    cases b with
    | false =>
      have hnext : h.next c nodeID (.begin env) = h := by
        rw [Handoff.next, hpc, hd]
      rw [NodeProcessor.sendWrite_inactive (n := n) hd, hnext, moves_of_idle c nodeID hpc]
      rfl
    | true =>
      have hnext : h.next c nodeID (.begin env) = { h with pc := .active } := by
        rw [Handoff.next, hpc, hd]
      rw [hnext]
      simp only [List.foldl_cons, List.foldl_nil, Handoff.next]
      cases hcur : Queue.current h.w.s with
      | error e s =>
        rw [NodeProcessor.sendWrite_nothing (n := n) hd hcur]
        simp only [World.next, hcur]
        rfl
      | ok buf s =>
        rw [NodeProcessor.sendWrite_fetched (n := n) hd hcur, show n.nodeID = nodeID from rfl]
        simp only [World.next, hcur]
        cases verdict c env nodeID buf with
        | skipped e => rfl
        | taken shardID points => rfl
        | refused e => rfl

end System

/-! ## The invariant -/

section Simulation

variable {Point : Type} {c : PointCodec Point} {nodeID : UInt64} {s₀ : QState} {h : Handoff Point}

/-- The block that the sender has in hand. -/
def PC.buf? : PC → Option Bytes
  | .idle | .active => none
  | .fetched buf | .advancing buf => some buf

/-- What has been delivered but not yet advanced past. -/
def PC.pending (c : PointCodec Point) : PC → List (UInt64 × List Point)
  | .idle | .active | .fetched _ => []
  | .advancing buf => (decoded c buf).toList

/-- **The sender is the consumer of a run of the queue**, and the histories of the two fit. -/
structure Simulates (c : PointCodec Point) (s₀ : QState) (h : Handoff Point) : Prop where
  run : Run s₀ (fun _ _ => True) h.w
  accepted : h.w.accepted = h.accepted.map fun x => marshalWrite c x.1 x.2
  held : ∀ buf, h.pc.buf? = some buf → h.w.held = some buf
  delivered : h.delivered = h.w.advanced.filterMap (decoded c) ++ h.pc.pending c

/-- `WriteShard` is an `Append`. -/
theorem Simulates.writeShard (hs : Simulates c s₀ h) {shardID : UInt64} {points : List Point}
    (hroom : h.w.s.Roomy (marshalWrite c shardID points)) :
    Simulates c s₀ (h.next c nodeID (.writeShard shardID points)) := by
  have hrun : Run s₀ (fun _ _ => True) (h.w.next (.append (marshalWrite c shardID points))) :=
    hs.run.step trivial ⟨marshalWrite_ne_nil c shardID points, hroom⟩
  cases he : Queue.append (marshalWrite c shardID points) h.w.s with
  | ok u s =>
    simp only [World.next, he] at hrun
    simp only [Handoff.next, World.next, he]
    refine ⟨hrun, ?_, hs.held, hs.delivered⟩
    show h.w.accepted ++ [marshalWrite c shardID points] = _
    rw [hs.accepted, List.map_append]
    rfl
  | error e s =>
    simp only [World.next, he] at hrun
    simp only [Handoff.next, World.next, he]
    exact ⟨hrun, hs.accepted, hs.held, hs.delivered⟩

/-- The sender's `Current` is the consumer's. -/
theorem Simulates.fetch (hs : Simulates c s₀ h) : Simulates c s₀ (h.next c nodeID .fetch) := by
  rw [Handoff.next]
  cases hpc : h.pc with
  | idle | fetched _ | advancing _ => exact hs
  | active =>
    have hrun : Run s₀ (fun _ _ => True) (h.w.next .current) := hs.run.step trivial trivial
    have hdel := hs.delivered
    rw [hpc] at hdel
    cases he : Queue.current h.w.s with
    | ok buf s =>
      simp only [World.next, he] at hrun ⊢
      refine ⟨hrun, hs.accepted, ?_, hdel⟩
      rintro b hb
      exact hb
    | error e s =>
      simp only [World.next, he] at hrun ⊢
      refine ⟨hrun, hs.accepted, ?_, hdel⟩
      rintro b hb
      cases hb

/-- What has been taken is what is pending. -/
theorem pending_verdict (env : Env Point) (buf : Bytes) :
    ((verdict c env nodeID buf).pc buf).pending c = (verdict c env nodeID buf).sent := by
  rw [verdict]
  cases hb : unmarshalWrite c buf with
  | error e =>
    simp only [Verdict.pc, Verdict.sent, PC.pending, decoded, hb, Except.toOption,
      Option.toList_none]
  | ok x =>
    dsimp only
    cases env.writeShard x.1 nodeID x.2 with
    | error e => rfl
    | ok u =>
      simp only [Verdict.pc, Verdict.sent, PC.pending, decoded, hb, Except.toOption,
        Option.toList_some]

/-- The sender has no other block in hand than the one it has read. -/
theorem buf?_verdict {v : Verdict Point} {buf b : Bytes} (h : (v.pc buf).buf? = some b) : b = buf := by
  cases v with
  | refused e => cases h
  | skipped e | taken shardID points =>
    cases h
    rfl

theorem Simulates.deliver (hs : Simulates c s₀ h) (env : Env Point) :
    Simulates c s₀ (h.next c nodeID (.deliver env)) := by
  rw [Handoff.next]
  cases hpc : h.pc with
  | idle | active | advancing _ => exact hs
  | fetched buf =>
    have hheld : h.w.held = some buf := hs.held buf (by rw [hpc]; rfl)
    have hdel := hs.delivered
    rw [hpc, PC.pending, List.append_nil] at hdel
    dsimp only
    refine ⟨hs.run, hs.accepted, ?_, ?_⟩
    · rintro b hb
      rw [buf?_verdict hb]
      exact hheld
    · rw [pending_verdict, hdel]

/-- So is its `Advance`. -/
theorem Simulates.advance (hs : Simulates c s₀ h) : Simulates c s₀ (h.next c nodeID .advance) := by
  rw [Handoff.next]
  cases hpc : h.pc with
  | idle | active | fetched _ => exact hs
  | advancing buf =>
    have hheld : h.w.held = some buf := hs.held buf (by rw [hpc]; rfl)
    have hdel := hs.delivered
    rw [hpc] at hdel
    have hrun : Run s₀ (fun _ _ => True) (h.w.next .advance) :=
      hs.run.step trivial (Or.inl (by rw [hheld]; exact Option.some_ne_none buf))
    refine ⟨hrun, hs.accepted, ?_, ?_⟩
    · rintro b hb
      cases hb
    · simp only [World.next, hheld, Option.toList_some, List.filterMap_append, PC.pending,
        List.append_nil]
      rw [hdel, PC.pending]
      cases hb : decoded c buf with
      | none => rw [List.filterMap_cons_none hb]; rfl
      | some x => rw [List.filterMap_cons_some hb]; rfl

/-- **Every move keeps the simulation.** -/
theorem Simulates.step (hs : Simulates c s₀ h) {m : Move Point} (hfits : Fits c h m) :
    Simulates c s₀ (h.next c nodeID m) := by
  cases m with
  | writeShard shardID points => exact hs.writeShard hfits
  | begin env =>
    rw [Handoff.next]
    split
    · rename_i hpc _
      have hdel := hs.delivered
      rw [hpc] at hdel
      refine ⟨hs.run, hs.accepted, ?_, hdel⟩
      rintro b hb
      cases hb
    · exact hs
  | fetch => exact hs.fetch
  | deliver env => exact hs.deliver env
  | advance => exact hs.advance
  | tick t =>
    have hrun : Run s₀ (fun _ _ => True) (h.w.next (.tick t)) := hs.run.step trivial trivial
    exact ⟨hrun, hs.accepted, hs.held, hs.delivered⟩

/-- **A run of the processor is a run of its queue.** -/
theorem HandoffRun.simulates (hrun : HandoffRun c nodeID s₀ h) : Simulates c s₀ h := by
  induction hrun with
  | start =>
    refine ⟨Run.start, rfl, ?_, rfl⟩
    rintro buf hb
    cases hb
  | step _ hfits ih => exact ih.step hfits

/-! ## In order, each once -/

/-- What is delivered, or about to be advanced past, stands in front of what is on disk. -/
theorem Simulates.in_order_of_inv (hs : Simulates c s₀ h) {init : List Bytes}
    {chain : List (Ptr × Log Bytes)} (hi : Inv init h.w chain) :
    h.delivered <+: (init ++ h.w.accepted).filterMap (decoded c) := by
  rw [hi.fifo, List.filterMap_append, hs.delivered]
  refine List.prefix_append_right_inj _ |>.mpr ?_
  cases hpc : h.pc with
  | idle | active | fetched _ => exact List.nil_prefix
  | advancing buf =>
    have hfirst := hi.held buf (hs.held buf (by rw [hpc]; rfl))
    rw [Chain.content_of_first hfirst, PC.pending]
    cases hb : decoded c buf with
    | none => exact List.nil_prefix
    | some x =>
      rw [List.filterMap_cons_some hb]
      exact ⟨_, rfl⟩

/-- `Current` does not change the content. -/
theorem Good.content_current {s : QState} {chain : List (Ptr × Log Bytes)} (hg : Good s chain) :
    content (final (Queue.current s)) = content s := by
  obtain ⟨c, cs, rfl⟩ := List.exists_cons_of_ne_nil hg.nonempty
  have hsame : ∀ s', Good s' (c :: cs) → content s' = content s := fun s' hg' => by
    rw [hg'.toRep.content_eq layout_clean, hg.toRep.content_eq layout_clean]
  rcases hg.current with ⟨s', hg', ⟨-, he⟩ | ⟨r, rest, -, he | ⟨m, k, he⟩⟩⟩
  · rw [he]; exact hsame s' hg'
  · rw [he]; exact hsame s' hg'
  · rw [he]; exact hsame s' hg'

/-- The moves of `SendWrite` up to its `Advance`. -/
def Quiet : Move Point → Prop
  | .begin _ | .fetch | .deliver _ => True
  | .writeShard _ _ | .advance | .tick _ => False

/-- A quiet move leaves the content alone. -/
theorem content_quiet {chain : List (Ptr × Log Bytes)} (hg : Good h.w.s chain) {m : Move Point}
    (hm : Quiet m) : content (h.next c nodeID m).w.s = content h.w.s := by
  cases m with
  | writeShard _ _ | advance | tick _ => exact hm.elim
  | begin env =>
    rw [Handoff.next]
    split
    · rfl
    · rfl
  | fetch =>
    rw [Handoff.next]
    split
    · have hcur := hg.content_current
      simp only [World.next]
      cases he : Queue.current h.w.s with
      | ok buf s => rw [he] at hcur; exact hcur
      | error e s => rw [he] at hcur; exact hcur
    · rfl
  | deliver env =>
    rw [Handoff.next]
    split
    · rfl
    · rfl

/-- The failing exits of `SendWrite` that are to be tried again: `Active` fails, the node is not
    active, or the write fails. -/
inductive SendFails (c : PointCodec Point) (env : Env Point) (n : NodeProcessor) : NErr → Prop
  | dataNode {e : NErr} (hd : env.dataNode n.nodeID = .error e) : SendFails c env n e
  | inactive (hd : env.dataNode n.nodeID = .ok false) : SendFails c env n (.queue .eof)
  | writeShard {e : NErr} {buf : Bytes} {s : QState} {shardID : UInt64} {points : List Point}
      (hd : env.dataNode n.nodeID = .ok true) (hcur : Queue.current n.queue = .ok buf s)
      (hb : unmarshalWrite c buf = .ok (shardID, points))
      (hw : env.writeShard shardID n.nodeID points = .error e) : SendFails c env n e

/-- `SendWrite` returns that error and leaves the content as it is. -/
theorem SendFails.sendWrite {env : Env Point} {n : NodeProcessor} {e : NErr}
    (hf : SendFails c env n e) {chain : List (Ptr × Log Bytes)} (hg : Good n.queue chain) :
    ∃ n', NodeProcessor.sendWrite c env n = .error e n' ∧ content n'.queue = content n.queue := by
  cases hf with
  | dataNode hd => exact ⟨n, NodeProcessor.sendWrite_dataNode hd, rfl⟩
  | inactive hd => exact ⟨n, NodeProcessor.sendWrite_inactive hd, rfl⟩
  | writeShard hd hcur hb hw =>
    rename_i buf s shardID points
    have hv : verdict c env n.nodeID buf = .refused e := by
      rw [verdict, hb]
      dsimp only
      rw [hw]
    have hsend := NodeProcessor.sendWrite_fetched (c := c) hd hcur
    rw [hv] at hsend
    refine ⟨_, hsend, ?_⟩
    have hc := hg.content_current
    rw [hcur] at hc
    exact hc

/-- **Hints are handed off in order, each once.**  On an open processor, in every interleaving of
    writers and one sender, what has been delivered is a prefix of the readable blocks that were in
    the queue followed by the pairs accepted; when the sender is idle the rest is, in order, what is
    on disk.  The content changes only in the `Advance` of a block that was delivered or cannot be
    read, and a `SendWrite` that fails for any other reason leaves it as it is.  The moves are the
    methods: a writer's is `WriteShard`, which accepts the pair if it returns nil, and the sender's
    four in a row are `SendWrite`. -/
theorem handoff_in_order (hc : c.Inverts) (hopen : Opened s₀)
    (hrun : HandoffRun c nodeID s₀ h) :
    ((∀ shardID points,
        final (NodeProcessor.writeShard c shardID points (h.processor nodeID))
          = (h.next c nodeID (.writeShard shardID points)).processor nodeID ∧
        (h.next c nodeID (.writeShard shardID points)).accepted = h.accepted ++
          if returned (NodeProcessor.writeShard c shardID points (h.processor nodeID)) = some ()
          then [(shardID, points)] else []) ∧
      (h.pc = .idle → ∀ env, final (NodeProcessor.sendWrite c env (h.processor nodeID))
        = ([.begin env, .fetch, .deliver env, .advance].foldl (Handoff.next c nodeID) h).processor
            nodeID)) ∧
    ∃ init rem, content s₀ = some init ∧ content h.w.s = some rem ∧
      h.delivered <+: init.filterMap (decoded c) ++ h.accepted ∧
      (h.pc = .idle → init.filterMap (decoded c) ++ h.accepted
        = h.delivered ++ rem.filterMap (decoded c)) ∧
      (∀ m, Quiet m → content (h.next c nodeID m).w.s = some rem) ∧
      ∀ env e, SendFails c env (h.processor nodeID) e →
        ∃ n, NodeProcessor.sendWrite c env (h.processor nodeID) = .error e n ∧
          content n.queue = some rem := by
  obtain ⟨chain₀, hgood₀⟩ := hopen.good
  have hs := hrun.simulates
  obtain ⟨chain, hi⟩ := hs.run.inv hgood₀
  have hrem := hi.good.toRep.content_eq layout_clean
  -- every accepted block can be read
  have haccepted : h.w.accepted.filterMap (decoded c) = h.accepted := by
    rw [hs.accepted, List.filterMap_map]
    refine (List.filterMap_congr fun x _ => ?_).trans List.filterMap_some
    exact decoded_marshalWrite hc x.1 x.2
  have hpre := hs.in_order_of_inv hi
  rw [List.filterMap_append, haccepted] at hpre
  refine ⟨⟨fun shardID points => ⟨writeShard_move c nodeID h shardID points,
      accepted_move c nodeID h shardID points⟩, fun hpc env => sendWrite_moves c nodeID h env hpc⟩,
    _, _, hgood₀.toRep.content_eq layout_clean, hrem, hpre, ?_, ?_, ?_⟩
  · intro hpc
    have hfifo := congrArg (List.filterMap (decoded c)) hi.fifo
    have hdel := hs.delivered
    rw [hpc, PC.pending, List.append_nil] at hdel
    rw [List.filterMap_append, List.filterMap_append, haccepted, ← hdel] at hfifo
    exact hfifo
  · intro m hm
    rw [content_quiet hi.good hm, hrem]
  · intro env e hf
    obtain ⟨n, he, hcontent⟩ := hf.sendWrite (n := h.processor nodeID) hi.good
    exact ⟨n, he, hcontent.trans hrem⟩

end Simulation

/-- Points that are all printed as the byte 120. -/
def tally : PointCodec Unit where
  string _ := [120]
  parsePoints := parse
where
  parse : Bytes → Option (List Unit)
    | [] => some []
    | 120 :: 10 :: b => (parse b).map (() :: ·)
    | _ => none

theorem tally_inverts : tally.Inverts := by
  intro points
  induction points with
  | nil => rfl
  | cons p points ih =>
    show (tally.parse (lines tally points)).map (() :: ·) = _
    rw [show tally.parse (lines tally points) = some points from ih]
    rfl

theorem handoff_in_order_two : ∃ (s₀ : QState) (h : Handoff Unit) (init rem : List Bytes),
    Opened s₀ ∧ HandoffRun tally 1 s₀ h ∧ h.accepted = [(7, [()]), (8, [(), ()])] ∧
    h.delivered = [(7, [()])] ∧ content s₀ = some init ∧ content h.w.s = some rem ∧
    init.filterMap (decoded tally) ++ h.accepted = h.delivered ++ rem.filterMap (decoded tally) := by
  set up : Env Unit := { dataNode := fun _ => .ok true, writeShard := fun _ _ _ => .ok () } with hup
  have hrun : HandoffRun tally 1 emptyQueue _ :=
    (((((HandoffRun.start.step (m := .writeShard 7 [()]) (by decide +kernel)).step
      (m := .begin up) trivial).step (m := .fetch) trivial).step
      (m := .writeShard 8 [(), ()]) (by decide +kernel)).step
      (m := .deliver up) trivial).step (m := .advance) trivial
  obtain ⟨-, init, rem, hinit, hrem, -, hidle, -⟩ :=
    handoff_in_order tally_inverts emptyQueue_opened hrun
  exact ⟨emptyQueue, _, init, rem, emptyQueue_opened, hrun, by decide +kernel, by decide +kernel,
    hinit, hrem, hidle (by decide +kernel)⟩

end InfluxCluster.HH
