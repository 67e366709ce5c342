/-
  Two calls of `SendWrite` side by side (`hh/node_processor.go`), while nothing fails on disk.

  `SendWrite` is exported, takes the processor's lock for reading only, and the goroutine of the
  processor calls it as well.  Each call reads the block at the head, delivers it, and then
  advances: three steps on one cursor.  Nothing ties the `Advance` to the block that was READ.  When
  two calls have read the same block, both deliver it, and the second `Advance` takes the block
  behind it, which nobody has sent.

  BLOCKS ARE COUNTED by their position: the block at the head has as many before it as were removed
  so far (`Placed.block`).  A block is handled once it has been delivered or rejected by
  `unmarshalWrite`.  Every removed block was handled exactly if each `Advance` is made while the
  block that its call has read is still at the head, or at the end of a segment, where it removes
  nothing (`nothing_skipped_iff`).
-/
import InfluxCluster.HH.Handoff
import InfluxCluster.Lib.Lockstep

namespace InfluxCluster.HH

open InfluxCluster.Lib

/-! ## The system -/

/-- Where a call of `SendWrite` is; with a block it has the block's position. -/
inductive SendPC
  | idle
  /-- The node is active. -/
  | active
  /-- `Current` has returned the block. -/
  | fetched (pos : Nat) (buf : Bytes)
  /-- The block has been delivered, or cannot be read. -/
  | advancing (pos : Nat) (buf : Bytes)
  | returned
  deriving DecidableEq

/-- The block that the call has in hand, and its position. -/
def SendPC.block? : SendPC → Option (Nat × Bytes)
  | .fetched pos buf | .advancing pos buf => some (pos, buf)
  | _ => none

/-- The queue and the two calls; how many blocks were removed, and the positions of those that were
    delivered or rejected. -/
structure Senders where
  s : QState
  pc : Bool → SendPC
  removed : Nat
  handled : List Nat

/-- What the parties do: `SendWrite` is cut where it calls something else. -/
inductive SendMove (Point : Type)
  | writeShard (shardID : UInt64) (points : List Point)
  | begin (i : Bool) (env : Env Point)
  | fetch (i : Bool)
  | deliver (i : Bool) (env : Env Point)
  | advance (i : Bool)
  | tick (t : Time)

/-- The number of blocks in the queue. -/
def blocks (s : QState) : Nat := ((content s).getD []).length

/-- The call is somewhere else now. -/
def Senders.goto (h : Senders) (i : Bool) (pc : SendPC) : Senders :=
  { h with pc := Function.update h.pc i pc }

/-- `Advance`; it has removed as many blocks as the queue is shorter then. -/
def Senders.advanced (h : Senders) : Senders :=
  { h with
    s := final (Queue.advance h.s)
    removed := h.removed + (blocks h.s - blocks (final (Queue.advance h.s))) }

/-- Before the calls begin. -/
def Senders.start (s : QState) : Senders :=
  { s := s, pc := fun _ => .idle, removed := 0, handled := [] }

section System

variable {Point : Type} (c : PointCodec Point) (nodeID : UInt64)

/-- One step; `none` if the call is not there, or if a block does not fit on the disk. -/
def SendMove.step (h : Senders) : SendMove Point → Option Senders
  | .writeShard shardID points =>
    if h.s.Roomy (marshalWrite c shardID points) then
      some { h with s := final (Queue.append (marshalWrite c shardID points) h.s) }
    else none
  | .begin i env =>
    match h.pc i with
    | .idle =>
      match env.dataNode nodeID with
      | .ok true => some (h.goto i .active)
      | _ => some (h.goto i .returned)
    | _ => none
  | .fetch i =>
    match h.pc i with
    | .active =>
      match Queue.current h.s with
      | .ok buf s => some ({ h with s := s }.goto i (.fetched h.removed buf))
      | .error _ s => some ({ h with s := s }.goto i .returned)
    | _ => none
  | .deliver i env =>
    match h.pc i with
    | .fetched pos buf =>
      match verdict c env nodeID buf with
      | .skipped _ | .taken _ _ =>
        some ({ h with handled := pos :: h.handled }.goto i (.advancing pos buf))
      | .refused _ => some (h.goto i .returned)
    | _ => none
  | .advance i =>
    match h.pc i with
    | .advancing _ _ => some (h.advanced.goto i .returned)
    | _ => none
  | .tick t => some { h with s := { h.s with disk := h.s.disk.at t } }

/-- **No block is skipped**: every block that was removed has been delivered or rejected. -/
def Senders.NothingSkipped (h : Senders) : Prop := ∀ pos < h.removed, pos ∈ h.handled

/-- An `Advance` is made while the block that its call has read is still at the head, or at the end
    of the head segment. -/
def SendMove.AtHead (h : Senders) : SendMove Point → Prop
  | .advance i => (∀ b ∈ (h.pc i).block?, b.1 = h.removed) ∨ HeadRead h.s
  | _ => True

/-! ## The steps of one call are the method -/

/-- The processor of the system. -/
def Senders.processor (h : Senders) : NodeProcessor :=
  { nodeID := nodeID, done := true, queue := h.s }

/-- **The steps of a call in a row, up to where it returns, are `SendWrite`.** -/
theorem sendWrite_steps (h : Senders) (i : Bool) (env : Env Point) (hpc : h.pc i = .idle) :
    ∃ k h', ([.begin i env, .fetch i, .deliver i env, .advance i].take k).foldlM
        (SendMove.step c nodeID) h = some h' ∧ h'.pc i = .returned ∧
      final (NodeProcessor.sendWrite c env (h.processor nodeID)) = h'.processor nodeID := by
  have hself : ∀ (h : Senders) (pc : SendPC), (h.goto i pc).pc i = pc :=
    fun h pc => Function.update_self ..
  set n := h.processor nodeID with hn
  -- the places where the call can return, from the first to the last
  rcases hd : env.dataNode nodeID with e | _ | _
  · have hbegin : SendMove.step c nodeID h (.begin i env) = some (h.goto i .returned) := by
      rw [SendMove.step, hpc, hd]
    refine ⟨1, h.goto i .returned, ?_, hself _ _, ?_⟩
    · simp [hbegin]
    · rw [NodeProcessor.sendWrite_dataNode (n := n) hd]
      rfl
  · have hbegin : SendMove.step c nodeID h (.begin i env) = some (h.goto i .returned) := by
      rw [SendMove.step, hpc, hd]
    refine ⟨1, h.goto i .returned, ?_, hself _ _, ?_⟩
    · simp [hbegin]
    · rw [NodeProcessor.sendWrite_inactive (n := n) hd]
      rfl
  · have hbegin : SendMove.step c nodeID h (.begin i env) = some (h.goto i .active) := by
      rw [SendMove.step, hpc, hd]
    have hqueue : (h.goto i .active).s = h.s := rfl
    rcases hcur : Queue.current h.s with ⟨buf, s⟩ | ⟨e, s⟩
    · set h₂ := ({ h.goto i .active with s := s } : Senders).goto i (.fetched h.removed buf) with hh₂
      have hfetch : SendMove.step c nodeID (h.goto i .active) (.fetch i) = some h₂ := by
        rw [SendMove.step, hself, hqueue, hcur]
        rfl
      set h₃ := ({ h₂ with handled := h.removed :: h.handled } : Senders).goto i
        (.advancing h.removed buf) with hh₃
      have hadvance : SendMove.step c nodeID h₃ (.advance i) = some (h₃.advanced.goto i .returned) := by
        rw [SendMove.step, hself]
      have hdeliver : SendMove.step c nodeID h₂ (.deliver i env) = some
          (match verdict c env nodeID buf with
            | .skipped _ | .taken _ _ => h₃
            | .refused _ => h₂.goto i .returned) := by
        rw [SendMove.step, hself]
        dsimp only
        cases verdict c env nodeID buf with
        | skipped e => rfl
        | taken shardID points => rfl
        | refused e => rfl
      have hsend := NodeProcessor.sendWrite_fetched (c := c) (n := n) hd hcur
      rw [show n.nodeID = nodeID from rfl] at hsend
      cases hv : verdict c env nodeID buf with
      | skipped e | taken shardID points =>
        rw [hv] at hdeliver hsend
        refine ⟨4, h₃.advanced.goto i .returned, ?_, hself _ _, ?_⟩
        · simp [hbegin, hfetch, hdeliver, hadvance]
        · rw [hsend]
          rfl
      | refused e =>
        rw [hv] at hdeliver hsend
        refine ⟨3, h₂.goto i .returned, ?_, hself _ _, ?_⟩
        · simp [hbegin, hfetch, hdeliver]
        · rw [hsend]
          rfl
    · have hfetch : SendMove.step c nodeID (h.goto i .active) (.fetch i)
          = some (({ h.goto i .active with s := s } : Senders).goto i .returned) := by
        rw [SendMove.step, hself, hqueue, hcur]
      refine ⟨2, ({ h.goto i .active with s := s } : Senders).goto i .returned, ?_, hself _ _, ?_⟩
      · simp [hbegin, hfetch]
      · rw [NodeProcessor.sendWrite_nothing (n := n) hd hcur]
        rfl

end System

/-! ## Positions -/

section Queue

variable {s : QState} {chain : List (Ptr × Log Bytes)}

theorem Good.blocks_eq (h : Good s chain) : blocks s = (Chain.content (logs chain)).length := by
  rw [blocks, h.toRep.content_eq layout_clean, Option.getD_some]

/-- `Advance` removes the block at the head, and nothing at the end of the head segment. -/
theorem Good.advance_content (h : Good s chain) :
    ∃ chain', Good (final (Queue.advance s)) chain' ∧
      ((HeadRead s ∧ Chain.content (logs chain') = Chain.content (logs chain)) ∨
        (¬ HeadRead s ∧
          ∃ b, Chain.content (logs chain) = b :: Chain.content (logs chain'))) := by
  obtain ⟨c, cs, rfl⟩ := List.exists_cons_of_ne_nil h.nonempty
  obtain ⟨s', chain', he, hg, hlogs⟩ := h.advance
  refine ⟨chain', by rw [he]; exact hg, ?_⟩
  rw [h.headRead_iff, hlogs, logs, List.map_cons, Chain.content_advance, Chain.content_cons]
  by_cases hd : c.2.Drained
  · rw [(Log.remaining_eq_nil_iff c.2).mpr hd]
    exact .inl ⟨hd, rfl⟩
  · have hlt := Log.cursor_lt_of_not_drained hd
    rw [Log.remaining_of_lt hlt]
    exact .inr ⟨hd, _, rfl⟩

end Queue

/-- **Positions are what they seem**: the queue holds the blocks of a stream from the number of
    removed ones on, and the block that a call has in hand is the one at its position. -/
structure Placed (stream : List Bytes) (h : Senders) : Prop where
  good : ∃ chain, Good h.s chain ∧ stream.drop h.removed = Chain.content (logs chain)
  le : h.removed ≤ stream.length
  block : ∀ i b, (h.pc i).block? = some b → stream[b.1]? = some b.2

/-- **Who can have removed and handled what**: a call that has not returned has removed nothing, so
    the other one has removed one block at most, and nothing as long as it has not returned either.
    The blocks that were handled are then the first one, and the one that this call is about to
    advance. -/
structure Turns (h : Senders) : Prop where
  pos_le : ∀ i b, (h.pc i).block? = some b → b.1 ≤ h.removed
  advancing : ∀ i pos buf, h.pc i = .advancing pos buf → pos ∈ h.handled
  removed_le : ∀ i, h.pc i ≠ .returned → h.removed ≤ 1
  removed_eq : ∀ i, h.pc i ≠ .returned → h.pc (!i) ≠ .returned → h.removed = 0
  handled : ∀ i, h.pc i ≠ .returned → ∀ pos ∈ h.handled, pos = 0 ∨ ∃ buf, h.pc i = .advancing pos buf

section Goto

variable {h : Senders} {i : Bool} {pc : SendPC} {stream : List Bytes}

theorem Senders.goto_self : (h.goto i pc).pc i = pc := Function.update_self ..

theorem Senders.goto_other : (h.goto i pc).pc (!i) = h.pc (!i) :=
  Function.update_of_ne (by cases i <;> decide) ..

/-- A sender goes on with a block of the stream. -/
theorem Placed.goto (hp : Placed stream h) (hpc : ∀ b, pc.block? = some b → stream[b.1]? = some b.2) :
    Placed stream (h.goto i pc) := by
  refine ⟨hp.good, hp.le, fun j b hb => ?_⟩
  rcases Bool.eq_or_eq_not j i with rfl | rfl
  · rw [Senders.goto_self] at hb
    exact hpc b hb
  · rw [Senders.goto_other] at hb
    exact hp.block _ b hb

/-- A call that is not about to advance goes on, and has then handled what it advances. -/
theorem Turns.goto (ht : Turns h) (hi : h.pc i ≠ .returned)
    (hpc : ∀ b, pc.block? = some b → b.1 ≤ h.removed)
    (hnew : ∀ pos buf, pc = .advancing pos buf → pos ∈ h.handled)
    (hold : pc ≠ .returned → ∀ pos ∈ h.handled, pos = 0 ∨ ∃ buf, pc = .advancing pos buf) :
    Turns (h.goto i pc) := by
  refine ⟨fun j b hb => ?_, fun j pos buf hj => ?_, fun j hj => ?_, fun j hj hother => ?_,
    fun j hj => ?_⟩
  · rcases Bool.eq_or_eq_not j i with rfl | rfl
    · rw [Senders.goto_self] at hb
      exact hpc b hb
    · rw [Senders.goto_other] at hb
      exact ht.pos_le _ b hb
  · rcases Bool.eq_or_eq_not j i with rfl | rfl
    · rw [Senders.goto_self] at hj
      exact hnew pos buf hj
    · rw [Senders.goto_other] at hj
      exact ht.advancing _ pos buf hj
  · exact ht.removed_le i hi
  · rcases Bool.eq_or_eq_not j i with rfl | rfl
    · rw [Senders.goto_other] at hother
      exact ht.removed_eq j hi hother
    · rw [Senders.goto_other] at hj
      exact ht.removed_eq i hi hj
  · rcases Bool.eq_or_eq_not j i with rfl | rfl
    · rw [Senders.goto_self] at hj ⊢
      exact hold hj
    · rw [Senders.goto_other] at hj ⊢
      exact ht.handled _ hj

theorem Turns.returned (ht : Turns h) (hi : h.pc i ≠ .returned) : Turns (h.goto i .returned) :=
  ht.goto hi (fun _ hb => by cases hb) (fun _ _ hpc => by cases hpc) fun hne => absurd rfl hne

/-- The block that a call has in hand is handled.  If the other one has not returned, it is the
    first. -/
theorem Turns.handle (ht : Turns h) {pos : Nat} {buf : Bytes} (hi : h.pc i = .fetched pos buf) :
    Turns ({ h with handled := pos :: h.handled }.goto i (.advancing pos buf)) := by
  have hne : h.pc i ≠ .returned := by rw [hi]; exact SendPC.noConfusion
  have hle : pos ≤ h.removed := ht.pos_le i (pos, buf) (by rw [hi]; rfl)
  refine ⟨fun j b hb => ?_, fun j p b hj => ?_, fun j hj => ht.removed_le i hne, fun j hj hother => ?_,
    fun j hj p hp => ?_⟩
  · rcases Bool.eq_or_eq_not j i with rfl | rfl
    · rw [Senders.goto_self] at hb
      cases hb
      exact hle
    · rw [Senders.goto_other] at hb
      exact ht.pos_le _ b hb
  · rcases Bool.eq_or_eq_not j i with rfl | rfl
    · rw [Senders.goto_self] at hj
      cases hj
      exact List.mem_cons_self
    · rw [Senders.goto_other] at hj
      exact List.mem_cons_of_mem _ (ht.advancing _ p b hj)
  · rcases Bool.eq_or_eq_not j i with rfl | rfl
    · rw [Senders.goto_other] at hother
      exact ht.removed_eq j hne hother
    · rw [Senders.goto_other] at hj
      exact ht.removed_eq i hne hj
  · rcases Bool.eq_or_eq_not j i with rfl | rfl
    · rw [Senders.goto_self]
      rcases List.mem_cons.mp hp with rfl | hp
      · exact .inr ⟨buf, rfl⟩
      · rcases ht.handled j hne p hp with hzero | ⟨buf', hbuf'⟩
        · exact .inl hzero
        · rw [hi] at hbuf'
          cases hbuf'
    · rw [Senders.goto_other] at hj ⊢
      rcases List.mem_cons.mp hp with rfl | hp
      · have hremoved : h.removed = 0 := ht.removed_eq i hne hj
        exact .inl (by omega)
      · exact ht.handled _ hj p hp

/-- A call that is about to advance does so, and returns. -/
theorem Turns.advanced (ht : Turns h) {pos : Nat} {buf : Bytes} (hi : h.pc i = .advancing pos buf)
    (hone : h.advanced.removed ≤ h.removed + 1) : Turns (h.advanced.goto i .returned) := by
  have hne : h.pc i ≠ .returned := by rw [hi]; exact SendPC.noConfusion
  have hmono : h.removed ≤ h.advanced.removed := Nat.le_add_right _ _
  refine ⟨fun j b hb => ?_, fun j p b hj => ?_, fun j hj => ?_, fun j hj hother => ?_, fun j hj => ?_⟩
  · rcases Bool.eq_or_eq_not j i with rfl | rfl
    · rw [Senders.goto_self] at hb
      cases hb
    · rw [Senders.goto_other] at hb
      exact Nat.le_trans (ht.pos_le _ b hb) hmono
  · rcases Bool.eq_or_eq_not j i with rfl | rfl
    · rw [Senders.goto_self] at hj
      cases hj
    · rw [Senders.goto_other] at hj
      exact ht.advancing _ p b hj
  · rcases Bool.eq_or_eq_not j i with rfl | rfl
    · exact absurd Senders.goto_self hj
    · -- nothing was removed before, since neither had returned
      rw [Senders.goto_other] at hj
      have hremoved : h.removed = 0 := ht.removed_eq i hne hj
      show h.advanced.removed ≤ 1
      omega
  · rcases Bool.eq_or_eq_not j i with rfl | rfl
    · exact absurd Senders.goto_self hj
    · rw [Bool.not_not] at hother
      exact absurd Senders.goto_self hother
  · rcases Bool.eq_or_eq_not j i with rfl | rfl
    · exact absurd Senders.goto_self hj
    · rw [Senders.goto_other] at hj ⊢
      exact ht.handled _ hj

end Goto

/-! ## One step -/

section Step

variable {Point : Type} {c : PointCodec Point} {nodeID : UInt64} {h h' : Senders}

/-- What holds in every state: positions are what they seem, and the calls take turns. -/
def Orderly (h : Senders) : Prop := (∃ stream, Placed stream h) ∧ Turns h

/-- `Append` puts a block behind the others, or none. -/
theorem Placed.append {stream : List Bytes} (hp : Placed stream h) {b : Bytes} (hb : b ≠ [])
    (hroom : h.s.Roomy b) : ∃ stream', Placed stream' { h with s := final (Queue.append b h.s) } := by
  obtain ⟨chain, hg, hdrop⟩ := hp.good
  have hne := hg.logs_ne_nil
  have hroll : Chain.roll (logs chain) ≠ [] := by simp [Chain.roll]
  obtain ⟨s', chain', hg', ⟨he, hlogs⟩ | ⟨e, he, hlogs⟩⟩ := hg.append hb hroom
  · refine ⟨stream ++ [b], ⟨chain', by rw [he]; exact hg', ?_⟩, ?_, fun i x hx => ?_⟩
    · have hcontent : Chain.content (logs chain') = Chain.content (logs chain) ++ [b] := by
        rcases hlogs with hl | ⟨-, hl⟩
        · rw [hl, Chain.content_pushLast hne]
        · rw [hl, Chain.content_pushLast hroll, Chain.content_roll]
      rw [hcontent, ← hdrop, List.drop_append_of_le_length hp.le]
    · rw [List.length_append]
      exact Nat.le_add_right_of_le hp.le
    · have hold := hp.block i x hx
      rw [List.getElem?_append_left (List.getElem?_eq_some_iff.mp hold).1]
      exact hold
  · refine ⟨stream, ⟨chain', by rw [he]; exact hg', ?_⟩, hp.le, hp.block⟩
    rcases hlogs with hl | ⟨-, hl⟩
    · rw [hl]
      exact hdrop
    · rw [hl, Chain.content_roll]
      exact hdrop

/-- `Current` leaves the blocks as they are, and shows the one at the head. -/
theorem Placed.current {stream : List Bytes} (hp : Placed stream h) :
    Placed stream { h with s := final (Queue.current h.s) } ∧
      ∀ buf s, Queue.current h.s = .ok buf s → stream[h.removed]? = some buf := by
  obtain ⟨chain, hg, hdrop⟩ := hp.good
  obtain ⟨x, xs, rfl⟩ := List.exists_cons_of_ne_nil hg.nonempty
  obtain ⟨s', hg', hcur⟩ := hg.current
  have hfinal : final (Queue.current h.s) = s' := by
    rcases hcur with ⟨-, he⟩ | ⟨r, rest, -, he | ⟨m, n, he⟩⟩ <;> rw [he] <;> rfl
  refine ⟨⟨⟨x :: xs, by rw [hfinal]; exact hg', hdrop⟩, hp.le, hp.block⟩, fun buf s hok => ?_⟩
  rcases hcur with ⟨-, he⟩ | ⟨r, rest, hrem, he | ⟨m, n, he⟩⟩
  · rw [hok] at he
    cases he
  · rw [hok] at he
    cases he
    have hhead := congrArg List.head? hdrop
    rw [List.head?_drop, logs, List.map_cons, Chain.content_cons, hrem] at hhead
    exact hhead
  · rw [hok] at he
    cases he

/-- `Advance` removes the block at the head, and nothing at the end of the head segment. -/
theorem Placed.advanced {stream : List Bytes} (hp : Placed stream h) :
    Placed stream h.advanced ∧
      ((HeadRead h.s ∧ h.advanced.removed = h.removed) ∨
        (¬ HeadRead h.s ∧ h.advanced.removed = h.removed + 1)) := by
  obtain ⟨chain, hg, hdrop⟩ := hp.good
  obtain ⟨chain', hg', ⟨hend, hcontent⟩ | ⟨hend, b, hcontent⟩⟩ := hg.advance_content
  · have hremoved : h.advanced.removed = h.removed := by
      rw [Senders.advanced, hg.blocks_eq, hg'.blocks_eq, hcontent, Nat.sub_self]
      rfl
    refine ⟨⟨⟨chain', hg', ?_⟩, ?_, hp.block⟩, .inl ⟨hend, hremoved⟩⟩
    · rw [hremoved, hcontent]
      exact hdrop
    · rw [hremoved]
      exact hp.le
  · have hremoved : h.advanced.removed = h.removed + 1 := by
      rw [Senders.advanced, hg.blocks_eq, hg'.blocks_eq, hcontent, List.length_cons]
      dsimp only
      omega
    have hlt : h.removed < stream.length := by
      by_contra hge
      rw [List.drop_of_length_le (Nat.le_of_not_lt hge), hcontent] at hdrop
      cases hdrop
    refine ⟨⟨⟨chain', hg', ?_⟩, ?_, hp.block⟩, .inr ⟨hend, hremoved⟩⟩
    · rw [hremoved, ← List.tail_drop, hdrop, hcontent]
      rfl
    · rw [hremoved]
      exact hlt

theorem Orderly.returned (hs : Orderly h) {i : Bool} (hi : h.pc i ≠ .returned) :
    Orderly (h.goto i .returned) := by
  obtain ⟨⟨stream, hp⟩, ht⟩ := hs
  exact ⟨⟨stream, hp.goto fun _ hb => by cases hb⟩, ht.returned hi⟩

/-- A change of the queue only. -/
theorem Orderly.queue (hs : Orderly h) {s : QState} (hp : ∃ stream, Placed stream { h with s := s }) :
    Orderly { h with s := s } :=
  ⟨hp, hs.2.pos_le, hs.2.advancing, hs.2.removed_le, hs.2.removed_eq, hs.2.handled⟩

/-- A sender starts. -/
theorem Orderly.begin (hs : Orderly h) {i : Bool} {env : Env Point}
    (hstep : SendMove.step c nodeID h (.begin i env) = some h') : Orderly h' ∧
      h'.removed = h.removed ∧ h'.handled = h.handled := by
  rw [SendMove.step] at hstep
  rcases hpc : h.pc i with _ | _ | _ | _ | _ <;> rw [hpc] at hstep <;> try cases hstep
  have hne : h.pc i ≠ .returned := by rw [hpc]; exact SendPC.noConfusion
  obtain ⟨⟨stream, hp⟩, ht⟩ := hs
  have hactive : Orderly (h.goto i .active) := by
    refine ⟨⟨stream, hp.goto fun _ hb => by cases hb⟩, ht.goto hne (fun _ hb => by cases hb)
      (fun _ _ hpc => by cases hpc) fun _ pos hpos => ?_⟩
    rcases ht.handled i hne pos hpos with hzero | ⟨buf, hbuf⟩
    · exact .inl hzero
    · rw [hpc] at hbuf
      cases hbuf
  dsimp only at hstep
  split at hstep
  · cases hstep
    exact ⟨hactive, rfl, rfl⟩
  · cases hstep
    exact ⟨Orderly.returned ⟨⟨stream, hp⟩, ht⟩ hne, rfl, rfl⟩

/-- It reads the block at the head. -/
theorem Orderly.fetch (hs : Orderly h) {i : Bool}
    (hstep : SendMove.step c nodeID h (.fetch i) = some h') : Orderly h' ∧
      h'.removed = h.removed ∧ h'.handled = h.handled := by
  rw [SendMove.step] at hstep
  rcases hpc : h.pc i with _ | _ | _ | _ | _ <;> rw [hpc] at hstep <;> try cases hstep
  have hne : h.pc i ≠ .returned := by rw [hpc]; exact SendPC.noConfusion
  obtain ⟨stream, hp⟩ := hs.1
  obtain ⟨hread, hbuf⟩ := hp.current
  have hs' := hs.queue ⟨stream, hread⟩
  dsimp only at hstep
  rcases hcur : Queue.current h.s with ⟨buf, s⟩ | ⟨e, s⟩
  · rw [hcur] at hstep
    rw [hcur] at hread hs'
    cases hstep
    refine ⟨⟨⟨stream, hread.goto fun b hb => ?_⟩, hs'.2.goto hne (fun b hb => ?_)
      (fun _ _ hpc => by cases hpc) fun _ pos hpos => ?_⟩, rfl, rfl⟩
    · cases hb
      exact hbuf buf s hcur
    · cases hb
      exact Nat.le_refl _
    · rcases hs.2.handled i hne pos hpos with hzero | ⟨buf, hbuf⟩
      · exact .inl hzero
      · rw [hpc] at hbuf
        cases hbuf
  · rw [hcur] at hstep
    rw [hcur] at hs'
    cases hstep
    exact ⟨hs'.returned hne, rfl, rfl⟩

/-- It delivers what it has read. -/
theorem Orderly.deliver (hs : Orderly h) {i : Bool} {env : Env Point}
    (hstep : SendMove.step c nodeID h (.deliver i env) = some h') : Orderly h' ∧
      h'.removed = h.removed ∧ h.handled ⊆ h'.handled := by
  rw [SendMove.step] at hstep
  rcases hpc : h.pc i with _ | _ | ⟨pos, buf⟩ | _ | _ <;> rw [hpc] at hstep <;> try cases hstep
  have hne : h.pc i ≠ .returned := by rw [hpc]; exact SendPC.noConfusion
  have hhandled : Orderly ({ h with handled := pos :: h.handled }.goto i (.advancing pos buf)) := by
    obtain ⟨⟨stream, hp⟩, ht⟩ := hs
    have hplaced : Placed stream { h with handled := pos :: h.handled } := ⟨hp.good, hp.le, hp.block⟩
    refine ⟨⟨stream, hplaced.goto fun b hb => ?_⟩, ht.handle hpc⟩
    cases hb
    exact hp.block i (pos, buf) (by rw [hpc]; rfl)
  dsimp only at hstep
  cases hv : verdict c env nodeID buf with
  | skipped e | taken shardID points =>
    rw [hv] at hstep
    cases hstep
    exact ⟨hhandled, rfl, List.subset_cons_self _ _⟩
  | refused e =>
    rw [hv] at hstep
    cases hstep
    exact ⟨hs.returned hne, rfl, List.Subset.refl _⟩

/-- An `Advance` removes a block that was handled exactly if that is the block its call has read. -/
theorem Orderly.advance (hs : Orderly h) {i : Bool}
    (hstep : SendMove.step c nodeID h (.advance i) = some h') : Orderly h' ∧
      (h.NothingSkipped → (h'.NothingSkipped ↔ (SendMove.advance i : SendMove Point).AtHead h)) := by
  rw [SendMove.step] at hstep
  rcases hpc : h.pc i with _ | _ | _ | ⟨pos, buf⟩ | _ <;> rw [hpc] at hstep <;> cases hstep
  have hne : h.pc i ≠ .returned := by rw [hpc]; exact SendPC.noConfusion
  obtain ⟨⟨stream, hp⟩, ht⟩ := hs
  obtain ⟨hp', hremoved⟩ := hp.advanced
  have hone : h.advanced.removed ≤ h.removed + 1 := by
    rcases hremoved with ⟨-, hr⟩ | ⟨-, hr⟩ <;> omega
  refine ⟨⟨⟨stream, hp'.goto fun _ hb => by cases hb⟩, ht.advanced hpc hone⟩, fun hskip => ?_⟩
  have hpos : pos ≤ h.removed := ht.pos_le i (pos, buf) (by rw [hpc]; rfl)
  have hmem : pos ∈ h.handled := ht.advancing i pos buf hpc
  rw [SendMove.AtHead, hpc]
  rcases hremoved with ⟨hend, hr⟩ | ⟨hend, hr⟩
  · -- nothing was removed
    refine iff_of_true (fun p hlt => hskip p ?_) (.inr hend)
    have hlt' : p < h.advanced.removed := hlt
    omega
  · constructor
    · intro hafter
      -- the block that is gone was handled; only this call can have handled a block behind the first
      have hgone : h.removed ∈ h.handled := hafter h.removed (by
        show h.removed < h.advanced.removed
        omega)
      refine .inl fun b hb => ?_
      cases hb
      rcases ht.handled i hne h.removed hgone with hzero | ⟨buf', hbuf'⟩
      · omega
      · rw [hpc] at hbuf'
        cases hbuf'
        rfl
    · rintro (hhead | hend')
      · have heq : pos = h.removed := hhead (pos, buf) rfl
        intro p hlt
        have hlt' : p < h.advanced.removed := hlt
        rcases Nat.lt_or_ge p h.removed with hbefore | hafter
        · exact hskip p hbefore
        · have hp : p = pos := by omega
          rw [hp]
          exact hmem
      · exact absurd hend' hend

/-- **What a step does**: positions stay what they seem, and a block is skipped exactly if an
    `Advance` is made past another block than the one that was read. -/
theorem Orderly.step (hs : Orderly h) {m : SendMove Point} (hstep : m.step c nodeID h = some h') :
    Orderly h' ∧ (h.NothingSkipped → (h'.NothingSkipped ↔ m.AtHead h)) := by
  have hkeep : ∀ h' : Senders, h'.removed = h.removed → h.handled ⊆ h'.handled →
      h.NothingSkipped → h'.NothingSkipped := by
    intro h' hremoved hhandled hskip p hlt
    rw [hremoved] at hlt
    exact hhandled (hskip p hlt)
  cases m with
  | writeShard shardID points =>
    rw [SendMove.step] at hstep
    split_ifs at hstep with hroom
    cases hstep
    obtain ⟨stream, hp⟩ := hs.1
    exact ⟨hs.queue (hp.append (marshalWrite_ne_nil c shardID points) hroom),
      fun hskip => iff_of_true hskip trivial⟩
  | begin i env =>
    obtain ⟨hs', hremoved, hhandled⟩ := hs.begin hstep
    exact ⟨hs', fun hskip => iff_of_true (hkeep h' hremoved (hhandled ▸ List.Subset.refl _) hskip)
      trivial⟩
  | fetch i =>
    obtain ⟨hs', hremoved, hhandled⟩ := hs.fetch hstep
    exact ⟨hs', fun hskip => iff_of_true (hkeep h' hremoved (hhandled ▸ List.Subset.refl _) hskip)
      trivial⟩
  | deliver i env =>
    obtain ⟨hs', hremoved, hhandled⟩ := hs.deliver hstep
    exact ⟨hs', fun hskip => iff_of_true (hkeep h' hremoved hhandled hskip) trivial⟩
  | advance i => exact hs.advance hstep
  | tick t =>
    cases hstep
    obtain ⟨stream, hp⟩ := hs.1
    obtain ⟨chain, hg, hdrop⟩ := hp.good
    exact ⟨hs.queue ⟨stream, ⟨chain, hg.tick t, hdrop⟩, hp.le, hp.block⟩,
      fun hskip => iff_of_true hskip trivial⟩

/-- Nobody has done anything yet. -/
theorem orderly_start {s₀ : QState} {chain : List (Ptr × Log Bytes)} (hgood : Good s₀ chain) :
    Orderly (Senders.start s₀) := by
  have hidle : ∀ i b, ((Senders.start s₀).pc i).block? ≠ some b :=
    fun _ _ => (Option.some_ne_none _).symm
  constructor
  · exact ⟨Chain.content (logs chain), ⟨chain, hgood, rfl⟩, Nat.zero_le _,
      fun i b hb => absurd hb (hidle i b)⟩
  · refine ⟨fun i b hb => absurd hb (hidle i b), fun i pos buf hpc => ?_, fun _ _ => Nat.zero_le _,
      fun _ _ _ => rfl, fun _ _ pos hpos => absurd hpos List.not_mem_nil⟩
    cases hpc

/-- **Two senders skip nothing exactly if each of them advances past the block that it has read**:
    on a queue in use, in every interleaving of the two calls with each other and with writers. -/
theorem nothing_skipped_iff {s₀ : QState} {chain : List (Ptr × Log Bytes)} (hgood : Good s₀ chain)
    (moves : List (SendMove Point)) :
    (∀ k h, (moves.take k).foldlM (SendMove.step c nodeID) (Senders.start s₀) = some h →
        h.NothingSkipped)
      ↔ Along (SendMove.step c nodeID)
          (fun h m => (SendMove.step c nodeID h m).isSome → m.AtHead h) (Senders.start s₀) moves := by
  refine foldlM_take_inv_iff (J := Orderly) ?_ ?_ moves (orderly_start hgood) ?_
  · exact fun h m h' hs hstep => (hs.step hstep).1
  · exact fun h m h' hs hskip hstep => (hs.step hstep).2 hskip
  · exact fun pos hlt => absurd hlt (Nat.not_lt_zero pos)

end Step

/-- A node that is there, and takes everything. -/
def reachableNode : Env Unit := { dataNode := fun _ => .ok true, writeShard := fun _ _ _ => .ok () }

/-- Two blocks are written, and both calls read the first one before either of them advances. -/
def sameBlock : List (SendMove Unit) :=
  [.writeShard 7 [()], .writeShard 8 [()], .begin false reachableNode, .begin true reachableNode,
    .fetch false, .fetch true, .deliver false reachableNode, .deliver true reachableNode,
    .advance false, .advance true]

theorem nothing_skipped_sameBlock : ∃ chain, Good emptyQueue chain ∧
    ((∀ k h, (sameBlock.take k).foldlM (SendMove.step tally 1) (Senders.start emptyQueue) = some h →
        h.NothingSkipped)
      ↔ Along (SendMove.step tally 1)
          (fun h m => (SendMove.step tally 1 h m).isSome → m.AtHead h) (Senders.start emptyQueue)
          sameBlock) := by
  obtain ⟨chain, hgood⟩ := emptyQueue_opened.good
  exact ⟨chain, hgood, nothing_skipped_iff hgood sameBlock⟩

/-- **Both deliver the first block, and the second is gone without having been sent.** -/
theorem second_block_skipped :
    (sameBlock.foldlM (SendMove.step tally 1) (Senders.start emptyQueue)).map
        (fun h => (h.removed, h.handled, content h.s)) = some (2, [0, 0], some []) ∧
      ¬ ∀ k h, (sameBlock.take k).foldlM (SendMove.step tally 1) (Senders.start emptyQueue) = some h →
        h.NothingSkipped := by
  have hrun : (sameBlock.foldlM (SendMove.step tally 1) (Senders.start emptyQueue)).map
      (fun h => (h.removed, h.handled, content h.s)) = some (2, [0, 0], some []) := by
    decide +kernel
  refine ⟨hrun, fun hall => ?_⟩
  obtain ⟨h, hh, hstate⟩ := Option.map_eq_some_iff.mp hrun
  have hremoved : h.removed = 2 := congrArg Prod.fst hstate
  have hhandled : h.handled = [0, 0] := congrArg (fun x => x.2.1) hstate
  have hskip : 1 ∈ h.handled := hall 10 h hh 1 (by rw [hremoved]; decide)
  rw [hhandled] at hskip
  exact absurd hskip (by decide)

end InfluxCluster.HH
