/-
  The hinted-handoff service (`hh/service.go`): one processor for each node, made when the first
  hint for the node comes, and removed when the node has been gone for long.

  `Service.WriteShard` looks the processor up under the read lock.  If there is none it takes the
  write lock, LOOKS AGAIN, and only then makes one; the write itself is done with no lock of the
  service at all.  A pass of `purgeInactiveProcessors` and `Close` hold the write lock from
  beginning to end, but calls that have a processor in hand, and the goroutines of the processors,
  go on all the while.  So the calls, the goroutines, the pass and `Close` are cut here where they
  give up a lock or ask something outside, and every order of the pieces is a run.

  POINTERS.  A call keeps the `*NodeProcessor` that it found while a pass may close that processor,
  delete its directory and take it out of the map.  So the state has a heap of processors, and the
  map and the calls hold addresses.

  The calls are numbered.  How the processor's `Open` ends, what `os.RemoveAll` and the meta client
  answer and what the clock says are part of the step.  A pass may begin at any time, also after
  `Close`.  `Diagnostics`, the statistics and the logger are left out; so is a service that is not
  enabled, which does nothing.
-/
import InfluxCluster.HH.Handoff
import InfluxCluster.HH.ProcessorOpen

namespace InfluxCluster.HH

open InfluxCluster.Lib

/-! ## A processor with its goroutine -/

/-- A `*NodeProcessor`: the node, the processor, and where its goroutine is in `SendWrite`. -/
structure Node where
  nodeID : UInt64
  proc : Processor
  pc : PC

/-- What the goroutine of a processor does: the parts of `SendWrite`, and `PurgeOlderThan`; or time
    goes on. -/
inductive NodeMove (Point : Type)
  | begin (env : Env Point)
  | fetch
  | deliver (env : Env Point)
  | advance
  | age (fuel : Nat) (when_ : Time)
  | tick (t : Time)

/-- The disk at another time. -/
def tickQueue (t : Time) : QM Unit := fun s => .ok () { s with disk := s.disk.at t }

namespace Node

variable {Point : Type} (c : PointCodec Point)

/-- A move of the goroutine; one that it is not at does nothing. -/
def next (n : Node) : NodeMove Point → Node
  | .begin env =>
    match n.pc, env.dataNode n.nodeID with
    | .idle, .ok true => { n with pc := .active }
    | _, _ => n
  | .fetch =>
    match n.pc with
    | .active =>
      match Processor.call Queue.current n.proc with
      | .ok buf proc => { n with proc := proc, pc := .fetched buf }
      | .error _ proc => { n with proc := proc, pc := .idle }
    | _ => n
  | .deliver env =>
    match n.pc with
    | .fetched buf => { n with pc := (verdict c env n.nodeID buf).pc buf }
    | _ => n
  | .advance =>
    match n.pc with
    | .advancing _ => { n with proc := final (Processor.call Queue.advance n.proc), pc := .idle }
    | _ => n
  | .age fuel when_ =>
    match n.pc with
    | .idle => { n with proc := final (Processor.call (Queue.purgeOlderThan fuel when_) n.proc) }
    | _ => n
  | .tick t => { n with proc := final (Processor.call (tickQueue t) n.proc) }

/-- What `writer.WriteShard` takes in the move. -/
def sent (n : Node) : NodeMove Point → List (UInt64 × List Point)
  | .deliver env =>
    match n.pc with
    | .fetched buf => (verdict c env n.nodeID buf).sent
    | _ => []
  | _ => []

end Node

/-! ## The service -/

/-- A `*NodeProcessor` as an address. -/
abbrev NodePtr := Nat

/-- A call of `Service.WriteShard` that has looked its owner up. -/
structure WriteCall (Point : Type) where
  shardID : UInt64
  ownerID : UInt64
  points : List Point
  processor : Option NodePtr

/-- Where a pass of `purgeInactiveProcessors` is with the processor at `p` of the node `k`. -/
inductive Visit
  | next
  /-- `LastModified` has returned. -/
  | looked (k : UInt64) (p : NodePtr) (lm : Time)
  /-- The node is not active. -/
  | inactive (k : UInt64) (p : NodePtr) (lm : Time)
  /-- The data is older than `MaxAge`. -/
  | old (k : UInt64) (p : NodePtr)
  /-- The processor has been closed. -/
  | closed (k : UInt64) (p : NodePtr)

/-- Who has `s.mu` for writing, with the nodes that are still to come. -/
inductive Holder
  | free
  | pass (left : List UInt64) (visit : Visit)
  | closing (left : List UInt64)

/-- Points for a shard of a node. -/
structure Hint (Point : Type) where
  nodeID : UInt64
  shardID : UInt64
  points : List Point
  deriving DecidableEq

/-- `type Service struct`, with the processors made so far, the calls under way, and the histories
    of the hints that `WriteShard` accepted and that the nodes took. -/
structure Service (Point : Type) where
  processors : AList fun _ : UInt64 => NodePtr
  heap : NodePtr → Node
  next : NodePtr
  holder : Holder
  calls : Nat → Option (WriteCall Point)
  accepted : List (Hint Point)
  delivered : List (Hint Point)

namespace Service

variable {Point : Type}

/-- `NewService`. -/
def new : Service Point :=
  { processors := ∅, heap := fun _ => { nodeID := 0, proc := .new, pc := .idle }, next := 0,
    holder := .free, calls := fun _ => none, accepted := [], delivered := [] }

/-- The goroutine of the processor at `p` is there. -/
def Running (s : Service Point) (p : NodePtr) : Prop := (s.heap p).proc.running = true

instance (s : Service Point) (p : NodePtr) : Decidable (s.Running p) :=
  inferInstanceAs (Decidable (_ = true))

/-- The service after a method of the processor at `p`. -/
def put (s : Service Point) (p : NodePtr) (n : Processor) : Service Point :=
  { s with heap := Function.update s.heap p { s.heap p with proc := n } }

/-- The service with another call under the number `i`. -/
def setCall (s : Service Point) (i : Nat) (w : Option (WriteCall Point)) : Service Point :=
  { s with calls := Function.update s.calls i w }

/-- The service with another holder of `s.mu`. -/
def hold (s : Service Point) (holder : Holder) : Service Point := { s with holder := holder }

/-- `NewNodeProcessor`, its `Open`, and the entry in the map if that succeeds. -/
def spawn (s : Service Point) (nodeID : UInt64) (a : Attempt) : Except ProcErr (Service Point) :=
  match Processor.openProcessor a .new with
  | .ok _ n => .ok { s with
      processors := s.processors.insert nodeID s.next
      heap := Function.update s.heap s.next { nodeID := nodeID, proc := n, pc := .idle }
      next := s.next + 1 }
  | .error e _ => .error e

/-- `strconv.ParseUint(name, 10, 64)`. -/
def parseNodeID (name : FileName) : Option UInt64 := (parseUint name).map UInt64.ofNat

/-- The loop of `Open` over the root directory.  An `Open` of a processor that fails ends it. -/
def openEntries (s : Service Point) : List (FileName × Attempt) → Service Point
  | [] => s
  | (name, a) :: entries =>
    match parseNodeID name with
    -- not a number: skip it
    | none => openEntries s entries
    | some nodeID =>
      match s.spawn nodeID a with
      | .ok s' => openEntries s' entries
      | .error _ => s

end Service

/-- A step of a call, of a goroutine, of a pass, or of `Open` and `Close`. -/
inductive ServiceOp (Point : Type)
  | opens (entries : List (FileName × Attempt))
  /-- `WriteShard` looks its owner up. -/
  | lookup (i : Nat) (shardID ownerID : UInt64) (points : List Point)
  /-- It looks again and makes a processor. -/
  | create (i : Nat) (a : Attempt)
  /-- It writes, and returns. -/
  | write (i : Nat)
  | move (p : NodePtr) (m : NodeMove Point)
  | passBegin
  | lastModified (k : UInt64)
  | active (env : Env Point)
  | check (now : Time)
  | close
  | purge (removed : Option OSErr)
  | passEnd
  | closeBegin
  | closeNode (k : UInt64)
  | closeEnd

section Steps

variable {Point : Type} (c : PointCodec Point) (maxAge : Nat)

open Service

/-- One step; `none` if nobody can take it. -/
def ServiceOp.step (s : Service Point) : ServiceOp Point → Option (Service Point)
  | .opens entries =>
    match s.holder with
    | .free => some (s.openEntries entries)
    | _ => none
  | .lookup i shardID ownerID points =>
    match s.holder, s.calls i with
    | .free, none =>
      some (s.setCall i (some
        { shardID := shardID, ownerID := ownerID, points := points,
          processor := s.processors.lookup ownerID }))
    | _, _ => none
  | .create i a =>
    match s.holder, s.calls i with
    | .free, some ⟨shardID, ownerID, points, none⟩ =>
      -- check again under the write lock
      match s.processors.lookup ownerID with
      | some p => some (s.setCall i (some ⟨shardID, ownerID, points, some p⟩))
      | none =>
        match s.spawn ownerID a with
        | .ok s' => some (s'.setCall i (some ⟨shardID, ownerID, points, some s.next⟩))
        | .error _ => some (s.setCall i none)
    | _, _ => none
  | .write i =>
    match s.calls i with
    | some ⟨shardID, ownerID, points, some p⟩ =>
      match Processor.writeShard c shardID points (s.heap p).proc with
      | .ok _ n =>
        some { (s.put p n).setCall i none with
          accepted := s.accepted ++ [⟨ownerID, shardID, points⟩] }
      | .error _ n => some ((s.put p n).setCall i none)
    | _ => none
  | .move p m =>
    if s.Running p then
      some { s with
        heap := Function.update s.heap p ((s.heap p).next c m)
        delivered := s.delivered ++
          ((s.heap p).sent c m).map fun x => ⟨(s.heap p).nodeID, x.1, x.2⟩ }
    else none
  | .passBegin =>
    match s.holder with
    | .free => some (s.hold (.pass s.processors.keys .next))
    | _ => none
  | .lastModified k =>
    match s.holder, s.processors.lookup k with
    | .pass left .next, some p =>
      if k ∈ left then
        match Processor.call Queue.lastModified (s.heap p).proc with
        | .ok lm n => some ((s.put p n).hold (.pass (left.erase k) (.looked k p lm)))
        | .error _ n => some ((s.put p n).hold (.pass (left.erase k) .next))
      else none
    | _, _ => none
  | .active env =>
    match s.holder with
    | .pass left (.looked k p lm) =>
      match env.dataNode (s.heap p).nodeID with
      | .ok false => some (s.hold (.pass left (.inactive k p lm)))
      -- the node is active, or nobody knows
      | _ => some (s.hold (.pass left .next))
    | _ => none
  | .check now =>
    match s.holder with
    | .pass left (.inactive k p lm) =>
      if lm + maxAge < now then some (s.hold (.pass left (.old k p)))
      else some (s.hold (.pass left .next))
    | _ => none
  | .close =>
    match s.holder with
    | .pass left (.old k p) =>
      -- `Close` waits for the goroutine
      match (s.heap p).pc, Processor.close (s.heap p).proc with
      | .idle, .ok _ n => some ((s.put p n).hold (.pass left (.closed k p)))
      | .idle, .error _ n => some ((s.put p n).hold (.pass left .next))
      | _, _ => none
    | _ => none
  | .purge removed =>
    match s.holder with
    | .pass left (.closed k p) =>
      match Processor.purge removed (s.heap p).proc with
      | .ok _ n =>
        some { (s.put p n).hold (.pass left .next) with processors := s.processors.erase k }
      | .error _ n => some ((s.put p n).hold (.pass left .next))
    | _ => none
  | .passEnd =>
    match s.holder with
    | .pass [] .next => some (s.hold .free)
    | _ => none
  | .closeBegin =>
    match s.holder with
    | .free => some (s.hold (.closing s.processors.keys))
    | _ => none
  | .closeNode k =>
    match s.holder, s.processors.lookup k with
    | .closing left, some p =>
      if k ∈ left then
        match (s.heap p).pc, Processor.close (s.heap p).proc with
        | .idle, .ok _ n => some ((s.put p n).hold (.closing (left.erase k)))
        -- the first error ends `Close`
        | .idle, .error _ n => some ((s.put p n).hold .free)
        | _, _ => none
      else none
    | _, _ => none
  | .closeEnd =>
    match s.holder with
    | .closing [] => some (s.hold .free)
    | _ => none

/-- **What a step can do**, branch by branch. -/
inductive ServiceOp.Does (s : Service Point) : ServiceOp Point → Service Point → Prop
  | opens {entries : List (FileName × Attempt)} (hfree : s.holder = .free) :
      Does s (.opens entries) (s.openEntries entries)
  | lookup {i : Nat} {shardID ownerID : UInt64} {points : List Point} (hfree : s.holder = .free)
      (hnew : s.calls i = none) :
      Does s (.lookup i shardID ownerID points)
        (s.setCall i (some ⟨shardID, ownerID, points, s.processors.lookup ownerID⟩))
  | again {i : Nat} {a : Attempt} {shardID ownerID : UInt64} {points : List Point} {p : NodePtr}
      (hfree : s.holder = .free) (hcall : s.calls i = some ⟨shardID, ownerID, points, none⟩)
      (hthere : s.processors.lookup ownerID = some p) :
      Does s (.create i a) (s.setCall i (some ⟨shardID, ownerID, points, some p⟩))
  | created {i : Nat} {a : Attempt} {shardID ownerID : UInt64} {points : List Point}
      {s' : Service Point} (hfree : s.holder = .free)
      (hcall : s.calls i = some ⟨shardID, ownerID, points, none⟩)
      (hnone : s.processors.lookup ownerID = none) (hspawn : s.spawn ownerID a = .ok s') :
      Does s (.create i a) (s'.setCall i (some ⟨shardID, ownerID, points, some s.next⟩))
  | uncreated {i : Nat} {a : Attempt} (hfree : s.holder = .free) :
      Does s (.create i a) (s.setCall i none)
  | accepted {i : Nat} {shardID ownerID : UInt64} {points : List Point} {p : NodePtr}
      {n : Processor} (hcall : s.calls i = some ⟨shardID, ownerID, points, some p⟩)
      (hwrite : Processor.writeShard c shardID points (s.heap p).proc = .ok () n) :
      Does s (.write i) { (s.put p n).setCall i none with
        accepted := s.accepted ++ [⟨ownerID, shardID, points⟩] }
  | refused {i : Nat} {shardID ownerID : UInt64} {points : List Point} {p : NodePtr}
      {n : Processor} {e : ProcErr} (hcall : s.calls i = some ⟨shardID, ownerID, points, some p⟩)
      (hwrite : Processor.writeShard c shardID points (s.heap p).proc = .error e n) :
      Does s (.write i) ((s.put p n).setCall i none)
  | move {p : NodePtr} {m : NodeMove Point} (hrun : s.Running p) :
      Does s (.move p m) { s with
        heap := Function.update s.heap p ((s.heap p).next c m)
        delivered := s.delivered ++
          ((s.heap p).sent c m).map fun x => ⟨(s.heap p).nodeID, x.1, x.2⟩ }
  | passBegin (hfree : s.holder = .free) :
      Does s .passBegin (s.hold (.pass s.processors.keys .next))
  | looked {k : UInt64} {left : List UInt64} {p : NodePtr} {lm : Time} {n : Processor}
      (hpass : s.holder = .pass left .next) (hthere : s.processors.lookup k = some p)
      (hread : Processor.call Queue.lastModified (s.heap p).proc = .ok lm n) :
      Does s (.lastModified k) ((s.put p n).hold (.pass (left.erase k) (.looked k p lm)))
  | unread {k : UInt64} {left : List UInt64} {p : NodePtr} {e : ProcErr} {n : Processor}
      (hpass : s.holder = .pass left .next) (hthere : s.processors.lookup k = some p)
      (hread : Processor.call Queue.lastModified (s.heap p).proc = .error e n) :
      Does s (.lastModified k) ((s.put p n).hold (.pass (left.erase k) .next))
  | inactive {env : Env Point} {left : List UInt64} {k : UInt64} {p : NodePtr} {lm : Time}
      (hpass : s.holder = .pass left (.looked k p lm))
      (hnode : env.dataNode (s.heap p).nodeID = .ok false) :
      Does s (.active env) (s.hold (.pass left (.inactive k p lm)))
  | active {env : Env Point} {left : List UInt64} {k : UInt64} {p : NodePtr} {lm : Time}
      (hpass : s.holder = .pass left (.looked k p lm)) :
      Does s (.active env) (s.hold (.pass left .next))
  | old {now : Time} {left : List UInt64} {k : UInt64} {p : NodePtr} {lm : Time}
      (hpass : s.holder = .pass left (.inactive k p lm)) (hold : lm + maxAge < now) :
      Does s (.check now) (s.hold (.pass left (.old k p)))
  | young {now : Time} {left : List UInt64} {k : UInt64} {p : NodePtr} {lm : Time}
      (hpass : s.holder = .pass left (.inactive k p lm)) :
      Does s (.check now) (s.hold (.pass left .next))
  | closed {left : List UInt64} {k : UInt64} {p : NodePtr} {n : Processor}
      (hpass : s.holder = .pass left (.old k p)) (hidle : (s.heap p).pc = .idle)
      (hclose : Processor.close (s.heap p).proc = .ok () n) :
      Does s .close ((s.put p n).hold (.pass left (.closed k p)))
  | unclosed {left : List UInt64} {k : UInt64} {p : NodePtr} {e : ProcErr} {n : Processor}
      (hpass : s.holder = .pass left (.old k p)) (hidle : (s.heap p).pc = .idle)
      (hclose : Processor.close (s.heap p).proc = .error e n) :
      Does s .close ((s.put p n).hold (.pass left .next))
  | removed {r : Option OSErr} {left : List UInt64} {k : UInt64} {p : NodePtr} {n : Processor}
      (hpass : s.holder = .pass left (.closed k p))
      (hpurge : Processor.purge r (s.heap p).proc = .ok () n) :
      Does s (.purge r)
        { (s.put p n).hold (.pass left .next) with processors := s.processors.erase k }
  | unremoved {r : Option OSErr} {left : List UInt64} {k : UInt64} {p : NodePtr} {e : ProcErr}
      {n : Processor} (hpass : s.holder = .pass left (.closed k p))
      (hpurge : Processor.purge r (s.heap p).proc = .error e n) :
      Does s (.purge r) ((s.put p n).hold (.pass left .next))
  | passEnd (hpass : s.holder = .pass [] .next) : Does s .passEnd (s.hold .free)
  | closeBegin (hfree : s.holder = .free) :
      Does s .closeBegin (s.hold (.closing s.processors.keys))
  | closedNode {k : UInt64} {left : List UInt64} {p : NodePtr} {n : Processor}
      (hclosing : s.holder = .closing left) (hthere : s.processors.lookup k = some p)
      (hidle : (s.heap p).pc = .idle) (hclose : Processor.close (s.heap p).proc = .ok () n) :
      Does s (.closeNode k) ((s.put p n).hold (.closing (left.erase k)))
  | unclosedNode {k : UInt64} {left : List UInt64} {p : NodePtr} {e : ProcErr} {n : Processor}
      (hclosing : s.holder = .closing left) (hthere : s.processors.lookup k = some p)
      (hidle : (s.heap p).pc = .idle) (hclose : Processor.close (s.heap p).proc = .error e n) :
      Does s (.closeNode k) ((s.put p n).hold .free)
  | closeEnd (hclosing : s.holder = .closing []) : Does s .closeEnd (s.hold .free)

/-- **Every step is one of these.** -/
theorem ServiceOp.does_of_step {s s' : Service Point} {op : ServiceOp Point}
    (h : op.step c maxAge s = some s') : ServiceOp.Does c maxAge s op s' := by
  unfold ServiceOp.step at h
  cases op with
  | opens entries =>
    dsimp only at h
    split at h
    · next hfree =>
      cases h
      exact .opens hfree
    · cases h
  | lookup i shardID ownerID points =>
    dsimp only at h
    split at h
    · next hfree hnew =>
      cases h
      exact .lookup hfree hnew
    · cases h
  | create i a =>
    dsimp only at h
    split at h
    · next hfree hcall =>
      split at h
      · next hthere =>
        cases h
        exact .again hfree hcall hthere
      · next hnone =>
        split at h
        · next hspawn =>
          cases h
          exact .created hfree hcall hnone hspawn
        · cases h
          exact .uncreated hfree
    · cases h
  | write i =>
    dsimp only at h
    split at h
    · next hcall =>
      split at h
      · next hwrite =>
        cases h
        exact .accepted hcall hwrite
      · next hwrite =>
        cases h
        exact .refused hcall hwrite
    · cases h
  | move p m =>
    obtain ⟨hrun, h⟩ := Option.ite_none_right_eq_some.mp h
    cases h
    exact .move hrun
  | passBegin =>
    dsimp only at h
    split at h
    · next hfree =>
      cases h
      exact .passBegin hfree
    · cases h
  | lastModified k =>
    dsimp only at h
    split at h
    · next hpass hthere =>
      obtain ⟨-, h⟩ := Option.ite_none_right_eq_some.mp h
      split at h
      · next hread =>
        cases h
        exact .looked hpass hthere hread
      · next hread =>
        cases h
        exact .unread hpass hthere hread
    · cases h
  | active env =>
    dsimp only at h
    split at h
    · next hpass =>
      split at h
      · next hnode =>
        cases h
        exact .inactive hpass hnode
      · cases h
        exact .active hpass
    · cases h
  | check now =>
    dsimp only at h
    split at h
    · next hpass =>
      split at h
      · next hold =>
        cases h
        exact .old hpass hold
      · cases h
        exact .young hpass
    · cases h
  | close =>
    dsimp only at h
    split at h
    · next hpass =>
      split at h
      · next hidle hclose =>
        cases h
        exact .closed hpass hidle hclose
      · next hidle hclose =>
        cases h
        exact .unclosed hpass hidle hclose
      · cases h
    · cases h
  | purge removed =>
    dsimp only at h
    split at h
    · next hpass =>
      split at h
      · next hpurge =>
        cases h
        exact .removed hpass hpurge
      · next hpurge =>
        cases h
        exact .unremoved hpass hpurge
    · cases h
  | passEnd =>
    dsimp only at h
    split at h
    · next hpass =>
      cases h
      exact .passEnd hpass
    · cases h
  | closeBegin =>
    dsimp only at h
    split at h
    · next hfree =>
      cases h
      exact .closeBegin hfree
    · cases h
  | closeNode k =>
    dsimp only at h
    split at h
    · next hclosing hthere =>
      obtain ⟨-, h⟩ := Option.ite_none_right_eq_some.mp h
      split at h
      · next hidle hclose =>
        cases h
        exact .closedNode hclosing hthere hidle hclose
      · next hidle hclose =>
        cases h
        exact .unclosedNode hclosing hthere hidle hclose
      · cases h
    · cases h
  | closeEnd =>
    dsimp only at h
    split at h
    · next hclosing =>
      cases h
      exact .closeEnd hclosing
    · cases h

end Steps

end InfluxCluster.HH
