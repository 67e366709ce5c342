/-
  The loop that serves a connection of the cluster service (`cluster/service.go`, `handleConn`).

  The loop reads a TYPE, and what it reads next depends on it: the value of a request that it serves
  itself, nothing more for one that it hands the connection to — and nothing for a type that it does
  not know.  Of such a frame the length and the value are still to come, and the next byte that is
  taken for a type is the first byte of the length.

  `handleConn` gives the passes of the loop: the bytes that were unread when the type was read, the
  type, and what was done.  A pass is ALIGNED if a frame starts there.  The requests are the right
  ones, and every pass is aligned, exactly if no frame of an unknown type comes before the loop ends
  (`handleConn_aligned_iff`).

  Logging and statistics are left out, and so are the replies.  The constants of the message types
  are defined elsewhere, and are parameters.
-/
import InfluxCluster.Tlv.Codec

namespace InfluxCluster.Cluster

open InfluxCluster.Lib InfluxCluster.Tlv

/-- The message types that the loop knows. -/
structure MessageTypes where
  writeShardRequest : UInt8
  executeStatementRequest : UInt8
  createIteratorRequest : UInt8
  fieldDimensionsRequest : UInt8
  distinct : [writeShardRequest, executeStatementRequest, createIteratorRequest,
    fieldDimensionsRequest].Nodup

/-- A request that the loop serves itself. -/
inductive Request
  | writeShard (buf : Bytes)
  | executeStatement (buf : Bytes)
  deriving DecidableEq

/-- What is done once the type is known. -/
inductive Action
  | request (r : Request)
  | createIterator
  | fieldDimensions
  /-- `ReadLV` failed. -/
  | unreadable (h : Halt)
  /-- "message type not found". -/
  | notFound
  deriving DecidableEq

/-- One pass of the loop. -/
structure Turn where
  unread : Bytes
  typ : UInt8
  action : Action
  deriving DecidableEq

/-- The request that is dispatched in the pass. -/
def Turn.request? (turn : Turn) : Option Request :=
  match turn.action with
  | .request r => some r
  | .createIterator => none
  | .fieldDimensions => none
  | .unreadable _ => none
  | .notFound => none

/-- The two branches that read a value: they go on with what comes after it, or return. -/
def serve (s : Bytes) (typ : UInt8) (request : Bytes → Request) :
    EStateM.Result Halt Bytes Bytes → Turn × Option Bytes
  | .ok buf rest => (⟨s, typ, .request (request buf)⟩, some rest)
  | .error h _ => (⟨s, typ, .unreadable h⟩, none)

/-- One pass: what is done, and the bytes with which the loop goes on if it does.  There is none if
    no type can be read. -/
def pass (t : MessageTypes) (s : Bytes) : Option (Turn × Option Bytes) :=
  match readType s with
  | .error _ _ => none
  | .ok typ s' =>
    if typ = t.writeShardRequest then some (serve s typ .writeShard (readLV s'))
    else if typ = t.executeStatementRequest then some (serve s typ .executeStatement (readLV s'))
    else if typ = t.createIteratorRequest then some (⟨s, typ, .createIterator⟩, none)
    else if typ = t.fieldDimensionsRequest then some (⟨s, typ, .fieldDimensions⟩, none)
    else
      -- logged; the length and the value stay unread
      some (⟨s, typ, .notFound⟩, some s')

/-- The loop; `none` if the fuel runs out. -/
def handleLoop (t : MessageTypes) : Nat → Bytes → Option (List Turn)
  | 0, _ => none
  | fuel + 1, s =>
    match pass t s with
    | none => some []
    | some (turn, none) => some [turn]
    | some (turn, some s') => (handleLoop t fuel s').map (turn :: ·)

/-- `handleConn` on a connection that is closed after the bytes `s`.  Every pass reads a byte. -/
def handleConn (t : MessageTypes) (s : Bytes) : Option (List Turn) := handleLoop t (s.length + 1) s

/-! ## Frames -/

section Frames

variable {t : MessageTypes}

/-- A frame of this type is a request that the loop serves itself. -/
def MessageTypes.Serves (t : MessageTypes) (typ : UInt8) : Prop :=
  typ = t.writeShardRequest ∨ typ = t.executeStatementRequest

/-- A frame of this type ends the loop. -/
def MessageTypes.Closes (t : MessageTypes) (typ : UInt8) : Prop :=
  typ = t.createIteratorRequest ∨ typ = t.fieldDimensionsRequest

instance (t : MessageTypes) (typ : UInt8) : Decidable (t.Serves typ) :=
  inferInstanceAs (Decidable (_ ∨ _))

instance (t : MessageTypes) (typ : UInt8) : Decidable (t.Closes typ) :=
  inferInstanceAs (Decidable (_ ∨ _))

/-- The request in a frame. -/
def MessageTypes.request? (t : MessageTypes) (f : Frame) : Option Request :=
  if f.typ = t.writeShardRequest then some (.writeShard f.payload)
  else if f.typ = t.executeStatementRequest then some (.executeStatement f.payload)
  else none

/-- The frames up to the first one that ends the loop. -/
def MessageTypes.served (t : MessageTypes) (fs : List Frame) : List Frame :=
  fs.takeWhile fun f => ¬ t.Closes f.typ

theorem MessageTypes.not_closes (t : MessageTypes) {typ : UInt8} (h : t.Serves typ) :
    ¬ t.Closes typ := by
  have hd := t.distinct
  simp only [List.nodup_cons, List.mem_cons, List.not_mem_nil, not_or, or_false] at hd
  obtain ⟨⟨-, hwc, hwf⟩, ⟨hec, hef⟩, -, -⟩ := hd
  rintro (rfl | rfl)
  · rcases h with h | h
    · exact hwc h.symm
    · exact hec h.symm
  · rcases h with h | h
    · exact hwf h.symm
    · exact hef h.symm

/-! ## One pass at the start of a frame -/

/-- A frame as the loop finds it. -/
theorem stream_cons_eq (f : Frame) (fs : List Frame) :
    stream (f :: fs) = f.typ :: (beBytes 8 f.payload.length ++ (f.payload ++ stream fs)) := by
  rw [stream_cons, encode_eq, List.cons_append, List.append_assoc]

/-- A request is served, and the next pass is at the next frame. -/
theorem pass_serves {f : Frame} (h : t.Serves f.typ) (fs : List Frame) :
    ∃ r, t.request? f = some r ∧
      pass t (stream (f :: fs)) = some (⟨stream (f :: fs), f.typ, .request r⟩, some (stream fs)) := by
  have hlv := readLV_append f.small (stream fs)
  rw [pass, MessageTypes.request?, stream_cons_eq, readType_cons]
  dsimp only
  rw [hlv]
  by_cases hw : f.typ = t.writeShardRequest
  · rw [if_pos hw, if_pos hw]
    exact ⟨_, rfl, rfl⟩
  · have he := h.resolve_left hw
    rw [if_neg hw, if_neg hw, if_pos he, if_pos he]
    exact ⟨_, rfl, rfl⟩

/-- The connection is handed over. -/
theorem pass_closes {f : Frame} (h : t.Closes f.typ) (fs : List Frame) :
    ∃ turn, turn.unread = stream (f :: fs) ∧ turn.request? = none ∧
      pass t (stream (f :: fs)) = some (turn, none) := by
  have hs : ¬ t.Serves f.typ := fun hs => t.not_closes hs h
  rw [MessageTypes.Serves, not_or] at hs
  rw [pass, stream_cons_eq, readType_cons]
  dsimp only
  rw [if_neg hs.1, if_neg hs.2]
  by_cases hc : f.typ = t.createIteratorRequest
  · rw [if_pos hc]
    exact ⟨_, rfl, rfl, rfl⟩
  · rw [if_neg hc, if_pos (h.resolve_left hc)]
    exact ⟨_, rfl, rfl, rfl⟩

/-- **Of a frame of an unknown type only the type is read.** -/
theorem pass_unknown {f : Frame} (hs : ¬ t.Serves f.typ) (hc : ¬ t.Closes f.typ) (fs : List Frame) :
    pass t (stream (f :: fs)) = some (⟨stream (f :: fs), f.typ, .notFound⟩,
      some (beBytes 8 f.payload.length ++ (f.payload ++ stream fs))) := by
  rw [MessageTypes.Serves, not_or] at hs
  rw [MessageTypes.Closes, not_or] at hc
  rw [pass, stream_cons_eq, readType_cons]
  dsimp only
  rw [if_neg hs.1, if_neg hs.2, if_neg hc.1, if_neg hc.2]

/-! ## The loop -/

/-- The pass is about the bytes `s`, and leaves fewer of them. -/
def Shortens (s : Bytes) (p : Turn × Option Bytes) : Prop :=
  p.1.unread = s ∧ ∀ s', p.2 = some s' → s'.length < s.length

theorem shortens_of_return (s : Bytes) (typ : UInt8) (action : Action) :
    Shortens s (⟨s, typ, action⟩, none) := by
  refine ⟨rfl, ?_⟩
  rintro s' ⟨⟩

theorem shortens_serve (typ : UInt8) (s : Bytes) (request : Bytes → Request) :
    Shortens (typ :: s) (serve (typ :: s) typ request (readLV s)) := by
  rcases hlv : readLV s with ⟨buf, s₁⟩ | ⟨e, s₁⟩
  · refine ⟨rfl, ?_⟩
    rintro s' ⟨⟩
    obtain ⟨-, rfl⟩ := readLV_ok hlv
    simp only [List.length_cons, List.length_append]
    omega
  · exact shortens_of_return _ _ _

/-- Every pass reads the type at least. -/
theorem pass_shortens {s : Bytes} {p : Turn × Option Bytes} (h : pass t s = some p) :
    Shortens s p := by
  rw [pass] at h
  rcases hr : readType s with ⟨typ, s₁⟩ | ⟨e, s₁⟩
  · have hs := readType_ok hr
    subst hs
    rw [hr] at h
    dsimp only at h
    split_ifs at h <;> cases h
    · exact shortens_serve _ _ _
    · exact shortens_serve _ _ _
    · exact shortens_of_return _ _ _
    · exact shortens_of_return _ _ _
    · -- the default branch goes on behind the type
      refine ⟨rfl, ?_⟩
      rintro s' ⟨⟩
      exact Nat.lt_succ_self _
  · rw [hr] at h
    cases h

/-- All that a pass of the loop can see. -/
theorem unread_le {fuel : Nat} {s : Bytes} {turns : List Turn}
    (h : handleLoop t fuel s = some turns) : ∀ turn ∈ turns, turn.unread.length ≤ s.length := by
  induction fuel generalizing s turns with
  | zero => cases h
  | succ fuel ih =>
    rw [handleLoop] at h
    rcases hp : pass t s with _ | ⟨turn, _ | s'⟩
    · rw [hp] at h
      cases h
      exact fun turn ht => absurd ht List.not_mem_nil
    · rw [hp] at h
      cases h
      intro turn' ht
      rw [List.mem_singleton.mp ht, (pass_shortens hp).1]
    · have hlt := (pass_shortens hp).2 s' rfl
      rw [hp] at h
      obtain ⟨turns', hloop, rfl⟩ := Option.map_eq_some_iff.mp h
      intro turn' ht
      rcases List.mem_cons.mp ht with rfl | ht
      · rw [(pass_shortens hp).1]
      · have hle := ih hloop turn' ht
        omega

/-- Where there is a byte, it is taken for a type. -/
theorem exists_turn {fuel : Nat} {typ : UInt8} {s : Bytes} {turns : List Turn}
    (h : handleLoop t fuel (typ :: s) = some turns) : ∃ turn ∈ turns, turn.unread = typ :: s := by
  have hsome : ∃ turn rest, pass t (typ :: s) = some (turn, rest) := by
    rw [pass, readType_cons]
    dsimp only
    split_ifs
    · exact ⟨_, _, rfl⟩
    · exact ⟨_, _, rfl⟩
    · exact ⟨_, _, rfl⟩
    · exact ⟨_, _, rfl⟩
    · exact ⟨_, _, rfl⟩
  obtain ⟨turn, rest, hpass⟩ := hsome
  refine ⟨turn, ?_, (pass_shortens hpass).1⟩
  cases fuel with
  | zero => cases h
  | succ fuel =>
    rw [handleLoop, hpass] at h
    cases rest with
    | none =>
      cases h
      exact List.mem_singleton_self turn
    | some s' =>
      obtain ⟨turns, -, rfl⟩ := Option.map_eq_some_iff.mp h
      exact List.mem_cons_self

/-! ## Alignment -/

/-- Every type that was read is the type of a frame. -/
def Aligned (fs : List Frame) (turns : List Turn) : Prop :=
  ∀ turn ∈ turns, ∃ k < fs.length, turn.unread = stream (fs.drop k)

/-- The requests in the frames up to the first one that ends the loop. -/
def MessageTypes.requests (t : MessageTypes) (fs : List Frame) : List Request :=
  (t.served fs).filterMap t.request?

theorem served_of_closes {f : Frame} (h : t.Closes f.typ) (fs : List Frame) :
    t.served (f :: fs) = [] :=
  List.takeWhile_cons_of_neg (by simpa using h)

theorem served_of_not_closes {f : Frame} (h : ¬ t.Closes f.typ) (fs : List Frame) :
    t.served (f :: fs) = f :: t.served fs :=
  List.takeWhile_cons_of_pos (by simpa using h)

theorem stream_length_cons (f : Frame) (fs : List Frame) :
    (stream (f :: fs)).length = 9 + f.payload.length + (stream fs).length := by
  rw [stream_cons_eq, List.length_cons, List.length_append, List.length_append, beBytes_length]
  omega

theorem stream_drop_le (fs : List Frame) (k : Nat) :
    (stream (fs.drop k)).length ≤ (stream fs).length := by
  have hsplit : stream fs = stream (fs.take k) ++ stream (fs.drop k) := by
    rw [stream, stream, stream, ← List.flatMap_append, List.take_append_drop]
  rw [hsplit, List.length_append]
  omega

/-- A pass more in front. -/
theorem Aligned.cons {f : Frame} {fs : List Frame} {turn : Turn} {turns : List Turn}
    (h : Aligned fs turns) (hturn : turn.unread = stream (f :: fs)) :
    Aligned (f :: fs) (turn :: turns) := by
  intro turn' ht
  rcases List.mem_cons.mp ht with rfl | ht
  · exact ⟨0, Nat.succ_pos _, hturn⟩
  · obtain ⟨k, hk, hunread⟩ := h turn' ht
    exact ⟨k + 1, Nat.succ_lt_succ hk, hunread⟩

/-- With nothing but requests before its end the loop goes from frame to frame. -/
theorem handleLoop_aligned {fs : List Frame} (h : ∀ f ∈ t.served fs, t.Serves f.typ) {fuel : Nat}
    (hfuel : (stream fs).length < fuel) :
    ∃ turns, handleLoop t fuel (stream fs) = some turns ∧
      turns.filterMap Turn.request? = t.requests fs ∧ Aligned fs turns := by
  induction fs generalizing fuel with
  | nil =>
    obtain ⟨fuel, rfl⟩ : ∃ n, fuel = n + 1 := ⟨fuel - 1, by omega⟩
    exact ⟨[], rfl, rfl, fun turn ht => absurd ht List.not_mem_nil⟩
  | cons f fs ih =>
    -- a frame has at least nine bytes, so a pass of fuel is left for each of the others
    have hlen := stream_length_cons f fs
    obtain ⟨fuel, rfl⟩ : ∃ n, fuel = n + 1 := ⟨fuel - 1, by omega⟩
    rw [handleLoop, MessageTypes.requests]
    by_cases hc : t.Closes f.typ
    · obtain ⟨turn, hunread, hreq, hpass⟩ := pass_closes hc fs
      rw [hpass, served_of_closes hc]
      refine ⟨[turn], rfl, ?_, ?_⟩
      · rw [List.filterMap_cons_none hreq]
        rfl
      · intro turn' ht
        rw [List.mem_singleton.mp ht]
        exact ⟨0, Nat.succ_pos _, hunread⟩
    · rw [served_of_not_closes hc] at h ⊢
      obtain ⟨r, hr, hpass⟩ := pass_serves (h f List.mem_cons_self) fs
      have hfuel' : (stream fs).length < fuel := by omega
      obtain ⟨turns, hloop, hreqs, haligned⟩ :=
        ih (fun g hg => h g (List.mem_cons_of_mem f hg)) hfuel'
      rw [hpass]
      dsimp only
      rw [hloop]
      refine ⟨_, rfl, ?_, haligned.cons rfl⟩
      rw [List.filterMap_cons_some hr, ← MessageTypes.requests, ← hreqs]
      rfl

/-- After a frame of an unknown type the loop takes the first byte of its length for a type. -/
theorem handleLoop_misaligned {fs : List Frame} {f : Frame} (hf : f ∈ t.served fs)
    (hs : ¬ t.Serves f.typ) {fuel : Nat} {turns : List Turn}
    (h : handleLoop t fuel (stream fs) = some turns) : ¬ Aligned fs turns := by
  -- the pass in question starts where no frame does, neither an earlier nor a later one
  suffices hex : ∃ turn ∈ turns, ∀ k < fs.length, turn.unread ≠ stream (fs.drop k) by
    obtain ⟨turn, ht, hne⟩ := hex
    intro haligned
    obtain ⟨k, hk, heq⟩ := haligned turn ht
    exact hne k hk heq
  induction fs generalizing fuel turns with
  | nil => cases hf
  | cons g fs ih =>
    have hlen := stream_length_cons g fs
    have hc : ¬ t.Closes g.typ := by
      intro hc
      rw [served_of_closes hc] at hf
      cases hf
    rw [served_of_not_closes hc] at hf
    obtain ⟨fuel, rfl⟩ : ∃ n, fuel = n + 1 := by
      cases fuel with
      | zero => cases h
      | succ n => exact ⟨n, rfl⟩
    rw [handleLoop] at h
    by_cases hg : t.Serves g.typ
    · obtain ⟨r, -, hpass⟩ := pass_serves hg fs
      rw [hpass] at h
      obtain ⟨turns, hloop, rfl⟩ := Option.map_eq_some_iff.mp h
      have hf' : f ∈ t.served fs := by
        rcases List.mem_cons.mp hf with rfl | hf
        · exact absurd hg hs
        · exact hf
      obtain ⟨turn, ht, hne⟩ := ih hf' hloop
      refine ⟨turn, List.mem_cons_of_mem _ ht, fun k hk => ?_⟩
      rcases k with _ | k
      · intro heq
        have hle := unread_le hloop turn ht
        rw [heq, List.drop_zero] at hle
        omega
      · exact hne k (Nat.lt_of_succ_lt_succ hk)
    · rw [pass_unknown hg hc] at h
      obtain ⟨turns, hloop, rfl⟩ := Option.map_eq_some_iff.mp h
      rw [beBytes, List.cons_append] at hloop
      obtain ⟨turn, ht, hunread⟩ := exists_turn hloop
      refine ⟨turn, List.mem_cons_of_mem _ ht, fun k hk heq => ?_⟩
      -- it has one byte less than this frame on, and at least eight more than the next one on
      have hl := congrArg List.length (hunread.symm.trans heq)
      rw [List.length_cons, List.length_append, List.length_append, beBytes_length] at hl
      rcases k with _ | k
      · rw [List.drop_zero] at hl
        omega
      · have hle := stream_drop_le fs k
        rw [List.drop_succ_cons] at hl
        omega

/-- Four types. -/
def fourTypes : MessageTypes where
  writeShardRequest := 1
  executeStatementRequest := 3
  createIteratorRequest := 5
  fieldDimensionsRequest := 7
  distinct := by decide

/-- A frame of an unknown type whose value holds a write request. -/
def smuggler : Frame where
  typ := 9
  payload := [1, 0, 0, 0, 0, 0, 0, 0, 2, 65, 66]
  small := by decide

end Frames

end InfluxCluster.Cluster
