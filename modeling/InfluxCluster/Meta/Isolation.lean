/-
  Snapshots and the objects they hold (`meta/store_fsm.go`: `Apply`, `Snapshot`, `Persist`).

  `Snapshot` takes no copy: it keeps the pointer `fsm.data`, and raft calls `Persist` later, while
  more entries are applied.  That is sound as long as the object behind the pointer is not written.
  Most handlers keep to that, and work on a clone that they put in place at the end.  But `Apply`
  itself writes: it copies term and index "to new metadata", and the metadata is NOT new if the
  handler returned an error before the assignment, or has none at all.

  So the value of `fsm.data` is not enough here; there are OBJECTS, with addresses, and the question
  is which of them `Apply` writes to.  A snapshot is isolated exactly if no entry is applied to its
  own object in place (`snapshot_isolated_iff`).
-/
import InfluxCluster.Lib.Lockstep
import InfluxCluster.Meta.LongPoll

namespace InfluxCluster.Meta

open InfluxCluster.Lib

/-! ## A handler that fails has changed nothing -/

section Handlers

variable {X α : Type} (d : Data X)

/-- The program does not write the data. -/
abbrev Reads (x : FsmM X α) : Prop := Triple (· = d) x (fun _ => (· = d)) (fun _ => (· = d))

/-- An error of the program leaves the data as it was. -/
abbrev Undone (x : FsmM X Unit) : Prop := Triple (· = d) x (fun _ _ => True) (fun _ => (· = d))

/-- What only reads before leaves nothing to undo. -/
theorem Undone.of_reads {x : FsmM X α} {f : α → FsmM X Unit} (hx : Reads d x)
    (hf : ∀ a, Undone d (f a)) : Undone d (x >>= f) :=
  Triple.bind hx hf

theorem reads_assertExt (ext : Ext α) : Reads d (assertExt ext) := by
  cases ext with
  | present v => exact fun _ h => h
  | absent | malformed => exact fun _ h => h

theorem reads_cloneData : Reads d cloneData := by
  intro d' hd'
  rcases hd : d'.data with _ | m
  · rw [cloneData_panics hd]
    exact hd'
  · rw [cloneData_ok (by rw [hd]; rfl)]
    exact hd'

/-- The package works on the copy. -/
theorem reads_callEmbedded (op : MetaData X → Except String (MetaData X)) (other : Data X) :
    Reads d (callEmbedded op other) := by
  rw [callEmbedded]
  rcases other.data with _ | m
  · exact fun _ h => h
  · dsimp only
    rcases op m with text | m'
    · exact fun _ h => h
    · exact fun _ h => h

theorem reads_orConflict {x : FsmM X α} (hx : Reads d x) : Reads d (orConflict x) := by
  intro d' hd'
  have h := hx d' hd'
  rw [orConflict]
  rcases hr : x d' with ⟨a, t⟩ | ⟨e, t⟩
  · rw [hr] at h
    exact h
  · rw [hr] at h
    rcases e with e | _
    · cases e <;> exact h
    · exact h

theorem undone_set (other : Data X) : Undone d (set other) := fun _ _ => trivial

theorem undone_throw (e : Stop) : Undone d (throw e) := fun _ h => h

/-- An error is returned before anything is set. -/
theorem undone_setOrReturn (r : Except MetaErr (Data X)) : Undone d (setOrReturn r) := by
  rcases r with e | other
  · exact undone_throw d _
  · exact undone_set d other

theorem undone_applyClone : Undone d applyClone :=
  Undone.of_reads d (reads_cloneData d) fun other => undone_set d other

/-- A handler that hands over to the package. -/
theorem undone_applyEmbedded (ext : Ext α) (op : α → MetaData X → Except String (MetaData X)) :
    Undone d (applyEmbedded ext op) := by
  refine Undone.of_reads d (reads_assertExt d ext) fun v => ?_
  refine Undone.of_reads d (reads_cloneData d) fun other => ?_
  exact Undone.of_reads d (reads_callEmbedded d (op v) other) fun other => undone_set d other

theorem reads_createDefaultPolicy (emb : Embedded X) (config : MetaConfig)
    (v : CreateDatabaseCommand) (other : Data X) : Reads d (createDefaultPolicy emb config v other) := by
  rw [createDefaultPolicy]
  rcases emb.unmarshalRetentionPolicy v.retentionPolicy with _ | rpi
  · dsimp only
    split_ifs
    · exact reads_callEmbedded d _ other
    · exact fun _ h => h
  · exact reads_orConflict d (reads_callEmbedded d _ other)

theorem reads_applyRemovePeerCommand (env : Env) (cmd : Command) :
    Reads d (applyRemovePeerCommand env cmd) := by
  refine Triple.bind (reads_assertExt d cmd.removePeer) fun v => ?_
  cases env.isLeader with
  | true => exact fun _ h => h
  | false => exact fun _ h => h

/-- Who only reads has nothing to undo. -/
theorem Reads.undone {x : FsmM X Unit} (h : Reads d x) : Undone d x := by
  intro d' hd'
  have hx := h d' hd'
  rcases hr : x d' with ⟨a, t⟩ | ⟨e, t⟩
  · trivial
  · rw [hr] at hx
    exact hx

theorem undone_applyDeleteMetaNodeCommand (env : Env) (cmd : Command) :
    Undone d (applyDeleteMetaNodeCommand env cmd) := by
  refine Undone.of_reads d (reads_assertExt d cmd.deleteMetaNode) fun v => ?_
  refine Undone.of_reads d (reads_cloneData d) fun other => ?_
  rcases other.metaNode v.id with _ | node
  · exact undone_throw d _
  · dsimp only
    rcases env.leave node with _ | _ | text
    · exact undone_setOrReturn d _
    · exact undone_setOrReturn d _
    · exact undone_throw d _

theorem undone_applySetMetaNodeCommand (cmd : Command) : Undone d (applySetMetaNodeCommand cmd) := by
  refine Undone.of_reads d (reads_assertExt d cmd.setMetaNode) fun v => ?_
  refine Undone.of_reads d (reads_cloneData d) fun other => ?_
  rcases h : (other.defaultClusterID v.rand).data with _ | m
  · dsimp only
    rw [h]
    exact undone_throw d _
  · dsimp only
    rw [h]
    exact undone_set d _

/-- After its assertion `SetDataCommand` does not fail: the error of decoding is not looked at. -/
theorem undone_applySetDataCommand (P : Protobuf) (emb : Embedded X) (cmd : Command) :
    Undone d (applySetDataCommand P emb cmd) := by
  refine Undone.of_reads d (reads_assertExt d cmd.setData) fun v => ?_
  refine Triple.bind (R := fun _ _ => True) (fun _ _ => trivial) fun _ _ _ => ?_
  rcases Data.zero.unmarshalBinary P emb.toEmbeddedCodec v.data with e | data
  · trivial
  · trivial

variable (P : Protobuf) (emb : Embedded X) (config : MetaConfig) (env : Env) (cmd : Command)

/-- **A command that fails has changed nothing.** -/
theorem undone_dispatch : Undone d (dispatch P emb config env cmd) := by
  rw [dispatch]
  cases cmd.type with
  | removePeer => exact (reads_applyRemovePeerCommand d env cmd).undone
  | createDatabase =>
    refine Undone.of_reads d (reads_assertExt d cmd.createDatabase) fun v => ?_
    refine Undone.of_reads d (reads_cloneData d) fun other => ?_
    refine Undone.of_reads d (reads_callEmbedded d _ other) fun other => ?_
    refine Undone.of_reads d (reads_createDefaultPolicy d emb config v other) fun other => ?_
    exact undone_set d other
  | setData => exact undone_applySetDataCommand d P emb cmd
  | createMetaNode =>
    refine Undone.of_reads d (reads_assertExt d cmd.createMetaNode) fun v => ?_
    exact Undone.of_reads d (reads_cloneData d) fun other => undone_set d _
  | deleteMetaNode => exact undone_applyDeleteMetaNodeCommand d env cmd
  | setMetaNode => exact undone_applySetMetaNodeCommand d cmd
  | deleteDataNode =>
    refine Undone.of_reads d (reads_assertExt d cmd.deleteDataNode) fun v => ?_
    exact Undone.of_reads d (reads_cloneData d) fun other => undone_setOrReturn d _
  | createRetentionPolicy | setDefaultRetentionPolicy | createDataNode => exact undone_applyClone d
  | addShardOwner => exact fun _ _ => trivial
  | dropDatabase | dropRetentionPolicy | updateRetentionPolicy | createShardGroup
  | deleteShardGroup | createContinuousQuery | dropContinuousQuery | createSubscription
  | dropSubscription | createUser | dropUser | updateUser | setPrivilege | setAdminPrivilege =>
    exact undone_applyEmbedded d _ _
  | _ => exact undone_throw d _

/-- The handler of the type has an assignment to `fsm.data` on its way to a nil error. -/
def CommandType.assigns : CommandType → Bool
  | .removePeer | .addShardOwner => false
  | _ => true

/-- Without an assignment the data stays. -/
theorem reads_dispatch (h : cmd.type.assigns = false) : Reads d (dispatch P emb config env cmd) := by
  rw [dispatch]
  cases ht : cmd.type with
  | removePeer => exact reads_applyRemovePeerCommand d env cmd
  | addShardOwner => exact fun _ h => h
  | _ =>
    rw [ht] at h
    cases h

end Handlers

/-! ## Objects -/

/-- The objects of type `Data`, in the order in which they were made; the one that `fsm.data` points
    to; and the snapshots, each with the object it holds and the value that this had then. -/
structure Objects (X : Type) where
  heap : List (Data X)
  data : Nat
  snapshots : List (Nat × Data X)
  data_lt : data < heap.length
  snapshots_lt : ∀ snap ∈ snapshots, snap.1 < heap.length

/-- An entry is applied, a snapshot taken, or one restored. -/
inductive FsmOp
  | apply (env : Env) (l : Log)
  | snapshot
  | restore (b : Bytes)

section Objects

variable {X : Type}

/-- A store with this data. -/
def Objects.new (d : Data X) : Objects X where
  heap := [d]
  data := 0
  snapshots := []
  data_lt := Nat.one_pos
  snapshots_lt _ h := absurd h List.not_mem_nil

/-- `*fsm.data`. -/
def Objects.current (o : Objects X) : Data X := o.heap.get ⟨o.data, o.data_lt⟩

/-- `fsm.data = other`, where `other` is new. -/
def Objects.assign (o : Objects X) (other : Data X) : Objects X where
  heap := o.heap ++ [other]
  data := o.heap.length
  snapshots := o.snapshots
  data_lt := by rw [List.length_append, List.length_singleton]; omega
  snapshots_lt snap h := by
    rw [List.length_append]
    exact Nat.lt_add_right _ (o.snapshots_lt snap h)

/-- `*fsm.data = value`: the object itself is written. -/
def Objects.write (o : Objects X) (value : Data X) : Objects X where
  heap := o.heap.set o.data value
  data := o.data
  snapshots := o.snapshots
  data_lt := by rw [List.length_set]; exact o.data_lt
  snapshots_lt snap h := by rw [List.length_set]; exact o.snapshots_lt snap h

/-- `Snapshot`. -/
def Objects.snapshot (o : Objects X) : Objects X where
  heap := o.heap
  data := o.data
  snapshots := (o.data, o.current) :: o.snapshots
  data_lt := o.data_lt
  snapshots_lt snap h := by
    rcases List.mem_cons.mp h with rfl | h
    · exact o.data_lt
    · exact o.snapshots_lt snap h

/-- "Copy term and index to new metadata", which is the object that `fsm.data` points to now. -/
def Objects.stamp (l : Log) (o : Objects X) : Option (Objects X) := (o.current.stamp l).map o.write

variable (P : Protobuf) (emb : Embedded X) (config : MetaConfig) (C : CommandCodec)

/-- One step.  Entries come in the order of the log; `none` if `Apply` panics. -/
def FsmOp.step (o : Objects X) : FsmOp → Option (Objects X)
  | .apply env l =>
    if o.current.index < l.index then
      match C l.data with
      | .error _ => none
      | .ok cmd =>
        match dispatch P emb config env cmd o.current with
        | .error .panicked _ => none
        -- the handler has returned before its assignment
        | .error (.err _) _ => o.stamp l
        | .ok _ other => (if cmd.type.assigns then o.assign other else o).stamp l
    else none
  | .snapshot => some o.snapshot
  | .restore b =>
    match Meta.restore P emb.toEmbeddedCodec (.ok b) o.current with
    | .error _ _ => some o
    | .ok _ data => some (o.assign data)

/-- What `Persist` encodes: the value that the object of the snapshot has by then. -/
def Objects.persisted (o : Objects X) (snap : Nat × Data X) : Option (Data X) := o.heap[snap.1]?

/-- **Isolation**: whatever is persisted now is what the store had when the snapshot was taken. -/
def Objects.Isolated (o : Objects X) : Prop := ∀ snap ∈ o.snapshots, o.persisted snap = some snap.2

/-- The step does not write the object of a snapshot: an entry is applied while no snapshot holds
    the current object, or its command succeeds and puts a new one in place. -/
def FsmOp.Spares (o : Objects X) : FsmOp → Prop
  | .apply env l =>
    (∀ snap ∈ o.snapshots, snap.1 ≠ o.data) ∨
      ∃ cmd, C l.data = .ok cmd ∧ cmd.type.assigns = true ∧
        Lib.failure (dispatch P emb config env cmd o.current) = none
  | _ => True

/-! ## What is written -/

theorem Objects.getElem?_current (o : Objects X) : o.heap[o.data]? = some o.current := by
  rw [Objects.current, List.get_eq_getElem]
  exact List.getElem?_eq_getElem o.data_lt

/-- Term and index are written in place. -/
theorem Objects.stamp_eq_some {o o' : Objects X} {l : Log} (h : o.stamp l = some o') :
    ∃ value, o.current.stamp l = some value ∧ o' = o.write value := by
  obtain ⟨value, hvalue, rfl⟩ := Option.map_eq_some_iff.mp h
  exact ⟨value, hvalue, rfl⟩

/-- What `Apply` does to the objects: a new one is stamped, or the current one. -/
theorem FsmOp.step_apply {o o' : Objects X} {env : Env} {l : Log}
    (h : FsmOp.step P emb config C o (.apply env l) = some o') :
    o.current.index < l.index ∧ ∃ cmd, C l.data = .ok cmd ∧
      ((∃ other, dispatch P emb config env cmd o.current = .ok () other ∧ cmd.type.assigns = true ∧
          (o.assign other).stamp l = some o') ∨
        ((cmd.type.assigns = false ∨ Lib.failure (dispatch P emb config env cmd o.current) ≠ none) ∧
          outcome (dispatch P emb config env cmd o.current) = some o.current ∧
          o.stamp l = some o')) := by
  rw [FsmOp.step] at h
  split_ifs at h with hlt
  refine ⟨hlt, ?_⟩
  rcases hc : C l.data with text | cmd
  · rw [hc] at h
    cases h
  · rw [hc] at h
    dsimp only at h
    refine ⟨cmd, rfl, ?_⟩
    rcases hr : dispatch P emb config env cmd o.current with ⟨⟨⟩, other⟩ | ⟨e | _, d⟩
    · rw [hr] at h
      dsimp only at h
      rcases ha : cmd.type.assigns with _ | _
      · -- nothing was assigned, so the handler has not written anything
        have hsame := reads_dispatch o.current P emb config env cmd ha o.current rfl
        rw [hr] at hsame
        rw [ha] at h
        exact .inr ⟨.inl rfl, congrArg some hsame, h⟩
      · rw [ha] at h
        exact .inl ⟨other, rfl, rfl, h⟩
    · rw [hr] at h
      have hsame := undone_dispatch o.current P emb config env cmd o.current rfl
      rw [hr] at hsame
      exact .inr ⟨.inr (Option.some_ne_none _), congrArg some hsame, h⟩
    · rw [hr] at h
      cases h

/-- A new object is not that of a snapshot. -/
theorem Objects.Isolated.assign {o : Objects X} (h : o.Isolated) (other : Data X) :
    (o.assign other).Isolated := by
  intro snap hsnap
  have hlt := o.snapshots_lt snap hsnap
  show (o.heap ++ [other])[snap.1]? = some snap.2
  rw [List.getElem?_append_left hlt]
  exact h snap hsnap

/-- Writing the current object leaves every snapshot as it is that does not hold it. -/
theorem Objects.Isolated.write {o : Objects X} (h : o.Isolated) (value : Data X)
    (hfree : ∀ snap ∈ o.snapshots, snap.1 ≠ o.data) : (o.write value).Isolated := by
  intro snap hsnap
  show (o.heap.set o.data value)[snap.1]? = some snap.2
  rw [List.getElem?_set_ne (hfree snap hsnap).symm]
  exact h snap hsnap

/-- An entry that is stamped on the object of a snapshot is seen there, by its index. -/
theorem Objects.not_isolated_write {o : Objects X} (h : o.Isolated) {value : Data X}
    (hne : value.index ≠ o.current.index) {snap : Nat × Data X} (hsnap : snap ∈ o.snapshots)
    (hdata : snap.1 = o.data) : ¬ (o.write value).Isolated := by
  intro hafter
  have hvalue : (o.heap.set o.data value)[snap.1]? = some snap.2 := hafter snap hsnap
  have hbefore : o.heap[snap.1]? = some snap.2 := h snap hsnap
  rw [hdata, List.getElem?_set_self o.data_lt] at hvalue
  rw [hdata, o.getElem?_current] at hbefore
  apply hne
  rw [Option.some.inj hvalue, Option.some.inj hbefore]

/-- **One step keeps snapshots apart from the store exactly if it spares them.** -/
theorem FsmOp.isolated_iff {o o' : Objects X} {op : FsmOp} (h : o.Isolated)
    (hstep : FsmOp.step P emb config C o op = some o') :
    o'.Isolated ↔ op.Spares P emb config C o := by
  cases op with
  | apply env l =>
    obtain ⟨hlt, cmd, hc, hcase⟩ := FsmOp.step_apply P emb config C hstep
    rcases hcase with ⟨other, hr, ha, hs⟩ | ⟨hwhy, -, hs⟩
    · obtain ⟨value, -, rfl⟩ := Objects.stamp_eq_some hs
      refine iff_of_true ?_ (.inr ⟨cmd, hc, ha, by rw [hr]; rfl⟩)
      -- no snapshot can hold the object that was just made
      exact (h.assign other).write value fun snap hsnap => Nat.ne_of_lt (o.snapshots_lt snap hsnap)
    · obtain ⟨value, hvalue, rfl⟩ := Objects.stamp_eq_some hs
      constructor
      · intro hafter
        refine .inl fun snap hsnap hdata => ?_
        refine Objects.not_isolated_write h ?_ hsnap hdata hafter
        rw [index_of_stamp hvalue]
        exact (UInt64.ne_of_lt hlt).symm
      · rintro (hfree | ⟨cmd', hc', ha', hr'⟩)
        · exact h.write value hfree
        · rw [hc] at hc'
          cases hc'
          rcases hwhy with ha | hr
          · rw [ha] at ha'
            cases ha'
          · exact absurd hr' hr
  | snapshot =>
    cases hstep
    refine iff_of_true ?_ trivial
    intro snap hsnap
    rcases List.mem_cons.mp hsnap with rfl | hsnap
    · exact o.getElem?_current
    · exact h snap hsnap
  | restore b =>
    rw [FsmOp.step] at hstep
    refine iff_of_true ?_ trivial
    rcases hr : Meta.restore P emb.toEmbeddedCodec (.ok b) o.current with ⟨⟨⟩, data⟩ | ⟨e, d⟩
    · rw [hr] at hstep
      cases hstep
      exact h.assign data
    · rw [hr] at hstep
      cases hstep
      exact h

/-- **Snapshots are isolated exactly if no entry is applied in place to the object of one**: as long
    as a snapshot holds the current object, the next command has to succeed and to replace it. -/
theorem snapshot_isolated_iff (d : Data X) (ops : List FsmOp) :
    (∀ k o, (ops.take k).foldlM (FsmOp.step P emb config C) (Objects.new d) = some o → o.Isolated)
      ↔ Along (FsmOp.step P emb config C)
          (fun o op => (FsmOp.step P emb config C o op).isSome → op.Spares P emb config C o)
          (Objects.new d) ops := by
  refine foldlM_take_inv_iff (J := fun _ => True) (fun _ _ _ _ _ => trivial) ?_ ops trivial ?_
  · exact fun o op o' _ h hstep => FsmOp.isolated_iff P emb config C h hstep
  · exact fun snap hsnap => absurd hsnap List.not_mem_nil

end Objects

/-- The body of a request that removes the peer `b`, with the identifier 0. -/
def removePeerBody : Bytes := [8, 25, 234, 7, 5, 8, 0, 18, 1, 98]

/-- A new store takes a snapshot, and a peer is removed before that is persisted. -/
def removedMeanwhile : List FsmOp :=
  [.snapshot, .apply alone { term := 1, index := 2, data := removePeerBody }]

/-- **A snapshot that was taken at index 1 is persisted with index 2.** -/
theorem snapshot_not_isolated :
    ((removedMeanwhile.foldlM (FsmOp.step Protobuf.idle Embedded.idle ⟨false⟩ unmarshalCommand)
        (Objects.new (newStoreData ()))).map fun o =>
          o.snapshots.map fun snap => (snap.2.index, (o.persisted snap).map Data.index))
      = some [(1, some 2)] ∧
    ¬ ∀ k o, (removedMeanwhile.take k).foldlM
        (FsmOp.step Protobuf.idle Embedded.idle ⟨false⟩ unmarshalCommand)
        (Objects.new (newStoreData ())) = some o → o.Isolated := by
  refine ⟨by decide +kernel, fun h => ?_⟩
  have hpersisted := h 2 _ rfl _ (List.mem_singleton_self _)
  exact absurd (congrArg (Option.map Data.index) hpersisted) (by decide +kernel)

end InfluxCluster.Meta
