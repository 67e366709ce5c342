/-
  Do replicas that apply the same log hold the same data?

  `Apply` reads three things that the log does not fix: whether the replica is the leader, what
  became of its own attempt to remove a peer, and its clock.  Three handlers read them.
  `RemovePeerCommand` throws the result away.  `DeleteShardGroupCommand` passes the clock on to the
  embedded data.  And `DeleteMetaNodeCommand` does everything: a leader that cannot remove the peer
  KEEPS the node, while its followers, who are not asked, drop it; and where no owner of a shard
  group is left, each replica writes its own time into the group.

  `StepAgrees` says when an entry does the same on two replicas, from the data before it.  Replicas
  are in the same state all along exactly when it holds at every entry (`replicas_agree_iff`), by
  the lockstep rule.
-/
import InfluxCluster.Meta.CommandWire
import InfluxCluster.Meta.StoreFSM
import InfluxCluster.Lib.Lockstep

namespace InfluxCluster.Meta

open InfluxCluster.Lib

/-! ## Deleting a meta node at two times -/

/-- The node is the last owner in some shard group. -/
def MetaData.Orphans {X : Type} (m : MetaData X) (id : UInt64) : Prop :=
  ∃ db ∈ m.databases, ∃ rp ∈ db.retentionPolicies, ∃ sg ∈ rp.shardGroups, sg.Orphaned id

theorem ShardGroupInfo.removeOwner_eq_iff {id : UInt64} {t t' : Time} {sg : ShardGroupInfo} :
    sg.removeOwner id t = sg.removeOwner id t' ↔ (sg.Orphaned id → t = t') := by
  rw [removeOwner, removeOwner, ShardGroupInfo.mk.injEq]
  constructor
  · rintro ⟨-, -, -, ht, -⟩ ho
    rwa [if_pos ho, if_pos ho] at ht
  · intro h
    refine ⟨rfl, rfl, rfl, ?_, rfl⟩
    by_cases ho : sg.Orphaned id
    · rw [if_pos ho, if_pos ho, h ho]
    · rw [if_neg ho, if_neg ho]

theorem DatabaseInfo.removeOwner_eq_iff {id : UInt64} {t t' : Time} {db : DatabaseInfo} :
    db.removeOwner id t = db.removeOwner id t' ↔
      ∀ rp ∈ db.retentionPolicies, ∀ sg ∈ rp.shardGroups, sg.Orphaned id → t = t' := by
  rw [removeOwner, removeOwner, DatabaseInfo.mk.injEq, List.map_inj_left]
  constructor
  · rintro ⟨-, h⟩ rp hrp sg hsg
    have hg := (RetentionPolicyInfo.mk.injEq ..).mp (h rp hrp)
    exact ShardGroupInfo.removeOwner_eq_iff.mp (List.map_inj_left.mp hg.2.2.2.2 sg hsg)
  · intro h
    refine ⟨rfl, fun rp hrp => ?_⟩
    have hg : rp.shardGroups.map (ShardGroupInfo.removeOwner id t)
        = rp.shardGroups.map (ShardGroupInfo.removeOwner id t') := by
      apply List.map_inj_left.mpr
      intro sg hsg
      exact ShardGroupInfo.removeOwner_eq_iff.mpr (h rp hrp sg hsg)
    rw [hg]

/-- The databases come out the same at two times exactly if no group is orphaned, or the times are
    the same. -/
theorem removeOwner_eq_iff {X : Type} {id : UInt64} {t t' : Time} {m : MetaData X} :
    m.databases.map (DatabaseInfo.removeOwner id t)
        = m.databases.map (DatabaseInfo.removeOwner id t') ↔ (m.Orphans id → t = t') := by
  rw [List.map_inj_left]
  constructor
  · rintro h ⟨db, hdb, rp, hrp, sg, hsg, ho⟩
    exact DatabaseInfo.removeOwner_eq_iff.mp (h db hdb) rp hrp sg hsg ho
  · intro h db hdb
    apply DatabaseInfo.removeOwner_eq_iff.mpr
    intro rp hrp sg hsg ho
    exact h ⟨db, hdb, rp, hrp, sg, hsg, ho⟩

/-! ## Outcomes -/

section Outcomes

variable {X α : Type}

/-- What is left after a method of the embedded data: the clone with the result, or what was there
    before. -/
def Data.afterCall (d : Data X) : Except String (MetaData X) → Data X
  | .ok m => { d.cloned with data := some m }
  | .error _ => d

theorem outcome_applyEmbedded {v : α} {m : MetaData X} {d : Data X} (hd : d.data = some m)
    (op : α → MetaData X → Except String (MetaData X)) :
    outcome (applyEmbedded (.present v) op d) = some (d.afterCall (op v m)) := by
  have hs : d.data.isSome := by rw [hd]; rfl
  rw [applyEmbedded, bind_ok (assertExt_present v d), bind_ok (cloneData_ok hs)]
  cases ho : op v m with
  | error text =>
    rw [bind_error (callEmbedded_error d.cloned hd ho d)]
    rfl
  | ok m' =>
    rw [bind_ok (callEmbedded_ok d.cloned hd ho d)]
    rfl

/-- The replica keeps a meta node because removing the peer failed. -/
def Env.blocks (env : Env) (node : NodeInfo) : Bool :=
  match env.leave node with
  | some (.other _) => true
  | _ => false

/-- What is left after `DeleteMetaNodeCommand`. -/
def Data.afterDelete (env : Env) (id : UInt64) (d : Data X) : Data X :=
  match d.metaNode id with
  | none => d
  | some node => if env.blocks node then d else d.cloned.withoutMetaNode id env.now

theorem outcome_deleteMetaNode {cmd : Command} {v : DeleteMetaNodeCommand} {d : Data X} {env : Env}
    (hv : cmd.deleteMetaNode = .present v) (hd : d.data.isSome) :
    outcome (applyDeleteMetaNodeCommand env cmd d) = some (d.afterDelete env v.id) := by
  rw [applyDeleteMetaNodeCommand, hv, bind_ok (assertExt_present v d), bind_ok (cloneData_ok hd),
    Data.afterDelete, show d.cloned.metaNode v.id = d.metaNode v.id from rfl]
  cases hn : d.metaNode v.id with
  | none => rfl
  | some node =>
    have hdel := Data.deleteMetaNode_ok (d := d.cloned) hn env.now
    dsimp only
    rw [hdel, Env.blocks]
    rcases env.leave node with _ | _ | text
    · rfl
    · rfl
    · rfl

end Outcomes

/-! ## One entry on two replicas -/

/-- An entry of the log, with what each of the two replicas sees when it applies it. -/
structure Entry where
  log : Log
  first : Env
  second : Env

section Replicas

variable {X : Type} (P : Protobuf) (emb : Embedded X) (config : MetaConfig) (C : CommandCodec)

/-- The data after `Apply`; `none` if it panicked. -/
def applied (env : Env) (l : Log) (d : Data X) : Option (Data X) :=
  outcome (apply P emb config env C l d)

/-- An entry is dispatched and stamped. -/
theorem applied_eq {l : Log} {cmd : Command} (hc : C l.data = .ok cmd) (env : Env) (d : Data X) :
    applied P emb config C env l d
      = (outcome (dispatch P emb config env cmd d)).bind (Data.stamp l) := by
  rw [applied, apply, hc]
  exact outcome_settle l _

/-- The first replica. -/
def firstReplica (d : Data X) (e : Entry) : Option (Data X) :=
  applied P emb config C e.first e.log d

/-- The second replica. -/
def secondReplica (d : Data X) (e : Entry) : Option (Data X) :=
  applied P emb config C e.second e.log d

/-- Deleting this meta node does the same on both replicas: both keep it, or both drop it, and then
    at one time unless no shard group is orphaned. -/
def DeleteAgrees (d : Data X) (m : MetaData X) (e : Entry) (id : UInt64) : Prop :=
  ∀ node, d.metaNode id = some node →
    e.first.blocks node = e.second.blocks node ∧
      (e.first.blocks node = false → m.Orphans id → e.first.now = e.second.now)

/-- Deleting this shard group does the same at the clocks of both replicas. -/
def ShardGroupAgrees (d : Data X) (m : MetaData X) (e : Entry) (v : DeleteShardGroupCommand) :
    Prop :=
  (d.afterCall (emb.deleteShardGroup v.database v.policy v.shardGroupID e.first.now m)).stamp e.log
    = (d.afterCall
        (emb.deleteShardGroup v.database v.policy v.shardGroupID e.second.now m)).stamp e.log

/-- **The entry does the same on both replicas**, told from the data before it. -/
def StepAgrees (d : Data X) (e : Entry) : Prop :=
  ∀ cmd, C e.log.data = .ok cmd →
    (cmd.type = .deleteMetaNode → ∀ v m, cmd.deleteMetaNode = .present v → d.data = some m →
      DeleteAgrees d m e v.id) ∧
    (cmd.type = .deleteShardGroup → ∀ v m, cmd.deleteShardGroup = .present v → d.data = some m →
      ShardGroupAgrees emb d m e v)

/-- Only three types of commands look at what the replica sees. -/
theorem dispatch_congr {cmd : Command} (h₁ : cmd.type ≠ .removePeer)
    (h₂ : cmd.type ≠ .deleteMetaNode) (h₃ : cmd.type ≠ .deleteShardGroup) (env env' : Env) :
    dispatch P emb config env cmd = dispatch P emb config env' cmd := by
  rw [dispatch, dispatch]
  cases ht : cmd.type with
  | removePeer => exact absurd ht h₁
  | deleteMetaNode => exact absurd ht h₂
  | deleteShardGroup => exact absurd ht h₃
  | _ => rfl

/-- Removing a peer leaves the data alone. -/
theorem removePeer_congr (cmd : Command) (env env' : Env) (d : Data X) :
    outcome (applyRemovePeerCommand env cmd d) = outcome (applyRemovePeerCommand env' cmd d) := by
  have h : ∀ env : Env, outcome (applyRemovePeerCommand env cmd d)
      = outcome ((assertExt cmd.removePeer >>= fun _ => pure ()) d) := by
    intro env
    rw [applyRemovePeerCommand]
    cases env.isLeader with
    | false => rfl
    | true => rfl
  rw [h env, h env']

theorem stamp_metaNodes {l : Log} {d d' : Data X} (h : d.stamp l = some d') :
    d'.metaNodes = d.metaNodes := by
  rw [Data.stamp] at h
  cases hd : d.data with
  | none => rw [hd] at h; cases h
  | some m => rw [hd] at h; cases h; rfl

/-- Fewer meta nodes show after the stamp. -/
theorem stamp_ne_of_length {l : Log} {d d' : Data X} (hd : d.data.isSome)
    (h : d'.metaNodes.length < d.metaNodes.length) : d.stamp l ≠ d'.stamp l := by
  intro heq
  obtain ⟨m, hm⟩ := Option.isSome_iff_exists.mp hd
  have hs : d.stamp l = some { d with data := some { m with term := l.term, index := l.index } } := by
    rw [Data.stamp, hm]
  have hn := stamp_metaNodes (heq.symm.trans hs)
  rw [← hn] at h
  exact lt_irrefl _ h

theorem stamp_withoutMetaNode_eq_iff {l : Log} {d : Data X} {m : MetaData X} {id : UInt64}
    {t t' : Time} (hd : d.data = some m) :
    (d.withoutMetaNode id t).stamp l = (d.withoutMetaNode id t').stamp l
      ↔ (m.Orphans id → t = t') := by
  rw [← removeOwner_eq_iff, Data.stamp, Data.stamp, Data.withoutMetaNode, Data.withoutMetaNode, hd]
  constructor
  · intro h
    injection h with h
    injection h with h
    injection h with h
    injection h
  · intro h
    dsimp only [Option.map_some]
    rw [h]

/-- What `DeleteMetaNodeCommand` leaves is the same exactly as `DeleteAgrees` says. -/
theorem afterDelete_eq_iff {d : Data X} {m : MetaData X} {e : Entry} {id : UInt64}
    (hd : d.data = some m) :
    (d.afterDelete e.first id).stamp e.log = (d.afterDelete e.second id).stamp e.log
      ↔ DeleteAgrees d m e id := by
  rw [Data.afterDelete, Data.afterDelete, DeleteAgrees]
  rcases hn : d.metaNode id with _ | node
  · exact ⟨fun _ node h => absurd h.symm (Option.some_ne_none node), fun _ => rfl⟩
  · have hlt : ∀ t, (d.cloned.withoutMetaNode id t).metaNodes.length < d.metaNodes.length :=
      fun t => Data.withoutMetaNode_lt (d := d.cloned) hn t
    have hs : d.data.isSome := by rw [hd]; rfl
    have hiff : ∀ {Q : NodeInfo → Prop}, (∀ node', some node = some node' → Q node') ↔ Q node :=
      ⟨fun h => h node rfl, fun h node' hnode => by cases hnode; exact h⟩
    rw [hiff]
    dsimp only
    -- a replica that keeps the node and one that drops it hold different registries
    rcases h₁ : e.first.blocks node with _ | _ <;> rcases h₂ : e.second.blocks node with _ | _
    · rw [if_neg Bool.false_ne_true, if_neg Bool.false_ne_true,
        stamp_withoutMetaNode_eq_iff (d := d.cloned) hd]
      exact ⟨fun h => ⟨rfl, fun _ => h⟩, fun h => h.2 rfl⟩
    · rw [if_neg Bool.false_ne_true, if_pos rfl]
      exact iff_of_false (fun h => stamp_ne_of_length hs (hlt _) h.symm)
        (fun h => Bool.false_ne_true h.1)
    · rw [if_pos rfl, if_neg Bool.false_ne_true]
      exact iff_of_false (stamp_ne_of_length hs (hlt _)) (fun h => Bool.false_ne_true h.1.symm)
    · rw [if_pos rfl, if_pos rfl]
      exact iff_of_true rfl ⟨rfl, fun h => absurd h.symm Bool.false_ne_true⟩

/-- Two handlers that assert an extension and clone the data agree if they agree whenever the
    extension is there and so is the data: otherwise both panic. -/
theorem asserting_agree_iff {α : Type} {ext : Ext α} {x y : FsmM X Unit}
    {f g : α → Data X → FsmM X Unit} {Q : α → MetaData X → Prop} {l : Log} {d : Data X}
    (hx : x = assertExt ext >>= fun v => cloneData >>= f v)
    (hy : y = assertExt ext >>= fun v => cloneData >>= g v)
    (h : ∀ v m, ext = .present v → d.data = some m →
      ((outcome (x d)).bind (Data.stamp l) = (outcome (y d)).bind (Data.stamp l) ↔ Q v m)) :
    (outcome (x d)).bind (Data.stamp l) = (outcome (y d)).bind (Data.stamp l)
      ↔ ∀ v m, ext = .present v → d.data = some m → Q v m := by
  cases ext with
  | absent | malformed =>
    rw [hx, hy]
    refine iff_of_true rfl ?_
    intro v m hv
    cases hv
  | present v =>
    rcases hd : d.data with _ | m
    · rw [hx, hy, bind_ok (assertExt_present v d), bind_ok (assertExt_present v d),
        bind_error (cloneData_panics hd), bind_error (cloneData_panics hd)]
      exact iff_of_true rfl (fun v m _ hm => absurd hm.symm (Option.some_ne_none m))
    · rw [h v m rfl hd]
      constructor
      · rintro hq v' m' ⟨⟩ ⟨⟩
        exact hq
      · intro hq
        exact hq v m rfl rfl

/-- `DeleteMetaNodeCommand` on two replicas. -/
theorem deleteMetaNode_agrees_iff (cmd : Command) (d : Data X) (e : Entry) :
    (outcome (applyDeleteMetaNodeCommand e.first cmd d)).bind (Data.stamp e.log)
        = (outcome (applyDeleteMetaNodeCommand e.second cmd d)).bind (Data.stamp e.log)
      ↔ ∀ v m, cmd.deleteMetaNode = .present v → d.data = some m → DeleteAgrees d m e v.id := by
  refine asserting_agree_iff rfl rfl ?_
  intro v m hv hd
  have hs : d.data.isSome := by rw [hd]; rfl
  rw [outcome_deleteMetaNode hv hs, outcome_deleteMetaNode hv hs]
  exact afterDelete_eq_iff hd

/-- `DeleteShardGroupCommand` on two replicas. -/
theorem deleteShardGroup_agrees_iff (cmd : Command) (d : Data X) (e : Entry) :
    (outcome (applyDeleteShardGroupCommand emb e.first cmd d)).bind (Data.stamp e.log)
        = (outcome (applyDeleteShardGroupCommand emb e.second cmd d)).bind (Data.stamp e.log)
      ↔ ∀ v m, cmd.deleteShardGroup = .present v → d.data = some m →
        ShardGroupAgrees emb d m e v := by
  refine asserting_agree_iff rfl rfl ?_
  intro v m hv hd
  rw [applyDeleteShardGroupCommand, applyDeleteShardGroupCommand, hv, outcome_applyEmbedded hd,
    outcome_applyEmbedded hd]
  exact Iff.rfl

/-- One entry does the same on two replicas exactly as `StepAgrees` says. -/
theorem stepAgrees_iff (d : Data X) (e : Entry) :
    firstReplica P emb config C d e = secondReplica P emb config C d e
      ↔ StepAgrees emb C d e := by
  rw [firstReplica, secondReplica, StepAgrees]
  rcases hc : C e.log.data with err | cmd
  · -- both panic
    rw [applied, applied, apply, apply, hc]
    refine iff_of_true rfl ?_
    intro cmd h
    cases h
  · rw [applied_eq P emb config C hc, applied_eq P emb config C hc]
    have hiff : ∀ {Q : Command → Prop},
        (∀ cmd', (Except.ok cmd : Except String Command) = .ok cmd' → Q cmd') ↔ Q cmd :=
      ⟨fun h => h cmd rfl, fun h cmd' hcmd => by cases hcmd; exact h⟩
    rw [hiff]
    by_cases h₁ : cmd.type = .removePeer
    · rw [dispatch, dispatch, h₁]
      dsimp only
      rw [removePeer_congr cmd e.first e.second d]
      exact iff_of_true rfl ⟨fun h => absurd h (by decide), fun h => absurd h (by decide)⟩
    · by_cases h₂ : cmd.type = .deleteMetaNode
      · rw [dispatch, dispatch, h₂]
        dsimp only
        rw [deleteMetaNode_agrees_iff cmd d e]
        exact ⟨fun h => ⟨fun _ => h, fun h => absurd h (by decide)⟩, fun h => h.1 rfl⟩
      · by_cases h₃ : cmd.type = .deleteShardGroup
        · rw [dispatch, dispatch, h₃]
          dsimp only
          rw [deleteShardGroup_agrees_iff emb cmd d e]
          exact ⟨fun h => ⟨fun h => absurd h (by decide), fun _ => h⟩, fun h => h.2 rfl⟩
        · rw [dispatch_congr P emb config h₁ h₂ h₃ e.first e.second]
          exact ⟨fun _ => ⟨fun h => absurd h h₂, fun h => absurd h h₃⟩, fun _ => rfl⟩

/-- **Two replicas that start from the same data hold the same data after every entry of the log
    exactly if every entry meets `StepAgrees`.** -/
theorem replicas_agree_iff (log : List Entry) (d : Data X) :
    (∀ k, (log.take k).foldlM (firstReplica P emb config C) d
        = (log.take k).foldlM (secondReplica P emb config C) d)
      ↔ Along (firstReplica P emb config C) (StepAgrees emb C) d log :=
  foldlM_take_eq_iff (stepAgrees_iff P emb config C) log d

end Replicas

/-! ## Replicas that part -/

/-- A leader whose removal of a peer times out. -/
def stuckLeader : Env where
  isLeader := true
  peers := .ok ["meta0:8089"]
  raftRemovePeer _ := some (.other "timed out enqueuing operation")
  now := 0

/-- A follower with its clock at `now`. -/
def follower (now : Time) : Env where
  isLeader := false
  peers := .ok ["meta0:8089"]
  raftRemovePeer _ := none
  now := now

/-- The entry that deletes the meta node 1. -/
def deleteLog : Log := { term := 1, index := 2, data := [8, 29, 138, 8, 2, 8, 1] }

/-- One meta node, the owner of the one shard of the one shard group there is. -/
def ownedShard : Data Unit :=
  { oneMetaNode with
    data := some { term := 0, index := 1, clusterID := 0,
                   databases := [{ name := "db", retentionPolicies := [{
                     name := "default", replicaN := 1, duration := 0, shardGroupDuration := 3600,
                     shardGroups := [{ id := 1, startTime := 0, endTime := 3600, deletedAt := 0,
                                       shards := [{ id := 1, owners := [{ nodeID := 1 }] }] }] }] }]
                   maxShardGroupID := 1, maxShardID := 1, rest := () } }

/-- The leader cannot remove the peer, and its follower is not asked to. -/
def stuckEntry : Entry :=
  { log := deleteLog, first := stuckLeader, second := follower 0 }

/-- Two followers whose clocks differ. -/
def skewedEntry : Entry :=
  { log := deleteLog, first := follower 1, second := follower 2 }

/-- **One entry, and the replicas part**: a leader that cannot remove the peer keeps the node that
    its follower drops; and two followers write different times into the group without an owner. -/
theorem delete_parts_replicas :
    firstReplica Protobuf.idle Embedded.idle ⟨false⟩ unmarshalCommand oneMetaNode stuckEntry
      ≠ secondReplica Protobuf.idle Embedded.idle ⟨false⟩ unmarshalCommand oneMetaNode stuckEntry ∧
    firstReplica Protobuf.idle Embedded.idle ⟨false⟩ unmarshalCommand ownedShard skewedEntry
      ≠ secondReplica Protobuf.idle Embedded.idle ⟨false⟩ unmarshalCommand ownedShard skewedEntry :=
  ⟨by decide +kernel, by decide +kernel⟩

end InfluxCluster.Meta
