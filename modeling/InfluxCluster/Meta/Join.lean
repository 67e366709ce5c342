/-
  How a meta server joins (`meta/store.go`, `join`; `meta/raft_state.go`, `addPeer`).

  TWO REGISTRIES are changed one after the other: raft's peers, and the meta nodes of the replicated
  data.  Nothing is undone when the second change fails, and it can fail without `join` being told:
  the handler of `CreateMetaNodeCommand` does not look at the error of `Data.CreateMetaNode`.
  `join` only finds out when it looks for the node afterwards.

  What raft does is given from outside (`RaftOutcome`): peers that cannot be read, a peer that is
  added or not, a command that is applied or not, and a failure that is reported although the change
  was made.  For every such outcome `join_all_or_nothing_iff` says whether the call is all or
  nothing.
-/
import InfluxCluster.Meta.Poison
import InfluxCluster.Meta.Registry

namespace InfluxCluster.Meta

open InfluxCluster.Lib

/-- What becomes of `raft.AddPeer`.  An error may be reported although the peer was added. -/
inductive AddPeerOutcome
  | added
  | failed (text : String) (effective : Bool)

/-- What becomes of a command: it is applied; it is applied and an error reported; or it fails. -/
inductive CommandOutcome
  | applied (l : Log)
  | lost (l : Log) (text : String)
  | failed (text : String)

/-- What raft does during a call of `join`. -/
structure RaftOutcome where
  /-- `s.raftState` is there. -/
  isOpen : Bool
  /-- The error of `peerStore.Peers()`. -/
  peersErr : Option String
  addPeer : AddPeerOutcome
  command : CommandOutcome

/-- The peers of raft, and the data of the store. -/
structure Members (X : Type) where
  peers : List String
  data : Data X

section Join

variable {X : Type}

/-- The peer is added. -/
def Members.add (m : Members X) (addr : String) : Members X := { m with peers := m.peers ++ [addr] }

/-- A change of the data only. -/
def onData (x : FsmM X Unit) : EStateM Stop (Members X) Unit := fun m =>
  match x m.data with
  | .ok a d => .ok a { m with data := d }
  | .error e d => .error e { m with data := d }

variable (r : RaftOutcome) (rand : UInt64)

/-- `raftState.addPeer`. -/
def addPeer (addr : String) : EStateM Stop (Members X) Unit := fun m =>
  match r.peersErr with
  | some text => .error (.err (.raft text)) m
  | none =>
    if addr ∈ m.peers then .ok () m
    else
      match r.addPeer with
      | .added => .ok () (m.add addr)
      | .failed text effective => .error (.err (.raft text)) (if effective then m.add addr else m)

/-- The command of `createMetaNode`. -/
def createMetaNodeCommand (addr raftAddr : String) : Command :=
  { type := .createMetaNode
    createMetaNode := .present { httpAddr := addr, tcpAddr := raftAddr, rand := rand } }

/-- The entry of this command is applied. -/
def createMetaNodeEntry (addr raftAddr : String) (l : Log) : FsmM X Unit := fun d =>
  settle l (applyCreateMetaNodeCommand (createMetaNodeCommand rand addr raftAddr) d)

/-- `store.createMetaNode`. -/
def createMetaNode (addr raftAddr : String) : EStateM Stop (Members X) Unit :=
  match r.command with
  | .applied l => onData (createMetaNodeEntry rand addr raftAddr l)
  | .lost l text => do
    onData (createMetaNodeEntry rand addr raftAddr l)
    throw (.err (.raft text))
  | .failed text => throw (.err (.raft text))

/-- The search at the end of `join`. -/
def Data.joined (d : Data X) (n : NodeInfo) : Option NodeInfo :=
  d.metaNodes.find? fun node => node.tcpHost = n.tcpHost && node.host = n.host

/-- What `join` returns in the end. -/
def returnJoined (n : NodeInfo) : EStateM Stop (Members X) NodeInfo := fun m =>
  match m.data.joined n with
  | some node => .ok node m
  | none => .error (.err .nodeNotFound) m

/-- `store.join`. -/
def join (n : NodeInfo) : EStateM Stop (Members X) NodeInfo :=
  if r.isOpen then do
    addPeer r n.tcpHost
    createMetaNode r rand n.host n.tcpHost
    returnJoined n
  else throw (.err (.raft "store not open"))

/-! ## All or nothing -/

/-- The meta nodes at the address. -/
def Data.metaNodesAt (d : Data X) (tcpHost : String) : List NodeInfo :=
  d.metaNodes.filter fun node => node.tcpHost = tcpHost

/-- **All or nothing**: after an error the peers and the meta nodes are as before, and otherwise the
    node is a peer, and one meta node has its address. -/
def AllOrNothing (before : Members X) (n : NodeInfo) :
    EStateM.Result Stop (Members X) NodeInfo → Prop
  | .ok _ after => n.tcpHost ∈ after.peers ∧ (after.data.metaNodesAt n.tcpHost).length = 1
  | .error .panicked _ => True
  | .error (.err _) after =>
    (∀ p, p ∈ after.peers ↔ p ∈ before.peers) ∧ after.data.metaNodes = before.data.metaNodes

/-- When the command leaves no half of a node behind: the node was a peer before if the command
    fails, is not carried out, or `CreateMetaNode` rejects it without a node being there; no meta
    node had the address if it is carried out. -/
def CommandOutcome.Suits (m : Members X) (n : NodeInfo) : CommandOutcome → Prop
  | .failed _ => n.tcpHost ∈ m.peers
  | .lost _ _ => HasData m.data → n.tcpHost ∈ m.peers ∧ ¬ m.data.Free n.tcpHost
  | .applied _ => HasData m.data →
    (m.data.Free n.tcpHost ∧ m.data.metaNodesAt n.tcpHost = []) ∨
      (¬ m.data.Free n.tcpHost ∧
        ((m.data.joined n = none ∧ n.tcpHost ∈ m.peers) ∨
          (m.data.joined n ≠ none ∧ (m.data.metaNodesAt n.tcpHost).length = 1)))

/-- The outcome leaves no half of a node behind: raft does not add the peer and report an error, and
    the command suits if it gets that far. -/
def RaftOutcome.Suits (m : Members X) (n : NodeInfo) : Prop :=
  r.isOpen = true → r.peersErr = none →
    (∀ text effective, n.tcpHost ∉ m.peers → r.addPeer = .failed text effective → effective = false) ∧
      (n.tcpHost ∈ m.peers ∨ r.addPeer = .added → r.command.Suits m n)

/-! ## The command -/

/-- What the entry does to the meta nodes: another one, unless there is a data node. -/
theorem createMetaNodeEntry_ok {d : Data X} (hd : HasData d) (addr raftAddr : String) (l : Log) :
    ∃ d', createMetaNodeEntry rand addr raftAddr l d = .ok () d' ∧
      (d.Free raftAddr → d'.metaNodes = (d.addMetaNode addr raftAddr).metaNodes) ∧
      (¬ d.Free raftAddr → d'.metaNodes = d.metaNodes) := by
  have hother : HasData (d.cloned.ignoringErr (d.cloned.createMetaNode addr raftAddr)) :=
    hasData_ignoringErr hd fun _ h => Data.data_createMetaNode h
  have hset := hasData_defaultClusterID hother rand
  obtain ⟨d', hstamp⟩ := Option.isSome_iff_exists.mp ((stamp_isSome_iff l _).mpr hset)
  have hnodes : d'.metaNodes
      = (d.cloned.ignoringErr (d.cloned.createMetaNode addr raftAddr)).metaNodes := by
    rw [Data.stamp] at hstamp
    split at hstamp
    · cases hstamp
    · cases hstamp
      rfl
  refine ⟨d', ?_, fun hfree => ?_, fun htaken => ?_⟩
  · have hext : (createMetaNodeCommand rand addr raftAddr).createMetaNode
        = .present { httpAddr := addr, tcpAddr := raftAddr, rand := rand } := rfl
    have hhandler : applyCreateMetaNodeCommand (createMetaNodeCommand rand addr raftAddr) d
        = .ok () ((d.cloned.ignoringErr (d.cloned.createMetaNode addr raftAddr)).defaultClusterID
            rand) := by
      rw [applyCreateMetaNodeCommand, hext, bind_ok (assertExt_present _ d),
        bind_ok (cloneData_ok hd)]
      rfl
    rw [createMetaNodeEntry, hhandler, settle, hstamp]
  · have hcreate : d.cloned.createMetaNode addr raftAddr
        = .ok (d.cloned.addMetaNode addr raftAddr) := createMetaNode_ok_iff.mpr ⟨hfree, rfl⟩
    rw [hnodes, hcreate]
    rfl
  · rw [hnodes]
    rcases hcreate : d.cloned.createMetaNode addr raftAddr with e | other
    · rfl
    · exact absurd (createMetaNode_ok_iff.mp hcreate).1 htaken

theorem createMetaNodeEntry_panics {d : Data X} (hd : ¬ HasData d) (addr raftAddr : String)
    (l : Log) : ∃ d', createMetaNodeEntry rand addr raftAddr l d = .error .panicked d' := by
  have hnone : d.data = none := Option.not_isSome_iff_eq_none.mp hd
  have hext : (createMetaNodeCommand rand addr raftAddr).createMetaNode
      = .present { httpAddr := addr, tcpAddr := raftAddr, rand := rand } := rfl
  refine ⟨d, ?_⟩
  rw [createMetaNodeEntry, applyCreateMetaNodeCommand, hext, bind_ok (assertExt_present _ d),
    bind_error (cloneData_panics hnone)]
  rfl

theorem onData_ok {x : FsmM X Unit} {m : Members X} {d : Data X} (h : x m.data = .ok () d) :
    onData x m = .ok () { m with data := d } := by
  rw [onData, h]

theorem onData_error {x : FsmM X Unit} {m : Members X} {e : Stop} {d : Data X}
    (h : x m.data = .error e d) : onData x m = .error e { m with data := d } := by
  rw [onData, h]

theorem metaNodesAt_congr {d d' : Data X} (h : d'.metaNodes = d.metaNodes) (tcpHost : String) :
    d'.metaNodesAt tcpHost = d.metaNodesAt tcpHost := by
  rw [Data.metaNodesAt, h, Data.metaNodesAt]

/-- A new node is one more at its address. -/
theorem length_metaNodesAt_add {d d' : Data X} {host tcpHost : String}
    (h : d'.metaNodes = (d.addMetaNode host tcpHost).metaNodes) :
    (d'.metaNodesAt tcpHost).length = (d.metaNodesAt tcpHost).length + 1 := by
  have hperm : d'.metaNodes.Perm (d.metaNodes ++ [d.newNode host tcpHost]) := by
    rw [h]
    exact List.perm_insertionSort _ _
  have hnew : [d.newNode host tcpHost].filter (fun node => node.tcpHost = tcpHost)
      = [d.newNode host tcpHost] := List.filter_eq_self.mpr fun node hnode => by
    rw [List.mem_singleton.mp hnode]
    exact decide_eq_true rfl
  rw [Data.metaNodesAt, (hperm.filter _).length_eq, List.filter_append, List.length_append, hnew]
  rfl

/-- The new node is found. -/
theorem joined_add {d d' : Data X} {n : NodeInfo}
    (h : d'.metaNodes = (d.addMetaNode n.host n.tcpHost).metaNodes) :
    ∃ node, d'.joined n = some node := by
  refine Option.isSome_iff_exists.mp (List.find?_isSome.mpr ⟨d.newNode n.host n.tcpHost, ?_, ?_⟩)
  · rw [h]
    exact mem_sortNodeInfos.mpr (List.mem_append_right _ (List.mem_singleton_self _))
  · rw [Bool.and_eq_true]
    exact ⟨decide_eq_true rfl, decide_eq_true rfl⟩

/-! ## The call -/

section Peer

variable {r rand} {m m' : Members X} {n : NodeInfo}

/-- The peers are as before exactly if the node was one. -/
theorem same_peers_iff (hpeers : ∀ p, p ∈ m'.peers ↔ p ∈ m.peers ∨ p = n.tcpHost) :
    (∀ p, p ∈ m'.peers ↔ p ∈ m.peers) ↔ n.tcpHost ∈ m.peers := by
  constructor
  · exact fun h => (h _).mp ((hpeers _).mpr (.inr rfl))
  · intro h p
    rw [hpeers p]
    exact ⟨fun hp => hp.elim id fun heq => heq ▸ h, .inl⟩

/-- What the end of the call makes of the data that the command has left. -/
theorem returnJoined_iff (hpeers : ∀ p, p ∈ m'.peers ↔ p ∈ m.peers ∨ p = n.tcpHost) :
    AllOrNothing m n (returnJoined n m')
      ↔ (m'.data.joined n ≠ none ∧ (m'.data.metaNodesAt n.tcpHost).length = 1) ∨
        (m'.data.joined n = none ∧ n.tcpHost ∈ m.peers ∧ m'.data.metaNodes = m.data.metaNodes) := by
  rw [returnJoined]
  rcases hjoined : m'.data.joined n with _ | node
  · dsimp only
    rw [AllOrNothing, same_peers_iff hpeers]
    exact ⟨fun h => .inr ⟨rfl, h⟩, fun h => h.elim (fun h => absurd rfl h.1) fun h => h.2⟩
  · dsimp only
    rw [AllOrNothing]
    constructor
    · exact fun h => .inl ⟨Option.some_ne_none _, h.2⟩
    · rintro (h | h)
      · exact ⟨(hpeers _).mpr (.inr rfl), h.2⟩
      · exact absurd h.1 (Option.some_ne_none _)

/-- The command was applied. -/
theorem applied_suits_iff (hdata : m'.data = m.data)
    (hpeers : ∀ p, p ∈ m'.peers ↔ p ∈ m.peers ∨ p = n.tcpHost) (l : Log) :
    AllOrNothing m n
        ((onData (createMetaNodeEntry rand n.host n.tcpHost l) >>= fun _ => returnJoined n) m')
      ↔ (CommandOutcome.applied l).Suits m n := by
  rw [CommandOutcome.Suits, ← hdata]
  by_cases hd : HasData m'.data
  · obtain ⟨d', hentry, hfree, htaken⟩ := createMetaNodeEntry_ok rand hd n.host n.tcpHost l
    have hafter : ∀ p, p ∈ ({ m' with data := d' } : Members X).peers ↔ p ∈ m.peers ∨ p = n.tcpHost :=
      hpeers
    rw [bind_ok (onData_ok hentry), returnJoined_iff hafter, ← hdata]
    dsimp only
    rw [imp_iff_right hd]
    by_cases hf : m'.data.Free n.tcpHost
    · -- the node is there now, and is the only one if none was there before
      obtain ⟨node, hnode⟩ := joined_add (hfree hf)
      rw [hnode, length_metaNodesAt_add (hfree hf), Nat.add_eq_right, List.length_eq_zero_iff]
      exact ⟨fun h => h.elim (fun h => .inl ⟨hf, h.2⟩) fun h => absurd h.1 (Option.some_ne_none _),
        fun h => h.elim (fun h => .inl ⟨Option.some_ne_none _, h.2⟩) fun h => absurd hf h.1⟩
    · -- the command was rejected without a word
      have hsame := htaken hf
      rw [metaNodesAt_congr hsame, show d'.joined n = m'.data.joined n by
        rw [Data.joined, hsame, Data.joined]]
      constructor
      · rintro (h | ⟨hnone, hpeer, -⟩)
        · exact .inr ⟨hf, .inr h⟩
        · exact .inr ⟨hf, .inl ⟨hnone, hpeer⟩⟩
      · rintro (⟨h, -⟩ | ⟨-, ⟨hnone, hpeer⟩ | h⟩)
        · exact absurd h hf
        · exact .inr ⟨hnone, hpeer, hsame⟩
        · exact .inl h
  · obtain ⟨d', hentry⟩ := createMetaNodeEntry_panics rand hd n.host n.tcpHost l
    rw [bind_error (onData_error hentry)]
    exact iff_of_true trivial fun h => absurd h hd

/-- The command was applied, and an error reported. -/
theorem lost_suits_iff (hdata : m'.data = m.data)
    (hpeers : ∀ p, p ∈ m'.peers ↔ p ∈ m.peers ∨ p = n.tcpHost) (l : Log) (text : String) :
    AllOrNothing m n
        (((do onData (createMetaNodeEntry rand n.host n.tcpHost l)
              throw (.err (.raft text)) : EStateM Stop (Members X) Unit) >>=
          fun _ => returnJoined n) m')
      ↔ (CommandOutcome.lost l text).Suits m n := by
  rw [CommandOutcome.Suits, ← hdata]
  by_cases hd : HasData m'.data
  · obtain ⟨d', hentry, hfree, htaken⟩ := createMetaNodeEntry_ok rand hd n.host n.tcpHost l
    have hthrow : (throw (.err (.raft text)) : EStateM Stop (Members X) Unit) { m' with data := d' }
        = .error (.err (.raft text)) { m' with data := d' } := rfl
    have hlost : (do onData (createMetaNodeEntry rand n.host n.tcpHost l)
                     throw (.err (.raft text)) : EStateM Stop (Members X) Unit) m'
        = .error (.err (.raft text)) { m' with data := d' } := by
      rw [bind_ok (onData_ok hentry), hthrow]
    rw [bind_error hlost, AllOrNothing, same_peers_iff hpeers, imp_iff_right hd, ← hdata]
    dsimp only
    refine and_congr_right fun _ => ⟨fun hnodes hf => ?_, htaken⟩
    -- a node that was added is one more than before
    have hlength := length_metaNodesAt_add (hfree hf)
    rw [metaNodesAt_congr hnodes] at hlength
    omega
  · obtain ⟨d', hentry⟩ := createMetaNodeEntry_panics rand hd n.host n.tcpHost l
    have hlost : (do onData (createMetaNodeEntry rand n.host n.tcpHost l)
                     throw (.err (.raft text)) : EStateM Stop (Members X) Unit) m'
        = .error .panicked { m' with data := d' } := bind_error (onData_error hentry)
    rw [bind_error hlost]
    exact iff_of_true trivial fun h => absurd h hd

/-- Once the node is a peer, it is up to the command. -/
theorem command_suits_iff (hdata : m'.data = m.data)
    (hpeers : ∀ p, p ∈ m'.peers ↔ p ∈ m.peers ∨ p = n.tcpHost) :
    AllOrNothing m n ((createMetaNode r rand n.host n.tcpHost >>= fun _ => returnJoined n) m')
      ↔ r.command.Suits m n := by
  rw [createMetaNode]
  rcases r.command with l | ⟨l, text⟩ | text
  · exact applied_suits_iff hdata hpeers l
  · exact lost_suits_iff hdata hpeers l text
  · have hthrow : (throw (.err (.raft text)) : EStateM Stop (Members X) Unit) m'
        = .error (.err (.raft text)) m' := rfl
    dsimp only
    rw [bind_error hthrow, AllOrNothing, same_peers_iff hpeers, hdata]
    exact and_iff_left rfl

end Peer

theorem Members.mem_add (m : Members X) (addr p : String) :
    p ∈ (m.add addr).peers ↔ p ∈ m.peers ∨ p = addr := by
  rw [Members.add, List.mem_append, List.mem_singleton]

/-- **Joining is all or nothing exactly if the outcome leaves no half of a node behind.** -/
theorem join_all_or_nothing_iff (m : Members X) (n : NodeInfo) :
    AllOrNothing m n (join r rand n m) ↔ r.Suits m n := by
  rw [RaftOutcome.Suits, join]
  rcases hopen : r.isOpen with _ | _
  · exact iff_of_true ⟨fun _ => Iff.rfl, rfl⟩ fun h => Bool.noConfusion h
  · rw [if_pos rfl, imp_iff_right rfl]
    rcases herr : r.peersErr with _ | text
    · rw [imp_iff_right rfl]
      by_cases hmem : n.tcpHost ∈ m.peers
      · have hadd : addPeer r n.tcpHost m = .ok () m := by
          rw [addPeer, herr]
          exact if_pos hmem
        have hpeers : ∀ p, p ∈ m.peers ↔ p ∈ m.peers ∨ p = n.tcpHost :=
          fun p => ⟨.inl, fun h => h.elim id fun heq => heq ▸ hmem⟩
        rw [bind_ok hadd, command_suits_iff rfl hpeers]
        exact ⟨fun h => ⟨fun _ _ hnot => absurd hmem hnot, fun _ => h⟩, fun h => h.2 (.inl hmem)⟩
      · rcases hout : r.addPeer with _ | ⟨text, effective⟩
        · have hadd : addPeer r n.tcpHost m = .ok () (m.add n.tcpHost) := by
            rw [addPeer, herr, hout]
            exact if_neg hmem
          have hdata : (m.add n.tcpHost).data = m.data := rfl
          rw [bind_ok hadd, command_suits_iff hdata (m.mem_add n.tcpHost)]
          refine ⟨fun h => ⟨fun _ _ _ hfailed => ?_, fun _ => h⟩, fun h => h.2 (.inr rfl)⟩
          cases hfailed
        · have hadd : addPeer r n.tcpHost m
              = .error (.err (.raft text)) (if effective then m.add n.tcpHost else m) := by
            rw [addPeer, herr, hout]
            exact if_neg hmem
          rw [bind_error hadd, AllOrNothing]
          cases effective with
          | false =>
            refine iff_of_true ⟨fun _ => Iff.rfl, rfl⟩ ⟨fun _ _ _ hfailed => ?_, ?_⟩
            · cases hfailed
              rfl
            · rintro (h | h)
              · exact absurd h hmem
              · cases h
          | true =>
            refine iff_of_false (fun h => ?_) fun h => ?_
            · exact hmem ((h.1 _).mp ((m.mem_add _ _).mpr (.inr rfl)))
            · exact Bool.noConfusion (h.1 text true hmem rfl)
    · have hadd : addPeer r n.tcpHost m = .error (.err (.raft text)) m := by
        rw [addPeer, herr]
      rw [bind_error hadd]
      exact iff_of_true ⟨fun _ => Iff.rfl, rfl⟩ fun h => absurd h (Option.some_ne_none _)

end Join

/-- A store whose only data node has the address `b:8089`. -/
def oneDataNode : Members Unit :=
  { peers := ["a:8089"]
    data := { newStoreData () with
      dataNodes := [{ id := 2, host := "b:8086", tcpHost := "b:8089", pendingShardOwners := [] }] } }

/-- The node that joins. -/
def joiningNode : NodeInfo :=
  { id := 0, host := "b:8091", tcpHost := "b:8089", pendingShardOwners := [] }

/-- Raft does what it is asked for. -/
def willingRaft : RaftOutcome where
  isOpen := true
  peersErr := none
  addPeer := .added
  command := .applied { term := 1, index := 2, data := [] }

/-- **A node that is rejected stays a peer**: `join` returns "node not found", and no meta node is
    listed for it. -/
theorem rejected_node_stays_peer :
    Lib.failure (join willingRaft 7 joiningNode oneDataNode) = some (.err .nodeNotFound) ∧
    (final (join willingRaft 7 joiningNode oneDataNode)).peers = ["a:8089", "b:8089"] ∧
    (final (join willingRaft 7 joiningNode oneDataNode)).data.metaNodes = [] ∧
    ¬ AllOrNothing oneDataNode joiningNode (join willingRaft 7 joiningNode oneDataNode) := by
  refine ⟨by decide +kernel, by decide +kernel, by decide +kernel, fun h => ?_⟩
  have hpeer : "b:8089" ∈ oneDataNode.peers := (h.1 "b:8089").mp (by decide +kernel)
  exact absurd hpeer (by decide +kernel)

end InfluxCluster.Meta
