/-
  Long polling: how a client learns that the metadata has changed (`meta/store.go`, `afterIndex`;
  `meta/handler.go`, `serveSnapshot`; `meta/client.go`, `pollForUpdates`).

  CHANNELS are only ever closed.  `afterIndex` gives one that is closed already, or the current
  `dataChanged`; `Apply` closes that and makes a new one.  So the channels of a store are numbered,
  and those before the current one are the closed ones.

  `Restore` raises the index as well, and it leaves the channel alone.  A client that waits then is
  not woken: every channel is closed in time exactly if nobody waits for less than the snapshot
  holds whenever one is restored (`no_missed_wakeup_iff`).

  The second half puts the client in front of any number of servers, each at its own index.  What a
  server has to say is a snapshot, and NO snapshot can be written (`marshalBinary_fails`): the
  answer is an error status, the client goes on to the next server, and its copy stays what it is
  (`cache_index_never_decreases`).
-/
import InfluxCluster.Lib.Lockstep
import InfluxCluster.Meta.Client
import InfluxCluster.Meta.Poison

namespace InfluxCluster.Meta

open InfluxCluster.Lib

/-! ## The store -/

/-- A channel: one that was closed when it was made, or the `dataChanged` of a generation. -/
inductive Chan
  | closed
  | dataChanged (generation : Nat)
  deriving DecidableEq

/-- `type store struct`, as far as clients wait for it. -/
structure Store (X : Type) where
  data : Data X
  generation : Nat

/-- What happens to a store: an entry of the log is applied, or a snapshot restored. -/
inductive StoreOp
  | apply (env : Env) (l : Log)
  | restore (b : Bytes)

section Store

variable {X : Type}

/-- `newStore`. -/
def newStore (rest : X) : Store X := { data := newStoreData rest, generation := 0 }

/-- The channel is closed. -/
def Store.IsClosed (s : Store X) : Chan → Prop
  | .closed => True
  | .dataChanged generation => generation < s.generation

instance (s : Store X) : (ch : Chan) → Decidable (s.IsClosed ch)
  | .closed => inferInstanceAs (Decidable True)
  | .dataChanged generation => inferInstanceAs (Decidable (generation < s.generation))

/-- `afterIndex`. -/
def Store.afterIndex (s : Store X) (index : UInt64) : Chan :=
  if index < s.data.index then .closed else .dataChanged s.generation

variable (P : Protobuf) (emb : Embedded X) (config : MetaConfig) (C : CommandCodec)

/-- One step of a store.  Entries come in the order of the log, and a snapshot is restored when it
    is ahead; `none` also if `Apply` panics or the snapshot cannot be read. -/
def StoreOp.step (s : Store X) : StoreOp → Option (Store X)
  | .apply env l =>
    if s.data.index < l.index then
      (outcome (Meta.apply P emb config env C l s.data)).map fun data =>
        { data := data, generation := s.generation + 1 }
    else none
  | .restore b =>
    match Meta.restore P emb.toEmbeddedCodec (.ok b) s.data with
    | .error _ _ => none
    -- dataChanged is neither closed nor replaced
    | .ok _ data => if s.data.index < data.index then some { s with data := data } else none

theorem index_of_stamp {d d' : Data X} {l : Log} (h : d.stamp l = some d') : d'.index = l.index := by
  rw [Data.stamp] at h
  split at h
  · cases h
  · cases h
    rfl

/-- The data has the index of the last entry. -/
theorem index_of_apply {env : Env} {l : Log} {d d' : Data X}
    (h : outcome (Meta.apply P emb config env C l d) = some d') : d'.index = l.index := by
  rw [Meta.apply] at h
  rcases hc : C l.data with err | cmd
  · rw [hc] at h
    cases h
  · rw [hc] at h
    dsimp only at h
    rw [outcome_settle] at h
    obtain ⟨d₁, -, hstamp⟩ := Option.bind_eq_some_iff.mp h
    exact index_of_stamp hstamp

theorem StoreOp.step_apply {s s' : Store X} {env : Env} {l : Log}
    (h : StoreOp.step P emb config C s (.apply env l) = some s') :
    s.data.index < s'.data.index ∧ s'.generation = s.generation + 1 := by
  rw [StoreOp.step] at h
  split at h
  · next hlt =>
    obtain ⟨data, hdata, rfl⟩ := Option.map_eq_some_iff.mp h
    refine ⟨?_, rfl⟩
    show s.data.index < data.index
    rw [index_of_apply P emb config C hdata]
    exact hlt
  · cases h

theorem StoreOp.step_restore {s s' : Store X} {b : Bytes}
    (h : StoreOp.step P emb config C s (.restore b) = some s') :
    s.data.index < s'.data.index ∧ s'.generation = s.generation ∧
      Data.zero.unmarshalBinary P emb.toEmbeddedCodec b = .ok s'.data := by
  rw [StoreOp.step, Meta.restore] at h
  rcases hu : Data.zero.unmarshalBinary P emb.toEmbeddedCodec b with e | data
  · rw [hu] at h
    cases h
  · rw [hu] at h
    dsimp only at h
    split at h
    · next hlt =>
      cases h
      exact ⟨hlt, rfl, rfl⟩
    · cases h

/-- Every step takes the index forward. -/
theorem StoreOp.index_lt {s s' : Store X} {op : StoreOp}
    (h : StoreOp.step P emb config C s op = some s') : s.data.index < s'.data.index := by
  cases op with
  | apply env l => exact (StoreOp.step_apply P emb config C h).1
  | restore b => exact (StoreOp.step_restore P emb config C h).1

/-! ## Waiting at a store -/

/-- A store, with the calls of `afterIndex` so far and the channels that they returned. -/
structure Waiting (X : Type) where
  store : Store X
  waiters : List (UInt64 × Chan)

/-- A call of `afterIndex`, or a step of the store. -/
inductive WaitOp
  | afterIndex (index : UInt64)
  | store (op : StoreOp)

/-- One of these. -/
def WaitOp.step (w : Waiting X) : WaitOp → Option (Waiting X)
  | .afterIndex index => some { w with waiters := (index, w.store.afterIndex index) :: w.waiters }
  | .store op => (op.step P emb config C w.store).map fun store => { w with store := store }

/-- **No wake-up is missed**: whoever waits for less than the data holds has a channel that is
    closed. -/
def NoneMissed (w : Waiting X) : Prop :=
  ∀ waiter ∈ w.waiters, waiter.1 < w.store.data.index → w.store.IsClosed waiter.2

/-- The channels that were returned are of generations so far. -/
def Numbered (w : Waiting X) : Prop :=
  ∀ waiter ∈ w.waiters, ∀ generation, waiter.2 = .dataChanged generation →
    generation ≤ w.store.generation

/-- The step wakes whom it has to.  Only `Restore` may not: whoever waits for less than the snapshot
    holds must have been woken before. -/
def WaitOp.Wakes (w : Waiting X) : WaitOp → Prop
  | .afterIndex _ => True
  | .store (.apply _ _) => True
  | .store (.restore b) =>
    ∀ data, Data.zero.unmarshalBinary P emb.toEmbeddedCodec b = .ok data →
      ∀ waiter ∈ w.waiters, waiter.1 < data.index → w.store.IsClosed waiter.2

/-- Generations only go up, so a channel keeps its number. -/
theorem Numbered.step {w w' : Waiting X} (h : Numbered w) {op : WaitOp}
    (hstep : op.step P emb config C w = some w') : Numbered w' := by
  cases op with
  | afterIndex index =>
    cases hstep
    intro waiter hw generation hch
    rcases List.mem_cons.mp hw with rfl | hw
    · dsimp only at hch ⊢
      rw [Store.afterIndex] at hch
      split at hch
      · cases hch
      · cases hch
        exact Nat.le_refl _
    · exact h waiter hw generation hch
  | store op =>
    obtain ⟨s', hs', rfl⟩ := Option.map_eq_some_iff.mp hstep
    have hle : w.store.generation ≤ s'.generation := by
      cases op with
      | apply env l =>
        have hg := (StoreOp.step_apply P emb config C hs').2
        omega
      | restore b =>
        have hg := (StoreOp.step_restore P emb config C hs').2.1
        omega
    intro waiter hw generation hch
    exact Nat.le_trans (h waiter hw generation hch) hle

/-- `Apply` closes every channel that was returned. -/
theorem Numbered.closed {w : Waiting X} (h : Numbered w) {s' : Store X}
    (hs' : s'.generation = w.store.generation + 1) {waiter : UInt64 × Chan}
    (hw : waiter ∈ w.waiters) : s'.IsClosed waiter.2 := by
  rcases hch : waiter.2 with _ | generation
  · trivial
  · have hle := h waiter hw generation hch
    show generation < s'.generation
    omega

/-- **A step misses no wake-up exactly if it wakes whom it has to.** -/
theorem noneMissed_step_iff {w w' : Waiting X} (hn : Numbered w) (h : NoneMissed w) {op : WaitOp}
    (hstep : op.step P emb config C w = some w') : NoneMissed w' ↔ op.Wakes P emb w := by
  cases op with
  | afterIndex index =>
    refine iff_of_true ?_ trivial
    cases hstep
    intro waiter hw hlt
    rcases List.mem_cons.mp hw with rfl | hw
    · dsimp only at hlt ⊢
      rw [Store.afterIndex, if_pos hlt]
      trivial
    · exact h waiter hw hlt
  | store op =>
    obtain ⟨s', hs', rfl⟩ := Option.map_eq_some_iff.mp hstep
    cases op with
    | apply env l =>
      -- the channels so far are all of generations before the new one
      refine iff_of_true (fun waiter hw _ => ?_) trivial
      exact hn.closed (StoreOp.step_apply P emb config C hs').2 hw
    | restore b =>
      -- the generation is what it was, so the same channels are closed
      obtain ⟨-, hgen, hdata⟩ := StoreOp.step_restore P emb config C hs'
      have hclosed : ∀ ch, s'.IsClosed ch ↔ w.store.IsClosed ch := by
        intro ch
        cases ch with
        | closed => exact Iff.rfl
        | dataChanged generation =>
          show generation < s'.generation ↔ generation < w.store.generation
          rw [hgen]
      constructor
      · intro hnone data hd waiter hw hlt
        rw [hdata] at hd
        cases hd
        exact (hclosed _).mp (hnone waiter hw hlt)
      · intro hwakes waiter hw hlt
        exact (hclosed _).mpr (hwakes s'.data hdata waiter hw hlt)

/-- A new store, where nobody waits. -/
def Waiting.new (rest : X) : Waiting X := { store := newStore rest, waiters := [] }

/-- **No wake-up is ever missed exactly if no snapshot is restored over the head of a client that
    waits for less.** -/
theorem no_missed_wakeup_iff (rest : X) (ops : List WaitOp) :
    (∀ k w, (ops.take k).foldlM (WaitOp.step P emb config C) (Waiting.new rest) = some w →
        NoneMissed w)
      ↔ Along (WaitOp.step P emb config C)
          (fun w op => (op.step P emb config C w).isSome → op.Wakes P emb w)
          (Waiting.new rest) ops := by
  refine foldlM_take_inv_iff (J := Numbered) ?_ ?_ ops ?_ ?_
  · intro w op w' hn hstep
    exact hn.step P emb config C hstep
  · intro w op w' hn h hstep
    exact noneMissed_step_iff P emb config C hn h hstep
  · exact fun waiter hw => absurd hw List.not_mem_nil
  · exact fun waiter hw => absurd hw List.not_mem_nil

end Store

/-- A snapshot at index five: the embedded data, and the largest identifier of a node. -/
def snapshotFive : Bytes := [10, 12, 8, 1, 16, 5, 24, 0, 56, 0, 64, 0, 72, 0, 16, 0]

/-- The embedded package, on data without databases: the numbers of its message. -/
def readsNumbers : Embedded Unit :=
  { Embedded.idle with
    unmarshalBinary := fun b =>
      let fs := (Protobuf.parse b).getD []
      { term := (uint64Field 1 fs).getD 0
        index := (uint64Field 2 fs).getD 0
        clusterID := (uint64Field 3 fs).getD 0
        databases := []
        maxShardGroupID := (uint64Field 8 fs).getD 0
        maxShardID := (uint64Field 9 fs).getD 0
        rest := () } }

/-- **A client waits at index one, a snapshot at index five is restored, and the client still
    waits.** -/
theorem restore_misses_wakeup :
    ∃ w, [WaitOp.afterIndex 1, .store (.restore snapshotFive)].foldlM
        (WaitOp.step clusterProto readsNumbers ⟨false⟩ unmarshalCommand)
        (Waiting.new ()) = some w ∧
      w.waiters = [(1, .dataChanged 0)] ∧ w.store.data.index = 5 ∧ ¬ NoneMissed w := by
  have hrun : ∃ w ∈ [WaitOp.afterIndex 1, .store (.restore snapshotFive)].foldlM
      (WaitOp.step clusterProto readsNumbers ⟨false⟩ unmarshalCommand) (Waiting.new ()),
      w.waiters = [(1, .dataChanged 0)] ∧ w.store.data.index = 5 ∧
        1 < w.store.data.index ∧ ¬ w.store.IsClosed (.dataChanged 0) := by decide +kernel
  obtain ⟨w, hw, hwaiters, hindex, hlt, hopen⟩ := hrun
  refine ⟨w, hw, hwaiters, hindex, fun h => hopen (h (1, .dataChanged 0) ?_ hlt)⟩
  rw [hwaiters]
  exact List.mem_cons_self

/-! ## A client and its servers -/

/-- How a snapshot gets to the client: the body of the answer, if the status is OK, and what the
    client reads from it. -/
structure Transport (X : Type) where
  answer : Data X → Option Bytes
  read : Bytes → Option (Data X)

/-- Where the request of the client is. -/
inductive Poll (n : Nat)
  | idle
  | sent (server : Fin n) (index : UInt64)
  | waiting (server : Fin n) (index : UInt64) (ch : Chan)
  | answered (body : Option Bytes)

/-- A client and the servers that it asks. -/
structure Net (X : Type) (n : Nat) where
  servers : Fin n → Store X
  client : Client X
  poll : Poll n

/-- What happens next: a step of a server; the client asks a server, the request gets there, it is
    answered or the connection fails, and the client has the answer. -/
inductive NetOp (n : Nat)
  | server (k : Fin n) (op : StoreOp)
  | request (k : Fin n)
  | arrive
  | respond
  | fail
  | receive

section Net

variable {X : Type} {n : Nat}

/-- `serveSnapshot` writes a clone of the data by `MarshalBinary`, and `getSnapshot` reads it by
    `UnmarshalBinary`. -/
def transport (P : Protobuf) (emb : EmbeddedCodec X) : Transport X where
  answer data := data.clone.bind fun ss => (ss.marshalBinary P emb).toOption
  read b := (Data.zero.unmarshalBinary P emb b).toOption

/-- `pollForUpdates` with an answer: what could be read is put in place, and otherwise the next
    server is asked. -/
def Client.receive (T : Transport X) (c : Client X) (body : Option Bytes) : Client X :=
  match body.bind T.read with
  | some data => c.install data
  | none => c

variable (P : Protobuf) (emb : Embedded X) (config : MetaConfig) (C : CommandCodec)
  (T : Transport X)

/-- One of these. -/
def NetOp.step (net : Net X n) : NetOp n → Option (Net X n)
  | .server k op =>
    (op.step P emb config C (net.servers k)).map fun s =>
      { net with servers := Function.update net.servers k s }
  | .request k =>
    match net.poll with
    | .idle => some { net with poll := .sent k net.client.cacheData.index }
    | _ => none
  | .arrive =>
    match net.poll with
    | .sent k index =>
      some { net with poll := .waiting k index ((net.servers k).afterIndex index) }
    | _ => none
  | .respond =>
    match net.poll with
    | .waiting k _ ch =>
      if (net.servers k).IsClosed ch then
        some { net with poll := .answered (T.answer (net.servers k).data) }
      else none
    | _ => none
  | .fail =>
    match net.poll with
    | .sent _ _ => some { net with poll := .answered none }
    | .waiting _ _ _ => some { net with poll := .answered none }
    | _ => none
  | .receive =>
    match net.poll with
    | .answered body => some { net with client := net.client.receive T body, poll := .idle }
    | _ => none

/-- All that a step can do. -/
inductive Net.Moves (net : Net X n) : NetOp n → Net X n → Prop
  | server {k : Fin n} {op : StoreOp} {s : Store X}
      (h : (net.servers k).data.index < s.data.index) :
      Moves net (.server k op) { net with servers := Function.update net.servers k s }
  | request {k : Fin n} (h : net.poll = .idle) :
      Moves net (.request k) { net with poll := .sent k net.client.cacheData.index }
  | arrive {k : Fin n} {index : UInt64} (h : net.poll = .sent k index) :
      Moves net .arrive
        { net with poll := .waiting k index ((net.servers k).afterIndex index) }
  | respond {k : Fin n} {index : UInt64} {ch : Chan} (h : net.poll = .waiting k index ch) :
      Moves net .respond { net with poll := .answered (T.answer (net.servers k).data) }
  | fail : Moves net .fail { net with poll := .answered none }
  | receive {body : Option Bytes} (h : net.poll = .answered body) :
      Moves net .receive { net with client := net.client.receive T body, poll := .idle }

theorem NetOp.moves {net net' : Net X n} {op : NetOp n}
    (h : op.step P emb config C T net = some net') : net.Moves T op net' := by
  cases op with
  | server k op =>
    obtain ⟨s, hs, rfl⟩ := Option.map_eq_some_iff.mp h
    exact .server (StoreOp.index_lt P emb config C hs)
  | request k =>
    rcases hp : net.poll with _ | ⟨k', index⟩ | ⟨k', index, ch⟩ | body <;> rw [step, hp] at h <;>
      cases h
    exact .request hp
  | arrive =>
    rcases hp : net.poll with _ | ⟨k', index⟩ | ⟨k', index, ch⟩ | body <;> rw [step, hp] at h <;>
      cases h
    exact .arrive hp
  | respond =>
    rcases hp : net.poll with _ | ⟨k', index⟩ | ⟨k', index, ch⟩ | body <;> rw [step, hp] at h
    · cases h
    · cases h
    · dsimp only at h
      split at h
      · cases h
        exact .respond hp
      · cases h
    · cases h
  | fail =>
    rcases hp : net.poll with _ | ⟨k', index⟩ | ⟨k', index, ch⟩ | body <;> rw [step, hp] at h <;>
      cases h
    · exact .fail
    · exact .fail
  | receive =>
    rcases hp : net.poll with _ | ⟨k', index⟩ | ⟨k', index, ch⟩ | body <;> rw [step, hp] at h <;>
      cases h
    exact .receive hp

/-! ### Servers that cannot answer -/

/-- No body is ever under way. -/
def Net.Unanswered (net : Net X n) : Prop := ∀ b, net.poll ≠ .answered (some b)

/-- Without an answer the client is left as it is. -/
theorem Net.Moves.unanswered {T : Transport X} (hT : ∀ data, T.answer data = none)
    {net net' : Net X n} {op : NetOp n} (h : net.Moves T op net') (hnet : net.Unanswered) :
    net'.Unanswered ∧ net'.client = net.client := by
  cases h with
  | server h => exact ⟨hnet, rfl⟩
  | request h =>
    refine ⟨?_, rfl⟩
    intro b hb
    cases hb
  | arrive h =>
    refine ⟨?_, rfl⟩
    intro b hb
    cases hb
  | @respond k index ch h =>
    refine ⟨?_, rfl⟩
    intro b hb
    dsimp only at hb
    rw [hT] at hb
    cases hb
  | fail =>
    refine ⟨?_, rfl⟩
    intro b hb
    cases hb
  | @receive body h =>
    constructor
    · intro b hb
      cases hb
    · cases body with
      | none => rfl
      | some b => exact absurd h (hnet b)

theorem transport_answer (data : Data X) : (transport P emb.toEmbeddedCodec).answer data = none := by
  rw [transport]
  dsimp only
  rcases data.clone with _ | ss
  · rfl
  · rw [Option.bind_some, marshalBinary_fails]
    rfl

/-- No run brings the client anything. -/
theorem Net.Unanswered.run {net net' : Net X n} (hun : net.Unanswered) {ops : List (NetOp n)}
    (h : ops.foldlM (NetOp.step P emb config C (transport P emb.toEmbeddedCodec)) net
      = some net') : net'.Unanswered ∧ net'.client = net.client := by
  refine foldlM_inv (J := fun net₁ => net₁.Unanswered ∧ net₁.client = net.client) ?_ ⟨hun, rfl⟩ h
  rintro net₁ op net₂ ⟨hun₁, hc⟩ hstep
  have hmoves := NetOp.moves P emb config C _ hstep
  obtain ⟨hun₂, hc₂⟩ := hmoves.unanswered (transport_answer P emb) hun₁
  exact ⟨hun₂, hc₂.trans hc⟩

/-- A client that is about to ask its first server. -/
def Net.start (servers : Fin n → Store X) (client : Client X) : Net X n :=
  { servers := servers, client := client, poll := .idle }

/-- **The index of the client's copy never decreases**, from any point of any run on: no snapshot is
    ever delivered, and the copy stays what it is. -/
theorem cache_index_never_decreases (servers : Fin n → Store X) (client : Client X)
    (ops more : List (NetOp n)) {net net' : Net X n}
    (h : ops.foldlM (NetOp.step P emb config C (transport P emb.toEmbeddedCodec))
      (Net.start servers client) = some net)
    (h' : more.foldlM (NetOp.step P emb config C (transport P emb.toEmbeddedCodec)) net
      = some net') :
    net.client.cacheData.index ≤ net'.client.cacheData.index ∧
      net'.Unanswered ∧ net'.client = client := by
  have hstart : (Net.start servers client).Unanswered := by
    intro b hb
    cases hb
  obtain ⟨hun, hc⟩ := hstart.run P emb config C h
  obtain ⟨hun', hc'⟩ := hun.run P emb config C h'
  refine ⟨?_, hun', hc'.trans hc⟩
  rw [hc']
  exact UInt64.le_refl _

end Net

/-- The metadata of a new store at another index. -/
def dataAt (index : UInt64) : Data Unit :=
  { newStoreData () with
    data := some { term := 1, index := index, clusterID := 0, databases := [],
                   maxShardGroupID := 0, maxShardID := 0, rest := () } }

/-- A server at index five. -/
def serverAtFive : Fin 1 → Store Unit := fun _ => { data := dataAt 5, generation := 0 }

/-- A client at index ten. -/
def clientAtTen : Client Unit := { (newClient : Client Unit) with cacheData := dataAt 10 }

/-- The client asks the server, which waits until it applies the entry at index six. -/
def askBehind : List (NetOp 1) :=
  [.request 0, .arrive, .server 0 (.apply alone { term := 1, index := 6, data := dropBody }),
    .respond, .receive]

theorem cache_index_askBehind :
    ∃ net, askBehind.foldlM (NetOp.step Protobuf.idle Embedded.idle ⟨false⟩ unmarshalCommand
        (transport Protobuf.idle Embedded.idle.toEmbeddedCodec))
        (Net.start serverAtFive clientAtTen) = some net ∧
      clientAtTen.cacheData.index ≤ net.client.cacheData.index ∧ net.Unanswered ∧
      net.client = clientAtTen := by
  have hsome : (askBehind.foldlM (NetOp.step Protobuf.idle Embedded.idle ⟨false⟩ unmarshalCommand
      (transport Protobuf.idle Embedded.idle.toEmbeddedCodec))
      (Net.start serverAtFive clientAtTen)).isSome := by decide +kernel
  obtain ⟨net, hnet⟩ := Option.isSome_iff_exists.mp hsome
  exact ⟨net, hnet, cache_index_never_decreases Protobuf.idle Embedded.idle ⟨false⟩ unmarshalCommand
    serverAtFive clientAtTen [] askBehind rfl hnet⟩

end InfluxCluster.Meta
