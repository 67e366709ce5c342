/-
  How a client has a command executed (`meta/client.go`): the command goes to one meta server after
  another until one of them has executed it, and then the client waits until its own copy of the
  metadata has caught up.

  THE COMMAND.  `UpdateRetentionPolicy` is the one command whose message is not a list of its
  arguments: optional fields, and an `int` that travels as a `uint32`.  What the state machine makes
  of it is what the caller said exactly if the update sets no shard group duration, for which the
  message has no field, and a replication factor that fits (`update_survives_iff`).

  THE LOOP.  `retryUntilExec` is a machine of small steps: any answer may come to a request, the
  client may be closed and new metadata installed between any two of them.  It has two exits that
  return nil, and one of them is taken because the client was CLOSED.  Without that one, nil means
  that a server has executed the command and that the copy has its index (`exec_nil_iff`).

  WAITING.  `waitForIndex` blocks on a channel that `pollForUpdates` closes when the index goes up.
  The index may also go down in between.  Still nobody sleeps who could go on: as long as the
  channel is open, the index has not gone up since it was taken (`no_lost_wakeup`).
-/
import InfluxCluster.Lib.Lockstep
import InfluxCluster.Meta.Client
import InfluxCluster.Meta.StoreFSM

namespace InfluxCluster.Meta

open InfluxCluster.Lib

/-! ## `UpdateRetentionPolicy` -/

/-- `Client.UpdateRetentionPolicy`: the message that it sends. -/
def updateRetentionPolicy (database name : String) (rpu : RetentionPolicyUpdate) :
    UpdateRetentionPolicyCommand :=
  { database := database
    name := name
    newName := rpu.name
    duration := rpu.duration
    replicaN := rpu.replicaN.map UInt32.ofInt }

/-- The update that `applyUpdateRetentionPolicyCommand` hands to the metadata. -/
def UpdateRetentionPolicyCommand.rpu (v : UpdateRetentionPolicyCommand) : RetentionPolicyUpdate :=
  { name := v.newName
    duration := v.duration
    replicaN := v.replicaN.map fun n => (n.toNat : Int) }

/-- The command with this message. -/
def UpdateRetentionPolicyCommand.command (v : UpdateRetentionPolicyCommand) : Command :=
  { type := .updateRetentionPolicy, updateRetentionPolicy := .present v }

/-- **The update arrives as the caller passed it**: whatever the embedded package makes of an
    update, the handler calls it with that one. -/
def Survives (database name : String) (rpu : RetentionPolicyUpdate) : Prop :=
  ∀ (X : Type) (emb : Embedded X) (d : Data X),
    applyUpdateRetentionPolicyCommand emb (updateRetentionPolicy database name rpu).command d
      = applyEmbedded (.present rpu) (fun rpu => emb.updateRetentionPolicy database name rpu false) d

theorem apply_updateRetentionPolicy {X : Type} (emb : Embedded X) (database name : String)
    (rpu : RetentionPolicyUpdate) :
    applyUpdateRetentionPolicyCommand emb (updateRetentionPolicy database name rpu).command
      = applyEmbedded (.present (updateRetentionPolicy database name rpu).rpu)
          (fun rpu => emb.updateRetentionPolicy database name rpu false) := rfl

/-- A package that keeps the last update. -/
def recorder : Embedded (Option RetentionPolicyUpdate) :=
  { Embedded.still none with
    updateRetentionPolicy := fun _ _ rpu _ m => .ok { m with rest := some rpu } }

/-- The handler hands over one update, and a package can tell which. -/
theorem survives_iff_rpu (database name : String) (rpu : RetentionPolicyUpdate) :
    Survives database name rpu ↔ (updateRetentionPolicy database name rpu).rpu = rpu := by
  constructor
  · intro h
    have hrec := h _ recorder (newStoreData none)
    rw [apply_updateRetentionPolicy] at hrec
    have hdata := congrArg (fun r => (final r).data.map MetaData.rest) hrec
    exact Option.some.inj (Option.some.inj hdata)
  · intro h X emb d
    rw [apply_updateRetentionPolicy, h]

theorem toNat_ofInt {n : Int} (h0 : 0 ≤ n) (h : n < 2 ^ 32) : ((UInt32.ofInt n).toNat : Int) = n := by
  rw [UInt32.ofInt, UInt32.toNat_ofNat', Int.emod_eq_of_lt h0 h, Nat.mod_eq_of_lt (by omega)]
  omega

/-- **An update survives exactly if it sets no shard group duration and its replication factor is a
    `uint32`.** -/
theorem update_survives_iff (database name : String) (rpu : RetentionPolicyUpdate) :
    Survives database name rpu
      ↔ rpu.shardGroupDuration = none ∧ ∀ n, rpu.replicaN = some n → 0 ≤ n ∧ n < 2 ^ 32 := by
  rw [survives_iff_rpu]
  constructor
  · intro h
    refine ⟨(congrArg RetentionPolicyUpdate.shardGroupDuration h).symm, fun n hn => ?_⟩
    have hrep := congrArg RetentionPolicyUpdate.replicaN h
    rw [hn, UpdateRetentionPolicyCommand.rpu, updateRetentionPolicy, hn] at hrep
    have hnat : ((UInt32.ofInt n).toNat : Int) = n := Option.some.inj hrep
    have hlt : (UInt32.ofInt n).toNat < 2 ^ 32 := (UInt32.ofInt n).toNat_lt
    omega
  · rintro ⟨hdur, hrep⟩
    obtain ⟨name', duration, replicaN, shardGroupDuration⟩ := rpu
    have hdur' : shardGroupDuration = none := hdur
    subst hdur'
    cases replicaN with
    | none => rfl
    | some n =>
      obtain ⟨h0, hlt⟩ := hrep n rfl
      show (⟨name', duration, some ((UInt32.ofInt n).toNat : Int), none⟩ : RetentionPolicyUpdate) = _
      rw [toNat_ofInt h0 hlt]

/-- `ALTER RETENTION POLICY … SHARD DURATION 2h`. -/
def shardDuration : RetentionPolicyUpdate :=
  { name := none, duration := none, replicaN := none, shardGroupDuration := some 7200000000000 }

/-- **A new shard group duration is lost on the way**, and so is the sign of a replication
    factor. -/
theorem shardDuration_is_lost :
    (updateRetentionPolicy "db" "rp" shardDuration).rpu = ⟨none, none, none, none⟩ ∧
      (updateRetentionPolicy "db" "rp" ⟨none, none, some (-1), none⟩).rpu
        = ⟨none, none, some 4294967295, none⟩ ∧
      ¬ Survives "db" "rp" shardDuration := by
  refine ⟨rfl, by decide +kernel, ?_⟩
  rw [survives_iff_rpu]
  decide +kernel

/-! ## `waitForIndex` -/

/-- Where a call of `waitForIndex` is; `ch` is the generation of the channel that it took. -/
inductive Wait
  | check (idx : UInt64)
  | blocked (idx : UInt64) (ch : Nat)
  | done
  deriving DecidableEq

section Waiting

variable {X : Type}

/-- The next step of the call, by the client that it sees.  It comes back from a channel only if
    that has been closed: the client has gone on to a later one. -/
def Wait.step (c : Client X) : Wait → Option Wait
  | .check idx => some (if idx ≤ c.cacheData.index then .done else .blocked idx c.changed)
  | .blocked idx ch => if ch < c.changed then some (.check idx) else none
  | .done => none

/-- A client, and the calls of `waitForIndex` that were made. -/
structure Waiters (X : Type) where
  client : Client X
  calls : List Wait

/-- A call begins, one of the calls takes its next step, or `pollForUpdates` has new data. -/
inductive WaiterOp (X : Type)
  | waitForIndex (idx : UInt64)
  | next (call : Nat)
  | install (data : Data X)

/-- A call that cannot go on stays where it is. -/
def WaiterOp.step (s : Waiters X) : WaiterOp X → Waiters X
  | .waitForIndex idx => { s with calls := .check idx :: s.calls }
  | .next call => { s with calls := s.calls.modify call fun w => (w.step s.client).getD w }
  | .install data => { s with client := s.client.install data }

/-- The waiters of a client after all of these. -/
def WaiterOp.run (c : Client X) (ops : List (WaiterOp X)) : Waiters X :=
  ops.foldl WaiterOp.step { client := c, calls := [] }

/-- **No wake-up is lost**: the channel of a call that has nothing to wait for is closed. -/
def NoneLost (s : Waiters X) : Prop :=
  ∀ idx ch, Wait.blocked idx ch ∈ s.calls → idx ≤ s.client.cacheData.index → ch < s.client.changed

/-- **The channel speaks for the index**: it is a channel of the client, and while it is the current
    one the index has not come up to what the call waits for. -/
def Wait.Fresh (c : Client X) : Wait → Prop
  | .blocked idx ch => ch ≤ c.changed ∧ (ch = c.changed → c.cacheData.index < idx)
  | _ => True

theorem Wait.Fresh.step {c : Client X} {w : Wait} (h : w.Fresh c) :
    ((w.step c).getD w).Fresh c := by
  cases w with
  | check idx =>
    rw [Wait.step, Option.getD_some]
    split_ifs with hle
    · trivial
    · exact ⟨Nat.le_refl _, fun _ => UInt64.not_le.mp hle⟩
  | blocked idx ch =>
    rw [Wait.step]
    split_ifs with hlt
    · trivial
    · exact h
  | done => trivial

/-- New data leaves the channel open only if it does not raise the index; whatever the index was
    before, it is then still too low. -/
theorem Wait.Fresh.install {c : Client X} {w : Wait} (h : w.Fresh c) (data : Data X) :
    w.Fresh (c.install data) := by
  cases w with
  | check idx => trivial
  | done => trivial
  | blocked idx ch =>
    obtain ⟨hle, hopen⟩ := h
    show ch ≤ (if c.cacheData.index < data.index then c.changed + 1 else c.changed) ∧
      (ch = (if c.cacheData.index < data.index then c.changed + 1 else c.changed) →
        data.index < idx)
    split_ifs with hlt
    · exact ⟨by omega, by omega⟩
    · refine ⟨hle, fun hch => ?_⟩
      exact UInt64.lt_of_le_of_lt (UInt64.not_lt.mp hlt) (hopen hch)

theorem fresh_step {s : Waiters X} (h : ∀ w ∈ s.calls, w.Fresh s.client) (op : WaiterOp X) :
    ∀ w ∈ (op.step s).calls, w.Fresh (op.step s).client := by
  cases op with
  | waitForIndex idx =>
    intro w hw
    rcases List.mem_cons.mp hw with rfl | hw
    · trivial
    · exact h w hw
  | next call =>
    intro w hw
    obtain ⟨i, hi⟩ := List.mem_iff_getElem?.mp hw
    rw [WaiterOp.step, List.getElem?_modify] at hi
    obtain ⟨v, hv, hvw⟩ := Option.map_eq_some_iff.mp hi
    have hfresh : v.Fresh s.client := h v (List.mem_of_getElem? hv)
    rw [← hvw]
    split_ifs
    · exact hfresh.step
    · exact hfresh
  | install data => exact fun w hw => (h w hw).install data

theorem fresh_run (ops : List (WaiterOp X)) {s : Waiters X} (h : ∀ w ∈ s.calls, w.Fresh s.client) :
    ∀ w ∈ (ops.foldl WaiterOp.step s).calls, w.Fresh (ops.foldl WaiterOp.step s).client := by
  induction ops generalizing s with
  | nil => exact h
  | cons op ops ih => exact ih (fresh_step h op)

/-- **No wake-up is lost in any run**, whatever indexes the new data have. -/
theorem no_lost_wakeup (c : Client X) (ops : List (WaiterOp X)) : NoneLost (WaiterOp.run c ops) := by
  intro idx ch hmem hidx
  have hnone : ∀ w ∈ ({ client := c, calls := [] } : Waiters X).calls, w.Fresh c :=
    fun w hw => absurd hw List.not_mem_nil
  obtain ⟨hle, hopen⟩ : (Wait.blocked idx ch).Fresh (WaiterOp.run c ops).client :=
    fresh_run ops hnone _ hmem
  rcases Nat.lt_or_eq_of_le hle with hlt | heq
  · exact hlt
  · exact absurd (hopen heq) (UInt64.not_lt.mpr hidx)

end Waiting

/-! ## `retryUntilExec` -/

/-- `internal.Response`. -/
structure Response where
  error : String
  index : UInt64
  deriving DecidableEq

/-- What comes of a request: it fails, or there is a response, whose body may not be readable. -/
inductive Answer
  | failed (text : String)
  | response (statusCode : Nat) (status location : String) (body : Except String Response)

/-- The errors of `exec`: `errRedirect`, `errCommand`, and any other. -/
inductive ExecErr
  | redirect (host : String)
  | command (msg : String)
  | other (text : String)
  deriving DecidableEq

/-- `exec`, after the request. -/
def exec : Answer → Except ExecErr UInt64
  | .failed text => .error (.other text)
  | .response statusCode status location body =>
    if statusCode = 307 then .error (.redirect location)
    else if statusCode ≠ 200 then .error (.other ("meta service returned " ++ status))
    else
      match body with
      | .error text => .error (.other text)
      | .ok res => if res.error ≠ "" then .error (.command res.error) else .ok res.index

/-- `const maxRetries`. -/
def maxRetries : Nat := 10

/-- Where `retryUntilExec` is, with its variables: before it looks whether the client is closed,
    before it chooses a server, in `exec`, in `waitForIndex`, or at its end with the index that the
    cache had there.  Choosing a server panics if there is none. -/
inductive ExecPC
  | loop (tries currentServer : Nat) (redirectServer : String)
  | choose (tries currentServer : Nat) (redirectServer : String)
  | exec (url : String) (tries currentServer : Nat)
  | waiting (w : Wait)
  | returned (err : Option ExecErr) (cacheIndex : UInt64)
  | panicked
  deriving DecidableEq

/-- The client during a call, with the index of the answer that said success. -/
structure Exec (X : Type) where
  client : Client X
  closed : Bool
  metaServers : List String
  tls : Bool
  pc : ExecPC
  success : Option UInt64

/-- The call takes its next step, which in `exec` is an answer; or the client is closed, told of
    other servers or given new data. -/
inductive ExecOp (X : Type)
  | head
  | choose
  | answer (a : Answer)
  | wait
  | close
  | setMetaServers (a : List String)
  | install (data : Data X)

section Exec

variable {X : Type}

/-- The call begins. -/
def retryUntilExec (client : Client X) (closed : Bool) (metaServers : List String) (tls : Bool) :
    Exec X :=
  { client, closed, metaServers, tls, pc := .loop 0 0 "", success := none }

/-- The call returns. -/
def Exec.return (s : Exec X) (err : Option ExecErr) : Exec X :=
  { s with pc := .returned err s.client.cacheData.index }

/-- The number of the server, which starts again after the last one. -/
def Exec.nextServer (s : Exec X) (currentServer : Nat) : Nat :=
  if s.metaServers.length ≤ currentServer then 0 else currentServer

/-- The choice of a server. -/
def Exec.chooseServer (s : Exec X) (tries currentServer : Nat) (redirectServer : String) : ExecPC :=
  if redirectServer ≠ "" then .exec redirectServer tries currentServer
  else
    match s.metaServers[s.nextServer currentServer]? with
    | none => .panicked
    | some server =>
      .exec ((if s.tls then "https" else "http") ++ "://" ++ server ++ "/execute") tries
        (s.nextServer currentServer)

/-- After an answer to a request.  The retries are counted before the error is looked at. -/
def Exec.answered (s : Exec X) (tries currentServer : Nat) (a : Answer) : Exec X :=
  match Meta.exec a with
  | .ok index => { s with pc := .waiting (.check index), success := some index }
  | .error err =>
    if maxRetries < tries + 1 then s.return (some err)
    else
      match err with
      | .redirect host => { s with pc := .loop (tries + 1) (currentServer + 1) host }
      | .command msg => s.return (some (.command msg))
      | .other _ => { s with pc := .loop (tries + 1) (currentServer + 1) "" }

/-- One step; `none` if the call is not there. -/
def ExecOp.step (s : Exec X) : ExecOp X → Option (Exec X)
  | .head =>
    match s.pc with
    | .loop tries currentServer redirectServer =>
      -- "exit if we're closed"
      some (if s.closed then s.return none
        else { s with pc := .choose tries currentServer redirectServer })
    | _ => none
  | .choose =>
    match s.pc with
    | .choose tries currentServer redirectServer =>
      some { s with pc := s.chooseServer tries currentServer redirectServer }
    | _ => none
  | .answer a =>
    match s.pc with
    | .exec _ tries currentServer => some (s.answered tries currentServer a)
    | _ => none
  | .wait =>
    match s.pc with
    | .waiting w => (w.step s.client).map fun w' =>
        if w' = .done then s.return none else { s with pc := .waiting w' }
    | _ => none
  | .close => some { s with closed := true }
  | .setMetaServers a => some { s with metaServers := a }
  | .install data => some { s with client := s.client.install data }

/-- **A nil error means that the command was executed**, and that the cache had its index. -/
def Exec.Honest (s : Exec X) : Prop :=
  ∀ cacheIndex, s.pc = .returned none cacheIndex → ∃ index ∈ s.success, index ≤ cacheIndex

/-- The step is not a look at a client that has been closed. -/
def ExecOp.Open (s : Exec X) (op : ExecOp X) : Prop :=
  match op with
  | .head => s.closed = false
  | _ => True

/-- What a call waits for. -/
def Wait.idx : Wait → Option UInt64
  | .check idx => some idx
  | .blocked idx _ => some idx
  | .done => none

/-- What was answered so far: nothing but errors before the call waits, and then the index that it
    waits for. -/
def Exec.Told (s : Exec X) : Prop :=
  match s.pc with
  | .loop _ _ _ | .choose _ _ _ | .exec _ _ _ => s.success = none
  | .waiting w => ∃ index ∈ s.success, w.idx = some index
  | _ => True

/-- A call goes on waiting for the same index, and ends when the cache has it. -/
theorem Wait.step_idx {c : Client X} {w w' : Wait} {index : UInt64} (hw : w.idx = some index)
    (h : w.step c = some w') :
    w'.idx = some index ∨ (w' = .done ∧ index ≤ c.cacheData.index) := by
  cases w with
  | done => cases h
  | check idx =>
    cases hw
    rw [Wait.step] at h
    split_ifs at h with hle
    · cases h
      exact .inr ⟨rfl, hle⟩
    · cases h
      exact .inl rfl
  | blocked idx ch =>
    cases hw
    rw [Wait.step] at h
    split_ifs at h
    cases h
    exact .inl rfl

theorem Exec.chooseServer_cases (s : Exec X) (tries currentServer : Nat) (redirectServer : String) :
    (∃ url next, s.chooseServer tries currentServer redirectServer = .exec url tries next) ∨
      s.chooseServer tries currentServer redirectServer = .panicked := by
  rw [Exec.chooseServer]
  by_cases hredirect : redirectServer ≠ ""
  · rw [if_pos hredirect]
    exact .inl ⟨_, _, rfl⟩
  · rw [if_neg hredirect]
    rcases s.metaServers[s.nextServer currentServer]? with _ | server
    · exact .inr rfl
    · exact .inl ⟨_, _, rfl⟩

/-- The steps that are possible, branch by branch. -/
inductive ExecOp.Does (s : Exec X) : ExecOp X → Exec X → Prop
  | foundClosed {tries currentServer : Nat} {redirectServer : String}
    (hpc : s.pc = .loop tries currentServer redirectServer) (hclosed : s.closed = true) :
    Does s .head (s.return none)
  | foundOpen {tries currentServer : Nat} {redirectServer : String}
    (hpc : s.pc = .loop tries currentServer redirectServer) (hopen : s.closed = false) :
    Does s .head { s with pc := .choose tries currentServer redirectServer }
  | chosen {tries currentServer next : Nat} {redirectServer url : String}
    (hpc : s.pc = .choose tries currentServer redirectServer) :
    Does s .choose { s with pc := .exec url tries next }
  | noServer {tries currentServer : Nat} {redirectServer : String}
    (hpc : s.pc = .choose tries currentServer redirectServer) :
    Does s .choose { s with pc := .panicked }
  | succeeded {a : Answer} {url : String} {tries currentServer : Nat} {index : UInt64}
    (hpc : s.pc = .exec url tries currentServer) (hexec : Meta.exec a = .ok index) :
    Does s (.answer a) { s with pc := .waiting (.check index), success := some index }
  | gaveUp {a : Answer} {url : String} {tries currentServer : Nat} {err : ExecErr}
    (hpc : s.pc = .exec url tries currentServer) (hexec : Meta.exec a = .error err) :
    Does s (.answer a) (s.return (some err))
  | retried {a : Answer} {url host : String} {tries currentServer : Nat} {err : ExecErr}
    (hpc : s.pc = .exec url tries currentServer) (hexec : Meta.exec a = .error err) :
    Does s (.answer a) { s with pc := .loop (tries + 1) (currentServer + 1) host }
  | waited {w : Wait} (hpc : s.pc = .waiting w) (hw : w.step s.client = some .done) :
    Does s .wait (s.return none)
  | waitsOn {w w' : Wait} (hpc : s.pc = .waiting w) (hw : w.step s.client = some w')
    (hne : w' ≠ .done) : Does s .wait { s with pc := .waiting w' }
  | close : Does s .close { s with closed := true }
  | setMetaServers {a : List String} : Does s (.setMetaServers a) { s with metaServers := a }
  | install {data : Data X} : Does s (.install data) { s with client := s.client.install data }

/-- An answer is a success that the call then waits for, or an error. -/
theorem ExecOp.does_answered {s : Exec X} {url : String} {tries currentServer : Nat}
    (hpc : s.pc = .exec url tries currentServer) (a : Answer) :
    ExecOp.Does s (.answer a) (s.answered tries currentServer a) := by
  rw [Exec.answered]
  rcases hexec : Meta.exec a with err | index
  · dsimp only
    split_ifs
    · exact .gaveUp hpc hexec
    · cases err with
      | redirect host => exact .retried hpc hexec
      | command msg => exact .gaveUp hpc hexec
      | other text => exact .retried hpc hexec
  · exact .succeeded hpc hexec

/-- **Every step is one of these.** -/
theorem ExecOp.does_of_step {s s' : Exec X} {op : ExecOp X} (h : op.step s = some s') :
    ExecOp.Does s op s' := by
  cases op with
  | head =>
    rw [ExecOp.step] at h
    split at h
    · rename_i hpc
      cases h
      split_ifs with hclosed
      · exact .foundClosed hpc hclosed
      · exact .foundOpen hpc (Bool.eq_false_iff.mpr hclosed)
    · cases h
  | choose =>
    rw [ExecOp.step] at h
    split at h
    · rename_i tries currentServer redirectServer hpc
      cases h
      rcases s.chooseServer_cases tries currentServer redirectServer with ⟨url, next, hnext⟩ | hpanic
      · rw [hnext]
        exact .chosen hpc
      · rw [hpanic]
        exact .noServer hpc
    · cases h
  | answer a =>
    rw [ExecOp.step] at h
    split at h
    · rename_i hpc
      cases h
      exact ExecOp.does_answered hpc a
    · cases h
  | wait =>
    rw [ExecOp.step] at h
    split at h
    · rename_i w hpc
      obtain ⟨w', hw, rfl⟩ := Option.map_eq_some_iff.mp h
      split_ifs with hdone
      · subst hdone
        exact .waited hpc hw
      · exact .waitsOn hpc hw hdone
    · cases h
  | close =>
    cases h
    exact .close
  | setMetaServers a =>
    cases h
    exact .setMetaServers
  | install data =>
    cases h
    exact .install

/-- What was answered is always known. -/
theorem Exec.Told.does {s s' : Exec X} {op : ExecOp X} (h : s.Told) (hdoes : ExecOp.Does s op s') :
    s'.Told := by
  cases hdoes with
  | foundClosed hpc hclosed => trivial
  | noServer hpc => trivial
  | gaveUp hpc hexec => trivial
  | waited hpc hw => trivial
  | succeeded hpc hexec => exact ⟨_, rfl, rfl⟩
  | foundOpen hpc hopen | chosen hpc | retried hpc hexec =>
    rw [Exec.Told, hpc] at h
    exact h
  | waitsOn hpc hw hne =>
    rw [Exec.Told, hpc] at h
    obtain ⟨index, hindex, hidx⟩ := h
    refine ⟨index, hindex, ?_⟩
    rcases Wait.step_idx hidx hw with hwait | ⟨hdone, -⟩
    · exact hwait
    · exact absurd hdone hne
  | close | setMetaServers | install => exact h

/-- **What a step does**: what was answered is always known, and the call stays honest unless it
    looks at a client that has been closed. -/
theorem ExecOp.step_told {s s' : Exec X} {op : ExecOp X} (h : s.Told)
    (hstep : op.step s = some s') : s'.Told ∧ (s.Honest → (s'.Honest ↔ op.Open s)) := by
  have hdoes := ExecOp.does_of_step hstep
  refine ⟨h.does hdoes, fun hs => ?_⟩
  cases hdoes with
  | foundClosed hpc hclosed =>
    -- nothing was executed, and the call returns nil
    rw [Exec.Told, hpc] at h
    refine iff_of_false (fun honest => ?_) fun hopen => ?_
    · obtain ⟨index, hindex, -⟩ := honest _ rfl
      exact absurd (h ▸ hindex : index ∈ none) (Option.not_mem_none _)
    · rw [ExecOp.Open, hclosed] at hopen
      cases hopen
  | foundOpen hpc hopen => exact iff_of_true (fun cacheIndex hreturned => by cases hreturned) hopen
  | waited hpc hw =>
    rw [Exec.Told, hpc] at h
    obtain ⟨index, hindex, hidx⟩ := h
    refine iff_of_true (fun cacheIndex hreturned => ?_) trivial
    cases hreturned
    rcases Wait.step_idx hidx hw with hwait | ⟨-, hle⟩
    · cases hwait
    · exact ⟨index, hindex, hle⟩
  | close | setMetaServers | install => exact iff_of_true hs trivial
  | _ => exact iff_of_true (fun cacheIndex hreturned => by cases hreturned) trivial

/-- **A nil error means that the command was executed, exactly if the loop never finds the client
    closed**: whatever the command is, whatever the servers answer, and whenever new data comes. -/
theorem exec_nil_iff (client : Client X) (closed : Bool) (metaServers : List String) (tls : Bool)
    (ops : List (ExecOp X)) :
    (∀ k s, (ops.take k).foldlM ExecOp.step (retryUntilExec client closed metaServers tls) = some s →
        s.Honest)
      ↔ Along ExecOp.step (fun s op => (ExecOp.step s op).isSome → op.Open s)
          (retryUntilExec client closed metaServers tls) ops := by
  refine foldlM_take_inv_iff (J := Exec.Told) ?_ ?_ ops rfl fun cacheIndex hpc => by cases hpc
  · exact fun s op s' hs hstep => (ExecOp.step_told hs hstep).1
  · exact fun s op s' hs honest hstep => (ExecOp.step_told hs hstep).2 honest

end Exec

/-- The only server does not answer, and the client is closed before the next attempt. -/
def closedMeanwhile : List (ExecOp Unit) :=
  [.head, .choose, .answer (.failed "connection refused"), .close, .head]

/-- **A call returns nil although no server has executed the command.** -/
theorem nil_when_closed :
    (closedMeanwhile.foldlM ExecOp.step (retryUntilExec newClient false ["meta:8091"] false)).map
        (fun s => (s.pc, s.success)) = some (.returned none 0, none) ∧
      ¬ ∀ k s, (closedMeanwhile.take k).foldlM ExecOp.step
          (retryUntilExec newClient false ["meta:8091"] false) = some s → s.Honest := by
  refine ⟨by decide +kernel, fun h => ?_⟩
  obtain ⟨index, hindex, -⟩ := h 5 _ rfl _ rfl
  exact Option.not_mem_none _ hindex

end InfluxCluster.Meta
