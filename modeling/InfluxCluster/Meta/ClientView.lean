/-
  What a client of the meta service can know (`meta/client.go`, `meta/data.go`).

  The client's copy of the metadata is what it could read from the body of an answer, and READING
  FORGETS: `unmarshal` takes the meta nodes and the embedded data over, and neither the data nodes
  nor the users.  So it does not matter what the servers hold, what they send, or how often: no
  client finds a data node (`no_data_node`).  `CreateDataNode`, which looks the new node up once the
  command has been executed, cannot succeed.
-/
import InfluxCluster.Meta.Exec
import InfluxCluster.Meta.LongPoll

namespace InfluxCluster.Meta

open InfluxCluster.Lib

section View

variable {X : Type}

/-! ## Nodes -/

/-- The first data node with a property. -/
def Client.findDataNode (c : Client X) (p : NodeInfo → Bool) : Except MetaErr NodeInfo :=
  match c.cacheData.dataNodes.find? p with
  | some n => .ok n
  | none => .error .nodeNotFound

/-- `DataNode`. -/
def Client.dataNode (c : Client X) (id : UInt64) : Except MetaErr NodeInfo :=
  c.findDataNode fun n => n.id = id

/-- `DataNodeByHTTPHost`. -/
def Client.dataNodeByHTTPHost (c : Client X) (httpAddr : String) : Except MetaErr NodeInfo :=
  c.findDataNode fun n => n.host = httpAddr

/-- `DataNodeByTCPHost`. -/
def Client.dataNodeByTCPHost (c : Client X) (tcpAddr : String) : Except MetaErr NodeInfo :=
  c.findDataNode fun n => n.tcpHost = tcpAddr

/-- Errors of `CreateDataNode`. -/
inductive CreateNodeErr
  | exec (e : ExecErr)
  | lookup (e : MetaErr)

/-- `CreateDataNode`, where `err` is the error of `retryUntilExec` and `c` the client after it. -/
def Client.createDataNode (c : Client X) (err : Option ExecErr) (tcpAddr : String) :
    Except CreateNodeErr NodeInfo :=
  match err with
  | some e => .error (.exec e)
  | none =>
    match c.dataNodeByTCPHost tcpAddr with
    | .error e => .error (.lookup e)
    | .ok n => .ok n

/-! ## The life of a client -/

/-- What happens to a client: `Open` has read an answer, `pollForUpdates` has had one, which it may
    not be able to read, or somebody logs in. -/
inductive ViewOp
  | opened (body : Bytes)
  | polled (body : Option Bytes)
  | authenticate (rand : Except String Bytes) (username : String) (password : Bytes)

variable (K : Crypto) (P : Protobuf) (emb : EmbeddedCodec X)

/-- The client after it. -/
def ViewOp.step (c : Client X) : ViewOp → Client X
  | .opened body =>
    match (transport P emb).read body with
    | some data => { c with cacheData := data }
    | none => c
  | .polled body => c.receive (transport P emb) body
  | .authenticate rand username password => final (Meta.authenticate K rand username password c)

/-- The client after all of them. -/
def ViewOp.run (ops : List ViewOp) : Client X := ops.foldl (ViewOp.step K P emb) newClient

/-- The client has heard of no data node and of no user. -/
structure Client.Blank (c : Client X) : Prop where
  dataNodes : c.cacheData.dataNodes = []
  users : c.cacheData.users = []

variable {K P emb}

/-- **Reading forgets.** -/
theorem blank_of_read {body : Bytes} {data : Data X} (h : (transport P emb).read body = some data) :
    data.dataNodes = [] ∧ data.users = [] := by
  have h : (Data.zero.unmarshalBinary P emb body).toOption = some data := h
  rw [Data.unmarshalBinary] at h
  cases hp : P.decode body with
  | none =>
    rw [hp] at h
    cases h
  | some pb =>
    rw [hp] at h
    cases h
    exact ⟨rfl, rfl⟩

/-- Nobody can log in at a client without users. -/
theorem Client.Blank.authenticate {c : Client X} (h : c.Blank) (rand : Except String Bytes)
    (username : String) (password : Bytes) :
    Meta.authenticate K rand username password c = .error .userNotFound c := by
  rw [Meta.authenticate, Data.user, h.users]
  rfl

theorem Client.Blank.step {c : Client X} (h : c.Blank) (op : ViewOp) :
    (op.step K P emb c).Blank := by
  cases op with
  | opened body =>
    rw [ViewOp.step]
    cases hread : (transport P emb).read body with
    | none => exact h
    | some data => exact ⟨(blank_of_read hread).1, (blank_of_read hread).2⟩
  | polled body =>
    rw [ViewOp.step, Client.receive]
    cases hread : body.bind (transport P emb).read with
    | none => exact h
    | some data =>
      obtain ⟨b, -, hb⟩ := Option.bind_eq_some_iff.mp hread
      exact ⟨(blank_of_read hb).1, (blank_of_read hb).2⟩
  | authenticate rand username password =>
    rw [ViewOp.step, h.authenticate, final_error]
    exact h

/-- **A client never hears of a data node**, whatever it is sent. -/
theorem ViewOp.blank_run (ops : List ViewOp) : (ViewOp.run K P emb ops).Blank := by
  have hrun : ∀ c : Client X, c.Blank → (ops.foldl (ViewOp.step K P emb) c).Blank := by
    induction ops with
    | nil => exact fun c h => h
    | cons op ops ih => exact fun c h => ih _ (h.step op)
  exact hrun newClient ⟨rfl, rfl⟩

theorem Client.Blank.findDataNode {c : Client X} (h : c.Blank) (p : NodeInfo → Bool) :
    c.findDataNode p = .error .nodeNotFound := by
  rw [Client.findDataNode, h.dataNodes]
  rfl

/-- **No client finds a data node.**  Whatever bytes the meta servers answer, in whatever order, and
    whoever logs in meanwhile: every way to look a data node up says that there is none,
    `CreateDataNode` does not succeed even if its command does, and nobody can log in. -/
theorem no_data_node (ops : List ViewOp) :
    (∀ id, (ViewOp.run K P emb ops).dataNode id = .error .nodeNotFound) ∧
    (∀ addr, (ViewOp.run K P emb ops).dataNodeByHTTPHost addr = .error .nodeNotFound) ∧
    (∀ addr, (ViewOp.run K P emb ops).dataNodeByTCPHost addr = .error .nodeNotFound) ∧
    (∀ err addr n, (ViewOp.run K P emb ops).createDataNode err addr ≠ .ok n) ∧
    ∀ rand username password, Lib.outcome (Meta.authenticate K rand username password
      (ViewOp.run K P emb ops)) = .error .userNotFound := by
  have hblank : (ViewOp.run K P emb ops).Blank := ViewOp.blank_run ops
  refine ⟨fun _ => hblank.findDataNode _, fun _ => hblank.findDataNode _,
    fun _ => hblank.findDataNode _, fun err addr n hn => ?_, fun rand username password => ?_⟩
  · cases err with
    | some e => cases hn
    | none =>
      rw [Client.createDataNode, show (ViewOp.run K P emb ops).dataNodeByTCPHost addr
        = .error .nodeNotFound from hblank.findDataNode _] at hn
      cases hn
  · rw [hblank.authenticate]
    rfl

end View

end InfluxCluster.Meta
