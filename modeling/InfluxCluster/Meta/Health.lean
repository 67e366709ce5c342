/-
  Is the cluster healthy?  (`meta/handler.go`, `servePing`; `meta/store.go`, `leader` and
  `otherMetaServersHTTP`; `meta/client.go`, `Ping`.)

  A meta server that is asked to check ALL others reads who it thinks leads, asks each of the other
  servers in its metadata who THEY think leads, and is content if every answer is the same.  The
  answers come in one after the other, while elections go on and nodes join and leave; and what is
  sent in the end is neither of the answers but the leader of that moment.

  So a healthy cluster is one in which everybody HAS named one and the same leader, each at a moment
  of its own (`ping_all_outcome`).  Where nothing changes meanwhile the check is exact: it succeeds
  if and only if nobody fails to answer and all agree.  Agreeing is all that is asked for.  Servers
  that know of no leader agree as well as any, so a cluster without one is healthy.

  Who answers at a URL is a parameter; nobody may.
-/
import InfluxCluster.Lib.Lockstep
import InfluxCluster.Meta.HttpApi

namespace InfluxCluster.Meta.Health

open InfluxCluster.Lib

/-! ## The servers -/

/-- What a meta server looks at: its metadata and configuration, and who it thinks leads (nobody, if
    empty). -/
structure Server where
  metaNodes : List NodeInfo
  raftAddr : String
  httpsEnabled : Bool
  leader : String
  deriving DecidableEq

/-- `otherMetaServersHTTP`. -/
def Server.otherMetaServersHTTP (s : Server) : List String :=
  (s.metaNodes.filter fun n => n.tcpHost ≠ s.raftAddr).map NodeInfo.host

/-- The URL at which another server is asked. -/
def Server.pingURL (s : Server) (n : String) : String :=
  (if s.httpsEnabled then "https://" else "http://") ++ n ++ "/ping"

/-- Where a call of `servePing` is: at its beginning; it has read the leader; it is in its loop with
    the servers that are left; it has given up; or it has answered. -/
inductive PC
  | arrived
  | led (leader : String)
  | asking (leader : String) (rest : List String)
  | unhealthy
  | answered (statusCode : Nat) (body : String)
  deriving DecidableEq

/-- The servers, and a call at one of them. -/
structure Ping (n : Nat) where
  servers : Fin n → Server
  pc : PC

/-- What happens next: a server learns of another leader, or of other meta nodes; or the call goes
    on, where a request may be answered or fail. -/
inductive Op (n : Nat)
  | observe (k : Fin n) (leader : String)
  | members (k : Fin n) (metaNodes : List NodeInfo)
  | lead
  | list
  | reply
  | fail
  | write
  deriving DecidableEq

section Call

variable {n : Nat} (route : String → Option (Fin n)) (asked : Fin n) (all : String)

/-- `servePing` at the server `asked`, step by step. -/
def Op.step (s : Ping n) : Op n → Option (Ping n)
  | .observe k leader =>
    some { s with servers := Function.update s.servers k { s.servers k with leader := leader } }
  | .members k metaNodes =>
    some { s with
      servers := Function.update s.servers k { s.servers k with metaNodes := metaNodes } }
  | .lead =>
    if s.pc = .arrived then
      let leader := (s.servers asked).leader
      -- if they're not asking to check all servers, just return who we think the leader is
      if all = "" then some { s with pc := .answered 200 leader }
      else some { s with pc := .led leader }
    else none
  | .list =>
    match s.pc with
    | .led leader => some { s with pc := .asking leader (s.servers asked).otherMetaServersHTTP }
    | _ => none
  | .reply =>
    match s.pc with
    | .asking leader (host :: rest) =>
      match route ((s.servers asked).pingURL host) with
      | some k =>
        if leader = (s.servers k).leader then some { s with pc := .asking leader rest }
        else some { s with pc := .unhealthy }
      | none => none
    | _ => none
  | .fail =>
    match s.pc with
    | .asking _ (_ :: _) => some { s with pc := .unhealthy }
    | _ => none
  | .write =>
    match s.pc with
    | .asking _ [] => some { s with pc := .answered 200 (s.servers asked).leader }
    | .unhealthy => some { s with pc := .answered 500 "\n" }
    | _ => none

/-- The steps of the call itself. -/
def Op.Own : Op n → Prop
  | .observe .. | .members .. => False
  | _ => True

instance : DecidablePred (Op.Own (n := n)) := fun op =>
  match op with
  | .observe .. | .members .. => isFalse not_false
  | .lead | .list | .reply | .fail | .write => isTrue trivial

/-- The steps of the call, branch by branch, from place to place. -/
inductive Op.Does (servers : Fin n → Server) : PC → Op n → PC → Prop
  | plain (hall : all = "") : Does servers .arrived .lead (.answered 200 (servers asked).leader)
  | lead (hall : all ≠ "") : Does servers .arrived .lead (.led (servers asked).leader)
  | list {leader : String} :
    Does servers (.led leader) .list (.asking leader (servers asked).otherMetaServersHTTP)
  | agrees (host : String) {leader : String} {rest : List String} {k : Fin n}
    (hk : route ((servers asked).pingURL host) = some k) (hsame : leader = (servers k).leader) :
    Does servers (.asking leader (host :: rest)) .reply (.asking leader rest)
  | differs {leader host : String} {rest : List String} {k : Fin n}
    (hk : route ((servers asked).pingURL host) = some k) (hdiff : leader ≠ (servers k).leader) :
    Does servers (.asking leader (host :: rest)) .reply .unhealthy
  | fail {leader host : String} {rest : List String} :
    Does servers (.asking leader (host :: rest)) .fail .unhealthy
  | healthy {leader : String} :
    Does servers (.asking leader []) .write (.answered 200 (servers asked).leader)
  | unhealthy : Does servers .unhealthy .write (.answered 500 "\n")

/-- Either the call stays where it is, or the servers do. -/
theorem Op.does_of_step {s s' : Ping n} {op : Op n} (hstep : op.step route asked all s = some s') :
    (¬ op.Own ∧ s'.pc = s.pc) ∨
    (op.Own ∧ s'.servers = s.servers ∧ Op.Does route asked all s.servers s.pc op s'.pc) := by
  obtain ⟨servers, pc⟩ := s
  cases op with
  | observe k leader =>
    cases hstep
    exact .inl ⟨not_false, rfl⟩
  | members k metaNodes =>
    cases hstep
    exact .inl ⟨not_false, rfl⟩
  | lead =>
    rw [Op.step] at hstep
    split_ifs at hstep with hpc hall
    · obtain rfl : pc = .arrived := hpc
      cases hstep
      exact .inr ⟨trivial, rfl, .plain hall⟩
    · obtain rfl : pc = .arrived := hpc
      cases hstep
      exact .inr ⟨trivial, rfl, .lead hall⟩
  | list =>
    cases pc with
    | led leader =>
      cases hstep
      exact .inr ⟨trivial, rfl, .list⟩
    | _ => cases hstep
  | reply =>
    cases pc with
    | asking leader rest =>
      cases rest with
      | nil => cases hstep
      | cons host rest =>
        rw [Op.step] at hstep
        dsimp only at hstep
        split at hstep
        · rename_i k hk
          split_ifs at hstep with hsame
          · cases hstep
            exact .inr ⟨trivial, rfl, .agrees host hk hsame⟩
          · cases hstep
            exact .inr ⟨trivial, rfl, .differs hk hsame⟩
        · cases hstep
    | _ => cases hstep
  | fail =>
    cases pc with
    | asking leader rest =>
      cases rest with
      | nil => cases hstep
      | cons host rest =>
        cases hstep
        exact .inr ⟨trivial, rfl, .fail⟩
    | _ => cases hstep
  | write =>
    cases pc with
    | asking leader rest =>
      cases rest with
      | nil =>
        cases hstep
        exact .inr ⟨trivial, rfl, .healthy⟩
      | cons host rest => cases hstep
    | unhealthy =>
      cases hstep
      exact .inr ⟨trivial, rfl, .unhealthy⟩
    | _ => cases hstep

/-! ## Moments of a run -/

/-- The run `w` is in the state `s` after `i` of its steps. -/
def Moment (s₀ : Ping n) (w : List (Op n)) (i : Nat) (s : Ping n) : Prop :=
  i ≤ w.length ∧ (w.take i).foldlM (Op.step route asked all) s₀ = some s

variable {route asked all} {s₀ s s' : Ping n} {w : List (Op n)} {op : Op n} {i : Nat}

/-- A moment of a run is one of a longer run. -/
theorem Moment.append (h : Moment route asked all s₀ w i s) (op : Op n) :
    Moment route asked all s₀ (w ++ [op]) i s := by
  obtain ⟨hi, h⟩ := h
  refine ⟨?_, ?_⟩
  · rw [List.length_append]
    omega
  · rw [List.take_append_of_le_length hi, h]

theorem Moment.last (h : w.foldlM (Op.step route asked all) s₀ = some s) :
    Moment route asked all s₀ w w.length s :=
  ⟨le_rfl, by rw [List.take_length, h]⟩

/-- Everybody in `hosts` has named the leader at some moment, and none of them before `i`. -/
def Named (route : String → Option (Fin n)) (asked : Fin n) (all : String) (s₀ : Ping n)
    (w : List (Op n)) (i : Nat) (leader : String) (hosts : List String) : Prop :=
  ∀ host ∈ hosts, ∃ j s k, i ≤ j ∧ Moment route asked all s₀ w j s ∧
    route ((s.servers asked).pingURL host) = some k ∧ (s.servers k).leader = leader

theorem Named.append {leader : String} {hosts : List String}
    (h : Named route asked all s₀ w i leader hosts) (op : Op n) :
    Named route asked all s₀ (w ++ [op]) i leader hosts := by
  intro host hhost
  obtain ⟨j, s, k, hij, hj, hk⟩ := h host hhost
  exact ⟨j, s, k, hij, hj.append op, hk⟩

/-- **What the call knows**: it has read the leader, then the list; and those of the list that are
    no longer left have named that leader since. -/
def Confirmed (route : String → Option (Fin n)) (asked : Fin n) (all : String) (s₀ : Ping n)
    (w : List (Op n)) (leader : String) (rest : List String) : Prop :=
  ∃ i j s t done, i ≤ j ∧ Moment route asked all s₀ w i s ∧ (s.servers asked).leader = leader ∧
    Moment route asked all s₀ w j t ∧
    (t.servers asked).otherMetaServersHTTP = done ++ rest ∧
    Named route asked all s₀ w j leader done

theorem Confirmed.append {leader : String} {rest : List String}
    (h : Confirmed route asked all s₀ w leader rest) (op : Op n) :
    Confirmed route asked all s₀ (w ++ [op]) leader rest := by
  obtain ⟨i, j, s, t, done, hij, hi, hs, hj, ht, hdone⟩ := h
  exact ⟨i, j, s, t, done, hij, hi.append op, hs, hj.append op, ht, hdone.append op⟩

/-- What is known at each place. -/
def Known (route : String → Option (Fin n)) (asked : Fin n) (all : String) (s₀ : Ping n)
    (w : List (Op n)) : PC → Prop
  | .arrived | .unhealthy => True
  | .led leader => ∃ i s, Moment route asked all s₀ w i s ∧ (s.servers asked).leader = leader
  | .asking leader rest => Confirmed route asked all s₀ w leader rest
  | .answered statusCode body => statusCode = 200 →
    (∃ i s, Moment route asked all s₀ w i s ∧ (s.servers asked).leader = body) ∧
    (all ≠ "" → ∃ leader, Confirmed route asked all s₀ w leader [])

theorem Known.append {pc : PC} (h : Known route asked all s₀ w pc) (op : Op n) :
    Known route asked all s₀ (w ++ [op]) pc := by
  cases pc with
  | arrived => trivial
  | unhealthy => trivial
  | led leader =>
    obtain ⟨i, s, hi, hs⟩ := h
    exact ⟨i, s, hi.append op, hs⟩
  | asking leader rest => exact Confirmed.append h op
  | answered statusCode body =>
    intro hcode
    obtain ⟨⟨i, s, hi, hs⟩, hall⟩ := h hcode
    refine ⟨⟨i, s, hi.append op, hs⟩, fun hne => ?_⟩
    obtain ⟨leader, hc⟩ := hall hne
    exact ⟨leader, hc.append op⟩

/-- One step: what the call learns is true at this moment. -/
theorem Known.step (hrun : w.foldlM (Op.step route asked all) s₀ = some s)
    (h : Known route asked all s₀ w s.pc) (hstep : op.step route asked all s = some s') :
    Known route asked all s₀ (w ++ [op]) s'.pc := by
  have hnow := (Moment.last hrun).append op
  rcases Op.does_of_step route asked all hstep with ⟨-, hpc⟩ | ⟨-, -, hdoes⟩
  · rw [hpc]
    exact h.append op
  · have happend := h.append op
    clear hstep hrun
    obtain ⟨servers, pc⟩ := s
    obtain ⟨servers', pc'⟩ := s'
    cases hdoes with
    | plain hall => exact fun _ => ⟨⟨_, _, hnow, rfl⟩, fun hne => absurd hall hne⟩
    | lead hall => exact ⟨_, _, hnow, rfl⟩
    | list =>
      obtain ⟨i, s, hi, hs⟩ := h
      exact ⟨i, w.length, s, _, [], hi.1, hi.append _, hs, hnow, rfl, fun _ hmem => by cases hmem⟩
    | agrees host hk hsame =>
      obtain ⟨i, j, s, t, done, hij, hi, hs, hj, ht, hdone⟩ := h
      refine ⟨i, j, s, t, done ++ [host], hij, hi.append _, hs, hj.append _, ?_, ?_⟩
      · rw [ht, List.append_assoc, List.singleton_append]
      · intro host' hmem
        rcases List.mem_append.mp hmem with hold | hnew
        · exact hdone.append _ host' hold
        · rw [List.mem_singleton.mp hnew]
          exact ⟨w.length, _, _, hj.1, hnow, hk, hsame.symm⟩
    | differs hk hdiff => trivial
    | fail => trivial
    | healthy => exact fun _ => ⟨⟨_, _, hnow, rfl⟩, fun _ => ⟨_, happend⟩⟩
    | unhealthy =>
      intro hcode
      cases hcode

/-- The whole run. -/
theorem Known.run (hpc : s₀.pc = .arrived) (hrun : w.foldlM (Op.step route asked all) s₀ = some s) :
    Known route asked all s₀ w s.pc :=
  foldlM_inv_run (J := fun w s => Known route asked all s₀ w s.pc) (by rw [hpc]; trivial)
    (fun _ _ _ _ hrun h hstep => Known.step hrun h hstep) w s hrun

/-! ## While nothing changes -/

/-- Everybody in `hosts` who can be reached thinks as the one that is asked. -/
def Agree (route : String → Option (Fin n)) (asked : Fin n) (servers : Fin n → Server)
    (hosts : List String) : Prop :=
  ∀ host ∈ hosts, ∀ k, route ((servers asked).pingURL host) = some k →
    (servers k).leader = (servers asked).leader

/-- The place of the call, if nothing changes: how far the others agree, and whether a request has
    failed. -/
def Place (route : String → Option (Fin n)) (asked : Fin n) (servers : Fin n → Server)
    (w : List (Op n)) : PC → Prop
  | .arrived => .fail ∉ w
  | .led leader => .fail ∉ w ∧ leader = (servers asked).leader
  | .asking leader rest => .fail ∉ w ∧ leader = (servers asked).leader ∧
    ∃ done, (servers asked).otherMetaServersHTTP = done ++ rest ∧ Agree route asked servers done
  | .unhealthy =>
    .fail ∈ w ∨ ¬ Agree route asked servers (servers asked).otherMetaServersHTTP
  | .answered statusCode body =>
    (statusCode = 200 ∧ body = (servers asked).leader ∧ .fail ∉ w ∧
      Agree route asked servers (servers asked).otherMetaServersHTTP) ∨
    (statusCode = 500 ∧
      (.fail ∈ w ∨ ¬ Agree route asked servers (servers asked).otherMetaServersHTTP))

/-- One own step, while nothing changes. -/
theorem Place.step (hall : all ≠ "") (hop : op.Own) (hplace : Place route asked s.servers w s.pc)
    (hstep : op.step route asked all s = some s') :
    s'.servers = s.servers ∧ Place route asked s.servers (w ++ [op]) s'.pc := by
  have hmem : ∀ op', Op.fail ∈ w ++ [op'] ↔ Op.fail ∈ w ∨ Op.fail = op' := fun op' => by
    rw [List.mem_append, List.mem_singleton]
  rcases Op.does_of_step route asked all hstep with ⟨hnot, -⟩ | ⟨-, hservers, hdoes⟩
  · exact absurd hop hnot
  · refine ⟨hservers, ?_⟩
    clear hstep hservers
    obtain ⟨servers, pc⟩ := s
    obtain ⟨servers', pc'⟩ := s'
    cases hdoes with
    | plain hplain => exact absurd hplain hall
    | lead _ => exact ⟨by simpa [Place, hmem] using hplace, rfl⟩
    | list =>
      obtain ⟨hfail, hleader⟩ := hplace
      exact ⟨by simpa [hmem] using hfail, hleader, [], rfl, fun _ h => by cases h⟩
    | agrees host hk hsame =>
      obtain ⟨hfail, hleader, done, hdone, hagree⟩ := hplace
      refine ⟨by simpa [hmem] using hfail, hleader, done ++ [host], ?_, ?_⟩
      · rw [hdone, List.append_assoc, List.singleton_append]
      · intro host' hhost' k' hk'
        rcases List.mem_append.mp hhost' with hold | hnew
        · exact hagree host' hold k' hk'
        · rw [List.mem_singleton.mp hnew, hk] at hk'
          cases hk'
          rw [← hsame, hleader]
    | differs hk hdiff =>
      obtain ⟨hfail, hleader, done, hdone, hagree⟩ := hplace
      refine .inr fun h => hdiff ?_
      rw [hleader, h _ (by rw [hdone]; exact List.mem_append_right _ (.head _)) _ hk]
    | fail => exact .inl ((hmem _).mpr (.inr rfl))
    | healthy =>
      obtain ⟨hfail, hleader, done, hdone, hagree⟩ := hplace
      rw [List.append_nil] at hdone
      exact .inl ⟨rfl, rfl, by simpa [hmem] using hfail, hdone ▸ hagree⟩
    | unhealthy => exact .inr ⟨rfl, hplace.imp_left fun h => (hmem _).mpr (.inl h)⟩

theorem Place.run (hall : all ≠ "") (hpc : s₀.pc = .arrived) (hown : ∀ op ∈ w, op.Own)
    (hrun : w.foldlM (Op.step route asked all) s₀ = some s) :
    s.servers = s₀.servers ∧ Place route asked s₀.servers w s.pc := by
  refine foldlM_inv_run (J := fun w s => (∀ op ∈ w, op.Own) →
    s.servers = s₀.servers ∧ Place route asked s₀.servers w s.pc) ?_ ?_ w s hrun hown
  · intro _
    rw [hpc]
    exact ⟨rfl, List.not_mem_nil⟩
  · intro w s op s' _ ih hstep hown
    obtain ⟨hw, hop⟩ := List.forall_mem_append.mp hown
    obtain ⟨hservers, hplace⟩ := ih hw
    rw [← hservers] at hplace ⊢
    exact Place.step hall (hop op (.head _)) hplace hstep

/-! ## The call comes to an end -/

/-- The steps that are left to a call that has its list. -/
def PC.work : PC → Nat
  | .asking _ rest => rest.length + 1
  | .unhealthy => 1
  | _ => 0

/-- A call that has read its list. -/
def PC.Listed : PC → Prop
  | .arrived | .led _ => False
  | _ => True

/-- Own steps use up the work, and nothing adds to it. -/
theorem work_step (hpc : s.pc.Listed) (hstep : op.step route asked all s = some s') :
    s'.pc.Listed ∧ (if op.Own then 1 else 0) + s'.pc.work ≤ s.pc.work := by
  rcases Op.does_of_step route asked all hstep with ⟨hnot, hsame⟩ | ⟨hop, -, hdoes⟩
  · rw [if_neg hnot, hsame]
    exact ⟨hpc, by omega⟩
  · rw [if_pos hop]
    clear hstep
    obtain ⟨servers, pc⟩ := s
    obtain ⟨servers', pc'⟩ := s'
    cases hdoes with
    | plain _ | lead _ | list => cases hpc
    | agrees _ _ _ | differs _ _ | fail =>
      refine ⟨trivial, ?_⟩
      simp only [PC.work, List.length_cons]
      omega
    | healthy | unhealthy => exact ⟨trivial, le_rfl⟩

/-- A call that has not answered can go on. -/
theorem exists_step (route : String → Option (Fin n)) (asked : Fin n) (all : String) (s : Ping n)
    (hpc : ∀ statusCode body, s.pc ≠ .answered statusCode body) :
    ∃ op : Op n, op.Own ∧ (op.step route asked all s).isSome := by
  obtain ⟨servers, pc⟩ := s
  cases pc with
  | arrived =>
    refine ⟨.lead, trivial, ?_⟩
    rw [Op.step, if_pos rfl]
    split <;> rfl
  | led leader => exact ⟨.list, trivial, rfl⟩
  | asking leader rest =>
    cases rest with
    | nil => exact ⟨.write, trivial, rfl⟩
    | cons host rest => exact ⟨.fail, trivial, rfl⟩
  | unhealthy => exact ⟨.write, trivial, rfl⟩
  | answered statusCode body => exact absurd rfl (hpc statusCode body)

end Call

/-- **What it means that `Ping` finds all servers well.**  Along every run, with views and members
    changing as they like:

    * if `Ping` returns nil, then the asked server has thought of some leader, has then read the
      list of the others, and each of these has named that very leader at a moment after that; the
      text that is sent is what it thought of at yet another moment;
    * if nothing changes during the call, `Ping` returns nil exactly if no request failed and
      everybody who could be reached agrees;
    * the call can always go on until it has answered, and once it has its list, it takes at most
      one step for each server in it and one more. -/
theorem ping_all_outcome {n : Nat} (route : String → Option (Fin n)) (asked : Fin n) (all : String)
    (hall : all ≠ "") (servers : Fin n → Server) (w : List (Op n)) (s : Ping n)
    (hrun : w.foldlM (Op.step route asked all) ⟨servers, .arrived⟩ = some s) :
    (∀ statusCode body, s.pc = .answered statusCode body →
      Api.ping (.reply statusCode "" body) = none →
        (∃ leader, Confirmed route asked all ⟨servers, .arrived⟩ w leader []) ∧
        ∃ i t, Moment route asked all ⟨servers, .arrived⟩ w i t ∧
          (t.servers asked).leader = body) ∧
    ((∀ op ∈ w, op.Own) → ∀ statusCode body, s.pc = .answered statusCode body →
      (Api.ping (.reply statusCode "" body) = none ↔
        .fail ∉ w ∧ Agree route asked servers (servers asked).otherMetaServersHTTP)) ∧
    ((∀ statusCode body, s.pc ≠ .answered statusCode body) →
      ∃ op : Op n, op.Own ∧ (op.step route asked all s).isSome) ∧
    (∀ leader rest, s.pc = .asking leader rest → ∀ (w' : List (Op n)) s',
      w'.foldlM (Op.step route asked all) s = some s' →
        w'.countP (fun op => op.Own) ≤ rest.length + 1) := by
  have hping : ∀ statusCode body,
      Api.ping (.reply statusCode "" body) = none ↔ statusCode = 200 := fun statusCode body => by
    rw [Api.ping]
    split_ifs with hcode <;> simp [hcode]
  refine ⟨fun statusCode body hpc hnil => ?_, fun hown statusCode body hpc => ?_,
    exists_step route asked all s, fun leader rest hpc w' s' hrun' => ?_⟩
  · have hknown := Known.run rfl hrun
    rw [hpc] at hknown
    obtain ⟨hbody, hconfirmed⟩ := hknown ((hping _ _).mp hnil)
    exact ⟨hconfirmed hall, hbody⟩
  · obtain ⟨-, hplace⟩ := Place.run hall rfl hown hrun
    rw [hpc] at hplace
    rw [hping]
    rcases hplace with ⟨hcode, -, hfail, hagree⟩ | ⟨hcode, hbad⟩
    · exact iff_of_true hcode ⟨hfail, hagree⟩
    · exact iff_of_false (by rw [hcode]; decide) fun h => hbad.elim h.1 fun hno => hno h.2
  · have hlisted : s.pc.Listed := by
      rw [hpc]
      trivial
    have hwork : w'.countP (fun op => op.Own) + s'.pc.work ≤ s.pc.work :=
      countP_add_work_le (J := fun s : Ping n => s.pc.Listed) (P := Op.Own)
        (fun _ _ _ hlisted hstep => work_step hlisted hstep) hlisted hrun'
    rw [hpc, PC.work] at hwork
    omega

/-- Three servers that know of each other and of no leader. -/
def leaderless (k : Fin 3) : Server where
  metaNodes :=
    [⟨1, "a:8091", "a:8089", []⟩, ⟨2, "b:8091", "b:8089", []⟩, ⟨3, "c:8091", "c:8089", []⟩]
  raftAddr := if k = 0 then "a:8089" else if k = 1 then "b:8089" else "c:8089"
  httpsEnabled := false
  leader := ""

def routeLeaderless (url : String) : Option (Fin 3) :=
  if url = "http://b:8091/ping" then some 1 else if url = "http://c:8091/ping" then some 2 else none

/-- The cluster is healthy. -/
theorem ping_all_outcome_leaderless : ∃ s,
    [.lead, .list, .reply, .reply, .write].foldlM (Op.step routeLeaderless 0 "true")
      ⟨leaderless, .arrived⟩ = some s ∧
    s.pc = .answered 200 "" ∧ Api.ping (.reply 200 "" "") = none ∧
    ∃ leader, Confirmed routeLeaderless 0 "true" ⟨leaderless, .arrived⟩
      [.lead, .list, .reply, .reply, .write] leader [] := by
  obtain ⟨s, hs⟩ := Option.isSome_iff_exists.mp (show
    ([.lead, .list, .reply, .reply, .write].foldlM (Op.step routeLeaderless 0 "true")
      ⟨leaderless, .arrived⟩).isSome by decide +kernel)
  have hpc : s.pc = .answered 200 "" := by
    have h : (([.lead, .list, .reply, .reply, .write].foldlM (Op.step routeLeaderless 0 "true")
      ⟨leaderless, .arrived⟩).map Ping.pc) = some (.answered 200 "") := by decide +kernel
    rw [hs] at h
    exact Option.some.inj h
  have := ping_all_outcome routeLeaderless 0 "true" (by decide) leaderless _ s hs
  exact ⟨s, hs, hpc, rfl, (this.1 200 "" hpc rfl).1⟩

end InfluxCluster.Meta.Health
