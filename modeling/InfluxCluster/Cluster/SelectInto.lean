/-
  `SELECT … INTO` (`cluster/statement_executor.go`): the loop of `executeSelectStatement` over the rows
  of a query, `writeInto` and `convertRowToPoints`.

  For a statement with a target each row is turned into points, which are handed to
  `WritePointsInto`, and at the end one result says how many were written.  TWO places decide about
  the two numbers.  `convertRowToPoints` drops every tuple of values that `models.NewPoint` refuses,
  one whose fields are all nil for example; and the loop adds `len(row.Values)` to its counter, whatever
  became of the tuples.

  So the count is that of the tuples, modulo 2^64 as it is an `int64` (`emit_ok`), and right
  exactly if none was refused, up to that modulus (`written_iff`).

  The emitter, `models.NewPoint` and `WritePointsInto` are parameters; the tags, the values other
  than times and counts, and the points are of any types.
-/
import InfluxCluster.Lib.Prog
import InfluxCluster.Meta.StoreFSM

namespace InfluxCluster.Cluster

open InfluxCluster.Lib
open InfluxCluster.Meta (Time unixNano)

/-! ## Rows -/

/-- An `interface{}` of a row. -/
inductive Cell (V : Type)
  | nil
  | time (t : Time)
  | int64 (n : Int)
  | other (v : V)
  deriving DecidableEq

/-- `models.Row`; `tags` are of any type. -/
structure Row (V T : Type) where
  name : String
  tags : T
  columns : List String
  values : List (List (Cell V))
  deriving DecidableEq

/-- `models.NewPoint`. -/
abbrev NewPoint (V T P : Type) :=
  String → T → List (String × Cell V) → Time → Except String P

/-- An `int64` that has come to be more than it can hold. -/
def int64 (n : Int) : Int := n.bmod 18446744073709551616

section Convert

variable {V T P : Type}

/-! ## `convertRowToPoints` -/

/-- `fieldIndexes[c] = i`. -/
def putIndex (fieldIndexes : List (String × Nat)) (c : String) (i : Nat) : List (String × Nat) :=
  fieldIndexes.filter (fun f => f.1 ≠ c) ++ [(c, i)]

/-- The loop over the columns: `timeIndex`, `none` for -1, and `fieldIndexes`. -/
def columnIndexes (columns : List String) : Option Nat × List (String × Nat) :=
  columns.zipIdx.foldl
    (fun indexes c =>
      if c.1 = "time" then (some c.2, indexes.2) else (indexes.1, putIndex indexes.2 c.1 c.2))
    (none, [])

/-- `vals`: the fields that are not nil; `none` is a panic, the index is out of range. -/
def tupleFields (v : List (Cell V)) : List (String × Nat) → Option (List (String × Cell V))
  | [] => some []
  | (fieldName, fieldIndex) :: fieldIndexes =>
    match v[fieldIndex]? with
    | none => none
    | some .nil => tupleFields v fieldIndexes
    | some val => (tupleFields v fieldIndexes).map ((fieldName, val) :: ·)

/-- The body of the loop over the tuples: the point, or the error of `NewPoint`; `none` is a panic,
    also when there is no time at the place of the time. -/
def tuplePoint (newPoint : NewPoint V T P) (name : String) (row : Row V T) (timeIndex : Nat)
    (fieldIndexes : List (String × Nat)) (v : List (Cell V)) : Option (Except String P) := do
  let vals ← tupleFields v fieldIndexes
  match v[timeIndex]? with
  | some (.time t) => return newPoint name row.tags vals t
  | _ => none

/-- The loop over the tuples: what cannot be stored is dropped. -/
def tuplePoints (point : List (Cell V) → Option (Except String P)) :
    List (List (Cell V)) → Option (List P)
  | [] => some []
  | v :: values =>
    match point v with
    | none => none
    | some (.error _) => tuplePoints point values
    | some (.ok p) => (tuplePoints point values).map (p :: ·)

/-- `convertRowToPoints`; `none` is a panic. -/
def convertRowToPoints (newPoint : NewPoint V T P) (measurementName : String) (row : Row V T) :
    Option (Except String (List P)) :=
  match columnIndexes row.columns with
  | (none, _) => some (.error "error finding time index in result")
  | (some timeIndex, fieldIndexes) =>
    (tuplePoints (tuplePoint newPoint measurementName row timeIndex fieldIndexes) row.values).map
      .ok

/-- `NewPoint` refuses the tuple. -/
def refuses (newPoint : NewPoint V T P) (name : String) (row : Row V T) (v : List (Cell V)) : Bool :=
  match columnIndexes row.columns with
  | (none, _) => false
  | (some timeIndex, fieldIndexes) =>
    match tuplePoint newPoint name row timeIndex fieldIndexes v with
    | some (.error _) => true
    | _ => false

/-- How many tuples of the row it refuses. -/
def refused (newPoint : NewPoint V T P) (name : String) (row : Row V T) : Nat :=
  row.values.countP (refuses newPoint name row)

theorem length_tuplePoints {point : List (Cell V) → Option (Except String P)}
    {values : List (List (Cell V))} {points : List P} (h : tuplePoints point values = some points) :
    points.length + values.countP (fun v => match point v with | some (.error _) => true | _ => false)
      = values.length := by
  induction values generalizing points with
  | nil =>
    cases h
    rfl
  | cons v values ih =>
    rw [tuplePoints] at h
    cases hv : point v with
    | none =>
      rw [hv] at h
      cases h
    | some r =>
      rw [hv] at h
      cases r with
      | error text =>
        have hrest := ih h
        rw [List.countP_cons_of_pos (by rw [hv]), List.length_cons]
        omega
      | ok p =>
        obtain ⟨rest, hrest, rfl⟩ := Option.map_eq_some_iff.mp h
        have hlen := ih hrest
        rw [List.countP_cons_of_neg (by rw [hv]; exact Bool.false_ne_true), List.length_cons,
          List.length_cons]
        omega

/-- **The points of a row, and the tuples that became none.** -/
theorem length_convertRowToPoints {newPoint : NewPoint V T P} {name : String} {row : Row V T}
    {points : List P} (h : convertRowToPoints newPoint name row = some (.ok points)) :
    points.length + refused newPoint name row = row.values.length := by
  unfold convertRowToPoints at h
  unfold refused refuses
  rcases hc : columnIndexes row.columns with ⟨_ | timeIndex, fieldIndexes⟩
  · rw [hc] at h
    cases h
  · rw [hc] at h
    obtain ⟨points', hpoints, he⟩ := Option.map_eq_some_iff.mp h
    cases he
    exact length_tuplePoints hpoints

theorem tupleFields_nil {v : List (Cell V)} {fieldIndexes : List (String × Nat)}
    (h : ∀ f ∈ fieldIndexes, v[f.2]? = some .nil) : tupleFields v fieldIndexes = some [] := by
  induction fieldIndexes with
  | nil => rfl
  | cons f fieldIndexes ih =>
    rw [tupleFields, h f List.mem_cons_self]
    exact ih fun f' hf' => h f' (List.mem_cons_of_mem f hf')

/-- The tuple has a time, and all its fields are nil. -/
def OnlyNil (row : Row V T) (v : List (Cell V)) : Prop :=
  ∃ timeIndex t, (columnIndexes row.columns).1 = some timeIndex ∧ v[timeIndex]? = some (.time t) ∧
    ∀ f ∈ (columnIndexes row.columns).2, v[f.2]? = some .nil

/-- Such a tuple is refused, if points without fields are. -/
theorem OnlyNil.refuses {newPoint : NewPoint V T P} {name : String} {row : Row V T}
    {v : List (Cell V)} (h : OnlyNil row v)
    (hnew : ∀ t, ∃ text, newPoint name row.tags [] t = .error text) :
    refuses newPoint name row v = true := by
  obtain ⟨timeIndex, t, hindex, htime, hnil⟩ := h
  obtain ⟨text, htext⟩ := hnew t
  have hpoint : tuplePoint newPoint name row timeIndex (columnIndexes row.columns).2 v
      = some (.error text) := by
    rw [tuplePoint, tupleFields_nil hnil, htime]
    exact congrArg some htext
  have hpair : columnIndexes row.columns = (some timeIndex, (columnIndexes row.columns).2) :=
    Prod.ext hindex rfl
  unfold Cluster.refuses
  rw [hpair]
  dsimp only
  rw [hpoint]

end Convert

/-! ## The loop -/

/-- `stmt.Target.Measurement`. -/
structure Target where
  database : String
  retentionPolicy : String
  name : String
  deriving DecidableEq

/-- `IntoWriteRequest`. -/
structure IntoWriteRequest (P : Type) where
  database : String
  retentionPolicy : String
  points : List P
  deriving DecidableEq

/-- `influxql.Result`. -/
structure QueryResult (V T : Type) where
  statementID : Int
  messages : List String
  series : List (Row V T)
  deriving DecidableEq

/-- How the call ends other than by returning nil. -/
inductive IntoStop
  | err (text : String)
  /-- "no database in target". -/
  | noDatabaseInTarget
  /-- `influxql.ErrQueryInterrupted`. -/
  | queryInterrupted
  | panicked
  deriving DecidableEq

/-- What the call has done: the requests that were handed over, in order, the results that were sent,
    and the two variables of the loop. -/
structure Emission (V T P : Type) where
  requests : List (IntoWriteRequest P)
  results : List (QueryResult V T)
  writeN : Int
  emitted : Bool
  deriving DecidableEq

/-- What the call depends on. -/
structure IntoContext (V T P : Type) where
  newPoint : NewPoint V T P
  /-- The error of the request that is handed over after so many others. -/
  writePointsInto : Nat → Option String
  /-- The interruption is seen at the `select` of this row, or of the end after so many rows. -/
  interrupted : Nat → Bool
  statementID : Int
  readOnly : Bool
  /-- `influxql.ReadOnlyWarning(stmt.String())`. -/
  readOnlyWarning : String
  /-- The tags of a row that has none. -/
  noTags : T

section Emit

variable {V T P : Type} (ctx : IntoContext V T P)

abbrev EmitM (V T P : Type) := EStateM IntoStop (Emission V T P)

/-- The measurement of the points. -/
def Target.measurement (target : Target) (row : Row V T) : String :=
  if target.name = "" then row.name else target.name

/-- A result is sent. -/
def Emission.send (r : QueryResult V T) (s : Emission V T P) : Emission V T P :=
  { s with results := s.results ++ [r] }

/-- The counter goes up. -/
def Emission.count (n : Nat) (s : Emission V T P) : Emission V T P :=
  { s with writeN := int64 (s.writeN + n) }

/-- `WritePointsInto`: the request is handed over, and there may be an error. -/
def handOver (r : IntoWriteRequest P) : EmitM V T P Unit := fun s =>
  let s' := { s with requests := s.requests ++ [r] }
  match ctx.writePointsInto s.requests.length with
  | some text => .error (.err text) s'
  | none => .ok () s'

/-- `writeInto`. -/
def writeInto (target : Target) (row : Row V T) : EmitM V T P Unit := do
  if target.database = "" then throw .noDatabaseInTarget
  match convertRowToPoints ctx.newPoint (target.measurement row) row with
  | none => throw .panicked
  | some (.error text) => throw (.err text)
  | some (.ok points) => handOver ctx ⟨target.database, target.retentionPolicy, points⟩

/-- The loop over what the emitter gives, after `n` rows; at the end of the list it gives nil. -/
def emitLoop (target : Option Target) : Nat → List (Except String (Row V T)) → EmitM V T P Unit
  | n, [] => if ctx.interrupted n then throw .queryInterrupted else pure ()
  | _, .error text :: _ => throw (.err text)
  | n, .ok row :: rows =>
    match target with
    | some into => do
      writeInto ctx into row
      modify (Emission.count row.values.length)
      emitLoop target (n + 1) rows
    | none => do
      if ctx.interrupted n then throw .queryInterrupted
      modify fun s => { s.send ⟨ctx.statementID, [], [row]⟩ with emitted := true }
      emitLoop target (n + 1) rows

/-- The result of a statement with a target. -/
def writtenResult (writeN : Int) : QueryResult V T :=
  { statementID := ctx.statementID
    messages := if ctx.readOnly then [ctx.readOnlyWarning] else []
    series := [{ name := "result"
                 tags := ctx.noTags
                 columns := ["time", "written"]
                 values := [[.time (unixNano 0), .int64 writeN]] }] }

/-- The call, from the loop on. -/
def emitRows (target : Option Target) (rows : List (Except String (Row V T))) : EmitM V T P Unit := do
  emitLoop ctx target 0 rows
  let s ← get
  match target with
  | some _ => set (s.send (writtenResult ctx s.writeN))
  | none => if s.emitted then pure () else set (s.send ⟨ctx.statementID, [], []⟩)

/-- Before the loop. -/
def Emission.start : Emission V T P := { requests := [], results := [], writeN := 0, emitted := false }

/-! ## What is counted, and what is handed over -/

/-- The points that were handed over. -/
def Emission.handed (s : Emission V T P) : Nat := (s.requests.map fun r => r.points.length).sum

/-- The tuples of the rows. -/
def tuples (rows : List (Row V T)) : Nat := (rows.map fun row => row.values.length).sum

/-- The tuples of the rows that `NewPoint` refuses. -/
def allRefused (into : Target) (rows : List (Row V T)) : Nat :=
  (rows.map fun row => refused ctx.newPoint (into.measurement row) row).sum

theorem handOver_ok {r : IntoWriteRequest P} {s s' : Emission V T P}
    (h : handOver ctx r s = .ok () s') : s' = { s with requests := s.requests ++ [r] } := by
  unfold handOver at h
  cases hw : ctx.writePointsInto s.requests.length with
  | some text =>
    rw [hw] at h
    cases h
  | none =>
    rw [hw] at h
    cases h
    rfl

/-- One row of a statement with a target: a request with the tuples that are not refused. -/
theorem writeInto_ok {into : Target} {row : Row V T} {s s' : Emission V T P}
    (h : writeInto ctx into row s = .ok () s') :
    ∃ r : IntoWriteRequest P, s' = { s with requests := s.requests ++ [r] } ∧
      r.points.length + refused ctx.newPoint (into.measurement row) row = row.values.length := by
  unfold writeInto at h
  by_cases hdb : into.database = ""
  · rw [if_pos hdb] at h
    cases h
  · rw [if_neg hdb] at h
    cases hc : convertRowToPoints ctx.newPoint (into.measurement row) row with
    | none =>
      rw [hc] at h
      cases h
    | some r =>
      rw [hc] at h
      cases r with
      | error text => cases h
      | ok points => exact ⟨_, handOver_ok ctx h, length_convertRowToPoints hc⟩

/-- **The loop of a statement with a target**: the counter goes up by the tuples of the rows, and the
    tuples that are not refused are handed over. -/
theorem emitLoop_ok {into : Target} {n : Nat} {rows : List (Row V T)} {s s' : Emission V T P}
    (h : emitLoop ctx (some into) n (rows.map .ok) s = .ok () s') (hs : int64 s.writeN = s.writeN) :
    s'.writeN = int64 (s.writeN + tuples rows) ∧
      s'.handed + allRefused ctx into rows = s.handed + tuples rows ∧ s'.results = s.results := by
  induction rows generalizing n s with
  | nil =>
    rw [List.map_nil, emitLoop] at h
    by_cases hi : ctx.interrupted n
    · rw [if_pos hi] at h
      cases h
    · rw [if_neg hi] at h
      cases h
      refine ⟨?_, rfl, rfl⟩
      show s'.writeN = int64 (s'.writeN + 0)
      rw [Int.add_zero, hs]
  | cons row rows ih =>
    rw [List.map_cons, emitLoop] at h
    obtain ⟨_, s₁, hwrite, hrest⟩ := ok_of_bind h
    obtain ⟨r, rfl, hr⟩ := writeInto_ok ctx hwrite
    have hrange : int64 (int64 (s.writeN + row.values.length)) = int64 (s.writeN + row.values.length) :=
      Int.bmod_bmod
    obtain ⟨hcount, hhanded, hresults⟩ := ih hrest hrange
    refine ⟨?_, ?_, hresults⟩
    · show s'.writeN = int64 (s.writeN + ((row.values.length + tuples rows : Nat) : Int))
      rw [hcount, Int.natCast_add, ← Int.add_assoc]
      exact Int.bmod_add_bmod
    · have hsplit : s'.handed + allRefused ctx into rows
          = ((s.requests ++ [r]).map fun r => r.points.length).sum + tuples rows := hhanded
      rw [List.map_append, List.sum_append] at hsplit
      show s'.handed + (refused ctx.newPoint (into.measurement row) row + allRefused ctx into rows)
        = s.handed + (row.values.length + tuples rows)
      have hone : ([r].map fun r => r.points.length).sum = r.points.length := Nat.add_zero _
      rw [hone] at hsplit
      unfold Emission.handed at hsplit ⊢
      omega

/-- **What the call reports, and what it has handed over.** -/
theorem emit_ok {into : Target} {rows : List (Row V T)} {s : Emission V T P}
    (h : emitRows ctx (some into) (rows.map .ok) Emission.start = .ok () s) :
    s.results = [writtenResult ctx (int64 (tuples rows))] ∧
      s.handed + allRefused ctx into rows = tuples rows := by
  unfold emitRows at h
  obtain ⟨_, s₁, hloop, hrest⟩ := ok_of_bind h
  obtain ⟨hcount, hhanded, hresults⟩ := emitLoop_ok ctx hloop rfl
  cases hrest
  have hstart : (Emission.start : Emission V T P).writeN = 0 := rfl
  rw [hstart, Int.zero_add] at hcount
  constructor
  · show s₁.results ++ [writtenResult ctx s₁.writeN] = _
    rw [hresults, hcount]
    rfl
  · have hzero : (Emission.start : Emission V T P).handed = 0 := rfl
    rw [hzero, Nat.zero_add] at hhanded
    exact hhanded

/-! ## The report -/

/-- The count in the column "written". -/
def QueryResult.written (r : QueryResult V T) : Option Int :=
  match r.series with
  | [row] =>
    match row.values with
    | [[_, .int64 n]] => some n
    | _ => none
  | _ => none

/-- The last result says how many points were handed over. -/
def Emission.ReportsWritten (s : Emission V T P) : Prop :=
  ∃ r, s.results.getLast? = some r ∧ r.written = some (s.handed : Int)

/-- A count that wraps around is that of a part if the rest is a multiple of the modulus. -/
theorem int64_eq_iff {handed rest : Nat} :
    int64 ((handed + rest : Nat) : Int) = handed ↔
      18446744073709551616 ∣ rest ∧ handed < 9223372036854775808 := by
  unfold int64
  constructor
  · intro h
    have hlt : ((handed + rest : Nat) : Int).bmod 18446744073709551616
        < (18446744073709551616 + 1) / 2 := Int.bmod_lt (by decide)
    have hdvd : (18446744073709551616 : Int) ∣ ((handed + rest : Nat) : Int).bmod 18446744073709551616
        - ((handed + rest : Nat) : Int) := Int.dvd_bmod_sub_self
    rw [h] at hlt hdvd
    omega
  · rintro ⟨⟨k, rfl⟩, hlt⟩
    have hbmod := Int.add_mul_bmod_self_left (handed : Int) 18446744073709551616 k
    rw [Int.natCast_add, Int.natCast_mul]
    refine Eq.trans hbmod (Int.bmod_eq_of_le ?_ ?_)
    · omega
    · omega

/-- **The report is right exactly if no tuple was refused**; or so many that the counter, an `int64`,
    has come around.  The tuples without a value are among those that are. -/
theorem written_iff
    (hnew : ∀ name tags t, ∃ text, ctx.newPoint name tags [] t = .error text) {into : Target}
    {rows : List (Row V T)} {s : Emission V T P}
    (h : emitRows ctx (some into) (rows.map .ok) Emission.start = .ok () s) :
    (s.ReportsWritten ↔
      18446744073709551616 ∣ allRefused ctx into rows ∧
        tuples rows < 9223372036854775808 + allRefused ctx into rows) ∧
      ∀ row ∈ rows, ∀ v ∈ row.values, OnlyNil row v →
        refuses ctx.newPoint (into.measurement row) row v = true := by
  obtain ⟨hresults, hhanded⟩ := emit_ok ctx h
  have hreport : s.ReportsWritten ↔ int64 (tuples rows) = s.handed := by
    unfold Emission.ReportsWritten
    rw [hresults]
    constructor
    · rintro ⟨r, hr, hwritten⟩
      cases hr
      exact Option.some.inj hwritten
    · intro he
      exact ⟨_, rfl, congrArg some he⟩
  refine ⟨?_, fun row _ v _ hnil => hnil.refuses (hnew (into.measurement row) row.tags)⟩
  rw [hreport, ← hhanded, int64_eq_iff]
  omega

end Emit

/-- Points are times, and one without fields is refused; nothing else goes wrong. -/
def needsFields : IntoContext Unit Unit Time where
  newPoint _ _ vals t := if vals.isEmpty then .error "Point without fields is unsupported" else .ok t
  writePointsInto _ := none
  interrupted _ := false
  statementID := 0
  readOnly := false
  readOnlyWarning := ""
  noTags := ()

/-- `SELECT … INTO db.rp.m`. -/
def intoM : Target := { database := "db", retentionPolicy := "rp", name := "m" }

/-- Two buckets, both with a mean. -/
def denseRow : Row Unit Unit :=
  { name := "cpu", tags := (), columns := ["time", "mean"]
    values := [[.time 10, .other ()], [.time 20, .other ()]] }

/-- Two buckets, the second without points. -/
def sparseRow : Row Unit Unit :=
  { denseRow with values := [[.time 10, .other ()], [.time 20, .nil]] }

theorem dense_row_reported :
    ∃ s, emitRows needsFields (some intoM) ([denseRow].map .ok) Emission.start = .ok () s ∧
      s.ReportsWritten := by
  have hrun : ∃ s, emitRows needsFields (some intoM) ([denseRow].map .ok) Emission.start = .ok () s :=
    ⟨_, rfl⟩
  obtain ⟨s, hs⟩ := hrun
  refine ⟨s, hs, (written_iff needsFields (fun _ _ _ => ⟨_, rfl⟩) hs).1.mpr ?_⟩
  decide

/-- **One point is handed over, and two are reported.** -/
theorem sparse_row_miscounted :
    ∃ s, emitRows needsFields (some intoM) ([sparseRow].map .ok) Emission.start = .ok () s ∧
      s.handed = 1 ∧ (s.results.map QueryResult.written) = [some 2] ∧ ¬ s.ReportsWritten := by
  refine ⟨_, rfl, rfl, rfl, ?_⟩
  rintro ⟨r, hr, hwritten⟩
  cases hr
  revert hwritten
  decide

end InfluxCluster.Cluster
