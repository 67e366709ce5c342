/-
  The names in a statement (`cluster/statement_executor.go`: `NormalizeStatement`,
  `normalizeMeasurement`; and `writeInto`, which relies on them).

  Before a statement is executed, every measurement in it is given its database and its retention
  policy, where the statement leaves them open.  What a measurement DENOTES is a place, a database and
  a policy, that depends on the database of the query and on the metadata (`place`).  After
  normalizing it no longer depends on the query: the PLACE stands in the statement
  (`normalize_preserves`).  So what a `SELECT INTO` writes goes to the place of its target, and
  "no database in target" is never said (`into_writes_to_place`).

  Normalizing stops at the first measurement that denotes nothing.  Those before it stay normalized,
  and that one may have got its database: the statement is changed although it was refused.

  A statement is the list of its measurements in the order of `influxql.WalkFunc`.
-/
import InfluxCluster.Cluster.Statements
import InfluxCluster.Cluster.SelectInto

namespace InfluxCluster.Cluster.Statements

open InfluxCluster.Lib

/-- `influxql.Measurement`; of a regular expression it matters whether there is one. -/
structure Measurement where
  database : String
  retentionPolicy : String
  name : String
  hasRegex : Bool
  isTarget : Bool
  deriving DecidableEq

section Normalize

variable (lookup : String → Option DatabaseInfo)

/-- `normalizeMeasurement`: the error, and what has become of the measurement. -/
def normalizeMeasurement (defaultDatabase : String) (m : Measurement) :
    Option String × Measurement :=
  -- targets can have blank names, which means the name that it came from
  if m.isTarget = false ∧ m.name = "" ∧ m.hasRegex = false then (some "invalid measurement", m)
  else
    let m := if m.database = "" then { m with database := defaultDatabase } else m
    if m.database = "" then (some "database name required", m)
    else
      match lookup m.database with
      | none => (some (databaseNotFound m.database), m)
      | some di =>
        if m.retentionPolicy = "" then
          if di.defaultRetentionPolicy = "" then
            (some ("default retention policy not set for: " ++ di.name), m)
          else (none, { m with retentionPolicy := di.defaultRetentionPolicy })
        else (none, m)

/-- `NormalizeStatement`: after an error the rest is walked over and left alone. -/
def normalizeStatement (defaultDatabase : String) :
    List Measurement → Option String × List Measurement
  | [] => (none, [])
  | m :: ms =>
    match normalizeMeasurement lookup defaultDatabase m with
    | (some err, m') => (some err, m' :: ms)
    | (none, m') =>
      ((normalizeStatement defaultDatabase ms).1, m' :: (normalizeStatement defaultDatabase ms).2)

/-! ## Places -/

/-- The measurement is a target, or names something. -/
def Measurement.Valid (m : Measurement) : Prop :=
  m.isTarget = true ∨ m.name ≠ "" ∨ m.hasRegex = true

/-- The database that a measurement is in. -/
def Measurement.databaseIn (defaultDatabase : String) (m : Measurement) : String :=
  if m.database = "" then defaultDatabase else m.database

/-- The policy that a measurement is in. -/
def Measurement.policyIn (di : DatabaseInfo) (m : Measurement) : String :=
  if m.retentionPolicy = "" then di.defaultRetentionPolicy else m.retentionPolicy

/-- **The place that a measurement denotes** in a query on this database: a database of the metadata,
    and the policy that is named or else the default one. -/
def Measurement.place (defaultDatabase : String) (m : Measurement) : Option (String × String) :=
  if m.databaseIn defaultDatabase = "" then none
  else
    match lookup (m.databaseIn defaultDatabase) with
    | none => none
    | some di =>
      if m.policyIn di = "" then none else some (m.databaseIn defaultDatabase, m.policyIn di)

/-- The measurement with its place written into it. -/
def Measurement.at (m : Measurement) (place : String × String) : Measurement :=
  { m with database := place.1, retentionPolicy := place.2 }

variable {lookup} {defaultDatabase : String}

/-- What a place is. -/
theorem place_eq_some_iff {m : Measurement} {p : String × String} :
    m.place lookup defaultDatabase = some p ↔
      p.1 ≠ "" ∧ p.2 ≠ "" ∧ p.1 = m.databaseIn defaultDatabase ∧
        ∃ di, lookup p.1 = some di ∧ p.2 = m.policyIn di := by
  obtain ⟨database, policy⟩ := p
  rw [Measurement.place]
  constructor
  · intro h
    split at h
    · cases h
    · next hdb =>
      split at h
      · cases h
      · next di hdi =>
        split at h
        · cases h
        · next hrp =>
          cases h
          exact ⟨hdb, hrp, rfl, di, hdi, rfl⟩
  · rintro ⟨hdb, hrp, rfl, di, hdi, rfl⟩
    rw [if_neg hdb, hdi]
    exact if_neg hrp

/-- **One measurement**: it is refused, or gets its place. -/
theorem normalizeMeasurement_none_iff {m m' : Measurement} :
    normalizeMeasurement lookup defaultDatabase m = (none, m') ↔
      m.Valid ∧ ∃ p, m.place lookup defaultDatabase = some p ∧ m' = m.at p := by
  have hdatabase : (if m.database = "" then { m with database := defaultDatabase } else m)
      = { m with database := m.databaseIn defaultDatabase } := by
    rw [Measurement.databaseIn]
    split <;> rfl
  by_cases hvalid : m.isTarget = false ∧ m.name = "" ∧ m.hasRegex = false
  · rw [normalizeMeasurement, if_pos hvalid]
    refine iff_of_false (fun h => by cases h) ?_
    rintro ⟨htarget | hname | hregex, -⟩
    · exact Bool.noConfusion (htarget.symm.trans hvalid.1)
    · exact hname hvalid.2.1
    · exact Bool.noConfusion (hregex.symm.trans hvalid.2.2)
  · have hvalid' : m.Valid := by
      rw [Measurement.Valid]
      by_contra hno
      simp only [not_or, not_not, Bool.not_eq_true] at hno
      exact hvalid hno
    rw [normalizeMeasurement, if_neg hvalid, hdatabase, and_iff_right hvalid', Measurement.place]
    dsimp only
    by_cases hdb : m.databaseIn defaultDatabase = ""
    · rw [if_pos hdb, if_pos hdb]
      exact iff_of_false (fun h => by cases h) fun ⟨p, hp, _⟩ => by cases hp
    · rw [if_neg hdb, if_neg hdb]
      cases lookup (m.databaseIn defaultDatabase) with
      | none => exact iff_of_false (fun h => by cases h) fun ⟨p, hp, _⟩ => by cases hp
      | some di =>
        dsimp only
        rw [Measurement.policyIn]
        by_cases hrp : m.retentionPolicy = ""
        · rw [if_pos hrp, if_pos hrp]
          by_cases hdefault : di.defaultRetentionPolicy = ""
          · rw [if_pos hdefault, if_pos hdefault]
            exact iff_of_false (fun h => by cases h) fun ⟨p, hp, _⟩ => by cases hp
          · rw [if_neg hdefault, if_neg hdefault]
            constructor
            · intro h
              cases h
              exact ⟨_, rfl, rfl⟩
            · rintro ⟨p, hp, rfl⟩
              cases hp
              rfl
        · rw [if_neg hrp, if_neg hrp, if_neg hrp]
          constructor
          · intro h
            cases h
            exact ⟨_, rfl, rfl⟩
          · rintro ⟨p, hp, rfl⟩
            cases hp
            rfl

/-! ## Statements -/

/-- A place that is written down is the place in every query. -/
theorem place_at {m : Measurement} {p : String × String}
    (h : m.place lookup defaultDatabase = some p) (otherDatabase : String) :
    (m.at p).place lookup otherDatabase = some p := by
  obtain ⟨hdb, hrp, -, di, hdi, -⟩ := place_eq_some_iff.mp h
  exact place_eq_some_iff.mpr ⟨hdb, hrp, (if_neg hdb).symm, di, hdi, (if_neg hrp).symm⟩

/-- A measurement with its place in it is left as it is. -/
theorem normalizeMeasurement_at {m : Measurement} {p : String × String} (hvalid : m.Valid)
    (h : m.place lookup defaultDatabase = some p) (otherDatabase : String) :
    normalizeMeasurement lookup otherDatabase (m.at p) = (none, m.at p) :=
  normalizeMeasurement_none_iff.mpr ⟨hvalid, p, place_at h otherDatabase, rfl⟩

/-- **A statement is normalized exactly if all its measurements are**, each to its place. -/
theorem normalizeStatement_none_iff {ms ms' : List Measurement} :
    normalizeStatement lookup defaultDatabase ms = (none, ms') ↔
      List.Forall₂ (fun m m' => m.Valid ∧ ∃ p, m.place lookup defaultDatabase = some p ∧
        m' = m.at p) ms ms' := by
  induction ms generalizing ms' with
  | nil =>
    rw [List.forall₂_nil_left_iff, normalizeStatement]
    exact ⟨fun h => (congrArg Prod.snd h).symm, fun h => by rw [h]⟩
  | cons m ms ih =>
    rw [normalizeStatement]
    cases hm : normalizeMeasurement lookup defaultDatabase m with
    | mk err m₁ =>
      cases err with
      | some err =>
        refine iff_of_false (fun h => by cases h) fun h => ?_
        obtain ⟨m', ms'', hmm', -, rfl⟩ := List.forall₂_cons_left_iff.mp h
        have := normalizeMeasurement_none_iff.mpr hmm'
        rw [hm] at this
        cases this
      | none =>
        dsimp only
        constructor
        · intro h
          obtain ⟨herr, rfl⟩ := Prod.mk.inj h
          exact .cons (normalizeMeasurement_none_iff.mp hm) (ih.mp (Prod.ext herr rfl))
        · intro h
          obtain ⟨m', ms'', hmm', hrest, rfl⟩ := List.forall₂_cons_left_iff.mp h
          have hsame := hm.symm.trans (normalizeMeasurement_none_iff.mpr hmm')
          rw [ih.mpr hrest, (Prod.mk.inj hsame).2]

/-- The measurement that is refused, with those before it and behind it. -/
theorem normalizeStatement_some {ms ms' : List Measurement} {err : String}
    (h : normalizeStatement lookup defaultDatabase ms = (some err, ms')) :
    ∃ before m behind before', ms = before ++ m :: behind ∧
      normalizeStatement lookup defaultDatabase before = (none, before') ∧
      (normalizeMeasurement lookup defaultDatabase m).1 = some err ∧
      ms' = before' ++ (normalizeMeasurement lookup defaultDatabase m).2 :: behind := by
  induction ms generalizing ms' with
  | nil => cases h
  | cons m ms ih =>
    rw [normalizeStatement] at h
    cases hm : normalizeMeasurement lookup defaultDatabase m with
    | mk e m₁ =>
      rw [hm] at h
      cases e with
      | some e =>
        cases h
        exact ⟨[], m, ms, [], rfl, rfl, by rw [hm], by rw [hm]; rfl⟩
      | none =>
        obtain ⟨herr, rfl⟩ := Prod.mk.inj h
        obtain ⟨before, m₂, behind, before', rfl, hbefore, hm₂, hrest⟩ := ih (Prod.ext herr rfl)
        refine ⟨m :: before, m₂, behind, m₁ :: before', rfl, ?_, hm₂, ?_⟩
        · rw [normalizeStatement, hm, hbefore]
        · exact congrArg (m₁ :: ·) hrest

/-- **Normalizing keeps what a statement denotes.**  If it succeeds, every measurement has a place of
    the metadata, and denotes it afterwards in every query, where it denoted it in this one; and
    normalizing it again for any query changes nothing.  If it fails, the measurements before the
    first one that is refused have been normalized, and those behind it are as they were. -/
theorem normalize_preserves (ms : List Measurement) :
    (∀ ms', normalizeStatement lookup defaultDatabase ms = (none, ms') →
      ∀ otherDatabase,
        ms'.map (Measurement.place lookup otherDatabase)
          = ms.map (Measurement.place lookup defaultDatabase) ∧
        (∀ m' ∈ ms', (m'.place lookup otherDatabase).isSome) ∧
        normalizeStatement lookup otherDatabase ms' = (none, ms')) ∧
    (∀ err ms', normalizeStatement lookup defaultDatabase ms = (some err, ms') →
      ∃ before m behind before', ms = before ++ m :: behind ∧
        normalizeStatement lookup defaultDatabase before = (none, before') ∧
        (normalizeMeasurement lookup defaultDatabase m).1 = some err ∧
        ms' = before' ++ (normalizeMeasurement lookup defaultDatabase m).2 :: behind) := by
  refine ⟨fun ms' h otherDatabase => ?_, fun err ms' h => normalizeStatement_some h⟩
  have hall := normalizeStatement_none_iff.mp h
  clear h
  induction hall with
  | nil => exact ⟨rfl, fun m' hm' => absurd hm' List.not_mem_nil, rfl⟩
  | cons hm hrest ih =>
    obtain ⟨hvalid, p, hp, rfl⟩ := hm
    obtain ⟨hplaces, hsome, hagain⟩ := ih
    have hat := place_at hp otherDatabase
    refine ⟨?_, List.forall_mem_cons.mpr ⟨by rw [hat]; rfl, hsome⟩, ?_⟩
    · rw [List.map_cons, List.map_cons, hplaces, hat, hp]
    · rw [normalizeStatement, normalizeMeasurement_at hvalid hp, hagain]

/-! ## `SELECT INTO` -/

section Into

variable {V Tag Pt : Type} (ctx : IntoContext V Tag Pt)

/-- Everything that was handed over is for this place. -/
def HandedTo (p : String × String) (s : Emission V Tag Pt) : Prop :=
  ∀ r ∈ s.requests, (r.database, r.retentionPolicy) = p

/-- The statement ends, and not because of its target. -/
def StoppedAt (p : String × String) (stop : IntoStop) (s : Emission V Tag Pt) : Prop :=
  stop ≠ .noDatabaseInTarget ∧ HandedTo p s

/-- The place of a target. -/
def placeOf (into : Target) : String × String := (into.database, into.retentionPolicy)

variable {ctx} {into : Target}

theorem triple_handOver {points : List Pt} :
    Triple (HandedTo (placeOf into)) (handOver ctx ⟨into.database, into.retentionPolicy, points⟩)
      (fun _ => HandedTo (placeOf into)) (StoppedAt (placeOf into)) := by
  intro s hs
  have hall : HandedTo (placeOf into)
      { s with requests := s.requests ++ [⟨into.database, into.retentionPolicy, points⟩] } :=
    List.forall_mem_append.mpr ⟨hs, List.forall_mem_singleton.mpr rfl⟩
  rw [handOver]
  cases ctx.writePointsInto s.requests.length with
  | none => exact hall
  | some text => exact ⟨IntoStop.noConfusion, hall⟩

/-- One row goes to the place of the target. -/
theorem triple_writeInto (hinto : into.database ≠ "") (row : Cluster.Row V Tag) :
    Triple (HandedTo (placeOf into)) (writeInto ctx into row)
      (fun _ => HandedTo (placeOf into)) (StoppedAt (placeOf into)) := by
  intro s hs
  rw [writeInto, if_neg hinto]
  cases convertRowToPoints ctx.newPoint (into.measurement row) row with
  | none => exact ⟨IntoStop.noConfusion, hs⟩
  | some points =>
    cases points with
    | error text => exact ⟨IntoStop.noConfusion, hs⟩
    | ok points => exact triple_handOver s hs

/-- All rows do. -/
theorem triple_emitLoop (into : Target) (hinto : into.database ≠ "")
    (rows : List (Except String (Cluster.Row V Tag))) (n : Nat) :
    Triple (HandedTo (placeOf into)) (emitLoop ctx (some into) n rows)
      (fun _ => HandedTo (placeOf into)) (StoppedAt (placeOf into)) := by
  induction rows generalizing n with
  | nil =>
    intro s hs
    rw [emitLoop]
    by_cases hi : ctx.interrupted n
    · rw [if_pos hi]
      exact ⟨IntoStop.noConfusion, hs⟩
    · rw [if_neg hi]
      exact hs
  | cons row rows ih =>
    cases row with
    | error text =>
      intro s hs
      exact ⟨IntoStop.noConfusion, hs⟩
    | ok row =>
      rw [emitLoop]
      refine (triple_writeInto hinto row).bind fun _ => ?_
      have hcount : Triple (HandedTo (placeOf into))
          (modify (Emission.count row.values.length) : EmitM V Tag Pt Unit)
          (fun _ => HandedTo (placeOf into)) (StoppedAt (placeOf into)) := fun s hs => hs
      exact hcount.bind fun _ => ih (n + 1)

/-- **What is selected into a target goes to the place that the statement denotes.**  Let a statement
    have been normalized, and one of its measurements be the target.  Whatever the rows are, and
    however the call ends, all requests that it hands over have the database and the policy that
    the target has denoted in the query, and the call does not end for want of a database. -/
theorem into_writes_to_place (ctx : IntoContext V Tag Pt) {ms ms' : List Measurement}
    (h : normalizeStatement lookup defaultDatabase ms = (none, ms')) {m m' : Measurement}
    (hm : (m, m') ∈ ms.zip ms') (rows : List (Except String (Cluster.Row V Tag))) :
    ∃ p, m.place lookup defaultDatabase = some p ∧
      HandedTo p (final (emitRows ctx (some ⟨m'.database, m'.retentionPolicy, m'.name⟩) rows
        Emission.start)) ∧
      failure (emitRows ctx (some ⟨m'.database, m'.retentionPolicy, m'.name⟩) rows Emission.start)
        ≠ some .noDatabaseInTarget := by
  obtain ⟨-, p, hp, rfl⟩ := (List.forall₂_iff_zip.mp (normalizeStatement_none_iff.mp h)).2 hm
  have hdatabase : p.1 ≠ "" := (place_eq_some_iff.mp hp).1
  refine ⟨p, hp, ?_⟩
  have hrows : Triple (HandedTo p) (emitRows ctx (some ⟨p.1, p.2, m.name⟩) rows)
      (fun _ => HandedTo p) (StoppedAt p) := by
    have hloop : Triple (HandedTo p) (emitLoop ctx (some ⟨p.1, p.2, m.name⟩) 0 rows)
        (fun _ => HandedTo p) (StoppedAt p) := triple_emitLoop ⟨p.1, p.2, m.name⟩ hdatabase rows 0
    exact hloop.bind fun _ s hs => hs
  have hends := hrows Emission.start fun r hr => absurd hr List.not_mem_nil
  show HandedTo p (final (emitRows ctx (some ⟨p.1, p.2, m.name⟩) rows Emission.start)) ∧
    failure (emitRows ctx (some ⟨p.1, p.2, m.name⟩) rows Emission.start) ≠ _
  cases hrun : emitRows ctx (some ⟨p.1, p.2, m.name⟩) rows Emission.start with
  | ok u s =>
    rw [hrun] at hends
    exact ⟨hends, fun hno => by cases hno⟩
  | error stop s =>
    rw [hrun] at hends
    exact ⟨hends.2, fun hno => hends.1 (Option.some.inj hno)⟩

end Into

end Normalize

/-- One database, with a default policy. -/
def oneDatabase (name : String) : Option DatabaseInfo :=
  if name = "db" then
    some { name := "db", defaultRetentionPolicy := "rp", retentionPolicies := [],
           continuousQueries := [] }
  else none

/-- `SELECT … INTO db..copy FROM m`, in a query on `db`. -/
def selectInto : List Measurement :=
  [{ database := "db", retentionPolicy := "", name := "copy", hasRegex := false, isTarget := true },
    { database := "", retentionPolicy := "", name := "m", hasRegex := false, isTarget := false }]

/-- The same, normalized. -/
def selectIntoNormal : List Measurement :=
  [{ database := "db", retentionPolicy := "rp", name := "copy", hasRegex := false, isTarget := true },
    { database := "db", retentionPolicy := "rp", name := "m", hasRegex := false, isTarget := false }]

/-- A query on another database finds the same places, and has nothing to add. -/
theorem normalize_preserves_selectInto :
    normalizeStatement oneDatabase "db" selectInto = (none, selectIntoNormal) ∧
      selectIntoNormal.map (Measurement.place oneDatabase "other")
        = selectInto.map (Measurement.place oneDatabase "db") ∧
      normalizeStatement oneDatabase "other" selectIntoNormal = (none, selectIntoNormal) := by
  have hnormal : normalizeStatement oneDatabase "db" selectInto = (none, selectIntoNormal) := by
    decide
  obtain ⟨hplaces, -, hagain⟩ := (normalize_preserves selectInto).1 _ hnormal "other"
  exact ⟨hnormal, hplaces, hagain⟩

/-- The target is written to where the statement says. -/
theorem into_writes_to_place_selectInto :
    normalizeStatement oneDatabase "db" selectInto = (none, selectIntoNormal) ∧
      HandedTo ("db", "rp") (final (emitRows needsFields (some ⟨"db", "rp", "copy"⟩) [.ok denseRow]
        Emission.start)) := by
  have hnormal : normalizeStatement oneDatabase "db" selectInto = (none, selectIntoNormal) := by
    decide
  obtain ⟨p, hp, hhanded, -⟩ := into_writes_to_place needsFields hnormal List.mem_cons_self
    [.ok denseRow]
  cases hp
  exact ⟨hnormal, hhanded⟩

end InfluxCluster.Cluster.Statements
