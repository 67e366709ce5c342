/-
  The environment on top of the configuration file: `applyEnvOverrides`.

  Both binaries walk their configuration by reflection and let the environment replace what the
  file said.  The walk reads a tree of structs, pointers, slices and leaves, and it WRITES THROUGH
  that tree: the leaves are places in memory, and a slice element is visited twice under two names
  (`GRAPHITE_...` and then `GRAPHITE_0_...`), the second visit seeing what the first one wrote.  So
  the tree is modelled as a shape whose leaves are addresses, and the values are a store that the
  walk changes.  An error stops the walk where it is; what was written before stays.

  The walk is one recursion over three kinds of nodes.  What it comes to is a LIST OF VISITS, one
  leaf under one name each (`Spec.visits`), and the code does nothing but visit them in order
  (`applyEnvOverrides_eq_visits`).  Everything else is then said of that list: the last visit with a
  value wins, a second walk changes nothing, and a value that does not parse leaves exactly the
  visits before it.

  There are two copies of the function, of `influxd` and of `influxd-meta`.  They differ in two
  places: the copy of `influxd-meta` has no visit of a slice element under the name without the
  index, and no case for unsigned integers.
-/
import InfluxCluster.Lib.Prog
import Mathlib.Data.List.Basic

namespace InfluxCluster.Config

open InfluxCluster.Lib

/-! ## The configuration as reflection sees it -/

/-- The kinds `applyEnvOverrides` tells apart among the values that are no container.  A `duration`
    is a signed integer whose type is named `Duration`; `other` is every kind without a case. -/
inductive Kind where
  | string
  | duration
  | int (bits : Nat)
  | uint (bits : Nat)
  | bool
  | float (bits : Nat)
  | other
deriving DecidableEq, Repr

/-- A value that can be set: where it lives, its kind, and what `f.Type().String()` prints. -/
structure Leaf where
  addr : Nat
  kind : Kind
  type : String
deriving DecidableEq, Repr

/-- What the walk asks of a struct field: its `toml` tag, its name, and whether it can be set. -/
structure FieldInfo where
  toml : String
  name : String
  canSet : Bool
deriving DecidableEq, Repr

mutual

/-- A value as `reflect` shows it. -/
inductive Spec where
  | struct (fields : Fields)
  | ptr (target : Spec)
  | nilPtr
  | slice (elems : Elems)
  | array (elems : Elems)
  | leaf (l : Leaf)

/-- The fields of a struct, in the order of the declaration. -/
inductive Fields where
  | nil
  | cons (info : FieldInfo) (value : Spec) (rest : Fields)

/-- The elements of a slice or an array. -/
inductive Elems where
  | nil
  | cons (head : Spec) (rest : Elems)

end

/-- `f.Kind() == reflect.Slice` -/
def Spec.isSlice : Spec → Bool
  | .slice _ => true
  | _ => false

/-- What a leaf holds. -/
inductive Value (F : Type) where
  | string (s : String)
  | int (i : Int)
  | uint (n : Nat)
  | bool (b : Bool)
  | float (x : F)
deriving DecidableEq, Repr

/-- The memory the configuration lives in. -/
abbrev Store (F : Type) := Nat → Value F

/-! ## The walk -/

/-- What the walk calls (the environment, `strings.ToUpper` and the parsers, `none` for their
    error), and the two places in which the copies of the function differ. -/
structure Overrides (F : Type) where
  getenv : String → String
  toUpper : String → String
  parseDuration : String → Option Int
  parseInt : Nat → String → Option Int
  parseUint : Nat → String → Option Nat
  parseBool : String → Option Bool
  parseFloat : Nat → String → Option F
  /-- A slice element is visited under the name of the slice before the name with its index. -/
  unindexed : Bool
  /-- The `switch` has a case for unsigned integers. -/
  unsigned : Bool

variable {F : Type}

/-- The copy in `cmd/influxd/run/config.go`. -/
def Overrides.influxd (o : Overrides F) : Overrides F :=
  { o with unindexed := true, unsigned := true }

/-- The copy in `meta/config.go`, which `influxd-meta` runs. -/
def Overrides.influxdMeta (o : Overrides F) : Overrides F :=
  { o with unindexed := false, unsigned := false }

/-- The name of the variable for the field with the tag `toml`: hyphens become underscores. -/
def Overrides.key (o : Overrides F) (pre toml : String) : String :=
  let configName := toml.map fun c => if c = '-' then '_' else c
  if pre = "" then o.toUpper configName else o.toUpper (pre ++ "_" ++ configName)

/-- What the value of a variable is to a leaf of this kind: nothing (`none`) where the `switch` has
    no case, a value to set, or a text that does not parse. -/
def Overrides.parse (o : Overrides F) (text : String) : Kind → Option (Option (Value F))
  | .string => some (some (.string text))
  | .duration => some ((o.parseDuration text).map .int)
  | .int bits => some ((o.parseInt bits text).map .int)
  | .uint bits => if o.unsigned then some ((o.parseUint bits text).map .uint) else none
  | .bool => some ((o.parseBool text).map .bool)
  | .float bits => some ((o.parseFloat bits text).map .float)
  | .other => none

/-- The error of a value that does not parse. -/
def failedToApply (key name type value : String) : String :=
  s!"failed to apply {key} to {name} using type {type} and value '{value}'"

/-- The end of the loop body, for a field that is no container. -/
def Leaf.set (o : Overrides F) (key name : String) (l : Leaf) : EStateM String (Store F) Unit := do
  let value := o.getenv key
  if value = "" then
    return ()
  match o.parse value l.kind with
  -- the default case walks into a value that is no struct, which is nothing
  | none => return ()
  | some (some v) => modify fun σ a => if a = l.addr then v else σ a
  | some none => throw (failedToApply key name l.type value)

mutual

/-- `applyEnvOverrides`: the fields of a struct, or of the struct a pointer leads to. -/
def Spec.applyEnvOverrides (o : Overrides F) (pre : String) :
    Spec → EStateM String (Store F) Unit
  | .struct fields => fields.applyEach o pre
  | .ptr (.struct fields) => fields.applyEach o pre
  -- `s.Kind() != reflect.Struct`
  | .ptr _ => pure ()
  | .nilPtr => pure ()
  | .slice _ => pure ()
  | .array _ => pure ()
  | .leaf _ => pure ()

/-- The loop over the fields. -/
def Fields.applyEach (o : Overrides F) (pre : String) : Fields → EStateM String (Store F) Unit
  | .nil => pure ()
  | .cons info value rest => do
    if info.canSet || value.isSlice then
      value.applyField o (o.key pre info.toml) info.name
    rest.applyEach o pre

/-- The body of that loop: a slice or an array, a sub-config, or a leaf. -/
def Spec.applyField (o : Overrides F) (key name : String) : Spec → EStateM String (Store F) Unit
  | .slice elems => elems.applyEach o key 0
  | .array elems => elems.applyEach o key 0
  -- `c.applyEnvOverrides(key, f)`
  | .struct fields => fields.applyEach o key
  | .ptr (.struct fields) => fields.applyEach o key
  | .ptr _ => pure ()
  | .nilPtr => pure ()
  | .leaf l => l.set o key name

/-- The loop over the elements of a slice, from the index `i` on. -/
def Elems.applyEach (o : Overrides F) (key : String) (i : Nat) :
    Elems → EStateM String (Store F) Unit
  | .nil => pure ()
  | .cons head rest => do
    if o.unindexed then
      head.applyEnvOverrides o key
    head.applyEnvOverrides o s!"{key}_{i}"
    rest.applyEach o key (i + 1)

end

/-- `ApplyEnvOverrides` -/
def Spec.override (o : Overrides F) (config : Spec) : EStateM String (Store F) Unit :=
  config.applyEnvOverrides o "INFLUXDB"

/-! ## The walk as a list of visits -/

/-- One leaf under one name. -/
structure Visit where
  key : String
  name : String
  leaf : Leaf
deriving DecidableEq, Repr

mutual

/-- The visits of a walk, in order. -/
def Spec.visits (o : Overrides F) (pre : String) : Spec → List Visit
  | .struct fields => fields.visits o pre
  | .ptr (.struct fields) => fields.visits o pre
  | .ptr _ => []
  | .nilPtr => []
  | .slice _ => []
  | .array _ => []
  | .leaf _ => []

/-- The visits in the fields of a struct. -/
def Fields.visits (o : Overrides F) (pre : String) : Fields → List Visit
  | .nil => []
  | .cons info value rest =>
    (if info.canSet || value.isSlice then
      value.fieldVisits o (o.key pre info.toml) info.name else []) ++ rest.visits o pre

/-- The visits in one field. -/
def Spec.fieldVisits (o : Overrides F) (key name : String) : Spec → List Visit
  | .slice elems => elems.visits o key 0
  | .array elems => elems.visits o key 0
  | .struct fields => fields.visits o key
  | .ptr (.struct fields) => fields.visits o key
  | .ptr _ => []
  | .nilPtr => []
  | .leaf l => [⟨key, name, l⟩]

/-- The visits in the elements from the index `i` on. -/
def Elems.visits (o : Overrides F) (key : String) (i : Nat) : Elems → List Visit
  | .nil => []
  | .cons head rest =>
    (if o.unindexed then head.visits o key else []) ++
      (head.visits o s!"{key}_{i}" ++ rest.visits o key (i + 1))

end

/-- What the environment has for a visit; see `Overrides.parse`. -/
def Visit.found (o : Overrides F) (v : Visit) : Option (Option (Value F)) :=
  if o.getenv v.key = "" then none else o.parse (o.getenv v.key) v.leaf.kind

/-- The value a visit sets. -/
def Visit.value (o : Overrides F) (v : Visit) : Option (Value F) := (v.found o).join

/-- The visit finds a text that does not parse. -/
def Visit.Refused (o : Overrides F) (v : Visit) : Prop := v.found o = some none

/-- The error of a refused visit. -/
def Visit.error (o : Overrides F) (v : Visit) : String :=
  failedToApply v.key v.name v.leaf.type (o.getenv v.key)

/-- The value the visits leave at an address: the last one that sets it wins. -/
def lastValue (o : Overrides F) (vs : List Visit) (a : Nat) : Option (Value F) :=
  vs.foldl (fun found v => if v.leaf.addr = a then (v.value o).or found else found) none

/-- The store after the visits. -/
def afterVisits (o : Overrides F) (vs : List Visit) (σ : Store F) : Store F :=
  fun a => (lastValue o vs a).getD (σ a)

/-- The code's step for one visit. -/
def Visit.run (o : Overrides F) (v : Visit) : EStateM String (Store F) Unit :=
  v.leaf.set o v.key v.name

/-- The visits one after another. -/
def runVisits (o : Overrides F) : List Visit → EStateM String (Store F) Unit
  | [] => pure ()
  | v :: vs => do v.run o; runVisits o vs

theorem runVisits_append (o : Overrides F) (vs ws : List Visit) :
    runVisits o (vs ++ ws) = (do runVisits o vs; runVisits o ws) := by
  induction vs with
  | nil => rfl
  | cons v vs ih =>
    show (do v.run o; runVisits o (vs ++ ws)) = (do (do v.run o; runVisits o vs); runVisits o ws)
    rw [ih, bind_assoc]

mutual

/-- The walk does its visits, in order, and nothing else. -/
theorem Spec.applyEnvOverrides_eq_visits (o : Overrides F) (pre : String) :
    (spec : Spec) → spec.applyEnvOverrides o pre = runVisits o (spec.visits o pre)
  | .struct fields => by
    rw [Spec.applyEnvOverrides, Spec.visits]
    exact fields.applyEach_eq_visits o pre
  | .ptr (.struct fields) => by
    rw [Spec.applyEnvOverrides, Spec.visits]
    exact fields.applyEach_eq_visits o pre
  -- what is no struct has no fields to go through
  | .ptr (.ptr _) | .ptr .nilPtr | .ptr (.slice _) | .ptr (.array _) | .ptr (.leaf _) => rfl
  | .nilPtr | .slice _ | .array _ | .leaf _ => rfl

/-- The fields, each with its visits. -/
theorem Fields.applyEach_eq_visits (o : Overrides F) (pre : String) :
    (fields : Fields) → fields.applyEach o pre = runVisits o (fields.visits o pre)
  | .nil => rfl
  | .cons info value rest => by
    have hv := value.applyField_eq_visits o (o.key pre info.toml) info.name
    have hr := rest.applyEach_eq_visits o pre
    rw [Fields.applyEach, Fields.visits, runVisits_append, ← hr]
    by_cases hc : (info.canSet || value.isSlice) = true
    · rw [if_pos hc, if_pos hc, hv]
    · -- the field is skipped
      rw [if_neg hc, if_neg hc]
      rfl

/-- One field. -/
theorem Spec.applyField_eq_visits (o : Overrides F) (key name : String) :
    (spec : Spec) → spec.applyField o key name = runVisits o (spec.fieldVisits o key name)
  | .slice elems => by
    rw [Spec.applyField, Spec.fieldVisits]
    exact elems.applyEach_eq_visits o key 0
  | .array elems => by
    rw [Spec.applyField, Spec.fieldVisits]
    exact elems.applyEach_eq_visits o key 0
  | .struct fields => by
    rw [Spec.applyField, Spec.fieldVisits]
    exact fields.applyEach_eq_visits o key
  | .ptr (.struct fields) => by
    rw [Spec.applyField, Spec.fieldVisits]
    exact fields.applyEach_eq_visits o key
  | .ptr (.ptr _) | .ptr .nilPtr | .ptr (.slice _) | .ptr (.array _) | .ptr (.leaf _) => rfl
  | .nilPtr => rfl
  | .leaf l => by
    show l.set o key name = (do l.set o key name; pure ())
    rw [bind_pure]

/-- The elements from an index on. -/
theorem Elems.applyEach_eq_visits (o : Overrides F) (key : String) (i : Nat) :
    (elems : Elems) → elems.applyEach o key i = runVisits o (elems.visits o key i)
  | .nil => rfl
  | .cons head rest => by
    have hu := head.applyEnvOverrides_eq_visits o key
    have hi := head.applyEnvOverrides_eq_visits o s!"{key}_{i}"
    have hr := rest.applyEach_eq_visits o key (i + 1)
    rw [Elems.applyEach, Elems.visits, runVisits_append, runVisits_append, ← hr, ← hi]
    by_cases hc : o.unindexed = true
    · rw [if_pos hc, if_pos hc, hu]
    · rw [if_neg hc, if_neg hc]
      rfl

end

/-! ## What the visits leave -/

/-- The fold behind `lastValue` keeps what it started with only if no visit sets the address. -/
theorem foldl_value_eq (o : Overrides F) (vs : List Visit) (a : Nat) (start : Option (Value F)) :
    vs.foldl (fun found v => if v.leaf.addr = a then (v.value o).or found else found) start =
      (lastValue o vs a).or start := by
  induction vs generalizing start with
  | nil => rfl
  | cons v vs ih =>
    rw [lastValue, List.foldl_cons, List.foldl_cons, ih, ih, Option.or_assoc]
    by_cases ha : v.leaf.addr = a
    · rw [if_pos ha, if_pos ha, Option.or_none]
    · rw [if_neg ha, if_neg ha, Option.none_or]

/-- A later visit is asked first. -/
theorem lastValue_cons (o : Overrides F) (v : Visit) (vs : List Visit) (a : Nat) :
    lastValue o (v :: vs) a =
      (lastValue o vs a).or (if v.leaf.addr = a then v.value o else none) := by
  rw [lastValue, List.foldl_cons, foldl_value_eq]
  by_cases ha : v.leaf.addr = a
  · rw [if_pos ha, if_pos ha, Option.or_none]
  · rw [if_neg ha, if_neg ha]

theorem lastValue_append (o : Overrides F) (vs ws : List Visit) (a : Nat) :
    lastValue o (vs ++ ws) a = (lastValue o ws a).or (lastValue o vs a) := by
  rw [lastValue, List.foldl_append, foldl_value_eq]
  rfl

/-- What one visit leaves at its address, and elsewhere. -/
theorem afterVisits_one (o : Overrides F) (v : Visit) (σ : Store F) :
    afterVisits o [v] σ =
      fun a => if a = v.leaf.addr then (v.value o).getD (σ a) else σ a := by
  funext a
  show (lastValue o [v] a).getD (σ a) = _
  rw [lastValue_cons]
  by_cases ha : a = v.leaf.addr
  · rw [if_pos ha.symm, if_pos ha]
    rfl
  · rw [if_neg (Ne.symm ha), if_neg ha]
    rfl

/-- A visit without a value leaves everything as it is. -/
theorem afterVisits_none (o : Overrides F) {v : Visit} (h : v.value o = none) (σ : Store F) :
    afterVisits o [v] σ = σ := by
  rw [afterVisits_one, h]
  funext a
  exact ite_self _

/-- A visit that is not refused sets its value, if it has one. -/
theorem Visit.run_ok (o : Overrides F) (v : Visit) (h : ¬v.Refused o) (σ : Store F) :
    v.run o σ = .ok () (afterVisits o [v] σ) := by
  unfold Visit.Refused at h
  unfold Visit.run Leaf.set
  by_cases he : o.getenv v.key = ""
  · -- the variable is not set
    have hfound : v.found o = none := if_pos he
    rw [afterVisits_none o (by rw [Visit.value, hfound]; rfl), if_pos he]
    rfl
  · have hfound : v.found o = o.parse (o.getenv v.key) v.leaf.kind := if_neg he
    rw [hfound] at h
    rw [if_neg he]
    rcases hp : o.parse (o.getenv v.key) v.leaf.kind with _ | _ | x
    · -- the `switch` has no case for the kind
      rw [afterVisits_none o (by rw [Visit.value, hfound, hp]; rfl)]
      rfl
    · exact absurd hp h
    · have hx : v.value o = some x := by
        rw [Visit.value, hfound, hp]
        rfl
      rw [afterVisits_one, hx]
      rfl

/-- A refused visit is the error that names it, and sets nothing. -/
theorem Visit.run_refused (o : Overrides F) (v : Visit) (h : v.Refused o) (σ : Store F) :
    v.run o σ = .error (v.error o) σ := by
  unfold Visit.Refused Visit.found at h
  unfold Visit.run Leaf.set
  by_cases he : o.getenv v.key = ""
  · rw [if_pos he] at h
    cases h
  · rw [if_neg he] at h
    rw [if_neg he, h]
    rfl

theorem afterVisits_append (o : Overrides F) (vs ws : List Visit) (σ : Store F) :
    afterVisits o (vs ++ ws) σ = afterVisits o ws (afterVisits o vs σ) := by
  funext a
  unfold afterVisits
  rw [lastValue_append, Option.getD_or]

/-- Visits none of which is refused. -/
theorem runVisits_ok (o : Overrides F) {vs : List Visit} (h : ∀ v ∈ vs, ¬v.Refused o)
    (σ : Store F) : runVisits o vs σ = .ok () (afterVisits o vs σ) := by
  induction vs generalizing σ with
  | nil => rfl
  | cons v vs ih =>
    have hv := v.run_ok o (h v (List.mem_cons_self ..)) σ
    have hrest := ih (fun w hw => h w (List.mem_cons_of_mem _ hw)) (afterVisits o [v] σ)
    rw [runVisits, bind_ok hv, hrest, ← afterVisits_append]
    rfl

/-- Visits up to the first refused one. -/
theorem runVisits_refused (o : Overrides F) {done : List Visit} {v : Visit} {rest : List Visit}
    (h : ∀ w ∈ done, ¬w.Refused o) (hv : v.Refused o) (σ : Store F) :
    runVisits o (done ++ v :: rest) σ = .error (v.error o) (afterVisits o done σ) := by
  rw [runVisits_append, bind_ok (runVisits_ok o h σ), runVisits]
  exact bind_error (v.run_refused o hv _)

/-- Visiting twice is visiting once. -/
theorem afterVisits_twice (o : Overrides F) (vs : List Visit) (σ : Store F) :
    afterVisits o vs (afterVisits o vs σ) = afterVisits o vs σ := by
  rw [← afterVisits_append]
  funext a
  unfold afterVisits
  rw [lastValue_append, Option.or_self]

/-- Either no visit is refused, or there is a first one. -/
theorem refused_or (o : Overrides F) (vs : List Visit) :
    (∀ v ∈ vs, ¬v.Refused o) ∨ ∃ done v rest, vs = done ++ v :: rest ∧
      (∀ w ∈ done, ¬w.Refused o) ∧ v.Refused o := by
  induction vs with
  | nil => exact Or.inl fun v hv => absurd hv List.not_mem_nil
  | cons v vs ih =>
    by_cases hv : v.Refused o
    · exact Or.inr ⟨[], v, vs, rfl, fun w hw => absurd hw List.not_mem_nil, hv⟩
    · rcases ih with h | ⟨done, w, rest, rfl, hdone, hw⟩
      · exact Or.inl (List.forall_mem_cons.2 ⟨hv, h⟩)
      · exact Or.inr ⟨v :: done, w, rest, rfl, List.forall_mem_cons.2 ⟨hv, hdone⟩, hw⟩

/-- **The walk, whatever its outcome.**  If every variable it finds parses, each leaf ends with the
    value of the LAST of its names that is set, a leaf none of whose names is set keeps what the
    file said, and so does one of a kind that the `switch` has no case for, whatever is set; walking
    again changes nothing.  Otherwise the walk stops at the first visit
    whose text does not parse, with the error that names it, and leaves the configuration as the
    visits before it made it: half overridden. -/
theorem overrides_outcome (o : Overrides F) (config : Spec) (σ : Store F) :
    match config.override o σ with
    | .ok _ σ' =>
      (∀ v ∈ config.visits o "INFLUXDB", ¬v.Refused o) ∧
      (∀ a, σ' a = (lastValue o (config.visits o "INFLUXDB") a).getD (σ a)) ∧
      config.override o σ' = .ok () σ'
    | .error e σ' => ∃ done v rest, config.visits o "INFLUXDB" = done ++ v :: rest ∧
      (∀ w ∈ done, ¬w.Refused o) ∧ v.Refused o ∧ e = v.error o ∧
      ∀ a, σ' a = (lastValue o done a).getD (σ a) := by
  have heq : config.override o = runVisits o (config.visits o "INFLUXDB") :=
    config.applyEnvOverrides_eq_visits o "INFLUXDB"
  rw [heq]
  rcases refused_or o (config.visits o "INFLUXDB") with h | ⟨done, v, rest, hvs, hdone, hv⟩
  · rw [runVisits_ok o h]
    refine ⟨h, fun a => rfl, ?_⟩
    rw [runVisits_ok o h, afterVisits_twice]
  · rw [hvs, runVisits_refused o hdone hv]
    exact ⟨done, v, rest, rfl, hdone, hv, rfl, fun a => rfl⟩

/-! ## The two copies -/

open scoped List in
mutual

/-- `influxd-meta` looks up a part of the names `influxd` looks up, in the same order. -/
theorem Spec.visits_sublist (o : Overrides F) (pre : String) :
    (spec : Spec) → spec.visits o.influxdMeta pre <+ spec.visits o.influxd pre
  | .struct fields => by
    rw [Spec.visits, Spec.visits]
    exact fields.visits_sublist o pre
  | .ptr (.struct fields) => by
    rw [Spec.visits, Spec.visits]
    exact fields.visits_sublist o pre
  | .ptr (.ptr _) | .ptr .nilPtr | .ptr (.slice _) | .ptr (.array _) | .ptr (.leaf _) =>
    List.Sublist.refl []
  | .nilPtr | .slice _ | .array _ | .leaf _ => List.Sublist.refl []

/-- The fields: both copies skip the same ones. -/
theorem Fields.visits_sublist (o : Overrides F) (pre : String) :
    (fields : Fields) → fields.visits o.influxdMeta pre <+ fields.visits o.influxd pre
  | .nil => List.Sublist.refl []
  | .cons info value rest => by
    have hv := value.fieldVisits_sublist o (o.key pre info.toml) info.name
    have hr := rest.visits_sublist o pre
    rw [Fields.visits, Fields.visits]
    refine List.Sublist.append ?_ hr
    by_cases hc : (info.canSet || value.isSlice) = true
    · rw [if_pos hc, if_pos hc]
      exact hv
    · rw [if_neg hc, if_neg hc]

/-- One field. -/
theorem Spec.fieldVisits_sublist (o : Overrides F) (key name : String) :
    (spec : Spec) →
      spec.fieldVisits o.influxdMeta key name <+ spec.fieldVisits o.influxd key name
  | .slice elems => by
    rw [Spec.fieldVisits, Spec.fieldVisits]
    exact elems.visits_sublist o key 0
  | .array elems => by
    rw [Spec.fieldVisits, Spec.fieldVisits]
    exact elems.visits_sublist o key 0
  | .struct fields => by
    rw [Spec.fieldVisits, Spec.fieldVisits]
    exact fields.visits_sublist o key
  | .ptr (.struct fields) => by
    rw [Spec.fieldVisits, Spec.fieldVisits]
    exact fields.visits_sublist o key
  | .ptr (.ptr _) | .ptr .nilPtr | .ptr (.slice _) | .ptr (.array _) | .ptr (.leaf _) =>
    List.Sublist.refl []
  | .nilPtr => List.Sublist.refl []
  | .leaf l => by
    rw [Spec.fieldVisits, Spec.fieldVisits]

/-- The elements: the longer copy visits each under a further name. -/
theorem Elems.visits_sublist (o : Overrides F) (key : String) (i : Nat) :
    (elems : Elems) → elems.visits o.influxdMeta key i <+ elems.visits o.influxd key i
  | .nil => List.Sublist.refl []
  | .cons head rest => by
    have hi := head.visits_sublist o s!"{key}_{i}"
    have hr := rest.visits_sublist o key (i + 1)
    rw [Elems.visits, Elems.visits]
    exact List.Sublist.append (List.nil_sublist _) (hi.append hr)

end

/-- What the shorter copy refuses, the longer one refuses too: the case it lacks sets nothing. -/
theorem Visit.Refused.influxd {o : Overrides F} {v : Visit} (h : v.Refused o.influxdMeta) :
    v.Refused o.influxd := by
  by_cases he : o.getenv v.key = ""
  · have hfound : v.found o.influxdMeta = none := if_pos he
    rw [Visit.Refused, hfound] at h
    cases h
  · have hm : v.found o.influxdMeta = o.influxdMeta.parse (o.getenv v.key) v.leaf.kind := if_neg he
    have hd : v.found o.influxd = o.influxd.parse (o.getenv v.key) v.leaf.kind := if_neg he
    rw [Visit.Refused, hm] at h
    rw [Visit.Refused, hd]
    cases hk : v.leaf.kind with
    | uint bits =>
      rw [hk] at h
      cases h
    | _ =>
      rw [hk] at h
      exact h

/-- **An environment that `influxd` accepts on a configuration, `influxd-meta` accepts on it.** -/
theorem influxdMeta_accepts (o : Overrides F) (config : Spec) (σ : Store F)
    (h : failure (config.override o.influxd σ) = none) :
    failure (config.override o.influxdMeta σ) = none := by
  have hd := config.applyEnvOverrides_eq_visits o.influxd "INFLUXDB"
  have hm := config.applyEnvOverrides_eq_visits o.influxdMeta "INFLUXDB"
  unfold Spec.override at h ⊢
  rw [hd] at h
  rw [hm]
  rcases refused_or o.influxd (config.visits o.influxd "INFLUXDB") with
    hok | ⟨done, v, rest, hvs, hdone, hv⟩
  · have hno : ∀ v ∈ config.visits o.influxdMeta "INFLUXDB", ¬v.Refused o.influxdMeta :=
      fun v hv hr => hok v ((config.visits_sublist o "INFLUXDB").subset hv) hr.influxd
    rw [runVisits_ok _ hno]
    rfl
  · rw [hvs, runVisits_refused _ hdone hv] at h
    cases h

end InfluxCluster.Config
