/-
  `WritePoints` (`cluster/points_writer.go`): the points of a request, to their shards.

  `MapShards` has put the points into a list for every shard.  Each list is written by a goroutine
  of its own (`writeToShard`): it writes; if the store does not have the shard it creates it; and
  after any error it writes AGAIN.  What it comes to it sends over a channel that has room for as
  many results as there are shards.  `WritePoints` receives as many, but returns at the first error,
  or when the writer is closed, with the other goroutines still under way.

  THE OUTCOME IS THE TRUE ONE (`writePoints_outcome`), whatever the store answers and in whatever
  order things happen.  A goroutine comes to nil if and only if its last write has gone well
  (`Goroutine.Sound`); the rest is the pattern of `Lib.FanIn`, whose workers the goroutines are.

  A goroutine is a state machine here, since the others come in between its calls; alone with the
  store it does what `writeToShard` does (`alone_eq_writeToShard`).  `Close` may come at any moment,
  also before all others; a second one panics, and `Open` makes a new channel: both are left out,
  as is what is sent to subscriptions, where nothing waits.
-/
import InfluxCluster.Cluster.Handlers
import InfluxCluster.Cluster.MapShards
import InfluxCluster.Lib.FanIn

namespace InfluxCluster.Cluster

open InfluxCluster.Lib InfluxCluster.Meta
open InfluxCluster.Lib.FanIn (Outcome Move Stuck)

/-! ## The mapping -/

/-- A mapping whose lists have shards, each under its own identifier. -/
structure Mapped (P : Type) extends ShardMapping P where
  matching : toShardMapping.Matching

section Mapping

variable {P ε σ : Type}

theorem mapPoints_matching [Point P] {shardFor : ShardFor} {d : Int} {timeRanges : TimeRanges} :
    ∀ (points : List P) {mapping mapping' : ShardMapping P} {s s' : σ}, mapping.Matching →
      (mapPoints shardFor d timeRanges points mapping : EStateM (MapStop ε) σ (ShardMapping P)) s
        = .ok mapping' s' → mapping'.Matching
  | [], _, _, _, _, hm, h => by
    cases h
    exact hm
  | p :: points, _, _, _, _, hm, h => by
    rw [mapPoints] at h
    cases hp : pointShard shardFor d timeRanges p with
    | none =>
      rw [hp] at h
      cases h
    | some sh =>
      rw [hp] at h
      exact mapPoints_matching points hm.mapPoint h

/-- What `MapShards` returns matches. -/
theorem mapShards_matching [Point P] {C : MetaClient ε σ} {shardFor : ShardFor}
    {order : List Moment → List Moment} {wp : WritePointsRequest P} {mapping : ShardMapping P}
    {s s' : σ} (h : mapShards C shardFor order wp s = .ok mapping s') : mapping.Matching := by
  rw [mapShards] at h
  obtain ⟨r, s₁, -, hmap⟩ := ok_of_bind h
  exact mapPoints_matching wp.points .empty hmap

end Mapping

/-! ## One shard -/

/-- A call of the store. -/
inductive StoreCall (P : Type)
  | writeToShard (id : UInt64) (points : List P)
  | createShard (database retentionPolicy : String) (id : UInt64)
  deriving DecidableEq

def StoreCall.isWrite {P : Type} : StoreCall P → Bool
  | .writeToShard _ _ => true
  | .createShard _ _ _ => false

/-- Where a goroutine is in `writeToShard`. -/
inductive WritePlace
  /-- Before its first write. -/
  | writing
  | creating
  /-- Before its second write. -/
  | rewriting
  | finished (err : Option StoreErr)
  deriving DecidableEq

/-- Where it is after an answer. -/
def WritePlace.next : WritePlace → Option StoreErr → WritePlace
  | writing, none => finished none
  | writing, some .shardNotFound => creating
  | writing, some (.other _) => rewriting
  | creating, none => rewriting
  | creating, some err => finished (some err)
  | rewriting, err => finished err
  | finished err, _ => finished err

/-- The calls that are left, at most. -/
def WritePlace.rank : WritePlace → Nat
  | writing => 3
  | creating => 2
  | rewriting => 1
  | finished _ => 0

def WritePlace.result : WritePlace → Option (Option StoreErr)
  | finished err => some err
  | _ => none

theorem WritePlace.eq_finished {place : WritePlace} {err : Option StoreErr}
    (h : place.result = some err) : place = finished err := by
  cases place with
  | finished err' =>
    cases h
    rfl
  | _ => cases h

/-- A goroutine, with the calls that it has made and what was answered. -/
structure Goroutine (P : Type) where
  shard : ShardInfo
  points : List P
  place : WritePlace
  log : List (StoreCall P × Option StoreErr)
  deriving DecidableEq

section OneShard

variable {P IC σ : Type}

/-- `writeToShard`. -/
def writeToShard (S : TSDBStore P IC σ) (shard : ShardInfo)
    (database retentionPolicy : String) (points : List P) (s : σ) : Option StoreErr × σ :=
  match S.writeToShard shard.id points s with
  | (none, s) => (none, s)
  | (some .shardNotFound, s) =>
    match S.createShard database retentionPolicy shard.id s with
    | (some err, s) => (some err, s)
    | (none, s) => S.writeToShard shard.id points s
  -- any other error is followed by a second write too
  | (some (.other _), s) => S.writeToShard shard.id points s

/-- The call that the goroutine makes next. -/
def Goroutine.call (database retentionPolicy : String) (g : Goroutine P) : Option (StoreCall P) :=
  match g.place with
  | .writing => some (.writeToShard g.shard.id g.points)
  | .creating => some (.createShard database retentionPolicy g.shard.id)
  | .rewriting => some (.writeToShard g.shard.id g.points)
  | .finished _ => none

/-- The goroutine after the answer to its call. -/
def Goroutine.next (database retentionPolicy : String) (g : Goroutine P)
    (answer : Option StoreErr) : Option (Goroutine P) :=
  (g.call database retentionPolicy).map fun call =>
    { g with place := g.place.next answer, log := g.log ++ [(call, answer)] }

/-- What the store answers. -/
def TSDBStore.answer (S : TSDBStore P IC σ) : StoreCall P → σ → Option StoreErr × σ
  | .writeToShard id points => S.writeToShard id points
  | .createShard database retentionPolicy id => S.createShard database retentionPolicy id

/-- The goroutine alone with the store, for so many calls. -/
def Goroutine.alone (S : TSDBStore P IC σ) (database retentionPolicy : String) :
    Nat → Goroutine P → σ → WritePlace × σ
  | 0, g, s => (g.place, s)
  | k + 1, g, s =>
    match g.call database retentionPolicy with
    | none => (g.place, s)
    | some call =>
      let (answer, s) := S.answer call s
      match g.next database retentionPolicy answer with
      | none => (g.place, s)
      | some g => alone S database retentionPolicy k g s

/-- **Alone, a goroutine does what `writeToShard` does.** -/
theorem alone_eq_writeToShard (S : TSDBStore P IC σ) (database retentionPolicy : String)
    (shard : ShardInfo) (points : List P) (s : σ) :
    Goroutine.alone S database retentionPolicy 3 ⟨shard, points, .writing, []⟩ s
      = ((writeToShard S shard database retentionPolicy points s).map .finished id) := by
  rw [writeToShard, Goroutine.alone]
  simp only [Goroutine.call, TSDBStore.answer, Goroutine.next, Option.map_some]
  rcases S.writeToShard shard.id points s with ⟨_ | ⟨_ | text⟩, s₁⟩
  · rfl
  · simp only [WritePlace.next, Goroutine.alone, Goroutine.call, TSDBStore.answer, Goroutine.next,
      Option.map_some]
    rcases S.createShard database retentionPolicy shard.id s₁ with ⟨_ | err, s₂⟩
    · rfl
    · rfl
  · rfl

/-- The last write of a log, and what was answered. -/
def lastWrite (log : List (StoreCall P × Option StoreErr)) : Option (StoreCall P × Option StoreErr) :=
  log.reverse.find? fun entry => entry.1.isWrite

/-- **The last write to the shard has gone well, with all of its points.** -/
def Written (id : UInt64) (points : List P) (g : Goroutine P) : Prop :=
  lastWrite g.log = some (.writeToShard id points, none)

/-- **What a goroutine keeps**: it comes to nil if and only if its last write has gone well, and to
    an error only if that was the answer to its last call. -/
structure Goroutine.Sound (id : UInt64) (points : List P) (g : Goroutine P) : Prop where
  shard_eq : g.shard.id = id
  points_eq : g.points = points
  nil_iff : g.place = .finished none ↔ Written id points g
  err : ∀ e, g.place = .finished (some e) → ∃ call, g.log.getLast? = some (call, some e)

variable {database retentionPolicy : String} {id : UInt64} {points : List P} {g g' : Goroutine P}
  {answer : Option StoreErr}

theorem lastWrite_write (log : List (StoreCall P × Option StoreErr)) :
    lastWrite (log ++ [(.writeToShard id points, answer)])
      = some (.writeToShard id points, answer) := by
  rw [lastWrite, List.reverse_append]
  rfl

theorem lastWrite_create (log : List (StoreCall P × Option StoreErr)) :
    lastWrite (log ++ [(.createShard database retentionPolicy id, answer)]) = lastWrite log := by
  rw [lastWrite, List.reverse_append]
  rfl

/-- The answer to a write decides. -/
theorem written_write (log : List (StoreCall P × Option StoreErr)) :
    lastWrite (log ++ [(.writeToShard id points, answer)]) = some (.writeToShard id points, none)
      ↔ answer = none := by
  rw [lastWrite_write, Option.some_inj, Prod.mk.injEq]
  exact and_iff_right rfl

/-- A goroutine that has not come to its end has a call to make. -/
theorem Goroutine.call_isSome_iff :
    (g.call database retentionPolicy).isSome ↔ g.place.result = none := by
  rw [Goroutine.call]
  cases g.place with
  | finished err => exact ⟨nofun, nofun⟩
  | _ => exact iff_of_true rfl rfl

/-- An error at the end is the answer to the last call. -/
theorem WritePlace.answer_of_next {place : WritePlace} {e : StoreErr} (hplace : place.result = none)
    (h : place.next answer = .finished (some e)) : answer = some e := by
  cases place with
  | writing =>
    rcases answer with _ | ⟨_ | text⟩ <;> cases h
  | creating =>
    rcases answer with _ | err <;> cases h
    rfl
  | rewriting =>
    cases h
    rfl
  | finished err => cases hplace

/-- The answer of the store decides what the goroutine does next. -/
theorem Goroutine.Sound.next (h : g.Sound id points)
    (hnext : g.next database retentionPolicy answer = some g') : g'.Sound id points := by
  obtain ⟨call, hcall, rfl⟩ := Option.map_eq_some_iff.mp hnext
  have hresult : g.place.result = none :=
    Goroutine.call_isSome_iff.mp (Option.isSome_of_mem hcall)
  rw [Goroutine.call] at hcall
  refine ⟨h.shard_eq, h.points_eq, ?_, fun e he => ?_⟩
  · show g.place.next answer = .finished none ↔ lastWrite (g.log ++ [(call, answer)]) = _
    cases hplace : g.place with
    | writing =>
      rw [hplace, h.shard_eq, h.points_eq] at hcall
      cases hcall
      rw [written_write]
      rcases answer with _ | ⟨_ | text⟩ <;> simp [WritePlace.next]
    | creating =>
      -- the last write is still the one that did not find the shard
      rw [hplace] at hcall
      cases hcall
      have hnot : lastWrite g.log ≠ some (.writeToShard id points, none) := by
        intro hw
        rw [← Written, ← h.nil_iff, hplace] at hw
        cases hw
      rw [lastWrite_create]
      refine iff_of_false (fun hn => ?_) hnot
      rcases answer with _ | err <;> cases hn
    | rewriting =>
      rw [hplace, h.shard_eq, h.points_eq] at hcall
      cases hcall
      rw [written_write]
      simp [WritePlace.next]
    | finished err =>
      rw [hplace] at hcall
      cases hcall
  · refine ⟨call, ?_⟩
    show (g.log ++ [(call, answer)]).getLast? = _
    rw [List.getLast?_concat, WritePlace.answer_of_next hresult he]

end OneShard

/-! ## All shards -/

section AllShards

variable {P : Type}

/-- What every goroutine runs. -/
def writer (P : Type) (database retentionPolicy : String) :
    FanIn.Program (Goroutine P) (Option StoreErr) StoreErr where
  next := Goroutine.next database retentionPolicy
  result g := g.place.result

/-- How many shards there are points for. -/
def Mapped.count (mapping : Mapped P) : Nat := mapping.points.entries.length

/-- The shard of the list, `shardMappings.Shards[shardID]`. -/
def Mapped.shard (mapping : Mapped P) (i : Fin mapping.count) : ShardInfo :=
  (mapping.shards.lookup (mapping.points.entries.get i).1).get (by
    rw [AList.lookup_isSome, mapping.matching.keys]
    exact List.mem_keys_of_mem (List.get_mem _ i))

/-- The goroutines as `WritePoints` starts them, and the loop that waits for them. -/
def Mapped.start (mapping : Mapped P) : FanIn.State mapping.count (Goroutine P) StoreErr :=
  FanIn.start fun i => ⟨mapping.shard i, (mapping.points.entries.get i).2, .writing, []⟩

/-- The list of points number `i` has been written. -/
def Mapped.WrittenAt (mapping : Mapped P) (s : FanIn.State mapping.count (Goroutine P) StoreErr)
    (i : Fin mapping.count) : Prop :=
  Written (mapping.points.entries.get i).1 (mapping.points.entries.get i).2 (s.workers i)

variable {mapping : Mapped P} {database retentionPolicy : String}
  {s : FanIn.State mapping.count (Goroutine P) StoreErr}

theorem Mapped.shard_id (i : Fin mapping.count) :
    (mapping.shard i).id = (mapping.points.entries.get i).1 :=
  mapping.matching.ids _ _ (Option.some_get _).symm

theorem sound_start (i : Fin mapping.count) :
    (mapping.start.workers i).Sound (mapping.points.entries.get i).1
      (mapping.points.entries.get i).2 where
  shard_eq := mapping.shard_id i
  points_eq := rfl
  nil_iff := ⟨nofun, nofun⟩
  err := nofun

/-- Each answer brings it nearer to its end. -/
theorem rank_next {g g' : Goroutine P} {answer : Option StoreErr}
    (h : g.next database retentionPolicy answer = some g') : g'.place.rank < g.place.rank := by
  obtain ⟨call, hcall, rfl⟩ := Option.map_eq_some_iff.mp h
  rw [Goroutine.call] at hcall
  show (g.place.next answer).rank < g.place.rank
  cases hplace : g.place with
  | writing => rcases answer with _ | ⟨_ | text⟩ <;> simp [WritePlace.next, WritePlace.rank]
  | creating => rcases answer with _ | err <;> simp [WritePlace.next, WritePlace.rank]
  | rewriting => simp [WritePlace.next, WritePlace.rank]
  | finished err =>
    rw [hplace] at hcall
    cases hcall

/-- Whatever has happened, every goroutine is sound. -/
theorem sound_run {moves : List (Move mapping.count (Option StoreErr))}
    (hrun : moves.foldlM (FanIn.step (writer P database retentionPolicy)) mapping.start = some s)
    (i : Fin mapping.count) :
    (s.workers i).Sound (mapping.points.entries.get i).1 (mapping.points.entries.get i).2 :=
  FanIn.run_workers (fun _ _ _ _ h hnext => h.next hnext) hrun sound_start i

section Returned

variable (hinv : FanIn.Inv (writer P database retentionPolicy) s)
  (hsound : ∀ i, (s.workers i).Sound (mapping.points.entries.get i).1
    (mapping.points.entries.get i).2)

include hinv hsound

/-- If all went well, each shard has been written. -/
theorem written_of_nil (hout : s.out = some .nil) (i : Fin mapping.count) :
    mapping.WrittenAt s i :=
  (hsound i).nil_iff.mp (WritePlace.eq_finished (hinv.all_of_nil hout i).2)

/-- An error is that of a shard which was not. -/
theorem failing_of_err {e : StoreErr} (hout : s.out = some (.err e)) :
    ∃ i call, ¬mapping.WrittenAt s i ∧ (s.workers i).log.getLast? = some (call, some e) := by
  obtain ⟨i, -, hresult⟩ := hinv.some_of_err hout
  have hplace : (s.workers i).place = .finished (some e) := WritePlace.eq_finished hresult
  obtain ⟨call, hcall⟩ := (hsound i).err e hplace
  refine ⟨i, call, fun hw => ?_, hcall⟩
  have hnil := (hsound i).nil_iff.mpr hw
  rw [hplace] at hnil
  cases hnil

end Returned

/-- What a writer that is not closed returns. -/
theorem nil_or_err (hinv : FanIn.Inv (writer P database retentionPolicy) s)
    (hopen : s.closed = false) (hout : s.out.isSome) :
    s.out = some .nil ∨ ∃ e, s.out = some (.err e) := by
  obtain ⟨o, ho⟩ := Option.isSome_iff_exists.mp hout
  cases o with
  | nil => exact .inl ho
  | err e => exact .inr ⟨e, ho⟩
  | closing =>
    have hclosed := hinv.closing ho
    rw [hopen] at hclosed
    cases hclosed

/-- Before anything has happened there are four moves for each goroutine, one for its result, the
    return and `Close`. -/
theorem measure_start :
    mapping.start.measure (fun g => g.place.rank) = 5 * mapping.count + 2 := by
  have htodo : ∀ i, mapping.start.todo (fun g => g.place.rank) i = 4 := fun _ => rfl
  rw [FanIn.State.measure, Finset.sum_const_nat fun i _ => htodo i, Finset.card_univ,
    Fintype.card_fin]
  show mapping.count * 4 + (mapping.count - 0) + 1 + 1 = _
  omega

theorem next_isSome {g : Goroutine P} (h : g.place.result = none) :
    (g.next database retentionPolicy none).isSome := by
  rw [Goroutine.next, Option.isSome_map]
  exact Goroutine.call_isSome_iff.mpr h

/-- **The true outcome.**  Nil means that every list has been written.  Of a writer that is not
    closed, `WritePoints` returns nil exactly if every list has been written, and otherwise an error
    that the store has answered to a goroutine whose list has not.  A result can always be sent; a
    run is no longer than five moves for each shard, and two; and where it can go no further,
    `WritePoints` has returned and no goroutine is left. -/
structure TrueOutcome (mapping : Mapped P) (database retentionPolicy : String)
    (moves : List (Move mapping.count (Option StoreErr)))
    (s : FanIn.State mapping.count (Goroutine P) StoreErr) : Prop where
  nil : s.out = some .nil → ∀ i, mapping.WrittenAt s i
  nil_iff : s.closed = false → s.out.isSome → (s.out = some .nil ↔ ∀ i, mapping.WrittenAt s i)
  err : s.closed = false → s.out.isSome → ¬(∀ i, mapping.WrittenAt s i) →
    ∃ i e call, s.out = some (.err e) ∧ ¬mapping.WrittenAt s i ∧
      (s.workers i).log.getLast? = some (call, some e)
  unblocked : ∀ i, (s.workers i).place.result.isSome → s.sent i = false →
    (FanIn.step (writer P database retentionPolicy) s (.send i)).isSome
  bounded : moves.length ≤ 5 * mapping.count + 2
  done : Stuck (writer P database retentionPolicy) s → (∀ i, s.sent i = true) ∧ s.out.isSome

/-- **`WritePoints` reports the true outcome**: for every mapping, whatever the store answers to
    each call, in whatever order the goroutines, the collecting loop and `Close` take their
    turns. -/
theorem writePoints_outcome (mapping : Mapped P) (database retentionPolicy : String)
    (moves : List (Move mapping.count (Option StoreErr)))
    (s : FanIn.State mapping.count (Goroutine P) StoreErr)
    (hrun : moves.foldlM (FanIn.step (writer P database retentionPolicy)) mapping.start = some s) :
    TrueOutcome mapping database retentionPolicy moves s := by
  have hinv : FanIn.Inv (writer P database retentionPolicy) s := (FanIn.inv_start _).run hrun
  have hsound := sound_run hrun
  refine ⟨written_of_nil hinv hsound, fun hopen hout => ⟨written_of_nil hinv hsound, fun hall => ?_⟩,
    fun hopen hout hnot => ?_, fun i hi hsent => hinv.send_isSome hsent hi, ?_,
    fun hstuck => hinv.returned_of_stuck (fun g hg => ⟨none, next_isSome hg⟩) hstuck⟩
  · rcases nil_or_err hinv hopen hout with hnil | ⟨e, he⟩
    · exact hnil
    · obtain ⟨i, -, hi, -⟩ := failing_of_err hinv hsound he
      exact absurd (hall i) hi
  · rcases nil_or_err hinv hopen hout with hnil | ⟨e, he⟩
    · exact absurd (written_of_nil hinv hsound hnil) hnot
    · obtain ⟨i, call, hi, hcall⟩ := failing_of_err hinv hsound he
      exact ⟨i, e, call, he, hi, hcall⟩
  · have hle : moves.length + s.measure (fun g => g.place.rank) ≤ _ :=
      FanIn.length_add_measure_le (fun _ _ _ h => rank_next h) moves hrun
    rw [measure_start] at hle
    omega

end AllShards

/-- The points 7, 8 and 9 in two shards. -/
def twoLists : Mapped Nat where
  toShardMapping := ShardMapping.empty.mapAll (fun p => ⟨if p = 8 then 2 else 1, []⟩) [7, 8, 9]
  matching := .mapAll _ .empty

/-- The store does not have the first shard, and has the second, which is done first. -/
def twoListsMoves : List (Move twoLists.count (Option StoreErr)) :=
  [.work ⟨0, by decide⟩ (some .shardNotFound), .work ⟨1, by decide⟩ none, .send ⟨1, by decide⟩,
    .receive, .work ⟨0, by decide⟩ none, .work ⟨0, by decide⟩ none, .send ⟨0, by decide⟩, .receive,
    .finish, .close]

theorem writePoints_outcome_twoLists : ∃ s,
    twoListsMoves.foldlM (FanIn.step (writer Nat "db" "rp")) twoLists.start = some s ∧
      s.out = some .nil ∧ TrueOutcome twoLists "db" "rp" twoListsMoves s :=
  ⟨_, rfl, rfl, writePoints_outcome twoLists "db" "rp" twoListsMoves _ rfl⟩

end InfluxCluster.Cluster
