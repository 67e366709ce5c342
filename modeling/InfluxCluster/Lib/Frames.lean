/-
  Length-prefixed records: the framing of a record list, and its parser.

  `frames w rs` writes each record of `rs` as a `w`-byte big-endian length followed by its bytes.
  `deframe w b` reads such a string back, all of it or not at all.  The two are inverse:

  * `deframe_frames`  — what was framed is read back, for records whose length fits the header;
  * `deframe_sound`   — what is read IS the framing of the result: the parser accepts nothing else.

  A reader that resumes in the middle needs to know where records begin: `offset w rs k` is the
  position of record `k`, and `frames_drop_offset` says that the string from there on is the
  framing of the records from `k` on.  Contents that look like lengths do no harm: nothing here
  searches for a header, it only ever counts.
-/
import InfluxCluster.Lib.Bytes

namespace InfluxCluster.Lib

/-- One record: its length, then its bytes. -/
def frame (w : Nat) (r : Bytes) : Bytes := beBytes w r.length ++ r

/-- A record list, record after record. -/
def frames (w : Nat) (rs : List Bytes) : Bytes := rs.flatMap (frame w)

@[simp] theorem frames_nil (w : Nat) : frames w [] = [] := rfl

@[simp] theorem frames_cons (w : Nat) (r : Bytes) (rs : List Bytes) :
    frames w (r :: rs) = frame w r ++ frames w rs := rfl

@[simp] theorem frames_append (w : Nat) (rs ss : List Bytes) :
    frames w (rs ++ ss) = frames w rs ++ frames w ss := List.flatMap_append

@[simp] theorem frame_length (w : Nat) (r : Bytes) : (frame w r).length = w + r.length := by
  rw [frame, List.length_append, beBytes_length]

/-! ## The parser -/

/-- Read records until the string is used up; `fuel` bounds the number of records. -/
def deframeFuel (w : Nat) : Nat → Bytes → Option (List Bytes)
  | 0, b => if b = [] then some [] else none
  | fuel + 1, b =>
    if b = [] then some []
    else if b.length < w then none
    else
      let n := beNat (b.take w)
      if (b.drop w).length < n then none
      else (deframeFuel w fuel ((b.drop w).drop n)).map (fun rs => (b.drop w).take n :: rs)

/-- Read a whole string as records.  A record takes at least `w` bytes, so (for `w > 0`) the
    length of the string is fuel enough. -/
def deframe (w : Nat) (b : Bytes) : Option (List Bytes) := deframeFuel w b.length b

/-- One record in front of the rest is read as that record. -/
theorem deframeFuel_frame {w fuel : Nat} {r rest : Bytes} (hw : 0 < w)
    (hr : r.length < 256 ^ w) :
    deframeFuel w (fuel + 1) (frame w r ++ rest)
      = (deframeFuel w fuel rest).map (fun rs => r :: rs) := by
  have hlen : (beBytes w r.length).length = w := beBytes_length w r.length
  have htake : (frame w r ++ rest).take w = beBytes w r.length := by
    rw [frame, List.append_assoc, List.take_left' hlen]
  have hdrop : (frame w r ++ rest).drop w = r ++ rest := by
    rw [frame, List.append_assoc, List.drop_left' hlen]
  have hl : (frame w r ++ rest).length = w + r.length + rest.length := by
    rw [List.length_append, frame_length]
  have hne : frame w r ++ rest ≠ [] := by
    intro h
    rw [h, List.length_nil] at hl
    omega
  rw [deframeFuel, if_neg hne, if_neg (by rw [hl]; omega)]
  simp only [htake, hdrop, beNat_beBytes hr]
  rw [if_neg (by rw [List.length_append]; omega), List.take_left, List.drop_left]

/-- **Round trip.**  The parser reads back what was framed. -/
theorem deframe_frames {w : Nat} (hw : 0 < w) {rs : List Bytes}
    (h : ∀ r ∈ rs, r.length < 256 ^ w) : deframe w (frames w rs) = some rs := by
  have key : ∀ (rs : List Bytes) (fuel : Nat), (∀ r ∈ rs, r.length < 256 ^ w) →
      (frames w rs).length ≤ fuel → deframeFuel w fuel (frames w rs) = some rs := by
    intro rs
    induction rs with
    | nil => intro fuel _ _; cases fuel <;> rfl
    | cons r rs ih =>
      intro fuel hrs hfuel
      rw [frames_cons, List.length_append, frame_length] at hfuel
      obtain ⟨fuel', rfl⟩ : ∃ fuel', fuel = fuel' + 1 := ⟨fuel - 1, by omega⟩
      rw [frames_cons, deframeFuel_frame hw (hrs r List.mem_cons_self),
        ih fuel' (fun x hx => hrs x (List.mem_cons_of_mem r hx)) (by omega)]
      rfl
  exact key rs _ h (Nat.le_refl _)

/-- **Soundness.**  A string that is read as `rs` is the framing of `rs`. -/
theorem deframe_sound {w : Nat} {b : Bytes} {rs : List Bytes} (h : deframe w b = some rs) :
    b = frames w rs := by
  have key : ∀ (fuel : Nat) (b : Bytes) (rs : List Bytes), deframeFuel w fuel b = some rs →
      b = frames w rs := by
    intro fuel
    induction fuel with
    | zero =>
      intro b rs h
      rw [deframeFuel] at h
      split at h
      · rename_i hb; rw [hb, ← Option.some.inj h]; rfl
      · cases h
    | succ fuel ih =>
      intro b rs h
      rw [deframeFuel] at h
      split at h
      · rename_i hb; rw [hb, ← Option.some.inj h]; rfl
      · split at h
        · cases h
        · rename_i hw
          simp only at h
          split at h
          · cases h
          · rename_i hn
            obtain ⟨ss, hss, hrs⟩ := Option.map_eq_some_iff.mp h
            -- the header is the encoding of the length it announces
            have hhead : beBytes w (beNat (b.take w)) = b.take w := by
              have := beBytes_beNat (b.take w)
              rwa [List.length_take, Nat.min_eq_left (by omega)] at this
            have hbody : ((b.drop w).take (beNat (b.take w))).length = beNat (b.take w) := by
              rw [List.length_take, Nat.min_eq_left (by omega)]
            rw [← hrs, frames_cons, frame, hbody, hhead, ← ih _ _ hss, List.append_assoc,
              List.take_append_drop, List.take_append_drop]
  exact key _ _ _ h

/-! ## Where records begin -/

/-- The position of record `k`: the bytes the first `k` records take. -/
def offset (w : Nat) (rs : List Bytes) (k : Nat) : Nat := (frames w (rs.take k)).length

theorem offset_length (w : Nat) (rs : List Bytes) :
    offset w rs rs.length = (frames w rs).length := by
  rw [offset, List.take_length]

/-- The records before `k`, then the records from `k` on. -/
theorem frames_split (w : Nat) (rs : List Bytes) (k : Nat) :
    frames w rs = frames w (rs.take k) ++ frames w (rs.drop k) := by
  rw [← frames_append, List.take_append_drop]

theorem offset_add_rest (w : Nat) (rs : List Bytes) (k : Nat) :
    offset w rs k + (frames w (rs.drop k)).length = (frames w rs).length := by
  rw [offset, ← List.length_append, ← frames_split]

theorem offset_le (w : Nat) (rs : List Bytes) (k : Nat) : offset w rs k ≤ (frames w rs).length := by
  have := offset_add_rest w rs k
  omega

/-- From the position of record `k` on, the string is the framing of the records from `k` on. -/
theorem frames_drop_offset (w : Nat) (rs : List Bytes) (k : Nat) :
    (frames w rs).drop (offset w rs k) = frames w (rs.drop k) := by
  rw [frames_split w rs k, offset, List.drop_left]

/-- Records added at the end do not move the ones before. -/
theorem offset_append {w : Nat} {rs ss : List Bytes} {k : Nat} (h : k ≤ rs.length) :
    offset w (rs ++ ss) k = offset w rs k := by
  rw [offset, offset, List.take_append_of_le_length h]

/-- Record `k + 1` begins where record `k` ends. -/
theorem offset_succ {w : Nat} {rs : List Bytes} {k : Nat} (h : k < rs.length) :
    offset w rs (k + 1) = offset w rs k + w + rs[k].length := by
  rw [offset, offset, List.take_succ_eq_append_getElem h, frames_append, List.length_append,
    frames_cons, frames_nil, List.append_nil, frame_length]
  omega

/-- A reader stands at the end of the records exactly when it has passed them all. -/
theorem offset_eq_end_iff {w : Nat} (hw : 0 < w) {rs : List Bytes} {k : Nat}
    (h : k ≤ rs.length) : offset w rs k = (frames w rs).length ↔ k = rs.length := by
  constructor
  · intro heq
    rcases Nat.lt_or_eq_of_le h with hlt | heq'
    · have hs := offset_succ (w := w) hlt
      have hle := offset_le w rs (k + 1)
      omega
    · exact heq'
  · rintro rfl
    exact offset_length w rs

/-- Record `k` as the reader finds it: its header, its bytes, the records after it. -/
theorem frames_drop_offset_cons {w : Nat} {rs : List Bytes} {k : Nat} (h : k < rs.length) :
    (frames w rs).drop (offset w rs k)
      = beBytes w rs[k].length ++ (rs[k] ++ frames w (rs.drop (k + 1))) := by
  rw [frames_drop_offset, List.drop_eq_getElem_cons h, frames_cons, frame, List.append_assoc]

/-- Every record fits in the bytes the list takes. -/
theorem length_le_frames {w : Nat} {rs : List Bytes} {r : Bytes} (h : r ∈ rs) :
    w + r.length ≤ (frames w rs).length := by
  induction rs with
  | nil => cases h
  | cons s rs ih =>
    rw [frames_cons, List.length_append, frame_length]
    rcases List.mem_cons.mp h with h | h
    · subst h; omega
    · have := ih h; omega

end InfluxCluster.Lib
