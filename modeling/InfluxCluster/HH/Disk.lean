/-
  The disk under a hinted-handoff queue: one directory, its files, and the calls of package `os`
  that `hh/queue.go` makes on them.

  A directory maps names to files and sub-directories.  Names are character lists; `readDir` lists
  them in STRING order, as `ioutil.ReadDir` documents, whatever the order of creation — the queue
  gets its segments back in that order.  Names of segments are decimal numbers below 2^64
  (`formatUint`, `parseUint`); a longer number is no name of a segment, and its file is skipped.

  Faults.  Each `Write`, `Read` and `Sync` first takes the next entry of `script`: `ok`, or
  `fail n`, an error that a write returns after it has written `n` bytes.  An empty script means
  that nothing fails from here on, and `Calm n` that the next `n` calls succeed.  Apart from the
  script a write fails only where the kernel refuses it: no file grows past the largest offset
  (`maxOffset`).

  A file is found under its name.  Every handle of the queue is closed before its file is removed.
  So as long as no two segments share a file (`NextFree` in `QueueSpec`), a handle on an unlinked
  file never occurs.
-/
import Mathlib.Data.List.AList
import Mathlib.Data.List.Lex
import Mathlib.Data.List.Sort
import Mathlib.Data.Char
import InfluxCluster.Lib.Bytes

namespace InfluxCluster.HH

open InfluxCluster.Lib

/-! ## Names -/

/-- A file name within the queue's directory. -/
abbrev FileName := List Char

/-- `strconv.FormatUint(n, 10)`. -/
def formatUint (n : Nat) : FileName := Nat.toDigits 10 n

/-- `strconv.ParseUint(s, 10, 64)`: digits only, at least one, and a number below 2^64. -/
def parseUint (s : FileName) : Option Nat :=
  if s ≠ [] ∧ s.all Char.isDigit ∧ Nat.ofDigitChars 10 s 0 < 2 ^ 64 then
    some (Nat.ofDigitChars 10 s 0)
  else none

/-- What has been formatted is parsed again, if it is a `uint64`. -/
theorem parseUint_formatUint {n : Nat} (hn : n < 2 ^ 64) : parseUint (formatUint n) = some n := by
  have hd : (Nat.toDigits 10 n).all Char.isDigit = true := by
    rw [List.all_eq_true]
    exact fun c hc => Nat.isDigit_of_mem_toDigits (by decide) (by decide) hc
  have hval : Nat.ofDigitChars 10 (Nat.toDigits 10 n) 0 = n := Nat.ofDigitChars_ten_toDigits
  rw [parseUint, formatUint, hval, if_pos ⟨Nat.toDigits_ne_nil, hd, hn⟩]

/-- What is parsed is a `uint64`. -/
theorem parseUint_lt {s : FileName} {n : Nat} (h : parseUint s = some n) : n < 2 ^ 64 := by
  rw [parseUint] at h
  split at h
  · rename_i hs
    cases h
    exact hs.2.2
  · cases h

/-! ## Files and directories -/

/-- Nanoseconds since Go's zero time. -/
abbrev Time := Nat

/-- A regular file. -/
structure File where
  data : Bytes
  modTime : Time
  deriving DecidableEq

/-- A directory entry. -/
inductive Entry
  | file (f : File)
  | dir
  deriving DecidableEq

/-- What the next I/O call does: succeed, or fail (a write after `n` bytes). -/
inductive Outcome
  | ok
  | fail (n : Nat)
  deriving DecidableEq

/-- The directory of a queue, the wall clock, and the faults to come. -/
structure Disk where
  entries : AList (fun _ : FileName => Entry)
  now : Time
  script : List Outcome

/-- The largest offset a file can have (`off_t` is a signed 64-bit number). -/
def maxOffset : Nat := 2 ^ 63 - 1

namespace Disk

/-- An empty directory. -/
def empty : Disk := { entries := ∅, now := 0, script := [] }

/-- The regular file of that name. -/
def file? (d : Disk) (name : FileName) : Option File :=
  match d.entries.lookup name with
  | some (.file f) => some f
  | _ => none

/-- The disk with that file under that name. -/
def put (d : Disk) (name : FileName) (f : File) : Disk :=
  { d with entries := d.entries.insert name (.file f) }

/-- `os.Remove`. -/
def remove (d : Disk) (name : FileName) : Disk :=
  { d with entries := d.entries.erase name }

/-- `os.RemoveAll` of the directory. -/
def removeAll (d : Disk) : Disk := { d with entries := ∅ }

/-- The disk `n` I/O calls later. -/
def skip (d : Disk) (n : Nat) : Disk := { d with script := d.script.drop n }

/-- What the next I/O call does. -/
def outcome (d : Disk) : Outcome := d.script.headD .ok

/-- The next `n` I/O calls succeed. -/
def Calm (d : Disk) (n : Nat) : Prop := ∀ o ∈ d.script.take n, o = .ok

@[simp] theorem file?_put_self (d : Disk) (name : FileName) (f : File) :
    (d.put name f).file? name = some f := by
  rw [file?, put, AList.lookup_insert]

/-- Files are found in the entries, whatever the clock and the faults to come. -/
theorem file?_congr {d d' : Disk} {name : FileName}
    (h : d'.entries.lookup name = d.entries.lookup name) : d'.file? name = d.file? name := by
  rw [file?, file?, h]

/-- A file that is found is an entry. -/
theorem lookup_of_file? {d : Disk} {name : FileName} {f : File} (h : d.file? name = some f) :
    d.entries.lookup name = some (.file f) := by
  rw [file?] at h
  split at h
  · rename_i g hg
    cases h
    exact hg
  · cases h

/-- The other files stay. -/
theorem file?_remove_ne (d : Disk) {name other : FileName} (h : other ≠ name) :
    (d.remove name).file? other = d.file? other := by
  rw [file?, remove, AList.lookup_erase_ne h, file?]

@[simp] theorem file?_remove_self (d : Disk) (name : FileName) :
    (d.remove name).file? name = none := by
  rw [file?, remove, AList.lookup_erase]

@[simp] theorem put_put (d : Disk) (name : FileName) (f g : File) :
    (d.put name f).put name g = d.put name g := by
  rw [put, put, AList.insert_insert]; rfl

@[simp] theorem skip_put (d : Disk) (name : FileName) (f : File) (n : Nat) :
    (d.put name f).skip n = (d.skip n).put name f := rfl

@[simp] theorem now_skip (d : Disk) (n : Nat) : (d.skip n).now = d.now := rfl

@[simp] theorem now_put (d : Disk) (name : FileName) (f : File) : (d.put name f).now = d.now := rfl

@[simp] theorem skip_skip (d : Disk) (m n : Nat) : (d.skip m).skip n = d.skip (m + n) := by
  rw [skip, skip, List.drop_drop]; rfl

/-- The next call does not fail. -/
theorem outcome_of_calm {d : Disk} {n : Nat} (h : d.Calm (n + 1)) : d.outcome = .ok := by
  rw [outcome]
  cases hs : d.script with
  | nil => rfl
  | cons o os => exact h o (by rw [hs]; exact List.mem_cons_self)

theorem calm_skip {d : Disk} {m n : Nat} (h : d.Calm (m + n)) : (d.skip m).Calm n := by
  intro o ho
  refine h o ?_
  rw [skip, List.take_drop] at ho
  exact List.mem_of_mem_drop ho

theorem calm_zero (d : Disk) : d.Calm 0 := fun _ ho => absurd ho List.not_mem_nil

/-- Calm for one call, and then for the others. -/
theorem calm_succ_iff {d : Disk} {n : Nat} :
    d.Calm (n + 1) ↔ d.outcome = .ok ∧ (d.skip 1).Calm n := by
  rw [Calm, Calm, outcome, skip]
  cases d.script with
  | nil => simp
  | cons o os => simp

theorem calm_of_script_nil {d : Disk} (h : d.script = []) (n : Nat) : d.Calm n := by
  intro o ho
  rw [h, List.take_nil] at ho
  cases ho

/-- `ioutil.ReadDir`: the entries sorted by file name. -/
def readDir (d : Disk) : List (FileName × Entry) :=
  (d.entries.entries.map (fun e => (e.1, e.2))).insertionSort (fun a b => a.1 ≤ b.1)

/-- The listing has the names that are there. -/
theorem mem_readDir {d : Disk} {name : FileName} {e : Entry} :
    (name, e) ∈ d.readDir ↔ d.entries.lookup name = some e := by
  rw [readDir, List.mem_insertionSort, List.mem_map, ← Option.mem_def, AList.mem_lookup_iff]
  constructor
  · rintro ⟨⟨n, x⟩, hx, heq⟩
    obtain ⟨rfl, rfl⟩ := Prod.mk.inj heq
    exact hx
  · intro h
    exact ⟨⟨name, e⟩, h, rfl⟩

/-- The names come in increasing order, each once. -/
theorem readDir_sorted (d : Disk) : (d.readDir.map Prod.fst).Pairwise (· < ·) := by
  have hsorted : (d.readDir.map Prod.fst).Pairwise (· ≤ ·) := by
    rw [List.pairwise_map]
    exact List.pairwise_insertionSort _ _
  have hnodup : (d.readDir.map Prod.fst).Nodup := by
    have hperm := (List.perm_insertionSort (fun a b : FileName × Entry => a.1 ≤ b.1)
      (d.entries.entries.map fun e => (e.1, e.2))).map Prod.fst
    refine hperm.nodup_iff.mpr ?_
    rw [List.map_map]
    exact d.entries.nodupKeys
  exact (hsorted.and hnodup).imp fun h => lt_of_le_of_ne h.1 h.2

end Disk

end InfluxCluster.HH
