import Mathlib.Data.List.Basic
import Mathlib.Tactic.Ring

/-! Slices of a byte string, words in either byte order, and the comparison of C strings in a memory some of
whose cells cannot be read. -/

namespace DeepinServiceManager.ByteWords

inductive ByteOrder
  | little
  | big
  deriving DecidableEq

def leNat : List UInt8 → ℕ
  | [] => 0
  | b :: bs => b.toNat + 256 * leNat bs

def word : ByteOrder → List UInt8 → ℕ
  | .little, bytes => leNat bytes
  | .big, bytes => leNat bytes.reverse

def slice (bytes : List UInt8) (offset length : ℕ) : List UInt8 := (bytes.drop offset).take length

theorem length_slice (bytes : List UInt8) (offset length : ℕ) :
    (slice bytes offset length).length = min length (bytes.length - offset) := by
  rw [slice, List.length_take, List.length_drop]

theorem length_slice_of_le {bytes : List UInt8} {offset length : ℕ} (h : offset + length ≤ bytes.length) :
    (slice bytes offset length).length = length := by
  rw [length_slice]
  omega

theorem slice_slice (bytes : List UInt8) (a : ℕ) {n b m : ℕ} (h : b + m ≤ n) :
    slice (slice bytes a n) b m = slice bytes (a + b) m := by
  unfold slice
  rw [List.drop_take, List.take_take, List.drop_drop, Nat.min_eq_left (by omega)]

theorem leNat_lt (bytes : List UInt8) : leNat bytes < 256 ^ bytes.length := by
  induction bytes with
  | nil => simp [leNat]
  | cons b bs ih =>
    have hb : b.toNat < 256 := b.toNat_lt
    rw [leNat, List.length_cons, pow_succ]
    omega

theorem leNat_take (bytes : List UInt8) (n : ℕ) : leNat (bytes.take n) = leNat bytes % 256 ^ n := by
  induction bytes generalizing n with
  | nil => simp [leNat]
  | cons b bs ih =>
    cases n with
    | zero => simp [leNat, Nat.mod_one]
    | succ n =>
      have hb : b.toNat < 256 := b.toNat_lt
      rw [List.take_succ_cons, leNat, leNat, ih, pow_succ', Nat.mod_mul, Nat.add_mul_mod_self_left,
        Nat.mod_eq_of_lt hb, Nat.add_mul_div_left _ _ (by decide), Nat.div_eq_of_lt hb, Nat.zero_add]

theorem word_lt (order : ByteOrder) (bytes : List UInt8) : word order bytes < 256 ^ bytes.length := by
  cases order with
  | little => exact leNat_lt bytes
  | big =>
    rw [word, ← List.length_reverse]
    exact leNat_lt _

abbrev Cells := List (Option UInt8)

/-- Whether the string in the cells is `target`, whose last byte is its terminator. `none` is a read of a cell that is
missing or not initialised. -/
def strcmp : Cells → List UInt8 → Option Bool
  | _, [] => some true
  | some b :: cells, c :: target => if b = c then strcmp cells target else some false
  | _, _ :: _ => none

def Named (cells : Cells) (target : List UInt8) : Prop := target.map some <+: cells

/-- As far as the cells agree with `target`, the next one can be read. -/
def Readable (cells : Cells) (target : List UInt8) : Prop :=
  ∀ k < target.length, (target.take k).map some <+: cells → ∃ b, cells[k]? = some (some b)

theorem strcmp_eq_true {cells : Cells} {target : List UInt8} :
    strcmp cells target = some true ↔ Named cells target := by
  unfold Named
  induction target generalizing cells with
  | nil => simp [strcmp]
  | cons c target ih =>
    cases cells with
    | nil => simp [strcmp]
    | cons cell cells =>
      cases cell with
      | none => simp [strcmp]
      | some b =>
        rw [strcmp, List.map_cons, List.cons_prefix_cons, Option.some.injEq]
        split_ifs with hb
        · rw [ih]
          exact ⟨fun h => ⟨hb.symm, h⟩, And.right⟩
        · constructor
          · exact fun h => nomatch h
          · exact fun h => absurd h.1.symm hb

theorem readable_cons {b c : UInt8} {cells : Cells} {target : List UInt8} :
    Readable (some b :: cells) (c :: target) ↔ (b = c → Readable cells target) := by
  constructor
  · rintro h rfl k hk hprefix
    have hnext := h (k + 1) (by simpa using hk) (by simpa using hprefix)
    simpa using hnext
  · intro h k hk hprefix
    cases k with
    | zero => exact ⟨b, rfl⟩
    | succ k =>
      simp only [List.take_succ_cons, List.map_cons, List.cons_prefix_cons, Option.some.injEq] at hprefix
      have hnext := h hprefix.1.symm k (by simpa using hk) hprefix.2
      simpa using hnext

theorem strcmp_isSome {cells : Cells} {target : List UInt8} :
    (strcmp cells target).isSome = true ↔ Readable cells target := by
  induction target generalizing cells with
  | nil =>
    simp only [strcmp, Option.isSome_some, true_iff]
    intro k hk
    cases hk
  | cons c target ih =>
    have hfirst (hnone : ∀ b, cells[0]? ≠ some (some b)) : ¬ Readable cells (c :: target) := by
      intro h
      obtain ⟨b, hb⟩ := h 0 (by simp) (by simp)
      exact hnone b hb
    cases cells with
    | nil => simpa [strcmp] using hfirst (by simp)
    | cons cell cells =>
      cases cell with
      | none => simpa [strcmp] using hfirst (by simp)
      | some b =>
        rw [strcmp, readable_cons]
        split_ifs with hb
        · simp [ih, hb]
        · simp [hb]

theorem strcmp_eq_false {cells : Cells} {target : List UInt8} :
    strcmp cells target = some false ↔ Readable cells target ∧ ¬ Named cells target := by
  rw [← strcmp_isSome, ← strcmp_eq_true]
  cases strcmp cells target with
  | none => simp
  | some b => cases b <;> simp

theorem named_cons {b c : UInt8} {cells : Cells} {target : List UInt8} :
    Named (some b :: cells) (c :: target) ↔ b = c ∧ Named cells target := by
  rw [Named, List.map_cons, List.cons_prefix_cons, Option.some.injEq, eq_comm]
  rfl

theorem named_terminated {tail target : List UInt8} (rest : Cells) (hzero : 0 ∈ tail) (htarget : 0 ∉ target) :
    Named (tail.map some ++ rest) (target ++ [0]) ↔ tail.takeWhile (· ≠ 0) = target := by
  induction tail generalizing target with
  | nil => cases hzero
  | cons b tail ih =>
    rw [List.map_cons, List.cons_append]
    by_cases hb : b = 0
    · subst hb
      cases target with
      | nil => simp [Named]
      | cons c target =>
        have hc : (0 : UInt8) ≠ c := fun h => htarget (h ▸ List.mem_cons_self)
        simp [named_cons, hc]
    · have htail : 0 ∈ tail := (List.mem_cons.1 hzero).resolve_left (fun h => hb h.symm)
      cases target with
      | nil => simp [named_cons, hb]
      | cons c target =>
        rw [List.cons_append, named_cons, ih htail (fun h => htarget (List.mem_cons_of_mem c h))]
        simp [hb]

theorem readable_terminated {tail target : List UInt8} (rest : Cells) (hzero : 0 ∈ tail) (htarget : 0 ∉ target) :
    Readable (tail.map some ++ rest) (target ++ [0]) := by
  induction tail generalizing target with
  | nil => cases hzero
  | cons b tail ih =>
    rw [List.map_cons, List.cons_append]
    cases target with
    | nil =>
      refine readable_cons.2 fun _ => ?_
      intro k hk
      cases hk
    | cons c target =>
      rw [List.cons_append, readable_cons]
      rintro rfl
      have hb : b ≠ 0 := fun h => htarget (h ▸ List.mem_cons_self)
      have htail : 0 ∈ tail := (List.mem_cons.1 hzero).resolve_left hb.symm
      exact ih htail (fun h => htarget (List.mem_cons_of_mem b h))

end DeepinServiceManager.ByteWords
