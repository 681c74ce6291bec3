import Mathlib.Data.List.Basic
import Mathlib.Data.List.TakeWhile

/-! The string functions of C on a block of bytes, with their accesses checked: `none` is a read or a write
outside the block. -/

namespace DeepinServiceManager.CStrings

abbrev Block := List UInt8

/-- The string that starts at the first byte. -/
def cstring : Block → Option (List UInt8)
  | [] => none
  | b :: rest => if b = 0 then some [] else (cstring rest).map (b :: ·)

def strlen (mem : Block) (p : ℕ) : Option ℕ := (cstring (mem.drop p)).map List.length

def write (mem : Block) (p : ℕ) (bytes : List UInt8) : Option Block :=
  if p + bytes.length ≤ mem.length then some (mem.take p ++ bytes ++ mem.drop (p + bytes.length)) else none

/-- The `n` bytes that `strncpy` writes for the string at the start of `src`. -/
def padded : ℕ → Block → Option (List UInt8)
  | 0, _ => some []
  | _ + 1, [] => none
  | n + 1, b :: rest => if b = 0 then some (List.replicate (n + 1) 0) else (padded n rest).map (b :: ·)

def strcpy (mem : Block) (p : ℕ) (src : Block) : Option Block := do
  let s ← cstring src
  write mem p (s ++ [0])

def strncpy (mem : Block) (p : ℕ) (src : Block) (n : ℕ) : Option Block := do
  if p + n ≤ mem.length then write mem p (← padded n src) else none

def memset (mem : Block) (p : ℕ) (b : UInt8) (n : ℕ) : Option Block :=
  if p + n ≤ mem.length then write mem p (List.replicate n b) else none

theorem cstring_eq_some_iff {l : Block} {s : List UInt8} :
    cstring l = some s ↔ 0 ∉ s ∧ ∃ rest, l = s ++ 0 :: rest := by
  induction l generalizing s with
  | nil => simp [cstring]
  | cons b l ih =>
    rw [cstring]
    split_ifs with hb
    · subst hb
      cases s with
      | nil => simp
      | cons c s =>
        simp only [Option.some.injEq, List.nil_eq, reduceCtorEq, false_iff]
        rintro ⟨hzero, rest, heq⟩
        rw [List.cons_append, List.cons.injEq] at heq
        exact hzero (heq.1 ▸ List.mem_cons_self)
    · cases s with
      | nil => simp [hb]
      | cons c s =>
        simp only [Option.map_eq_some_iff, ih, List.cons.injEq, List.mem_cons, not_or, List.cons_append]
        constructor
        · rintro ⟨s', ⟨hzero, rest, rfl⟩, rfl, rfl⟩
          exact ⟨⟨Ne.symm hb, hzero⟩, rest, rfl, rfl⟩
        · rintro ⟨⟨-, hzero⟩, rest, rfl, rfl⟩
          exact ⟨s, ⟨hzero, rest, rfl⟩, rfl, rfl⟩

theorem cstring_append {s : List UInt8} (hzero : 0 ∉ s) (rest : List UInt8) : cstring (s ++ 0 :: rest) = some s :=
  cstring_eq_some_iff.mpr ⟨hzero, rest, rfl⟩

theorem strlen_eq_some_iff {mem : Block} {p n : ℕ} :
    strlen mem p = some n ↔ ∃ s rest, mem.drop p = s ++ 0 :: rest ∧ 0 ∉ s ∧ s.length = n := by
  simp only [strlen, Option.map_eq_some_iff, cstring_eq_some_iff]
  constructor
  · rintro ⟨s, ⟨hzero, rest, hdrop⟩, hlen⟩
    exact ⟨s, rest, hdrop, hzero, hlen⟩
  · rintro ⟨s, rest, hdrop, hzero, hlen⟩
    exact ⟨s, ⟨hzero, rest, hdrop⟩, hlen⟩

theorem strlen_lt {mem : Block} {p n : ℕ} (h : strlen mem p = some n) : p + n < mem.length := by
  obtain ⟨s, rest, hdrop, -, rfl⟩ := strlen_eq_some_iff.mp h
  have hlen := congrArg List.length hdrop
  rw [List.length_drop, List.length_append, List.length_cons] at hlen
  omega

theorem padded_eq {src : Block} {s : List UInt8} (h : cstring src = some s) (n : ℕ) :
    padded n src = some (s.take n ++ List.replicate (n - s.length) 0) := by
  induction n generalizing src s with
  | zero => simp [padded]
  | succ n ih =>
    cases src with
    | nil => cases h
    | cons b rest =>
      rw [cstring] at h
      rw [padded]
      split_ifs at h ⊢ with hb
      · cases h
        rfl
      · obtain ⟨s', hs', rfl⟩ := Option.map_eq_some_iff.mp h
        rw [ih hs']
        simp

theorem strncpy_outside {mem : Block} {p n : ℕ} (h : mem.length < p + n) (src : Block) : strncpy mem p src n = none :=
  if_neg (Nat.not_le.mpr h)

theorem write_eq_some {mem mem' : Block} {p : ℕ} {bytes : List UInt8} (h : write mem p bytes = some mem') :
    p + bytes.length ≤ mem.length ∧ mem' = mem.take p ++ bytes ++ mem.drop (p + bytes.length) := by
  rw [write] at h
  split_ifs at h with hp
  cases h
  exact ⟨hp, rfl⟩

/-- A second write that begins inside the first one and covers the rest of it. -/
theorem write_write (mem : Block) (p : ℕ) (a b c : List UInt8) (hp : p + (a ++ c).length ≤ mem.length)
    (hb : b.length ≤ c.length) :
    (write mem p (a ++ b)).bind (fun mem => write mem (p + a.length) c) = write mem p (a ++ c) := by
  simp only [List.length_append] at hp
  have hfirst : write mem p (a ++ b) = some (mem.take p ++ (a ++ b) ++ mem.drop (p + (a ++ b).length)) :=
    if_pos (by simp only [List.length_append]; omega)
  have hlen : (mem.take p).length = p := by rw [List.length_take]; omega
  rw [hfirst, Option.bind_some, write, write, if_pos, if_pos]
  · have htake : (mem.take p ++ (a ++ b) ++ mem.drop (p + (a ++ b).length)).take (p + a.length) = mem.take p ++ a := by
      rw [List.append_assoc, List.take_append, hlen, List.take_of_length_le (by omega)]
      simp [List.append_assoc]
    have hdrop : (mem.take p ++ (a ++ b) ++ mem.drop (p + (a ++ b).length)).drop (p + a.length + c.length) =
        mem.drop (p + (a ++ c).length) := by
      rw [List.drop_append, List.drop_eq_nil_of_le (by simp only [List.length_append, hlen]; omega),
        List.nil_append, List.drop_drop]
      congr 1
      simp only [List.length_append, hlen]
      omega
    rw [htake, hdrop, List.append_assoc (mem.take p) a c]
  · simp only [List.length_append]
    omega
  · simp only [List.length_append, List.length_drop, hlen]
    omega

end DeepinServiceManager.CStrings
