import Mathlib.Algebra.Group.Nat.Defs
import DeepinServiceManager.CheckedLoops
import DeepinServiceManager.CStrings

namespace DeepinServiceManager

open CheckedLoops CStrings

namespace Utils

/-- The difference of two values of type `size_t`, which wraps around. -/
def sizeSub (a b : ℕ) : ℕ := if b ≤ a then a - b else 2 ^ 64 - (b - a)

/-- `mem` is the block that holds the argument strings, and `argv` has the pointers into it. -/
def setProcessName (mem : Block) (argc : ℕ) (argv : List ℕ) (title : Block) : Option Block := do
  let titleLen ← strlen title 0
  let first ← readAt argv 0
  let last ← readAt argv (argc - 1)
  let argvMaxLen := sizeSub (last + (← strlen mem last)) first
  if argvMaxLen ≤ titleLen then
    let mem ← strncpy mem first title (sizeSub argvMaxLen 1)
    write mem (first + sizeSub argvMaxLen 1) [0]
  else
    let mem ← strcpy mem first title
    memset mem (first + titleLen) 0 (argvMaxLen - titleLen)

end Utils

namespace ProcessName

open Utils

theorem sizeSub_of_le {a b : ℕ} (h : b ≤ a) : sizeSub a b = a - b := if_pos h

/-- What stands in the `span` bytes between the first argument and the end of the last one. -/
def shown (span : ℕ) (name : List UInt8) : List UInt8 :=
  name.take (span - 1) ++ List.replicate (span - min (span - 1) name.length) 0

theorem length_shown {span : ℕ} (hspan : 0 < span) (name : List UInt8) : (shown span name).length = span := by
  rw [shown, List.length_append, List.length_take, List.length_replicate]
  omega

variable {mem mem' title : Block} {name : List UInt8} {argc first last n : ℕ} {argv : List ℕ}

theorem truncated (hname : cstring title = some name) {span : ℕ} (hspan : 0 < span) (hle : span ≤ name.length)
    (hfits : first + span ≤ mem.length) :
    ((strncpy mem first title (span - 1)).bind fun mem => write mem (first + (span - 1)) [0]) =
      write mem first (shown span name) := by
  have htake : (name.take (span - 1)).length = span - 1 := by rw [List.length_take]; omega
  have hpad : span - 1 - name.length = 0 := by omega
  have hzero : span - min (span - 1) name.length = 1 := by omega
  have hwrite := write_write mem first (name.take (span - 1)) [] [0]
    (by rw [List.length_append, htake, List.length_singleton]; omega) (Nat.zero_le _)
  rw [htake, List.append_nil] at hwrite
  rw [strncpy, if_pos (by omega), padded_eq hname, hpad, List.replicate_zero, List.append_nil, shown, hzero]
  exact hwrite

theorem fitting (hname : cstring title = some name) {span : ℕ} (hlt : name.length < span)
    (hfits : first + span ≤ mem.length) :
    ((strcpy mem first title).bind fun mem => memset mem (first + name.length) 0 (span - name.length)) =
      write mem first (shown span name) := by
  have htake : name.take (span - 1) = name := List.take_of_length_le (by omega)
  have hmin : min (span - 1) name.length = name.length := by omega
  have hset {mem₁ : Block} (hlen : mem₁.length = mem.length) : memset mem₁ (first + name.length) 0 (span - name.length) =
      write mem₁ (first + name.length) (List.replicate (span - name.length) 0) :=
    if_pos (by omega)
  have hwrite := write_write mem first name [0] (List.replicate (span - name.length) 0)
    (by rw [List.length_append, List.length_replicate]; omega)
    (by rw [List.length_singleton, List.length_replicate]; omega)
  rw [strcpy, hname, shown, htake, hmin, ← hwrite]
  apply Option.bind_congr
  intro mem₁ hmem₁
  apply hset
  obtain ⟨hle, rfl⟩ := write_eq_some hmem₁
  simp only [List.length_append, List.length_take, List.length_drop] at hle ⊢
  omega

theorem setProcessName_iff (hfirst : readAt argv 0 = some first) (hlast : readAt argv (argc - 1) = some last)
    (horder : first ≤ last) (hlen : strlen mem last = some n) (hname : cstring title = some name)
    (hsize : mem.length < 2 ^ 63) : setProcessName mem argc argv title = some mem' ↔
      first < last + n ∧ mem' = mem.take first ++ shown (last + n - first) name ++ mem.drop (last + n) := by
  have hend := strlen_lt hlen
  have htitle : strlen title 0 = some name.length := by rw [strlen, List.drop_zero, hname, Option.map_some]
  have hspan : sizeSub (last + n) first = last + n - first := sizeSub_of_le (by omega)
  simp only [setProcessName, htitle, hfirst, hlast, hlen, hspan, Option.bind_eq_bind, Option.bind_some]
  by_cases hempty : last + n - first = 0
  · -- the length wraps around and `strncpy` leaves the block
    obtain ⟨n', hn', hwrap⟩ : ∃ n', sizeSub 0 1 = n' ∧ 2 ^ 63 ≤ n' := ⟨_, rfl, by decide⟩
    have houtside : mem.length < first + n' := by omega
    rw [hempty, if_pos (Nat.zero_le _), hn', strncpy_outside houtside]
    simp only [Option.bind_none, reduceCtorEq, false_iff, not_and]
    omega
  · have hone : sizeSub (last + n - first) 1 = last + n - first - 1 := sizeSub_of_le (by omega)
    have hwritten : write mem first (shown (last + n - first) name) = some mem' ↔ first < last + n ∧
        mem' = mem.take first ++ shown (last + n - first) name ++ mem.drop (last + n) := by
      rw [write, length_shown (by omega), if_pos (by omega), Option.some.injEq, eq_comm]
      have hstop : first + (last + n - first) = last + n := by omega
      rw [hstop, iff_and_self]
      intro
      omega
    rw [hone]
    split_ifs with hle
    · rw [truncated hname (by omega) hle (by omega), hwritten]
    · rw [fitting hname (by omega) (by omega), hwritten]

/-- The argument strings as the process finds them, one after the other, between what stands before and the
environment. -/
def block (before : List UInt8) (args : List (List UInt8)) (after : List UInt8) : Block :=
  before ++ args.flatMap (· ++ [0]) ++ after

def offset (args : List (List UInt8)) (i : ℕ) : ℕ := ((args.take i).flatMap (· ++ [0])).length

variable {before after arg : List UInt8} {args : List (List UInt8)} {k : ℕ}

theorem args_split (hk : args[k]? = some arg) : args.flatMap (· ++ [0]) =
    (args.take k).flatMap (· ++ [0]) ++ (arg ++ 0 :: (args.drop (k + 1)).flatMap (· ++ [0])) := by
  obtain ⟨hlt, hget⟩ := List.getElem?_eq_some_iff.mp hk
  have hdrop : args.drop k = arg :: args.drop (k + 1) := by rw [List.drop_eq_getElem_cons hlt, hget]
  calc args.flatMap (· ++ [0]) = (args.take k ++ args.drop k).flatMap (· ++ [0]) := by rw [List.take_append_drop]
    _ = _ := by simp [hdrop]

theorem drop_block (hk : args[k]? = some arg) : (block before args after).drop (before.length + offset args k) =
    arg ++ 0 :: ((args.drop (k + 1)).flatMap (· ++ [0]) ++ after) := by
  have hsplit : block before args after = (before ++ (args.take k).flatMap (· ++ [0])) ++
      (arg ++ 0 :: ((args.drop (k + 1)).flatMap (· ++ [0]) ++ after)) := by
    rw [block, args_split hk]
    simp
  rw [hsplit, offset, ← List.length_append, List.drop_left]

theorem offset_pos (hk : 0 < k) (hlt : k < args.length) : 0 < offset args k := by
  cases args with
  | nil => cases hlt
  | cons arg rest =>
    obtain ⟨i, rfl⟩ : ∃ i, k = i + 1 := ⟨k - 1, by omega⟩
    simp only [offset, List.take_succ_cons, List.flatMap_cons, List.length_append, List.length_singleton]
    omega

/-- `kept` are the arguments that the application object left in `argv` when it took out its own. The name replaces
everything from the program name to the end of the last argument that is left, and nothing else. The write leaves
the block only when the program name is the one argument left and is empty. -/
theorem setProcessName_args (before after : List UInt8) (args : List (List UInt8)) (kept : List ℕ)
    (hargs : ∀ arg ∈ args, 0 ∉ arg) (hfirst : kept.head? = some 0) (hlast : kept.getLast? = some k)
    (hk : args[k]? = some arg) (hname : cstring title = some name)
    (hsize : (block before args after).length < 2 ^ 63) (result : Block) :
    setProcessName (block before args after) kept.length
        (kept.map fun i => before.length + offset args i) title = some result ↔
      (0 < k ∨ arg ≠ []) ∧ result = before ++ shown (offset args k + arg.length) name ++
        0 :: ((args.drop (k + 1)).flatMap (· ++ [0]) ++ after) := by
  have hzero : offset args 0 = 0 := rfl
  have hread0 : readAt (kept.map fun i => before.length + offset args i) 0 = some before.length := by
    apply (readAt_natCast _ 0).trans
    rw [List.getElem?_map, ← List.head?_eq_getElem?, hfirst]
    rfl
  have hread : readAt (kept.map fun i => before.length + offset args i) ((kept.length : ℤ) - 1) =
      some (before.length + offset args k) := by
    have hpos : 1 ≤ kept.length := by
      cases kept with
      | nil => cases hfirst
      | cons i rest => simp
    have hcast : (kept.length : ℤ) - 1 = ((kept.length - 1 : ℕ) : ℤ) := by omega
    rw [hcast, readAt_natCast, List.getElem?_map, ← List.getLast?_eq_getElem?, hlast]
    rfl
  have hdrop : (block before args after).drop (before.length + offset args k) =
      arg ++ 0 :: ((args.drop (k + 1)).flatMap (· ++ [0]) ++ after) := drop_block hk
  have hlen : strlen (block before args after) (before.length + offset args k) = some arg.length :=
    strlen_eq_some_iff.mpr ⟨arg, _, hdrop, hargs arg (List.mem_of_getElem? hk), rfl⟩
  have htake : (block before args after).take before.length = before := by
    rw [block, List.append_assoc, List.take_left]
  have hrest : (block before args after).drop (before.length + offset args k + arg.length) =
      0 :: ((args.drop (k + 1)).flatMap (· ++ [0]) ++ after) := by
    rw [← List.drop_drop, hdrop, List.drop_left]
  have hcond : before.length < before.length + offset args k + arg.length ↔ 0 < k ∨ arg ≠ [] := by
    cases hk0 : k with
    | zero =>
      rw [hzero]
      cases arg <;> simp
    | succ i =>
      have hpos := offset_pos (by omega) (List.getElem?_eq_some_iff.mp hk).1
      rw [hk0] at hpos
      simp only [Nat.zero_lt_succ, true_or, iff_true]
      omega
  have hspan : before.length + offset args k + arg.length - before.length = offset args k + arg.length := by omega
  rw [setProcessName_iff hread0 hread (Nat.le_add_right _ _) hlen hname hsize, hcond, htake, hrest, hspan]

/-- `pr -g a` with the environment `E`, renamed to `sm: a`. -/
theorem setProcessName_args_sample : setProcessName [112, 114, 0, 45, 103, 0, 97, 0, 69, 0] 3 [0, 3, 6]
    [115, 109, 58, 32, 97, 0] = some [115, 109, 58, 32, 97, 0, 0, 0, 69, 0] :=
  (setProcessName_args [] [69, 0] [[112, 114], [45, 103], [97]] [0, 1, 2] (by decide) rfl rfl rfl rfl (by decide)
    [115, 109, 58, 32, 97, 0, 0, 0, 69, 0]).mpr ⟨.inl (by decide), by decide⟩

end ProcessName

end DeepinServiceManager
