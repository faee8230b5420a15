import EdgeRuntime.Supervisor.Loop
import Mathlib

/-! # The near-heap-limit callback

`create_supervisor` registers a callback the isolate calls as its heap nears the limit (lines
69–82).  Besides notifying the supervisor on `memory_limit_tx` (`Action.nearHeapLimit` in
`Supervisor.System`), it returns the isolate's next limit: `cur * (conf.low_memory_multiplier as
usize)`, a grace allowance until the termination lands.  Nothing bounds how often it is called
before then, so the limits compound: after `k` calls from `L₀` the limit is `L₀ · m ^ k`, as long
as that fits in a `usize` (`heapLimitAfter_val_of_lt`).  Past that the product wraps
(`heapLimitAfter_val`), down to `0` (`heap_limit_wraps_to_zero`), and with a multiplier below
two the limit does not grow at all (`heap_limit_does_not_grow`).

`usize` is 64 bits wide, and its product wraps at `2 ^ 64` as in a release build; a debug build
would panic there instead.
-/

namespace EdgeRuntime.Supervisor

/-- `usize` on 64-bit targets. -/
abbrev Usize := Fin (2 ^ 64)

variable (conf : UserWorkerRuntimeOpts)

/-- The limit the near-heap-limit callback returns when the isolate hands it `cur`. -/
def nearHeapLimitCallback (cur : Usize) : Usize :=
  cur * (conf.lowMemoryMultiplier : Usize)

/-- The limit after `k` successive calls, each handed the limit the previous one returned. -/
def heapLimitAfter (L₀ : Usize) (k : Nat) : Usize := (nearHeapLimitCallback conf)^[k] L₀

theorem heapLimitAfter_succ (L₀ : Usize) (k : Nat) :
    heapLimitAfter conf L₀ (k + 1) = nearHeapLimitCallback conf (heapLimitAfter conf L₀ k) :=
  Function.iterate_succ_apply' _ _ _

/-- The limit after `k` calls, in wrapping arithmetic. -/
theorem heapLimitAfter_val (L₀ : Usize) (k : Nat) :
    (heapLimitAfter conf L₀ k).val =
      L₀.val * (conf.lowMemoryMultiplier % 2 ^ 64) ^ k % 2 ^ 64 := by
  induction k with
  | zero => rw [Nat.pow_zero, Nat.mul_one, Nat.mod_eq_of_lt L₀.isLt]; rfl
  | succ k ih =>
    rw [heapLimitAfter_succ, nearHeapLimitCallback, Fin.val_mul, ih, Fin.val_natCast,
      Nat.mod_mul_mod, Nat.mul_assoc, ← Nat.pow_succ]

/-- While `L₀ · m ^ k` fits in a `usize`, the `k`-th limit is exactly that product. -/
theorem heapLimitAfter_val_of_lt {L₀ : Usize} {k : Nat} (hL : 1 ≤ L₀.val)
    (hfit : L₀.val * conf.lowMemoryMultiplier ^ k < 2 ^ 64) :
    (heapLimitAfter conf L₀ k).val = L₀.val * conf.lowMemoryMultiplier ^ k := by
  rw [heapLimitAfter_val]
  cases k with
  | zero => simp only [Nat.pow_zero, Nat.mul_one]; exact Nat.mod_eq_of_lt L₀.isLt
  | succ k =>
    have hmfit : conf.lowMemoryMultiplier < 2 ^ 64 :=
      calc conf.lowMemoryMultiplier ≤ conf.lowMemoryMultiplier ^ (k + 1) :=
            Nat.le_self_pow (Nat.succ_ne_zero k) _
        _ ≤ L₀.val * conf.lowMemoryMultiplier ^ (k + 1) := Nat.le_mul_of_pos_left _ hL
        _ < 2 ^ 64 := hfit
    rw [Nat.mod_eq_of_lt hmfit, Nat.mod_eq_of_lt hfit]

/-- **Compounding grace limits.**  With a multiplier `m ≥ 2` and a starting limit `L₀ ≥ 1`,
as long as `L₀ · m ^ k` fits in a `usize`, the limits of the first `k` calls strictly increase
and the `k`-th is `L₀ · m ^ k`. -/
theorem heap_limit_compounds (L₀ : Usize) (k : Nat) (hm : 2 ≤ conf.lowMemoryMultiplier)
    (hL : 1 ≤ L₀.val) (hfit : L₀.val * conf.lowMemoryMultiplier ^ k < 2 ^ 64) :
    (heapLimitAfter conf L₀ k).val = L₀.val * conf.lowMemoryMultiplier ^ k ∧
      ∀ j < k, heapLimitAfter conf L₀ j < heapLimitAfter conf L₀ (j + 1) := by
  have hm1 : 1 ≤ conf.lowMemoryMultiplier := by omega
  have hfit' : ∀ j ≤ k, L₀.val * conf.lowMemoryMultiplier ^ j < 2 ^ 64 := fun j hj =>
    lt_of_le_of_lt (Nat.mul_le_mul_left _ (Nat.pow_le_pow_right hm1 hj)) hfit
  refine ⟨heapLimitAfter_val_of_lt conf hL hfit, fun j hj => ?_⟩
  rw [Fin.lt_iff_val_lt_val, heapLimitAfter_val_of_lt conf hL (hfit' j (by omega)),
    heapLimitAfter_val_of_lt conf hL (hfit' (j + 1) hj)]
  calc L₀.val * conf.lowMemoryMultiplier ^ j
      < L₀.val * conf.lowMemoryMultiplier ^ j * conf.lowMemoryMultiplier :=
        (Nat.lt_mul_iff_one_lt_right (Nat.mul_pos hL (Nat.pos_pow_of_pos j (by omega)))).mpr hm
    _ = L₀.val * conf.lowMemoryMultiplier ^ (j + 1) := by rw [Nat.mul_assoc, ← Nat.pow_succ]

theorem heap_limit_compounds_at_two :
    (2 ≤ 2 ∧ 1 ≤ (1 : Usize).val ∧ (1 : Usize).val * 2 ^ 3 < 2 ^ 64) ∧
      (heapLimitAfter ⟨2, 1, 0, 0⟩ 1 3).val = 1 * 2 ^ 3 ∧
      ∀ j < 3, heapLimitAfter ⟨2, 1, 0, 0⟩ 1 j < heapLimitAfter ⟨2, 1, 0, 0⟩ 1 (j + 1) :=
  ⟨by decide, heap_limit_compounds ⟨2, 1, 0, 0⟩ 1 3 (by decide) (by decide) (by decide)⟩

/-- With `low_memory_multiplier = 1` the callback hands back the same limit: nothing makes the
limit grow. -/
theorem heap_limit_does_not_grow :
    ¬ (1 : Usize) < nearHeapLimitCallback ⟨1, 1, 0, 0⟩ 1 := by
  decide

/-- With `low_memory_multiplier = 2`, a limit of `2 ^ 63` bytes doubles to `2 ^ 64`, which wraps
to `0`: once `L₀ · m ^ k` no longer fits in a `usize`, the limit does not grow. -/
theorem heap_limit_wraps_to_zero :
    nearHeapLimitCallback ⟨2, 1, 0, 0⟩ ⟨2 ^ 63, by norm_num⟩ = 0 := by
  decide

end EdgeRuntime.Supervisor
