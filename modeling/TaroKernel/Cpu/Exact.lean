import TaroKernel.Cpu.Usage

/-!
# When the CPU module is right

As long as the sums fit into a word, what is printed is the part of the time since the read before
that was not idle, with two exceptions. The product by 10000 wraps around once all CPUs together
were busy for `2 ^ 64 / 10000` nanoseconds, 21 days of one CPU. And a read that found no
idle time leaves a zero behind, which the next read takes for the zero of a module just loaded.
-/

namespace Taro.Cpu

open Machine

variable {n : ℕ} {c c' : Counters n}

/-- The part of the time from `c` to `c'` that was not idle, in hundredths of a percent. -/
def exactUsage (c c' : Counters n) : ℕ :=
  if c'.total - c.total = 0 then 0 else 10000 * busy c c' / (c'.total - c.total)

/-- The times never decrease, and their sum fits into a word. -/
structure Fits (cs : List (Counters n)) : Prop where
  mono : cs.IsChain (· ≤ ·)
  lt : ∀ c ∈ cs, c.total < 2 ^ 64

lemma Fits.grows {cs : List (Counters n)} (h : Fits cs) : cs.IsChain Grows := by
  obtain ⟨hmono, hlt⟩ := h
  induction hmono with
  | nil => exact .nil
  | singleton c => exact .singleton c
  | cons_cons hle _ ih =>
    rw [List.forall_mem_cons] at hlt
    exact .cons_cons ⟨hle, Nat.lt_add_left _ (hlt.2 _ List.mem_cons_self)⟩ (ih hlt.2)

/-- A product that wraps around gives a smaller quotient, whatever it is divided by. -/
lemma mod_div_eq_div_iff {x d M : ℕ} (hd : 0 < d) (hM : d ≤ M) : x % M / d = x / d ↔ x < M := by
  refine ⟨fun h => ?_, fun h => by rw [Nat.mod_eq_of_lt h]⟩
  by_contra hx
  have hsum : x % M + d ≤ x := by
    have hdiv : M ≤ M * (x / M) :=
      Nat.le_mul_of_pos_right M (Nat.div_pos (Nat.not_lt.mp hx) (hd.trans_le hM))
    have := Nat.div_add_mod x M
    omega
  have hlt : x % M / d < x / d :=
    calc x % M / d < x % M / d + 1 := Nat.lt_succ_self _
      _ = (x % M + d) / d := (Nat.add_div_right _ hd).symm
      _ ≤ x / d := Nat.div_le_div_right hsum
  exact hlt.ne h

/-- The read of `c'` after one of `c` can be right: if there was no idle time at `c`, there is
nothing to print, and otherwise the product fits into a word. -/
def Reliable (c c' : Counters n) : Prop :=
  if c.idle = 0 then exactUsage c c' = 0 else 10000 * busy c c' < 2 ^ 64

lemma wordUsage_eq_exactUsage_iff (hc : c.total < 2 ^ 64) (hc' : c'.total < 2 ^ 64) :
    wordUsage c c' = exactUsage c c' ↔ Reliable c c' := by
  have hidle : c.idle < 2 ^ 64 := (idle_le_total c).trans_lt hc
  have hblank : c.total = 0 ∨ c.idle = 0 ↔ c.idle = 0 :=
    or_iff_right_of_imp fun h => Nat.le_zero.mp (h ▸ idle_le_total c)
  rw [wordUsage, Reliable, Nat.mod_eq_of_lt hc, Nat.mod_eq_of_lt hidle]
  simp only [hblank]
  split_ifs with hzero
  · exact eq_comm
  · rw [exactUsage]
    split_ifs with hsame
    · have hbusy : busy c c' = 0 := Nat.le_zero.mp (hsame ▸ busy_le c c')
      simp [hsame, hbusy]
    · exact mod_div_eq_div_iff (Nat.pos_of_ne_zero hsame) (by omega)

/-- What the read of `c'` prints after reads of `cs`. -/
def reading (cs : List (Counters n)) (c' : Counters n) : Option Printed :=
  (escribirAProc (afterReads cs) c'.cpustats).1

/-- A read prints the exact usage since `c`. -/
def Exact (out : Option Printed) (c c' : Counters n) : Prop :=
  out.map Printed.usage = some (exactUsage c c')

/-- In every sequence of reads of times that never decrease and whose sum fits into a word, a read
after the first prints the exact usage since the read before it exactly if it can. -/
theorem reads_exact_iff (cs : List (Counters n)) (h : Fits (cs ++ [c, c'])) :
    Exact (reading (cs ++ [c]) c') c c' ↔ Reliable c c' := by
  have hchain := h.grows
  rw [List.append_cons] at hchain
  obtain ⟨hcs, -, hlast⟩ := List.isChain_append.mp hchain
  have hgrows : Grows c c' := hlast c (by simp) c' (by simp)
  have hsmall : wordUsage c c' < 2 ^ 32 := (wordUsage_le c c').trans_lt (by decide)
  rw [reading, afterReads_eq_times hcs, escribirAProc_of_computeUsage hgrows.computeUsage_eq, Exact,
    Option.map_some, usage_printed hsmall, Option.some_inj]
  exact wordUsage_eq_exactUsage_iff (h.lt c (by simp)) (h.lt c' (by simp))

/-- Half of the time from the second read to the third. -/
theorem half_busy_exact :
    Exact (reading ([oneCpu 0 0] ++ [oneCpu 10 30]) (oneCpu 20 40)) (oneCpu 10 30)
      (oneCpu 20 40) := by
  have hfits : Fits ([oneCpu 0 0] ++ [oneCpu 10 30, oneCpu 20 40]) := by
    refine ⟨.cons_cons (oneCpu_le ?_ ?_) (.cons_cons (oneCpu_le ?_ ?_) (.singleton _)), ?_⟩
    all_goals decide
  rw [reads_exact_iff [oneCpu 0 0] hfits, Reliable]
  decide

/-- A CPU that is idle for the first time between two reads, and one that is busy for 26 days. -/
theorem reads_not_exact :
    (Fits [oneCpu 10 0, oneCpu 20 10] ∧
      ¬ Exact (reading [oneCpu 10 0] (oneCpu 20 10)) (oneCpu 10 0) (oneCpu 20 10)) ∧
    (Fits [oneCpu 0 1, oneCpu (2 ^ 51) 1] ∧
      ¬ Exact (reading [oneCpu 0 1] (oneCpu (2 ^ 51) 1)) (oneCpu 0 1) (oneCpu (2 ^ 51) 1)) := by
  refine ⟨⟨⟨.cons_cons (oneCpu_le ?_ ?_) (.singleton _), ?_⟩, ?_⟩,
    ⟨⟨.cons_cons (oneCpu_le ?_ ?_) (.singleton _), ?_⟩, ?_⟩⟩
  all_goals first | decide | (rw [Exact]; decide)

end Taro.Cpu
