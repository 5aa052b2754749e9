import Mathlib.Algebra.Group.Nat.Defs
import Mathlib.Data.List.Basic
import Mathlib.Data.List.Forall2
import Mathlib.Data.Nat.Notation
import Mathlib.Tactic.Common

/-!
# Memories of bytes

A memory maps 64-bit addresses to cells. Addresses go round, so the `n` cells from `base` on are
the addresses whose distance `offset base a` above `base` is less than `n`; nothing here has to
ask whether a block reaches over the end of the address space.

`assign` writes the fields of a record one after the other, and `replay` a whole log of blocks.
-/

namespace Bytes

variable {β : Type*}

/-- How far `a` lies above `base`. -/
def offset (base a : UInt64) : ℕ := (a - base).toNat

/-- `a` is one of the `n` addresses from `base` on. -/
def Within (base : UInt64) (n : ℕ) (a : UInt64) : Prop := offset base a < n

instance (base : UInt64) (n : ℕ) (a : UInt64) : Decidable (Within base n a) :=
  inferInstanceAs (Decidable (offset base a < n))

/-- Store the cells `bs` from `base` on. -/
def write (m : UInt64 → β) (base : UInt64) (bs : List β) (a : UInt64) : β :=
  bs[offset base a]?.getD (m a)

/-- The `n` cells from `base` on. -/
def read (m : UInt64 → β) (base : UInt64) (n : ℕ) : List β :=
  (List.range n).map fun i => m (base + UInt64.ofNat i)

variable {m : UInt64 → β} {base a : UInt64} {bs cs : List β} {i j k n : ℕ}

/-! ### Distances -/

lemma offset_lt (base a : UInt64) : offset base a < 2 ^ 64 := UInt64.toNat_lt _

lemma offset_add_ofNat (base : UInt64) (h : i < 2 ^ 64) :
    offset base (base + UInt64.ofNat i) = i := by
  rw [offset, UInt64.add_comm, UInt64.add_sub_cancel, UInt64.toNat_ofNat_of_lt' h]

@[simp] lemma add_ofNat_zero (a : UInt64) : a + UInt64.ofNat 0 = a := UInt64.add_zero a

/-- The distance from an address further up. -/
lemma offset_add_ofNat_left (base a : UInt64) (h : i < 2 ^ 64) :
    offset (base + UInt64.ofNat i) a = (2 ^ 64 - i + offset base a) % 2 ^ 64 := by
  have hbase := base.toNat_lt
  rw [offset, offset, UInt64.toNat_sub, UInt64.toNat_sub, UInt64.toNat_add,
    UInt64.toNat_ofNat_of_lt' h]
  omega

lemma offset_add_ofNat_mod (base : UInt64) (i : ℕ) :
    offset base (base + UInt64.ofNat i) = i % 2 ^ 64 := by
  rw [offset, UInt64.add_comm, UInt64.add_sub_cancel, UInt64.toNat_ofNat']

lemma within_add_ofNat (base : UInt64) (h : i < n) : Within base n (base + UInt64.ofNat i) := by
  rw [Within, offset_add_ofNat_mod]
  exact Nat.lt_of_le_of_lt (Nat.mod_le _ _) h

/-- A block `i` cells further up. -/
lemma within_add_ofNat_iff (base : UInt64) (h : i + n ≤ 2 ^ 64) :
    Within (base + UInt64.ofNat i) n a ↔ i ≤ offset base a ∧ offset base a < i + n := by
  have ha := offset_lt base a
  rcases Nat.lt_or_ge i (2 ^ 64) with hi | hi
  · rw [Within, offset_add_ofNat_left base a hi]
    omega
  · have hn : n = 0 := by omega
    simp only [hn, Within]
    omega

lemma Within.mono (h : Within base n a) (hn : n ≤ k) : Within base k a := Nat.lt_of_lt_of_le h hn

/-! ### Blocks -/

@[simp] lemma length_read (m : UInt64 → β) (base : UInt64) (n : ℕ) :
    (read m base n).length = n := by
  simp [read]

lemma getElem?_read (h : i < n) : (read m base n)[i]? = some (m (base + UInt64.ofNat i)) := by
  simp [read, h]

lemma read_congr {m' : UInt64 → β} (h : ∀ a, Within base n a → m a = m' a) :
    read m base n = read m' base n := by
  apply List.map_congr_left
  intro i hi
  exact h _ (within_add_ofNat base (List.mem_range.mp hi))

/-- A block inside a block. -/
lemma take_drop_read (m : UInt64 → β) (base : UInt64) (h : i + k ≤ n) :
    ((read m base n).drop i).take k = read m (base + UInt64.ofNat i) k := by
  apply List.ext_getElem
  · simp
    omega
  · intro j hj hj'
    simp [read, UInt64.add_assoc]

/-! ### Reading what was written -/

lemma write_of_not_within (h : ¬ Within base bs.length a) : write m base bs a = m a := by
  rw [write, List.getElem?_eq_none (Nat.le_of_not_lt h), Option.getD_none]

/-- What is written does not depend on what was there. -/
lemma write_eq_of_within (m m' : UInt64 → β) (h : Within base bs.length a) :
    write m base bs a = write m' base bs a := by
  rw [write, write, List.getElem?_eq_getElem h, Option.getD_some, Option.getD_some]

/-- A block inside the block that was written. -/
lemma read_write_inside (m : UInt64 → β) (base : UInt64) (hbs : bs.length ≤ 2 ^ 64)
    (h : i + n ≤ bs.length) :
    read (write m base bs) (base + UInt64.ofNat i) n = (bs.drop i).take n := by
  apply List.ext_getElem
  · simp
    omega
  · intro j hj hj'
    have hj : j < n := by simpa using hj
    have hadd : base + UInt64.ofNat i + UInt64.ofNat j = base + UInt64.ofNat (i + j) := by
      rw [UInt64.add_assoc, UInt64.ofNat_add]
    simp only [read, List.getElem_map, List.getElem_range, List.getElem_take, List.getElem_drop,
      hadd, write]
    rw [offset_add_ofNat base (by omega), List.getElem?_eq_getElem (by omega), Option.getD_some]

lemma read_write (m : UInt64 → β) (base : UInt64) (hbs : bs.length ≤ 2 ^ 64) :
    read (write m base bs) base bs.length = bs := by
  simpa using read_write_inside m base hbs (i := 0) (n := bs.length) (by omega)

/-- A block copied from another memory reads there as it reads here. -/
lemma read_write_read (m m' : UInt64 → β) (base base' : UInt64) (hn : n ≤ 2 ^ 64)
    (h : i + k ≤ n) :
    read (write m base (read m' base' n)) (base + UInt64.ofNat i) k =
      read m' (base' + UInt64.ofNat i) k := by
  rw [read_write_inside m base (by simpa using hn) (by simpa using h), take_drop_read m' base' h]

/-! ### Records -/

/-- Assign the fields of the record at `a`, one after the other. A field is given by its offset in
the record and by its cells. -/
def assign (m : UInt64 → β) (a : UInt64) : List (ℕ × List β) → UInt64 → β
  | []      => m
  | f :: fs => assign (write m (a + UInt64.ofNat f.1) f.2) a fs

/-- The fields lie between `lo` and `hi`, in order and apart from each other. -/
def Packed (lo hi : ℕ) : List (ℕ × List β) → Prop
  | []      => lo ≤ hi
  | f :: fs => lo ≤ f.1 ∧ Packed (f.1 + f.2.length) hi fs

section Records

variable {lo hi : ℕ} {f : ℕ × List β} {fs : List (ℕ × List β)} {b : UInt64}

lemma Packed.le (h : Packed lo hi fs) : lo ≤ hi := by
  induction fs generalizing lo with
  | nil => exact h
  | cons g fs ih =>
    have := ih h.2
    have := h.1
    omega

lemma Packed.bounds (h : Packed lo hi fs) (hf : f ∈ fs) : lo ≤ f.1 ∧ f.1 + f.2.length ≤ hi := by
  induction fs generalizing lo with
  | nil => cases hf
  | cons g fs ih =>
    rcases List.mem_cons.mp hf with rfl | hf
    · exact ⟨h.1, h.2.le⟩
    · have := ih h.2 hf
      have := h.1
      omega

lemma assign_of_not_within (h : ∀ f ∈ fs, ¬ Within (a + UInt64.ofNat f.1) f.2.length b) :
    assign m a fs b = m b := by
  induction fs generalizing m with
  | nil => rfl
  | cons g fs ih =>
    rw [List.forall_mem_cons] at h
    rw [assign, ih h.2, write_of_not_within h.1]

lemma assign_congr {m' : UInt64 → β} (h : m b = m' b) : assign m a fs b = assign m' a fs b := by
  induction fs generalizing m m' with
  | nil => exact h
  | cons g fs ih =>
    apply ih
    rw [write, write, h]

/-- An assigned cell does not depend on what was there. -/
lemma assign_eq_of_within (m m' : UInt64 → β) (hf : f ∈ fs)
    (hb : Within (a + UInt64.ofNat f.1) f.2.length b) : assign m a fs b = assign m' a fs b := by
  induction fs generalizing m m' with
  | nil => cases hf
  | cons g fs ih =>
    rcases List.mem_cons.mp hf with rfl | hf
    · rw [assign, assign]
      exact assign_congr (write_eq_of_within m m' hb)
    · exact ih _ _ hf

/-- The cells past the fields and before them stay. -/
lemma Packed.assign_eq (h : Packed lo hi fs) (hhi : hi ≤ 2 ^ 64)
    (hb : offset a b < lo ∨ hi ≤ offset a b) : assign m a fs b = m b := by
  apply assign_of_not_within
  intro f hf hwithin
  have hbounds := h.bounds hf
  rw [within_add_ofNat_iff a (by omega)] at hwithin
  omega

/-- A field reads as it was assigned. -/
lemma Packed.read_assign (h : Packed lo hi fs) (hhi : hi ≤ 2 ^ 64) (hf : f ∈ fs) :
    read (assign m a fs) (a + UInt64.ofNat f.1) f.2.length = f.2 := by
  induction fs generalizing lo m with
  | nil => cases hf
  | cons g fs ih =>
    rcases List.mem_cons.mp hf with rfl | hf
    · have hle := h.2.le
      -- the fields after it lie further up
      have hkeep : read (assign m a (f :: fs)) (a + UInt64.ofNat f.1) f.2.length =
          read (write m (a + UInt64.ofNat f.1) f.2) (a + UInt64.ofNat f.1) f.2.length := by
        apply read_congr
        intro b hb
        rw [within_add_ofNat_iff a (by omega)] at hb
        exact h.2.assign_eq hhi (Or.inl hb.2)
      rw [hkeep, read_write _ _ (by omega)]
    · exact ih h.2 hf

end Records

/-! ### Logs of writes -/

/-- A block that was written, and where. -/
structure Write (β : Type*) where
  base : UInt64
  cells : List β
  deriving DecidableEq, Repr

/-- The write put something at `a`. -/
def Write.Touches (w : Write β) (a : UInt64) : Prop := Within w.base w.cells.length a

instance (w : Write β) (a : UInt64) : Decidable (w.Touches a) :=
  inferInstanceAs (Decidable (Within w.base w.cells.length a))

/-- The memory after all writes of a log. -/
def replay (m : UInt64 → β) (ws : List (Write β)) : UInt64 → β :=
  ws.foldl (fun m w => write m w.base w.cells) m

@[simp] lemma replay_nil (m : UInt64 → β) : replay m [] = m := rfl

@[simp] lemma replay_cons (m : UInt64 → β) (w : Write β) (ws : List (Write β)) :
    replay m (w :: ws) = replay (write m w.base w.cells) ws := rfl

lemma replay_of_not_touches {ws : List (Write β)} (h : ∀ w ∈ ws, ¬ w.Touches a) :
    replay m ws a = m a := by
  induction ws generalizing m with
  | nil => rfl
  | cons w ws ih =>
    rw [List.forall_mem_cons] at h
    rw [replay_cons, ih h.2, write_of_not_within h.1]

/-! ### What a log shows of an earlier memory

A log may depend on a memory `p` that its author did not mean to show. `ExposesAt d` says that of
each block it shows the cell at `d` and nothing before. -/

section Exposure

variable {d : ℕ} {log log' : (UInt64 → β) → List (Write β)} {ws : List (Write β)}

/-- Writes of the same length to the same place that agree on their first `d` cells. -/
structure Write.AgreeUpTo (d : ℕ) (w w' : Write β) : Prop where
  base_eq : w.base = w'.base
  length_eq : w.cells.length = w'.cells.length
  take_eq : w.cells.take d = w'.cells.take d

structure ExposesAt (d : ℕ) (log : (UInt64 → β) → List (Write β)) : Prop where
  agree : ∀ p p', List.Forall₂ (Write.AgreeUpTo d) (log p) (log p')
  shows : ∀ x, ∀ w ∈ log fun _ => x, d < w.cells.length → w.cells[d]? = some x

lemma exposesAt_const (h : ∀ w ∈ ws, w.cells.length ≤ d) : ExposesAt d fun _ => ws where
  agree _ _ := List.forall₂_same.mpr fun _ _ => ⟨rfl, rfl, rfl⟩
  shows _ w hw hd := absurd (h w hw) (Nat.not_le.mpr hd)

lemma exposesAt_nil : ExposesAt d fun _ : UInt64 → β => [] :=
  exposesAt_const fun _ hw => (List.not_mem_nil hw).elim

lemma ExposesAt.append (h : ExposesAt d log) (h' : ExposesAt d log') :
    ExposesAt d fun p => log p ++ log' p where
  agree p p' := List.rel_append (h.agree p p') (h'.agree p p')
  shows x w hw hd := by
    rcases List.mem_append.mp hw with hw | hw
    · exact h.shows x w hw hd
    · exact h'.shows x w hw hd

/-- A block copied from a memory `g p` whose cell at `d` is that of `p`. -/
lemma exposesAt_block {g : (UInt64 → β) → UInt64 → β}
    (hlow : ∀ p p' i, i < d → i < n → g p (a + UInt64.ofNat i) = g p' (a + UInt64.ofNat i))
    (hd : ∀ x, g (fun _ => x) (a + UInt64.ofNat d) = x) (base : UInt64) (k : ℕ) :
    ExposesAt d fun p => [⟨base, (read (g p) a n).take k⟩] where
  agree p p' := by
    refine List.Forall₂.cons ⟨rfl, by simp, ?_⟩ List.Forall₂.nil
    have hmap : ∀ q, ((read (g q) a n).take k).take d =
        (List.range (min (min d k) n)).map fun i => g q (a + UInt64.ofNat i) := by
      intro q
      rw [List.take_take, read, ← List.map_take, List.take_range]
    rw [hmap, hmap]
    apply List.map_congr_left
    intro i hi
    rw [List.mem_range] at hi
    exact hlow p p' i (by omega) (by omega)
  shows x w hw hlen := by
    rw [List.mem_singleton.mp hw, List.length_take, length_read] at hlen
    rw [List.mem_singleton.mp hw, List.getElem?_take_of_lt (by omega), getElem?_read (by omega), hd]

/-- Such a log shows nothing exactly if all its blocks are short. -/
lemma ExposesAt.forall_eq_iff [Nontrivial β] (h : ExposesAt d log) :
    (∀ p p', log p = log p') ↔ ∀ p, ∀ w ∈ log p, w.cells.length ≤ d := by
  constructor
  · intro heq p w hw
    by_contra hlen
    obtain ⟨x, y, hxy⟩ := exists_pair_ne β
    rw [heq p fun _ => x] at hw
    have hx := h.shows x w hw (Nat.not_le.mp hlen)
    rw [heq (fun _ => x) fun _ => y] at hw
    have hy := h.shows y w hw (Nat.not_le.mp hlen)
    exact hxy (Option.some_inj.mp (hx.symm.trans hy))
  · intro hshort p p'
    have hagree := h.agree p p'
    have hlog := hshort p
    generalize log p = ws at hagree hlog
    generalize log p' = ws' at hagree
    induction hagree with
    | nil => rfl
    | @cons w w' ws ws' hw _ ih =>
      rw [List.forall_mem_cons] at hlog
      have hcells : w.cells = w'.cells := by
        have htake := hw.take_eq
        rwa [List.take_of_length_le hlog.1, List.take_of_length_le (hw.length_eq ▸ hlog.1)] at htake
      rw [ih hlog.2]
      congr 1
      cases w
      cases w'
      exact congrArg₂ Write.mk hw.base_eq hcells

end Exposure

end Bytes
