import TaroKernel.Lib.Bytes

/-!
# How values are laid out in memory

`toLE` and `fromLE` are the little-endian codes of numbers. A `Code` lays the values of a machine
type out in a fixed number of bytes; a `Layout` lays out those of a record type, whose fields may
leave bytes in between that belong to none of them. What is stored loads again, and arrays of
records load as lists.
-/

namespace Bytes

/-! ### Codes of numbers -/

/-- The `n` low bytes of a number, lowest first. -/
def toLE : ℕ → ℕ → List UInt8
  | 0,     _ => []
  | n + 1, v => UInt8.ofNat v :: toLE n (v / 256)

def fromLE : List UInt8 → ℕ
  | []      => 0
  | b :: bs => b.toNat + 256 * fromLE bs

@[simp] lemma length_toLE (n v : ℕ) : (toLE n v).length = n := by
  induction n generalizing v with
  | zero => rfl
  | succ n ih => simp [toLE, ih]

lemma fromLE_toLE (n v : ℕ) : fromLE (toLE n v) = v % 256 ^ n := by
  induction n generalizing v with
  | zero => simp [toLE, fromLE, Nat.mod_one]
  | succ n ih =>
    have hpow : 256 ^ (n + 1) = 256 * 256 ^ n := Nat.pow_succ'
    rw [toLE, fromLE, ih, UInt8.toNat_ofNat', hpow]
    exact Nat.mod_mul.symm

/-- How the values of a type are laid out in memory. -/
structure Code (α : Type*) where
  size : ℕ
  encode : α → List UInt8
  decode : List UInt8 → α
  size_le : size ≤ 2 ^ 64
  length_encode : ∀ v, (encode v).length = size
  decode_encode : ∀ v, decode (encode v) = v

/-- `size_t`, `unsigned long`. -/
def Code.u64 : Code UInt64 where
  size := 8
  encode v := toLE 8 v.toNat
  decode bs := UInt64.ofNat (fromLE bs)
  size_le := by decide
  length_encode v := length_toLE 8 v.toNat
  decode_encode v := by
    have hlt : v.toNat < 256 ^ 8 := by
      have := v.toNat_lt
      omega
    rw [fromLE_toLE, Nat.mod_eq_of_lt hlt, UInt64.ofNat_toNat]

/-- `int`. -/
def Code.i32 : Code Int32 where
  size := 4
  encode v := toLE 4 v.toUInt32.toNat
  decode bs := (UInt32.ofNat (fromLE bs)).toInt32
  size_le := by decide
  length_encode v := length_toLE 4 v.toUInt32.toNat
  decode_encode v := by
    have hlt : v.toUInt32.toNat < 256 ^ 4 := by
      have := v.toUInt32.toNat_lt
      omega
    rw [fromLE_toLE, Nat.mod_eq_of_lt hlt, UInt32.ofNat_toNat]
    rfl

/-- `long`. -/
def Code.i64 : Code Int64 where
  size := 8
  encode v := toLE 8 v.toUInt64.toNat
  decode bs := (UInt64.ofNat (fromLE bs)).toInt64
  size_le := by decide
  length_encode v := length_toLE 8 v.toUInt64.toNat
  decode_encode v := by
    have hlt : v.toUInt64.toNat < 256 ^ 8 := by
      have := v.toUInt64.toNat_lt
      omega
    rw [fromLE_toLE, Nat.mod_eq_of_lt hlt, UInt64.ofNat_toNat]
    rfl

@[simp] lemma Code.size_u64 : Code.u64.size = 8 := rfl

@[simp] lemma Code.size_i32 : Code.i32.size = 4 := rfl

@[simp] lemma Code.size_i64 : Code.i64.size = 8 := rfl

section Codes

variable {α : Type*}

attribute [simp] Code.length_encode Code.decode_encode

/-- The value stored at `a`. -/
def Code.load (c : Code α) (m : UInt64 → UInt8) (a : UInt64) : α := c.decode (read m a c.size)

/-- Assign `v` to the variable at `a`. -/
def Code.store (c : Code α) (m : UInt64 → UInt8) (a : UInt64) (v : α) : UInt64 → UInt8 :=
  write m a (c.encode v)

lemma Code.load_store (c : Code α) (m : UInt64 → UInt8) (a : UInt64) (v : α) :
    c.load (c.store m a v) a = v := by
  have hread : read (write m a (c.encode v)) a (c.encode v).length = c.encode v :=
    read_write m a (by simpa using c.size_le)
  rw [c.length_encode] at hread
  rw [Code.load, Code.store, hread, c.decode_encode]

lemma Code.store_of_not_within (c : Code α) {m : UInt64 → UInt8} {a b : UInt64} {v : α}
    (h : ¬ Within a c.size b) : c.store m a v b = m b := by
  apply write_of_not_within
  rwa [c.length_encode]

/-- The field at offset `i` of a record. -/
def Code.field (c : Code α) (i : ℕ) (bs : List UInt8) : α := c.decode ((bs.drop i).take c.size)

/-- A field of a record is the value it was assigned. -/
lemma Code.field_assign (c : Code α) (m : UInt64 → UInt8) (a : UInt64) {n i : ℕ} {v : α}
    {fs : List (ℕ × List UInt8)} (h : Packed 0 n fs) (hn : n ≤ 2 ^ 64)
    (hf : (i, c.encode v) ∈ fs) : c.field i (read (assign m a fs) a n) = v := by
  have hbounds := h.bounds hf
  have hread := h.read_assign (m := m) (a := a) hn hf
  rw [c.length_encode] at hbounds hread
  rw [Code.field, take_drop_read _ _ hbounds.2, hread, c.decode_encode]

end Codes

/-! ### Records -/

/-- How the values of a record type are laid out: the fields a record is filled in with, and what
the bytes of a record are read as. -/
structure Layout (α : Type*) where
  size : ℕ
  size_le : size ≤ 2 ^ 64
  fields : α → List (ℕ × List UInt8)
  packed : ∀ v, Packed 0 size (fields v)
  decode : List UInt8 → α
  decode_assign : ∀ m a v, decode (read (assign m a (fields v)) a size) = v

/-- A record of two words fits in the address space. -/
lemma two_words_le : (16 : ℕ) ≤ 2 ^ 64 := by decide

section Layouts

variable {α : Type*} {m m' : UInt64 → UInt8} {a b : UInt64} {i n k : ℕ}

/-- Fill in the record at `a`. -/
def Layout.store (L : Layout α) (m : UInt64 → UInt8) (a : UInt64) (v : α) : UInt64 → UInt8 :=
  assign m a (L.fields v)

/-- The record at `a`. -/
def Layout.load (L : Layout α) (m : UInt64 → UInt8) (a : UInt64) : α := L.decode (read m a L.size)

/-- The `n` records from `a` on. -/
def Layout.loadArray (L : Layout α) (m : UInt64 → UInt8) (a : UInt64) (n : ℕ) : List α :=
  (List.range n).map fun i => L.load m (a + UInt64.ofNat (L.size * i))

/-- Fill in the `n` records from `a` on. -/
def Layout.storeArray (L : Layout α) (m : UInt64 → UInt8) (a : UInt64) (vs : ℕ → α) :
    ℕ → UInt64 → UInt8
  | 0     => m
  | n + 1 => L.store (L.storeArray m a vs n) (a + UInt64.ofNat (L.size * n)) (vs n)

lemma Layout.load_store (L : Layout α) (m : UInt64 → UInt8) (a : UInt64) (v : α) :
    L.load (L.store m a v) a = v := L.decode_assign m a v

lemma Layout.store_of_not_within (L : Layout α) {v : α} (h : ¬ Within a L.size b) :
    L.store m a v b = m b :=
  (L.packed v).assign_eq L.size_le (Or.inr (Nat.le_of_not_lt h))

lemma Layout.load_congr (L : Layout α) (h : ∀ b, Within a L.size b → m b = m' b) :
    L.load m a = L.load m' a := by
  rw [Layout.load, read_congr h]
  rfl

/-- A record of a block that was copied from another memory. -/
lemma Layout.load_write_read (L : Layout α) (m m' : UInt64 → UInt8) (a b : UInt64)
    (hn : n ≤ 2 ^ 64) (h : i + L.size ≤ n) :
    L.load (write m a (read m' b n)) (a + UInt64.ofNat i) = L.load m' (b + UInt64.ofNat i) := by
  rw [Layout.load, read_write_read m m' a b hn h]
  rfl

/-- A record that was filled in elsewhere and copied. -/
lemma Layout.load_write_store (L : Layout α) (m m' : UInt64 → UInt8) (a b : UInt64) (v : α) :
    L.load (write m a (read (L.store m' b v) b L.size)) a = v := by
  have h := L.load_write_read m (L.store m' b v) a b L.size_le (i := 0) (by omega)
  rwa [add_ofNat_zero, add_ofNat_zero, L.load_store] at h

/-! ### Arrays of records -/

lemma Layout.loadArray_succ (L : Layout α) (m : UInt64 → UInt8) (a : UInt64) (n : ℕ) :
    L.loadArray m a (n + 1) = L.loadArray m a n ++ [L.load m (a + UInt64.ofNat (L.size * n))] := by
  simp [Layout.loadArray, List.range_succ]

lemma Layout.loadArray_succ' (L : Layout α) (m : UInt64 → UInt8) (a : UInt64) (n : ℕ) :
    L.loadArray m a (n + 1) =
      L.load m a :: L.loadArray m (a + UInt64.ofNat L.size) n := by
  rw [Layout.loadArray, List.range_succ_eq_map, List.map_cons, List.map_map, Nat.mul_zero,
    add_ofNat_zero, Layout.loadArray]
  refine congrArg _ (List.map_congr_left fun i _ => ?_)
  have haddr : a + UInt64.ofNat (L.size * (i + 1)) =
      a + UInt64.ofNat L.size + UInt64.ofNat (L.size * i) := by
    rw [Nat.mul_succ, Nat.add_comm, UInt64.ofNat_add, UInt64.add_assoc]
  exact congrArg (L.load m) haddr

lemma Layout.loadArray_congr (L : Layout α) (hn : L.size * n ≤ 2 ^ 64)
    (h : ∀ b, Within a (L.size * n) b → m b = m' b) : L.loadArray m a n = L.loadArray m' a n := by
  apply List.map_congr_left
  intro i hi
  have hi : L.size * i + L.size ≤ L.size * n := by
    rw [← Nat.mul_succ]
    exact Nat.mul_le_mul_left _ (List.mem_range.mp hi)
  apply L.load_congr
  intro b hb
  rw [within_add_ofNat_iff a (by omega)] at hb
  exact h b (Nat.lt_of_lt_of_le hb.2 hi)

/-- Filling in the next record of an array. -/
lemma Layout.loadArray_store (L : Layout α) (m : UInt64 → UInt8) (a : UInt64) (v : α)
    (hn : L.size * (n + 1) ≤ 2 ^ 64) :
    L.loadArray (L.store m (a + UInt64.ofNat (L.size * n)) v) a (n + 1) =
      L.loadArray m a n ++ [v] := by
  rw [Nat.mul_succ] at hn
  have hbelow : L.loadArray (L.store m (a + UInt64.ofNat (L.size * n)) v) a n =
      L.loadArray m a n := by
    apply L.loadArray_congr (by omega)
    intro b hb
    have hlt : offset a b < L.size * n := hb
    apply L.store_of_not_within
    rw [within_add_ofNat_iff a hn]
    omega
  rw [L.loadArray_succ, L.load_store, hbelow]

/-- The records of an array that was copied from another memory. -/
lemma Layout.loadArray_write_read (L : Layout α) (m m' : UInt64 → UInt8) (a b : UInt64)
    (hk : k ≤ 2 ^ 64) (hn : L.size * n ≤ k) :
    L.loadArray (write m a (read m' b k)) a n = L.loadArray m' b n := by
  apply List.map_congr_left
  intro i hi
  apply L.load_write_read m m' a b hk
  rw [← Nat.mul_succ]
  exact Nat.le_trans (Nat.mul_le_mul_left _ (List.mem_range.mp hi)) hn

lemma Layout.loadArray_storeArray (L : Layout α) (m : UInt64 → UInt8) (a : UInt64) (vs : ℕ → α)
    (hn : L.size * n ≤ 2 ^ 64) :
    L.loadArray (L.storeArray m a vs n) a n = (List.range n).map vs := by
  induction n with
  | zero => rfl
  | succ n ih =>
    rw [Layout.storeArray, L.loadArray_store _ _ _ hn, ih (by rw [Nat.mul_succ] at hn; omega),
      List.range_succ, List.map_append]
    rfl

end Layouts

end Bytes
