import Mathlib.Tactic

/-!
# Byte memory and little-endian integers

Memory is a function from addresses to bytes.  The contents of a region are
read as a list; copying writes such a list back at another address.

Numbers are laid out in a fixed number of bytes, least significant byte
first.  A packed record is the concatenation of the layouts of its fields,
so the statement that a region holds a record splits into statements about
its fields.
-/

namespace PackedBytes

abbrev Memory := ℕ → UInt8

namespace Memory

variable (memory : Memory)

/-- The `count` bytes from `address` on. -/
def bytes : ℕ → ℕ → List UInt8
  | _, 0 => []
  | address, count + 1 => memory address :: bytes (address + 1) count

def write (address : ℕ) (content : List UInt8) : Memory := fun index =>
  if address ≤ index then content.getD (index - address) (memory index)
  else memory index

/-- Copy a region of the memory; source and target may overlap. -/
def memmove (target source count : ℕ) : Memory :=
  write memory target (bytes memory source count)

@[simp] theorem bytes_zero (address : ℕ) : bytes memory address 0 = [] :=
  rfl

theorem bytes_succ (address count : ℕ) :
    bytes memory address (count + 1) =
      memory address :: bytes memory (address + 1) count := rfl

@[simp] theorem length_bytes (address count : ℕ) :
    (bytes memory address count).length = count := by
  induction count generalizing address with
  | zero => rfl
  | succ count ih => simp [bytes, ih]

theorem bytes_add (address first second : ℕ) :
    bytes memory address (first + second) =
      bytes memory address first ++
        bytes memory (address + first) second := by
  induction first generalizing address with
  | zero => simp
  | succ first ih =>
      rw [Nat.succ_add, bytes_succ, bytes_succ, ih, List.cons_append]
      congr 3
      omega

theorem take_bytes {address first count : ℕ} (hle : first ≤ count) :
    (bytes memory address count).take first =
      bytes memory address first := by
  obtain ⟨second, rfl⟩ := Nat.exists_eq_add_of_le hle
  rw [bytes_add, List.take_left' (length_bytes memory address first)]

theorem drop_bytes {address first count : ℕ} (hle : first ≤ count) :
    (bytes memory address count).drop first =
      bytes memory (address + first) (count - first) := by
  obtain ⟨second, rfl⟩ := Nat.exists_eq_add_of_le hle
  rw [bytes_add, List.drop_left' (length_bytes memory address first),
    Nat.add_sub_cancel_left]

theorem getElem?_bytes {address count offset : ℕ} (hoffset : offset < count) :
    (bytes memory address count)[offset]? =
      some (memory (address + offset)) := by
  induction count generalizing address offset with
  | zero => omega
  | succ count ih =>
      rw [bytes_succ]
      cases offset with
      | zero => rfl
      | succ offset =>
          rw [List.getElem?_cons_succ, ih (by omega), Nat.add_right_comm]
          rfl

theorem bytes_congr {other : Memory} {address count : ℕ}
    (heq : ∀ index, address ≤ index → index < address + count →
      memory index = other index) :
    bytes memory address count = bytes other address count := by
  induction count generalizing address with
  | zero => rfl
  | succ count ih =>
      rw [bytes_succ, bytes_succ, heq address (by omega) (by omega), ih]
      intro index hlower hupper
      exact heq index (by omega) (by omega)

section Agreement

variable {memory} {other : Memory} {address target count : ℕ}

theorem bytes_eq_iff :
    bytes memory address count = bytes other target count ↔
      ∀ i, i < count → memory (address + i) = other (target + i) := by
  induction count generalizing address target with
  | zero => simp
  | succ count ih =>
      rw [bytes_succ, bytes_succ, List.cons.injEq, ih,
        Nat.forall_lt_succ_left]
      simp only [Nat.add_zero, Nat.add_assoc, Nat.add_comm 1]

/-- Regions with the same contents have the same contents at each offset. -/
theorem bytes_slice
    (heq : bytes memory address count = bytes other target count)
    {offset width : ℕ} (hwithin : offset + width ≤ count) :
    bytes memory (address + offset) width =
      bytes other (target + offset) width := by
  rw [bytes_eq_iff] at heq ⊢
  intro i hi
  rw [Nat.add_assoc, Nat.add_assoc]
  exact heq (offset + i) (by omega)

theorem bytes_update {byte : UInt8} {index : ℕ}
    (hbehind : address + count ≤ index) :
    bytes (Function.update memory index byte) address count =
      bytes memory address count := by
  apply bytes_congr
  intro other _ hupper
  exact Function.update_of_ne (by omega) _ _

end Agreement

@[simp] theorem bytes_write (address : ℕ) (content : List UInt8) :
    bytes (write memory address content) address content.length =
      content := by
  induction content generalizing address memory with
  | nil => rfl
  | cons first rest ih =>
      have hfirst : write memory address (first :: rest) address = first := by
        simp [write]
      have hrest : bytes (write memory address (first :: rest))
          (address + 1) rest.length =
          bytes (write memory (address + 1) rest) (address + 1)
            rest.length := by
        apply bytes_congr
        intro index hlower hupper
        have hindex : index - address = (index - (address + 1)) + 1 := by
          omega
        simp only [write]
        rw [if_pos (by omega), if_pos hlower, hindex, List.getD_cons_succ]
      rw [List.length_cons, bytes_succ, hfirst, hrest, ih]

theorem bytes_write_of_disjoint {address target count : ℕ}
    {content : List UInt8}
    (hdisjoint : address + count ≤ target ∨
      target + content.length ≤ address) :
    bytes (write memory target content) address count =
      bytes memory address count := by
  apply bytes_congr
  intro index hlower hupper
  unfold write
  split
  next htarget =>
    have hlength : content.length ≤ index - target := by omega
    simp [hlength]
  next => rfl

/-- The regions of `count` bytes from two addresses on have no byte in
common. -/
def Apart (first second count : ℕ) : Prop :=
  ∀ i j, i < count → j < count → first + i ≠ second + j

theorem apart_iff {first second count : ℕ} :
    Apart first second count ↔
      count ≤ first - second ∨ count ≤ second - first := by
  constructor
  · intro hapart
    by_contra! hnear
    have hleft := hapart 0 (first - second) (by omega) (by omega)
    have hright := hapart (second - first) 0 (by omega) (by omega)
    omega
  · intro hfar i j hi hj
    omega

/-- The region at `address` starts with the given bytes. -/
def Holds (address : ℕ) (content : List UInt8) : Prop :=
  bytes memory address content.length = content

theorem holds_append {address : ℕ} {left right : List UInt8} :
    Holds memory address (left ++ right) ↔
      Holds memory address left ∧
        Holds memory (address + left.length) right := by
  unfold Holds
  rw [List.length_append, bytes_add]
  constructor
  · intro heq
    exact List.append_inj heq (length_bytes _ _ _)
  · rintro ⟨hleft, hright⟩
    rw [hleft, hright]

theorem holds_cons {address : ℕ} {byte : UInt8} {rest : List UInt8} :
    Holds memory address (byte :: rest) ↔
      memory address = byte ∧ Holds memory (address + 1) rest := by
  simp [Holds, bytes]

/-- Writing two contents side by side leaves both in memory. -/
theorem holds_write_write (address : ℕ) (first second : List UInt8) :
    Holds (write (write memory address first) (address + first.length)
      second) address (first ++ second) := by
  rw [holds_append]
  constructor
  · rw [Holds, bytes_write_of_disjoint _ (.inl (Nat.le_refl _)),
      bytes_write]
  · rw [Holds, bytes_write]

end Memory

/-! ## Numbers -/

def encode : ℕ → ℕ → List UInt8
  | 0, _ => []
  | width + 1, n => UInt8.ofNat n :: encode width (n / 256)

def decode : List UInt8 → ℕ
  | [] => 0
  | byte :: rest => byte.toNat + 256 * decode rest

@[simp] theorem length_encode (width n : ℕ) :
    (encode width n).length = width := by
  induction width generalizing n with
  | zero => rfl
  | succ width ih => simp [encode, ih]

theorem decode_encode (width n : ℕ) :
    decode (encode width n) = n % 256 ^ width := by
  induction width generalizing n with
  | zero => rw [pow_zero, Nat.mod_one, encode, decode]
  | succ width ih =>
      have hbyte : (UInt8.ofNat n).toNat = n % 256 := by simp
      rw [encode, decode, ih, hbyte, pow_succ', Nat.mod_mul]

theorem decode_encode_of_lt {width n : ℕ} (hlt : n < 256 ^ width) :
    decode (encode width n) = n := by
  rw [decode_encode, Nat.mod_eq_of_lt hlt]

theorem decode_lt (content : List UInt8) :
    decode content < 256 ^ content.length := by
  induction content with
  | nil => exact Nat.one_pos
  | cons byte rest ih =>
      have hbyte := byte.toNat_lt
      rw [decode, List.length_cons, pow_succ]
      omega

theorem encode_decode (content : List UInt8) :
    encode content.length (decode content) = content := by
  induction content with
  | nil => rfl
  | cons byte rest ih =>
      have hbyte : UInt8.ofNat (byte.toNat + 256 * decode rest) = byte := by
        apply UInt8.toNat_inj.mp
        have hlt := byte.toNat_lt
        rw [UInt8.toNat_ofNat']
        omega
      have hrest : (byte.toNat + 256 * decode rest) / 256 = decode rest := by
        have hlt := byte.toNat_lt
        omega
      rw [List.length_cons, decode, encode, hbyte, hrest, ih]

end PackedBytes
