import Mathlib.Data.List.Basic
import Mathlib.Tactic
import ScreenerBot.Library.MachineInt

/-! Integers read out of bytes. Fixed-width integers are written to bytes and read back. -/
namespace ScreenerBot.Library

/-- The value of bytes, the least significant first. -/
def littleEndian (bytes : List ℕ) : ℕ := bytes.foldr (fun byte value => byte + 256 * value) 0

/-- The unsigned integer of `width` bytes at an offset; none where the bytes end before it. -/
def uintAt (width : ℕ) (bytes : List ℕ) (offset : ℕ) : Option ℕ :=
  if offset + width ≤ bytes.length then some (littleEndian ((bytes.drop offset).take width))
  else none

/-- `u64_at`. -/
abbrev u64At : List ℕ → ℕ → Option ℕ := uintAt 8

def valueOf (bytes : List UInt8) : ℕ := littleEndian (bytes.map UInt8.toNat)

def bytesOf : ℕ → ℕ → List UInt8
  | 0, _ => []
  | width + 1, value => UInt8.ofNat value :: bytesOf width (value / 256)

/-- The unsigned field of `width` bytes at an offset. -/
def fieldAt (width : ℕ) (bytes : List UInt8) (offset : ℕ) : Option ℕ :=
  uintAt width (bytes.map UInt8.toNat) offset

/-- The two's complement of `width` bits that stands for an integer. -/
def twosComplement (width : ℕ) (value : ℤ) : ℕ := (value % 2 ^ width).toNat

variable {width offset value : ℕ} {bytes : List UInt8}

theorem valueOf_cons (byte : UInt8) (bytes : List UInt8) :
    valueOf (byte :: bytes) = byte.toNat + 256 * valueOf bytes := rfl

@[simp] theorem bytesOf_length (width value : ℕ) : (bytesOf width value).length = width := by
  induction width generalizing value with
  | zero => rfl
  | succ width ih => simp [bytesOf, ih]

theorem valueOf_lt (bytes : List UInt8) : valueOf bytes < 256 ^ bytes.length := by
  induction bytes with
  | nil => simp [valueOf, littleEndian]
  | cons byte bytes ih =>
    have hbyte := byte.toNat_lt
    rw [valueOf_cons, List.length_cons, pow_succ]
    omega

theorem valueOf_bytesOf (width value : ℕ) :
    valueOf (bytesOf width value) = value % 256 ^ width := by
  induction width generalizing value with
  | zero => simp [bytesOf, valueOf, littleEndian, Nat.mod_one]
  | succ width ih =>
    rw [bytesOf, valueOf_cons, ih, pow_succ', Nat.mod_mul]
    simp

theorem bytesOf_valueOf (bytes : List UInt8) : bytesOf bytes.length (valueOf bytes) = bytes := by
  induction bytes with
  | nil => rfl
  | cons byte bytes ih =>
    have hbyte := byte.toNat_lt
    rw [List.length_cons, bytesOf, valueOf_cons]
    congr 1
    · apply UInt8.toNat.inj
      simp only [UInt8.toNat_ofNat']
      omega
    · rw [show (byte.toNat + 256 * valueOf bytes) / 256 = valueOf bytes by omega]
      exact ih

theorem fieldAt_eq_some : fieldAt width bytes offset = some value ↔
    offset + width ≤ bytes.length ∧ value = valueOf ((bytes.drop offset).take width) := by
  unfold fieldAt uintAt valueOf
  rw [List.length_map, List.map_take, List.map_drop]
  split
  · simp_all [eq_comm]
  · simp_all

/-- A field reads the bytes that stand where it begins. -/
theorem fieldAt_of_drop {field rest : List UInt8} (hle : offset ≤ bytes.length)
    (hdrop : bytes.drop offset = field ++ rest) (hlength : field.length = width) :
    fieldAt width bytes offset = some (valueOf field) := by
  have hbytes := congrArg List.length hdrop
  rw [List.length_drop, List.length_append] at hbytes
  rw [fieldAt_eq_some, hdrop, List.take_left' hlength]
  exact ⟨by omega, rfl⟩

theorem valueOf_written (hvalue : value < 256 ^ width) : valueOf (bytesOf width value) = value := by
  rw [valueOf_bytesOf, Nat.mod_eq_of_lt hvalue]

/-- A field that was read is written back. -/
theorem written_of_fieldAt (h : fieldAt width bytes offset = some value) :
    bytesOf width value = (bytes.drop offset).take width ∧ value < 256 ^ width := by
  obtain ⟨hle, rfl⟩ := fieldAt_eq_some.mp h
  have hlength : ((bytes.drop offset).take width).length = width := by
    rw [List.length_take, List.length_drop]
    omega
  have hlt := valueOf_lt ((bytes.drop offset).take width)
  have hwritten := bytesOf_valueOf ((bytes.drop offset).take width)
  rw [hlength] at hlt hwritten
  exact ⟨hwritten, hlt⟩

theorem twosComplement_lt (width : ℕ) (value : ℤ) : twosComplement width value < 2 ^ width := by
  have hpos : (0 : ℤ) < 2 ^ width := by positivity
  have hlt := Int.emod_lt_of_pos value hpos
  have hnonneg := Int.emod_nonneg value hpos.ne'
  unfold twosComplement
  rw [Int.toNat_lt hnonneg]
  exact_mod_cast hlt

theorem twosComplement_wrapSigned (h : value < 2 ^ width) :
    twosComplement width (wrapSigned width value) = value := by
  have hmod : (value : ℤ).bmod (2 ^ width) % ((2 ^ width : ℕ) : ℤ) = value := by
    rw [Int.bmod_emod]
    exact Int.emod_eq_of_lt (by positivity) (by exact_mod_cast h)
  unfold twosComplement wrapSigned
  push_cast at hmod
  rw [hmod, Int.toNat_natCast]

theorem wrapSigned_twosComplement (width : ℕ) {x : ℤ} (hlow : -2 ^ width ≤ x)
    (hhigh : x < 2 ^ width) : wrapSigned (width + 1) (twosComplement (width + 1) x) = x := by
  have hself := (wrapSigned_eq_self_iff width).mpr ⟨hlow, hhigh⟩
  have hnonneg : 0 ≤ x % 2 ^ (width + 1) := Int.emod_nonneg x (by positivity)
  have hmod := Int.emod_bmod x (2 ^ (width + 1))
  unfold wrapSigned at hself ⊢
  unfold twosComplement
  push_cast at hmod
  rw [Int.toNat_of_nonneg hnonneg, hmod, hself]

end ScreenerBot.Library
