import Mathlib.Data.List.Basic
import Mathlib.Data.Nat.Basic
import Mathlib.Tactic.Ring

/-!
# Byte buffers

Little-endian integers of a fixed width, reads at an offset, and block copies. A copy
source is a pointer, that is the function from offsets to the bytes found there.
-/

namespace HvFrame

/-- The `w` least significant bytes of `n`, lowest first. -/
def littleEndian : ℕ → ℕ → List UInt8
  | 0, _ => []
  | w + 1, n => UInt8.ofNat n :: littleEndian w (n / 256)

def fromLittleEndian : List UInt8 → ℕ
  | [] => 0
  | b :: bs => b.toNat + 256 * fromLittleEndian bs

@[simp] theorem littleEndian_length (w n : ℕ) : (littleEndian w n).length = w := by
  induction w generalizing n with
  | zero => rfl
  | succ w ih => simp [littleEndian, ih]

theorem fromLittleEndian_littleEndian (w n : ℕ) :
    fromLittleEndian (littleEndian w n) = n % 256 ^ w := by
  induction w generalizing n with
  | zero => simp [littleEndian, fromLittleEndian, Nat.mod_one]
  | succ w ih =>
    have hbyte : (UInt8.ofNat n).toNat = n % 256 := by simp
    rw [littleEndian, fromLittleEndian, ih, hbyte, pow_succ', Nat.mod_mul]

theorem fromLittleEndian_lt (bs : List UInt8) : fromLittleEndian bs < 256 ^ bs.length := by
  induction bs with
  | nil => simp [fromLittleEndian]
  | cons b bs ih =>
    have hbyte := b.toNat_lt
    rw [fromLittleEndian, List.length_cons, pow_succ]
    omega

theorem littleEndian_fromLittleEndian (bs : List UInt8) :
    littleEndian bs.length (fromLittleEndian bs) = bs := by
  induction bs with
  | nil => rfl
  | cons b bs ih =>
    have hbyte := b.toNat_lt
    have hlow : UInt8.ofNat (b.toNat + 256 * fromLittleEndian bs) = b := by
      refine UInt8.toNat_inj.mp ?_
      rw [UInt8.toNat_ofNat']
      omega
    have hhigh : (b.toNat + 256 * fromLittleEndian bs) / 256 = fromLittleEndian bs := by omega
    rw [fromLittleEndian, List.length_cons, littleEndian, hlow, hhigh, ih]

/-- The unsigned integer of `w` bytes at `offset`. -/
def readField (buf : List UInt8) (offset w : ℕ) : ℕ :=
  fromLittleEndian ((buf.drop offset).take w)

theorem readField_append (pre mid suf : List UInt8) {offset w : ℕ}
    (hpre : pre.length = offset) (hmid : mid.length = w) :
    readField (pre ++ mid ++ suf) offset w = fromLittleEndian mid := by
  rw [readField, List.append_assoc, ← hpre, List.drop_left, ← hmid, List.take_left]

theorem readField_take {buf : List UInt8} {n offset w : ℕ} (h : offset + w ≤ n) :
    readField (buf.take n) offset w = readField buf offset w := by
  rw [readField, readField, List.drop_take, List.take_take, min_eq_left (by omega)]

section Copies

variable {α : Type*}

/-- Copy `n` elements from `src` to position `offset`; positions outside `dst` do not exist. -/
def blockCopy (dst : List α) (offset : ℕ) (src : ℕ → α) (n : ℕ) : List α :=
  dst.mapIdx (fun i b => if offset ≤ i ∧ i < offset + n then src (i - offset) else b)

@[simp] theorem blockCopy_length (dst : List α) (offset : ℕ) (src : ℕ → α) (n : ℕ) :
    (blockCopy dst offset src n).length = dst.length := by simp [blockCopy]

theorem getElem?_blockCopy_inside {dst : List α} {offset n i : ℕ} (src : ℕ → α)
    (hlow : offset ≤ i) (hhigh : i < offset + n) (hi : i < dst.length) :
    (blockCopy dst offset src n)[i]? = some (src (i - offset)) := by
  simp [blockCopy, List.getElem?_mapIdx, hlow, hhigh, List.getElem?_eq_getElem hi]

theorem getElem?_blockCopy_outside {dst : List α} {offset n i : ℕ} (src : ℕ → α)
    (h : i < offset ∨ offset + n ≤ i) :
    (blockCopy dst offset src n)[i]? = dst[i]? := by
  have hn : ¬ (offset ≤ i ∧ i < offset + n) := by omega
  simp [blockCopy, List.getElem?_mapIdx, hn]

/-- Copying a piece of a list that fits splices it in. -/
theorem blockCopy_list {dst src : List α} {offset srcOffset n : ℕ} (d : α)
    (hsrc : srcOffset + n ≤ src.length) (hdst : offset + n ≤ dst.length) :
    blockCopy dst offset (fun i => src.getD (srcOffset + i) d) n =
      dst.take offset ++ (src.drop srcOffset).take n ++ dst.drop (offset + n) := by
  refine List.ext_getElem? (fun i => ?_)
  have hmid : ((src.drop srcOffset).take n).length = n := by simp; omega
  have hpre : (dst.take offset ++ (src.drop srcOffset).take n).length = offset + n := by
    simp
    omega
  by_cases hin : offset ≤ i ∧ i < offset + n
  · have hi : srcOffset + (i - offset) < src.length := by omega
    have hlen : (dst.take offset).length = offset := by simp; omega
    rw [getElem?_blockCopy_inside _ hin.1 hin.2 (by omega),
      List.getElem?_append_left (by omega), List.getElem?_append_right (by omega), hlen,
      List.getElem?_take_of_lt (by omega), List.getElem?_drop]
    simp [List.getD_eq_getElem?_getD, List.getElem?_eq_getElem hi]
  · rw [getElem?_blockCopy_outside _ (by omega)]
    rcases Nat.lt_or_ge i offset with hlow | hhigh
    · rw [List.getElem?_append_left (by omega), List.getElem?_append_left (by simp; omega),
        List.getElem?_take_of_lt hlow]
    · rw [List.getElem?_append_right (by omega), hpre, List.getElem?_drop]
      congr 1
      omega

theorem take_eq_iff_getElem? {xs ys : List α} {n : ℕ} :
    xs.take n = ys.take n ↔ ∀ i < n, xs[i]? = ys[i]? := by
  constructor
  · intro h i hi
    rw [← List.getElem?_take_of_lt hi, h, List.getElem?_take_of_lt hi]
  · intro h
    refine List.ext_getElem? (fun i => ?_)
    rcases Nat.lt_or_ge i n with hi | hi
    · rw [List.getElem?_take_of_lt hi, List.getElem?_take_of_lt hi, h i hi]
    · rw [List.getElem?_take_eq_none hi, List.getElem?_take_eq_none hi]

/-- Consecutive pieces of width `w` make up an initial part. -/
theorem flatMap_range_chunks (xs : List α) (w n : ℕ) :
    (List.range n).flatMap (fun i => (xs.drop (i * w)).take w) = xs.take (n * w) := by
  induction n with
  | zero => simp
  | succ n ih =>
    rw [List.range_succ, List.flatMap_append, ih, Nat.succ_mul, List.take_add]
    simp

theorem map_range_getD (xs : List α) (d : α) :
    (List.range xs.length).map (fun i => xs.getD i d) = xs := by
  refine List.ext_getElem (by simp) (fun i h _ => ?_)
  have hi : i < xs.length := by simpa using h
  simp [List.getD_eq_getElem?_getD, List.getElem?_eq_getElem hi]

end Copies

/-- A bounds-checked `memcpy` between two objects; `none` is the out-of-range branch. -/
def memcpyChecked (dst : List UInt8) (dstOffset : ℕ) (src : List UInt8) (srcOffset n : ℕ) :
    Option (List UInt8) :=
  if srcOffset + n ≤ src.length ∧ dstOffset + n ≤ dst.length then
    some (blockCopy dst dstOffset (fun i => src.getD (srcOffset + i) 0) n)
  else none

theorem memcpyChecked_isSome_iff {dst src : List UInt8} {dstOffset srcOffset n : ℕ} :
    (memcpyChecked dst dstOffset src srcOffset n).isSome ↔
      srcOffset + n ≤ src.length ∧ dstOffset + n ≤ dst.length := by
  by_cases h : srcOffset + n ≤ src.length ∧ dstOffset + n ≤ dst.length <;> simp [memcpyChecked, h]

theorem memcpyChecked_eq_some {dst src out : List UInt8} {dstOffset srcOffset n : ℕ}
    (h : memcpyChecked dst dstOffset src srcOffset n = some out) :
    srcOffset + n ≤ src.length ∧ dstOffset + n ≤ dst.length ∧
      out = blockCopy dst dstOffset (fun i => src.getD (srcOffset + i) 0) n := by
  by_cases hin : srcOffset + n ≤ src.length ∧ dstOffset + n ≤ dst.length
  · simp only [memcpyChecked, if_pos hin, Option.some.injEq] at h
    exact ⟨hin.1, hin.2, h.symm⟩
  · simp [memcpyChecked, hin] at h

end HvFrame
