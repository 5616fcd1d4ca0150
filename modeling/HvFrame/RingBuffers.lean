import Mathlib.Algebra.GroupWithZero.Nat
import Mathlib.Data.List.Basic
import Mathlib.Data.List.Induction
import Mathlib.Logic.Function.Basic

/-!
# Rings that keep the latest entries

Entries are numbered from zero and written to the slot of their number modulo the size, over
whatever was there. The ring holds the entries whose numbers are less than a size back.
-/

namespace HvFrame

structure RingBuffer (α : Type*) (size : ℕ) where
  slots : Fin size → α
  written : ℕ

namespace RingBuffer

variable {α : Type*} {size : ℕ} [NeZero size]

def push (r : RingBuffer α size) (a : α) : RingBuffer α size where
  slots := Function.update r.slots (Fin.ofNat size r.written) a
  written := r.written + 1

def pushAll (r : RingBuffer α size) (as : List α) : RingBuffer α size := as.foldl push r

theorem pushAll_concat (r : RingBuffer α size) (as : List α) (a : α) :
    r.pushAll (as ++ [a]) = (r.pushAll as).push a := List.foldl_concat push r a as

/-- The entries still held with their numbers, oldest first. -/
def latest (r : RingBuffer α size) : List (ℕ × α) :=
  (List.range' (r.written - size) (min r.written size)).map
    (fun s => (s, r.slots (Fin.ofNat size s)))

/-- The ring has been written by `as`, and by nothing else since. -/
structure Holds (r : RingBuffer α size) (as : List α) : Prop where
  written : r.written = as.length
  slots : ∀ s a, as[s]? = some a → as.length ≤ s + size → r.slots (Fin.ofNat size s) = a

theorem slot_ne {s n : ℕ} (hlt : s < n) (hnear : n < s + size) :
    Fin.ofNat size s ≠ Fin.ofNat size n := by
  intro h
  have hmod : s % size = n % size := congrArg Fin.val h
  have hdvd : size ∣ n - s := Nat.dvd_of_mod_eq_zero (Nat.sub_mod_eq_zero_of_mod_eq hmod.symm)
  have hle := Nat.le_of_dvd (by omega) hdvd
  omega

theorem Holds.push {r : RingBuffer α size} {as : List α} (h : Holds r as) (a : α) :
    Holds (r.push a) (as ++ [a]) := by
  have hsize : 0 < size := Nat.pos_of_neZero size
  refine ⟨by simp [RingBuffer.push, h.written], fun s b hb hnear => ?_⟩
  rw [List.length_append, List.length_singleton] at hnear
  simp only [RingBuffer.push, h.written]
  rcases Nat.lt_or_ge s as.length with hs | hs
  · rw [List.getElem?_append_left hs] at hb
    rw [Function.update_of_ne (slot_ne hs (by omega))]
    exact h.slots s b hb (by omega)
  · rw [List.getElem?_append_right hs] at hb
    have hzero := (List.getElem?_eq_some_iff.mp hb).1
    have hlast : s = as.length := by
      rw [List.length_singleton] at hzero
      omega
    rw [hlast, Nat.sub_self] at hb
    obtain rfl : a = b := Option.some.inj hb
    rw [hlast, Function.update_self]

theorem holds_pushAll (slots : Fin size → α) (as : List α) :
    Holds (pushAll ⟨slots, 0⟩ as) as := by
  induction as using List.reverseRecOn with
  | nil => exact ⟨rfl, fun s a ha => by simp at ha⟩
  | append_singleton as a ih =>
    rw [pushAll_concat]
    exact ih.push a

/-- The ring lists the last entries with their numbers, each once and in order. -/
theorem Holds.latest_eq {r : RingBuffer α size} {as : List α} (h : Holds r as) :
    r.latest = ((List.range as.length).zip as).drop (as.length - size) := by
  refine List.ext_getElem? (fun i => ?_)
  have hzip : ((List.range as.length).zip as)[as.length - size + i]? =
      as[as.length - size + i]?.map (fun a => (as.length - size + i, a)) := by
    rcases Nat.lt_or_ge (as.length - size + i) as.length with hi | hi
    · rw [List.getElem?_eq_getElem hi, Option.map_some]
      exact List.getElem?_zip_eq_some.mpr ⟨List.getElem?_range hi, List.getElem?_eq_getElem hi⟩
    · rw [List.getElem?_eq_none (by simpa using hi), List.getElem?_eq_none hi, Option.map_none]
  rw [List.getElem?_drop, hzip, latest, h.written, List.getElem?_map]
  rcases Nat.lt_or_ge i (min as.length size) with hi | hi
  · have hpos : as.length - size + i < as.length := by omega
    rw [List.getElem?_range' hi, Option.map_some, List.getElem?_eq_getElem hpos, Option.map_some,
      Nat.one_mul]
    rw [h.slots _ _ (List.getElem?_eq_getElem hpos) (by omega)]
  · rw [List.getElem?_eq_none (by simpa using hi), List.getElem?_eq_none (by omega)]
    rfl

end RingBuffer

end HvFrame
