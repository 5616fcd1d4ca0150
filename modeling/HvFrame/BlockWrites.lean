import HvFrame.ByteBuffers
import Mathlib.Data.List.Induction

/-!
# Sequences of block writes

A write puts a block at an offset. Writes that put the same element wherever they meet
commute, so a list of them may be done in any order; where two writes disagree, the later
one wins.
-/

namespace HvFrame

structure BlockWrite (α : Type*) where
  offset : ℕ
  source : ℕ → α
  size : ℕ

namespace BlockWrite

variable {α : Type*}

/-- Position `i` is one that the write touches. -/
def Covers (w : BlockWrite α) (i : ℕ) : Prop := w.offset ≤ i ∧ i < w.offset + w.size

def valueAt (w : BlockWrite α) (i : ℕ) : α := w.source (i - w.offset)

def apply (buf : List α) (w : BlockWrite α) : List α := blockCopy buf w.offset w.source w.size

def applyAll (buf : List α) (ws : List (BlockWrite α)) : List α := ws.foldl apply buf

/-- The two writes put the same element wherever they meet. -/
def Compatible (v w : BlockWrite α) : Prop :=
  ∀ i, v.Covers i → w.Covers i → v.valueAt i = w.valueAt i

theorem Compatible.refl (w : BlockWrite α) : Compatible w w := fun _ _ _ => rfl

@[simp] theorem apply_length (buf : List α) (w : BlockWrite α) :
    (apply buf w).length = buf.length := blockCopy_length _ _ _ _

@[simp] theorem applyAll_nil (buf : List α) : applyAll buf [] = buf := rfl

theorem applyAll_concat (buf : List α) (ws : List (BlockWrite α)) (w : BlockWrite α) :
    applyAll buf (ws ++ [w]) = apply (applyAll buf ws) w := by
  rw [applyAll, List.foldl_append]
  rfl

@[simp] theorem applyAll_length (buf : List α) (ws : List (BlockWrite α)) :
    (applyAll buf ws).length = buf.length := by
  induction ws generalizing buf with
  | nil => rfl
  | cons w ws ih => exact (ih _).trans (apply_length buf w)

theorem getElem?_apply_of_covers {buf : List α} {w : BlockWrite α} {i : ℕ} (h : w.Covers i)
    (hi : i < buf.length) : (apply buf w)[i]? = some (w.valueAt i) :=
  getElem?_blockCopy_inside _ h.1 h.2 hi

theorem getElem?_apply_of_not_covers (buf : List α) {w : BlockWrite α} {i : ℕ}
    (h : ¬ w.Covers i) : (apply buf w)[i]? = buf[i]? :=
  getElem?_blockCopy_outside _ (by rw [Covers] at h; omega)

/-- The last write wins. -/
theorem getElem?_applyAll_concat {buf : List α} {ws : List (BlockWrite α)} {w : BlockWrite α}
    {i : ℕ} (h : w.Covers i) (hi : i < buf.length) :
    (applyAll buf (ws ++ [w]))[i]? = some (w.valueAt i) := by
  rw [applyAll_concat]
  exact getElem?_apply_of_covers h (by rwa [applyAll_length])

theorem getElem?_applyAll_of_not_covers (buf : List α) {ws : List (BlockWrite α)} {i : ℕ}
    (h : ∀ w ∈ ws, ¬ w.Covers i) : (applyAll buf ws)[i]? = buf[i]? := by
  induction ws using List.reverseRecOn with
  | nil => rfl
  | append_singleton ws w ih =>
    rw [applyAll_concat, getElem?_apply_of_not_covers _ (h w (by simp))]
    exact ih (fun v hv => h v (List.mem_append_left _ hv))

theorem getElem?_applyAll_congr {buf buf' : List α} {ws : List (BlockWrite α)} {i : ℕ}
    (hi : i < buf.length) (hi' : i < buf'.length) (h : ∃ w ∈ ws, w.Covers i) :
    (applyAll buf ws)[i]? = (applyAll buf' ws)[i]? := by
  induction ws using List.reverseRecOn with
  | nil => simp at h
  | append_singleton ws w ih =>
    by_cases hw : w.Covers i
    · rw [getElem?_applyAll_concat hw hi, getElem?_applyAll_concat hw hi']
    · obtain ⟨v, hv, hcovers⟩ := h
      have hbefore : v ∈ ws := by
        rcases List.mem_append.mp hv with hv | hv
        · exact hv
        · rw [List.mem_singleton.mp hv] at hcovers
          exact absurd hcovers hw
      rw [applyAll_concat, applyAll_concat, getElem?_apply_of_not_covers _ hw,
        getElem?_apply_of_not_covers _ hw]
      exact ih ⟨v, hbefore, hcovers⟩

theorem Compatible.apply_comm {v w : BlockWrite α} (h : Compatible v w) (buf : List α) :
    apply (apply buf v) w = apply (apply buf w) v := by
  refine List.ext_getElem? (fun i => ?_)
  rcases Nat.lt_or_ge i buf.length with hi | hi
  · have hv : i < (apply buf v).length := by rwa [apply_length]
    have hw : i < (apply buf w).length := by rwa [apply_length]
    by_cases hcv : v.Covers i <;> by_cases hcw : w.Covers i
    · rw [getElem?_apply_of_covers hcw hv, getElem?_apply_of_covers hcv hw, h i hcv hcw]
    · rw [getElem?_apply_of_not_covers _ hcw, getElem?_apply_of_covers hcv hi,
        getElem?_apply_of_covers hcv hw]
    · rw [getElem?_apply_of_covers hcw hv, getElem?_apply_of_not_covers _ hcv,
        getElem?_apply_of_covers hcw hi]
    · rw [getElem?_apply_of_not_covers _ hcw, getElem?_apply_of_not_covers _ hcv,
        getElem?_apply_of_not_covers _ hcv, getElem?_apply_of_not_covers _ hcw]
  · rw [List.getElem?_eq_none (by simpa using hi), List.getElem?_eq_none (by simpa using hi)]

/-- Compatible writes may be done in any order. -/
theorem applyAll_perm {ws ws' : List (BlockWrite α)} (hperm : ws.Perm ws')
    (h : ∀ v ∈ ws, ∀ w ∈ ws, Compatible v w) (buf : List α) :
    applyAll buf ws = applyAll buf ws' :=
  hperm.foldl_eq' (fun v hv w hw buf => (h v hv w hw).apply_comm buf) buf

end BlockWrite

end HvFrame
