import HvFrame.RingBuffers
import Mathlib.Tactic.SplitIfs

/-!
# Rings with several writers

A writer takes the next number for its entry and writes the slot of that number later, while
others take numbers and write. A ring whose writers are never overtaken by a whole size holds,
once all have written, what it would hold had each written at once.
-/

namespace HvFrame

/-- `claim` takes the next number for an entry, `store` writes its slot. -/
inductive RingAction (Writer α : Type*) where
  | claim (w : Writer) (a : α)
  | store (w : Writer)

def RingAction.writes {Writer α : Type*} (w : Writer) (as : List α) : List (RingAction Writer α) :=
  as.flatMap (fun a => [.claim w a, .store w])

/-- A ring and the numbered entries that its writers have yet to store. -/
structure SharedRing (Writer α : Type*) (size : ℕ) where
  ring : RingBuffer α size
  pending : Writer → Option (ℕ × α)

namespace SharedRing

variable {Writer α : Type*} {size : ℕ} [DecidableEq Writer] [NeZero size]

def step (s : SharedRing Writer α size) : RingAction Writer α → SharedRing Writer α size × List α
  | .claim w a =>
      if (s.pending w).isNone then
        (⟨{ s.ring with written := s.ring.written + 1 },
          Function.update s.pending w (some (s.ring.written, a))⟩, [a])
      else (s, [])
  | .store w =>
      match s.pending w with
      | none => (s, [])
      | some (n, a) =>
          (⟨{ s.ring with slots := Function.update s.ring.slots (Fin.ofNat size n) a },
            Function.update s.pending w none⟩, [])

def init (slots : Fin size → α) : SharedRing Writer α size := ⟨⟨slots, 0⟩, fun _ => none⟩

/-- A store comes before a whole size of later numbers has been taken. -/
def Timely (s : SharedRing Writer α size) : RingAction Writer α → Prop
  | .claim .. => True
  | .store w => ∀ n a, s.pending w = some (n, a) → s.ring.written ≤ n + size

/-- The entries `as` have been claimed; the last ones are in their slots or yet to be stored. -/
structure Tracks (s : SharedRing Writer α size) (as : List α) : Prop where
  written : s.ring.written = as.length
  claimed : ∀ w n a, s.pending w = some (n, a) → as[n]? = some a
  shown : ∀ n a, as[n]? = some a → as.length ≤ n + size →
    s.ring.slots (Fin.ofNat size n) = a ∨ ∃ w, s.pending w = some (n, a)

variable {s : SharedRing Writer α size} {as : List α}

theorem step_claim {w : Writer} (hidle : s.pending w = none) (a : α) :
    s.step (.claim w a) = (⟨{ s.ring with written := s.ring.written + 1 },
      Function.update s.pending w (some (s.ring.written, a))⟩, [a]) := by
  simp only [step, hidle, Option.isNone_none, if_true]

theorem step_store {w : Writer} {n : ℕ} {a : α} (hp : s.pending w = some (n, a)) :
    s.step (.store w) =
      (⟨{ s.ring with slots := Function.update s.ring.slots (Fin.ofNat size n) a },
        Function.update s.pending w none⟩, []) := by
  simp only [step, hp]

theorem Tracks.claim (h : Tracks s as) (w : Writer) (a : α) :
    Tracks (s.step (.claim w a)).1 (as ++ (s.step (.claim w a)).2) := by
  cases hp : s.pending w with
  | some x =>
    simp only [step, hp, Option.isNone_some, Bool.false_eq_true, if_false, List.append_nil]
    exact h
  | none =>
    rw [step_claim hp]
    refine ⟨by simp [h.written], fun u n b hb => ?_, fun n b hb hnear => ?_⟩
    · dsimp only at hb
      rcases eq_or_ne u w with rfl | hu
      · rw [Function.update_self] at hb
        obtain ⟨rfl, rfl⟩ := Prod.mk.inj (Option.some.inj hb)
        rw [h.written, List.getElem?_concat_length]
      · rw [Function.update_of_ne hu] at hb
        have hold := h.claimed u n b hb
        rwa [List.getElem?_append_left (List.getElem?_eq_some_iff.mp hold).1]
    · rw [List.length_append, List.length_singleton] at hnear
      rcases Nat.lt_or_ge n as.length with hn | hn
      · rw [List.getElem?_append_left hn] at hb
        refine (h.shown n b hb (by omega)).imp_right (fun ⟨u, hu⟩ => ⟨u, ?_⟩)
        have hne : u ≠ w := by
          rintro rfl
          cases hp.symm.trans hu
        exact (Function.update_of_ne hne _ _).trans hu
      · have hlast : n = as.length := by
          have hlt := (List.getElem?_eq_some_iff.mp hb).1
          rw [List.length_append, List.length_singleton] at hlt
          omega
        subst hlast
        rw [List.getElem?_concat_length] at hb
        obtain rfl := Option.some.inj hb
        rw [← h.written]
        exact Or.inr ⟨w, Function.update_self _ _ _⟩

/-- A timely store puts its entry in place and touches no slot of the last entries. -/
theorem Tracks.store (h : Tracks s as) {w : Writer} (htimely : s.Timely (.store w)) :
    Tracks (s.step (.store w)).1 (as ++ (s.step (.store w)).2) := by
  cases hp : s.pending w with
  | none =>
    simp only [step, hp, List.append_nil]
    exact h
  | some x =>
    obtain ⟨m, b⟩ := x
    have hm := h.claimed w m b hp
    have hlt := (List.getElem?_eq_some_iff.mp hm).1
    have hnear := htimely m b hp
    rw [h.written] at hnear
    rw [step_store hp, List.append_nil]
    refine ⟨h.written, fun u n a ha => ?_, fun n a ha hwindow => ?_⟩
    · dsimp only at ha
      rcases eq_or_ne u w with rfl | hu
      · rw [Function.update_self] at ha
        cases ha
      · rw [Function.update_of_ne hu] at ha
        exact h.claimed u n a ha
    · rcases eq_or_ne n m with rfl | hne
      · rw [hm] at ha
        exact Or.inl ((Function.update_self _ _ _).trans (Option.some.inj ha))
      · have hlt' := (List.getElem?_eq_some_iff.mp ha).1
        have hslot : Fin.ofNat size n ≠ Fin.ofNat size m := by
          rcases Nat.lt_or_gt_of_ne hne with hn | hn
          · exact RingBuffer.slot_ne hn (by omega)
          · exact (RingBuffer.slot_ne hn (by omega)).symm
        dsimp only
        rw [Function.update_of_ne hslot]
        refine (h.shown n a ha hwindow).imp_right (fun ⟨u, hu⟩ => ⟨u, ?_⟩)
        have hother : u ≠ w := by
          rintro rfl
          obtain ⟨rfl, -⟩ := Prod.mk.inj (Option.some.inj (hp.symm.trans hu))
          exact hne rfl
        rwa [Function.update_of_ne hother]

omit [DecidableEq Writer] in
theorem tracks_init (slots : Fin size → α) :
    Tracks (init slots : SharedRing Writer α size) [] where
  written := rfl
  claimed := fun _ _ _ h => by cases h
  shown := fun _ _ h => by cases h

theorem Tracks.step (h : Tracks s as) {a : RingAction Writer α} (htimely : s.Timely a) :
    Tracks (s.step a).1 (as ++ (s.step a).2) := by
  cases a with
  | claim w a => exact h.claim w a
  | store w => exact h.store htimely

omit [DecidableEq Writer] in
/-- Once all have stored, the ring holds what was claimed. -/
theorem Tracks.holds (h : Tracks s as) (hquiet : ∀ w, s.pending w = none) : s.ring.Holds as where
  written := h.written
  slots := by
    intro n a ha hnear
    rcases h.shown n a ha hnear with hshown | ⟨w, hw⟩
    · exact hshown
    · cases (hquiet w).symm.trans hw

end SharedRing

end HvFrame
