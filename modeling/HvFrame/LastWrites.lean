import Mathlib.Data.List.Induction
import Mathlib.Logic.Function.Basic

/-!
# Stores in which the last write wins

A store maps names to contents, and a write replaces the content of one name. After any list
of writes a name holds what its last write put there, or what it held before the first.
-/

namespace HvFrame

variable {Name Content : Type*} [DecidableEq Name]

def writeAll (store : Name → Option Content) (ws : List (Name × Content)) :
    Name → Option Content :=
  ws.foldl (fun s w => Function.update s w.1 (some w.2)) store

variable {store : Name → Option Content} {ws ws' : List (Name × Content)} {n : Name}

theorem writeAll_append :
    writeAll store (ws ++ ws') = writeAll (writeAll store ws) ws' :=
  List.foldl_append

theorem writeAll_concat (w : Name × Content) :
    writeAll store (ws ++ [w]) n = if n = w.1 then some w.2 else writeAll store ws n := by
  rw [writeAll_append]
  exact Function.update_apply (writeAll store ws) w.1 (some w.2) n

/-- Every name holds its last write. -/
theorem writeAll_apply (store : Name → Option Content) (ws : List (Name × Content)) (n : Name) :
    writeAll store ws n =
      ((ws.filter (fun w => w.1 = n)).getLast?.map Prod.snd).or (store n) := by
  induction ws using List.reverseRecOn with
  | nil => rfl
  | append_singleton ws w ih =>
    rw [writeAll_concat, List.filter_append]
    by_cases hn : n = w.1
    · simp [hn]
    · have hne : w.1 ≠ n := fun h => hn h.symm
      simp [hn, hne, ih]

theorem writeAll_of_unwritten (h : ∀ w ∈ ws, w.1 ≠ n) : writeAll store ws n = store n := by
  rw [writeAll_apply, List.filter_eq_nil_iff.mpr (by simpa using h)]
  rfl

end HvFrame
