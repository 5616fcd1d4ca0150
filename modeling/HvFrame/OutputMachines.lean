import Mathlib.Data.List.Basic
import Mathlib.Data.List.Induction

/-!
# Deterministic machines that answer each input with a list of outputs

A run is driven by the list of its inputs, so nondeterminism of an environment or
of a scheduler lives in that list. An input that a state does not enable is an
ordinary stuttering step. Invariants may speak about the inputs consumed and the
outputs produced so far, and the simulation rules compare two runs of one input list.
-/

namespace HvFrame

universe u v w

section Positions

variable {Input : Type*}

def positionsFrom (past : List Input) : List Input → List (List Input × Input)
  | [] => []
  | a :: as => (past, a) :: positionsFrom (past ++ [a]) as

/-- Every input of a list together with the inputs before it. -/
def positions (as : List Input) : List (List Input × Input) := positionsFrom [] as

theorem positionsFrom_append (past as bs : List Input) :
    positionsFrom past (as ++ bs) = positionsFrom past as ++ positionsFrom (past ++ as) bs := by
  induction as generalizing past with
  | nil => simp [positionsFrom]
  | cons a as ih => simp [positionsFrom, ih]

@[simp] theorem positions_nil : positions ([] : List Input) = [] := rfl

theorem positions_concat (as : List Input) (a : Input) :
    positions (as ++ [a]) = positions as ++ [(as, a)] := by
  simp [positions, positionsFrom_append, positionsFrom]

theorem mem_positions_append_left {as : List Input} {x : List Input × Input}
    (h : x ∈ positions as) (bs : List Input) : x ∈ positions (as ++ bs) := by
  rw [positions, positionsFrom_append]
  exact List.mem_append_left _ h

theorem mem_positions_iff {as pre : List Input} {a : Input} :
    (pre, a) ∈ positions as ↔ ∃ post, as = pre ++ a :: post := by
  induction as using List.reverseRecOn with
  | nil => simp
  | append_singleton as b ih =>
    rw [positions_concat, List.mem_append, ih, List.mem_singleton]
    constructor
    · rintro (⟨post, rfl⟩ | heq)
      · exact ⟨post ++ [b], by simp⟩
      · obtain ⟨rfl, rfl⟩ := Prod.mk.inj heq
        exact ⟨[], rfl⟩
    · rintro ⟨post, heq⟩
      rcases List.eq_nil_or_concat post with rfl | ⟨post, c, rfl⟩
      · obtain ⟨rfl, hb⟩ := List.append_inj' heq rfl
        obtain rfl := List.head_eq_of_cons_eq hb
        exact Or.inr rfl
      · have heq' : as ++ [b] = (pre ++ a :: post) ++ [c] := by simpa using heq
        exact Or.inl ⟨post, (List.append_inj' heq' rfl).1⟩

end Positions

/-- A transition function from states and inputs to states and emitted outputs. -/
structure OutputMachine (State : Type u) (Input : Type v) (Output : Type w) where
  step : State → Input → State × List Output

namespace OutputMachine

variable {State State' Input Output Output' : Type*}
variable (M : OutputMachine State Input Output)

def state : State → List Input → State
  | s, [] => s
  | s, a :: as => state (M.step s a).1 as

def outputs : State → List Input → List Output
  | _, [] => []
  | s, a :: as => (M.step s a).2 ++ outputs (M.step s a).1 as

/-- Every output together with the inputs consumed before the step that emitted it. -/
def history (s : State) (as : List Input) : List (List Input × Output) :=
  (positions as).flatMap (fun x => (M.step (M.state s x.1) x.2).2.map (fun o => (x.1, o)))

@[simp] theorem state_nil (s : State) : M.state s [] = s := rfl

@[simp] theorem state_cons (s : State) (a : Input) (as : List Input) :
    M.state s (a :: as) = M.state (M.step s a).1 as := rfl

@[simp] theorem outputs_nil (s : State) : M.outputs s [] = [] := rfl

@[simp] theorem outputs_cons (s : State) (a : Input) (as : List Input) :
    M.outputs s (a :: as) = (M.step s a).2 ++ M.outputs (M.step s a).1 as := rfl

@[simp] theorem state_append (s : State) (as bs : List Input) :
    M.state s (as ++ bs) = M.state (M.state s as) bs := by
  induction as generalizing s with
  | nil => rfl
  | cons a as ih => simp [ih]

@[simp] theorem outputs_append (s : State) (as bs : List Input) :
    M.outputs s (as ++ bs) = M.outputs s as ++ M.outputs (M.state s as) bs := by
  induction as generalizing s with
  | nil => rfl
  | cons a as ih => simp [ih]

@[simp] theorem history_nil (s : State) : M.history s [] = [] := rfl

theorem history_concat (s : State) (as : List Input) (a : Input) :
    M.history s (as ++ [a]) =
      M.history s as ++ (M.step (M.state s as) a).2.map (fun o => (as, o)) := by
  simp [history, positions_concat]

/-- Every output comes from one step, with what the run and that step emitted before it. -/
theorem exists_step_of_outputs {s : State} {as : List Input} {past future : List Output}
    {o : Output} (h : M.outputs s as = past ++ o :: future) :
    ∃ before a after past' future', as = before ++ a :: after ∧
      past = M.outputs s before ++ past' ∧
      (M.step (M.state s before) a).2 = past' ++ o :: future' := by
  induction as generalizing s past with
  | nil => simp at h
  | cons a as ih =>
    have hlater : ∀ rest, past = (M.step s a).2 ++ rest →
        M.outputs (M.step s a).1 as = rest ++ o :: future →
        ∃ before a' after past' future', a :: as = before ++ a' :: after ∧
          past = M.outputs s before ++ past' ∧
          (M.step (M.state s before) a').2 = past' ++ o :: future' := by
      intro rest hpast hrest
      obtain ⟨before, a', after, past', future', rfl, rfl, hstep⟩ := ih hrest
      exact ⟨a :: before, a', after, past', future', rfl, by simp [hpast], hstep⟩
    rw [outputs_cons] at h
    rcases List.append_eq_append_iff.mp h with ⟨rest, hpast, hrest⟩ | ⟨rest, hnow, hrest⟩
    · exact hlater rest hpast hrest
    · cases rest with
      | nil => exact hlater [] (by simpa using hnow.symm) (by simpa using hrest.symm)
      | cons o' rest =>
        obtain ⟨rfl, -⟩ := List.cons.inj hrest
        exact ⟨[], a, as, past, rest, rfl, rfl, hnow⟩

/-- A property of the consumed inputs, the emitted outputs and the state that holds
at the start and survives every step holds after every run. -/
theorem invariant {I : List Input → List Output → State → Prop} {s : State}
    (start : I [] [] s)
    (step : ∀ as os t a, I as os t → I (as ++ [a]) (os ++ (M.step t a).2) (M.step t a).1)
    (as : List Input) : I as (M.outputs s as) (M.state s as) := by
  induction as using List.reverseRecOn with
  | nil => exact start
  | append_singleton as a ih => simpa using step as _ _ a ih

theorem state_invariant {I : State → Prop} {s : State} (start : I s)
    (step : ∀ t a, I t → I (M.step t a).1) (as : List Input) : I (M.state s as) :=
  M.invariant (I := fun _ _ t => I t) start (fun _ _ t a h => step t a h) as

theorem invariant_on {I : State → Prop} {G : Input → Prop}
    (step : ∀ t a, G a → I t → I (M.step t a).1) {s : State} (start : I s) {as : List Input}
    (h : ∀ a ∈ as, G a) : I (M.state s as) := by
  induction as generalizing s with
  | nil => exact start
  | cons a as ih =>
    apply ih (step s a (h a List.mem_cons_self) start)
    exact fun b hb => h b (List.mem_cons_of_mem _ hb)

/-- Two machines fed the same inputs stay related, and the second emits what an
observer of the first sees, when both hold for every single step. -/
theorem simulation (N : OutputMachine State' Input Output') (view : Output → Option Output')
    {R : State → State' → Prop}
    (step : ∀ s t a, R s t → R (M.step s a).1 (N.step t a).1 ∧
      (M.step s a).2.filterMap view = (N.step t a).2)
    {s : State} {t : State'} (start : R s t) (as : List Input) :
    R (M.state s as) (N.state t as) ∧ (M.outputs s as).filterMap view = N.outputs t as := by
  induction as generalizing s t with
  | nil => exact ⟨start, rfl⟩
  | cons a as ih =>
    obtain ⟨hR, hout⟩ := step s t a start
    obtain ⟨hstate, houts⟩ := ih hR
    exact ⟨hstate, by simp [hout, houts]⟩

/-- A property of the consumed inputs and the state that every step guarded by `G` keeps holds
after a run of such steps. -/
theorem guarded_invariant {I : List Input → State → Prop} {G : List Input → Input → Prop}
    {s : State} (start : I [] s)
    (step : ∀ as a, G as a → I as (M.state s as) → I (as ++ [a]) (M.step (M.state s as) a).1)
    (as : List Input) (guarded : ∀ x ∈ positions as, G x.1 x.2) : I as (M.state s as) := by
  induction as using List.reverseRecOn with
  | nil => exact start
  | append_singleton as a ih =>
    rw [positions_concat] at guarded
    have hprev := ih (fun x hx => guarded x (List.mem_append_left _ hx))
    have hlast := guarded (as, a) (List.mem_append_right _ List.mem_cons_self)
    rw [state_append]
    exact step as a hlast hprev

/-- Deleting inputs that neither change the state nor emit anything is invisible. -/
theorem run_filter (keep : Input → Bool)
    (quiet : ∀ s a, keep a = false → M.step s a = (s, []))
    (s : State) (as : List Input) :
    M.state s (as.filter keep) = M.state s as ∧ M.outputs s (as.filter keep) = M.outputs s as := by
  induction as generalizing s with
  | nil => exact ⟨rfl, rfl⟩
  | cons a as ih =>
    cases h : keep a with
    | true => simpa [List.filter_cons, h] using ih (M.step s a).1
    | false => simpa [List.filter_cons, h, quiet s a h] using ih s

section HistoryVariables

variable {Past : Type*} (update : State → Input → Past → Past)

/-- A history variable: every step updates it, and no step reads it. -/
def past : State → Past → List Input → Past
  | _, p, [] => p
  | s, p, a :: as => past (M.step s a).1 (update s a p) as

theorem past_concat (s : State) (p : Past) (as : List Input) (a : Input) :
    M.past update s p (as ++ [a]) = update (M.state s as) a (M.past update s p as) := by
  induction as generalizing s p with
  | nil => rfl
  | cons b as ih => exact ih _ _

/-- A relation between the history variable and the state that every step guarded by `G` keeps
holds after a run of such steps. -/
theorem past_invariant {I : Past → State → Prop} {G : List Input → Input → Prop} {s : State}
    {p : Past} (start : I p s)
    (step : ∀ as a, G as a → I (M.past update s p as) (M.state s as) →
      I (update (M.state s as) a (M.past update s p as)) (M.step (M.state s as) a).1)
    (as : List Input) (guarded : ∀ x ∈ positions as, G x.1 x.2) :
    I (M.past update s p as) (M.state s as) := by
  refine M.guarded_invariant (I := fun as t => I (M.past update s p as) t) start
    (fun as a hguard hprev => ?_) as guarded
  rw [past_concat]
  exact step as a hguard hprev

end HistoryVariables

section Progress

variable {I : State → Prop} {E : State → Input → Prop} (measure : State → ℕ)
variable (helpful : Input → Bool)

/-- When every step either is an event `E` or keeps `I` and does not raise the measure, and the
helpful steps lower it, an event happens before the helpful inputs outnumber the measure. -/
theorem exists_event
    (step : ∀ s a, I s → E s a ∨ (I (M.step s a).1 ∧ measure (M.step s a).1 ≤ measure s ∧
      (helpful a = true → measure (M.step s a).1 < measure s)))
    {s : State} (start : I s) {as : List Input} (enough : measure s < as.countP helpful) :
    ∃ before a after, as = before ++ a :: after ∧ I (M.state s before) ∧
      E (M.state s before) a := by
  induction as generalizing s with
  | nil => exact absurd enough (Nat.not_lt_zero _)
  | cons a as ih =>
    rcases step s a start with hevent | ⟨hnext, hle, hlt⟩
    · exact ⟨[], a, as, rfl, start, hevent⟩
    · have hleft : measure (M.step s a).1 < as.countP helpful := by
        rw [List.countP_cons] at enough
        cases ha : helpful a with
        | false =>
          simp only [ha, Bool.false_eq_true, if_false, Nat.add_zero] at enough
          omega
        | true =>
          have hlower := hlt ha
          simp only [ha, if_true] at enough
          omega
      obtain ⟨before, b, after, rfl, hI, hevent⟩ := ih hnext hleft
      exact ⟨a :: before, b, after, rfl, hI, hevent⟩

/-- What every step keeps unless it is an event holds at the end, or an event has happened. -/
theorem kept_or_event
    (step : ∀ s a, I s → E s a ∨ I (M.step s a).1) {s : State} (start : I s) (as : List Input) :
    I (M.state s as) ∨ ∃ before a after, as = before ++ a :: after ∧ I (M.state s before) ∧
      E (M.state s before) a := by
  induction as using List.reverseRecOn with
  | nil => exact Or.inl start
  | append_singleton as a ih =>
    rcases ih with hkept | ⟨before, b, after, rfl, hI, hevent⟩
    · rcases step _ a hkept with hevent | hnext
      · exact Or.inr ⟨as, a, [], rfl, hkept, hevent⟩
      · rw [state_append]
        exact Or.inl hnext
    · exact Or.inr ⟨before, b, after ++ [a], by simp, hI, hevent⟩

end Progress

section Components

variable {Call Reply : Type*} (call : State → Input → List Call)

/-- The inputs that a run hands to a component, in order. -/
def callsTo : State → List Input → List Call
  | _, [] => []
  | s, a :: as => call s a ++ callsTo (M.step s a).1 as

theorem callsTo_append (s : State) (as bs : List Input) :
    M.callsTo call s (as ++ bs) =
      M.callsTo call s as ++ M.callsTo call (M.state s as) bs := by
  induction as generalizing s with
  | nil => rfl
  | cons a as ih =>
    have htail := ih (M.step s a).1
    simp only [List.cons_append, callsTo, state_cons, List.append_assoc, htail]

theorem callsTo_concat (s : State) (as : List Input) (a : Input) :
    M.callsTo call s (as ++ [a]) = M.callsTo call s as ++ call (M.state s as) a := by
  rw [callsTo_append]
  exact congrArg _ (List.append_nil _)

theorem mem_callsTo {s : State} {as : List Input} {c : Call} :
    c ∈ M.callsTo call s as ↔ ∃ x ∈ positions as, c ∈ call (M.state s x.1) x.2 := by
  induction as using List.reverseRecOn with
  | nil => simp [callsTo]
  | append_singleton as a ih =>
    rw [callsTo_concat, positions_concat, List.mem_append, ih]
    simp [or_and_right, exists_or]

theorem callsTo_invariant {I : List Call → List Output → State → Prop} {s : State}
    (start : I [] [] s)
    (step : ∀ cs os t a, I cs os t → I (cs ++ call t a) (os ++ (M.step t a).2) (M.step t a).1)
    (as : List Input) : I (M.callsTo call s as) (M.outputs s as) (M.state s as) := by
  induction as using List.reverseRecOn with
  | nil => exact start
  | append_singleton as a ih =>
    rw [callsTo_concat]
    simpa using step _ _ _ a ih

/-- A component that every step drives through its calls only has run on the calls of the
whole run, and the outputs that are replies of it are all its outputs. -/
theorem component_run (N : OutputMachine State' Call Reply) (component : State → State')
    (reply : Output → Option Reply)
    (step : ∀ s a, component (M.step s a).1 = N.state (component s) (call s a) ∧
      (M.step s a).2.filterMap reply = N.outputs (component s) (call s a))
    (s : State) (as : List Input) :
    component (M.state s as) = N.state (component s) (M.callsTo call s as) ∧
      (M.outputs s as).filterMap reply = N.outputs (component s) (M.callsTo call s as) := by
  induction as generalizing s with
  | nil => exact ⟨rfl, rfl⟩
  | cons a as ih =>
    obtain ⟨hnow, hreply⟩ := step s a
    obtain ⟨hlater, hreplies⟩ := ih (M.step s a).1
    refine ⟨?_, ?_⟩
    · rw [state_cons, hlater, hnow, callsTo, state_append]
    · rw [outputs_cons, List.filterMap_append, hreply, hreplies, hnow, callsTo, outputs_append]

end Components

end OutputMachine

end HvFrame
