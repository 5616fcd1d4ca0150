import HvFrame.PacketQueue
import Mathlib.Algebra.BigOperators.Group.Finset.Piecewise
import Mathlib.Data.Fintype.Basic

/-!
# Notifications of the packet queue

The queue with its condition variable. `push` notifies one waiting thread after it has released
the mutex, waits may end without a notification, and the flag `shutdown` is set without one.
The machine refines the one whose waits end at any time, and loses no wake-up.
-/

namespace HvFrame

/-- Where a thread is. `notifying` has pushed and released the mutex; `woken` has left its wait
and is about to lock the mutex again. -/
inductive QueueThread where
  | idle
  | notifying
  | blocked (call : PopCall)
  | woken (call : PopCall)
  deriving DecidableEq, Repr

namespace QueueThread

def call : QueueThread → Option PopCall
  | .blocked call => some call
  | .woken call => some call
  | _ => none

def isBlocked : QueueThread → Bool
  | .blocked _ => true
  | _ => false

/-- A thread that is about to notify or to look at the queue counts once. -/
def awake : QueueThread → ℕ
  | .notifying => 1
  | .woken _ => 1
  | _ => 0

end QueueThread

/-- `chosen` is the thread that `notify_one` unblocks; `wakeUp` is a spurious wake-up or the
timeout of `wait_for`. -/
inductive CondAction (Thread Packet : Type*) where
  | push (t : Thread) (pkt : Packet)
  | notifyOne (t chosen : Thread)
  | tryPop (t : Thread)
  | enter (t : Thread) (call : PopCall)
  | wakeUp (t : Thread)
  | resume (t : Thread)
  | setShutdown

structure CondQueue (Thread Packet : Type*) where
  queue : PacketQueue Packet
  shutdown : Bool
  threads : Thread → QueueThread

namespace CondQueue

variable {Thread Packet : Type*} [DecidableEq Thread] [Fintype Thread]

def init (capacity : ℕ) : CondQueue Thread Packet := ⟨.new capacity, false, fun _ => .idle⟩

def setThread (s : CondQueue Thread Packet) (t : Thread) (position : QueueThread) :
    CondQueue Thread Packet :=
  { s with threads := Function.update s.threads t position }

def finishPop (s : CondQueue Thread Packet) (t : Thread) (call : PopCall) :
    PopOutcome Packet → CondQueue Thread Packet × List (QueueEvent Packet)
  | .waits => (s.setThread t (.blocked call), [])
  | .leaves q out => ({ s with queue := q }.setThread t .idle, [.ofPop out])

/-- A notification takes effect on a blocked thread, and on none only if none is blocked. -/
def step (s : CondQueue Thread Packet) :
    CondAction Thread Packet → CondQueue Thread Packet × List (QueueEvent Packet)
  | .push t pkt =>
      if s.threads t = .idle then
        if (s.queue.push pkt).2 then
          ({ s with queue := (s.queue.push pkt).1 }.setThread t .notifying, [.accepted pkt])
        else ({ s with queue := (s.queue.push pkt).1 }, [.rejected pkt])
      else (s, [])
  | .notifyOne t chosen =>
      if s.threads t = .notifying then
        match s.threads chosen with
        | .blocked call => ((s.setThread t .idle).setThread chosen (.woken call), [])
        | _ => if ∀ u, (s.threads u).isBlocked = false then (s.setThread t .idle, []) else (s, [])
      else (s, [])
  | .tryPop t =>
      if s.threads t = .idle then
        ({ s with queue := s.queue.tryPop.1 }, [.ofPop s.queue.tryPop.2])
      else (s, [])
  | .enter t call =>
      if s.threads t = .idle then s.finishPop t call (call.enter s.queue s.shutdown)
      else (s, [])
  | .wakeUp t =>
      match s.threads t with
      | .blocked call => (s.setThread t (.woken call), [])
      | _ => (s, [])
  | .resume t =>
      match s.threads t with
      | .woken call => s.finishPop t call (call.woken s.queue s.shutdown)
      | _ => (s, [])
  | .setShutdown => ({ s with shutdown := true }, [])

def machine (Thread Packet : Type*) [DecidableEq Thread] [Fintype Thread] :
    OutputMachine (CondQueue Thread Packet) (CondAction Thread Packet) (QueueEvent Packet) :=
  ⟨step⟩

section Refinement

def toSystem (s : CondQueue Thread Packet) : QueueSystem Thread Packet :=
  ⟨s.queue, s.shutdown, fun t => (s.threads t).call⟩

/-- The action of that queue that a step amounts to, if it is one. -/
def systemAction (s : CondQueue Thread Packet) :
    CondAction Thread Packet → List (QueueAction Thread Packet)
  | .push t pkt => if s.threads t = .idle then [.push t pkt] else []
  | .tryPop t => if s.threads t = .idle then [.tryPop t] else []
  | .enter t call => if s.threads t = .idle then [.enter t call] else []
  | .resume t =>
      match s.threads t with
      | .woken _ => [.wake t]
      | _ => []
  | .setShutdown => [.setShutdown]
  | _ => []

variable {s : CondQueue Thread Packet} {t : Thread}

omit [Fintype Thread] in
theorem toSystem_setThread (s : CondQueue Thread Packet) (t : Thread) (position : QueueThread) :
    (s.setThread t position).toSystem =
      { s.toSystem with waiting := Function.update s.toSystem.waiting t position.call } := by
  simp only [toSystem, setThread, QueueSystem.mk.injEq, true_and]
  funext u
  by_cases hu : u = t
  · subst hu
    simp
  · simp [hu]

omit [Fintype Thread] in
theorem toSystem_setThread_same {position : QueueThread} (h : (s.threads t).call = position.call) :
    (s.setThread t position).toSystem = s.toSystem := by
  rw [toSystem_setThread, ← h]
  exact congrArg (QueueSystem.mk s.queue s.shutdown) (Function.update_eq_self t _)

omit [Fintype Thread] in
theorem toSystem_finishPop (s : CondQueue Thread Packet) (t : Thread) (call : PopCall)
    (outcome : PopOutcome Packet) :
    (s.finishPop t call outcome).1.toSystem = (s.toSystem.finishPop t call outcome).1 ∧
      (s.finishPop t call outcome).2 = (s.toSystem.finishPop t call outcome).2 := by
  cases outcome with
  | waits => exact ⟨toSystem_setThread s t _, rfl⟩
  | leaves q out => exact ⟨toSystem_setThread { s with queue := q } t .idle, rfl⟩

omit [Fintype Thread] in
theorem system_run_singleton (s : QueueSystem Thread Packet) (a : QueueAction Thread Packet) :
    (QueueSystem.machine Thread Packet).state s [a] = (s.step a).1 ∧
      (QueueSystem.machine Thread Packet).outputs s [a] = (s.step a).2 :=
  ⟨rfl, List.append_nil _⟩

/-- Every step of the notified queue is a step of the other, or is not seen there. -/
theorem step_refines (s : CondQueue Thread Packet) (a : CondAction Thread Packet) :
    (s.step a).1.toSystem =
        (QueueSystem.machine Thread Packet).state s.toSystem (s.systemAction a) ∧
      (s.step a).2 = (QueueSystem.machine Thread Packet).outputs s.toSystem (s.systemAction a) := by
  have hwaiting : ∀ t, s.threads t = .idle → (s.toSystem.waiting t).isSome = false := by
    intro t ht
    simp [toSystem, ht, QueueThread.call]
  cases a with
  | push t pkt =>
    by_cases ht : s.threads t = .idle
    · have hsystem : s.toSystem.step (.push t pkt) =
          ({ s.toSystem with queue := (s.queue.push pkt).1 },
            [if (s.queue.push pkt).2 then .accepted pkt else .rejected pkt]) := by
        rw [QueueSystem.step, hwaiting t ht]
        rfl
      have hsame : (s.threads t).call = QueueThread.notifying.call := by rw [ht]; rfl
      simp only [step, systemAction, if_pos ht, (system_run_singleton _ _).1,
        (system_run_singleton _ _).2, hsystem]
      cases hpush : (s.queue.push pkt).2 with
      | true =>
        rw [if_pos rfl, if_pos rfl]
        exact ⟨toSystem_setThread_same (s := { s with queue := _ }) hsame, rfl⟩
      | false => exact ⟨rfl, rfl⟩
    · simp only [step, systemAction, if_neg ht]
      exact ⟨rfl, rfl⟩
  | notifyOne t chosen =>
    by_cases ht : s.threads t = .notifying
    · have hidle : (s.threads t).call = QueueThread.idle.call := by rw [ht]; rfl
      simp only [step, systemAction, if_pos ht]
      cases hc : s.threads chosen with
      | blocked call =>
        refine ⟨?_, rfl⟩
        have hne : chosen ≠ t := by
          rintro rfl
          rw [ht] at hc
          cases hc
        have hwoken : ((s.setThread t .idle).threads chosen).call =
            (QueueThread.woken call).call := by
          have hkept : (s.setThread t .idle).threads chosen = s.threads chosen :=
            Function.update_of_ne hne _ _
          rw [hkept, hc]
          rfl
        exact (toSystem_setThread_same hwoken).trans (toSystem_setThread_same hidle)
      | _ =>
        dsimp only
        split_ifs
        · exact ⟨toSystem_setThread_same hidle, rfl⟩
        · exact ⟨rfl, rfl⟩
    · simp only [step, systemAction, if_neg ht]
      exact ⟨rfl, rfl⟩
  | tryPop t =>
    by_cases ht : s.threads t = .idle
    · simp only [step, systemAction, if_pos ht, (system_run_singleton _ _).1,
        (system_run_singleton _ _).2, QueueSystem.step, hwaiting t ht]
      exact ⟨rfl, rfl⟩
    · simp only [step, systemAction, if_neg ht]
      exact ⟨rfl, rfl⟩
  | enter t call =>
    by_cases ht : s.threads t = .idle
    · simp only [step, systemAction, if_pos ht, (system_run_singleton _ _).1,
        (system_run_singleton _ _).2, QueueSystem.step, hwaiting t ht]
      exact toSystem_finishPop s t call _
    · simp only [step, systemAction, if_neg ht]
      exact ⟨rfl, rfl⟩
  | wakeUp t =>
    cases ht : s.threads t with
    | blocked call =>
      have hsame : (s.threads t).call = (QueueThread.woken call).call := by rw [ht]; rfl
      simp only [step, systemAction, ht]
      exact ⟨toSystem_setThread_same hsame, rfl⟩
    | _ =>
      simp only [step, systemAction, ht]
      exact ⟨rfl, rfl⟩
  | resume t =>
    cases ht : s.threads t with
    | woken call =>
      have hcall : s.toSystem.waiting t = some call := by
        simp [toSystem, ht, QueueThread.call]
      simp only [step, systemAction, ht, (system_run_singleton _ _).1,
        (system_run_singleton _ _).2, QueueSystem.step, hcall]
      exact toSystem_finishPop s t call _
    | _ =>
      simp only [step, systemAction, ht]
      exact ⟨rfl, rfl⟩
  | setShutdown => exact ⟨rfl, rfl⟩

/-- So every run is a run of the other queue, with the same packets in and out. -/
theorem run_refines (s : CondQueue Thread Packet) (actions : List (CondAction Thread Packet)) :
    let acts := (machine Thread Packet).callsTo systemAction s actions
    ((machine Thread Packet).state s actions).toSystem =
        (QueueSystem.machine Thread Packet).state s.toSystem acts ∧
      (machine Thread Packet).outputs s actions =
        (QueueSystem.machine Thread Packet).outputs s.toSystem acts := by
  have hrun := (machine Thread Packet).component_run systemAction
    (QueueSystem.machine Thread Packet) toSystem some
    (fun s a => ⟨(step_refines s a).1, List.filterMap_some.trans (step_refines s a).2⟩) s actions
  exact ⟨hrun.1, List.filterMap_some.symm.trans hrun.2⟩

end Refinement

section Wakeups

variable {s : CondQueue Thread Packet} {t : Thread}

def awakeThreads (s : CondQueue Thread Packet) : ℕ := ∑ t, (s.threads t).awake

theorem awakeThreads_setThread (s : CondQueue Thread Packet) (t : Thread)
    (position : QueueThread) :
    (s.setThread t position).awakeThreads + (s.threads t).awake =
      s.awakeThreads + position.awake := by
  have hupdate : (fun u => ((s.setThread t position).threads u).awake) =
      Function.update (fun u => (s.threads u).awake) t position.awake := by
    funext u
    by_cases hu : u = t
    · subst hu
      simp [setThread]
    · simp [setThread, hu]
  have hrest := Finset.sum_erase_add Finset.univ (fun u => (s.threads u).awake)
    (Finset.mem_univ t)
  rw [awakeThreads, hupdate, Finset.sum_update_of_mem (Finset.mem_univ t),
    Finset.sdiff_singleton_eq_erase, awakeThreads, ← hrest]
  omega

omit [Fintype Thread] in
theorem isBlocked_of_setThread {position : QueueThread} {u : Thread}
    (h : ((s.setThread t position).threads u).isBlocked = true) :
    (u = t ∧ position.isBlocked = true) ∨ (u ≠ t ∧ (s.threads u).isBlocked = true) := by
  by_cases hu : u = t
  · subst hu
    exact Or.inl ⟨rfl, by simpa [setThread] using h⟩
  · exact Or.inr ⟨hu, by simpa [setThread, hu] using h⟩

/-- While a thread is blocked, every queued packet has an awake thread to see to it. -/
def Attended (s : CondQueue Thread Packet) : Prop :=
  ∀ t, (s.threads t).isBlocked = true → s.queue.items.length ≤ s.awakeThreads

/-- A packet that comes brings an awake thread; a thread goes back to sleep with a packet, or when
there is none. -/
theorem Attended.setThread (h : Attended s) {q : PacketQueue Packet} {position : QueueThread}
    (hawake : q.items = [] ∨
      q.items.length + (s.threads t).awake ≤ s.queue.items.length + position.awake)
    (hblocked : position.isBlocked = true → q.items = []) :
    Attended ({ s with queue := q }.setThread t position) := by
  intro u hu
  have hnew := awakeThreads_setThread { s with queue := q } t position
  have hsame : ({ s with queue := q } : CondQueue Thread Packet).awakeThreads =
    s.awakeThreads := rfl
  have hitems : ({ s with queue := q }.setThread t position).queue.items = q.items := rfl
  rw [hitems]
  rcases hawake with hnil | hle
  · rw [hnil]
    exact Nat.zero_le _
  · rcases isBlocked_of_setThread hu with ⟨-, hposition⟩ | ⟨-, hold⟩
    · rw [hblocked hposition]
      exact Nat.zero_le _
    · have hbefore := h u hold
      dsimp only at hnew
      omega

theorem Attended.finishPop (h : Attended s) (hthread : (s.threads t).awake ≤ 1) (call : PopCall)
    {outcome : PopOutcome Packet}
    (houtcome : (s.queue.items = [] ∧ outcome = .waits) ∨
      outcome = .leaves s.queue.tryPop.1 s.queue.tryPop.2) :
    Attended (s.finishPop t call outcome).1 := by
  rcases houtcome with ⟨hnil, rfl⟩ | rfl
  · exact h.setThread (q := s.queue) (Or.inl hnil) (fun _ => hnil)
  · refine h.setThread (q := s.queue.tryPop.1) ?_ (fun hb => by cases hb)
    rcases s.queue.tryPop_cases with ⟨hnil, he⟩ | ⟨pkt, rest, hcons, he⟩
    · exact Or.inl (by rw [he]; exact hnil)
    · refine Or.inr ?_
      rw [he, hcons, List.length_cons]
      exact Nat.add_le_add_left hthread _

theorem Attended.notifyOne (h : Attended s) {chosen : Thread} {call : PopCall}
    (ht : s.threads t = .notifying) (hc : s.threads chosen = .blocked call) :
    Attended ((s.setThread t .idle).setThread chosen (.woken call)) := by
  intro u hu
  have hne : chosen ≠ t := by
    rintro rfl
    rw [ht] at hc
    cases hc
  have hkept : (s.setThread t .idle).threads chosen = s.threads chosen :=
    Function.update_of_ne hne _ _
  have hfirst := awakeThreads_setThread s t .idle
  have hsecond := awakeThreads_setThread (s.setThread t .idle) chosen (.woken call)
  rw [ht] at hfirst
  rw [hkept, hc] at hsecond
  simp only [QueueThread.awake] at hfirst hsecond
  rcases isBlocked_of_setThread hu with ⟨-, hwoken⟩ | ⟨-, hu'⟩
  · cases hwoken
  · rcases isBlocked_of_setThread hu' with ⟨-, hidle⟩ | ⟨-, hold⟩
    · cases hidle
    · have hbefore := h u hold
      have hitems : ((s.setThread t .idle).setThread chosen (.woken call)).queue.items =
        s.queue.items := rfl
      rw [hitems]
      omega

/-- Every step keeps the packets attended. -/
theorem Attended.step (h : Attended s) (a : CondAction Thread Packet) : Attended (s.step a).1 := by
  have hwait := s.queue.waitOrTake_cases s.shutdown
  have houtcome : (s.queue.items = [] ∧ s.queue.waitOrTake s.shutdown = .waits) ∨
      s.queue.waitOrTake s.shutdown = .leaves s.queue.tryPop.1 s.queue.tryPop.2 :=
    hwait.imp_left (fun hw => ⟨hw.1, hw.2.2⟩)
  cases a with
  | push t pkt =>
    by_cases ht : s.threads t = .idle
    · simp only [CondQueue.step, if_pos ht]
      rcases s.queue.push_cases pkt with ⟨-, he⟩ | ⟨-, he⟩ <;> rw [he]
      · refine h.setThread (q := { s.queue with items := s.queue.items ++ [pkt] })
          (Or.inr ?_) (fun hb => by cases hb)
        simp [ht, QueueThread.awake]
      · exact h
    · simp only [CondQueue.step, if_neg ht]
      exact h
  | notifyOne t chosen =>
    by_cases ht : s.threads t = .notifying
    · simp only [CondQueue.step, if_pos ht]
      cases hc : s.threads chosen with
      | blocked call => exact h.notifyOne ht hc
      | _ =>
        dsimp only
        split_ifs with hnone
        · intro u hu
          rcases isBlocked_of_setThread hu with ⟨-, hidle⟩ | ⟨-, hold⟩
          · cases hidle
          · rw [hnone u] at hold
            cases hold
        · exact h
    · simp only [CondQueue.step, if_neg ht]
      exact h
  | tryPop t =>
    by_cases ht : s.threads t = .idle
    · simp only [CondQueue.step, if_pos ht]
      intro u hu
      refine le_trans ?_ (h u hu)
      rcases s.queue.tryPop_cases with ⟨-, he⟩ | ⟨pkt, rest, hcons, he⟩
      · rw [he]
      · rw [he, hcons]
        exact Nat.le_succ _
    · simp only [CondQueue.step, if_neg ht]
      exact h
  | enter t call =>
    by_cases ht : s.threads t = .idle
    · have henter : call.enter s.queue s.shutdown = s.queue.waitOrTake s.shutdown := by
        cases call <;> rfl
      simp only [CondQueue.step, if_pos ht, henter]
      exact h.finishPop (by simp [ht, QueueThread.awake]) call houtcome
    · simp only [CondQueue.step, if_neg ht]
      exact h
  | wakeUp t =>
    cases ht : s.threads t with
    | blocked call =>
      simp only [CondQueue.step, ht]
      exact h.setThread (q := s.queue) (Or.inr (by simp [ht, QueueThread.awake]))
        (fun hb => by cases hb)
    | _ =>
      simp only [CondQueue.step, ht]
      exact h
  | resume t =>
    cases ht : s.threads t with
    | woken call =>
      simp only [CondQueue.step, ht]
      refine h.finishPop (by simp [ht, QueueThread.awake]) call ?_
      cases call with
      | pop => exact houtcome
      | popUntil => exact Or.inr rfl
      | popOrShutdown => exact houtcome
    | _ =>
      simp only [CondQueue.step, ht]
      exact h
  | setShutdown => exact h

theorem attended_run (capacity : ℕ) (actions : List (CondAction Thread Packet)) :
    Attended ((machine Thread Packet).state (init capacity) actions) :=
  (machine Thread Packet).state_invariant (fun _ _ => Nat.zero_le _) (fun _ a h => h.step a) actions

def Quiet (s : CondQueue Thread Packet) : Prop :=
  ∀ t, s.threads t = .idle ∨ (s.threads t).isBlocked = true

/-- The queue with `notify_one` outside the mutex is the queue whose waits may end at any time,
and it loses no wake-up: as long as a thread is blocked, there are no more queued packets than
threads about to notify or to look at the queue, and none when no thread is. -/
theorem notified_queue (capacity : ℕ) (actions : List (CondAction Thread Packet)) :
    let s := (machine Thread Packet).state (init capacity) actions
    let es := (machine Thread Packet).outputs (init capacity) actions
    (∃ acts, s.toSystem = (QueueSystem.machine Thread Packet).state (.init capacity) acts ∧
      es = (QueueSystem.machine Thread Packet).outputs (.init capacity) acts) ∧
    (∀ t, (s.threads t).isBlocked = true → s.queue.items.length ≤ s.awakeThreads) ∧
    (Quiet s → s.queue.items ≠ [] → ∀ t, s.threads t = .idle) := by
  intro s es
  have hattended := attended_run capacity actions
  refine ⟨⟨_, run_refines (init capacity) actions⟩, hattended, fun hquiet hitems t => ?_⟩
  refine (hquiet t).resolve_right (fun hblocked => hitems ?_)
  have hasleep : s.awakeThreads = 0 := by
    refine Finset.sum_eq_zero (fun u _ => ?_)
    rcases hquiet u with hu | hu
    · rw [hu]
      rfl
    · cases hp : s.threads u <;> simp [hp, QueueThread.isBlocked] at hu
      rfl
  have hle : s.queue.items.length ≤ s.awakeThreads := hattended t hblocked
  rw [hasleep] at hle
  exact List.eq_nil_of_length_eq_zero (Nat.le_zero.mp hle)

omit [DecidableEq Thread] [Fintype Thread] in
theorem pop_of_shutdown (h : s.shutdown = true) (call : PopCall) :
    call.enter s.queue s.shutdown = .leaves s.queue.tryPop.1 s.queue.tryPop.2 ∧
      call.woken s.queue s.shutdown = .leaves s.queue.tryPop.1 s.queue.tryPop.2 := by
  have htake : s.queue.waitOrTake s.shutdown = .leaves s.queue.tryPop.1 s.queue.tryPop.2 := by
    rcases s.queue.waitOrTake_cases s.shutdown with ⟨-, hclear, -⟩ | htake
    · rw [h] at hclear
      cases hclear
    · exact htake
  cases call with
  | pop => exact ⟨htake, htake⟩
  | popUntil => exact ⟨htake, rfl⟩
  | popOrShutdown => exact ⟨htake, htake⟩

/-- Thread `t` waits, the flag is set, and nobody is about to notify. -/
structure Forgotten (t : Thread) (call : PopCall) (s : CondQueue Thread Packet) : Prop where
  shutdown : s.shutdown = true
  blocked : s.threads t = .blocked call
  quiet : Quiet s

omit [Fintype Thread] in
theorem Quiet.setIdle (h : Quiet s) (t : Thread) : Quiet (s.setThread t .idle) := by
  intro u
  by_cases hu : u = t
  · subst hu
    exact Or.inl (Function.update_self ..)
  · have hkept : (s.setThread t .idle).threads u = s.threads u := Function.update_of_ne hu _ _
    rw [hkept]
    exact h u

/-- Only a push or the end of a wait gets a forgotten thread going. -/
theorem Forgotten.step {call : PopCall} (h : Forgotten t call s) {a : CondAction Thread Packet}
    (hpush : ∀ u pkt, a ≠ .push u pkt) (hwake : ∀ u, a ≠ .wakeUp u) :
    Forgotten t call (s.step a).1 := by
  have hnotifying : ∀ u, s.threads u ≠ .notifying := by
    intro u hu
    rcases h.quiet u with hidle | hblocked
    · rw [hidle] at hu
      cases hu
    · rw [hu] at hblocked
      cases hblocked
  cases a with
  | push u pkt => exact absurd rfl (hpush u pkt)
  | wakeUp u => exact absurd rfl (hwake u)
  | notifyOne u chosen =>
    simp only [CondQueue.step, if_neg (hnotifying u)]
    exact h
  | tryPop u =>
    simp only [CondQueue.step]
    split_ifs
    · exact ⟨h.shutdown, h.blocked, h.quiet⟩
    · exact h
  | enter u call' =>
    by_cases hu : s.threads u = .idle
    · have hne : t ≠ u := by
        rintro rfl
        rw [h.blocked] at hu
        cases hu
      simp only [CondQueue.step, if_pos hu, (pop_of_shutdown h.shutdown call').1]
      refine ⟨h.shutdown, (Function.update_of_ne hne _ _).trans h.blocked, ?_⟩
      have hquiet : Quiet { s with queue := s.queue.tryPop.1 } := h.quiet
      exact hquiet.setIdle u
    · simp only [CondQueue.step, if_neg hu]
      exact h
  | resume u =>
    have hwoken : ∀ call', s.threads u ≠ .woken call' := by
      intro call' hu
      rcases h.quiet u with hidle | hblocked
      · rw [hidle] at hu
        cases hu
      · rw [hu] at hblocked
        cases hblocked
    cases hu : s.threads u with
    | woken call' => exact absurd hu (hwoken call')
    | _ =>
      simp only [CondQueue.step, hu]
      exact h
  | setShutdown => exact ⟨rfl, h.blocked, h.quiet⟩

theorem Forgotten.run {call : PopCall} {later : List (CondAction Thread Packet)}
    (h : Forgotten t call s)
    (hlater : ∀ a ∈ later, (∀ u pkt, a ≠ .push u pkt) ∧ ∀ u, a ≠ .wakeUp u) :
    Forgotten t call ((machine Thread Packet).state s later) := by
  induction later generalizing s with
  | nil => exact h
  | cons a later ih =>
    obtain ⟨hpush, hwake⟩ := hlater a List.mem_cons_self
    exact ih (h.step hpush hwake) (fun b hb => hlater b (List.mem_cons_of_mem _ hb))

/-- Setting `shutdown` wakes nobody: a thread that waits when nothing else is going on waits on
until something is pushed or its wait ends by itself; then its pop returns. -/
theorem shutdown_wakes_nobody {call : PopCall} {later : List (CondAction Thread Packet)}
    (hblocked : s.threads t = .blocked call) (hquiet : Quiet s)
    (hlater : ∀ a ∈ later, (∀ u pkt, a ≠ .push u pkt) ∧ ∀ u, a ≠ .wakeUp u) :
    let s' := (machine Thread Packet).state s (.setShutdown :: later)
    s'.threads t = .blocked call ∧
      ((machine Thread Packet).state s' [.wakeUp t, .resume t]).threads t = .idle ∧
      (machine Thread Packet).outputs s' [.wakeUp t, .resume t] = [.ofPop s'.queue.tryPop.2] := by
  intro s'
  have hset : Forgotten t call { s with shutdown := true } := ⟨rfl, hblocked, hquiet⟩
  have hforgotten : Forgotten t call s' := hset.run hlater
  have hwake : s'.step (.wakeUp t) = (s'.setThread t (.woken call), []) := by
    simp only [CondQueue.step, hforgotten.blocked]
  have hwoken : (s'.setThread t (.woken call)).threads t = .woken call :=
    Function.update_self ..
  have hresume : (s'.setThread t (.woken call)).step (.resume t) =
      ({ s'.setThread t (.woken call) with queue := s'.queue.tryPop.1 }.setThread t .idle,
        [.ofPop s'.queue.tryPop.2]) := by
    have hpop := (pop_of_shutdown (s := s'.setThread t (.woken call)) hforgotten.shutdown call).2
    simp only [CondQueue.step, hwoken, hpop]
    rfl
  refine ⟨hforgotten.blocked, ?_, ?_⟩
  · simp only [OutputMachine.state_cons, OutputMachine.state_nil, machine, hwake, hresume]
    exact Function.update_self ..
  · simp only [OutputMachine.outputs_cons, OutputMachine.outputs_nil, machine, hwake, hresume,
      List.append_nil, List.nil_append]

/-- A consumer that entered `pop` on an empty queue is forgotten, whatever another one does. -/
theorem shutdown_wakes_nobody_pop :
    let s := (machine Bool ℕ).state (init 4) [.enter false .pop]
    let s' := (machine Bool ℕ).state s [.setShutdown, .enter true .popUntil, .tryPop true]
    s'.threads false = .blocked .pop ∧
      ((machine Bool ℕ).state s' [.wakeUp false, .resume false]).threads false = .idle ∧
      (machine Bool ℕ).outputs s' [.wakeUp false, .resume false] =
        [.ofPop s'.queue.tryPop.2] := by
  intro s
  have hquiet : Quiet s := by
    intro t
    cases t with
    | true => exact Or.inl rfl
    | false => exact Or.inr rfl
  have hlater : ∀ a ∈ ([.enter true .popUntil, .tryPop true] : List (CondAction Bool ℕ)),
      (∀ u pkt, a ≠ .push u pkt) ∧ ∀ u, a ≠ .wakeUp u := by
    intro a ha
    simp only [List.mem_cons, List.not_mem_nil, or_false] at ha
    rcases ha with rfl | rfl <;> exact ⟨by simp, by simp⟩
  exact shutdown_wakes_nobody rfl hquiet hlater

end Wakeups

end CondQueue

end HvFrame
