import HvFrame.ShutdownProgress

/-!
# The receiver as a process

The main thread of the receiver waits for the flag, joins the receive thread and then the worker,
closes the socket and returns. It does so only after both threads have come to their end, and
does so in every fair schedule once the flag is set.
-/

namespace HvFrame

/-- Where `main` is once both threads run. `sleeping` lasts until the given time. -/
inductive MainPosition where
  | testShutdown
  | sleeping (wake : ℤ)
  | joinRx
  | joinWorker
  | closing
  | returned

structure ReceiverProcess where
  threads : ReceiverState
  main : MainPosition
  socketOpen : Bool

/-- Who moves next: a thread, the handler or the clock as before, or `main`. -/
inductive ProcessMove where
  | threads (a : ReceiverMove)
  | main

namespace ProcessMove

def threadMove : ProcessMove → Option ReceiverMove
  | .threads a => some a
  | .main => none

end ProcessMove

def threadMoves (moves : List ProcessMove) : List ReceiverMove :=
  moves.filterMap ProcessMove.threadMove

namespace MainPosition

/-- How far `main` has come: the flag seen, the receive thread joined, the worker joined, the
socket closed. -/
def stage : MainPosition → ℕ
  | .testShutdown => 0
  | .sleeping _ => 0
  | .joinRx => 1
  | .joinWorker => 2
  | .closing => 3
  | .returned => 4

/-- A bound on the moves of `main` before its last, once the threads have ended. -/
def toReturn : MainPosition → ℕ
  | .sleeping _ => 4
  | .testShutdown => 3
  | .joinRx => 2
  | .joinWorker => 1
  | .closing => 0
  | .returned => 0

end MainPosition

namespace ReceiverProcess

open ReceiverState (BothEnded)

def init (clock : ℤ) : ReceiverProcess := ⟨.init clock, .testShutdown, true⟩

/-- The end of `main`. A sleep or a join that is not over is left by no step. -/
def mainStep (p : ReceiverProcess) : ReceiverProcess :=
  match p.main with
  | .testShutdown =>
      { p with main :=
          if p.threads.shutdown then .joinRx else .sleeping (p.threads.clock + 50 * 1000000) }
  | .sleeping wake =>
      { p with main := if wake ≤ p.threads.clock then .testShutdown else .sleeping wake }
  | .joinRx =>
      match p.threads.rx with
      | .ended => { p with main := .joinWorker }
      | _ => p
  | .joinWorker =>
      match p.threads.worker with
      | .ended => { p with main := .closing }
      | _ => p
  | .closing => { p with main := .returned, socketOpen := false }
  | .returned => p

def step (p : ReceiverProcess) : ProcessMove → ReceiverProcess × List ReceiverEvent
  | .threads a => ({ p with threads := (p.threads.step a).1 }, (p.threads.step a).2)
  | .main => (p.mainStep, [])

def machine : OutputMachine ReceiverProcess ProcessMove ReceiverEvent := ⟨step⟩

variable {clock : ℤ} {moves : List ProcessMove} {p : ReceiverProcess}

/-- All that a step of `main` can do: wait, go on in its loop, or take the next stage. -/
theorem mainStep_cases (p : ReceiverProcess) :
    p.mainStep = p ∨
      (∃ m : MainPosition, p.main.stage = 0 ∧ m.stage = 0 ∧ p.mainStep = { p with main := m }) ∨
      (p.main.stage = 0 ∧ p.threads.shutdown = true ∧ p.mainStep = { p with main := .joinRx }) ∨
      (p.main = .joinRx ∧ p.threads.rx = .ended ∧ p.mainStep = { p with main := .joinWorker }) ∨
      (p.main = .joinWorker ∧ p.threads.worker = .ended ∧
        p.mainStep = { p with main := .closing }) ∨
      (p.main = .closing ∧ p.mainStep = { p with main := .returned, socketOpen := false }) := by
  cases hmain : p.main with
  | testShutdown =>
    cases hset : p.threads.shutdown with
    | true => exact Or.inr (Or.inr (Or.inl ⟨rfl, rfl, by simp [mainStep, hmain, hset]⟩))
    | false => exact Or.inr (Or.inl ⟨_, rfl, rfl, by simp only [mainStep, hmain, hset]; rfl⟩)
  | sleeping wake =>
    refine Or.inr (Or.inl ⟨if wake ≤ p.threads.clock then .testShutdown else .sleeping wake, rfl,
      ?_, by simp only [mainStep, hmain]⟩)
    split_ifs <;> rfl
  | joinRx =>
    cases hrx : p.threads.rx with
    | ended =>
      have he : p.mainStep = { p with main := .joinWorker } := by simp only [mainStep, hmain, hrx]
      exact Or.inr (Or.inr (Or.inr (Or.inl ⟨rfl, rfl, he⟩)))
    | _ => exact Or.inl (by simp only [mainStep, hmain, hrx])
  | joinWorker =>
    cases hw : p.threads.worker with
    | ended =>
      have he : p.mainStep = { p with main := .closing } := by simp only [mainStep, hmain, hw]
      exact Or.inr (Or.inr (Or.inr (Or.inr (Or.inl ⟨rfl, rfl, he⟩))))
    | _ => exact Or.inl (by simp only [mainStep, hmain, hw])
  | closing =>
    exact Or.inr (Or.inr (Or.inr (Or.inr (Or.inr ⟨rfl, by simp only [mainStep, hmain]⟩))))
  | returned => exact Or.inl (by simp only [mainStep, hmain])

theorem mainStep_threads (p : ReceiverProcess) : p.mainStep.threads = p.threads := by
  rcases p.mainStep_cases with he | ⟨m, -, -, he⟩ | ⟨-, -, he⟩ | ⟨-, -, he⟩ | ⟨-, -, he⟩ |
    ⟨-, he⟩ <;> rw [he]

/-- The threads run as they do without `main`. -/
theorem threads_run (p : ReceiverProcess) (moves : List ProcessMove) :
    (machine.state p moves).threads = ReceiverState.machine.state p.threads (threadMoves moves) ∧
      machine.outputs p moves = ReceiverState.machine.outputs p.threads (threadMoves moves) := by
  induction moves generalizing p with
  | nil => exact ⟨rfl, rfl⟩
  | cons a moves ih =>
    obtain ⟨hstate, houts⟩ := ih (p.step a).1
    rw [OutputMachine.state_cons, OutputMachine.outputs_cons]
    cases a with
    | threads a =>
      have hmoves : threadMoves (.threads a :: moves) = a :: threadMoves moves := rfl
      rw [hmoves, OutputMachine.state_cons, OutputMachine.outputs_cons]
      exact ⟨hstate, congrArg _ houts⟩
    | main =>
      have hmoves : threadMoves (.main :: moves) = threadMoves moves := rfl
      have hthreads : (p.step .main).1.threads = p.threads := p.mainStep_threads
      rw [hthreads] at hstate houts
      rw [hmoves]
      exact ⟨hstate, houts⟩

structure Joined (p : ReceiverProcess) : Prop where
  shutdown : 1 ≤ p.main.stage → p.threads.shutdown = true
  rx : 2 ≤ p.main.stage → p.threads.rx = .ended
  worker : 3 ≤ p.main.stage → p.threads.worker = .ended
  closed : p.socketOpen = false ↔ p.main.stage = 4

theorem Joined.mainStep (h : Joined p) : Joined p.mainStep := by
  obtain ⟨hshutdown, hrx, hworker, hclosed⟩ := h
  rcases p.mainStep_cases with he | ⟨m, hstage, hm, he⟩ | ⟨hstage, hset, he⟩ | ⟨hmain, hended, he⟩ |
    ⟨hmain, hended, he⟩ | ⟨hmain, he⟩ <;> rw [he]
  · exact ⟨hshutdown, hrx, hworker, hclosed⟩
  · rw [hstage] at hclosed
    refine ⟨?_, ?_, ?_, ?_⟩ <;> simp [hm, hclosed]
  · rw [hstage] at hclosed
    refine ⟨fun _ => hset, ?_, ?_, ?_⟩ <;> simp [MainPosition.stage, hclosed]
  · rw [hmain] at hshutdown hclosed
    refine ⟨fun _ => hshutdown le_rfl, fun _ => hended, ?_, ?_⟩ <;>
      simp [MainPosition.stage] at hclosed ⊢
    exact hclosed
  · rw [hmain] at hshutdown hrx hclosed
    refine ⟨fun _ => hshutdown ?_, fun _ => hrx le_rfl, fun _ => hended, ?_⟩ <;>
      simp [MainPosition.stage] at hclosed ⊢
    exact hclosed
  · rw [hmain] at hshutdown hrx hworker
    refine ⟨fun _ => hshutdown ?_, fun _ => hrx ?_, fun _ => hworker le_rfl, ?_⟩ <;>
      simp [MainPosition.stage]

theorem Joined.step (h : Joined p) (a : ProcessMove) : Joined (p.step a).1 := by
  cases a with
  | main => exact h.mainStep
  | threads a =>
    exact ⟨fun hm => ReceiverState.step_shutdown (h.shutdown hm) a,
      fun hm => (ReceiverState.step_rxEnded (h.rx hm) a).1,
      fun hm => ReceiverState.step_workerEnded (h.worker hm) a, h.closed⟩

theorem joined_run (clock : ℤ) (moves : List ProcessMove) :
    Joined (machine.state (init clock) moves) := by
  refine machine.state_invariant (I := Joined) ?_ (fun p a h => h.step a) moves
  refine ⟨?_, ?_, ?_, ?_⟩ <;> simp [init, MainPosition.stage]

theorem quiet_of_bothEnded {s : ReceiverState} (h : BothEnded s) (moves : List ReceiverMove) :
    ReceiverState.machine.outputs s moves = [] := by
  induction moves generalizing s with
  | nil => rfl
  | cons a moves ih =>
    obtain ⟨hrx, hworker⟩ := h
    have hnext : BothEnded (s.step a).1 :=
      ⟨(ReceiverState.step_rxEnded hrx a).1, ReceiverState.step_workerEnded hworker a⟩
    have hnow : (s.step a).2 = [] := by
      cases a with
      | rx outcome => simp only [ReceiverState.step, ReceiverState.rxStep, hrx]
      | worker => simp only [ReceiverState.step, ReceiverState.workerStep, hworker]
      | _ => rfl
    rw [OutputMachine.outputs_cons, ReceiverState.machine_step, hnow, ih hnext]
    rfl

theorem nothing_live {moves : List ReceiverMove}
    (h : (ReceiverState.machine.state (.init clock) moves).worker = .ended) :
    (ReceiverState.machine.state (.init clock) moves).manager.frames.size = 0 := by
  obtain ⟨inLoop, t, hcalls, -⟩ := (ReceiverState.usedInOrder_run clock moves).1.final h
  rw [(ReceiverState.manager_run clock moves).1, hcalls, OutputMachine.state_append]
  rfl

/-- `main` closes the socket only after the receive thread has come to its end, and returns only
after both threads have and no frame is left; after that nothing is emitted. -/
theorem process_safe (clock : ℤ) (moves : List ProcessMove) :
    let p := machine.state (init clock) moves
    (p.socketOpen = false → p.threads.rx = .ended) ∧
      (p.main = .returned → p.threads.shutdown = true ∧ BothEnded p.threads ∧
        p.threads.manager.frames.size = 0 ∧ p.socketOpen = false ∧
        ∀ more, machine.outputs p more = []) := by
  intro p
  have hjoined : Joined p := joined_run clock moves
  have hthreads := (threads_run (init clock) moves).1
  refine ⟨fun hclosed => ?_, fun hreturned => ?_⟩
  · have hstage := hjoined.closed.mp hclosed
    exact hjoined.rx (by omega)
  · have hstage : p.main.stage = 4 := by
      rw [hreturned]
      rfl
    have hended : BothEnded p.threads := ⟨hjoined.rx (by omega), hjoined.worker (by omega)⟩
    refine ⟨hjoined.shutdown (by omega), hended, ?_, hjoined.closed.mpr hstage, fun more => ?_⟩
    · have hworker := hended.2
      rw [show p.threads = _ from hthreads] at hworker ⊢
      exact nothing_live hworker
    · rw [(threads_run p more).2]
      exact quiet_of_bothEnded hended _

/-- The threads have ended and `main` does not oversleep. -/
structure Joinable (p : ReceiverProcess) : Prop where
  ended : BothEnded p.threads
  shutdown : p.threads.shutdown = true
  awake : ∀ wake, p.main = .sleeping wake → wake ≤ p.threads.clock

theorem Joinable.threads (h : Joinable p) (a : ReceiverMove) :
    Joinable { p with threads := (p.threads.step a).1 } where
  ended := ⟨(ReceiverState.step_rxEnded h.ended.1 a).1,
    ReceiverState.step_workerEnded h.ended.2 a⟩
  shutdown := ReceiverState.step_shutdown h.shutdown a
  awake := by
    intro wake hmain
    have hle := h.awake wake hmain
    have hclock := p.threads.step_clock a
    dsimp only
    omega

theorem Joinable.mainStep (h : Joinable p) (hrunning : p.main ≠ .returned) :
    p.mainStep.main = .returned ∨
      (Joinable p.mainStep ∧ p.mainStep.main.toReturn < p.main.toReturn) := by
  have hkept : ∀ m : MainPosition, m.stage ≠ 0 ∨ m = .testShutdown →
      Joinable { p with main := m } := by
    intro m hm
    refine ⟨h.ended, h.shutdown, fun wake hmain => ?_⟩
    obtain rfl : m = .sleeping wake := hmain
    rcases hm with hm | hm
    · exact absurd rfl hm
    · cases hm
  cases hmain : p.main with
  | testShutdown =>
    simp only [ReceiverProcess.mainStep, hmain, h.shutdown, if_true]
    exact Or.inr ⟨hkept _ (Or.inl (by simp [MainPosition.stage])), by simp [MainPosition.toReturn]⟩
  | sleeping wake =>
    simp only [ReceiverProcess.mainStep, hmain, if_pos (h.awake wake hmain)]
    exact Or.inr ⟨hkept _ (Or.inr rfl), by simp [MainPosition.toReturn]⟩
  | joinRx =>
    simp only [ReceiverProcess.mainStep, hmain, h.ended.1]
    exact Or.inr ⟨hkept _ (Or.inl (by simp [MainPosition.stage])), by simp [MainPosition.toReturn]⟩
  | joinWorker =>
    simp only [ReceiverProcess.mainStep, hmain, h.ended.2]
    exact Or.inr ⟨hkept _ (Or.inl (by simp [MainPosition.stage])), by simp [MainPosition.toReturn]⟩
  | closing => exact Or.inl (by simp only [ReceiverProcess.mainStep, hmain])
  | returned => exact absurd hmain hrunning

end ReceiverProcess

end HvFrame
