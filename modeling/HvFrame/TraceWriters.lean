import HvFrame.DebugLog
import HvFrame.OutputMachines
import HvFrame.SharedRings

/-!
# The threads that trace

Both threads of the receiver call `trace_packet`, which takes its number with a `fetch_add` and
then assigns the slot. In every interleaving in which no call is overtaken by a whole ring, the
dump lists the last calls in the order of their numbers.
-/

namespace HvFrame

namespace DebugLog

theorem get_set {seq : UInt64} (h : seq.toNat + 1 < 2 ^ 64)
    (ring : Vector PacketTraceEntry traceRingSize) (e : PacketTraceEntry) :
    (ring.set (maskedSeq seq).toNat e (maskedSeq_lt seq)).get =
      Function.update ring.get (Fin.ofNat traceRingSize seq.toNat) e := by
  have hroom : (DebugLog.mk ring seq).writeSeq.toNat + 1 < 2 ^ 64 := h
  exact congrArg RingBuffer.slots (toRing_tracePacket hroom e)

theorem dumpsLast_of_holds {log : DebugLog} {es : List PacketTraceEntry}
    (h : log.toRing.Holds es) : DumpsLast log es := by
  have hlines : log.dumpLines = lastCalls es := by
    rw [dumpLines_eq, h.latest_eq, lastCalls]
  refine ⟨hlines, ?_, ?_⟩
  · rw [hlines, lastCalls, List.length_map, List.length_drop, List.length_zip, List.length_range]
    omega
  · rw [dumpRing, if_pos rfl, hlines]

end DebugLog

/-- The ring, and the calls of `trace_packet` that are between their two accesses. -/
structure TraceWriters (Thread : Type*) where
  log : DebugLog
  pending : Thread → Option (UInt64 × PacketTraceEntry)

namespace TraceWriters

open DebugLog

variable {Thread : Type*} [DecidableEq Thread]

def init : TraceWriters Thread := ⟨.new, fun _ => none⟩

/-- The two accesses of `trace_packet`. -/
def step (s : TraceWriters Thread) :
    RingAction Thread PacketTraceEntry → TraceWriters Thread × List PacketTraceEntry
  | .claim t e =>
      if (s.pending t).isNone then
        (⟨{ s.log with writeSeq := s.log.writeSeq + 1 },
          Function.update s.pending t (some (s.log.writeSeq, e))⟩, [e])
      else (s, [])
  | .store t =>
      match s.pending t with
      | none => (s, [])
      | some (seq, e) =>
          (⟨{ s.log with ring := s.log.ring.set (maskedSeq seq).toNat e (maskedSeq_lt seq) },
            Function.update s.pending t none⟩, [])

def machine (Thread : Type*) [DecidableEq Thread] :
    OutputMachine (TraceWriters Thread) (RingAction Thread PacketTraceEntry) PacketTraceEntry :=
  ⟨step⟩

/-- When a call stores, at most a ring of calls has begun after it. -/
def Timely (s : TraceWriters Thread) : RingAction Thread PacketTraceEntry → Prop
  | .claim .. => True
  | .store t => ∀ seq e, s.pending t = some (seq, e) →
      s.log.writeSeq.toNat ≤ seq.toNat + traceRingSize

def toShared (s : TraceWriters Thread) : SharedRing Thread PacketTraceEntry traceRingSize :=
  ⟨s.log.toRing, Option.map (fun x => (x.1.toNat, x.2)) ∘ s.pending⟩

variable {s : TraceWriters Thread} {es : List PacketTraceEntry}

omit [DecidableEq Thread] in
theorem toShared_pending {t : Thread} {seq : UInt64} {e : PacketTraceEntry}
    (h : s.pending t = some (seq, e)) : s.toShared.pending t = some (seq.toNat, e) := by
  simp only [toShared, Function.comp_apply, h, Option.map_some]

/-- Until the number wraps, a step is one of the shared ring. -/
theorem step_toShared (htracks : s.toShared.Tracks es) (a : RingAction Thread PacketTraceEntry)
    (hfew : (es ++ (s.step a).2).length < 2 ^ 64) :
    (s.step a).1.toShared = (s.toShared.step a).1 ∧ (s.step a).2 = (s.toShared.step a).2 := by
  have hseq : s.log.writeSeq.toNat = es.length := htracks.written
  cases a with
  | claim t e =>
    cases hp : s.pending t with
    | some x =>
      have hp' := toShared_pending hp
      simp only [step, SharedRing.step, hp, hp', Option.isNone_some, Bool.false_eq_true, if_false,
        and_self]
    | none =>
      have hp' : s.toShared.pending t = none := by simp [toShared, hp]
      simp only [step, hp, Option.isNone_none, if_true, List.length_append,
        List.length_singleton] at hfew ⊢
      rw [SharedRing.step_claim hp']
      have hsucc : (s.log.writeSeq + 1).toNat = s.log.writeSeq.toNat + 1 := by
        rw [UInt64.toNat_add]
        exact Nat.mod_eq_of_lt (by simp; omega)
      simp only [toShared, toRing, hsucc, Function.comp_update, Option.map_some, and_self]
  | store t =>
    cases hp : s.pending t with
    | none =>
      have hp' : s.toShared.pending t = none := by simp [toShared, hp]
      simp only [step, SharedRing.step, hp, hp', and_self]
    | some x =>
      obtain ⟨seq, e⟩ := x
      have hclaimed := htracks.claimed t _ _ (toShared_pending hp)
      have hlt := (List.getElem?_eq_some_iff.mp hclaimed).1
      have hroom : seq.toNat + 1 < 2 ^ 64 := by
        have hbound := s.log.writeSeq.toNat_lt
        omega
      rw [SharedRing.step_store (toShared_pending hp)]
      simp only [step, hp, toShared, toRing, get_set hroom, Function.comp_update, Option.map_none,
        and_self]

omit [DecidableEq Thread] in
theorem exists_pending {t : Thread} {n : ℕ} {e : PacketTraceEntry}
    (h : s.toShared.pending t = some (n, e)) :
    ∃ seq, s.pending t = some (seq, e) ∧ seq.toNat = n := by
  obtain ⟨⟨seq, e'⟩, hp, heq⟩ := Option.map_eq_some_iff.mp h
  obtain ⟨rfl, rfl⟩ := Prod.mk.inj heq
  exact ⟨seq, hp, rfl⟩

omit [DecidableEq Thread] in
theorem Timely.toShared {a : RingAction Thread PacketTraceEntry} (h : s.Timely a) :
    s.toShared.Timely a := by
  cases a with
  | claim t e => trivial
  | store t =>
    intro n e hp
    obtain ⟨seq, hp', rfl⟩ := exists_pending hp
    exact h seq e hp'

theorem tracks_run {actions : List (RingAction Thread PacketTraceEntry)}
    (hfew : ((machine Thread).outputs init actions).length < 2 ^ 64)
    (htimely : ∀ x ∈ positions actions, ((machine Thread).state init x.1).Timely x.2) :
    ((machine Thread).state init actions).toShared.Tracks
      ((machine Thread).outputs init actions) := by
  induction actions using List.reverseRecOn with
  | nil => exact SharedRing.tracks_init _
  | append_singleton actions a ih =>
    rw [positions_concat] at htimely
    rw [OutputMachine.outputs_append] at hfew
    have hnow := htimely (actions, a) (List.mem_append_right _ List.mem_cons_self)
    have hprev := ih (by rw [List.length_append] at hfew; omega)
      (fun x hx => htimely x (List.mem_append_left _ hx))
    rw [OutputMachine.outputs_append, OutputMachine.state_append]
    simp only [OutputMachine.outputs_cons, OutputMachine.outputs_nil, List.append_nil,
      OutputMachine.state_cons, OutputMachine.state_nil] at hfew ⊢
    obtain ⟨hstate, houts⟩ := step_toShared hprev a hfew
    have hnext := hprev.step hnow.toShared
    rw [← hstate, ← houts] at hnext
    exact hnext

/-- However the calls of several threads interleave, as long as none is overtaken by a whole ring
every line of a dump is the call of its number or one that has not stored yet, and once all have
stored the dump lists the last calls in the order of their numbers. -/
theorem dumpsLast_writers {actions : List (RingAction Thread PacketTraceEntry)}
    (hfew : ((machine Thread).outputs init actions).length < 2 ^ 64)
    (htimely : ∀ x ∈ positions actions, ((machine Thread).state init x.1).Timely x.2) :
    let s := (machine Thread).state init actions
    let es := (machine Thread).outputs init actions
    (∀ l ∈ s.log.dumpLines, es[l.seq.toNat]? = some l.entry ∨
        ∃ t e, s.pending t = some (l.seq, e)) ∧
      ((∀ t, s.pending t = none) → DumpsLast s.log es) := by
  intro s es
  have htracks : s.toShared.Tracks es := tracks_run hfew htimely
  have hseq : s.log.toRing.written = es.length := htracks.written
  refine ⟨fun l hl => ?_, fun hquiet => ?_⟩
  · rw [dumpLines_eq, RingBuffer.latest, hseq, List.map_map] at hl
    obtain ⟨n, hn, rfl⟩ := List.mem_map.mp hl
    have hrange := List.mem_range'_1.mp hn
    have hlt : n < es.length := by omega
    have hnumber : (UInt64.ofNat n).toNat = n :=
      UInt64.toNat_ofNat_of_lt' (Nat.lt_trans hlt hfew)
    have hclaimed := List.getElem?_eq_getElem hlt
    dsimp only [Function.comp_apply]
    rw [hnumber]
    rcases htracks.shown n _ hclaimed (by omega) with hshown | ⟨t, ht⟩
    · rw [hclaimed, ← hshown]
      exact Or.inl rfl
    · obtain ⟨seq, hp, hseq'⟩ := exists_pending ht
      have hof : seq = UInt64.ofNat n := by rw [← hseq', UInt64.ofNat_toNat]
      rw [hof] at hp
      exact Or.inr ⟨t, es[n], hp⟩
  · refine dumpsLast_of_holds (htracks.holds (fun t => ?_))
    simp [toShared, hquiet t]

theorem writeSeq_step (s : TraceWriters Thread) (a : RingAction Thread PacketTraceEntry) :
    (s.step a).1.log.writeSeq.toNat ≤ s.log.writeSeq.toNat + (s.step a).2.length := by
  cases a with
  | claim t e =>
    cases hp : s.pending t with
    | none =>
      simp only [step, hp, Option.isNone_none, if_true, List.length_singleton]
      rw [UInt64.toNat_add]
      exact Nat.mod_le _ _
    | some x =>
      simp only [step, hp, Option.isNone_some, Bool.false_eq_true, if_false]
      exact Nat.le_add_right _ _
  | store t =>
    cases hp : s.pending t <;> simp only [step, hp] <;> exact Nat.le_add_right _ _

theorem writeSeq_le (actions : List (RingAction Thread PacketTraceEntry)) :
    ((machine Thread).state init actions).log.writeSeq.toNat ≤
      ((machine Thread).outputs init actions).length := by
  refine (machine Thread).invariant (I := fun _ os s => s.log.writeSeq.toNat ≤ os.length)
    (Nat.zero_le _) (fun _ os s a h => ?_) actions
  have hstep := writeSeq_step s a
  simp only [machine, List.length_append]
  omega

/-- The first calls, as many as the ring has slots, are not overtaken. -/
theorem timely_of_few {actions : List (RingAction Thread PacketTraceEntry)}
    (hfew : ((machine Thread).outputs init actions).length ≤ traceRingSize) :
    ∀ x ∈ positions actions, ((machine Thread).state init x.1).Timely x.2 := by
  rintro ⟨past, a⟩ hx
  obtain ⟨future, rfl⟩ := mem_positions_iff.mp hx
  rw [OutputMachine.outputs_append, List.length_append] at hfew
  have hseq := writeSeq_le past
  cases a with
  | claim t e => trivial
  | store t => exact fun seq e _ => by dsimp only; omega

def crossed : List (RingAction Bool PacketTraceEntry) :=
  [.claim false { frameId := 1 }, .claim true { frameId := 2 }, .store true, .store false]

theorem dumpsLast_writers_crossed :
    DumpsLast ((machine Bool).state init crossed).log [{ frameId := 1 }, { frameId := 2 }] := by
  have hquiet : ∀ t, ((machine Bool).state init crossed).pending t = none := by decide
  exact (dumpsLast_writers (by decide) (timely_of_few (by decide))).2 hquiet

theorem state_writes {t : Thread} (hidle : s.pending t = none) (es : List PacketTraceEntry) :
    (machine Thread).state s (RingAction.writes t es) =
      { s with log := s.log.tracePackets es } := by
  induction es generalizing s with
  | nil => rfl
  | cons e es ih =>
    have hcall : ((s.step (.claim t e)).1.step (.store t)).1 =
        { s with log := s.log.tracePacket e } := by
      simp only [step, hidle, Option.isNone_none, if_true, Function.update_self,
        Function.update_idem]
      rw [← hidle, Function.update_eq_self]
      rfl
    change (machine Thread).state ((s.step (.claim t e)).1.step (.store t)).1
      (RingAction.writes t es) = _
    have hidle' : ({ s with log := s.log.tracePacket e } : TraceWriters Thread).pending t = none :=
      hidle
    rw [hcall, ih hidle']
    rfl

theorem writeSeq_tracePackets (log : DebugLog) (es : List PacketTraceEntry) :
    (log.tracePackets es).writeSeq = log.writeSeq + UInt64.ofNat es.length := by
  induction es using List.reverseRecOn with
  | nil => simp [tracePackets]
  | append_singleton es e ih =>
    have hnext : (log.tracePackets (es ++ [e])).writeSeq = (log.tracePackets es).writeSeq + 1 := by
      rw [tracePackets_concat]
      rfl
    rw [hnext, ih, List.length_append, UInt64.ofNat_add, ← UInt64.add_assoc]
    rfl

/-- A call that is overtaken by a whole ring leaves its old entry in place of the newest one. -/
theorem overtaken_dump {t u : Thread} (htu : u ≠ t) (e : PacketTraceEntry)
    {es : List PacketTraceEntry} (hlength : es.length = traceRingSize) :
    let s := (machine Thread).state init
      (.claim t e :: (RingAction.writes u es ++ [.store t]))
    (∀ v, s.pending v = none) ∧ s.log.dumpLines.getLast? = some ⟨4096, e⟩ := by
  intro s
  set started : TraceWriters Thread :=
    ⟨{ DebugLog.new with writeSeq := 1 }, Function.update (fun _ => none) t (some (0, e))⟩
    with hstarted
  have hidle : started.pending u = none := by simp [hstarted, Function.update_of_ne htu]
  have hpending : started.pending t = some (0, e) := by simp [hstarted]
  set filled := started.log.tracePackets es with hfilled
  have hs : s = ⟨{ filled with ring := filled.ring.set (maskedSeq 0).toNat e (maskedSeq_lt 0) },
      Function.update started.pending t none⟩ := by
    change (machine Thread).state started (RingAction.writes u es ++ [.store t]) = _
    rw [OutputMachine.state_append, state_writes hidle es]
    simp only [OutputMachine.state_cons, OutputMachine.state_nil, machine, step, hpending]
    rfl
  have hseq : s.log.writeSeq = 4097 := by
    rw [hs, hfilled, writeSeq_tracePackets, hlength]
    rfl
  refine ⟨fun v => ?_, ?_⟩
  · rw [hs]
    rcases eq_or_ne v t with rfl | hv
    · exact Function.update_self _ _ _
    · simp [hstarted, Function.update_of_ne hv]
  · have hget : s.log.ring.get (Fin.ofNat traceRingSize 4096) = e := by
      rw [hs, get_set (by decide)]
      exact Function.update_self _ _ _
    have hlast : s.log.toRing.latest.getLast? = some (4096, e) := by
      have hwritten : s.log.toRing.written = 4097 := congrArg UInt64.toNat hseq
      rw [RingBuffer.latest, List.getLast?_map, List.getLast?_range', hwritten]
      exact congrArg (fun a => some (4096, a)) hget
    rw [dumpLines_eq, List.getLast?_map, hlast]
    rfl

end TraceWriters

end HvFrame
