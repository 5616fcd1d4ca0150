import HvFrame.OutputMachines

/-!
# A machine behind a network that promises nothing

A sender puts a fixed stream of messages onto a network. What has been sent may be delivered at
any later time, any number of times, in any order, or never. So a run of the machine behind the
network is a run of its own on inputs whose messages have all been sent.
-/

namespace HvFrame

structure MessagePort (Input Message : Type*) where
  receive : Message → Input
  carried : Input → Option Message
  carried_receive : ∀ d, carried (receive d) = some d

structure LossyNetwork (Message State : Type*) where
  unsent : List Message
  sent : List Message
  consumer : State

/-- `deliver i` delivers what was sent as number `i`, if there is such a message. -/
inductive NetworkMove (Input : Type*) where
  | send
  | deliver (i : ℕ)
  | own (a : Input)

namespace LossyNetwork

variable {Message State Input Output : Type*}

def transmit (s : LossyNetwork Message State) : LossyNetwork Message State :=
  match s.unsent with
  | [] => s
  | d :: rest => { s with unsent := rest, sent := s.sent ++ [d] }

variable (P : MessagePort Input Message) (M : OutputMachine State Input Output)

/-- What a move makes the machine do. No message comes from elsewhere than the network. -/
def inputs (s : LossyNetwork Message State) : NetworkMove Input → List Input
  | .send => []
  | .deliver i => s.sent[i]?.toList.map P.receive
  | .own a => if (P.carried a).isNone then [a] else []

def step (s : LossyNetwork Message State) (move : NetworkMove Input) :
    LossyNetwork Message State × List Output :=
  ({ (match move with | .send => s.transmit | _ => s) with
      consumer := M.state s.consumer (inputs P s move) },
    M.outputs s.consumer (inputs P s move))

def machine : OutputMachine (LossyNetwork Message State) (NetworkMove Input) Output := ⟨step P M⟩

/-- The sender has put `stream` onto the network as far as `sent`. -/
def Sends (stream : List Message) (s : LossyNetwork Message State) : Prop :=
  s.sent ++ s.unsent = stream

theorem Sends.transmit {stream : List Message} {s : LossyNetwork Message State}
    (h : s.Sends stream) : s.transmit.Sends stream := by
  rw [LossyNetwork.transmit]
  split
  · exact h
  · next d rest hrest =>
    rw [Sends, hrest] at h
    simpa [Sends] using h

theorem sends_run {stream : List Message} {s : LossyNetwork Message State}
    (h : s.Sends stream) (moves : List (NetworkMove Input)) :
    ((machine P M).state s moves).Sends stream := by
  refine (machine P M).state_invariant (I := Sends stream) h (fun t move ht => ?_) moves
  cases move with
  | send => exact ht.transmit
  | deliver i => exact ht
  | own a => exact ht

theorem consumer_run (s : LossyNetwork Message State) (moves : List (NetworkMove Input)) :
    ((machine P M).state s moves).consumer =
        M.state s.consumer ((machine P M).callsTo (inputs P) s moves) ∧
      (machine P M).outputs s moves =
        M.outputs s.consumer ((machine P M).callsTo (inputs P) s moves) := by
  have hrun := (machine P M).component_run (inputs P) M consumer some
    (fun s move => ⟨by cases move <;> rfl, List.filterMap_some⟩) s moves
  rwa [List.filterMap_some] at hrun

theorem sent_subset_step (s : LossyNetwork Message State) (move : NetworkMove Input) :
    s.sent ⊆ ((machine P M).step s move).1.sent := by
  cases move with
  | send =>
    change s.sent ⊆ s.transmit.sent
    rw [LossyNetwork.transmit]
    split
    · exact List.Subset.refl _
    · exact List.subset_append_left _ _
  | deliver i => exact List.Subset.refl _
  | own a => exact List.Subset.refl _

theorem sent_of_inputs {s : LossyNetwork Message State} {move : NetworkMove Input} {d : Message}
    (h : d ∈ (inputs P s move).filterMap P.carried) : d ∈ s.sent := by
  obtain ⟨a, ha, hcarried⟩ := List.mem_filterMap.mp h
  cases move with
  | send => cases ha
  | deliver i =>
    obtain ⟨d', hd', rfl⟩ := List.mem_map.mp ha
    rw [P.carried_receive] at hcarried
    obtain rfl := Option.some.inj hcarried
    exact List.mem_of_getElem? (Option.mem_toList.mp hd')
  | own a' =>
    simp only [inputs] at ha
    split_ifs at ha with hnone
    · rw [List.mem_singleton.mp ha, Option.isNone_iff_eq_none.mp hnone] at hcarried
      cases hcarried
    · cases ha

/-- Every message that the machine gets has been sent. -/
theorem sent_of_carried {s : LossyNetwork Message State} {moves : List (NetworkMove Input)}
    {d : Message}
    (h : d ∈ ((machine P M).callsTo (inputs P) s moves).filterMap P.carried) :
    d ∈ ((machine P M).state s moves).sent := by
  refine (machine P M).callsTo_invariant (inputs P)
    (I := fun as _ t => ∀ d ∈ as.filterMap P.carried, d ∈ t.sent) (by simp) ?_ moves d h
  intro as outs t move ht d hd
  rw [List.filterMap_append, List.mem_append] at hd
  rcases hd with hd | hd
  · exact sent_subset_step P M t move (ht d hd)
  · exact sent_subset_step P M t move (sent_of_inputs P hd)

end LossyNetwork

end HvFrame
