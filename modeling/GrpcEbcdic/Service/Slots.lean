import GrpcEbcdic.Service.Task

/-!
# The slots

A call has its slot from its admission until its parse is decided. Over any interleaving of calls no slot
is lost and none is taken twice, a call is rejected only while every slot is taken, and a call whose client
neither sends nor reads gives its slot back when the timer of its next await runs out.
-/

namespace GrpcEbcdic
open Rust Interleaved

variable [F64]

/-- The slots a call has. -/
def ParseCall.slots (call : ParseCall) : Nat := call.phase.holds.toNat

/-- A call that arrives takes one slot or none. -/
lemma arrive_slots (service : EbcdicGrpc) (shared : Shared) :
    (ParseCall.arrive service shared).2.permits + (ParseCall.arrive service shared).1.slots
      = shared.permits := by
  unfold ParseCall.arrive
  dsimp only
  split_ifs with none
  · exact Nat.add_zero _
  · exact Nat.sub_add_cancel (Nat.pos_of_ne_zero none)

/-- A call that arrives is rejected if and only if there is no slot. -/
lemma arrive_rejected (service : EbcdicGrpc) (shared : Shared) :
    (∃ status, (ParseCall.arrive service shared).1.phase = .rejected status) ↔ shared.permits = 0 := by
  unfold ParseCall.arrive
  dsimp only
  split_ifs with none
  · exact ⟨fun _ => none, fun _ => ⟨_, rfl⟩⟩
  · exact ⟨fun rejected => (nomatch rejected), fun zero => absurd zero none⟩

variable [Unicode] [SerdeJson]

/-- An act of a call moves its slot at most. -/
lemma act_slots (service : EbcdicGrpc) (happening : Happening) (call : ParseCall) (shared : Shared) :
    (service.server.act happening call shared).2.permits
        + (service.server.act happening call shared).1.slots
      = shared.permits + call.slots := by
  have moves := act_moves service happening call shared
  generalize service.server.act happening call shared = after at moves
  unfold ParseCall.slots
  cases moves with
  | stay => rfl
  | refuse phase _ => rw [phase]; rfl
  | start phase _ => rw [phase]; rfl
  | hear item phase => rw [phase]; rfl
  | sent outcome phase => rw [phase]; rfl
  | told outcome phase => rw [phase]; rfl
  | release phase => rw [phase]; rfl
  | complete phase => rw [phase]; rfl
  | fail phase => rw [phase]; rfl
  | charge phase =>
    rw [phase]
    dsimp only
    split_ifs <;> rfl
  | cancel phase => rw [phase]; rfl

/-- The slots that are free and those that calls have are all the slots there are. -/
lemma serve_slots (service : EbcdicGrpc) (events : List (Event Happening)) :
    (service.serve events).shared.permits
        + (service.serve events).components.countP (·.phase.holds)
      = service.maxConcurrentParses := by
  rw [← sum_toNat]
  exact System.after_conserved Shared.permits ParseCall.slots (arrive_slots service)
    (act_slots service) _ events

/-- What holds of the slots of a server. -/
structure SlotsKept (service : EbcdicGrpc) (server : State Shared ParseCall) : Prop where
  /-- Every slot is free or has one call. -/
  conserved : server.shared.permits + server.components.countP (·.phase.holds)
    = service.maxConcurrentParses
  /-- The next call is rejected if and only if every slot is taken. -/
  rejects : (∃ status, (ParseCall.arrive service server.shared).1.phase = .rejected status) ↔
    server.components.countP (·.phase.holds) = service.maxConcurrentParses

/-- What the timer of an await makes of it, or what a task does without one. -/
inductive Happening.IsTimer : Happening → Prop where
  | hear :
    IsTimer (.hear (some .idle))
  | sent :
    IsTimer (.sent .stalled)
  | tick :
    IsTimer .tick

/-- A call gives its slot back without its client. -/
structure GivesBack (service : EbcdicGrpc) (events : List (Event Happening)) (i : Nat)
    (happenings : List Happening) : Prop where
  timers : ∀ happening ∈ happenings, happening.IsTimer
  free : (service.serve (events ++ happenings.map (.act i))).shared.permits
    = (service.serve events).shared.permits + 1
  given : ∃ call, (service.serve (events ++ happenings.map (.act i))).components[i]? = some call ∧
    call.phase.holds = false
  others : ∀ j, j ≠ i → (service.serve (events ++ happenings.map (.act i))).components[j]?
    = (service.serve events).components[j]?

/-- The slots are kept over any interleaving of calls. -/
theorem slots_kept (service : EbcdicGrpc) (events : List (Event Happening)) :
    SlotsKept service (service.serve events) := by
  have conserved := serve_slots service events
  refine ⟨conserved, ?_⟩
  rw [arrive_rejected]
  constructor
  · intro none
    rw [none, Nat.zero_add] at conserved
    exact conserved
  · intro all
    rw [all] at conserved
    exact Nat.add_eq_right.mp conserved

/-- The timers that end a call's hold of its slot. -/
def timersOf (phase : Phase) : List Happening :=
  match phase with
  | .opening => [.hear (some .idle)]
  | .parsing _ (.sending _ _ _) => [.sent .stalled, .tick]
  | .parsing _ (.receiving _ _) => [.hear (some .idle), .tick]
  | _ => [.tick]

lemma timersOf_frees (service : EbcdicGrpc) {call : ParseCall} (holds : call.phase.holds = true)
    (shared : Shared) :
    (service.server.alone call shared (timersOf call.phase)).2.permits = shared.permits + 1 ∧
      (service.server.alone call shared (timersOf call.phase)).1.phase.holds = false := by
  obtain ⟨past, phase, found⟩ := call
  cases phase with
  | opening => exact ⟨rfl, rfl⟩
  | parsing limits task => cases task <;> exact ⟨rfl, rfl⟩
  | _ => cases holds

omit [Unicode] [SerdeJson] in
lemma timersOf_length (phase : Phase) : (timersOf phase).length ≤ 2 := by
  unfold timersOf
  split <;> decide

/-- A call that has a slot gives it back when its client neither sends nor reads any more: after the timer
of its await, and without any other call. -/
lemma stalled_gives_back (service : EbcdicGrpc) (events : List (Event Happening)) (i : Nat)
    (call : ParseCall) (at_i : (service.serve events).components[i]? = some call)
    (holds : call.phase.holds = true) : GivesBack service events i (timersOf call.phase) := by
  obtain ⟨free, given⟩ := timersOf_frees service holds (service.serve events).shared
  have alone := service.server.after_alone at_i (timersOf call.phase)
  have within := (List.getElem?_eq_some_iff.mp at_i).1
  refine ⟨?_, ?_, ?_, ?_⟩
  · unfold timersOf
    split
    · exact List.forall_mem_singleton.mpr .hear
    · exact List.forall_mem_cons.mpr ⟨.sent, List.forall_mem_singleton.mpr .tick⟩
    · exact List.forall_mem_cons.mpr ⟨.hear, List.forall_mem_singleton.mpr .tick⟩
    · exact List.forall_mem_singleton.mpr .tick
  · exact (congrArg (·.shared.permits) alone).trans free
  · refine ⟨_, ?_, given⟩
    rw [EbcdicGrpc.serve, alone]
    exact List.getElem?_set_self within
  · intro j other
    rw [EbcdicGrpc.serve, alone]
    exact List.getElem?_set_ne other.symm

/-- A frame without a payload. -/
def emptyFrame : Happening := .hear (some (.message ⟨none⟩))

/-- A call that reads waits on behind any number of frames without a payload, its timer set anew by each. -/
lemma empty_frames_hold (service : EbcdicGrpc) (events : List (Event Happening)) (i : Nat)
    (call : ParseCall) (at_i : (service.serve events).components[i]? = some call) {limits : Limits}
    {fold : Option DocumentFold} {walk : RecordStream}
    (reads : call.phase = .parsing limits (.receiving fold walk)) (n : Nat) :
    ∃ call', (service.serve (events ++ (List.replicate n emptyFrame).map (.act i))).components[i]?
      = some call' ∧ call'.phase = call.phase := by
  have stays (n : Nat) (call : ParseCall) (shared : Shared)
      (reads : call.phase = .parsing limits (.receiving fold walk)) :
      (service.server.alone call shared (List.replicate n emptyFrame)).1.phase
        = .parsing limits (.receiving fold walk) := by
    induction n generalizing call shared with
    | zero => exact reads
    | succ n ih =>
      rw [List.replicate_succ]
      refine ih _ _ ?_
      obtain ⟨past, phase, found⟩ := call
      cases reads
      rfl
  have alone := service.server.after_alone at_i (List.replicate n emptyFrame)
  refine ⟨_, ?_, (stays n call (service.serve events).shared reads).trans reads.symm⟩
  rw [EbcdicGrpc.serve, alone]
  exact List.getElem?_set_self (List.getElem?_eq_some_iff.mp at_i).1

end GrpcEbcdic
