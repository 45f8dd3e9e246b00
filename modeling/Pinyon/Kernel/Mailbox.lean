import Pinyon.Library.History
import Pinyon.Pine.Alignment
import Pinyon.Pine.Target
import Pinyon.Kernel.Display

namespace Pinyon
namespace Kernel
namespace Mailbox

open Library Pine

/-!
# The mailbox between the processor and the GPU

`send_in_property_channel` puts the address of a message into one queue and waits for
the same word in the other one, while the GPU, which runs beside it, rewrites the
message.  Nothing but the two status bits and the order in which the GPU does its work
keeps them in step.
-/

def mailboxFull : BitVec 32 := 0x80000000
def mailboxEmpty : BitVec 32 := 0x40000000
def mailboxRequest : BitVec 32 := 0
def mailboxResponse : BitVec 32 := 0x80000000
def mailboxError : BitVec 32 := 0x80000001

/-- Where `send_in_property_channel` is. -/
inductive Place where
  | waitWhileFull
  | write
  | waitWhileEmpty
  | read
  | checkResponse
  | checkError
  | returned (accepted : Bool)
deriving DecidableEq

/-- The call, the two queues, what the GPU works on, and the words of the message. -/
structure State where
  place : Place
  toGpu : List (BitVec 32)
  fromGpu : List (BitVec 32)
  serving : Option (BitVec 32)
  contents : Nat -> BitVec 32

/-- `status()` where the queue to the GPU has a capacity. -/
def State.status (capacity : Nat) (state : State) : BitVec 32 :=
  (if state.toGpu.length < capacity then 0 else mailboxFull) |||
    (if state.fromGpu = [] then mailboxEmpty else 0)

/-- What is sent: the address in the upper bits, and `PropertyTagsSend` in the lower four. -/
def messageOf (address : Nat) : Nat :=
  address ||| 8

/-- What arrives in `raw_write`, which has 32 bits whatever a pointer has. -/
def posted (address : Nat) : BitVec 32 :=
  BitVec.ofNat 32 (messageOf address)

inductive Event where
  | poll
  | post (word : BitVec 32)
  | read (word : BitVec 32)
  | check
  | take
  | store
  | answer (word : BitVec 32)
deriving DecidableEq

/-- Whether it is a step of the processor. -/
def Event.ofProcessor : Event -> Bool
  | poll => true
  | post _ => true
  | read _ => true
  | check => true
  | take => false
  | store => false
  | answer _ => false

def Event.posts : Event -> Option (BitVec 32)
  | post word => some word
  | _ => none

def Event.reads : Event -> Option (BitVec 32)
  | read word => some word
  | _ => none

def Event.answers : Event -> Option (BitVec 32)
  | answer word => some word
  | _ => none

/-- One access of `send_in_property_channel`.  A word that does not fit in the queue is
lost, and reading an empty queue gives any word. -/
def State.step (capacity address : Nat) (whenEmpty : BitVec 32) (state : State) :
    Option (Event × State) :=
  match state.place with
  | .waitWhileFull =>
      if state.status capacity &&& mailboxFull = 0 then
        some (.poll, { state with place := .write })
      else some (.poll, state)
  | .write =>
      let toGpu :=
        if state.toGpu.length < capacity then state.toGpu ++ [posted address] else state.toGpu
      some (.post (posted address), { state with place := .waitWhileEmpty, toGpu := toGpu })
  | .waitWhileEmpty =>
      if state.status capacity &&& mailboxEmpty = 0 then
        some (.poll, { state with place := .read })
      else some (.poll, state)
  | .read =>
      let word := state.fromGpu.headD whenEmpty
      let place := if word.toNat = messageOf address then .checkResponse else .waitWhileEmpty
      some (.read word, { state with place := place, fromGpu := state.fromGpu.tail })
  | .checkResponse =>
      let place := if state.contents 1 = mailboxResponse then .returned true else .checkError
      some (.check, { state with place := place })
  | .checkError =>
      let place := if state.contents 1 = mailboxError then .returned false else .read
      some (.check, { state with place := place })
  | .returned _ => none

/-- What is in the mailbox before a call. -/
structure Queues where
  toGpu : List (BitVec 32)
  fromGpu : List (BitVec 32)
  serving : Option (BitVec 32)

/-- The call, with the message at its address.  It panics when the message is not aligned. -/
def sendInPropertyChannel (target : Target) (address : Nat) (queues : Queues)
    (contents : Nat -> BitVec 32) : Option State :=
  if isAlignedTwo target.wordWidth address 16 then
    some
      { place := .waitWhileFull, toGpu := queues.toGpu, fromGpu := queues.fromGpu
        serving := queues.serving, contents := contents }
  else none

/-- The GPU takes one message after the other.  It answers a message of the property
channel with the same word when it has put its code in place, and touches only a message
that it works on.  Other words it sends at any time. -/
inductive GpuStep (address : Nat) : State -> Event -> State -> Prop
  | take {state : State} {word : BitVec 32} {rest : List (BitVec 32)} :
      state.serving = none -> state.toGpu = word :: rest ->
        GpuStep address state .take { state with toGpu := rest, serving := some word }
  | store {state : State} {index : Nat} {value : BitVec 32} :
      state.serving = some (posted address) ->
        GpuStep address state .store
          { state with contents := Function.update state.contents index value }
  | answer {state : State} {word : BitVec 32} :
      state.serving = some word ->
      (word = posted address ->
        state.contents 1 = mailboxResponse ∨ state.contents 1 = mailboxError) ->
        GpuStep address state (.answer word)
          { state with fromGpu := state.fromGpu ++ [word], serving := none }
  | other {state : State} {word : BitVec 32} :
      word ≠ posted address ->
        GpuStep address state (.answer word) { state with fromGpu := state.fromGpu ++ [word] }

/-- The processor and the GPU take steps in any order. -/
inductive Step (capacity address : Nat) : State -> Event -> State -> Prop
  | processor {before after : State} {event : Event} (whenEmpty : BitVec 32) :
      before.step capacity address whenEmpty = some (event, after) ->
        Step capacity address before event after
  | gpu {before after : State} {event : Event} :
      GpuStep address before event after -> Step capacity address before event after

variable {target : Target} {capacity address : Nat} {before state after : State} {event : Event}
variable {whenEmpty : BitVec 32}

/-! ## The status bits and the message -/

theorem status_full :
    state.status capacity &&& mailboxFull = 0 <-> state.toGpu.length < capacity := by
  rw [State.status]
  split <;> split <;> simp_all [mailboxFull, mailboxEmpty]

theorem status_empty :
    state.status capacity &&& mailboxEmpty = 0 <-> state.fromGpu ≠ [] := by
  rw [State.status]
  split <;> split <;> simp_all [mailboxFull, mailboxEmpty]

/-- A message below 4 GiB is posted as it is. -/
theorem posted_toNat (low : address < 2 ^ 32) : (posted address).toNat = messageOf address := by
  rw [posted, BitVec.toNat_ofNat]
  exact Nat.mod_eq_of_lt (Nat.or_lt_two_pow low (by decide))

theorem toNat_eq_message_iff (low : address < 2 ^ 32) (word : BitVec 32) :
    word.toNat = messageOf address <-> word = posted address := by
  rw [← posted_toNat low]
  exact BitVec.toNat_inj

/-! ## The invariant -/

/-- How often the message is in the mailbox, on the way there or back. -/
def State.pending (address : Nat) (state : State) : Nat :=
  state.toGpu.count (posted address) +
    (if state.serving = some (posted address) then 1 else 0) +
    state.fromGpu.count (posted address)

/-- How often it should be. -/
def Place.expected : Place -> Nat
  | waitWhileFull => 0
  | write => 0
  | waitWhileEmpty => 1
  | read => 1
  | checkResponse => 0
  | checkError => 0
  | returned _ => 0

/-- Whether the answer was read. -/
def Place.settled : Place -> Bool
  | waitWhileFull => false
  | write => false
  | waitWhileEmpty => false
  | read => false
  | checkResponse => true
  | checkError => true
  | returned _ => true

/-- The GPU has put its code in place. -/
def State.coded (state : State) : Prop :=
  state.contents 1 = mailboxResponse ∨ state.contents 1 = mailboxError

structure Sound (capacity address : Nat) (state : State) : Prop where
  pending : state.pending address = state.place.expected
  room : state.place = .write -> state.toGpu.length < capacity
  nonempty : state.place = .read -> state.fromGpu ≠ []
  answered : posted address ∈ state.fromGpu -> state.coded
  settled : state.place.settled = true -> state.coded
  refused : state.place = .checkError -> state.contents 1 ≠ mailboxResponse
  returned : forall accepted, state.place = .returned accepted ->
    state.contents 1 = if accepted then mailboxResponse else mailboxError

/-- Nothing of an earlier message at the same address is in the mailbox. -/
structure Queues.Fresh (address : Nat) (queues : Queues) : Prop where
  toGpu : posted address ∉ queues.toGpu
  fromGpu : posted address ∉ queues.fromGpu
  serving : queues.serving ≠ some (posted address)

theorem sound_start {queues : Queues} {contents : Nat -> BitVec 32}
    (fresh : queues.Fresh address)
    (called : sendInPropertyChannel target address queues contents = some state) :
    Sound capacity address state := by
  rw [sendInPropertyChannel] at called
  split at called
  next =>
      cases called
      exact
        { pending := by
            rw [State.pending, List.count_eq_zero_of_not_mem fresh.toGpu,
              List.count_eq_zero_of_not_mem fresh.fromGpu, if_neg fresh.serving]
            rfl
          room := nofun
          nonempty := nofun
          answered := fun member => absurd member fresh.fromGpu
          settled := nofun
          refused := nofun
          returned := nofun }
  next => cases called

/-- Every access of the processor keeps the invariant. -/
theorem Sound.processor (low : address < 2 ^ 32) (sound : Sound capacity address before)
    (stepped : before.step capacity address whenEmpty = some (event, after)) :
    Sound capacity address after := by
  rcases before with ⟨place, toGpu, fromGpu, serving, contents⟩
  rcases sound with ⟨pending, room, nonempty, answered, settled, refused, returned⟩
  cases place with
  | waitWhileFull =>
      simp only [State.step] at stepped
      split at stepped
      next notFull =>
          cases stepped
          exact ⟨pending, fun _ => status_full.mp notFull, nofun, answered, nofun, nofun, nofun⟩
      next =>
          cases stepped
          exact ⟨pending, nofun, nofun, answered, nofun, nofun, nofun⟩
  | write =>
      simp only [State.step, if_pos (room rfl)] at stepped
      cases stepped
      refine ⟨?_, nofun, nofun, answered, nofun, nofun, nofun⟩
      simp only [State.pending, Place.expected, List.count_append, List.count_singleton_self]
        at pending ⊢
      omega
  | waitWhileEmpty =>
      simp only [State.step] at stepped
      split at stepped
      next notEmpty =>
          cases stepped
          exact ⟨pending, nofun, fun _ => status_empty.mp notEmpty, answered, nofun, nofun, nofun⟩
      next =>
          cases stepped
          exact ⟨pending, nofun, nofun, answered, nofun, nofun, nofun⟩
  | read =>
      cases fromGpu with
      | nil => exact absurd rfl (nonempty rfl)
      | cons word rest =>
          simp only [State.step, List.headD_cons, List.tail_cons, toNat_eq_message_iff low word]
            at stepped
          simp only [State.pending, Place.expected, List.count_cons] at pending
          by_cases own : word = posted address
          · rw [if_pos own] at stepped
            cases stepped
            have code := answered (own ▸ List.mem_cons_self)
            refine ⟨?_, nofun, nofun, fun _ => code, fun _ => code, nofun, nofun⟩
            rw [own, beq_self_eq_true, if_pos rfl] at pending
            simp only [State.pending, Place.expected]
            omega
          · rw [if_neg own] at stepped
            cases stepped
            refine ⟨?_, nofun, nofun, fun member => answered (List.mem_cons_of_mem _ member), nofun,
              nofun, nofun⟩
            rw [beq_eq_false_iff_ne.mpr own, if_neg Bool.false_ne_true] at pending
            exact pending
  | checkResponse =>
      simp only [State.step] at stepped
      cases stepped
      by_cases accepted : contents 1 = mailboxResponse
      · rw [if_pos accepted]
        refine ⟨pending, nofun, nofun, answered, fun _ => settled rfl, nofun, fun value same => ?_⟩
        cases same
        exact accepted
      · rw [if_neg accepted]
        exact ⟨pending, nofun, nofun, answered, fun _ => settled rfl, fun _ => accepted, nofun⟩
  | checkError =>
      have isError : contents 1 = mailboxError := (settled rfl).resolve_left (refused rfl)
      simp only [State.step, if_pos isError] at stepped
      cases stepped
      refine ⟨pending, nofun, nofun, answered, fun _ => settled rfl, nofun, fun value same => ?_⟩
      cases same
      exact isError
  | returned accepted => cases stepped

/-- The message is in the mailbox only while the processor waits for it. -/
theorem Sound.waiting (sound : Sound capacity address state) (inside : 0 < state.pending address) :
    state.place = .waitWhileEmpty ∨ state.place = .read := by
  have expected := sound.pending ▸ inside
  cases isPlace : state.place with
  | waitWhileEmpty => exact .inl rfl
  | read => exact .inr rfl
  | waitWhileFull => exact absurd expected (by simp [isPlace, Place.expected])
  | write => exact absurd expected (by simp [isPlace, Place.expected])
  | checkResponse => exact absurd expected (by simp [isPlace, Place.expected])
  | checkError => exact absurd expected (by simp [isPlace, Place.expected])
  | returned accepted => exact absurd expected (by simp [isPlace, Place.expected])

/-- What the GPU does in between keeps it too. -/
theorem Sound.gpu (sound : Sound capacity address before) (stepped : GpuStep address before event after) :
    Sound capacity address after := by
  cases stepped with
  | @take word rest idle toGpu =>
      refine { sound with pending := ?_, room := fun writes => ?_ }
      · have same : (State.mk before.place rest before.fromGpu (some word) before.contents).pending address
            = before.pending address := by
          simp only [State.pending, toGpu, idle, List.count_cons, Option.some.injEq, beq_iff_eq]
          simp
        exact same.trans sound.pending
      · have room := sound.room writes
        rw [toGpu, List.length_cons] at room
        exact Nat.lt_of_succ_lt room
  | @store index value serves =>
      have inside : 0 < before.pending address := by
        rw [State.pending, if_pos serves]
        omega
      have waits := sound.waiting inside
      have notBack : posted address ∉ before.fromGpu := fun member => by
        have once : before.pending address = 1 := by
          rcases waits with isPlace | isPlace <;> rw [sound.pending, isPlace] <;> rfl
        have back := List.count_pos_iff.mpr member
        rw [State.pending, if_pos serves] at once
        omega
      refine
        { sound with
          answered := fun member => absurd member notBack
          settled := fun settled => ?_, refused := fun isPlace => ?_
          returned := fun accepted isPlace => ?_ }
      · rcases waits with waiting | waiting <;> cases settled.symm.trans (congrArg Place.settled waiting)
      · rcases waits with waiting | waiting <;> cases isPlace.symm.trans waiting
      · rcases waits with waiting | waiting <;> cases isPlace.symm.trans waiting
  | @answer word serves code =>
      refine
        { sound with
          pending := ?_, nonempty := fun _ => by simp, answered := fun member => ?_ }
      · have same : (State.mk before.place before.toGpu (before.fromGpu ++ [word]) none
            before.contents).pending address = before.pending address := by
          simp only [State.pending, serves, List.count_append, List.count_singleton, beq_iff_eq,
            Option.some.injEq]
          simp
          omega
        exact same.trans sound.pending
      · rcases List.mem_append.mp member with earlier | last
        · exact sound.answered earlier
        · exact code (List.mem_singleton.mp last).symm
  | @other word different =>
      refine
        { sound with
          pending := ?_, nonempty := fun _ => by simp, answered := fun member => ?_ }
      · have same : (State.mk before.place before.toGpu (before.fromGpu ++ [word]) before.serving
            before.contents).pending address = before.pending address := by
          simp only [State.pending, List.count_append, List.count_singleton,
            beq_eq_false_iff_ne.mpr different]
          simp
        exact same.trans sound.pending
      · rcases List.mem_append.mp member with earlier | last
        · exact sound.answered earlier
        · exact absurd (List.mem_singleton.mp last).symm different

theorem Sound.step (low : address < 2 ^ 32) (sound : Sound capacity address before)
    (stepped : Step capacity address before event after) : Sound capacity address after := by
  cases stepped with
  | processor _ access => exact sound.processor low access
  | gpu act => exact sound.gpu act

/-! ## What a run has sent and read -/

/-- Whether the message was posted. -/
def Place.sent : Place -> Bool
  | waitWhileFull => false
  | write => false
  | waitWhileEmpty => true
  | read => true
  | checkResponse => true
  | checkError => true
  | returned _ => true

/-- The history of a call, where the words that were read and not wanted are `dropped`. -/
structure Recorded (queues : Queues) (address : Nat) (events : List Event) (dropped : List (BitVec 32))
    (state : State) : Prop where
  posts : events.filterMap Event.posts = if state.place.sent then [posted address] else []
  reads : (events.filterMap Event.reads).reverse =
    dropped ++ if state.place.settled then [posted address] else []
  inOrder : queues.fromGpu ++ (events.filterMap Event.answers).reverse =
    (events.filterMap Event.reads).reverse ++ state.fromGpu
  foreign : posted address ∉ dropped

variable {queues : Queues} {events : List Event} {dropped : List (BitVec 32)}

/-- A step that neither posts nor reads nor answers. -/
theorem Recorded.silent (recorded : Recorded queues address events dropped before)
    (posts : event.posts = none) (reads : event.reads = none) (answers : event.answers = none)
    (sent : after.place.sent = before.place.sent)
    (settled : after.place.settled = before.place.settled) (fromGpu : after.fromGpu = before.fromGpu) :
    Recorded queues address (event :: events) dropped after where
  posts := by rw [List.filterMap_cons_none posts, sent, recorded.posts]
  reads := by rw [List.filterMap_cons_none reads, settled, recorded.reads]
  inOrder := by
    rw [List.filterMap_cons_none answers, List.filterMap_cons_none reads, fromGpu, recorded.inOrder]
  foreign := recorded.foreign

theorem Recorded.processor (low : address < 2 ^ 32) (sound : Sound capacity address before)
    (recorded : Recorded queues address events dropped before)
    (stepped : before.step capacity address whenEmpty = some (event, after)) :
    Exists fun droppedAfter => Recorded queues address (event :: events) droppedAfter after := by
  rcases before with ⟨place, toGpu, fromGpu, serving, contents⟩
  cases place with
  | waitWhileFull =>
      simp only [State.step] at stepped
      split at stepped <;> cases stepped <;> exact ⟨dropped, recorded.silent rfl rfl rfl rfl rfl rfl⟩
  | write =>
      simp only [State.step] at stepped
      cases stepped
      refine ⟨dropped, ?_, recorded.reads, recorded.inOrder, recorded.foreign⟩
      rw [List.filterMap_cons_some (show (Event.post _).posts = some _ from rfl), recorded.posts]
      rfl
  | waitWhileEmpty =>
      simp only [State.step] at stepped
      split at stepped <;> cases stepped <;> exact ⟨dropped, recorded.silent rfl rfl rfl rfl rfl rfl⟩
  | read =>
      cases fromGpu with
      | nil => exact absurd rfl (sound.nonempty rfl)
      | cons word rest =>
          have readsBefore : (events.filterMap Event.reads).reverse = dropped := by
            rw [recorded.reads]
            exact List.append_nil _
          have inOrder : queues.fromGpu ++ (events.filterMap Event.answers).reverse =
              dropped ++ [word] ++ rest := by
            rw [recorded.inOrder, readsBefore, List.append_assoc]
            rfl
          have readsAfter : ((Event.read word :: events).filterMap Event.reads).reverse =
              dropped ++ [word] := by
            rw [List.filterMap_cons_some (show (Event.read word).reads = some word from rfl),
              List.reverse_cons, readsBefore]
          simp only [State.step, List.headD_cons, List.tail_cons, toNat_eq_message_iff low word]
            at stepped
          by_cases own : word = posted address
          · rw [if_pos own] at stepped
            cases stepped
            refine ⟨dropped, recorded.posts, ?_, ?_, recorded.foreign⟩
            · rw [readsAfter, own]
              rfl
            · rw [readsAfter]
              exact inOrder
          · rw [if_neg own] at stepped
            cases stepped
            refine ⟨dropped ++ [word], recorded.posts, ?_, ?_, ?_⟩
            · rw [readsAfter]
              exact (List.append_nil _).symm
            · rw [readsAfter]
              exact inOrder
            · rw [List.mem_append, List.mem_singleton]
              exact fun member => member.elim recorded.foreign fun same => own same.symm
  | checkResponse =>
      simp only [State.step] at stepped
      cases stepped
      refine ⟨dropped, recorded.silent rfl rfl rfl ?_ ?_ rfl⟩ <;> dsimp only <;> split <;> rfl
  | checkError =>
      have isError : contents 1 = mailboxError := (sound.settled rfl).resolve_left (sound.refused rfl)
      simp only [State.step, if_pos isError] at stepped
      cases stepped
      exact ⟨dropped, recorded.silent rfl rfl rfl rfl rfl rfl⟩
  | returned accepted => cases stepped

theorem Recorded.answer {word : BitVec 32} (recorded : Recorded queues address events dropped before)
    (place : after.place = before.place) (fromGpu : after.fromGpu = before.fromGpu ++ [word]) :
    Recorded queues address (.answer word :: events) dropped after where
  posts := by
    rw [List.filterMap_cons_none (show (Event.answer word).posts = none from rfl), place,
      recorded.posts]
  reads := by
    rw [List.filterMap_cons_none (show (Event.answer word).reads = none from rfl), place,
      recorded.reads]
  inOrder := by
    rw [List.filterMap_cons_some (show (Event.answer word).answers = some word from rfl),
      List.filterMap_cons_none (show (Event.answer word).reads = none from rfl), List.reverse_cons,
      ← List.append_assoc, recorded.inOrder, fromGpu, List.append_assoc]
  foreign := recorded.foreign

theorem Recorded.step (low : address < 2 ^ 32) (sound : Sound capacity address before)
    (recorded : Recorded queues address events dropped before)
    (stepped : Step capacity address before event after) :
    Exists fun droppedAfter => Recorded queues address (event :: events) droppedAfter after := by
  cases stepped with
  | processor _ access => exact recorded.processor low sound access
  | gpu act =>
      refine ⟨dropped, ?_⟩
      cases act with
      | take => exact recorded.silent rfl rfl rfl rfl rfl rfl
      | store => exact recorded.silent rfl rfl rfl rfl rfl rfl
      | answer => exact recorded.answer rfl rfl
      | other => exact recorded.answer rfl rfl

/-! ## Every run -/

variable {start : State} {contents : Nat -> BitVec 32}

theorem sound_of_reaches (low : address < 2 ^ 32) (fresh : queues.Fresh address)
    (called : sendInPropertyChannel target address queues contents = some start)
    (reached : Reaches (Step capacity address) start events state) :
    Sound capacity address state :=
  reached.invariant (Sound capacity address) (sound_start fresh called)
    fun _ _ _ sound stepped => sound.step low stepped

theorem recorded_of_reaches (low : address < 2 ^ 32) (fresh : queues.Fresh address)
    (called : sendInPropertyChannel target address queues contents = some start)
    (reached : Reaches (Step capacity address) start events state) :
    Exists fun dropped => Recorded queues address events dropped state := by
  induction reached with
  | refl =>
      rw [sendInPropertyChannel] at called
      split at called
      next =>
          cases called
          exact ⟨[], rfl, rfl, List.append_nil _, nofun⟩
      next => cases called
  | tail earlier last inductionHypothesis =>
      rcases inductionHypothesis with ⟨dropped, recorded⟩
      exact recorded.step low (sound_of_reaches low fresh called earlier) last

/-- An answer is recognized only where the address of the message fits in `raw_write`. -/
theorem low_of_settled
    (called : sendInPropertyChannel target address queues contents = some start)
    (reached : Reaches (Step capacity address) start events state)
    (settled : state.place.settled = true) : address < 2 ^ 32 := by
  refine reached.invariant (fun state => state.place.settled = true -> address < 2 ^ 32)
    (fun isSettled => ?_) (fun before event after holds stepped => ?_) settled
  · rw [sendInPropertyChannel] at called
    split at called <;> cases called
    cases isSettled
  · intro isSettled
    cases stepped with
    | gpu act => cases act <;> exact holds isSettled
    | processor whenEmpty access =>
        rcases before with ⟨place, toGpu, fromGpu, serving, contents⟩
        cases place with
        | read =>
            simp only [State.step] at access
            split at access
            next same =>
                have above : address ≤ messageOf address := Nat.left_le_or
                rw [← same] at above
                exact Nat.lt_of_le_of_lt above (BitVec.isLt _)
            next =>
                cases access
                cases isSettled
        | waitWhileFull =>
            simp only [State.step] at access
            split at access <;> cases access <;> cases isSettled
        | write =>
            simp only [State.step] at access
            cases access
            cases isSettled
        | waitWhileEmpty =>
            simp only [State.step] at access
            split at access <;> cases access <;> cases isSettled
        | checkResponse => exact holds rfl
        | checkError => exact holds rfl
        | returned accepted => exact holds rfl

/-- A mailbox in which the GPU has left a word of another channel. -/
def leftover : Queues :=
  { toGpu := [], fromGpu := [0x13], serving := none }

theorem leftover_fresh : leftover.Fresh 4096 :=
  ⟨by decide, by decide, by decide⟩

/-- A call in this mailbox. -/
def asking (contents : Nat -> BitVec 32) : State where
  place := .waitWhileFull
  toGpu := []
  fromGpu := [0x13]
  serving := none
  contents := contents

/-- The same call when the GPU has accepted the message. -/
def asked (contents : Nat -> BitVec 32) : State where
  place := .waitWhileEmpty
  toGpu := []
  fromGpu := [0x13, 4104]
  serving := none
  contents := Function.update (Function.update contents 5 77) 1 mailboxResponse

theorem asked_reached (contents : Nat -> BitVec 32) : Reaches (Step 8 4096) (asking contents)
    [.answer 4104, .store, .store, .take, .post 4104, .poll] (asked contents) := by
  have polled : Reaches (Step 8 4096) (asking contents) [.poll]
      { asking contents with place := .write } :=
    .tail .refl (.processor 0 (if_pos (status_full.mpr (Nat.zero_lt_succ 7))))
  have sent : Reaches (Step 8 4096) (asking contents) [.post 4104, .poll]
      { asking contents with place := .waitWhileEmpty, toGpu := [4104] } :=
    .tail polled (.processor 0 rfl)
  have stored : Reaches (Step 8 4096) (asking contents) [.store, .store, .take, .post 4104, .poll]
      { asked contents with fromGpu := [0x13], serving := some 4104 } :=
    .tail (.tail (.tail sent (.gpu (.take rfl rfl))) (.gpu (.store rfl))) (.gpu (.store rfl))
  exact .tail stored (.gpu (.answer rfl fun _ => .inl rfl))

theorem asked_returned (contents : Nat -> BitVec 32) : Reaches (Step 8 4096) (asked contents)
    [.check, .read 4104, .poll, .read 0x13, .poll]
    { asked contents with place := .returned true, fromGpu := [] } := by
  have polled : Reaches (Step 8 4096) (asked contents) [.poll]
      { asked contents with place := .read } :=
    .tail .refl (.processor 0 (if_pos (status_empty.mpr (List.cons_ne_nil _ _))))
  have dropped : Reaches (Step 8 4096) (asked contents) [.read 0x13, .poll]
      { asked contents with fromGpu := [4104] } := .tail polled (.processor 0 rfl)
  have again : Reaches (Step 8 4096) (asked contents) [.poll, .read 0x13, .poll]
      { asked contents with place := .read, fromGpu := [4104] } :=
    .tail dropped (.processor 0 (if_pos (status_empty.mpr (List.cons_ne_nil _ _))))
  have read : Reaches (Step 8 4096) (asked contents) [.read 4104, .poll, .read 0x13, .poll]
      { asked contents with place := .checkResponse, fromGpu := [] } := .tail again (.processor 0 rfl)
  exact .tail read (.processor 0 rfl)

/-- Whatever the processor and the GPU do in between, a call that returns has posted its
message once, and the GPU has answered it once, with the code that the call returns.  The
words that the GPU had sent before this answer are gone. -/
theorem send_answered_once (target : Target) (capacity address : Nat) {queues : Queues}
    {contents : Nat -> BitVec 32} {start state : State} {events : List Event} {accepted : Bool}
    (fresh : queues.Fresh address)
    (called : sendInPropertyChannel target address queues contents = some start)
    (reached : Reaches (Step capacity address) start events state)
    (returned : state.place = .returned accepted) :
    address < 2 ^ 32 ∧ events.filterMap Event.posts = [posted address] ∧
      state.contents 1 = (if accepted then mailboxResponse else mailboxError) ∧
      state.pending address = 0 ∧
      Exists fun dropped => posted address ∉ dropped ∧
        (events.filterMap Event.reads).reverse = dropped ++ [posted address] ∧
        queues.fromGpu ++ (events.filterMap Event.answers).reverse =
          dropped ++ posted address :: state.fromGpu := by
  have low := low_of_settled called reached (by rw [returned]; rfl)
  have sound := sound_of_reaches low fresh called reached
  rcases recorded_of_reaches low fresh called reached with ⟨dropped, posts, reads, inOrder, foreign⟩
  rw [returned] at posts reads
  have pending := sound.pending
  rw [returned] at pending
  refine ⟨low, posts, sound.returned accepted returned, pending, dropped, foreign, reads, ?_⟩
  rw [inOrder, reads, List.append_assoc]
  rfl

theorem send_answered_once_asked :
    Exists fun dropped => posted 4096 ∉ dropped ∧ [0x13, 4104] = dropped ++ [posted 4096] := by
  have reached := (asked_reached fun _ => 0).append (asked_returned fun _ => 0)
  rcases send_answered_once .aarch64 8 4096 leftover_fresh rfl reached rfl with
    ⟨_, _, _, _, dropped, foreign, reads, _⟩
  exact ⟨dropped, foreign, reads⟩

/-! ## From the answer to the return -/

/-- How many accesses there are until the call returns, when the answer is there. -/
def State.remaining (address : Nat) (state : State) : Nat :=
  let refused := if state.contents 1 = mailboxResponse then 0 else 1
  match state.place with
  | .waitWhileEmpty => 2 * state.fromGpu.idxOf (posted address) + 3 + refused
  | .read => 2 * state.fromGpu.idxOf (posted address) + 2 + refused
  | .checkResponse => 1 + refused
  | .checkError => 1
  | _ => 0

/-- The GPU has answered. -/
def State.isAnswered (address : Nat) (state : State) : Prop :=
  posted address ∈ state.fromGpu ∨ state.place.settled = true

/-- Nothing is answered before it is sent. -/
theorem Sound.sent (sound : Sound capacity address state) (isAnswered : state.isAnswered address) :
    state.place.sent = true := by
  rcases isAnswered with member | settled
  · have inside : 0 < state.pending address := by
      have back := List.count_pos_iff.mpr member
      rw [State.pending]
      omega
    rcases sound.waiting inside with waits | waits <;> rw [waits] <;> rfl
  · cases isPlace : state.place <;> rw [isPlace] at settled <;> first | rfl | cases settled

/-- The GPU works no more on a message that it has answered. -/
theorem Sound.not_serving (sound : Sound capacity address state)
    (isAnswered : state.isAnswered address) : state.serving ≠ some (posted address) := by
  intro serves
  have inside : 0 < state.pending address := by
    rw [State.pending, if_pos serves]
    omega
  have waits := sound.waiting inside
  rcases isAnswered with member | settled
  · have back := List.count_pos_iff.mpr member
    have once : state.pending address = 1 := by
      rcases waits with isPlace | isPlace <;> rw [sound.pending, isPlace] <;> rfl
    rw [State.pending, if_pos serves] at once
    omega
  · rcases waits with isPlace | isPlace <;> cases settled.symm.trans (congrArg Place.settled isPlace)

theorem remaining_processor (low : address < 2 ^ 32) (sound : Sound capacity address before)
    (isAnswered : before.isAnswered address)
    (stepped : before.step capacity address whenEmpty = some (event, after)) :
    after.isAnswered address ∧ after.contents = before.contents ∧ event.ofProcessor = true ∧
      after.remaining address + 1 = before.remaining address := by
  have sent := sound.sent isAnswered
  rcases before with ⟨place, toGpu, fromGpu, serving, contents⟩
  cases place with
  | waitWhileFull => cases sent
  | write => cases sent
  | waitWhileEmpty =>
      have member : posted address ∈ fromGpu := isAnswered.resolve_right nofun
      have notEmpty := (@status_empty capacity ⟨.waitWhileEmpty, toGpu, fromGpu, serving, contents⟩).mpr
        (List.ne_nil_of_mem member)
      simp only [State.step, if_pos notEmpty] at stepped
      cases stepped
      refine ⟨.inl member, rfl, rfl, ?_⟩
      simp only [State.remaining]
      omega
  | read =>
      have member : posted address ∈ fromGpu := isAnswered.resolve_right nofun
      cases fromGpu with
      | nil => cases member
      | cons word rest =>
          simp only [State.step, List.headD_cons, List.tail_cons, toNat_eq_message_iff low word]
            at stepped
          by_cases own : word = posted address
          · rw [if_pos own] at stepped
            cases stepped
            refine ⟨.inr rfl, rfl, rfl, ?_⟩
            simp only [State.remaining, own, List.idxOf_cons_self]
            omega
          · rw [if_neg own] at stepped
            cases stepped
            have further := List.mem_of_ne_of_mem (Ne.symm own) member
            refine ⟨.inl further, rfl, rfl, ?_⟩
            simp only [State.remaining, List.idxOf_cons_ne rest own]
            omega
  | checkResponse =>
      simp only [State.step] at stepped
      cases stepped
      by_cases accepted : contents 1 = mailboxResponse
      · rw [if_pos accepted]
        refine ⟨.inr rfl, rfl, rfl, ?_⟩
        simp only [State.remaining, if_pos accepted]
      · rw [if_neg accepted]
        refine ⟨.inr rfl, rfl, rfl, ?_⟩
        simp only [State.remaining, if_neg accepted]
  | checkError =>
      have isError : contents 1 = mailboxError := (sound.settled rfl).resolve_left (sound.refused rfl)
      simp only [State.step, if_pos isError] at stepped
      cases stepped
      exact ⟨.inr rfl, rfl, rfl, rfl⟩
  | returned accepted => cases stepped

theorem remaining_gpu (sound : Sound capacity address before)
    (isAnswered : before.isAnswered address) (stepped : GpuStep address before event after) :
    after.isAnswered address ∧ after.contents = before.contents ∧ event.ofProcessor = false ∧
      after.remaining address = before.remaining address := by
  have behind (word : BitVec 32) (serving : Option (BitVec 32)) :
      (State.mk before.place before.toGpu (before.fromGpu ++ [word]) serving
        before.contents).remaining address = before.remaining address := by
    rcases isAnswered with member | settled
    · simp only [State.remaining, List.idxOf_append_of_mem member]
    · cases isPlace : before.place with
      | waitWhileFull => simp [State.remaining, isPlace]
      | write => simp [State.remaining, isPlace]
      | waitWhileEmpty => cases settled.symm.trans (congrArg Place.settled isPlace)
      | read => cases settled.symm.trans (congrArg Place.settled isPlace)
      | checkResponse => simp [State.remaining, isPlace]
      | checkError => simp [State.remaining, isPlace]
      | returned accepted => simp [State.remaining, isPlace]
  have still {word : BitVec 32} : posted address ∈ before.fromGpu ++ [word] ∨
      before.place.settled = true := isAnswered.imp_left (List.mem_append_left _)
  cases stepped with
  | take => exact ⟨isAnswered, rfl, rfl, rfl⟩
  | store serves => exact absurd serves (sound.not_serving isAnswered)
  | answer => exact ⟨still, rfl, rfl, behind _ _⟩
  | other => exact ⟨still, rfl, rfl, behind _ _⟩

/-- In a run from the answer on, the message stays as it is, and the accesses are counted. -/
theorem remaining_of_reaches (low : address < 2 ^ 32) (sound : Sound capacity address before)
    (isAnswered : before.isAnswered address)
    (reached : Reaches (Step capacity address) before events state) :
    Sound capacity address state ∧ state.isAnswered address ∧ state.contents = before.contents ∧
      events.countP Event.ofProcessor + state.remaining address = before.remaining address := by
  induction reached with
  | refl => exact ⟨sound, isAnswered, rfl, Nat.zero_add _⟩
  | tail _ last inductionHypothesis =>
      rcases inductionHypothesis with ⟨soundThere, answeredThere, contents, count⟩
      cases last with
      | processor _ access =>
          rcases remaining_processor low soundThere answeredThere access with
            ⟨answeredAfter, same, isProcessor, less⟩
          refine ⟨soundThere.processor low access, answeredAfter, same.trans contents, ?_⟩
          rw [List.countP_cons_of_pos isProcessor]
          omega
      | gpu act =>
          rcases remaining_gpu soundThere answeredThere act with
            ⟨answeredAfter, same, isGpu, equal⟩
          refine ⟨soundThere.gpu act, answeredAfter, same.trans contents, ?_⟩
          rw [List.countP_cons_of_neg (by rw [isGpu]; exact Bool.false_ne_true), equal]
          exact count

/-- No accesses remain when the call has returned. -/
theorem remaining_eq_zero_iff (sound : Sound capacity address state)
    (isAnswered : state.isAnswered address) :
    state.remaining address = 0 <->
      state.place = .returned (state.contents 1 == mailboxResponse) := by
  constructor
  · intro none_
    cases isPlace : state.place with
    | returned accepted =>
        rw [sound.returned accepted isPlace]
        cases accepted <;> rfl
    | waitWhileFull => cases (sound.sent isAnswered).symm.trans (congrArg Place.sent isPlace)
    | write => cases (sound.sent isAnswered).symm.trans (congrArg Place.sent isPlace)
    | waitWhileEmpty =>
        simp only [State.remaining, isPlace] at none_
        omega
    | read =>
        simp only [State.remaining, isPlace] at none_
        omega
    | checkResponse =>
        simp only [State.remaining, isPlace] at none_
        omega
    | checkError =>
        simp only [State.remaining, isPlace] at none_
        omega
  · intro isPlace
    simp only [State.remaining, isPlace]

/-- Once the GPU has answered, the call returns with a given number of accesses, whatever
the GPU goes on to do, and finds the message as it was when the GPU answered. -/
theorem send_returns_once_answered (target : Target) (capacity address : Nat)
    (low : address < 2 ^ 32) {queues : Queues} {contents : Nat -> BitVec 32}
    {start answered state : State} {events further : List Event} (fresh : queues.Fresh address)
    (called : sendInPropertyChannel target address queues contents = some start)
    (reached : Reaches (Step capacity address) start events answered)
    (isAnswered : posted address ∈ answered.fromGpu)
    (goesOn : Reaches (Step capacity address) answered further state) :
    state.contents = answered.contents ∧
      further.countP Event.ofProcessor ≤ answered.remaining address ∧
      (state.place = .returned (answered.contents 1 == mailboxResponse) <->
        further.countP Event.ofProcessor = answered.remaining address) := by
  have sound := sound_of_reaches low fresh called reached
  rcases remaining_of_reaches low sound (.inl isAnswered) goesOn with
    ⟨soundThere, answeredThere, same, count⟩
  have last := remaining_eq_zero_iff soundThere answeredThere
  rw [same] at last
  refine ⟨same, Nat.le_of_add_right_le (Nat.le_of_eq count), ?_⟩
  rw [← last]
  omega

theorem send_returns_once_answered_asked :
    [Event.check, .read 4104, .poll, .read 0x13, .poll].countP Event.ofProcessor =
      (asked fun _ => 0).remaining 4096 := by
  have returns := send_returns_once_answered .aarch64 8 4096 (by decide) leftover_fresh rfl
    (asked_reached fun _ => 0) (by decide) (asked_returned fun _ => 0)
  exact returns.2.2.mp rfl

/-! ## The two messages of the kernel -/

/-- What a caller makes of the message when the call has returned. -/
def State.result {Result : Type} (state : State) (accepted : (Nat -> BitVec 32) -> Result)
    (refused : Result) : Option Result :=
  match state.place with
  | .returned true => some (accepted state.contents)
  | .returned false => some refused
  | _ => none

structure SerialNum where
  bottom : BitVec 32
  top : BitVec 32
deriving DecidableEq

/-- The words of `message_contents`, where those of the answer keep what was there. -/
def serialMessage (old : Nat -> BitVec 32) : Nat -> BitVec 32
  | 0 => 32
  | 1 => mailboxRequest
  | 2 => 0x10004
  | 3 => 8
  | 4 => 8
  | 7 => 0
  | index => old index

/-- `try_retrieve_serial_num_from_mailbox`, behind the call. -/
def tryRetrieveSerialNum (state : State) : Option (Option SerialNum) :=
  state.result (fun contents => some ⟨contents 5, contents 6⟩) none

/-- `display_depth`, the bits of `m_buffer`, which is a pointer. -/
def displayDepth (target : Target) : BitVec 32 :=
  BitVec.ofNat 32 (target.wordSize * 8)

/-- The words of a `DisplayMailboxMessage`. -/
def displayMessage (target : Target) (width height : BitVec 32) : List (BitVec 32) :=
  [124, mailboxRequest,
    0x48003, 8, 8, width, height,
    0x48004, 8, 8, width, height,
    0x48005, 4, 4, displayDepth target,
    0x48009, 8, 8, 0, 0,
    0x40001, 8, 8, 4096, 0,
    0x40008, 4, 4, 0,
    0]

def displayAnswer (contents : Nat -> BitVec 32) : DisplayMailboxMessage where
  physWidth := contents 5
  physHeight := contents 6
  virtWidth := contents 10
  virtHeight := contents 11
  depth := contents 15
  pitch := contents 29

/-- `Display::init`, behind the call; the inner `none` is a panic. -/
def initDisplay (target : Target) (state : State) : Option (Option Display) :=
  state.result (fun contents => Display.init (displayDepth target) (displayAnswer contents)) none

/-- What a caller makes of the message depends on nothing but the answer. -/
theorem result_of_answer {Result : Type} (read : (Nat -> BitVec 32) -> Result) (refused : Result)
    (low : address < 2 ^ 32) {answered : State} {further : List Event}
    (fresh : queues.Fresh address)
    (called : sendInPropertyChannel target address queues contents = some start)
    (reached : Reaches (Step capacity address) start events answered)
    (isAnswered : posted address ∈ answered.fromGpu)
    (goesOn : Reaches (Step capacity address) answered further state) :
    state.result read refused =
      if further.countP Event.ofProcessor = answered.remaining address then
        some (if answered.contents 1 = mailboxResponse then read answered.contents else refused)
      else none := by
  have sound := sound_of_reaches low fresh called reached
  rcases remaining_of_reaches low sound (.inl isAnswered) goesOn with
    ⟨soundThere, answeredThere, same, count⟩
  have last := remaining_eq_zero_iff soundThere answeredThere
  by_cases done : state.remaining address = 0
  · rw [if_pos (by omega), State.result, last.mp done, same]
    by_cases accepted : answered.contents 1 = mailboxResponse
    · rw [if_pos accepted, accepted]
      rfl
    · rw [if_neg accepted, beq_eq_false_iff_ne.mpr accepted]
  · rw [if_neg (by omega), State.result]
    cases isPlace : state.place with
    | returned accepted =>
        have back : state.remaining address = 0 := by simp only [State.remaining, isPlace]
        exact absurd back done
    | _ => rfl

/-- The serial number is the one that the GPU answered with. -/
theorem serial_of_answer (target : Target) (capacity address : Nat) (low : address < 2 ^ 32)
    (old : Nat -> BitVec 32) {queues : Queues} {start answered state : State}
    {events further : List Event} (fresh : queues.Fresh address)
    (called : sendInPropertyChannel target address queues (serialMessage old) = some start)
    (reached : Reaches (Step capacity address) start events answered)
    (isAnswered : posted address ∈ answered.fromGpu)
    (goesOn : Reaches (Step capacity address) answered further state)
    (enough : further.countP Event.ofProcessor = answered.remaining address) :
    tryRetrieveSerialNum state =
      some (if answered.contents 1 = mailboxResponse then
        some ⟨answered.contents 5, answered.contents 6⟩ else none) := by
  rw [tryRetrieveSerialNum, result_of_answer _ _ low fresh called reached isAnswered goesOn,
    if_pos enough]

theorem serial_of_answer_asked :
    tryRetrieveSerialNum
      { asked (serialMessage fun _ => 0) with place := .returned true, fromGpu := [] } =
      some (some ⟨77, 0⟩) :=
  serial_of_answer .aarch64 8 4096 (by decide) (fun _ => 0) leftover_fresh rfl (asked_reached _)
    (by decide) (asked_returned _) rfl

/-- The display is what the GPU answered, if it accepted the message and gave what was asked
for. -/
theorem display_of_answer (target : Target) (capacity address : Nat) (low : address < 2 ^ 32)
    (width height : BitVec 32) {queues : Queues} {start answered state : State}
    {events further : List Event} (fresh : queues.Fresh address)
    (called : sendInPropertyChannel target address queues
      (fun index => (displayMessage target width height).getD index 0) = some start)
    (reached : Reaches (Step capacity address) start events answered)
    (isAnswered : posted address ∈ answered.fromGpu)
    (goesOn : Reaches (Step capacity address) answered further state)
    (enough : further.countP Event.ofProcessor = answered.remaining address) :
    initDisplay target state =
      some (if answered.contents 1 = mailboxResponse then
        Display.init (displayDepth target) (displayAnswer answered.contents) else none) := by
  rw [initDisplay, result_of_answer _ _ low fresh called reached isAnswered goesOn, if_pos enough]

/-- A display that is as wide as the GPU answers to everything. -/
def askedDisplay : Nat -> BitVec 32 :=
  fun index => (displayMessage .aarch32 77 480).getD index 0

theorem display_of_answer_asked :
    initDisplay .aarch32 { asked askedDisplay with place := .returned true, fromGpu := [] } =
      some (some { width := 77, height := 480, depth := 32, pitch := 0 }) :=
  display_of_answer .aarch32 8 4096 (by decide) 77 480 leftover_fresh rfl (asked_reached _)
    (by decide) (asked_returned _) rfl

end Mailbox
end Kernel
end Pinyon
