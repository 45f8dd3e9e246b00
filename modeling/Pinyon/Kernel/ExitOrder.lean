import Pinyon.Kernel.SchedulerRounds
import Pinyon.Kernel.CpuTime

namespace Pinyon
namespace Kernel

open Library

/-!
# Which task follows one that exits

`exit_running_task` removes the running task from the vector, which moves the task
behind it to its index, and `pick_next_task` then begins with the next index.  So
the task behind one that exits is the last to be considered, unless the one that
exits was the last of the vector.
-/

namespace TaskManager

variable {manager : TaskManager} {finished : Waitable -> Bool} {turns jiffies : Nat}

/-- The tasks that are left, with the index that the loop starts from. -/
def remaining (manager : TaskManager) : TaskManager :=
  { manager with tasks := manager.tasks.eraseIdx manager.runningTaskIndex }

/-- The first of the other tasks that can run, going round from the running one. -/
def Successor (manager : TaskManager) (finished : Waitable -> Bool) (turns : Nat) : Prop :=
  Rotation.First
    (fun index => index ≠ manager.runningTaskIndex ∧ manager.CanRunAt finished index)
    manager.tasks.length manager.runningTaskIndex turns

/-- Where going round a number of turns leads. -/
def around (manager : TaskManager) (turns : Nat) : Nat :=
  Rotation.position manager.tasks.length manager.runningTaskIndex turns

/-- The call starts the task at an index of the vector with the task that exits,
and the index it leaves is the one that this task now has. -/
def ExitStarts (manager : TaskManager) (finished : Waitable -> Bool) (jiffies index : Nat) : Prop :=
  Exists fun bound => Exists fun after =>
    manager.exitRunningTask finished bound jiffies = some after ∧
      Rotation.restored manager.runningTaskIndex after.runningTaskIndex = index ∧
      after.runningTask = manager.tasks[index]?.map fun task =>
        (task.updateState finished).start jiffies

/-- The call starts the successor, if there is one. -/
def ExitsInOrder (manager : TaskManager) (finished : Waitable -> Bool) (jiffies : Nat) : Prop :=
  forall turns, manager.Successor finished turns ->
    manager.ExitStarts finished jiffies (manager.around turns)

/-- The task behind the running one cannot run, or no third task can. -/
def SkipsNoTask (manager : TaskManager) (finished : Waitable -> Bool) : Prop :=
  manager.CanRunAt finished (manager.runningTaskIndex + 1) ->
    forall other, manager.CanRunAt finished other ->
      other = manager.runningTaskIndex ∨ other = manager.runningTaskIndex + 1

theorem CanRunAt.inside {index : Nat} (runs : manager.CanRunAt finished index) :
    index < manager.tasks.length := by
  rcases runs with ⟨task, here, _⟩
  exact (List.getElem?_eq_some_iff.mp here).1

theorem remaining_getElem? (index : Nat) :
    manager.remaining.tasks[index]? =
      manager.tasks[Rotation.restored manager.runningTaskIndex index]? := by
  rw [remaining, Rotation.restored, List.getElem?_eraseIdx]
  split <;> rfl

theorem remaining_canRunAt (index : Nat) :
    manager.remaining.CanRunAt finished index <->
      manager.CanRunAt finished (Rotation.restored manager.runningTaskIndex index) := by
  unfold CanRunAt
  rw [remaining_getElem?]

theorem remaining_length (inside : manager.runningTaskIndex < manager.tasks.length) :
    manager.remaining.tasks.length + 1 = manager.tasks.length := by
  rw [remaining, List.length_eraseIdx_of_lt inside]
  omega

/-- The call starts the task at which the loop stops. -/
theorem exitRunningTask_of_stops (jiffies : Nat) (stops : manager.remaining.Stops finished turns) :
    Exists fun after => manager.exitRunningTask finished turns jiffies = some after ∧
      after.runningTaskIndex = manager.remaining.around turns ∧
      after.runningTask = manager.remaining.tasks[manager.remaining.around turns]?.map fun task =>
        (task.updateState finished).start jiffies := by
  have picks := pickNextTask_of_stops stops (Nat.le_refl turns)
  refine ⟨_, congrArg (Option.bind · _) picks, rfl, ?_⟩
  dsimp only [runningTask, modify, pickedAfter, around]
  rw [List.getElem?_modify_eq, List.getElem?_modify_eq]
  cases manager.remaining.tasks[Rotation.position manager.remaining.tasks.length
    manager.remaining.runningTaskIndex turns]? <;> rfl

/-- Whatever the bound, the call starts that task. -/
theorem exitRunningTask_index (stops : manager.remaining.Stops finished turns) {bound : Nat}
    {after : TaskManager}
    (exits : manager.exitRunningTask finished bound jiffies = some after) :
    after.runningTaskIndex = manager.remaining.around turns := by
  rcases Option.bind_eq_some_iff.mp exits with ⟨picked, picks, starts⟩
  have found := pickNextTask_of_stops stops (Nat.le_max_left turns bound)
  have same := (pickNextTask_mono (Nat.le_max_right turns bound) picks).symm.trans found
  cases same
  cases starts
  rfl

/-- If the loop stops at the successor, the call starts it. -/
theorem exitStarts_of_stops {steps : Nat} (stops : manager.remaining.Stops finished steps)
    (same : Rotation.restored manager.runningTaskIndex (manager.remaining.around steps) =
      manager.around turns) : manager.ExitStarts finished jiffies (manager.around turns) := by
  rcases exitRunningTask_of_stops jiffies stops with ⟨after, exits, index, started⟩
  refine ⟨steps, after, exits, ?_, ?_⟩
  · rw [index, same]
  · rw [started, remaining_getElem?, same]

/-- The round ends at the task that exits, which is no successor. -/
theorem Successor.turns_lt (successor : manager.Successor finished turns)
    (inside : manager.runningTaskIndex < manager.tasks.length) : turns < manager.tasks.length := by
  apply Nat.lt_of_le_of_ne (Rotation.First.le_length successor (by omega))
  intro round
  apply successor.found.1
  rw [round, Rotation.position_length inside]

/-- A search of the tasks that are left, turn by turn the search of all of them. -/
theorem Successor.stops {steps : Nat} (successor : manager.Successor finished turns)
    (moved : 0 < steps)
    (same : Rotation.restored manager.runningTaskIndex (manager.remaining.around steps) =
      manager.around turns)
    (earlier : forall turn, 0 < turn -> turn < steps -> Exists fun before => 0 < before ∧
      before < turns ∧ Rotation.restored manager.runningTaskIndex (manager.remaining.around turn) =
        manager.around before) :
    manager.remaining.Stops finished steps where
  moved := moved
  found := by
    apply (remaining_canRunAt _).mpr
    have runs := successor.found.2
    rw [← around, ← same] at runs
    exact runs
  earlier := by
    intro turn positive less runs
    rcases earlier turn positive less with ⟨before, positiveBefore, lessBefore, there⟩
    apply successor.earlier before positiveBefore lessBefore
    have restored := (remaining_canRunAt _).mp runs
    rw [← around] at restored ⊢
    rw [there] at restored
    refine ⟨?_, restored⟩
    rw [← there]
    exact Rotation.restored_ne _ _

theorem exitsInOrder_of_skipsNoTask (inside : manager.runningTaskIndex < manager.tasks.length)
    (skips : manager.SkipsNoTask finished) : manager.ExitsInOrder finished jiffies := by
  intro turns successor
  have short := successor.turns_lt inside
  have moved := successor.moved
  have length := remaining_length inside
  generalize left : manager.remaining.tasks.length = count at length
  have aroundAll : forall turn, manager.around turn =
      Rotation.position (count + 1) manager.runningTaskIndex turn := by
    intro turn
    rw [around, ← length]
  have aroundLeft : forall turn, manager.remaining.around turn =
      Rotation.position count manager.runningTaskIndex turn := by
    intro turn
    rw [around, left]
    rfl
  rcases Nat.lt_or_ge manager.runningTaskIndex count with further | beyond
  · by_cases behind : manager.CanRunAt finished (manager.runningTaskIndex + 1)
    · -- only the task behind can run, which the loop comes to last
      have next : manager.around 1 = manager.runningTaskIndex + 1 := by
        rw [aroundAll, Rotation.position_eq_mod (by omega), Nat.mod_eq_of_lt (by omega)]
      have first : manager.Successor finished 1 := by
        refine ⟨Nat.one_pos, ?_, fun turn positive less => absurd positive (by omega)⟩
        rw [← around, next]
        exact ⟨Nat.succ_ne_self _, behind⟩
      rw [successor.unique first]
      have round : Rotation.restored manager.runningTaskIndex (manager.remaining.around count) =
          manager.around 1 := by
        rw [aroundLeft, aroundAll, Rotation.restored_position_round further]
      refine exitStarts_of_stops ⟨by omega, ?_, ?_⟩ round
      · apply (remaining_canRunAt _).mpr
        rw [← around, round, next]
        exact behind
      · intro turn positive less runs
        rcases skips behind _ ((remaining_canRunAt _).mp runs) with self | same
        · exact Rotation.restored_ne _ _ self
        · rw [← next, ← round] at same
          have back := Rotation.restored_injective _ same
          rw [← around, aroundLeft, aroundLeft, Rotation.position_length further] at back
          exact Rotation.position_ne_self further positive less back
    · -- the loop is one task ahead all the way
      have several : 1 < turns := by
        apply Nat.lt_of_le_of_ne moved
        intro one
        apply behind
        have runs := successor.found.2
        rwa [← one, ← around, aroundAll, Rotation.position_eq_mod (by omega),
          Nat.mod_eq_of_lt (by omega)] at runs
      have ahead : forall turn, 0 < turn -> turn < turns ->
          Rotation.restored manager.runningTaskIndex (manager.remaining.around turn) =
            manager.around (turn + 1) := by
        intro turn positive less
        rw [aroundLeft, aroundAll, Rotation.restored_position further positive (by omega)]
      have same := ahead (turns - 1) (by omega) (by omega)
      rw [Nat.sub_add_cancel moved] at same
      apply exitStarts_of_stops (successor.stops (by omega) same ?_) same
      intro turn positive less
      exact ⟨turn + 1, by omega, by omega, ahead turn positive (by omega)⟩
  · have last : manager.runningTaskIndex = count := by omega
    have together : forall turn, 0 < turn -> turn ≤ turns ->
        Rotation.restored manager.runningTaskIndex (manager.remaining.around turn) =
          manager.around turn := by
      intro turn positive less
      rw [aroundLeft, aroundAll, last, Rotation.restored_position_last positive (by omega)]
    have same := together turns moved (Nat.le_refl turns)
    apply exitStarts_of_stops (successor.stops moved same ?_) same
    intro turn positive less
    exact ⟨turn, positive, less, together turn positive (Nat.le_of_lt less)⟩

/-- A third task that can run is found before the loop has gone round. -/
theorem exists_stops_before (further : manager.runningTaskIndex + 1 < manager.tasks.length)
    {other : Nat} (runs : manager.CanRunAt finished other)
    (third : other ≠ manager.runningTaskIndex ∧ other ≠ manager.runningTaskIndex + 1) :
    Exists fun steps => steps < manager.remaining.tasks.length ∧
      manager.remaining.Stops finished steps := by
  have length := remaining_length (Nat.lt_of_succ_lt further)
  have inside := runs.inside
  have within : manager.runningTaskIndex < manager.remaining.tasks.length := by omega
  rcases third with ⟨notSelf, notBehind⟩
  rw [← length] at inside
  rcases Rotation.exists_restored notSelf inside (Nat.lt_succ_of_lt within) with
    ⟨index, below, there⟩
  have ready : manager.remaining.CanRunAt finished index := by
    rw [remaining_canRunAt, there]
    exact runs
  rcases Rotation.exists_turns manager.runningTaskIndex below with ⟨turn, positive, round, here⟩
  rcases Rotation.exists_first manager.runningTaskIndex below ready with ⟨steps, _, stops⟩
  refine ⟨steps, ?_, stops⟩
  have notRound : turn ≠ manager.remaining.tasks.length := by
    intro whole
    rw [whole, Rotation.position_length within] at here
    rw [← here, Rotation.restored, if_neg (Nat.lt_irrefl _)] at there
    exact notBehind there.symm
  have notPast : ¬turn < steps := by
    intro past
    apply stops.earlier turn positive past
    rw [here]
    exact ready
  omega

theorem skipsNoTask_of_exitsInOrder (inside : manager.runningTaskIndex < manager.tasks.length)
    (ordered : manager.ExitsInOrder finished jiffies) : manager.SkipsNoTask finished := by
  intro behind other runs
  by_contra neither
  have third := not_or.mp neither
  have further := behind.inside
  have length := remaining_length inside
  have within : manager.runningTaskIndex < manager.remaining.tasks.length := by omega
  have next : manager.around 1 = manager.runningTaskIndex + 1 := by
    rw [around, Rotation.position_eq_mod inside, Nat.mod_eq_of_lt further]
  have first : manager.Successor finished 1 := by
    refine ⟨Nat.one_pos, ?_, fun turn positive less => absurd positive (by omega)⟩
    rw [← around, next]
    exact ⟨Nat.succ_ne_self _, behind⟩
  rcases ordered 1 first with ⟨bound, after, exits, index, _⟩
  rcases exists_stops_before further runs third with ⟨steps, short, stops⟩
  rw [exitRunningTask_index stops exits, next] at index
  have self : Rotation.restored manager.runningTaskIndex manager.runningTaskIndex =
      manager.runningTaskIndex + 1 := if_neg (Nat.lt_irrefl _)
  have back := Rotation.restored_injective _ (index.trans self.symm)
  exact Rotation.position_ne_self within stops.moved short back

/-- The call keeps the order just when no task is behind the one that exits and can
run together with a third one. -/
theorem exits_in_order_iff (inside : manager.runningTaskIndex < manager.tasks.length) :
    manager.ExitsInOrder finished jiffies <-> manager.SkipsNoTask finished :=
  ⟨skipsNoTask_of_exitsInOrder inside, exitsInOrder_of_skipsNoTask inside⟩

/-- Three tasks that can run, and the first of them is the running one. -/
def three : TaskManager where
  tasks := [Task.start 0 (.create .CreateUserTask), .create .CreateUserTask,
    .create .CreateKernelTask]
  runningTaskIndex := 0

theorem three_canRunAt {index : Nat} (inside : index < 3) :
    three.CanRunAt finished index := by
  interval_cases index <;> exact ⟨_, rfl, rfl⟩

/-- The second of three tasks is passed over when the first exits. -/
theorem exit_passes_over_the_next : ¬ forall (manager : TaskManager) finished jiffies,
    manager.runningTaskIndex < manager.tasks.length ->
      manager.ExitsInOrder finished jiffies := by
  intro always
  have ordered := always three (fun _ => false) 0 (by decide)
  have skips := skipsNoTask_of_exitsInOrder (by decide) ordered
  rcases skips (three_canRunAt (by decide)) 2 (three_canRunAt (by decide)) with wrong | wrong <;>
    cases wrong

/-- The last of three tasks exits, and the first is started. -/
theorem exits_in_order_iff_last :
    ({ three with runningTaskIndex := 2 } : TaskManager).ExitsInOrder (fun _ => false) 0 :=
  (exits_in_order_iff (by decide)).mpr fun behind => absurd behind.inside (by decide)

end TaskManager

end Kernel
end Pinyon
