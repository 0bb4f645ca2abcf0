/-
# LightNet.Log.Logger — what becomes of the last lines of `log/logger.cpp`.

Any number of threads call `log`; one thread, `background_write`, takes the queue and prints it; the
destructor clears `running_` and joins that thread.  A run is a list of labels, each of which lets one
of them take one step: a step of a caller between two of its synchronisations, a step of the writer,
or the destructor's store to `running_`.

Lines are moved and never copied, so what has been printed, what is being printed and what is queued
is at all times what has been enqueued, in that order.  What can be lost is a queue that nobody takes
any more: the writer tests `running_` before it waits, and not whether the queue is empty.
-/
import LightNet.Foundation.Decimal
import LightNet.Foundation.Run
import Mathlib.Logic.Function.Basic

namespace LightNet.Log

open LightNet.Foundation

/-! ## The class -/

/-- `lightnet::LogLevel`. -/
inductive LogLevel where
  | kTrace
  | kDebug
  | kInfo
  | kWarn
  | kError
  deriving DecidableEq, Repr

namespace LogLevel

/-- The number of a level. -/
def value : LogLevel → Nat
  | kTrace => 0
  | kDebug => 1
  | kInfo => 2
  | kWarn => 3
  | kError => 4

/-- `log_level_string(level)`. -/
def string : LogLevel → Bytes
  | kTrace => literal "TRACE"
  | kDebug => literal "DEBUG"
  | kInfo => literal "INFO"
  | kWarn => literal "WARN"
  | kError => literal "ERROR"

end LogLevel

/-- The arguments of a call of `log`. -/
structure Message where
  level : LogLevel
  file : Bytes
  line : Nat
  text : Bytes
  deriving DecidableEq

/-- What the clock says: the local date and time as `put_time` writes it, and the milliseconds. -/
structure Now where
  date : Bytes
  ms : Nat
  deriving DecidableEq

/-- The line that `log` enqueues. -/
def Message.format (m : Message) (now : Now) : Bytes :=
  now.date ++ literal "." ++ [digit (now.ms / 100), digit (now.ms / 10), digit now.ms]
    ++ literal " [" ++ m.level.string ++ literal "] " ++ m.file ++ literal ":" ++ decimal m.line
    ++ literal " " ++ m.text

/-- Where `background_write` is: before its test of `running_`, before it takes the lock, in
`wait_for`, at a line of its batch, or past its loop. -/
inductive Writer where
  | test
  | lock
  | wait
  | print (batch : List Bytes)
  | exited
  deriving DecidableEq

/-- The lines that have been swapped out and not printed. -/
def Writer.batch : Writer → List Bytes
  | print batch => batch
  | _ => []

/-- `lightnet::Logger` and what its thread has written to `std::cout`. -/
structure Logger where
  level : LogLevel := .kInfo
  queue : List Bytes := []
  running : Bool := true
  writer : Writer := .test
  printed : List Bytes := []

namespace Logger

/-- The predicate of `wait_for`. -/
def awake (l : Logger) : Bool := !l.queue.isEmpty || !l.running

/-- `batch.swap(queue_)`, under the lock. -/
def swap (l : Logger) : Logger := { l with queue := [], writer := .print l.queue }

/-- The next step of `background_write`.  A wait that is woken tests its predicate again, one that has
`timedOut` goes on whatever the predicate says. -/
def backgroundWrite (l : Logger) (timedOut : Bool) : Logger :=
  match l.writer with
  | .test => { l with writer := if l.running then .lock else .exited }
  | .lock => if l.awake then l.swap else { l with writer := .wait }
  | .wait => if l.awake || timedOut then l.swap else l
  | .print [] => { l with writer := .test }
  | .print (line :: batch) => { l with printed := l.printed ++ [line], writer := .print batch }
  | .exited => l

end Logger

/-! ## The threads -/

/-- Where a thread is in its call of `log`: not in one, before the lock, or behind it. -/
inductive Caller where
  | idle
  | formatting (m : Message)
  | pushed
  deriving DecidableEq

/-- The logger, the threads that use it, whether `~Logger` has begun, and the lines enqueued so far. -/
structure World (τ : Type) where
  logger : Logger := {}
  callers : τ → Caller := fun _ => .idle
  destroying : Bool := false
  enqueued : List Bytes := []

/-- One step: of thread `t` in `log`, of a thread that calls `set_level`, of the writer, or of the
destructor.  A notification only wakes the writer, which it may be at any time. -/
inductive Label (τ : Type) where
  | enter (t : τ) (m : Message)
  | push (t : τ) (now : Now)
  | notify (t : τ)
  | setLevel (level : LogLevel)
  | write (timedOut : Bool)
  | destroy
  deriving DecidableEq

/-- The step is one of the writer. -/
def Label.isWrite {τ : Type} : Label τ → Bool
  | write _ => true
  | _ => false

namespace World

variable {τ : Type} [DecidableEq τ]

/-- What the step does. -/
def step (s : World τ) : Label τ → World τ
  | .enter t m =>
      if m.level.value < s.logger.level.value then s
      else { s with callers := Function.update s.callers t (.formatting m) }
  | .push t now =>
      match s.callers t with
      | .formatting m =>
          { s with
            logger := { s.logger with queue := s.logger.queue ++ [m.format now] }
            callers := Function.update s.callers t .pushed
            enqueued := s.enqueued ++ [m.format now] }
      | _ => s
  | .notify t =>
      match s.callers t with
      | .pushed => { s with callers := Function.update s.callers t .idle }
      | _ => s
  | .setLevel level => { s with logger := { s.logger with level } }
  | .write timedOut => { s with logger := s.logger.backgroundWrite timedOut }
  | .destroy => { s with logger := { s.logger with running := false }, destroying := true }

/-- All calls of `log` have returned before `~Logger` begins, and none begins after it. -/
def Allowed (s : World τ) : Label τ → Prop
  | .enter t _ => s.destroying = false ∧ s.callers t = .idle
  | .destroy => s.destroying = false ∧ ∀ t, s.callers t = .idle
  | _ => True

/-- `join` has returned. -/
def Joined (s : World τ) : Prop := s.destroying = true ∧ s.logger.writer = .exited

/-- The writer will take the queue once more, or need not: the queue is empty, or `running_` has been
tested and the queue has not been swapped out since. -/
def Caught (s : World τ) : Prop :=
  s.logger.queue = [] ∨ s.logger.writer = .lock ∨ s.logger.writer = .wait

instance (s : World τ) : Decidable s.Caught := inferInstanceAs (Decidable (_ ∨ _ ∨ _))

/-! ## What the writer does -/

end World

namespace Logger

theorem swap_conserves (l : Logger) :
    l.swap.printed ++ (l.swap.writer.batch ++ l.swap.queue) = l.printed ++ l.queue :=
  congrArg (l.printed ++ ·) (List.append_nil l.queue)

/-- Nothing is lost or repeated on the way from the queue to the output. -/
theorem backgroundWrite_conserves (l : Logger) (timedOut : Bool) :
    (l.backgroundWrite timedOut).printed
        ++ ((l.backgroundWrite timedOut).writer.batch ++ (l.backgroundWrite timedOut).queue)
      = l.printed ++ (l.writer.batch ++ l.queue) := by
  unfold backgroundWrite
  cases hw : l.writer with
  | test =>
      show l.printed ++ ((if l.running then Writer.lock else .exited).batch ++ l.queue) = _
      split <;> rfl
  | lock =>
      show Logger.printed (if _ then _ else _) ++ _ = _
      split
      · exact l.swap_conserves
      · rfl
  | wait =>
      show Logger.printed (if _ then _ else _) ++ _ = _
      split
      · exact l.swap_conserves
      · rw [hw]
  | print batch =>
      cases batch with
      | nil => rfl
      | cons line batch => simp [Writer.batch]
  | exited => simp only [hw]

theorem backgroundWrite_running (l : Logger) (timedOut : Bool) :
    (l.backgroundWrite timedOut).running = l.running := by
  unfold backgroundWrite
  split
  · rfl
  · split <;> rfl
  · split <;> rfl
  · rfl
  · rfl
  · rfl

/-- The writer leaves its loop only when `running_` is clear. -/
theorem backgroundWrite_alive {l : Logger} (hrunning : l.running = true) (hw : l.writer ≠ .exited)
    (timedOut : Bool) : (l.backgroundWrite timedOut).writer ≠ .exited := by
  unfold backgroundWrite
  split
  · rw [hrunning]
    exact Writer.noConfusion
  · split <;> exact Writer.noConfusion
  · rename_i hwait
    split
    · exact Writer.noConfusion
    · exact hw
  · exact Writer.noConfusion
  · exact Writer.noConfusion
  · exact hw

/-- Once `running_` is clear, a step of the writer does not change whether it takes the queue. -/
theorem backgroundWrite_caught {l : Logger} (hrunning : l.running = false) (timedOut : Bool) :
    ((l.backgroundWrite timedOut).queue = [] ∨ (l.backgroundWrite timedOut).writer = .lock
        ∨ (l.backgroundWrite timedOut).writer = .wait)
      ↔ (l.queue = [] ∨ l.writer = .lock ∨ l.writer = .wait) := by
  have hawake : l.awake = true := by simp [awake, hrunning]
  unfold backgroundWrite
  cases hw : l.writer with
  | test => simp [hrunning]
  | lock | wait => simp [hawake, swap]
  | print batch => cases batch <;> simp
  | exited => simp [hw]

/-- The number of steps that are left to the writer when `running_` is clear. -/
def stepsLeft (l : Logger) : Nat :=
  match l.writer with
  | .test => 1
  | .lock | .wait => l.queue.length + 3
  | .print batch => batch.length + 2
  | .exited => 0

theorem exited_of_stepsLeft {l : Logger} (h : l.stepsLeft = 0) : l.writer = .exited := by
  unfold stepsLeft at h
  split at h
  · omega
  · omega
  · omega
  · omega
  · assumption

theorem backgroundWrite_stepsLeft {l : Logger} (hrunning : l.running = false) (timedOut : Bool) :
    (l.backgroundWrite timedOut).stepsLeft = l.stepsLeft - 1 := by
  have hawake : l.awake = true := by simp [awake, hrunning]
  unfold backgroundWrite
  cases hw : l.writer with
  | test => simp [hrunning, stepsLeft, hw]
  | lock | wait => simp [hawake, swap, stepsLeft, hw]
  | print batch => cases batch <;> simp [stepsLeft, hw]
  | exited => simp [stepsLeft, hw]

end Logger

/-! ## Every interleaving -/

namespace World

variable {τ : Type}

/-- What holds at all times.  Once `~Logger` has begun, no thread is in `log`. -/
structure Inv (s : World τ) : Prop where
  conserved : s.logger.printed ++ (s.logger.writer.batch ++ s.logger.queue) = s.enqueued
  alive : s.destroying = false → s.logger.running = true ∧ s.logger.writer ≠ .exited
  stopping : s.destroying = true → s.logger.running = false ∧ ∀ t, s.callers t = .idle

theorem start_inv : ({} : World τ).Inv where
  conserved := rfl
  alive _ := ⟨rfl, Writer.noConfusion⟩
  stopping h := absurd h Bool.noConfusion

/-- When the thread has been joined, all lines have been printed unless some are still queued. -/
theorem printed_eq_iff_of_joined {s : World τ} (h : s.Inv) (hjoined : s.Joined) :
    s.logger.printed = s.enqueued ↔ s.Caught := by
  have hconserved := h.conserved
  rw [hjoined.2] at hconserved
  have hqueue : s.logger.printed = s.enqueued ↔ s.logger.queue = [] := by
    rw [← hconserved]
    exact List.self_eq_append_right
  rw [hqueue, Caught, hjoined.2]
  simp

variable [DecidableEq τ]

theorem step_inv {s : World τ} (h : s.Inv) {l : Label τ} (hok : s.Allowed l) : (s.step l).Inv := by
  cases l with
  | enter t m =>
      obtain ⟨hlive, -⟩ := hok
      rw [step]
      split
      · exact h
      · exact ⟨h.conserved, h.alive, fun hdestroying => absurd hdestroying (by simp [hlive])⟩
  | push t now =>
      rw [step]
      split
      · rename_i m hcaller
        refine ⟨?_, h.alive, fun hdestroying => ?_⟩
        · show _ ++ (_ ++ (_ ++ _)) = s.enqueued ++ [m.format now]
          rw [← h.conserved]
          simp only [List.append_assoc]
        · -- a thread that is about to enqueue keeps the destructor from beginning
          have hidle := (h.stopping hdestroying).2 t
          rw [hcaller] at hidle
          cases hidle
      · exact h
  | notify t =>
      rw [step]
      split
      · refine ⟨h.conserved, h.alive, fun hdestroying => ?_⟩
        obtain ⟨hrunning, hidle⟩ := h.stopping hdestroying
        refine ⟨hrunning, fun u => ?_⟩
        show Function.update s.callers t .idle u = .idle
        rcases eq_or_ne u t with rfl | hne
        · exact Function.update_self _ _ _
        · rw [Function.update_of_ne hne]
          exact hidle u
      · exact h
  | setLevel level => exact ⟨h.conserved, h.alive, h.stopping⟩
  | write timedOut =>
      refine ⟨?_, fun hlive => ?_, fun hdestroying => ?_⟩
      · exact (Logger.backgroundWrite_conserves _ _).trans h.conserved
      · obtain ⟨hrunning, hwriter⟩ := h.alive hlive
        exact ⟨(Logger.backgroundWrite_running _ _).trans hrunning,
          Logger.backgroundWrite_alive hrunning hwriter timedOut⟩
      · obtain ⟨hrunning, hidle⟩ := h.stopping hdestroying
        exact ⟨(Logger.backgroundWrite_running _ _).trans hrunning, hidle⟩
  | destroy =>
      refine ⟨h.conserved, fun hlive => ?_, fun _ => ⟨rfl, hok.2⟩⟩
      exact absurd hlive Bool.noConfusion

/-- **At all times** what has been printed, is being printed and is queued is what has been enqueued. -/
theorem run_inv {is : List (Label τ)} (hallowed : Admissible step Allowed ({} : World τ) is) :
    (run step ({} : World τ) is).Inv :=
  have hstep : ∀ s l, Inv s → Allowed s l → (step s l).Inv := fun _ _ h hok => step_inv h hok
  run_invariant hstep start_inv hallowed

/-! ## Lines that are caught -/

/-- Where it is decided whether the last lines are printed: at the destructor's store. -/
theorem caught_step {s : World τ} (h : s.Inv) {l : Label τ} (hok : s.Allowed l) :
    ((s.step l).destroying = true → (s.step l).Caught)
      ↔ (s.destroying = true → s.Caught) ∧ (l = .destroy → s.Caught) := by
  by_cases hdestroy : l = .destroy
  · subst hdestroy
    have hlive : ¬ s.destroying = true := by simp [hok.1]
    constructor
    · intro hcaught
      exact ⟨fun hdestroying => absurd hdestroying hlive, fun _ => hcaught rfl⟩
    · rintro ⟨-, hcaught⟩ -
      exact hcaught rfl
  · have hsame : (s.step l).destroying = s.destroying := by
      cases l with
      | enter t m | push t now | notify t => rw [step]; split <;> rfl
      | setLevel level | write timedOut => rfl
      | destroy => exact absurd rfl hdestroy
    have hcaught : s.destroying = true → ((s.step l).Caught ↔ s.Caught) := by
      intro hdestroying
      obtain ⟨hrunning, hidle⟩ := h.stopping hdestroying
      cases l with
      | enter t m => exact absurd hdestroying (by simp [hok.1])
      | push t now | notify t => simp only [step, hidle]
      | setLevel level => exact Iff.rfl
      | write timedOut => exact Logger.backgroundWrite_caught hrunning timedOut
      | destroy => exact absurd rfl hdestroy
    rw [hsame]
    constructor
    · intro himp
      exact ⟨fun hdestroying => (hcaught hdestroying).mp (himp hdestroying),
        fun heq => absurd heq hdestroy⟩
    · rintro ⟨himp, -⟩ hdestroying
      exact (hcaught hdestroying).mpr (himp hdestroying)

/-- Along a run, on the number of its steps. -/
theorem caught_run {s : World τ} (h : s.Inv) {is : List (Label τ)}
    (hallowed : Admissible step Allowed s is) :
    ((run step s is).destroying = true → (run step s is).Caught)
      ↔ (s.destroying = true → s.Caught)
          ∧ Admissible step (fun s l => l = .destroy → s.Caught) s is := by
  induction is generalizing s with
  | nil => exact (and_iff_left trivial).symm
  | cons l is ih =>
      rw [run_cons, ih (step_inv h hallowed.1) hallowed.2, caught_step h hallowed.1, and_assoc]
      rfl

/-- **When no line is lost.** For any number of threads and every interleaving in which all calls of
`log` have returned before `~Logger` begins: when `join` returns, the lines printed are the lines
enqueued, in that order and each once, if and only if at the moment `~Logger` clears `running_` the
queue is empty, or the writer has tested `running_` and not swapped the queue out since. -/
theorem printed_eq_enqueued_iff (is : List (Label τ))
    (hallowed : Admissible step Allowed ({} : World τ) is)
    (hjoined : (run step ({} : World τ) is).Joined) :
    (run step ({} : World τ) is).logger.printed = (run step ({} : World τ) is).enqueued
      ↔ Admissible step (fun s l => l = .destroy → s.Caught) ({} : World τ) is := by
  have hrun := caught_run start_inv hallowed
  rw [printed_eq_iff_of_joined (run_inv hallowed) hjoined]
  constructor
  · intro hcaught
    exact (hrun.mp fun _ => hcaught).2
  · intro hok
    exact hrun.mpr ⟨fun h => absurd h Bool.noConfusion, hok⟩ hjoined.1

/-- Two lines. -/
def first : Message := ⟨.kInfo, literal "main.cpp", 7, literal "ready"⟩

/-- Another message. -/
def second : Message := ⟨.kError, literal "main.cpp", 9, literal "no such user"⟩

/-- A reading of the clock. -/
def noon : Now := ⟨literal "2024-01-01 12:00:00", 0⟩

/-- A thread logs a line, and the writer takes it before the destructor begins. -/
def taken : List (Label Unit) :=
  [.enter () first, .push () noon, .notify (), .write false, .write false, .destroy, .write false,
    .write false, .write false]

theorem printed_eq_enqueued_iff_sample :
    (run step ({} : World Unit) taken).logger.printed = [first.format noon] := by
  have hcaught : Admissible step (fun s l => l = .destroy → s.Caught) ({} : World Unit) taken := by
    decide +kernel
  refine (printed_eq_enqueued_iff taken ?_ ⟨rfl, rfl⟩).mpr hcaught
  exact ⟨⟨rfl, rfl⟩, trivial, trivial, trivial, trivial, ⟨rfl, fun _ => rfl⟩, trivial, trivial, trivial,
    trivial⟩

/-- The second line is enqueued, and the destructor begins, while the writer prints the first. -/
def lost : List (Label Unit) :=
  [.write false, .write false, .enter () first, .push () noon, .notify (), .write false,
    .enter () second, .push () noon, .notify (), .destroy, .write false, .write false, .write false]

theorem line_lost :
    Admissible step Allowed ({} : World Unit) lost ∧ (run step ({} : World Unit) lost).Joined
      ∧ (run step ({} : World Unit) lost).logger.printed
          ≠ (run step ({} : World Unit) lost).enqueued := by
  refine ⟨?_, ⟨rfl, rfl⟩, by decide +kernel⟩
  exact ⟨trivial, trivial, ⟨rfl, rfl⟩, trivial, trivial, trivial, ⟨rfl, rfl⟩, trivial, trivial,
    ⟨rfl, fun _ => rfl⟩, trivial, trivial, trivial, trivial⟩

/-! ## The join -/

/-- **The join returns**: whatever the other threads do, once the writer has taken the steps that are
left to it. -/
theorem joined_of_steps {s : World τ} (h : s.Inv) (hdestroying : s.destroying = true)
    {is : List (Label τ)} (hallowed : Admissible step Allowed s is)
    (hsteps : s.logger.stepsLeft ≤ is.countP Label.isWrite) : (run step s is).Joined := by
  induction is generalizing s with
  | nil =>
      refine ⟨hdestroying, ?_⟩
      exact Logger.exited_of_stepsLeft (Nat.le_zero.mp hsteps)
  | cons l is ih =>
      obtain ⟨hrunning, hidle⟩ := h.stopping hdestroying
      have hnext := step_inv h hallowed.1
      have hstay : s.step l = s → l.isWrite = false → (run step s (l :: is)).Joined := by
        intro hsame hcaller
        rw [List.countP_cons_of_neg (by simp [hcaller])] at hsteps
        rw [Admissible, hsame] at hallowed
        rw [run_cons, hsame]
        exact ih h hdestroying hallowed.2 hsteps
      cases l with
      | enter t m => exact absurd hdestroying (by simp [hallowed.1.1])
      | push t now | notify t => exact hstay (by rw [step, hidle]) rfl
      | setLevel level => exact ih hnext hdestroying hallowed.2 hsteps
      | write timedOut =>
          refine ih hnext hdestroying hallowed.2 ?_
          have hless := Logger.backgroundWrite_stepsLeft hrunning timedOut
          show (s.logger.backgroundWrite timedOut).stepsLeft ≤ _
          rw [hless]
          rw [List.countP_cons_of_pos rfl] at hsteps
          omega
      | destroy => exact absurd hdestroying (by simp [hallowed.1.1])

end World

end LightNet.Log
