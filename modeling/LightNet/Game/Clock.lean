/-
# LightNet.Game.Clock — the match clock.

A tick adds its length to an accumulator and moves whole seconds from there to the clock, as many as
have come together and as long as there are any left.  What the accumulator and the clock say together
is the number of ticks times their length, and so neither drifts.
-/
import LightNet.Game.Exact
import LightNet.Game.Frozen

namespace LightNet.Game

open LightNet.Foundation LightNet.Net
open GameRoomManager (tickSeconds)

namespace GameRoom

/-! ## The loop -/

/-- **The loop.** Whole seconds go from the accumulator to the clock, until less than one is left or
the clock has run down. -/
theorem runClock_exact {n : Nat} {accum : ℝ} {timeLeft : UInt32} (hn : timeLeft.toNat = n)
    (haccum : 0 ≤ accum) :
    let after := runClock n accum timeLeft
    0 ≤ after.1 ∧ after.1 - after.2.toNat = accum - timeLeft.toNat
      ∧ after.2.toNat ≤ timeLeft.toNat ∧ (after.1 < 1 ∨ after.2 = 0) := by
  induction n generalizing accum timeLeft with
  | zero => exact ⟨haccum, rfl, le_rfl, .inr (UInt32.toNat_inj.mp hn)⟩
  | succ n ih =>
      have hpos : 0 < timeLeft := UInt32.lt_iff_toNat_lt.mpr (by rw [hn]; exact Nat.succ_pos n)
      rw [runClock]
      by_cases hone : 1 ≤ accum
      · have hturn : (FloatArith.le 1.0 accum && decide (timeLeft > 0)) = true := by
          rw [le_exact, decide_eq_true (by norm_num; exact hone), decide_eq_true hpos]
          rfl
        have hpred : (timeLeft - 1).toNat = n := by
          have hle : 1 ≤ timeLeft := UInt32.le_iff_toNat_le.mpr (by rw [hn]; exact Nat.succ_pos n)
          rw [UInt32.toNat_sub_of_le _ _ hle, hn]
          rfl
        have hrest : 0 ≤ accum - 1.0 := by
          norm_num
          exact hone
        obtain ⟨hnonneg, hsum, hle, hend⟩ := ih hpred hrest
        rw [if_pos hturn]
        refine ⟨hnonneg, ?_, ?_, hend⟩
        · rw [hsum, hpred, hn]
          push_cast
          norm_num
          ring
        · rw [hpred] at hle
          rw [hn]
          exact Nat.le_succ_of_le hle
      · have hstop : ¬(FloatArith.le 1.0 accum && decide (timeLeft > 0)) = true := by
          rw [le_exact, decide_eq_false (by norm_num; exact not_le.mp hone)]
          exact Bool.false_ne_true
        rw [if_neg hstop]
        exact ⟨haccum, rfl, le_rfl, .inl (not_le.mp hone)⟩

/-! ## The invariant -/

/-- The clock after `n` ticks. -/
structure Clocked (room : GameRoom ℝ) (n : Nat) : Prop where
  timed : room.Timed
  time_le : room.timeLeftSec.toNat ≤ 300
  accum_nonneg : 0 ≤ room.matchAccum
  /-- As long as the match goes on, less than a second is in the accumulator, and nothing is lost. -/
  running : room.matchOver = false → room.matchAccum < 1
    ∧ room.matchAccum + (300 - room.timeLeftSec.toNat) = n * (tickSeconds room.tickIntervalMs : ℝ)
  stopped : room.matchOver = true → 300 ≤ n * (tickSeconds room.tickIntervalMs : ℝ)

variable {room : GameRoom ℝ} {n : Nat}

theorem clocked_new (roomId tickIntervalMs : UInt32) :
    (GameRoom.new roomId tickIntervalMs : GameRoom ℝ).Clocked 0 where
  timed := timed_new roomId tickIntervalMs
  time_le := le_rfl
  accum_nonneg := show (0 : ℝ) ≤ 0.0 by norm_num
  running _ := by
    have hfull : (300 : UInt32).toNat = 300 := rfl
    show (0.0 : ℝ) < 1 ∧ (0.0 : ℝ) + (300 - (300 : UInt32).toNat) = (0 : Nat) * _
    rw [hfull]
    norm_num
  stopped h := absurd h Bool.false_ne_true

/-- Only the clock matters, and its accumulator. -/
theorem Clocked.congr (h : room.Clocked n) {room' : GameRoom ℝ}
    (hinterval : room'.tickIntervalMs = room.tickIntervalMs)
    (htime : room'.timeLeftSec = room.timeLeftSec) (haccum : room'.matchAccum = room.matchAccum)
    (hover : room'.matchOver = room.matchOver) : room'.Clocked n where
  timed := by
    rw [Timed, hover, htime]
    exact h.timed
  time_le := htime ▸ h.time_le
  accum_nonneg := haccum ▸ h.accum_nonneg
  running := by
    rw [hover, haccum, htime, hinterval]
    exact h.running
  stopped := by
    rw [hover, hinterval]
    exact h.stopped

/-- **One tick of the clock.** -/
theorem Clocked.advance (h : room.Clocked n) :
    (room.advanceClock (tickSeconds room.tickIntervalMs)).Clocked (n + 1) := by
  have hdt := tickSeconds_nonneg room.tickIntervalMs
  cases hover : room.matchOver with
  | true =>
      rw [advanceClock_of_over hover]
      refine { h with running := ?_, stopped := ?_ }
      · intro hmatch
        rw [hover] at hmatch
        cases hmatch
      · intro _
        have hlong := h.stopped hover
        push_cast
        linarith
  | false =>
      obtain ⟨-, hsum⟩ := h.running hover
      have haccum := h.accum_nonneg
      have hfuel : room.timeLeftSec.toNat = room.timeLeftSec.toNat := rfl
      obtain ⟨hnonneg, hkept, hle, hend⟩ := runClock_exact hfuel (add_nonneg haccum hdt)
      have htimed := timed_advanceClock h.timed (tickSeconds room.tickIntervalMs)
      rw [advanceClock, if_neg (by rw [hover]; exact Bool.false_ne_true)] at htimed ⊢
      dsimp only at htimed ⊢
      generalize runClock room.timeLeftSec.toNat
        (room.matchAccum + tickSeconds room.tickIntervalMs) room.timeLeftSec = after at *
      have htotal : after.1 + (300 - after.2.toNat)
          = (n + 1 : Nat) * (tickSeconds room.tickIntervalMs : ℝ) := by
        push_cast
        linarith
      constructor
      · exact htimed
      · exact hle.trans h.time_le
      · exact hnonneg
      · intro hmatch
        have hleft : after.2 ≠ 0 := by simpa using hmatch
        exact ⟨hend.resolve_right hleft, htotal⟩
      · intro hmatch
        have hleft : after.2 = 0 := by simpa using hmatch
        show 300 ≤ (n + 1 : Nat) * (tickSeconds room.tickIntervalMs : ℝ)
        rw [← htotal, hleft]
        simpa using hnonneg

/-- **One operation.** -/
theorem Clocked.perform (h : room.Clocked n) (op : Op ℝ) :
    (room.perform op).Clocked (n + if op.isTick then 1 else 0) := by
  cases htick : op.isTick with
  | false =>
      rw [perform_players htick]
      exact h.congr rfl rfl rfl rfl
  | true =>
      obtain ⟨ord, rfl⟩ := op.exists_of_isTick htick
      have hstart : ({ room with serverTick := room.serverTick + 1 } : GameRoom ℝ).Clocked n :=
        h.congr rfl rfl rfl rfl
      exact hstart.advance.congr rfl rfl rfl rfl

theorem clocked_run (roomId tickIntervalMs : UInt32) (ops : List (Op ℝ)) :
    (run perform (GameRoom.new roomId tickIntervalMs) ops).Clocked (ticks ops) := by
  induction ops using List.reverseRecOn with
  | nil => exact clocked_new roomId tickIntervalMs
  | append_singleton ops op ih =>
      rw [run_append, ticks, List.countP_append, List.countP_singleton]
      exact ih.perform op

/-- The match is over when the ticks fill it. -/
theorem Clocked.matchOver_iff (h : room.Clocked n) :
    room.matchOver = true ↔ 300 ≤ n * (tickSeconds room.tickIntervalMs : ℝ) := by
  refine ⟨h.stopped, fun hlong => ?_⟩
  by_contra hover
  obtain ⟨hless, hsum⟩ := h.running (Bool.not_eq_true _ ▸ hover)
  have hleft : room.timeLeftSec.toNat ≠ 0 := fun hzero => hover (h.timed.mpr (UInt32.toNat_inj.mp hzero))
  have hpos : (1 : ℝ) ≤ room.timeLeftSec.toNat := by exact_mod_cast Nat.one_le_iff_ne_zero.mpr hleft
  linarith

/-! ## The contract -/

/-- **The match clock is exact.** Whatever else happens between the ticks, after `n` of them `n * d`
milliseconds have gone: the clock shows the whole seconds that are left of 300, and the match is over
exactly when none are. -/
theorem clock_exact (roomId d : UInt32) (ops : List (Op ℝ)) :
    let room : GameRoom ℝ := run perform (GameRoom.new roomId d) ops
    room.timeLeftSec.toNat = 300 - min 300 (ticks ops * d.toNat / 1000)
      ∧ (room.matchOver = true ↔ 300000 ≤ ticks ops * d.toNat) := by
  intro room
  have h : room.Clocked (ticks ops) := clocked_run roomId d ops
  have hinterval : room.tickIntervalMs = d := tickIntervalMs_run _ ops
  have hover : room.matchOver = true ↔ 300000 ≤ ticks ops * d.toNat := by
    rw [h.matchOver_iff, hinterval, tickSeconds_exact, ← mul_div_assoc, le_div_iff₀ (by norm_num)]
    norm_num only
    exact_mod_cast Iff.rfl
  refine ⟨?_, hover⟩
  cases hmatch : room.matchOver with
  | true =>
      have hlong := hover.mp hmatch
      have hsec : room.timeLeftSec.toNat = 0 := congrArg UInt32.toNat (h.timed.mp hmatch)
      omega
  | false =>
      obtain ⟨hless, hsum⟩ := h.running hmatch
      have htime := h.time_le
      have hnonneg := h.accum_nonneg
      rw [hinterval, tickSeconds_exact] at hsum
      -- the whole seconds that have gone
      have hlow : 1000 * (300 - room.timeLeftSec.toNat) ≤ ticks ops * d.toNat := by
        have hle : ((1000 * (300 - room.timeLeftSec.toNat) : Nat) : ℝ)
            ≤ (ticks ops * d.toNat : Nat) := by
          push_cast [Nat.cast_sub htime]
          linarith
        exact_mod_cast hle
      have hhigh : ticks ops * d.toNat < 1000 * (300 - room.timeLeftSec.toNat) + 1000 := by
        have hlt : ((ticks ops * d.toNat : Nat) : ℝ)
            < (1000 * (300 - room.timeLeftSec.toNat) + 1000 : Nat) := by
          push_cast [Nat.cast_sub htime]
          linarith
        exact_mod_cast hlt
      omega

end GameRoom

end LightNet.Game
