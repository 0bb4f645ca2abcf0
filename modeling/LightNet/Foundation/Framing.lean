/-
# LightNet.Foundation.Framing — self-delimiting messages on a byte stream.

A framing writes each message as a byte string that says itself where it ends.  From one exact
description of what the reader accepts (`read_eq_some`) it follows that collecting messages off a
growing stream is an incremental consumer, and that after *any* number of bytes of a concatenation
the messages collected are those whose last byte is among them (`run_take`).
-/
import LightNet.Foundation.Consumer
import LightNet.Foundation.LittleEndian

namespace LightNet.Foundation

/-- Messages of type `α` written as frames. -/
structure Framing (α : Type*) where
  /-- One message off the front of a byte string. -/
  read : Reader α
  frame : α → Bytes
  Encodable : α → Prop
  read_eq_some : ∀ {xs v rest}, read xs = some (v, rest) ↔ Encodable v ∧ xs = frame v ++ rest
  frame_ne_nil : ∀ v, frame v ≠ []

namespace Framing

variable {α : Type*} (F : Framing α)

theorem frame_pos (v : α) : 0 < (F.frame v).length := List.length_pos_iff.mpr (F.frame_ne_nil v)

/-- Take one more message. -/
def collect (out : List α) (xs : Bytes) : Option (List α × Bytes) :=
  (F.read xs).map fun r => (out ++ [r.1], r.2)

theorem collect_eq_some {out out' : List α} {xs ys : Bytes} :
    F.collect out xs = some (out', ys)
      ↔ ∃ v, F.Encodable v ∧ xs = F.frame v ++ ys ∧ out' = out ++ [v] := by
  simp only [collect, Option.map_eq_some_iff, Prod.mk.injEq, Prod.exists, F.read_eq_some]
  constructor
  · rintro ⟨v, rest, ⟨hv, hxs⟩, rfl, rfl⟩
    exact ⟨v, hv, hxs, rfl⟩
  · rintro ⟨v, hv, hxs, rfl⟩
    exact ⟨v, ys, ⟨hv, hxs⟩, rfl, rfl⟩

/-- Collecting messages is an incremental consumer of bytes. -/
def consumer : Consumer (List α) UInt8 where
  step := F.collect
  weight := fun _ => 0
  step_append := by
    intro s xs s' ys h zs
    obtain ⟨v, hv, rfl, rfl⟩ := F.collect_eq_some.mp h
    exact F.collect_eq_some.mpr ⟨v, hv, List.append_assoc _ _ _, rfl⟩
  step_lt := by
    intro s xs s' ys h
    obtain ⟨v, -, rfl, -⟩ := F.collect_eq_some.mp h
    have := F.frame_pos v
    simp only [List.length_append]
    omega

/-- The messages of a list that are complete after `n` bytes of their concatenation, for messages of
the given sizes. -/
def arrived (size : α → Nat) : List α → Nat → List α
  | [], _ => []
  | v :: vs, n => if size v ≤ n then v :: arrived size vs (n - size v) else []

theorem arrived_all {size : α → Nat} {vs : List α} {n : Nat} (h : (vs.map size).sum ≤ n) :
    arrived size vs n = vs := by
  induction vs generalizing n with
  | nil => rfl
  | cons v vs ih =>
      rw [List.map_cons, List.sum_cons] at h
      rw [arrived, if_pos (by omega), ih (by omega)]

variable {F}

/-! ## Reading a stream -/

theorem run_nil (out : List α) : F.consumer.run out [] = (out, []) := by
  apply Consumer.run_of_none
  cases h : F.consumer.step out [] with
  | none => rfl
  | some r => exact absurd (F.consumer.step_lt h) (by simp [consumer])

theorem run_frame {v : α} (hv : F.Encodable v) (out : List α) (rest : Bytes) :
    F.consumer.run out (F.frame v ++ rest) = F.consumer.run (out ++ [v]) rest :=
  Consumer.run_of_some (F.collect_eq_some.mpr ⟨v, hv, rfl, rfl⟩)

/-- A run takes whole frames off the front, and stops where none is left. -/
theorem run_frames (out : List α) (xs : Bytes) :
    ∃ vs rest, F.consumer.run out xs = (out ++ vs, rest) ∧ (∀ v ∈ vs, F.Encodable v)
      ∧ xs = vs.flatMap F.frame ++ rest ∧ F.read rest = none := by
  induction out, xs using Consumer.run_induction (C := F.consumer) with
  | stuck out xs h =>
      refine ⟨[], xs, ?_, by simp, rfl, ?_⟩
      · rw [Consumer.run_of_none h, List.append_nil]
      · exact Option.map_eq_none_iff.mp h
  | next out xs out' ys h ih =>
      obtain ⟨v, hv, rfl, rfl⟩ := F.collect_eq_some.mp h
      obtain ⟨vs, rest, hrun, hvs, rfl, hrest⟩ := ih
      refine ⟨v :: vs, rest, ?_, ?_, ?_, hrest⟩
      · rw [Consumer.run_of_some h, hrun, List.append_assoc]
        rfl
      · intro w hw
        rcases List.mem_cons.mp hw with rfl | hw
        · exact hv
        · exact hvs w hw
      · rw [List.flatMap_cons, List.append_assoc]

/-- A part of a stream gives the first messages of the stream. -/
theorem run_mono {xs ys : Bytes} (h : xs <+: ys) (out : List α) :
    (F.consumer.run out xs).1 <+: (F.consumer.run out ys).1 := by
  obtain ⟨zs, rfl⟩ := h
  obtain ⟨vs, rest, hrun, -⟩ := run_frames (F := F) (F.consumer.run out xs).1
    ((F.consumer.run out xs).2 ++ zs)
  rw [Consumer.run_append, hrun]
  exact List.prefix_append _ _

/-- Frames that follow each other are read back, and nothing is left. -/
theorem run_flatMap {vs : List α} (hvs : ∀ v ∈ vs, F.Encodable v) (out : List α) :
    F.consumer.run out (vs.flatMap F.frame) = (out ++ vs, []) := by
  induction vs generalizing out with
  | nil => rw [List.flatMap_nil, run_nil, List.append_nil]
  | cons v vs ih =>
      rw [List.flatMap_cons, run_frame (hvs v List.mem_cons_self),
        ih fun w hw => hvs w (List.mem_cons_of_mem _ hw), List.append_assoc]
      rfl

/-- Frames at the front of a stream of frames are the first frames of the stream. -/
theorem prefix_of_flatMap_prefix {vs ws : List α} (hvs : ∀ v ∈ vs, F.Encodable v)
    (hws : ∀ w ∈ ws, F.Encodable w) (h : vs.flatMap F.frame <+: ws.flatMap F.frame) : vs <+: ws := by
  induction vs generalizing ws with
  | nil => exact List.nil_prefix
  | cons v vs ih =>
      obtain ⟨tail, htail⟩ := h
      rw [List.flatMap_cons, List.append_assoc] at htail
      cases ws with
      | nil =>
          rw [List.flatMap_nil] at htail
          exact absurd (List.append_eq_nil_iff.mp htail).1 (F.frame_ne_nil v)
      | cons w ws =>
          rw [List.flatMap_cons] at htail
          -- the reader takes one message off the front, which is both `v` and `w`
          have hv : F.read (F.frame w ++ ws.flatMap F.frame)
              = some (v, vs.flatMap F.frame ++ tail) :=
            F.read_eq_some.mpr ⟨hvs v List.mem_cons_self, htail.symm⟩
          have hw : F.read (F.frame w ++ ws.flatMap F.frame) = some (w, ws.flatMap F.frame) :=
            F.read_eq_some.mpr ⟨hws w List.mem_cons_self, rfl⟩
          obtain ⟨rfl, hrest⟩ := Prod.mk.inj (Option.some.inj (hv.symm.trans hw))
          have htl := ih (fun x hx => hvs x (List.mem_cons_of_mem _ hx))
            (fun x hx => hws x (List.mem_cons_of_mem _ hx)) ⟨tail, hrest⟩
          exact (List.prefix_cons_inj v).mpr htl

/-! ## A front part of a stream -/

/-- A frame that has not arrived completely is not read. -/
theorem collect_partial {v : α} (hv : F.Encodable v) (out : List α) {n : Nat}
    (hn : n < (F.frame v).length) : F.collect out ((F.frame v).take n) = none := by
  cases h : F.collect out ((F.frame v).take n) with
  | none => rfl
  | some r =>
      -- with the rest of the frame appended the reader would leave that rest unread
      have happ := F.consumer.step_append h ((F.frame v).drop n)
      rw [List.take_append_drop] at happ
      have hwhole : F.collect out (F.frame v) = some (out ++ [v], []) :=
        F.collect_eq_some.mpr ⟨v, hv, (List.append_nil _).symm, rfl⟩
      have hrest := congrArg (fun r => r.2.length) (Option.some.inj (hwhole.symm.trans happ))
      simp only [List.length_nil, List.length_append, List.length_drop] at hrest
      omega

/-- **After `n` bytes exactly the complete messages have been collected**, and what is unread is the
rest of those bytes. -/
theorem run_take {vs : List α} (hvs : ∀ v ∈ vs, F.Encodable v) (out : List α) {n : Nat}
    (hn : n ≤ (vs.flatMap F.frame).length) :
    ∃ rest, F.consumer.run out ((vs.flatMap F.frame).take n)
        = (out ++ arrived (fun v => (F.frame v).length) vs n, rest)
      ∧ (arrived (fun v => (F.frame v).length) vs n).flatMap F.frame ++ rest
        = (vs.flatMap F.frame).take n := by
  induction vs generalizing out n with
  | nil =>
      refine ⟨[], ?_, by simp [arrived]⟩
      simp [arrived, run_nil]
  | cons v vs ih =>
      rw [List.flatMap_cons, List.length_append] at hn
      have hv := hvs v List.mem_cons_self
      by_cases hsize : (F.frame v).length ≤ n
      · obtain ⟨rest, hrun, hrest⟩ := ih (fun w hw => hvs w (List.mem_cons_of_mem _ hw))
          (out ++ [v]) (n := n - (F.frame v).length) (by omega)
        refine ⟨rest, ?_, ?_⟩
        · rw [List.flatMap_cons, List.take_append, List.take_of_length_le hsize, run_frame hv, hrun,
            arrived, if_pos hsize, List.append_assoc]
          rfl
        · rw [List.flatMap_cons, List.take_append, List.take_of_length_le hsize, arrived,
            if_pos hsize, List.flatMap_cons, List.append_assoc, hrest]
      · have htake : ((v :: vs).flatMap F.frame).take n = (F.frame v).take n := by
          rw [List.flatMap_cons, List.take_append_of_le_length (by omega)]
        refine ⟨(F.frame v).take n, ?_, ?_⟩
        · have hstuck : F.consumer.step out ((F.frame v).take n) = none :=
            collect_partial hv out (by omega)
          rw [htake, Consumer.run_of_none hstuck, arrived, if_neg hsize, List.append_nil]
        · rw [htake, arrived, if_neg hsize]
          rfl

end Framing

end LightNet.Foundation
