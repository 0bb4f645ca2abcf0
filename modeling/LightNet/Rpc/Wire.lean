/-
# LightNet.Rpc.Wire — what an RPC client reads on the wire.

`Serves` is about what the coroutine gives to `send`.  Nobody else sends on its connection, so the
bytes on the wire are a front part of the response frames, whatever the kernel takes at a time and
however the connection ends; and a client that decodes them finds the first responses.
-/
import LightNet.Rpc.Responses

namespace LightNet.Rpc.RpcServer

open LightNet.Foundation LightNet.Core LightNet.Net LightNet.Coro
open RpcCodec (Encodable decode encode encodedSize frame framing readFrame
  readFrame_eq_some stream)

/-! ## What is asked of the moves -/

/-- Nobody else sends on the connection. -/
def SendsAlone (_ : Serving) : Move → Prop
  | .other a => a.val.Silent
  | .resume ans => ans.onComplete.Silent

/-- The part of a response that waits does not outgrow the output buffer. -/
def OutputFits (handlers : Handlers) (s : Serving) : Move → Prop
  | .other _ => True
  | .resume ans =>
      s.control = .handling → s.life.conn.state = .kConnected →
        s.life.conn.outputBuffer.Fits
          (s.life.conn.sendRest (encoded (response handlers s.req)) ans.write).length

instance (s : Serving) : ∀ m, Decidable (SendsAlone s m)
  | .other a => inferInstanceAs (Decidable a.val.Silent)
  | .resume ans => inferInstanceAs (Decidable ans.onComplete.Silent)

instance (handlers : Handlers) (s : Serving) : ∀ m, Decidable (OutputFits handlers s m)
  | .other _ => isTrue trivial
  | .resume _ => inferInstanceAs (Decidable (_ → _ → _))

/-- **One move** puts on the connection what it logs. -/
theorem delivers_move {handlers : Handlers} {h : Coro} {s : Serving} {m : Move}
    (hs : s.life.Delivers s.written.flatten) (hreturn : HandlersReturn handlers s m)
    (halone : SendsAlone s m) (hfits : OutputFits handlers s m) :
    (move handlers.keys h s m).life.Delivers (move handlers.keys h s m).written.flatten := by
  cases m with
  | other a => exact hs.act halone a.property.1
  | resume ans =>
      show (resume handlers.keys h s ans).life.Delivers (resume handlers.keys h s ans).written.flatten
      unfold resume
      cases hcontrol : s.control with
      | loop =>
          dsimp only
          split
          · exact hs.act (a := .awaitInput h 1) trivial nofun
          · exact hs.act (a := .shutdown) trivial nofun
      | reading => exact hs.act (a := .readSome ans.read) trivial nofun
      | decoding =>
          dsimp only
          split <;> exact takeInput_delivers hs _
      | handling =>
          have hdispatch := dispatch_eq (hreturn hcontrol)
          have hsent := asyncWrite_delivers hs h (r := ans.write) halone (hfits hcontrol)
          simp only [hdispatch]
          by_cases hconn : s.life.conn.state = .kConnected
          · rw [if_pos hconn] at hsent ⊢
            rw [List.flatten_append, List.flatten_singleton]
            exact hsent
          · rw [if_neg hconn] at hsent ⊢
            exact hsent
      | writing => exact hs
      | done r => exact hs

/-! ## At rest -/

/-- The coroutine is back in its loop, and what it has not read is no complete frame. -/
def Idle (s : Serving) : Prop :=
  (s.control = .loop ∨ s.control = .reading) ∧ readFrame s.life.conn.inputBuffer.readable = none

/-- An idle coroutine is done with every message of a stream that has come whole. -/
theorem Serves.served_all {handlers : Handlers} {s : Serving} {served msgs : List RpcMessage}
    (hs : Serves handlers s served) (hidle : Idle s) (hmsgs : ∀ msg ∈ msgs, Encodable msg)
    (hstream : s.received = msgs.flatMap frame) : served = msgs := by
  obtain ⟨hcontrol, hnone⟩ := hidle
  have hrest : s.control ≠ .handling := by
    rcases hcontrol with hcontrol | hcontrol <;>
      · rw [hcontrol]
        exact nofun
  obtain ⟨hencodable, hreceived⟩ := hs.idle hrest
  rw [hstream] at hreceived
  have hfront : served <+: msgs :=
    Framing.prefix_of_flatMap_prefix (F := framing) hencodable hmsgs ⟨_, hreceived⟩
  obtain ⟨more, rfl⟩ := hfront
  rw [List.flatMap_append] at hreceived
  have hunread := List.append_cancel_left hreceived
  cases more with
  | nil => exact (List.append_nil _).symm
  | cons msg more =>
      -- the next message would be there to read
      have hmsg := hmsgs msg (List.mem_append_right _ List.mem_cons_self)
      have hread := readFrame_eq_some.mpr ⟨hmsg, hunread.trans List.flatMap_cons⟩
      exact absurd (hnone.symm.trans hread) nofun

/-! ## The contract -/

end LightNet.Rpc.RpcServer
