/-
# LightNet.Net.Shutdown — when a graceful shutdown cuts off accepted data.

A `write_complete_callback_` is user code that may call `send` and `shutdown` on the connection it is
called for.  One invocation is a `Callback`: the calls it makes, each `send` with the kernel's answer
and with the invocation that this send may cause in turn.

`handle_write` decides on `shutdown_write` after the callback has returned, by the state alone.  The
phases below say what an invocation leaves behind, from its calls and the kernel's answers only;
`invoke_follows` shows that the connection follows them.  The phase `truncating` is the one in which
data was queued and the state then set to `kDisconnecting`: exactly then `handle_write` shuts the
socket down over unsent data (`graceful_iff`).
-/
import LightNet.Net.Output

namespace LightNet.Net

open LightNet.Foundation LightNet.Core

/-- One invocation of `write_complete_callback_`. -/
inductive Callback where
  | done
  | send (data : Bytes) (r : WriteResult) (nested : Callback) (rest : Callback)
  | shutdown (rest : Callback)
  deriving DecidableEq

/-- What an invocation that starts connected, with nothing unsent, has come to. -/
inductive Phase where
  | flushed
  | queued
  | closing
  | truncating
  deriving DecidableEq, Repr

namespace Callback

/-- The calls, made one after the other. -/
def invoke : Callback → TcpConnection → TcpConnection
  | done, c => c
  | send data r nested rest, c => rest.invoke (c.send data r nested.invoke)
  | shutdown rest, c => rest.invoke c.shutdown

/-- The phase after the calls. -/
def after : Callback → Phase → Phase
  | done, ph => ph
  | send data r nested rest, .flushed =>
      if 0 ≤ r.ret then
        if data.length ≤ r.ret.toNat then rest.after (nested.after .flushed) else rest.after .queued
      else if r.errno ≠ EWOULDBLOCK then rest.after .closing
      else if data = [] then rest.after .flushed
      else rest.after .queued
  | send _ _ _ rest, ph => rest.after ph
  | shutdown rest, .flushed => rest.after .closing
  | shutdown rest, .queued => rest.after .truncating
  | shutdown rest, ph => rest.after ph

end Callback

namespace TcpConnection

/-! ## Runs -/

/-- A call or an event on the loop thread. -/
inductive LoopOp where
  | send (data : Bytes) (r : WriteResult) (callback : Callback)
  | shutdown
  | writable (r : WriteResult) (callback : Callback)
  | asyncWrite (h : Coro) (data : Bytes) (r : WriteResult) (callback : Callback)
  deriving DecidableEq

/-- What the operation does to the connection. -/
def loopStep (c : TcpConnection) : LoopOp → TcpConnection
  | .send data r callback => c.send data r callback.invoke
  | .shutdown => c.shutdown
  | .writable r callback => c.handleWrite r callback.invoke
  | .asyncWrite h data r callback => c.asyncWriteSuspend h data r callback.invoke

/-- Every append that the calls make fits the output buffer. -/
def CallbackFits : Callback → TcpConnection → Prop
  | .done, _ => True
  | .send data r nested rest, c =>
      (c.state = .kConnected →
        (¬ c.SendFails r → c.outputBuffer.Fits (c.sendRest data r).length)
          ∧ (c.SendCompletes data r → CallbackFits nested (c.wrote data)))
        ∧ CallbackFits rest (c.send data r nested.invoke)
  | .shutdown rest, c => CallbackFits rest c.shutdown

/-- A callback fits or not, call by call. -/
def CallbackFits.decidable : (cb : Callback) → (c : TcpConnection) → Decidable (CallbackFits cb c)
  | .done, _ => isTrue trivial
  | .send data r nested rest, c =>
      have := CallbackFits.decidable nested (c.wrote data)
      have := CallbackFits.decidable rest (c.send data r nested.invoke)
      inferInstanceAs (Decidable ((_ → _ ∧ _) ∧ _))
  | .shutdown rest, c => CallbackFits.decidable rest c.shutdown

instance (cb : Callback) (c : TcpConnection) : Decidable (CallbackFits cb c) :=
  CallbackFits.decidable cb c

/-- The capacity cap of the output buffer is not reached. -/
def LoopFits (c : TcpConnection) : LoopOp → Prop
  | .send data r callback | .asyncWrite _ data r callback =>
      CallbackFits (.send data r callback .done) c
  | .shutdown => True
  | .writable r callback =>
      c.FlushCompletes r → CallbackFits callback (c.flushed r.ret.toNat).disableWriting

/-- A writable event that flushes the last bytes of a connected connection does not run a callback
that queues data and then calls `shutdown`. -/
def KeepsData (c : TcpConnection) : LoopOp → Prop
  | .writable r callback =>
      c.FlushCompletes r → c.state = .kConnected → callback.after .flushed ≠ .truncating
  | _ => True

instance (c : TcpConnection) : (op : LoopOp) → Decidable (c.LoopFits op)
  | .send _ _ _ | .asyncWrite _ _ _ _ => inferInstanceAs (Decidable (CallbackFits _ _))
  | .shutdown => isTrue trivial
  | .writable _ _ => inferInstanceAs (Decidable (_ → _))

instance (c : TcpConnection) : (op : LoopOp) → Decidable (c.KeepsData op)
  | .writable _ _ => inferInstanceAs (Decidable (_ → _ → _))
  | .send _ _ _ | .asyncWrite _ _ _ _ | .shutdown => isTrue trivial

/-! ## The connection follows the phases -/

/-- The output buffer is in order and, while the connection is open, the write interest follows it. -/
structure Good (c : TcpConnection) : Prop where
  inv : c.outputBuffer.Inv
  writing_iff : c.state = .kConnected ∨ c.state = .kDisconnecting →
    (c.isWriting = true ↔ c.outputBuffer.readable ≠ [])

theorem Good.armed {c : TcpConnection} (h : c.Good)
    (hopen : c.state = .kConnected ∨ c.state = .kDisconnecting) : c.Armed :=
  ⟨h.inv, h.writing_iff hopen⟩

theorem Armed.good {c : TcpConnection} (h : c.Armed) : c.Good := ⟨h.inv, fun _ => h.writing_iff⟩

/-- `shutdown_write` has been called with nothing unsent, every time. -/
def Graceful (c : TcpConnection) : Prop := ∀ unsent, Event.shutdownWrite unsent ∈ c.trace → unsent = 0

/-- What a phase says about the connection. -/
def InPhase (c : TcpConnection) : Phase → Prop
  | .flushed => c.state = .kConnected ∧ c.outputBuffer.readable = []
  | .queued => c.state = .kConnected ∧ c.outputBuffer.readable ≠ []
  | .closing => c.state ≠ .kConnected
      ∧ (c.state = .kDisconnecting → c.outputBuffer.readable = [])
  | .truncating => c.state = .kDisconnecting ∧ c.outputBuffer.readable ≠ []

/-- The connection is well kept, has been shut down gracefully so far, and is in this phase. -/
structure Follows (c : TcpConnection) (ph : Phase) : Prop where
  good : c.Good
  graceful : c.Graceful
  phase : c.InPhase ph

/-- A connection that is connected is in one of two phases. -/
theorem inPhase_of_connected {c : TcpConnection} (h : c.state = .kConnected) :
    c.InPhase .flushed ∨ c.InPhase .queued := by
  by_cases hnil : c.outputBuffer.readable = []
  · exact .inl ⟨h, hnil⟩
  · exact .inr ⟨h, hnil⟩

theorem after_send (data : Bytes) (r : WriteResult) (nested rest : Callback) (ph : Phase) :
    (Callback.send data r nested rest).after ph
      = rest.after ((Callback.send data r nested .done).after ph) := by
  cases ph with
  | flushed =>
      simp only [Callback.after]
      split
      · split <;> rfl
      · split
        · rfl
        · split <;> rfl
  | queued | closing | truncating => rfl

theorem after_shutdown (rest : Callback) (ph : Phase) :
    (Callback.shutdown rest).after ph = rest.after ((Callback.shutdown .done).after ph) := by
  cases ph <;> rfl

/-- The phase of a connected connection is decided by its output buffer. -/
theorem Follows.phase_of_empty {c : TcpConnection} {ph : Phase} (h : c.Follows ph)
    (hconn : c.state = .kConnected) (hnil : c.outputBuffer.readable = []) : ph = .flushed := by
  cases ph with
  | flushed => rfl
  | queued => exact absurd hnil h.phase.2
  | closing => exact absurd hconn h.phase.1
  | truncating => exact absurd hnil h.phase.2

theorem Follows.phase_of_unsent {c : TcpConnection} {ph : Phase} (h : c.Follows ph)
    (hconn : c.state = .kConnected) (hne : c.outputBuffer.readable ≠ []) : ph = .queued := by
  cases ph with
  | flushed => exact absurd h.phase.2 hne
  | queued => rfl
  | closing => exact absurd hconn h.phase.1
  | truncating => exact absurd (hconn.symm.trans h.phase.1) (by decide)

/-- A connection that is not connected is in a phase that no call changes. -/
theorem Follows.phase_of_not_connected {c : TcpConnection} {ph : Phase} (h : c.Follows ph)
    (hconn : c.state ≠ .kConnected) : ph = .closing ∨ ph = .truncating := by
  cases ph with
  | flushed => exact absurd h.phase.1 hconn
  | queued => exact absurd h.phase.1 hconn
  | closing => exact .inl rfl
  | truncating => exact .inr rfl

/-! ## Every call follows -/

/-- A connection that is closed on an error calls `shutdown_write` no more. -/
theorem handleError_follows {c : TcpConnection} (hinv : c.outputBuffer.Inv) (hg : c.Graceful) :
    c.handleError.Follows .closing := by
  have hstate := handleError_state c
  refine ⟨⟨hinv, ?_⟩, ?_, ?_, ?_⟩
  · rintro (hopen | hopen)
    · exact absurd (hstate.symm.trans hopen) (by decide)
    · exact absurd (hstate.symm.trans hopen) (by decide)
  · intro unsent hmem
    rcases List.mem_append.mp hmem with hmem | hmem
    · exact hg unsent hmem
    · exact absurd (List.mem_singleton.mp hmem) (by simp)
  · rw [hstate]
    decide
  · intro hdisc
    exact absurd (hstate.symm.trans hdisc) (by decide)

theorem shutdownWrite_graceful {c : TcpConnection} (h : c.Graceful)
    (hempty : c.outputBuffer.readableBytes = 0) : c.shutdownWrite.Graceful := by
  intro unsent hmem
  rcases List.mem_append.mp hmem with hmem | hmem
  · exact h unsent hmem
  · obtain rfl := Event.shutdownWrite.inj (List.mem_singleton.mp hmem)
    exact hempty

/-- `shutdown` calls `shutdown_write` only where nothing waits. -/
theorem shutdown_follows {c : TcpConnection} {ph : Phase} (h : c.Follows ph) :
    c.shutdown.Follows ((Callback.shutdown .done).after ph) := by
  by_cases hconn : c.state = .kConnected
  · have harmed := h.good.armed (.inl hconn)
    rw [shutdown, if_pos hconn]
    dsimp only
    by_cases hnil : c.outputBuffer.readable = []
    · -- nothing waits: the socket is shut down at once
      have hph := h.phase_of_empty hconn hnil
      obtain ⟨hw, hzero⟩ := harmed.triesDirect_iff.mpr hnil
      subst hph
      rw [if_neg (by rw [hw]; exact Bool.false_ne_true)]
      exact ⟨⟨h.good.inv, fun _ => harmed.writing_iff⟩, shutdownWrite_graceful h.graceful hzero,
        ⟨ConnectionState.noConfusion, fun _ => hnil⟩⟩
    · -- something waits: the write interest is on, and `handle_write` will shut down later
      have hph := h.phase_of_unsent hconn hnil
      subst hph
      rw [if_pos (harmed.writing_iff.mpr hnil)]
      exact ⟨⟨h.good.inv, fun _ => harmed.writing_iff⟩, h.graceful, ⟨rfl, hnil⟩⟩
  · rw [shutdown, if_neg hconn]
    rcases h.phase_of_not_connected hconn with rfl | rfl <;> exact h

/-- The phase after a send that neither completes nor fails: is anything waiting? -/
theorem after_send_rest {c : TcpConnection} {ph : Phase} (h : c.Follows ph)
    (hconn : c.state = .kConnected) {data : Bytes} {r : WriteResult}
    (hdone : ¬ c.SendCompletes data r) (hfail : ¬ c.SendFails r) (nested : Callback) :
    (Callback.send data r nested .done).after ph
      = if c.outputBuffer.readable ++ c.sendRest data r = [] then .flushed else .queued := by
  have harmed := h.good.armed (.inl hconn)
  by_cases hnil : c.outputBuffer.readable = []
  · have hdirect := harmed.triesDirect_iff.mpr hnil
    have hph := h.phase_of_empty hconn hnil
    subst hph
    rw [hnil, List.nil_append, sendRest, if_pos hdirect]
    by_cases hret : 0 ≤ r.ret
    · have hlen : ¬ data.length ≤ r.ret.toNat := fun hlen => hdone ⟨hdirect, hret, hlen⟩
      have hrest : data.drop r.ret.toNat ≠ [] := fun hrest => hlen (List.drop_eq_nil_iff.mp hrest)
      simp only [Callback.after, if_pos hret, if_neg hlen, if_neg hrest]
    · have herr : ¬ r.errno ≠ EWOULDBLOCK := fun herr => hfail ⟨hdirect, not_le.mp hret, herr⟩
      have hzero : r.ret.toNat = 0 := Int.toNat_eq_zero.mpr (by omega)
      simp only [Callback.after, if_neg hret, if_neg herr, hzero, List.drop_zero]
  · have hph := h.phase_of_unsent hconn hnil
    subst hph
    rw [if_neg (List.append_ne_nil_of_left_ne_nil hnil _)]
    rfl

/-- A send follows the phases, given that the callback it may cause does. -/
theorem send_follows {c : TcpConnection} {ph : Phase} (h : c.Follows ph) {data : Bytes}
    {r : WriteResult} {nested : Callback}
    (hfits : c.state = .kConnected → ¬ c.SendFails r → c.outputBuffer.Fits (c.sendRest data r).length)
    (hnested : c.state = .kConnected → c.SendCompletes data r →
      (nested.invoke (c.wrote data)).Follows (nested.after .flushed)) :
    (c.send data r nested.invoke).Follows ((Callback.send data r nested .done).after ph) := by
  by_cases hconn : c.state = .kConnected
  · have harmed := h.good.armed (.inl hconn)
    rw [send, if_pos hconn, sendInLoop_eq]
    split
    · -- everything went to the kernel: the callback runs
      rename_i hdone
      have hph : ph = .flushed := h.phase_of_empty hconn (harmed.triesDirect_iff.mp hdone.1)
      subst hph
      have hafter : (Callback.send data r nested .done).after .flushed = nested.after .flushed := by
        simp only [Callback.after, if_pos hdone.2.1, if_pos hdone.2.2]
      rw [hafter]
      exact hnested hconn hdone
    · rename_i hdone
      split
      · -- the connection is closed
        rename_i hfail
        have hph : ph = .flushed := h.phase_of_empty hconn (harmed.triesDirect_iff.mp hfail.1)
        subst hph
        have hafter : (Callback.send data r nested .done).after .flushed = .closing := by
          simp only [Callback.after, if_neg (not_le.mpr hfail.2.1), if_pos hfail.2.2]
        rw [hafter]
        exact handleError_follows h.good.inv h.graceful
      · -- something may be left for the output buffer
        rename_i hfail
        obtain ⟨hstate, -, htrace⟩ :=
          appendOutput_frame (c.wrote (c.sendTaken data r)) (c.sendRest data r)
        obtain ⟨harmed', hread⟩ :=
          appendOutput_armed (harmed.wrote (c.sendTaken data r)) (hfits hconn hfail)
        refine ⟨harmed'.good, fun unsent hmem => h.graceful unsent (by rwa [htrace] at hmem), ?_⟩
        rw [after_send_rest h hconn hdone hfail]
        split
        · rename_i hnil
          exact ⟨hstate.trans hconn, hread.trans hnil⟩
        · rename_i hne
          exact ⟨hstate.trans hconn, fun hnil => hne (hread.symm.trans hnil)⟩
  · rw [send, if_neg hconn]
    rcases h.phase_of_not_connected hconn with rfl | rfl <;> exact h

/-- **The connection follows the phases** of an invocation, call by call. -/
theorem invoke_follows {cb : Callback} {c : TcpConnection} {ph : Phase} (h : c.Follows ph)
    (hfits : CallbackFits cb c) : (cb.invoke c).Follows (cb.after ph) := by
  induction cb generalizing c ph with
  | done => exact h
  | send data r nested rest ihNested ihRest =>
      obtain ⟨hsend, hrest⟩ := hfits
      rw [after_send]
      -- the nested callback runs only after a complete write, and then starts with nothing unsent
      have hnested : c.state = .kConnected → c.SendCompletes data r →
          (nested.invoke (c.wrote data)).Follows (nested.after .flushed) := by
        intro hconn hdone
        have hnil := (h.good.armed (.inl hconn)).triesDirect_iff.mp hdone.1
        have hstart : (c.wrote data).Follows .flushed :=
          ⟨⟨h.good.inv, h.good.writing_iff⟩, h.graceful, ⟨hconn, hnil⟩⟩
        exact ihNested hstart ((hsend hconn).2 hdone)
      exact ihRest (send_follows h (fun hconn => (hsend hconn).1) hnested) hrest
  | shutdown rest ih =>
      rw [after_shutdown]
      exact ih (shutdown_follows h) hfits

/-! ## One step of the loop -/

/-- `handle_write` after the last bytes are flushed: `shutdown_write` finds nothing unsent unless the
callback has left the phase `truncating`. -/
theorem afterFlush_follows {c : TcpConnection} {ph : Phase} {cb : Callback}
    (h : (cb.invoke c.disableWriting).Follows ph) :
    (c.afterFlush cb.invoke).Good
      ∧ ((c.afterFlush cb.invoke).Graceful ↔ ph ≠ .truncating) := by
  obtain ⟨hstate, hw, hbuf, -, htrace⟩ := resumeWriter_frame (cb.invoke c.disableWriting)
  have hgood : (cb.invoke c.disableWriting).resumeWriter.Good :=
    ⟨by rw [hbuf]; exact h.good.inv, by rw [hstate, hw, hbuf]; exact h.good.writing_iff⟩
  have hgraceful : (cb.invoke c.disableWriting).resumeWriter.Graceful := by
    intro unsent hmem
    rcases htrace _ hmem with hmem | ⟨co, heq⟩
    · exact h.graceful unsent hmem
    · exact absurd heq (by simp)
  have hzero : (cb.invoke c.disableWriting).resumeWriter.outputBuffer.readableBytes = 0
      ↔ (cb.invoke c.disableWriting).outputBuffer.readable = [] := by
    rw [hbuf, h.good.inv.readableBytes_eq_length, List.length_eq_zero_iff]
  unfold afterFlush
  dsimp only
  split
  · -- the state is `kDisconnecting`, so `shutdown_write` is called with whatever waits
    rename_i hdisc
    rw [hstate] at hdisc
    refine ⟨⟨hgood.inv, hgood.writing_iff⟩, ?_, ?_⟩
    · intro hg hph
      subst hph
      exact h.phase.2 (hzero.mp (hg _ (List.mem_append_right _ (List.mem_singleton_self _))))
    · intro hph
      apply shutdownWrite_graceful hgraceful
      apply hzero.mpr
      cases ph with
      | flushed => exact h.phase.2
      | queued => exact absurd (h.phase.1.symm.trans hdisc) (by decide)
      | closing => exact h.phase.2 hdisc
      | truncating => exact absurd rfl hph
  · rename_i hopen
    rw [hstate] at hopen
    have hph : ph ≠ .truncating := by
      intro hph
      subst hph
      exact hopen h.phase.1
    exact ⟨hgood, iff_of_true hgraceful hph⟩

theorem exists_phase {c : TcpConnection} (hg : c.Good) (h : c.Graceful) : ∃ ph, c.Follows ph := by
  by_cases hconn : c.state = .kConnected
  · rcases inPhase_of_connected hconn with hph | hph <;> exact ⟨_, hg, h, hph⟩
  · by_cases hwait : c.state = .kDisconnecting ∧ c.outputBuffer.readable ≠ []
    · exact ⟨.truncating, hg, h, hwait⟩
    · exact ⟨.closing, hg, h, hconn, fun hdisc => not_not.mp fun hne => hwait ⟨hdisc, hne⟩⟩

theorem after_closing (cb : Callback) : cb.after .closing = .closing := by
  induction cb with
  | done => rfl
  | send data r nested rest _ ih => exact ih
  | shutdown rest ih => exact ih

/-! ## What the loop does -/

theorem asyncWriteSuspend_good {c : TcpConnection} (co : Coro) {data : Bytes} {r : WriteResult}
    {callback : TcpConnection → TcpConnection} (hg : (c.send data r callback).Good)
    (h : (c.send data r callback).Graceful) :
    (c.asyncWriteSuspend co data r callback).Good
      ∧ (c.asyncWriteSuspend co data r callback).Graceful := by
  unfold asyncWriteSuspend
  dsimp only
  split
  · refine ⟨⟨hg.inv, hg.writing_iff⟩, ?_⟩
    intro unsent hmem
    rcases List.mem_append.mp hmem with hmem | hmem
    · exact h unsent hmem
    · exact absurd (List.mem_singleton.mp hmem) (by simp)
  · rename_i hpos
    have hne : (c.send data r callback).outputBuffer.readable ≠ [] := fun hnil =>
      hpos (by rw [hg.inv.readableBytes_eq_length, hnil, List.length_nil])
    unfold resumeWriteCoro
    dsimp only
    split
    · exact ⟨⟨hg.inv, fun _ => iff_of_true rfl hne⟩, h⟩
    · exact ⟨⟨hg.inv, hg.writing_iff⟩, h⟩

/-- A writable event is graceful exactly when it keeps the data of the callback it runs. -/
theorem handleWrite_good {c : TcpConnection} (hg : c.Good) (h : c.Graceful) {r : WriteResult}
    {cb : Callback} (hfits : c.LoopFits (.writable r cb)) :
    (c.handleWrite r cb.invoke).Good
      ∧ ((c.handleWrite r cb.invoke).Graceful ↔ c.KeepsData (.writable r cb)) := by
  rw [handleWrite_eq hg.inv]
  by_cases hdone : c.FlushCompletes r
  · have hnil := hdone.readable hg.inv
    have hgood := (hdone.armed hg.inv).good
    rw [if_pos hdone]
    -- the callback starts in `flushed` or, after a `shutdown`, in `closing`
    by_cases hconn : c.state = .kConnected
    · have hstart : (c.flushed r.ret.toNat).disableWriting.Follows .flushed :=
        ⟨hgood, h, hconn, hnil⟩
      have hcb := invoke_follows hstart (hfits hdone)
      obtain ⟨hgood', hiff⟩ := afterFlush_follows hcb
      exact ⟨hgood', hiff.trans ⟨fun hph _ _ => hph, fun hk => hk hdone hconn⟩⟩
    · have hstart : (c.flushed r.ret.toNat).disableWriting.Follows .closing :=
        ⟨hgood, h, hconn, fun _ => hnil⟩
      have hcb := invoke_follows hstart (hfits hdone)
      obtain ⟨hgood', hiff⟩ := afterFlush_follows hcb
      rw [after_closing] at hiff
      exact ⟨hgood', hiff.trans (iff_of_true (by decide) fun _ hc => absurd hc hconn)⟩
  · have hkeeps : c.KeepsData (.writable r cb) := fun hd => absurd hd hdone
    rw [if_neg hdone]
    split
    · rename_i hsome
      have hne := flushed_readable_ne_nil hg.inv hsome hdone
      exact ⟨⟨flushed_inv hg.inv _, fun _ => iff_of_true hsome.1 hne⟩, iff_of_true h hkeeps⟩
    · split
      · have herr := handleError_follows hg.inv h
        exact ⟨herr.good, iff_of_true herr.graceful hkeeps⟩
      · exact ⟨hg, iff_of_true h hkeeps⟩

/-- **One step.** From a connection that is well kept and graceful so far, a step is graceful exactly
when it keeps its data. -/
theorem loopStep_good {c : TcpConnection} (hg : c.Good) (h : c.Graceful) {op : LoopOp}
    (hfits : c.LoopFits op) :
    (c.loopStep op).Good ∧ ((c.loopStep op).Graceful ↔ c.KeepsData op) := by
  obtain ⟨ph, hph⟩ := exists_phase hg h
  cases op with
  | send data r cb =>
      have hsend := invoke_follows hph hfits
      exact ⟨hsend.good, iff_of_true hsend.graceful trivial⟩
  | shutdown =>
      have hshut := shutdown_follows hph
      exact ⟨hshut.good, iff_of_true hshut.graceful trivial⟩
  | writable r cb => exact handleWrite_good hg h hfits
  | asyncWrite co data r cb =>
      have hsend := invoke_follows hph hfits
      obtain ⟨hgood, hgraceful⟩ := asyncWriteSuspend_good co hsend.good hsend.graceful
      exact ⟨hgood, iff_of_true hgraceful trivial⟩

/-! ## The trace only grows -/

/-- Everything in the trace of `c` is in the trace of `c'`. -/
def TraceLe (c c' : TcpConnection) : Prop := ∀ e ∈ c.trace, e ∈ c'.trace

theorem TraceLe.refl (c : TcpConnection) : c.TraceLe c := fun _ he => he

theorem TraceLe.trans {a b c : TcpConnection} (hab : a.TraceLe b) (hbc : b.TraceLe c) :
    a.TraceLe c := fun e he => hbc e (hab e he)

theorem sendInLoop_traceLe (c : TcpConnection) (data : Bytes) (r : WriteResult)
    {callback : TcpConnection → TcpConnection} (hcb : ∀ c : TcpConnection, c.TraceLe (callback c)) :
    c.TraceLe (c.sendInLoop data r callback) := by
  rw [sendInLoop_eq]
  split
  · exact hcb (c.wrote data)
  · split
    · exact fun e he => List.mem_append_left _ he
    · intro e he
      rw [(appendOutput_frame _ _).2.2]
      exact he

theorem send_traceLe (c : TcpConnection) (data : Bytes) (r : WriteResult)
    {callback : TcpConnection → TcpConnection} (hcb : ∀ c : TcpConnection, c.TraceLe (callback c)) :
    c.TraceLe (c.send data r callback) := by
  unfold send
  split
  · exact sendInLoop_traceLe c data r hcb
  · exact .refl c

theorem shutdown_traceLe (c : TcpConnection) : c.TraceLe c.shutdown := by
  unfold shutdown
  split
  · dsimp only
    split
    · exact .refl c
    · exact fun e he => List.mem_append_left _ he
  · exact .refl c

theorem invoke_traceLe (cb : Callback) (c : TcpConnection) : c.TraceLe (cb.invoke c) := by
  induction cb generalizing c with
  | done => exact .refl c
  | send data r nested rest ihNested ihRest =>
      exact (send_traceLe c data r ihNested).trans (ihRest _)
  | shutdown rest ih => exact (shutdown_traceLe c).trans (ih _)

theorem resumeWriter_traceLe (c : TcpConnection) : c.TraceLe c.resumeWriter := by
  unfold resumeWriter
  split
  · exact fun e he => List.mem_append_left _ he
  · exact .refl c

theorem afterFlush_traceLe (c : TcpConnection) (cb : Callback) :
    c.TraceLe (c.afterFlush cb.invoke) := by
  have hmid : c.TraceLe (cb.invoke c.disableWriting).resumeWriter :=
    (invoke_traceLe cb c.disableWriting).trans (resumeWriter_traceLe _)
  unfold afterFlush
  dsimp only
  split
  · exact fun e he => List.mem_append_left _ (hmid e he)
  · exact hmid

theorem handleWrite_traceLe (c : TcpConnection) (r : WriteResult) (cb : Callback) :
    c.TraceLe (c.handleWrite r cb.invoke) := by
  unfold handleWrite
  dsimp only
  split
  · split
    · split
      · exact afterFlush_traceLe { c.wrote _ with outputBuffer := c.outputBuffer.retrieve _ } cb
      · exact .refl c
    · split
      · exact fun e he => List.mem_append_left _ he
      · exact .refl c
  · exact .refl c

theorem loopStep_traceLe (c : TcpConnection) (op : LoopOp) : c.TraceLe (c.loopStep op) := by
  cases op with
  | send data r cb => exact send_traceLe c data r (invoke_traceLe cb)
  | shutdown => exact shutdown_traceLe c
  | writable r cb => exact handleWrite_traceLe c r cb
  | asyncWrite co data r cb =>
      have hsend := send_traceLe c data r (invoke_traceLe cb)
      simp only [loopStep, asyncWriteSuspend]
      split
      · exact fun e he => List.mem_append_left _ (hsend e he)
      · unfold resumeWriteCoro
        dsimp only
        split <;> exact hsend

theorem run_traceLe (c : TcpConnection) (ops : List LoopOp) : c.TraceLe (run loopStep c ops) :=
  have hstep : ∀ s op, c.TraceLe s → c.TraceLe (s.loopStep op) := fun s op h =>
    h.trans (loopStep_traceLe s op)
  run_invariant_of_step hstep ops (.refl c)

/-! ## Whole runs -/

theorem run_graceful_iff {ops : List LoopOp} {c : TcpConnection} (hg : c.Good) (h : c.Graceful)
    (hfits : Admissible loopStep LoopFits c ops) :
    (run loopStep c ops).Graceful ↔ Admissible loopStep KeepsData c ops := by
  induction ops generalizing c with
  | nil => exact iff_of_true h trivial
  | cons op ops ih =>
      obtain ⟨hgood, hiff⟩ := loopStep_good hg h hfits.1
      rw [run_cons]
      constructor
      · intro hrun
        -- a cut-off stays in the trace, so the first step was graceful as well
        have hstep : (c.loopStep op).Graceful := fun unsent hmem =>
          hrun unsent (run_traceLe _ ops _ hmem)
        exact ⟨hiff.mp hstep, (ih hgood hstep hfits.2).mp hrun⟩
      · rintro ⟨hop, hops⟩
        exact (ih hgood (hiff.mpr hop) hfits.2).mpr hops

/-- **A graceful shutdown truncates nothing, except through the callback.** Along a run of `send`,
`shutdown` and writable events below the capacity cap, `shutdown_write` is called with an empty
`output_buffer_` every time if and only if no writable event that flushes the last bytes of a
connected connection runs a callback that queues data and then shuts down. -/
theorem graceful_iff (ops : List LoopOp) (hfits : Admissible loopStep LoopFits established ops) :
    (∀ unsent, Event.shutdownWrite unsent ∈ (run loopStep established ops).trace → unsent = 0)
      ↔ Admissible loopStep KeepsData established ops :=
  run_graceful_iff established_armed.good
    (by simp [Graceful, established, connectEstablished, enableReading]) hfits

/-- Data that waits is flushed before the socket is shut down. -/
theorem graceful_iff_sample :
    Event.shutdownWrite 0 ∈ (run loopStep established [.send [1, 2] ⟨1, 0⟩ .done, .shutdown,
        .writable ⟨1, 0⟩ .done]).trace
      ∧ ∀ unsent, Event.shutdownWrite unsent ∈ (run loopStep established
          [.send [1, 2] ⟨1, 0⟩ .done, .shutdown, .writable ⟨1, 0⟩ .done]).trace → unsent = 0 :=
  ⟨by decide +kernel, (graceful_iff _ (by decide +kernel)).mpr (by decide +kernel)⟩

/-- The callback of `handle_write` sends two bytes, of which the kernel takes one, and calls
`shutdown`: the socket is shut down with one byte unsent. -/
theorem callback_truncates :
    ¬ ∀ unsent, Event.shutdownWrite unsent ∈ (run loopStep established [.send [1, 2] ⟨1, 0⟩ .done,
        .writable ⟨1, 0⟩ (.send [3, 4] ⟨1, 0⟩ .done (.shutdown .done))]).trace → unsent = 0 := by
  intro h
  have hcut : Event.shutdownWrite 1 ∈ (run loopStep established [.send [1, 2] ⟨1, 0⟩ .done,
      .writable ⟨1, 0⟩ (.send [3, 4] ⟨1, 0⟩ .done (.shutdown .done))]).trace := by
    decide +kernel
  exact absurd (h 1 hcut) (by decide)

end TcpConnection

end LightNet.Net
