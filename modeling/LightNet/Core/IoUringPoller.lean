/-
# LightNet.Core.IoUringPoller — what the io_uring backend reports.

`submit_poll_add` stores the channel's address in the `user_data` of a request and overwrites it with
the event mask; `poll` takes what it finds there for a channel's address.  No mask is one, so whatever
completes with a mask other than 0 is reported under a pointer to no channel, and no channel is ever
reported.  The backend therefore agrees with a level-triggered one as long as nothing happens: the
theorem at the end says exactly when that is.
-/
import LightNet.Core.Channel
import LightNet.Core.IoUring
import LightNet.Foundation.UnorderedMap
import Mathlib.Data.UInt
import Mathlib.Logic.Embedding.Basic

namespace LightNet.Core

open LightNet.Foundation

/-- What a channel waits for. -/
structure Interest where
  reading : Bool
  writing : Bool
  deriving DecidableEq

namespace Interest

/-- As `events_` of a channel. -/
def events (i : Interest) : UInt32 :=
  (if i.reading then Channel.kReadEvent else 0) ||| (if i.writing then Channel.kWriteEvent else 0)

/-- As the `user_data` of a request. -/
def userData (i : Interest) : UInt64 := i.events.toUInt64

theorem userData_eq_zero {i : Interest} : i.userData = 0 ↔ i.events = 0 := by
  cases i with
  | mk reading writing => cases reading <;> cases writing <;> decide

/-- No mask is the address of a channel. -/
theorem userData_mod {i : Interest} (h : i.userData ≠ 0) : i.userData % 8 ≠ 0 := by
  cases i with
  | mk reading writing => cases reading <;> cases writing <;> revert h <;> decide

theorem events_or_read (i : Interest) :
    i.events ||| Channel.kReadEvent = { i with reading := true }.events := by
  cases i with
  | mk reading writing => cases reading <;> cases writing <;> decide

theorem events_and_not_read (i : Interest) :
    i.events &&& ~~~Channel.kReadEvent = { i with reading := false }.events := by
  cases i with
  | mk reading writing => cases reading <;> cases writing <;> decide

theorem events_or_write (i : Interest) :
    i.events ||| Channel.kWriteEvent = { i with writing := true }.events := by
  cases i with
  | mk reading writing => cases reading <;> cases writing <;> decide

theorem events_and_not_write (i : Interest) :
    i.events &&& ~~~Channel.kWriteEvent = { i with writing := false }.events := by
  cases i with
  | mk reading writing => cases reading <;> cases writing <;> decide

end Interest

/-- The channels: they have distinct fds, each is aligned as the pointers in it are, and a request for
one waits for some events `always`. -/
structure IoUringEnv (κ : Type) where
  fd : κ ↪ Nat
  addr : κ → UInt64
  aligned : ∀ c, addr c % 8 = 0
  always : UInt32

/-- `lightnet::PollEvent`. -/
structure PollEvent where
  channel : UInt64
  revents : UInt32
  deriving DecidableEq

/-- `lightnet::IoUringPoller`. -/
structure IoUringPoller (κ : Type) where
  ring : IoUring := {}
  channels : UnorderedMap Nat κ := ∅

namespace IoUringPoller

/-- `POLLIN` of `poll.h`. -/
def POLLIN : UInt32 := 0x001
/-- `EPOLLIN` of `sys/epoll.h`. -/
def EPOLLIN : UInt32 := 0x001
/-- `EPOLLOUT`. -/
def EPOLLOUT : UInt32 := 0x004
/-- `EPOLLERR`. -/
def EPOLLERR : UInt32 := 0x008

variable {κ : Type} [DecidableEq κ] (env : IoUringEnv κ)

/-! ## The class -/

/-- `submit_poll_add(channel, events)`. -/
def submitPollAdd (p : IoUringPoller κ) (c : κ) (events : UInt32) : IoUringPoller κ :=
  let sqe : PollRequest :=
    { fd := env.fd c, mask := if events ≠ 0 then events else POLLIN, userData := env.addr c }
  -- the address is overwritten
  let sqe := { sqe with userData := events.toUInt64 }
  { p with ring := p.ring.pollAdd env.always sqe }

/-- `submit_poll_remove(channel)`, which asks for the request whose `user_data` is the fd. -/
def submitPollRemove (p : IoUringPoller κ) (c : κ) : IoUringPoller κ :=
  { p with ring := p.ring.pollRemove (UInt64.ofNat (env.fd c)) 0 }

/-- `update_channel(channel)`. -/
def updateChannel (s : LoopState κ (IoUringPoller κ)) (c : κ) : LoopState κ (IoUringPoller κ) :=
  let p := { s.poller with channels := UnorderedMap.assign (env.fd c) c s.poller.channels }
  { s with poller := submitPollAdd env p c (s.channels c).events }

/-- `remove_channel(channel)`. -/
def removeChannel (s : LoopState κ (IoUringPoller κ)) (c : κ) : LoopState κ (IoUringPoller κ) :=
  let p := submitPollRemove env s.poller c
  { s with poller := { p with channels := p.channels.erase (env.fd c) } }.modify c
    fun ch => { ch with index := -1 }

/-- The poller that a `Channel` calls. -/
def ops : Poller κ (IoUringPoller κ) := ⟨updateChannel env, removeChannel env⟩

/-- The event that `poll` makes of a completion; one with a null `user_data` is passed over. -/
def pollEvent (cqe : Cqe) : Option PollEvent :=
  if cqe.userData ≠ 0 then
    let events := cqe.userData.toUInt32
    some
      { channel := cqe.userData
        revents :=
          if 0 ≤ cqe.res then
            (if events &&& Channel.kReadEvent ≠ 0 then EPOLLIN else 0)
              ||| (if events &&& Channel.kWriteEvent ≠ 0 then EPOLLOUT else 0)
          else EPOLLERR }
  else none

/-- What `poll` returns. -/
def active (p : IoUringPoller κ) : List PollEvent := p.ring.cqes.filterMap pollEvent

/-- What `poll` leaves behind. -/
def poll (s : LoopState κ (IoUringPoller κ)) : LoopState κ (IoUringPoller κ) :=
  { s with poller := { s.poller with ring := s.poller.ring.advance } }

/-- A channel is passed to `update_channel` with some events, or to `remove_channel`; an fd is ready
for some events from now on; or `poll` returns. -/
inductive Op (κ : Type) where
  | updateChannel (c : κ) (i : Interest)
  | removeChannel (c : κ)
  | setReady (n : Nat) (events : UInt32)
  | poll
  deriving DecidableEq

/-- What the operation does. -/
def step (s : LoopState κ (IoUringPoller κ)) : Op κ → LoopState κ (IoUringPoller κ)
  | .updateChannel c i => (ops env).setEvents (fun _ => i.events) s c
  | .removeChannel c => (ops env).remove s c
  | .setReady n events =>
      { s with poller := { s.poller with ring := s.poller.ring.setReady env.always n events } }
  | .poll => poll s

/-- No channel is registered. -/
def start : LoopState κ (IoUringPoller κ) := ⟨fun _ => {}, {}⟩

/-! ## The contract -/

/-- The channel has been passed to `update_channel`, and not to `remove_channel` since. -/
def Registered (s : LoopState κ (IoUringPoller κ)) (c : κ) : Prop :=
  s.poller.channels.lookup (env.fd c) = some c

/-- The next `poll` returns registered channels only, and all of them that are ready for an event in
their mask, as a level-triggered poller does. -/
structure Agrees (s : LoopState κ (IoUringPoller κ)) : Prop where
  named : ∀ e ∈ s.poller.active, ∃ c, Registered env s c ∧ e.channel = env.addr c
  reported : ∀ c, Registered env s c →
    s.poller.ring.ready (env.fd c) &&& (s.channels c).events ≠ 0 →
      ∃ e ∈ s.poller.active, e.channel = env.addr c

/-- No request with a mask other than 0 completes: a channel that is passed to `update_channel` with
such a mask is not ready, an fd does not become ready for such a request, and the fd of a channel that
is removed is not the mask of a request that waits. -/
def Quiet (s : LoopState κ (IoUringPoller κ)) : Op κ → Prop
  | .updateChannel c i => i.events ≠ 0 →
      s.poller.ring.ready (env.fd c) &&& (i.events ||| env.always) = 0
  | .removeChannel c => UInt64.ofNat (env.fd c) ≠ 0 →
      ∀ r ∈ s.poller.ring.requests, r.userData ≠ UInt64.ofNat (env.fd c)
  | .setReady n events => ∀ r ∈ s.poller.ring.requests, r.fd = n → r.userData ≠ 0 →
      events &&& (r.mask ||| env.always) = 0
  | .poll => True

/-- Nothing has completed that `poll` would report; every registered channel with a mask other than 0
has a request that waits. -/
structure Inv (s : LoopState κ (IoUringPoller κ)) : Prop where
  events : ∀ c, ∃ i : Interest, (s.channels c).events = i.events
  data : ∀ r ∈ s.poller.ring.requests, ∃ i : Interest, r.userData = i.userData
  settled : s.poller.ring.Settled env.always
  silent : ∀ cqe ∈ s.poller.ring.cqes, cqe.userData = 0
  armed : ∀ c, Registered env s c → (s.channels c).events ≠ 0 →
    ∃ r ∈ s.poller.ring.requests, r.fd = env.fd c ∧ r.mask = (s.channels c).events
      ∧ r.userData = (s.channels c).events.toUInt64

end IoUringPoller

/-! ## Where the contract holds and where it does not -/

namespace IoUringPoller

section

variable {κ : Type} {env : IoUringEnv κ}

/-- Ready for no event of a larger mask. -/
theorem and_eq_zero_of_or {x m a : UInt32} (h : x &&& (m ||| a) = 0) : x &&& m = 0 := by
  have hsplit : x &&& (m ||| a) = (x &&& m) ||| (x &&& a) :=
    UInt32.toBitVec_inj.mp BitVec.and_or_distrib_left
  rw [hsplit] at h
  exact (UInt32.or_eq_zero_iff.mp h).1

theorem active_eq_nil {p : IoUringPoller κ} (h : ∀ cqe ∈ p.ring.cqes, cqe.userData = 0) :
    p.active = [] := by
  refine List.filterMap_eq_nil_iff.mpr fun cqe hcqe => ?_
  rw [pollEvent, if_neg (not_not.mpr (h cqe hcqe))]

theorem Inv.agrees {s : LoopState κ (IoUringPoller κ)} (h : Inv env s) : Agrees env s := by
  refine ⟨fun e he => ?_, fun c hc hready => ?_⟩
  · rw [active_eq_nil h.silent] at he
    exact absurd he List.not_mem_nil
  · -- a request for this channel waits, so its fd is not ready
    have hmask : (s.channels c).events ≠ 0 := by
      intro hzero
      rw [hzero, UInt32.and_zero] at hready
      exact hready rfl
    obtain ⟨r, hr, hfd, hevents, -⟩ := h.armed c hc hmask
    refine absurd ?_ (h.settled r hr)
    rw [PollRequest.Fires, hfd, hevents]
    exact fun hquiet => hready (and_eq_zero_of_or hquiet)

/-- A completion with a mask for its `user_data` is reported, and names no channel. -/
theorem not_agrees_of_noise {s : LoopState κ (IoUringPoller κ)} {cqe : Cqe} {i : Interest}
    (hcqe : cqe ∈ s.poller.ring.cqes) (hdata : cqe.userData = i.userData) (hne : cqe.userData ≠ 0) :
    ¬ Agrees env s := by
  intro h
  have hevent : pollEvent cqe = some _ := if_pos hne
  obtain ⟨c, -, hc⟩ := h.named _ (List.mem_filterMap.mpr ⟨cqe, hcqe, hevent⟩)
  have haddr : cqe.userData = env.addr c := hc
  refine Interest.userData_mod (i := i) (hdata ▸ hne) ?_
  rw [← hdata, haddr]
  exact env.aligned c

theorem start_inv (env : IoUringEnv κ) : Inv env (start : LoopState κ (IoUringPoller κ)) where
  events _ := ⟨⟨false, false⟩, rfl⟩
  data _ hr := absurd hr List.not_mem_nil
  settled _ hr := absurd hr List.not_mem_nil
  silent _ hcqe := absurd hcqe List.not_mem_nil
  armed _ _ hevents := absurd rfl hevents

/-- A channel that an operation leaves alone keeps its request, if the requests with a mask other than 0
are kept. -/
theorem Inv.armed_of_kept {s s' : LoopState κ (IoUringPoller κ)} (h : Inv env s) {d : κ}
    (hd : Registered env s d) (hchannel : (s'.channels d).events = (s.channels d).events)
    (hkept : ∀ r ∈ s.poller.ring.requests, r.userData ≠ 0 → r ∈ s'.poller.ring.requests)
    (hevents : (s'.channels d).events ≠ 0) :
    ∃ r ∈ s'.poller.ring.requests, r.fd = env.fd d ∧ r.mask = (s'.channels d).events
      ∧ r.userData = (s'.channels d).events.toUInt64 := by
  rw [hchannel] at hevents ⊢
  obtain ⟨r, hr, hfd, hmask, hdata⟩ := h.armed d hd hevents
  refine ⟨r, hkept r hr ?_, hfd, hmask, hdata⟩
  obtain ⟨i, hi⟩ := h.events d
  rw [hdata, hi]
  exact fun hzero => hevents (hi.trans (Interest.userData_eq_zero.mp hzero))

end

/-! ## What one operation does -/

variable {κ : Type} [DecidableEq κ] {env : IoUringEnv κ} {s : LoopState κ (IoUringPoller κ)}

/-- The request of a channel with these events. -/
def request (env : IoUringEnv κ) (c : κ) (events : UInt32) : PollRequest :=
  ⟨env.fd c, if events ≠ 0 then events else POLLIN, events.toUInt64⟩

theorem step_updateChannel (s : LoopState κ (IoUringPoller κ)) (c : κ) (i : Interest) :
    step env s (.updateChannel c i)
      = { channels := Function.update s.channels c
            { events := i.events, index := (s.channels c).index, addedToLoop := true }
          poller :=
            { ring := s.poller.ring.pollAdd env.always (request env c i.events)
              channels := UnorderedMap.assign (env.fd c) c s.poller.channels } } := by
  show updateChannel env _ c = _
  rw [LoopState.modify_modify, updateChannel, LoopState.modify_self]
  rfl

theorem step_removeChannel (s : LoopState κ (IoUringPoller κ)) (c : κ) :
    step env s (.removeChannel c)
      = { channels := Function.update s.channels c
            { events := (s.channels c).events, index := -1, addedToLoop := false }
          poller :=
            { ring := s.poller.ring.pollRemove (UInt64.ofNat (env.fd c)) 0
              channels := s.poller.channels.erase (env.fd c) } } := by
  show removeChannel env _ c = _
  simp only [removeChannel, submitPollRemove, LoopState.modify, Function.update_self,
    Function.update_idem]

/-- Every call on a channel is one of the operations. -/
theorem call_eq_step (h : ∀ c, ∃ i : Interest, (s.channels c).events = i.events)
    (call : ChannelCall κ) : ∃ op, (ops env).call s call = step env s op := by
  have hchange : ∀ (f : UInt32 → UInt32) (c : κ) (i : Interest), f (s.channels c).events = i.events →
      ∃ op, (ops env).setEvents f s c = step env s op := by
    intro f c i hf
    have hsame : (ops env).setEvents f s c = (ops env).setEvents (fun _ => i.events) s c :=
      (ops env).setEvents_congr hf
    exact ⟨.updateChannel c i, hsame⟩
  cases call with
  | enableReading c =>
      obtain ⟨i, hi⟩ := h c
      exact hchange (· ||| Channel.kReadEvent) c { i with reading := true } (hi ▸ i.events_or_read)
  | disableReading c =>
      obtain ⟨i, hi⟩ := h c
      exact hchange (· &&& ~~~Channel.kReadEvent) c { i with reading := false }
        (hi ▸ i.events_and_not_read)
  | enableWriting c =>
      obtain ⟨i, hi⟩ := h c
      exact hchange (· ||| Channel.kWriteEvent) c { i with writing := true } (hi ▸ i.events_or_write)
  | disableWriting c =>
      obtain ⟨i, hi⟩ := h c
      exact hchange (· &&& ~~~Channel.kWriteEvent) c { i with writing := false }
        (hi ▸ i.events_and_not_write)
  | disableAll c => exact hchange (fun _ => Channel.kNoneEvent) c ⟨false, false⟩ rfl
  | remove c => exact ⟨.removeChannel c, rfl⟩

/-! ## Registrations -/

/-- A channel that is passed to `update_channel` is registered from then on. -/
theorem registered_updateChannel {c d : κ} {i : Interest} :
    Registered env (step env s (.updateChannel c i)) d ↔ d = c ∨ Registered env s d := by
  rw [step_updateChannel]
  show (UnorderedMap.assign (env.fd c) c s.poller.channels).lookup (env.fd d) = some d ↔ _
  by_cases hdc : d = c
  · rw [hdc, UnorderedMap.lookup_assign_self]
    exact iff_of_true rfl (.inl rfl)
  · rw [UnorderedMap.lookup_assign_ne fun heq => hdc (env.fd.injective heq)]
    exact (or_iff_right hdc).symm

/-- One that is passed to `remove_channel` is not. -/
theorem registered_removeChannel {c d : κ} :
    Registered env (step env s (.removeChannel c)) d ↔ d ≠ c ∧ Registered env s d := by
  rw [step_removeChannel]
  show (s.poller.channels.erase (env.fd c)).lookup (env.fd d) = some d ↔ _
  rw [UnorderedMap.lookup_erase]
  by_cases hdc : d = c
  · rw [hdc, if_pos rfl]
    exact iff_of_false (by simp) fun h => h.1 rfl
  · rw [if_neg fun heq => hdc (env.fd.injective heq)]
    exact (and_iff_right hdc).symm

/-- A request whose fd is not ready waits. -/
theorem pollAdd_of_quiet {always : UInt32} {u : IoUring} {r : PollRequest}
    (h : ¬ r.Fires always u.ready) : u.pollAdd always r = { u with requests := u.requests ++ [r] } :=
  if_neg h

/-! ## What is kept -/

/-- A channel is registered with events for which it is not ready. -/
theorem updateChannel_inv (h : Inv env s) {c : κ} {i : Interest}
    (hok : Quiet env s (.updateChannel c i)) : Inv env (step env s (.updateChannel c i)) := by
  have hquiet : i.events ≠ 0 → ¬ (request env c i.events).Fires env.always s.poller.ring.ready := by
    intro hne hfires
    rw [PollRequest.Fires, request, if_pos hne] at hfires
    exact hfires (hok hne)
  have hold : ∀ d, Registered env (step env s (.updateChannel c i)) d → d ≠ c → Registered env s d :=
    fun d hd hdc => (registered_updateChannel.mp hd).resolve_left hdc
  rw [step_updateChannel] at hold ⊢
  refine ⟨fun d => ?_, fun r hr => ?_, IoUring.pollAdd_settled h.settled _, fun cqe hcqe => ?_,
    fun d hd hevents => ?_⟩
  · show ∃ j : Interest, (Function.update s.channels c _ d).events = j.events
    by_cases hdc : d = c
    · rw [hdc, Function.update_self]
      exact ⟨i, rfl⟩
    · rw [Function.update_of_ne hdc]
      exact h.events d
  · rcases IoUring.mem_pollAdd hr with hold | rfl
    · exact h.data r hold
    · exact ⟨i, rfl⟩
  · -- what completes at once has the mask 0
    rcases IoUring.mem_cqes_pollAdd hcqe with hold | ⟨hdata, hnow⟩
    · exact h.silent cqe hold
    · rw [hdata]
      by_contra hne
      exact hquiet (fun hzero => hne (Interest.userData_eq_zero.mpr hzero)) hnow
  · by_cases hdc : d = c
    · have hchannel : (Function.update s.channels c
          { events := i.events, index := (s.channels c).index, addedToLoop := true } d).events
            = i.events := by rw [hdc, Function.update_self]
      have hne : i.events ≠ 0 := hchannel ▸ hevents
      refine ⟨request env c i.events, ?_, congrArg env.fd hdc.symm, (if_pos hne).trans hchannel.symm,
        congrArg UInt32.toUInt64 hchannel.symm⟩
      show _ ∈ (s.poller.ring.pollAdd env.always _).requests
      rw [pollAdd_of_quiet (hquiet hne)]
      exact List.mem_append_right _ (List.mem_singleton_self _)
    · exact h.armed_of_kept (hold d hd hdc) (congrArg Channel.events (Function.update_of_ne hdc _ _))
        (fun r hr _ => IoUring.mem_pollAdd_of_mem hr _) hevents

/-- A channel is released, and no request is cancelled that has a mask other than 0. -/
theorem removeChannel_inv (h : Inv env s) {c : κ} (hok : Quiet env s (.removeChannel c)) :
    Inv env (step env s (.removeChannel c)) := by
  have hold : ∀ d, Registered env (step env s (.removeChannel c)) d → d ≠ c ∧ Registered env s d :=
    fun d hd => registered_removeChannel.mp hd
  rw [step_removeChannel] at hold ⊢
  refine ⟨fun d => ?_, fun r hr => h.data r (IoUring.mem_of_mem_pollRemove hr),
    IoUring.pollRemove_settled h.settled _ _, fun cqe hcqe => ?_, fun d hd hevents => ?_⟩
  · show ∃ j : Interest, (Function.update s.channels c _ d).events = j.events
    by_cases hdc : d = c
    · rw [hdc, Function.update_self]
      exact h.events c
    · rw [Function.update_of_ne hdc]
      exact h.events d
  · rcases IoUring.mem_cqes_pollRemove hcqe with hold | hown | ⟨hdata, r, hr, hfound⟩
    · exact h.silent cqe hold
    · exact hown
    · rw [hdata]
      by_contra hne
      exact hok hne r hr hfound
  · obtain ⟨hdc, hreg⟩ := hold d hd
    refine h.armed_of_kept hreg (congrArg Channel.events (Function.update_of_ne hdc _ _))
      (fun r hr hne => IoUring.mem_pollRemove hr fun heq => ?_) hevents
    exact hok (heq ▸ hne) r hr heq

/-- The readiness of an fd changes, and no request with a mask other than 0 notices. -/
theorem setReady_inv (h : Inv env s) {n : Nat} {events : UInt32}
    (hok : Quiet env s (.setReady n events)) : Inv env (step env s (.setReady n events)) := by
  have hquiet : ∀ r ∈ s.poller.ring.requests, r.userData ≠ 0 →
      ¬ (r.fd = n ∧ r.Fires env.always (Function.update s.poller.ring.ready n events)) := by
    rintro r hr hne ⟨hfd, hfires⟩
    rw [PollRequest.Fires, hfd, Function.update_self] at hfires
    exact hfires (hok r hr hfd hne)
  refine ⟨h.events, fun r hr => h.data r (List.mem_filter.mp hr).1,
    IoUring.setReady_settled h.settled n events, fun cqe hcqe => ?_, fun d hd hevents => ?_⟩
  · rcases List.mem_append.mp hcqe with hold | hnew
    · exact h.silent cqe hold
    · obtain ⟨r, hr, rfl⟩ := List.mem_map.mp hnew
      obtain ⟨hmem, hfires⟩ := List.mem_filter.mp hr
      by_contra hne
      exact hquiet r hmem hne (of_decide_eq_true hfires)
  · refine h.armed_of_kept hd rfl (fun r hr hne => ?_) hevents
    refine List.mem_filter.mpr ⟨hr, ?_⟩
    simp only [Bool.not_eq_true', decide_eq_false_iff_not]
    exact hquiet r hr hne

theorem poll_inv (h : Inv env s) : Inv env (step env s .poll) :=
  ⟨h.events, h.data, h.settled, fun _ hcqe => absurd hcqe List.not_mem_nil, h.armed⟩

theorem step_inv (h : Inv env s) {op : Op κ} (hok : Quiet env s op) : Inv env (step env s op) := by
  cases op with
  | updateChannel c i => exact updateChannel_inv h hok
  | removeChannel c => exact removeChannel_inv h hok
  | setReady n events => exact setReady_inv h hok
  | poll => exact poll_inv h

/-! ## When it holds -/

/-- A step that is not quiet completes a request with a mask other than 0. -/
theorem noise_of_not_quiet (h : Inv env s) {op : Op κ} (hnot : ¬ Quiet env s op) :
    ∃ cqe ∈ (step env s op).poller.ring.cqes, cqe.userData ≠ 0
      ∧ ∃ i : Interest, cqe.userData = i.userData := by
  cases op with
  | updateChannel c i =>
      obtain ⟨hne, hready⟩ := Classical.not_imp.mp hnot
      have hfires : (request env c i.events).Fires env.always s.poller.ring.ready := by
        rw [PollRequest.Fires, request, if_pos hne]
        exact hready
      rw [step_updateChannel]
      exact ⟨_, IoUring.completed_of_fires hfires, fun hzero => hne (Interest.userData_eq_zero.mp hzero),
        i, rfl⟩
  | removeChannel c =>
      obtain ⟨hne, hany⟩ := Classical.not_imp.mp hnot
      simp only [not_forall, not_not] at hany
      obtain ⟨r, hr, hdata⟩ := hany
      obtain ⟨cqe, hcqe, hcancelled⟩ := IoUring.cancelled_mem_cqes 0 hr hdata
      obtain ⟨i, hi⟩ := h.data r hr
      rw [step_removeChannel]
      exact ⟨cqe, hcqe, hcancelled ▸ hne, i, hcancelled.trans (hdata.symm.trans hi)⟩
  | setReady n events =>
      simp only [Quiet, not_forall] at hnot
      obtain ⟨r, hr, hfd, hne, hready⟩ := hnot
      have hfires : r.Fires env.always (Function.update s.poller.ring.ready n events) := by
        rw [PollRequest.Fires, hfd, Function.update_self]
        exact hready
      have hmem : r ∈ s.poller.ring.requests.filter fun r =>
          decide (r.fd = n ∧ r.Fires env.always (Function.update s.poller.ring.ready n events)) :=
        List.mem_filter.mpr ⟨hr, decide_eq_true ⟨hfd, hfires⟩⟩
      exact ⟨_, List.mem_append_right _ (List.mem_map_of_mem hmem), hne, h.data r hr⟩
  | poll => exact absurd trivial hnot

/-- **One operation.** -/
theorem step_agrees_iff (h : Inv env s) (op : Op κ) : Agrees env (step env s op) ↔ Quiet env s op := by
  constructor
  · intro hagrees
    by_contra hnot
    obtain ⟨cqe, hcqe, hne, i, hdata⟩ := noise_of_not_quiet h hnot
    exact not_agrees_of_noise hcqe hdata hne hagrees
  · intro hok
    exact (step_inv h hok).agrees

/-- **When the io_uring backend agrees with a level-triggered one.** For channels with distinct fds,
and every run of `update_channel` with any events, `remove_channel`, changes of what the fds are ready
for, and `poll`: in every state the next poll returns registered channels only, and all of them that
are ready for an event in their mask, if and only if in no step of the run a request with a mask other
than 0 completes. -/
theorem agrees_iff_quiet (env : IoUringEnv κ) (ops : List (Op κ)) :
    (∀ n, Agrees env (run (step env) start (ops.take n)))
      ↔ Admissible (step env) (Quiet env) start ops := by
  have hP : ∀ s : LoopState κ (IoUringPoller κ), Inv env s → Agrees env s := fun _ h => h.agrees
  have hinv : ∀ s op, Inv env s → Quiet env s op → Inv env (step env s op) :=
    fun _ _ h hok => step_inv h hok
  exact forall_take_iff_admissible hP (fun _ op h => step_agrees_iff h op) hinv (start_inv env)

/-- One channel, at address 4096 and with fd 5. -/
def single : IoUringEnv Unit where
  fd := ⟨fun _ => 5, Function.injective_of_subsingleton _⟩
  addr _ := 4096
  aligned _ := by decide
  always := 0x018

/-- The channel waits for input, input arrives, and the next poll returns a channel at address 1. -/
theorem input_misreported :
    ¬ (∀ n, Agrees single (run (step single) start
        ([.updateChannel () ⟨true, false⟩, .setReady 5 POLLIN].take n)))
      ∧ (run (step single) start [.updateChannel () ⟨true, false⟩, .setReady 5 POLLIN]).poller.active
          = [⟨1, EPOLLIN⟩] := by
  have hcqes : (run (step single) start
      [.updateChannel () ⟨true, false⟩, .setReady 5 POLLIN]).poller.ring.cqes = [⟨1, 1⟩] := by
    decide +kernel
  have hnoise : (⟨1, 1⟩ : Cqe) ∈ (run (step single) start
      [.updateChannel () ⟨true, false⟩, .setReady 5 POLLIN]).poller.ring.cqes :=
    hcqes ▸ List.mem_singleton_self _
  refine ⟨fun h => ?_, by decide +kernel⟩
  exact not_agrees_of_noise (i := ⟨true, false⟩) hnoise rfl (by decide) (h 2)

end IoUringPoller

end LightNet.Core
