/-
# LightNet.Core.EpollPoller — what the kernel watches, and what has been removed.

Whether a channel is registered is written down three times: in its `index_`, in the kernel's interest
set, and in `channels_`.  `update_channel` goes by the first and changes the second; `remove_channel`
goes by the third, which only `poll` fills.  So a channel that is removed before any `poll` has
returned it stays in the interest set, and the kernel goes on returning its pointer.
-/
import LightNet.Core.Channel
import LightNet.Foundation.Mirror
import LightNet.Foundation.Run
import Mathlib.Logic.Embedding.Basic

namespace LightNet.Core

open LightNet.Foundation

/-! ## The kernel -/

/-- The operations of `epoll_ctl`. -/
inductive EpollCtl where
  | add
  | mod
  | del

/-- `epoll_ctl(op, fd, &event)` on an interest set; it fails, and changes nothing, when `add` finds
the fd present, or `mod` or `del` find it absent. -/
def epollCtl {κ : Type} (op : EpollCtl) (fd : Nat) (event : κ × UInt32)
    (set : UnorderedMap Nat (κ × UInt32)) : UnorderedMap Nat (κ × UInt32) :=
  match op with
  | .add => if fd ∈ set then set else UnorderedMap.assign fd event set
  | .mod => if fd ∈ set then UnorderedMap.assign fd event set else set
  | .del => if fd ∈ set then set.erase fd else set

/-- `epoll_wait`: of the fds that are ready, with their events, the ones in the interest set, and at
most `max` of them. -/
def epollWait {κ : Type} (max : Nat) (ready : List (Nat × UInt32))
    (set : UnorderedMap Nat (κ × UInt32)) : List (κ × UInt32) :=
  (ready.filterMap fun r => (set.lookup r.1).map fun event => (event.1, r.2)).take max

/-- `lightnet::EpollPoller`: `interest` is the interest set behind `epoll_fd_`, `eventsSize` the size
of the array `events_`. -/
structure EpollPoller (κ : Type) where
  interest : UnorderedMap Nat (κ × UInt32) := ∅
  eventsSize : Nat := 16
  channels : UnorderedMap Nat κ := ∅

namespace EpollPoller

-- the channels have distinct fds, which stay open
variable {κ : Type} [DecidableEq κ] (fd : κ ↪ Nat)

/-! ## The class -/

/-- `update(operation, channel)`. -/
def control (op : EpollCtl) (s : LoopState κ (EpollPoller κ)) (c : κ) :
    LoopState κ (EpollPoller κ) :=
  { s with
    poller := { s.poller with
      interest := epollCtl op (fd c) (c, (s.channels c).events) s.poller.interest } }

/-- `update_channel(channel)`. -/
def updateChannel (s : LoopState κ (EpollPoller κ)) (c : κ) : LoopState κ (EpollPoller κ) :=
  if (s.channels c).index < 0 then (control fd .add s c).modify c fun ch => { ch with index := 0 }
  else control fd .mod s c

/-- `remove_channel(channel)`. -/
def removeChannel (s : LoopState κ (EpollPoller κ)) (c : κ) : LoopState κ (EpollPoller κ) :=
  let s :=
    if fd c ∈ s.poller.channels then
      let s := control fd .del s c
      { s with poller := { s.poller with channels := s.poller.channels.erase (fd c) } }
    else s
  s.modify c fun ch => { ch with index := -1 }

/-- The poller that a `Channel` calls. -/
def ops : Poller κ (EpollPoller κ) := ⟨updateChannel fd, removeChannel fd⟩

/-- `fill_active_channels`. -/
def fillActiveChannels (events : List (κ × UInt32)) (channels : UnorderedMap Nat κ) :
    UnorderedMap Nat κ :=
  events.foldl (fun channels e => UnorderedMap.assign (fd e.1) e.1 channels) channels

/-- What `poll` returns when these fds are ready. -/
def active (p : EpollPoller κ) (ready : List (Nat × UInt32)) : List (κ × UInt32) :=
  epollWait p.eventsSize ready p.interest

/-- What `poll` leaves behind. -/
def poll (s : LoopState κ (EpollPoller κ)) (ready : List (Nat × UInt32)) :
    LoopState κ (EpollPoller κ) :=
  let events := s.poller.active ready
  if 0 < events.length then
    { s with
      poller := { s.poller with
        channels := fillActiveChannels fd events s.poller.channels
        eventsSize :=
          if events.length = s.poller.eventsSize then s.poller.eventsSize * 2
          else s.poller.eventsSize } }
  else s

/-- A call on a channel, or a `poll` that finds some fds ready. -/
inductive Op (κ : Type) where
  | call (call : ChannelCall κ)
  | poll (ready : List (Nat × UInt32))
  deriving DecidableEq

/-- A call on a channel, or a `poll`. -/
def step (s : LoopState κ (EpollPoller κ)) : Op κ → LoopState κ (EpollPoller κ)
  | .call call => (ops fd).call s call
  | .poll ready => poll fd s ready

/-- No channel is registered. -/
def start : LoopState κ (EpollPoller κ) := ⟨fun _ => {}, {}⟩

/-! ## The contract -/

/-- The interest set is the registered channels with their events, and no `poll` returns any other
channel. -/
structure Faithful (s : LoopState κ (EpollPoller κ)) : Prop where
  mirrors : Mirrors fd s.registered s.poller.interest
  returned : ∀ ready, ∀ e ∈ s.poller.active ready, 0 ≤ (s.channels e.1).index

/-- The interest set mirrors the registered channels, and `channels_` holds none but these. -/
structure Inv (s : LoopState κ (EpollPoller κ)) : Prop where
  mirrors : Mirrors fd s.registered s.poller.interest
  seen : ∀ n c, s.poller.channels.lookup n = some c → fd c = n ∧ 0 ≤ (s.channels c).index

/-- A registered channel is removed only when its fd is in `channels_`: some `poll` has returned it
since it was registered. -/
def SeenBefore (s : LoopState κ (EpollPoller κ)) : Op κ → Prop
  | .call (.remove c) => 0 ≤ (s.channels c).index → fd c ∈ s.poller.channels
  | _ => True

end EpollPoller

/-! ## A mirror -/

namespace EpollPoller

section

variable {κ : Type} {fd : κ ↪ Nat} {s : LoopState κ (EpollPoller κ)}

/-- In a mirror the fds of the registered channels are present, and no others. -/
theorem mem_interest_iff (h : Mirrors fd s.registered s.poller.interest) (c : κ) :
    fd c ∈ s.poller.interest ↔ 0 ≤ (s.channels c).index := by
  rw [h.mem_iff fd.injective, LoopState.registered, Channel.registered]
  split <;> simp [*]

theorem registered_eq_some {c : κ} (h : 0 ≤ (s.channels c).index) :
    s.registered c = some (s.channels c).events := if_pos h

/-- What a `poll` returns is registered. -/
theorem index_of_mem_active (h : Mirrors fd s.registered s.poller.interest)
    {ready : List (Nat × UInt32)} {e : κ × UInt32} (he : e ∈ s.poller.active ready) :
    0 ≤ (s.channels e.1).index := by
  obtain ⟨r, -, hr⟩ := List.mem_filterMap.mp (List.mem_of_mem_take he)
  obtain ⟨event, hlook, rfl⟩ := Option.map_eq_some_iff.mp hr
  have hreg : s.registered event.1 = some event.2 := ((h _ _ _).mp hlook).2
  by_contra hindex
  rw [LoopState.registered, Channel.registered, if_neg hindex] at hreg
  cases hreg

/-- Level-triggered: a registered channel is returned by every `poll` that finds its fd ready. -/
theorem mem_active (h : Mirrors fd s.registered s.poller.interest) {c : κ}
    (hc : 0 ≤ (s.channels c).index) {ready : List (Nat × UInt32)} {revents : UInt32}
    (hready : (fd c, revents) ∈ ready) (hroom : ready.length ≤ s.poller.eventsSize) :
    (c, revents) ∈ s.poller.active ready := by
  have hlook : s.poller.interest.lookup (fd c) = some (c, (s.channels c).events) :=
    (h _ _ _).mpr ⟨rfl, registered_eq_some hc⟩
  have hlength := List.length_filterMap_le (fun r : Nat × UInt32 =>
    (s.poller.interest.lookup r.1).map fun event => (event.1, r.2)) ready
  rw [EpollPoller.active, epollWait, List.take_of_length_le (Nat.le_trans hlength hroom)]
  exact List.mem_filterMap.mpr ⟨_, hready, by rw [hlook]; rfl⟩

theorem faithful_iff : Faithful fd s ↔ Mirrors fd s.registered s.poller.interest := by
  constructor
  · exact Faithful.mirrors
  · intro h
    exact ⟨h, fun _ _ he => index_of_mem_active h he⟩

/-- What `fill_active_channels` puts into the table are the channels of the events. -/
theorem lookup_fillActiveChannels {events : List (κ × UInt32)} {channels : UnorderedMap Nat κ} {n : Nat}
    {c : κ} (h : (fillActiveChannels fd events channels).lookup n = some c) :
    channels.lookup n = some c ∨ (fd c = n ∧ ∃ e ∈ events, e.1 = c) := by
  induction events generalizing channels with
  | nil => exact .inl h
  | cons e events ih =>
      rcases ih h with hold | ⟨hfd, e', he', hc⟩
      · rw [UnorderedMap.lookup_assign] at hold
        split at hold
        · rename_i hn
          obtain rfl := Option.some.inj hold
          exact .inr ⟨hn.symm, e, List.mem_cons_self, rfl⟩
        · exact .inl hold
      · exact .inr ⟨hfd, e', List.mem_cons_of_mem e he', hc⟩

theorem start_inv : Inv fd (start : LoopState κ (EpollPoller κ)) where
  mirrors := Mirrors.empty fd
  seen n c h := by
    rw [show (start : LoopState κ (EpollPoller κ)).poller.channels.lookup n = none from rfl] at h
    cases h

theorem poll_inv (h : Inv fd s) (ready : List (Nat × UInt32)) : Inv fd (poll fd s ready) := by
  rw [poll]
  dsimp only
  split
  · refine ⟨h.mirrors, fun n c hc => ?_⟩
    rcases lookup_fillActiveChannels hc with hold | ⟨hfd, e, he, rfl⟩
    · exact h.seen n c hold
    · exact ⟨hfd, index_of_mem_active h.mirrors he⟩
  · exact h

end

/-! ## What one operation does -/

variable {κ : Type} [DecidableEq κ] {fd : κ ↪ Nat}

/-- A change of the events of a channel. -/
theorem setEvents_eq (s : LoopState κ (EpollPoller κ)) (f : UInt32 → UInt32) (c : κ) :
    (ops fd).setEvents f s c
      = { channels := Function.update s.channels c
            { events := f (s.channels c).events
              index := if (s.channels c).index < 0 then 0 else (s.channels c).index
              addedToLoop := true }
          poller := { s.poller with
            interest := epollCtl (if (s.channels c).index < 0 then .add else .mod) (fd c)
              (c, f (s.channels c).events) s.poller.interest } } := by
  show updateChannel fd _ c = _
  rw [LoopState.modify_modify, updateChannel, LoopState.modify_self]
  by_cases hindex : (s.channels c).index < 0
  · simp only [Function.comp_apply, hindex, if_true, control, LoopState.modify, Function.update_self,
      Function.update_idem]
  · simp only [Function.comp_apply, hindex, if_false, control, LoopState.modify, Function.update_self]

theorem remove_eq (s : LoopState κ (EpollPoller κ)) (c : κ) :
    (ops fd).remove s c
      = { channels := Function.update s.channels c
            { events := (s.channels c).events, index := -1, addedToLoop := false }
          poller :=
            if fd c ∈ s.poller.channels then
              { s.poller with
                interest := epollCtl .del (fd c) (c, (s.channels c).events) s.poller.interest
                channels := s.poller.channels.erase (fd c) }
            else s.poller } := by
  show removeChannel fd _ c = _
  rw [removeChannel]
  by_cases hmem : fd c ∈ s.poller.channels
  · simp only [hmem, if_true, control, LoopState.modify, Function.update_self, Function.update_idem]
  · simp only [hmem, if_false, LoopState.modify, Function.update_self, Function.update_idem]

theorem setEvents_registered (s : LoopState κ (EpollPoller κ)) (f : UInt32 → UInt32) (c : κ) :
    ((ops fd).setEvents f s c).registered
      = Function.update s.registered c (some (f (s.channels c).events)) := by
  rw [setEvents_eq, LoopState.registered_update]
  have hindex : 0 ≤ if (s.channels c).index < 0 then 0 else (s.channels c).index := by
    split <;> omega
  exact congrArg (Function.update _ c) (if_pos hindex)

theorem remove_registered (s : LoopState κ (EpollPoller κ)) (c : κ) :
    ((ops fd).remove s c).registered = Function.update s.registered c none := by
  rw [remove_eq, LoopState.registered_update]
  rfl

/-- **Registering and changing.** In a mirror `epoll_ctl` does not fail: a channel is added when it is
absent, and changed when it is present. -/
theorem setEvents_mirrors {s : LoopState κ (EpollPoller κ)}
    (h : Mirrors fd s.registered s.poller.interest) (f : UInt32 → UInt32) (c : κ) :
    Mirrors fd ((ops fd).setEvents f s c).registered ((ops fd).setEvents f s c).poller.interest := by
  have hassign : ((ops fd).setEvents f s c).poller.interest
      = UnorderedMap.assign (fd c) (c, f (s.channels c).events) s.poller.interest := by
    rw [setEvents_eq]
    by_cases hindex : (s.channels c).index < 0
    · simp only [if_pos hindex, epollCtl]
      exact if_neg (by rw [mem_interest_iff h]; omega)
    · simp only [if_neg hindex, epollCtl]
      exact if_pos (by rw [mem_interest_iff h]; omega)
  rw [setEvents_registered, hassign]
  exact h.assign fd.injective c _

/-- **Removing.** The entry goes exactly when the channel is found in `channels_`, or there is none. -/
theorem remove_mirrors_iff {s : LoopState κ (EpollPoller κ)}
    (h : Mirrors fd s.registered s.poller.interest) (c : κ) :
    Mirrors fd ((ops fd).remove s c).registered ((ops fd).remove s c).poller.interest
      ↔ (0 ≤ (s.channels c).index → fd c ∈ s.poller.channels) := by
  rw [remove_registered, remove_eq]
  by_cases hindex : 0 ≤ (s.channels c).index
  · by_cases hmem : fd c ∈ s.poller.channels
    · simp only [if_pos hmem, epollCtl, if_pos ((mem_interest_iff h c).mpr hindex)]
      exact iff_of_true (h.erase fd.injective c) fun _ => hmem
    · simp only [if_neg hmem]
      exact iff_of_false (h.not_stale (registered_eq_some hindex)) fun himp => hmem (himp hindex)
  · -- a channel that is not registered has no entry
    have hsame : Function.update s.registered c none = s.registered := by
      rw [Function.update_eq_self_iff]
      exact (if_neg hindex).symm
    have habsent : fd c ∉ s.poller.interest := by rwa [mem_interest_iff h]
    rw [hsame]
    refine iff_of_true ?_ fun himp => absurd himp hindex
    split
    · simp only [epollCtl, if_neg habsent]
      exact h
    · exact h

theorem remove_channels (s : LoopState κ (EpollPoller κ)) (c : κ) :
    ((ops fd).remove s c).poller.channels
      = if fd c ∈ s.poller.channels then s.poller.channels.erase (fd c) else s.poller.channels := by
  rw [remove_eq]
  split <;> rfl

/-! ## Every run -/

/-- A change of the events keeps the invariant. -/
theorem setEvents_inv {s : LoopState κ (EpollPoller κ)} (h : Inv fd s) (f : UInt32 → UInt32) (c : κ) :
    Inv fd ((ops fd).setEvents f s c) := by
  refine ⟨setEvents_mirrors h.mirrors f c, fun n d hd => ?_⟩
  rw [setEvents_eq] at hd ⊢
  obtain ⟨hfd, hindex⟩ := h.seen n d hd
  refine ⟨hfd, ?_⟩
  show 0 ≤ (Function.update s.channels c _ d).index
  by_cases hdc : d = c
  · subst hdc
    rw [Function.update_self]
    show 0 ≤ if (s.channels d).index < 0 then 0 else (s.channels d).index
    split <;> omega
  · rw [Function.update_of_ne hdc]
    exact hindex

/-- So does a removal that finds its channel. -/
theorem remove_inv {s : LoopState κ (EpollPoller κ)} (h : Inv fd s) {c : κ}
    (hok : 0 ≤ (s.channels c).index → fd c ∈ s.poller.channels) : Inv fd ((ops fd).remove s c) := by
  refine ⟨(remove_mirrors_iff h.mirrors c).mpr hok, fun n d hd => ?_⟩
  -- nothing is left under the fd of the channel
  have hold : s.poller.channels.lookup n = some d ∧ n ≠ fd c := by
    rw [remove_channels] at hd
    split at hd
    · rw [UnorderedMap.lookup_erase] at hd
      split at hd
      · cases hd
      · rename_i hn
        exact ⟨hd, hn⟩
    · rename_i habsent
      refine ⟨hd, ?_⟩
      rintro rfl
      exact habsent (UnorderedMap.mem_iff_lookup.mpr ⟨d, hd⟩)
  obtain ⟨hfd, hindex⟩ := h.seen n d hold.1
  refine ⟨hfd, ?_⟩
  have hdc : d ≠ c := fun heq => hold.2 (heq ▸ hfd.symm)
  rw [remove_eq]
  show 0 ≤ (Function.update s.channels c _ d).index
  rw [Function.update_of_ne hdc]
  exact hindex

theorem step_inv {s : LoopState κ (EpollPoller κ)} (h : Inv fd s) {op : Op κ}
    (hok : SeenBefore fd s op) : Inv fd (step fd s op) := by
  cases op with
  | call call =>
      rcases (ops fd).call_cases s call with ⟨f, c, heq, -⟩ | ⟨c, rfl, heq⟩
      · rw [step, heq]
        exact setEvents_inv h f c
      · rw [step, heq]
        exact remove_inv h hok
  | poll ready => exact poll_inv h ready

/-- **One operation.** -/
theorem step_faithful_iff {s : LoopState κ (EpollPoller κ)} (h : Inv fd s) (op : Op κ) :
    Faithful fd (step fd s op) ↔ SeenBefore fd s op := by
  refine ⟨fun hfaithful => ?_, fun hok => faithful_iff.mpr (step_inv h hok).mirrors⟩
  cases op with
  | call call =>
      rcases (ops fd).call_cases s call with ⟨f, c, -, hnone⟩ | ⟨c, rfl, heq⟩
      · cases call with
        | remove d => cases hnone
        | enableReading | disableReading | enableWriting | disableWriting | disableAll => trivial
      · rw [step, heq] at hfaithful
        exact (remove_mirrors_iff h.mirrors c).mp hfaithful.mirrors
  | poll ready => trivial

/-- **When the interest set mirrors the registered channels.** For channels with distinct fds, and
every run of calls on channels and of polls that find any fds ready with any events: in every state an
fd is in the interest set exactly when its channel is registered, with the channel's pointer and
events, and no poll returns a channel that is not registered, if and only if each removal of a
registered channel finds its fd in `channels_`. -/
theorem faithful_iff_seen_before (fd : κ ↪ Nat) (ops : List (Op κ)) :
    (∀ n, Faithful fd (run (step fd) start (ops.take n)))
      ↔ Admissible (step fd) (SeenBefore fd) start ops := by
  have hP : ∀ s : LoopState κ (EpollPoller κ), Inv fd s → Faithful fd s :=
    fun _ h => faithful_iff.mpr h.mirrors
  have hinv : ∀ s op, Inv fd s → SeenBefore fd s op → Inv fd (step fd s op) :=
    fun _ _ h hok => step_inv h hok
  exact forall_take_iff_admissible hP (fun _ op h => step_faithful_iff h op) hinv start_inv

/-- A channel is removed before any `poll` has returned it: the interest set keeps the pointer, and a
hang-up returns it. -/
theorem removed_unseen :
    ¬ (∀ n, Faithful (Function.Embedding.refl Nat) (run (step (.refl Nat)) start
        ([.call (.enableReading 5), .call (.disableAll 5), .call (.remove 5)].take n)))
      ∧ (run (step (.refl Nat)) start
          [.call (.enableReading 5), .call (.disableAll 5), .call (.remove 5)]).poller.active
            [(5, 0x010)] = [(5, 0x010)] := by
  have hreturned : (run (step (.refl Nat)) start [.call (.enableReading 5), .call (.disableAll 5),
      .call (.remove 5)]).poller.active [(5, 0x010)] = [(5, 0x010)] := by
    decide +kernel
  refine ⟨fun h => ?_, hreturned⟩
  have hindex := (h 3).returned [(5, 0x010)] (5, 0x010)
    (hreturned ▸ List.mem_singleton_self _)
  exact absurd hindex (by decide +kernel)

end EpollPoller

end LightNet.Core
