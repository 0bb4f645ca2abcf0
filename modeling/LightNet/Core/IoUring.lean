/-
# LightNet.Core.IoUring — poll requests in an io_uring.

A `poll_add` request completes once: at its submission when its fd is ready, or later when the fd
becomes ready, or when a `poll_remove` cancels it.  All that its completion tells of the request is its
`user_data`.  Which events a request waits for besides its mask is up to the kernel, and is `always`.
-/
import LightNet.Foundation.Run
import Mathlib.Logic.Function.Basic

namespace LightNet.Core

/-- A `poll_add` request. -/
structure PollRequest where
  fd : Nat
  mask : UInt32
  userData : UInt64
  deriving DecidableEq

/-- `io_uring_cqe`. -/
structure Cqe where
  userData : UInt64
  res : Int
  deriving DecidableEq

/-- A ring, with the fds as the kernel sees them: which events each is ready for, the requests that
wait, and the completion queue. -/
structure IoUring where
  ready : Nat → UInt32 := fun _ => 0
  requests : List PollRequest := []
  cqes : List Cqe := []

/-- There is no such request. -/
def ENOENT : Int := 2
/-- The request has been removed. -/
def ECANCELED : Int := 125

/-- The fd of the request is ready for what the request waits for. -/
def PollRequest.Fires (always : UInt32) (ready : Nat → UInt32) (r : PollRequest) : Prop :=
  ready r.fd &&& (r.mask ||| always) ≠ 0

instance (always : UInt32) (ready : Nat → UInt32) (r : PollRequest) : Decidable (r.Fires always ready) :=
  inferInstanceAs (Decidable (_ ≠ _))

/-- Its completion then. -/
def PollRequest.completion (always : UInt32) (ready : Nat → UInt32) (r : PollRequest) : Cqe :=
  ⟨r.userData, (ready r.fd &&& (r.mask ||| always)).toNat⟩

namespace IoUring

/-- A `poll_add` is submitted. -/
def pollAdd (always : UInt32) (u : IoUring) (r : PollRequest) : IoUring :=
  if r.Fires always u.ready then { u with cqes := u.cqes ++ [r.completion always u.ready] }
  else { u with requests := u.requests ++ [r] }

/-- A `poll_remove` of the request with some `user_data` is submitted, with `own` as its own. -/
def pollRemove (u : IoUring) (userData own : UInt64) : IoUring :=
  match u.requests.find? fun r => r.userData = userData with
  | none => { u with cqes := u.cqes ++ [⟨own, -ENOENT⟩] }
  | some r =>
      { u with requests := u.requests.erase r, cqes := u.cqes ++ [⟨r.userData, -ECANCELED⟩, ⟨own, 0⟩] }

/-- Fd `n` is ready for `events` from now on. -/
def setReady (always : UInt32) (u : IoUring) (n : Nat) (events : UInt32) : IoUring :=
  let ready := Function.update u.ready n events
  let fires := fun r : PollRequest => decide (r.fd = n ∧ r.Fires always ready)
  { ready
    requests := u.requests.filter fun r => !fires r
    cqes := u.cqes ++ (u.requests.filter fires).map (PollRequest.completion always ready) }

/-- The completions have been read. -/
def advance (u : IoUring) : IoUring := { u with cqes := [] }

/-! ## Requests that wait are not ready -/

/-- No request waits for what its fd is ready for. -/
def Settled (always : UInt32) (u : IoUring) : Prop := ∀ r ∈ u.requests, ¬ r.Fires always u.ready

variable {always : UInt32} {u : IoUring}

theorem pollAdd_settled (h : u.Settled always) (r : PollRequest) : (u.pollAdd always r).Settled always := by
  unfold pollAdd
  split
  · exact h
  · rename_i hquiet
    intro r' hr'
    rcases List.mem_append.mp hr' with hold | hnew
    · exact h r' hold
    · obtain rfl := List.mem_singleton.mp hnew
      exact hquiet

theorem pollRemove_settled (h : u.Settled always) (userData own : UInt64) :
    (u.pollRemove userData own).Settled always := by
  unfold pollRemove
  split
  · exact h
  · exact fun r hr => h r (List.mem_of_mem_erase hr)

theorem setReady_settled (h : u.Settled always) (n : Nat) (events : UInt32) :
    (u.setReady always n events).Settled always := by
  intro r hr hfires
  obtain ⟨hmem, hquiet⟩ := List.mem_filter.mp hr
  by_cases hfd : r.fd = n
  · simp only [Bool.not_eq_true', decide_eq_false_iff_not] at hquiet
    exact hquiet ⟨hfd, hfires⟩
  · -- nothing has changed for another fd
    have hsame : Function.update u.ready n events r.fd = u.ready r.fd := Function.update_of_ne hfd _ _
    have hold : r.Fires always u.ready := by
      rw [PollRequest.Fires, ← hsame]
      exact hfires
    exact h r hmem hold

/-! ## What completes -/

theorem mem_pollAdd {r r' : PollRequest} (h : r' ∈ (u.pollAdd always r).requests) :
    r' ∈ u.requests ∨ r' = r := by
  unfold pollAdd at h
  split at h
  · exact .inl h
  · rcases List.mem_append.mp h with hold | hnew
    · exact .inl hold
    · exact .inr (List.mem_singleton.mp hnew)

theorem mem_pollAdd_of_mem {r' : PollRequest} (h : r' ∈ u.requests) (r : PollRequest) :
    r' ∈ (u.pollAdd always r).requests := by
  unfold pollAdd
  split
  · exact h
  · exact List.mem_append_left _ h

/-- A request completes at its submission when its fd is ready. -/
theorem mem_cqes_pollAdd {r : PollRequest} {cqe : Cqe} (h : cqe ∈ (u.pollAdd always r).cqes) :
    cqe ∈ u.cqes ∨ (cqe.userData = r.userData ∧ r.Fires always u.ready) := by
  unfold pollAdd at h
  split at h
  · rename_i hfires
    rcases List.mem_append.mp h with hold | hnew
    · exact .inl hold
    · obtain rfl := List.mem_singleton.mp hnew
      exact .inr ⟨rfl, hfires⟩
  · exact .inl h

theorem completed_of_fires {r : PollRequest} (h : r.Fires always u.ready) :
    r.completion always u.ready ∈ (u.pollAdd always r).cqes := by
  rw [pollAdd, if_pos h]
  exact List.mem_append_right _ (List.mem_singleton_self _)

/-- The request that a `poll_remove` finds. -/
theorem found {userData : UInt64} {r : PollRequest}
    (h : (u.requests.find? fun r => r.userData = userData) = some r) :
    r ∈ u.requests ∧ r.userData = userData :=
  ⟨List.mem_of_find?_eq_some h, by simpa using List.find?_some h⟩

/-- Only a request with the `user_data` that was asked for is cancelled. -/
theorem mem_pollRemove {userData own : UInt64} {r : PollRequest} (hr : r ∈ u.requests)
    (hne : r.userData ≠ userData) : r ∈ (u.pollRemove userData own).requests := by
  unfold pollRemove
  split
  · exact hr
  · rename_i r' hfind
    refine (List.mem_erase_of_ne ?_).mpr hr
    rintro rfl
    exact hne (found hfind).2

theorem mem_of_mem_pollRemove {userData own : UInt64} {r : PollRequest}
    (hr : r ∈ (u.pollRemove userData own).requests) : r ∈ u.requests := by
  unfold pollRemove at hr
  split at hr
  · exact hr
  · exact List.mem_of_mem_erase hr

/-- The completions after a `poll_remove`: the old ones, its own, and that of a request with the
`user_data` that was asked for, if there is one. -/
theorem mem_cqes_pollRemove {userData own : UInt64} {cqe : Cqe}
    (h : cqe ∈ (u.pollRemove userData own).cqes) :
    cqe ∈ u.cqes ∨ cqe.userData = own
      ∨ (cqe.userData = userData ∧ ∃ r ∈ u.requests, r.userData = userData) := by
  unfold pollRemove at h
  split at h
  · rcases List.mem_append.mp h with hold | hnew
    · exact .inl hold
    · obtain rfl := List.mem_singleton.mp hnew
      exact .inr (.inl rfl)
  · rename_i r hfind
    obtain ⟨hmem, hfound⟩ := found hfind
    rcases List.mem_append.mp h with hold | hnew
    · exact .inl hold
    · rcases List.mem_cons.mp hnew with rfl | hown
      · exact .inr (.inr ⟨hfound, r, hmem, hfound⟩)
      · obtain rfl := List.mem_singleton.mp hown
        exact .inr (.inl rfl)

/-- A request that is asked for is cancelled. -/
theorem cancelled_mem_cqes {userData : UInt64} (own : UInt64) {r : PollRequest} (hr : r ∈ u.requests)
    (hdata : r.userData = userData) :
    ∃ cqe ∈ (u.pollRemove userData own).cqes, cqe.userData = userData := by
  unfold pollRemove
  split
  · rename_i hnone
    exact absurd (decide_eq_true hdata) (List.find?_eq_none.mp hnone r hr)
  · rename_i r' hfind
    exact ⟨⟨r'.userData, -ECANCELED⟩, List.mem_append_right _ List.mem_cons_self, (found hfind).2⟩

end IoUring

end LightNet.Core
