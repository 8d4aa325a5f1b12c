import CMeshApi.WpcConstants

/-!
# One request and its confirm

The loop of `send_request_locked` of `wpc_internal.c`. A round waits for a frame,
and what it does next depends only on the result of `Slip_get_buffer` and on the
two counters of the call. The date of the last answer, which decides when the
process gives up on a silent node, is not part of the exchange.
-/

namespace CMeshApi.Wpc

def maxConfirmAttempt : Nat := 50
def maxCrcRequestErrorRetries : UInt8 := 3

/-- A `wpc_frame_t`, with the bytes of its payload. -/
structure WpcFrame where
  primitiveId : UInt8
  frameId : UInt8
  payload : List UInt8
deriving DecidableEq, Repr

/-- The result of `Slip_get_buffer`: a negative code, or a frame. -/
inductive Reception where
  | failed (code : Int)
  | frame (rec : WpcFrame)
deriving DecidableEq, Repr

/-- The local variables of a call inside its loop. -/
structure Exchange where
  request : WpcFrame
  attempt : Nat
  crcRequestRetries : UInt8
deriving DecidableEq, Repr

inductive Action where
  | resend (x : Exchange)
  | wait (x : Exchange)
  | giveBack (result : Int) (confirm : Option WpcFrame)
deriving DecidableEq, Repr

/-- The end of a round that skips a frame, with the test of the loop. -/
def skip (x : Exchange) : Action :=
  if x.attempt + 1 < maxConfirmAttempt then .wait { x with attempt := x.attempt + 1 }
  else .giveBack wpcIntSyncError none

def onReception (x : Exchange) : Reception → Action
  | .failed code =>
    if code = wpcIntWrongCrcFromHost ∧ x.crcRequestRetries < maxCrcRequestErrorRetries then
      .resend { x with crcRequestRetries := x.crcRequestRetries + 1 }
    else .giveBack code none
  | .frame rec =>
    if rec.primitiveId.toNat ≠ x.request.primitiveId.toNat + sapConfirmOffset then skip x
    else if rec.frameId ≠ x.request.frameId then skip x
    else .giveBack 0 (some rec)

theorem skip_eq (x : Exchange) :
    skip x = .wait { x with attempt := x.attempt + 1 } ∨
      skip x = .giveBack wpcIntSyncError none := by
  unfold skip
  split
  · exact Or.inl rfl
  · exact Or.inr rfl

theorem onReception_resend {x y : Exchange} {r : Reception} (h : onReception x r = .resend y) :
    r = .failed wpcIntWrongCrcFromHost ∧ y.request = x.request := by
  cases r with
  | failed code =>
    simp only [onReception] at h
    split at h
    · next hRetry =>
      cases h
      exact ⟨congrArg _ hRetry.1, rfl⟩
    · cases h
  | frame rec =>
    simp only [onReception] at h
    split at h
    · rcases skip_eq x with hSkip | hSkip <;> rw [hSkip] at h <;> cases h
    · split at h
      · rcases skip_eq x with hSkip | hSkip <;> rw [hSkip] at h <;> cases h
      · cases h

theorem onReception_wait {x y : Exchange} {r : Reception} (h : onReception x r = .wait y) :
    y.request = x.request := by
  cases r with
  | failed code =>
    simp only [onReception] at h
    split at h <;> cases h
  | frame rec =>
    have hSkip : ∀ z, skip x = .wait z → z.request = x.request := by
      intro z hz
      rcases skip_eq x with hEq | hEq <;> rw [hEq] at hz <;> cases hz
      rfl
    simp only [onReception] at h
    split at h
    · exact hSkip y h
    · split at h
      · exact hSkip y h
      · cases h

theorem onReception_zero {x : Exchange} {r : Reception} {confirm : Option WpcFrame}
    (hCode : ∀ code, r = .failed code → code < 0) (h : onReception x r = .giveBack 0 confirm) :
    ∃ rec, r = .frame rec ∧ confirm = some rec ∧ rec.frameId = x.request.frameId ∧
      rec.primitiveId.toNat = x.request.primitiveId.toNat + sapConfirmOffset := by
  cases r with
  | failed code =>
    simp only [onReception] at h
    split at h
    · cases h
    · cases h
      exact absurd (hCode 0 rfl) (Int.lt_irrefl 0)
  | frame rec =>
    have hSkip : skip x ≠ .giveBack 0 confirm := by
      intro hEq
      rcases skip_eq x with hWait | hLost
      · rw [hWait] at hEq
        cases hEq
      · rw [hLost] at hEq
        rw [Action.giveBack.injEq] at hEq
        exact absurd hEq.1 (by decide)
    simp only [onReception] at h
    split at h
    · exact absurd h hSkip
    · next hPrimitive =>
      split at h
      · exact absurd h hSkip
      · next hFrameId =>
        cases h
        exact ⟨rec, rfl, rfl, Decidable.not_not.mp hFrameId, Decidable.not_not.mp hPrimitive⟩

end CMeshApi.Wpc
