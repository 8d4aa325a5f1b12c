import CMeshApi.Wpc.SendRequest
import Mathlib.Data.Nat.Count

/-!
# The attempts of one request

`send_request_locked` counts the frames that it skips and the requests that it sends again after a
reported CRC error. The serial line is a script: what each call of `Slip_send_buffer` and of
`Slip_get_buffer` returns.
-/

namespace CMeshApi.Wpc

structure Script where
  sends : Nat → Int
  receptions : Nat → Reception
  negative : ∀ k code, receptions k = .failed code → code < 0

/-- A call of the SLIP layer with what it returned. -/
inductive SlipCall where
  | send (request : WpcFrame) (result : Int)
  | receive (reception : Reception)
deriving DecidableEq, Repr

structure Outcome where
  result : Int
  confirm : Option WpcFrame
  calls : List SlipCall
deriving DecidableEq, Repr

def Outcome.after (calls : List SlipCall) (o : Outcome) : Outcome := { o with calls := calls ++ o.calls }

/-- At most so many rounds of the loop, and `none` when it takes more. -/
def confirmRounds (s : Script) : Nat → Exchange → (sent received : Nat) → Option Outcome
  | 0, _, _, _ => none
  | rounds + 1, x, sent, received =>
    match onReception x (s.receptions received) with
    | .giveBack result confirm => some ⟨result, confirm, [.receive (s.receptions received)]⟩
    | .wait y =>
      (confirmRounds s rounds y sent (received + 1)).map (.after [.receive (s.receptions received)])
    | .resend y =>
      let calls := [.receive (s.receptions received), .send y.request (s.sends sent)]
      if s.sends sent < 0 then some ⟨wpcIntGenError, none, calls⟩
      else (confirmRounds s rounds y (sent + 1) (received + 1)).map (.after calls)

/-- `frameId` is the static variable, which the next call finds incremented. -/
def numbered (frameId : UInt8) (request : WpcFrame) : WpcFrame := { request with frameId := frameId }

def sendRequestLocked (s : Script) (rounds : Nat) (frameId : UInt8) (request : WpcFrame) : Option Outcome :=
  let calls := [.send (numbered frameId request) (s.sends 0)]
  if s.sends 0 < 0 then some ⟨wpcIntGenError, none, calls⟩
  else (confirmRounds s rounds ⟨numbered frameId request, 0, 0⟩ 1 0).map (.after calls)

def Matches (request rec : WpcFrame) : Prop :=
  rec.primitiveId.toNat = request.primitiveId.toNat + sapConfirmOffset ∧ rec.frameId = request.frameId

/-- A frame that is skipped. -/
def Other (request : WpcFrame) (r : Reception) : Prop := ∃ rec, r = .frame rec ∧ ¬ Matches request rec

instance (request rec : WpcFrame) : Decidable (Matches request rec) :=
  inferInstanceAs (Decidable (_ ∧ _))

instance (request : WpcFrame) (r : Reception) : Decidable (Other request r) :=
  match r with
  | .failed _ => isFalse fun ⟨_, h, _⟩ => nomatch h
  | .frame rec => decidable_of_iff (¬ Matches request rec)
      ⟨fun h => ⟨rec, rfl, h⟩, fun ⟨_, hRec, h⟩ => Reception.frame.inj hRec ▸ h⟩

/-- How many of the first receptions are skipped, and how many report a CRC error in the request. -/
def others (s : Script) (request : WpcFrame) (k : Nat) : Nat :=
  Nat.count (fun j => Other request (s.receptions j)) k

def crcErrors (s : Script) (k : Nat) : Nat :=
  Nat.count (fun j => s.receptions j = .failed wpcIntWrongCrcFromHost) k

/-- Nothing has ended the call before reception `k`. -/
structure GoesOn (s : Script) (request : WpcFrame) (k : Nat) : Prop where
  passed : ∀ j < k, Other request (s.receptions j) ∨ s.receptions j = .failed wpcIntWrongCrcFromHost
  others_lt : others s request k < maxConfirmAttempt
  crcErrors_le : crcErrors s k ≤ 3
  sent : ∀ i ≤ crcErrors s k, 0 ≤ s.sends i

/-- Reception `k` ends the call. -/
inductive Ends (s : Script) (request : WpcFrame) (k : Nat) : Int → Option WpcFrame → Prop where
  | confirmed (rec : WpcFrame) :
      s.receptions k = .frame rec → Matches request rec → Ends s request k 0 (some rec)
  | lost : Other request (s.receptions k) → others s request k + 1 = maxConfirmAttempt →
      Ends s request k wpcIntSyncError none
  | refused : s.receptions k = .failed wpcIntWrongCrcFromHost → crcErrors s k = 3 →
      Ends s request k wpcIntWrongCrcFromHost none
  | unsent : s.receptions k = .failed wpcIntWrongCrcFromHost → crcErrors s k < 3 →
      s.sends (crcErrors s k + 1) < 0 → Ends s request k wpcIntGenError none
  | failed (code : Int) : s.receptions k = .failed code → code ≠ wpcIntWrongCrcFromHost →
      Ends s request k code none

section Rounds

variable {s : Script} {request : WpcFrame} {k : Nat}

theorem not_other_failed {code : Int} : ¬ Other request (.failed code) := nofun

theorem others_succ : others s request (k + 1) =
    others s request k + if Other request (s.receptions k) then 1 else 0 := Nat.count_succ _ _

theorem crcErrors_succ : crcErrors s (k + 1) =
    crcErrors s k + if s.receptions k = .failed wpcIntWrongCrcFromHost then 1 else 0 := Nat.count_succ _ _

theorem GoesOn.of_succ (h : GoesOn s request (k + 1)) : GoesOn s request k where
  passed j hj := h.passed j (Nat.lt_succ_of_lt hj)
  others_lt := Nat.lt_of_le_of_lt (Nat.count_monotone _ (Nat.le_succ k)) h.others_lt
  crcErrors_le := Nat.le_trans (Nat.count_monotone _ (Nat.le_succ k)) h.crcErrors_le
  sent i hi := h.sent i (Nat.le_trans hi (Nat.count_monotone _ (Nat.le_succ k)))

theorem goesOn_zero (h : 0 ≤ s.sends 0) : GoesOn s request 0 where
  passed _ hj := absurd hj (Nat.not_lt_zero _)
  others_lt := (Nat.count_zero _).trans_lt (by decide)
  crcErrors_le := Nat.zero_le _
  sent i hi := Nat.le_zero.mp hi ▸ h

/-- Each reception is counted once. -/
theorem GoesOn.eq_count (h : GoesOn s request k) : k = others s request k + crcErrors s k := by
  induction k with
  | zero => rfl
  | succ k ih =>
    have hBefore := ih h.of_succ
    rw [others_succ, crcErrors_succ]
    rcases h.passed k (Nat.lt_succ_self k) with hOther | hCrc
    · have hNoCrc : s.receptions k ≠ .failed wpcIntWrongCrcFromHost := by
        intro hCrc
        exact not_other_failed (hCrc ▸ hOther)
      rw [if_pos hOther, if_neg hNoCrc]
      omega
    · have hNoOther : ¬ Other request (s.receptions k) := hCrc ▸ not_other_failed
      rw [if_neg hNoOther, if_pos hCrc]
      omega

theorem GoesOn.le (h : GoesOn s request k) : k ≤ 52 := by
  have hCount := h.eq_count
  have hOthers : others s request k < 50 := h.others_lt
  have hCrc := h.crcErrors_le
  omega

/-- The local variables of the call before reception `k`. -/
def exchangeAt (s : Script) (request : WpcFrame) (k : Nat) : Exchange :=
  ⟨request, others s request k, .ofNat (crcErrors s k)⟩

theorem onReception_other {x : Exchange} {r : Reception} (h : Other x.request r) : onReception x r = skip x := by
  obtain ⟨rec, rfl, hRec⟩ := h
  rw [onReception]
  by_cases hPrimitive : rec.primitiveId.toNat = x.request.primitiveId.toNat + sapConfirmOffset
  · have hFrameId : rec.frameId ≠ x.request.frameId := fun hFrameId => hRec ⟨hPrimitive, hFrameId⟩
    rw [if_neg (not_not.mpr hPrimitive), if_pos hFrameId]
  · rw [if_pos hPrimitive]

theorem onReception_matches {x : Exchange} {rec : WpcFrame} (h : Matches x.request rec) :
    onReception x (.frame rec) = .giveBack 0 (some rec) := by
  rw [onReception, if_neg (not_not.mpr h.1), if_neg (not_not.mpr h.2)]

theorem retries_lt_iff (h : crcErrors s k ≤ 3) :
    (exchangeAt s request k).crcRequestRetries < maxCrcRequestErrorRetries ↔ crcErrors s k < 3 := by
  have hSmall : (UInt8.ofNat (crcErrors s k)).toNat = crcErrors s k :=
    UInt8.toNat_ofNat_of_lt' (show crcErrors s k < 2 ^ 8 by omega)
  rw [UInt8.lt_iff_toNat_lt, exchangeAt, hSmall]
  exact Iff.rfl

/-- The calls of a round that the call goes on after. -/
def callsAt (s : Script) (request : WpcFrame) (k : Nat) : List SlipCall :=
  .receive (s.receptions k) ::
    if s.receptions k = .failed wpcIntWrongCrcFromHost then [.send request (s.sends (crcErrors s k + 1))] else []

theorem confirmRounds_succ (h : GoesOn s request (k + 1)) (rounds : Nat) :
    confirmRounds s (rounds + 1) (exchangeAt s request k) (crcErrors s k + 1) k =
      (confirmRounds s rounds (exchangeAt s request (k + 1)) (crcErrors s (k + 1) + 1) (k + 1)).map
        (.after (callsAt s request k)) := by
  have hOthers := h.others_lt
  have hErrors := h.crcErrors_le
  rw [others_succ] at hOthers
  rw [crcErrors_succ] at hErrors
  rw [confirmRounds, callsAt, exchangeAt, exchangeAt, others_succ, crcErrors_succ]
  rcases h.passed k (Nat.lt_succ_self k) with hOther | hCrc
  · have hNoCrc : s.receptions k ≠ .failed wpcIntWrongCrcFromHost := by
      intro hCrc
      exact not_other_failed (hCrc ▸ hOther)
    rw [if_pos hOther] at hOthers
    rw [onReception_other hOther, skip, if_pos hOthers, if_pos hOther, if_neg hNoCrc, if_neg hNoCrc]
    rfl
  · have hNoOther : ¬ Other request (s.receptions k) := hCrc ▸ not_other_failed
    rw [if_pos hCrc] at hErrors
    have hRetry : (exchangeAt s request k).crcRequestRetries < maxCrcRequestErrorRetries :=
      (retries_lt_iff (by omega)).mpr (by omega)
    have hSent : ¬ s.sends (crcErrors s k + 1) < 0 := by
      refine Int.not_lt.mpr (h.sent _ ?_)
      rw [crcErrors_succ, if_pos hCrc]
    rw [hCrc, onReception, if_pos ⟨rfl, hRetry⟩, if_neg not_other_failed, if_pos rfl, if_pos rfl]
    simp only [if_neg hSent, UInt8.ofNat_add]
    rfl

/-- The calls of all rounds before reception `k`. -/
def callsUntil (s : Script) (request : WpcFrame) : Nat → List SlipCall
  | 0 => [.send request (s.sends 0)]
  | k + 1 => callsUntil s request k ++ callsAt s request k

theorem sendRequestLocked_reaches {frameId : UInt8} (h : GoesOn s (numbered frameId request) k)
    (rounds : Nat) :
    sendRequestLocked s (rounds + k) frameId request =
      (confirmRounds s rounds (exchangeAt s (numbered frameId request) k) (crcErrors s k + 1) k).map
        (.after (callsUntil s (numbered frameId request) k)) := by
  induction k generalizing rounds with
  | zero =>
    have hSent : ¬ s.sends 0 < 0 := Int.not_lt.mpr (h.sent 0 (Nat.zero_le _))
    rw [sendRequestLocked]
    simp only [if_neg hSent]
    rfl
  | succ k ih =>
    have hRounds : rounds + (k + 1) = rounds + 1 + k := by omega
    rw [hRounds, ih h.of_succ (rounds + 1), confirmRounds_succ h, Option.map_map]
    refine congrArg (fun f => Option.map f _) (funext fun o => ?_)
    simp only [Function.comp, Outcome.after, callsUntil, List.append_assoc]

/-- The calls of the round that ends the call. -/
def lastCalls (s : Script) (request : WpcFrame) (k : Nat) : List SlipCall :=
  if crcErrors s k = 3 then [.receive (s.receptions k)] else callsAt s request k

theorem lastCalls_of_ne (h : s.receptions k ≠ .failed wpcIntWrongCrcFromHost) :
    lastCalls s request k = [.receive (s.receptions k)] := by
  rw [lastCalls, callsAt, if_neg h, ite_self]

theorem confirmRounds_ends (h : GoesOn s request k) {result : Int} {confirm : Option WpcFrame}
    (hEnds : Ends s request k result confirm) (rounds : Nat) :
    confirmRounds s (rounds + 1) (exchangeAt s request k) (crcErrors s k + 1) k =
      some ⟨result, confirm, lastCalls s request k⟩ := by
  rw [confirmRounds]
  cases hEnds with
  | confirmed rec hRec hMatches =>
    have hNoCrc : s.receptions k ≠ .failed wpcIntWrongCrcFromHost := hRec ▸ nofun
    rw [lastCalls_of_ne hNoCrc, hRec, onReception_matches (x := exchangeAt s request k) hMatches]
  | lost hOther hLast =>
    have hNoCrc : s.receptions k ≠ .failed wpcIntWrongCrcFromHost :=
      fun hCrc => not_other_failed (hCrc ▸ hOther)
    have hFull : ¬ (exchangeAt s request k).attempt + 1 < maxConfirmAttempt := Nat.not_lt.mpr hLast.ge
    rw [lastCalls_of_ne hNoCrc, onReception_other (x := exchangeAt s request k) hOther, skip, if_neg hFull]
  | refused hCrc hThree =>
    have hNoRetry : ¬ (exchangeAt s request k).crcRequestRetries < maxCrcRequestErrorRetries := by
      rw [retries_lt_iff h.crcErrors_le]
      omega
    rw [lastCalls, if_pos hThree, hCrc, onReception, if_neg fun hRetry => hNoRetry hRetry.2]
  | unsent hCrc hRetry hUnsent =>
    have hLess : (exchangeAt s request k).crcRequestRetries < maxCrcRequestErrorRetries :=
      (retries_lt_iff h.crcErrors_le).mpr hRetry
    rw [lastCalls, if_neg (Nat.ne_of_lt hRetry), callsAt, if_pos hCrc, hCrc, onReception, if_pos ⟨rfl, hLess⟩]
    simp only [if_pos hUnsent]
    rfl
  | failed code hCode hOtherCode =>
    have hNoCrc : s.receptions k ≠ .failed wpcIntWrongCrcFromHost := by
      intro hCrc
      exact hOtherCode (Reception.failed.inj (hCode.symm.trans hCrc))
    rw [lastCalls_of_ne hNoCrc, hCode, onReception, if_neg fun hRetry => hOtherCode hRetry.1]

theorem sendRequestLocked_ends {frameId : UInt8} (h : GoesOn s (numbered frameId request) k) {result : Int}
    {confirm : Option WpcFrame} (hEnds : Ends s (numbered frameId request) k result confirm) {rounds : Nat}
    (hRounds : 53 ≤ rounds) :
    sendRequestLocked s rounds frameId request =
      some ⟨result, confirm, callsUntil s (numbered frameId request) k ++
        lastCalls s (numbered frameId request) k⟩ := by
  have hLe := h.le
  have hSplit : rounds = rounds - k - 1 + 1 + k := by omega
  rw [hSplit, sendRequestLocked_reaches h, confirmRounds_ends h hEnds]
  rfl

/-- A reception ends the call, or the call goes on after it. -/
theorem GoesOn.ends_or_succ (h : GoesOn s request k) :
    (∃ result confirm, Ends s request k result confirm) ∨ GoesOn s request (k + 1) := by
  cases hReception : s.receptions k with
  | frame rec =>
    by_cases hMatches : Matches request rec
    · exact .inl ⟨_, _, .confirmed rec hReception hMatches⟩
    have hOther : Other request (s.receptions k) := ⟨rec, hReception, hMatches⟩
    have hErrors : crcErrors s (k + 1) = crcErrors s k := by
      have hNoCrc : Reception.frame rec ≠ .failed wpcIntWrongCrcFromHost := nofun
      rw [crcErrors_succ, hReception, if_neg hNoCrc, Nat.add_zero]
    have hOthers : others s request (k + 1) = others s request k + 1 := by
      rw [others_succ, if_pos hOther]
    have hLess := h.others_lt
    rcases Nat.lt_or_ge (others s request k + 1) maxConfirmAttempt with hMore | hFull
    · refine .inr ⟨fun j hj => ?_, hOthers ▸ hMore, hErrors ▸ h.crcErrors_le, hErrors ▸ h.sent⟩
      rcases Nat.lt_succ_iff_lt_or_eq.mp hj with hBefore | rfl
      · exact h.passed j hBefore
      · exact .inl hOther
    · exact .inl ⟨_, _, .lost hOther (by omega)⟩
  | failed code =>
    by_cases hCode : code = wpcIntWrongCrcFromHost
    swap
    · exact .inl ⟨_, _, .failed code hReception hCode⟩
    subst hCode
    have hErrors : crcErrors s (k + 1) = crcErrors s k + 1 := by
      rw [crcErrors_succ, if_pos hReception]
    have hOthers : others s request (k + 1) = others s request k := by
      rw [others_succ, hReception, if_neg not_other_failed, Nat.add_zero]
    rcases Nat.lt_or_ge (crcErrors s k) 3 with hRetry | hThree
    · rcases Int.lt_or_le (s.sends (crcErrors s k + 1)) 0 with hUnsent | hSent
      · exact .inl ⟨_, _, .unsent hReception hRetry hUnsent⟩
      refine .inr ⟨fun j hj => ?_, hOthers ▸ h.others_lt, hErrors ▸ hRetry, fun i hi => ?_⟩
      · rcases Nat.lt_succ_iff_lt_or_eq.mp hj with hBefore | rfl
        · exact h.passed j hBefore
        · exact .inr hReception
      · rw [hErrors] at hi
        rcases Nat.lt_succ_iff_lt_or_eq.mp (Nat.lt_succ_of_le hi) with hBefore | rfl
        · exact h.sent i (Nat.le_of_lt_succ hBefore)
        · exact hSent
    · exact .inl ⟨_, _, .refused hReception (Nat.le_antisymm h.crcErrors_le hThree)⟩

variable (request) in
theorem exists_ends (hSent : 0 ≤ s.sends 0) :
    ∃ k, GoesOn s request k ∧ ∃ result confirm, Ends s request k result confirm := by
  by_contra hNever
  have hAlways : ∀ k, GoesOn s request k := by
    intro k
    induction k with
    | zero => exact goesOn_zero hSent
    | succ k ih => exact ih.ends_or_succ.resolve_left fun hEnds => hNever ⟨k, ih, hEnds⟩
  exact absurd (hAlways 53).le (by decide)

def SlipCall.isSend : SlipCall → Bool
  | .send _ _ => true
  | .receive _ => false

/-- The first send, or one of the request again directly after one of the first three CRC errors. -/
def Resends (request : WpcFrame) (calls : List SlipCall) : Prop :=
  ∀ before sent result after, calls = before ++ .send sent result :: after → sent = request ∧
    (before = [] ∨ ∃ earlier, before = earlier ++ [.receive (.failed wpcIntWrongCrcFromHost)] ∧
      earlier.count (.receive (.failed wpcIntWrongCrcFromHost)) < 3)

theorem append_singleton_eq_split {α : Type} {before after calls : List α} {a b : α}
    (h : calls ++ [a] = before ++ b :: after) :
    (calls = before ∧ a = b ∧ after = []) ∨ ∃ after', calls = before ++ b :: after' ∧ after = after' ++ [a] := by
  rcases List.eq_nil_or_concat after with rfl | ⟨after', c, rfl⟩
  · obtain ⟨hCalls, hLast⟩ := List.append_inj' h rfl
    exact .inl ⟨hCalls, List.singleton_inj.mp hLast, rfl⟩
  · have hSplit : calls ++ [a] = (before ++ b :: after') ++ [c] := by
      rw [h, List.append_assoc, List.cons_append, List.concat_eq_append]
    obtain ⟨hCalls, hLast⟩ := List.append_inj' hSplit rfl
    rw [List.concat_eq_append, List.singleton_inj.mp hLast]
    exact .inr ⟨after', hCalls, rfl⟩

theorem Resends.receive {calls : List SlipCall} (h : Resends request calls) (r : Reception) :
    Resends request (calls ++ [.receive r]) := by
  intro before sent result after hSplit
  rcases append_singleton_eq_split hSplit with ⟨-, hLast, -⟩ | ⟨after', hBefore, -⟩
  · cases hLast
  · exact h before sent result after' hBefore

theorem Resends.send {calls : List SlipCall}
    (h : Resends request (calls ++ [.receive (.failed wpcIntWrongCrcFromHost)]))
    (hCount : calls.count (.receive (.failed wpcIntWrongCrcFromHost)) < 3) (i : Int) :
    Resends request (calls ++ [.receive (.failed wpcIntWrongCrcFromHost), .send request i]) := by
  intro before sent result after hSplit
  rw [List.append_cons] at hSplit
  rcases append_singleton_eq_split hSplit with ⟨hBefore, hLast, -⟩ | ⟨after', hBefore, -⟩
  · cases hLast
    exact ⟨rfl, .inr ⟨calls, hBefore.symm, hCount⟩⟩
  · exact h before sent result after' hBefore

theorem resends_first (i : Int) : Resends request [.send request i] := by
  intro before sent result after hSplit
  have hNil : ([] : List SlipCall) ++ [.send request i] = before ++ .send sent result :: after := hSplit
  rcases append_singleton_eq_split hNil with ⟨hBefore, hLast, -⟩ | ⟨after', hBefore, -⟩
  · cases hLast
    exact ⟨rfl, .inl hBefore.symm⟩
  · exact absurd hBefore.symm (List.append_ne_nil_of_right_ne_nil _ (List.cons_ne_nil _ _))

theorem count_callsAt : (callsAt s request k).count (.receive (.failed wpcIntWrongCrcFromHost)) =
    if s.receptions k = .failed wpcIntWrongCrcFromHost then 1 else 0 := by
  rw [callsAt]
  by_cases hCrc : s.receptions k = .failed wpcIntWrongCrcFromHost
  · rw [if_pos hCrc, if_pos hCrc, hCrc]
    rfl
  · have hNoCrc : SlipCall.receive (s.receptions k) ≠ .receive (.failed wpcIntWrongCrcFromHost) :=
      fun h => hCrc (SlipCall.receive.inj h)
    rw [if_neg hCrc, if_neg hCrc, List.count_singleton, beq_false_of_ne hNoCrc]
    rfl

theorem count_callsUntil (k : Nat) :
    (callsUntil s request k).count (.receive (.failed wpcIntWrongCrcFromHost)) = crcErrors s k := by
  induction k with
  | zero => rfl
  | succ k ih => rw [callsUntil, List.count_append, ih, count_callsAt, crcErrors_succ]

theorem resends_round {calls : List SlipCall} (h : Resends request calls)
    (hCount : calls.count (.receive (.failed wpcIntWrongCrcFromHost)) < 3) :
    Resends request (calls ++ callsAt s request k) := by
  rw [callsAt]
  by_cases hCrc : s.receptions k = .failed wpcIntWrongCrcFromHost
  · rw [if_pos hCrc, hCrc]
    exact (h.receive _).send hCount _
  · rw [if_neg hCrc]
    exact h.receive _

theorem resends_callsUntil (h : GoesOn s request k) : Resends request (callsUntil s request k) := by
  induction k with
  | zero => exact resends_first _
  | succ k ih =>
    have hBefore := ih h.of_succ
    rw [callsUntil]
    by_cases hCrc : s.receptions k = .failed wpcIntWrongCrcFromHost
    · refine resends_round hBefore ?_
      have hErrors := h.crcErrors_le
      rw [crcErrors_succ, if_pos hCrc] at hErrors
      rw [count_callsUntil]
      omega
    · rw [callsAt, if_neg hCrc]
      exact hBefore.receive _

theorem resends_ends (h : GoesOn s request k) :
    Resends request (callsUntil s request k ++ lastCalls s request k) := by
  have hBefore := resends_callsUntil h
  rw [lastCalls]
  by_cases hThree : crcErrors s k = 3
  · rw [if_pos hThree]
    exact hBefore.receive _
  · have hErrors := h.crcErrors_le
    rw [if_neg hThree]
    refine resends_round hBefore ?_
    rw [count_callsUntil]
    omega

theorem countP_send_callsUntil (k : Nat) :
    (callsUntil s request k).countP SlipCall.isSend = crcErrors s k + 1 := by
  induction k with
  | zero => rfl
  | succ k ih =>
    have hRound : (callsAt s request k).countP SlipCall.isSend =
        if s.receptions k = .failed wpcIntWrongCrcFromHost then 1 else 0 := by
      rw [callsAt]
      split <;> rfl
    rw [callsUntil, List.countP_append, ih, hRound, crcErrors_succ]
    omega

theorem countP_receive_callsUntil (k : Nat) :
    (callsUntil s request k).countP (fun c => !c.isSend) = k := by
  induction k with
  | zero => rfl
  | succ k ih =>
    have hRound : (callsAt s request k).countP (fun c => !c.isSend) = 1 := by
      rw [callsAt]
      split <;> rfl
    rw [callsUntil, List.countP_append, ih, hRound]

/-- The last of four requests is followed by one reception at most. -/
theorem countP_ends (h : GoesOn s request k) :
    (callsUntil s request k ++ lastCalls s request k).countP SlipCall.isSend ≤ 4 ∧
      (callsUntil s request k ++ lastCalls s request k).countP (fun c => !c.isSend) ≤ 53 := by
  have hLe := h.le
  have hErrors := h.crcErrors_le
  rw [List.countP_append, List.countP_append, countP_send_callsUntil, countP_receive_callsUntil, lastCalls]
  by_cases hThree : crcErrors s k = 3
  · have hSend : List.countP SlipCall.isSend [.receive (s.receptions k)] = 0 := rfl
    have hReceive : List.countP (fun c : SlipCall => !c.isSend) [.receive (s.receptions k)] = 1 := rfl
    rw [if_pos hThree, hSend, hReceive]
    omega
  · have hSend : (callsAt s request k).countP SlipCall.isSend ≤ 1 := by
      rw [callsAt]
      split
      · exact Nat.le_refl 1
      · exact Nat.zero_le 1
    have hReceive : (callsAt s request k).countP (fun c => !c.isSend) = 1 := by
      rw [callsAt]
      split <;> rfl
    rw [if_neg hThree, hReceive]
    omega

/-- One of the requests is not sent. -/
def SendFails (s : Script) (request : WpcFrame) : Prop :=
  s.sends 0 < 0 ∨ ∃ k, GoesOn s request k ∧ s.receptions k = .failed wpcIntWrongCrcFromHost ∧
    crcErrors s k < 3 ∧ s.sends (crcErrors s k + 1) < 0

end Rounds

/-- What the call gives back and does on the line, in terms of the script. -/
structure Attempted (s : Script) (request : WpcFrame) (o : Outcome) : Prop where
  sends_le : o.calls.countP SlipCall.isSend ≤ 4
  receives_le : o.calls.countP (fun c => !c.isSend) ≤ 53
  zero_iff : o.result = 0 ↔
    ∃ k rec, GoesOn s request k ∧ s.receptions k = .frame rec ∧ Matches request rec
  sync_iff : o.result = wpcIntSyncError ↔ ∃ k, GoesOn s request k ∧
    (Other request (s.receptions k) ∧ others s request k + 1 = maxConfirmAttempt ∨
      s.receptions k = .failed wpcIntSyncError)
  crc_iff : o.result = wpcIntWrongCrcFromHost ↔
    ∃ k, GoesOn s request k ∧ s.receptions k = .failed wpcIntWrongCrcFromHost ∧ crcErrors s k = 3
  passed_on : ∀ k code, GoesOn s request k → s.receptions k = .failed code →
    code ≠ wpcIntWrongCrcFromHost → o.result = code
  unsent : SendFails s request → o.result = wpcIntGenError
  resends : Resends request o.calls

section Result

variable {s : Script} {frameId : UInt8} {request : WpcFrame}

theorem attempted_unsent (h : s.sends 0 < 0) :
    Attempted s request ⟨wpcIntGenError, none, [.send request (s.sends 0)]⟩ := by
  have hNever : ∀ k, ¬ GoesOn s request k := fun k hGoes =>
    absurd (hGoes.sent 0 (Nat.zero_le _)) (Int.not_le.mpr h)
  have hZero : wpcIntGenError ≠ 0 := by decide
  have hSync : wpcIntGenError ≠ wpcIntSyncError := by decide
  have hCrc : wpcIntGenError ≠ wpcIntWrongCrcFromHost := by decide
  have hOne : [SlipCall.send request (s.sends 0)].countP SlipCall.isSend = 1 := rfl
  refine ⟨hOne.trans_le (by decide), Nat.zero_le _, iff_of_false hZero ?_, iff_of_false hSync ?_,
    iff_of_false hCrc ?_, ?_, fun _ => rfl, resends_first _⟩
  · rintro ⟨k, -, hGoes, -⟩
    exact hNever k hGoes
  · rintro ⟨k, hGoes, -⟩
    exact hNever k hGoes
  · rintro ⟨k, hGoes, -⟩
    exact hNever k hGoes
  · exact fun k code hGoes => absurd hGoes (hNever k)

/-- The script has one end. -/
theorem Ends.result_eq {k k' : Nat} {result result' : Int} {confirm confirm' : Option WpcFrame}
    (hEnds : Ends s request k result confirm) (hEnds' : Ends s request k' result' confirm')
    (h : GoesOn s request k) (h' : GoesOn s request k') : result = result' := by
  have hReturns : sendRequestLocked s 53 request.frameId request = _ :=
    sendRequestLocked_ends h hEnds (Nat.le_refl 53)
  have hReturns' : sendRequestLocked s 53 request.frameId request = _ :=
    sendRequestLocked_ends h' hEnds' (Nat.le_refl 53)
  exact congrArg Outcome.result (Option.some.inj (hReturns.symm.trans hReturns'))

theorem attempted_ends {k : Nat} {result : Int} {confirm : Option WpcFrame} (h : GoesOn s request k)
    (hEnds : Ends s request k result confirm) :
    Attempted s request ⟨result, confirm, callsUntil s request k ++ lastCalls s request k⟩ where
  sends_le := (countP_ends h).1
  receives_le := (countP_ends h).2
  zero_iff := by
    constructor
    · rintro (rfl : result = 0)
      cases hEnds with
      | confirmed rec hRec hMatches => exact ⟨k, rec, h, hRec, hMatches⟩
      | failed code hCode _ => exact absurd (s.negative k 0 hCode) (Int.lt_irrefl 0)
    · rintro ⟨k', rec, h', hRec, hMatches⟩
      exact hEnds.result_eq (.confirmed rec hRec hMatches) h h'
  sync_iff := by
    constructor
    · rintro (hResult : result = wpcIntSyncError)
      cases hEnds with
      | confirmed rec _ _ => exact absurd hResult (by decide)
      | lost hOther hLast => exact ⟨k, h, .inl ⟨hOther, hLast⟩⟩
      | refused _ _ => exact absurd hResult (by decide)
      | unsent _ _ _ => exact absurd hResult (by decide)
      | failed code hCode _ => exact ⟨k, h, .inr (hResult ▸ hCode)⟩
    · rintro ⟨k', h', ⟨hOther, hLast⟩ | hCode⟩
      · exact hEnds.result_eq (.lost hOther hLast) h h'
      · exact hEnds.result_eq (.failed _ hCode (by decide)) h h'
  crc_iff := by
    constructor
    · rintro (hResult : result = wpcIntWrongCrcFromHost)
      cases hEnds with
      | confirmed rec _ _ => exact absurd hResult (by decide)
      | lost _ _ => exact absurd hResult (by decide)
      | refused hCrc hThree => exact ⟨k, h, hCrc, hThree⟩
      | unsent _ _ _ => exact absurd hResult (by decide)
      | failed code _ hOtherCode => exact absurd hResult hOtherCode
    · rintro ⟨k', h', hCrc, hThree⟩
      exact hEnds.result_eq (.refused hCrc hThree) h h'
  passed_on k' code h' hCode hOtherCode := hEnds.result_eq (.failed code hCode hOtherCode) h h'
  unsent := by
    rintro (hUnsent | ⟨k', h', hCrc, hRetry, hUnsent⟩)
    · exact absurd (h.sent 0 (Nat.zero_le _)) (Int.not_le.mpr hUnsent)
    · exact hEnds.result_eq (.unsent hCrc hRetry hUnsent) h h'
  resends := resends_ends h

end Result

/-- Every script ends the call within 53 receptions, with the result that its order of frames and
errors gives. -/
theorem sendRequestLocked_attempts (s : Script) (frameId : UInt8) (request : WpcFrame) :
    ∃ o, (∀ rounds, 53 ≤ rounds → sendRequestLocked s rounds frameId request = some o) ∧
      Attempted s (numbered frameId request) o := by
  rcases Int.lt_or_le (s.sends 0) 0 with hUnsent | hSent
  · refine ⟨_, fun rounds _ => ?_, attempted_unsent hUnsent⟩
    rw [sendRequestLocked]
    exact if_pos hUnsent
  · obtain ⟨k, h, result, confirm, hEnds⟩ := exists_ends (numbered frameId request) hSent
    exact ⟨_, fun rounds hRounds => sendRequestLocked_ends h hEnds hRounds, attempted_ends h hEnds⟩

/-- The first reception fails with the code of a lost synchronisation. -/
def failingScript : Script where
  sends _ := 0
  receptions _ := .failed wpcIntSyncError
  negative k code h := by
    cases h
    decide

/-- The code is passed on, and no frame has been skipped. -/
theorem sync_error_passed_on :
    ¬ ∀ (s : Script) (frameId : UInt8) (request : WpcFrame) (o : Outcome),
      sendRequestLocked s 53 frameId request = some o →
        (o.result = wpcIntSyncError ↔ ∃ k, GoesOn s (numbered frameId request) k ∧
          Other (numbered frameId request) (s.receptions k) ∧
            others s (numbered frameId request) k + 1 = maxConfirmAttempt) := by
  intro h
  have hLost := (h failingScript 0 ⟨0x0E, 0, []⟩
    ⟨wpcIntSyncError, none, [.send ⟨0x0E, 0, []⟩ 0, .receive (.failed wpcIntSyncError)]⟩ rfl).mp rfl
  obtain ⟨k, -, hOther, -⟩ := hLost
  exact not_other_failed hOther

end CMeshApi.Wpc
