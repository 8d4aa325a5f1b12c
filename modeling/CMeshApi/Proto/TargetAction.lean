import CMeshApi.Proto.Refresh
import CMeshApi.Proto.StackRequests
import CMeshApi.Proto.Unfilled

/-!
# The target that is set is the one that is reported

A request for a target narrows its values to the fields of the node and takes what it
leaves out from the cache; the report widens what the node stores again. Between the
two, a delay with a name and the byte that it stands for are not told apart.
-/

namespace CMeshApi.Proto

open Programs Wpc

/-- The byte that a parameter stands for. -/
def TargetParam.Denotes : TargetParam → UInt8 → Prop
  | .none, _ => False
  | .delay d, b => ∃ named ∈ namedDelays, named.1.value = d ∧ named.2 = b
  | .raw value, b => value = b.toUInt32

/-- A delay without a name, or a value that is larger than the byte. -/
def TargetParam.Unfit : TargetParam → Prop
  | .none => False
  | .delay d => ∀ named ∈ namedDelays, named.1.value ≠ d
  | .raw value => 0xff < value

/-- The member of the union that a report tells. -/
def Raw.TargetScratchpadAndAction.targetParam (r : Raw.TargetScratchpadAndAction) : TargetParam :=
  if r.whichParam = 4 then .delay r.param else if r.whichParam = 5 then .raw r.param else .none

theorem convertDelayToAppFormat_ne_zero {delay : UInt32} (h : convertDelayToAppFormat delay ≠ 0) :
    (TargetParam.delay delay).Denotes (convertDelayToAppFormat delay) := by
  unfold convertDelayToAppFormat at h ⊢
  cases hFind : namedDelays.find? fun named => named.1.value = delay with
  | none =>
    rw [hFind] at h
    exact absurd rfl h
  | some named =>
    have hNamed := List.find?_some hFind
    exact ⟨named, List.mem_of_find?_eq_some hFind, of_decide_eq_true hNamed, rfl⟩

theorem convertDelayToAppFormat_eq_zero {delay : UInt32}
    (h : ∀ named ∈ namedDelays, named.1.value ≠ delay) : convertDelayToAppFormat delay = 0 := by
  have hNone : (namedDelays.find? fun named => named.1.value = delay) = none :=
    List.find?_eq_none.mpr fun named hNamed hEq => h named hNamed (of_decide_eq_true hEq)
  unfold convertDelayToAppFormat
  rw [hNone]
  rfl

theorem convertDelayToProtoFormat_known {b : UInt8} (h : convertDelayToProtoFormat b ≠ .unknownDelay) :
    (TargetParam.delay (convertDelayToProtoFormat b).value).Denotes b := by
  unfold convertDelayToProtoFormat at h ⊢
  cases hFind : namedDelays.find? fun named => named.2 = b with
  | none =>
    rw [hFind] at h
    exact absurd rfl h
  | some named =>
    have hNamed := List.find?_some hFind
    exact ⟨named, List.mem_of_find?_eq_some hFind, rfl, of_decide_eq_true hNamed⟩

theorem toUInt32_toUInt8 {x : UInt32} (h : ¬ 0xff < x) : x.toUInt8.toUInt32 = x := by
  have hFits : x.toNat ≤ 0xff := UInt32.le_iff_toNat_le.mp (UInt32.not_lt.mp h)
  apply UInt32.toNat_inj.mp
  rw [UInt8.toNat_toUInt32, UInt32.toNat_toUInt8, Nat.mod_eq_of_lt (Nat.lt_succ_of_le hFits)]

theorem toUInt32_toUInt16 {x : UInt32} (h : ¬ 0xffff < x) : x.toUInt16.toUInt32 = x := by
  have hFits : x.toNat ≤ 0xffff := UInt32.le_iff_toNat_le.mp (UInt32.not_lt.mp h)
  apply UInt32.toNat_inj.mp
  rw [UInt16.toNat_toUInt32, UInt32.toNat_toUInt16, Nat.mod_eq_of_lt (Nat.lt_succ_of_le hFits)]

theorem delayParam_denotes {p : TargetParam} {b : UInt8} (h : delayParam p = some b) : p.Denotes b := by
  cases p with
  | none => cases h
  | delay delay =>
    dsimp only [delayParam] at h
    split at h
    · cases h
    · next hKnown =>
      obtain rfl := Option.some.inj h
      exact convertDelayToAppFormat_ne_zero hKnown
  | raw raw =>
    dsimp only [delayParam] at h
    split at h
    · cases h
    · next hFits =>
      obtain rfl := Option.some.inj h
      exact (toUInt32_toUInt8 hFits).symm

theorem delayParam_unfit {p : TargetParam} (h : p.Unfit) : delayParam p = none := by
  cases p with
  | none => rfl
  | delay delay => exact if_pos (convertDelayToAppFormat_eq_zero h)
  | raw raw => exact if_pos h

theorem TargetParam.Denotes.unique {p : TargetParam} {b b' : UInt8} (h : p.Denotes b)
    (h' : p.Denotes b') : b = b' := by
  cases p with
  | none => exact h.elim
  | delay d =>
    obtain ⟨named, hNamed, hValue, rfl⟩ := h
    obtain ⟨named', hNamed', hValue', rfl⟩ := h'
    have hNames : ∀ x ∈ namedDelays, ∀ y ∈ namedDelays, x.1.value = y.1.value → x.2 = y.2 := by decide
    exact hNames named hNamed named' hNamed' (hValue.trans hValue'.symm)
  | raw value => exact UInt8.toUInt32_inj.mp (Eq.trans (Eq.symm h) h')

/-- What is reported of a target with a delay stands for its byte, by its name if it has one. -/
theorem fillTargetAndAction_denotes {c : SinkConfig} (h : c.target.action = 3) :
    (fillTargetAndAction c).targetParam.Denotes c.target.param := by
  unfold Raw.TargetScratchpadAndAction.targetParam
  cases hDelay : decide (convertDelayToProtoFormat c.target.param ≠ .unknownDelay) with
  | true =>
    have hKnown := of_decide_eq_true hDelay
    have hWhich : (fillTargetAndAction c).whichParam = 4 := (if_pos h).trans (if_pos hKnown)
    have hParam : (fillTargetAndAction c).param = (convertDelayToProtoFormat c.target.param).value :=
      (if_pos h).trans (if_pos hKnown)
    rw [if_pos hWhich, hParam]
    exact convertDelayToProtoFormat_known hKnown
  | false =>
    have hUnknown := of_decide_eq_false hDelay
    have hWhich : (fillTargetAndAction c).whichParam = 5 := (if_pos h).trans (if_neg hUnknown)
    have hParam : (fillTargetAndAction c).param = c.target.param.toUInt32 :=
      (if_pos h).trans (if_neg hUnknown)
    rw [hWhich, if_neg (by decide), if_pos rfl, hParam]
    rfl

/-- A report of what the request asks for, with what it leaves out from the stored scratchpad. -/
structure ReportsTarget (status : AppScratchpadStatus) (t : TargetScratchpadAndAction)
    (r : Raw.TargetScratchpadAndAction) : Prop where
  action : r.action = t.action
  sequence : r.hasTargetSequence = true ∧ r.targetSequence =
    if t.action = ScratchpadAction.noOtap.value then 0
    else t.targetSequence.getD status.scratSeqNumber.toUInt32
  crc : r.hasTargetCrc = true ∧ r.targetCrc =
    if t.action = ScratchpadAction.noOtap.value then 0 else t.targetCrc.getD status.scratCrc.toUInt32
  param : t.action = ScratchpadAction.propagateAndProcessWithDelay.value →
    ∃ b, t.param.Denotes b ∧ r.targetParam.Denotes b

def supportedActions : List ScratchpadAction :=
  [.noOtap, .propagateOnly, .propagateAndProcess, .propagateAndProcessWithDelay]

/-- A value that applies to the action does not fit its field on the node, the delay has no name, or
the action is none of the four. -/
def TargetScratchpadAndAction.Unacceptable (t : TargetScratchpadAndAction) : Prop :=
  (∀ action ∈ supportedActions, t.action ≠ action.value) ∨
    (t.action ≠ ScratchpadAction.noOtap.value ∧
      ((∃ sequence ∈ t.targetSequence, 0xff < sequence) ∨ ∃ crc ∈ t.targetCrc, 0xffff < crc)) ∨
    (t.action = ScratchpadAction.propagateAndProcessWithDelay.value ∧ t.param.Unfit)

theorem targetSequence_reported {c : SinkConfig} {t : TargetScratchpadAndAction} {sequence : UInt8}
    (h : targetSequence c t = some sequence) :
    sequence.toUInt32 = t.targetSequence.getD c.otapStatus.scratSeqNumber.toUInt32 := by
  unfold targetSequence at h
  cases hGiven : t.targetSequence with
  | none =>
    rw [hGiven] at h
    dsimp only at h
    split at h
    · exact congrArg UInt8.toUInt32 (Option.some.inj h).symm
    · cases h
  | some given =>
    rw [hGiven] at h
    dsimp only at h
    split at h
    · cases h
    · next hFits =>
      rw [← Option.some.inj h]
      exact toUInt32_toUInt8 hFits

theorem targetCrc_reported {c : SinkConfig} {t : TargetScratchpadAndAction} {crc : UInt16}
    (h : targetCrc c t = some crc) :
    crc.toUInt32 = t.targetCrc.getD c.otapStatus.scratCrc.toUInt32 := by
  unfold targetCrc at h
  cases hGiven : t.targetCrc with
  | none =>
    rw [hGiven] at h
    exact congrArg UInt16.toUInt32 (Option.some.inj h).symm
  | some given =>
    rw [hGiven] at h
    dsimp only at h
    split at h
    · cases h
    · next hFits =>
      rw [← Option.some.inj h]
      exact toUInt32_toUInt16 hFits

/-- What is written for an action that is not the removal of a target. -/
structure Requested (c : SinkConfig) (t : TargetScratchpadAndAction) (target : ScratchpadTarget) : Prop where
  supported : t.action = ScratchpadAction.propagateOnly.value ∨
    t.action = ScratchpadAction.propagateAndProcess.value ∨
    t.action = ScratchpadAction.propagateAndProcessWithDelay.value
  sequence : targetSequence c t = some target.sequence
  crc : targetCrc c t = some target.crc
  action : target.action = (t.action - ScratchpadAction.noOtap.value).toUInt8
  param : t.action = ScratchpadAction.propagateAndProcessWithDelay.value →
    delayParam t.param = some target.param

theorem requestedTarget_cases {c : SinkConfig} {t : TargetScratchpadAndAction} {target : ScratchpadTarget}
    (h : requestedTarget c t = some target) :
    (t.action = ScratchpadAction.noOtap.value ∧ target = ⟨0, 0, 0, 0⟩) ∨ Requested c t target := by
  unfold requestedTarget at h
  dsimp only at h
  split at h
  · next hNoOtap => exact .inl ⟨hNoOtap, (Option.some.inj h).symm⟩
  obtain ⟨sequence, hSequence⟩ : ∃ sequence, targetSequence c t = some sequence := by
    cases hSequence : targetSequence c t with
    | none => simp [hSequence] at h
    | some sequence => exact ⟨sequence, rfl⟩
  obtain ⟨crc, hCrc⟩ : ∃ crc, targetCrc c t = some crc := by
    cases hCrc : targetCrc c t with
    | none => simp [hCrc] at h
    | some crc => exact ⟨crc, rfl⟩
  simp only [hSequence, hCrc] at h
  split at h
  · next hDelay =>
    obtain ⟨param, hParam, hSome⟩ := Option.bind_eq_some_iff.mp h
    obtain rfl := Option.some.inj hSome
    exact .inr ⟨.inr (.inr hDelay), hSequence, hCrc, rfl, fun _ => hParam⟩
  · next hNoDelay =>
    split at h
    · next hSupported =>
      obtain rfl := Option.some.inj h
      exact .inr ⟨hSupported.imp_right .inl, hSequence, hCrc, rfl, fun hDelay => absurd hDelay hNoDelay⟩
    · cases h

/-- With the target of the request in the cache, the report is the one that was asked for. -/
theorem reportsTarget {c c' : SinkConfig} {t : TargetScratchpadAndAction} {target : ScratchpadTarget}
    (h : requestedTarget c t = some target) (hStored : c'.target = target) :
    ReportsTarget c.otapStatus t (fillTargetAndAction c') := by
  subst hStored
  rcases requestedTarget_cases h with ⟨hNoOtap, hZero⟩ | hRequested
  · have hReport : fillTargetAndAction c' = fillTargetAndAction { c' with target := ⟨0, 0, 0, 0⟩ } := by
      unfold fillTargetAndAction
      rw [hZero]
    rw [hReport]
    exact {
      action := hNoOtap.symm
      sequence := ⟨rfl, (if_pos hNoOtap).symm⟩
      crc := ⟨rfl, (if_pos hNoOtap).symm⟩
      param := fun hDelay => absurd (hNoOtap.symm.trans hDelay) (by decide) }
  · have hOther : t.action ≠ ScratchpadAction.noOtap.value := by
      rcases hRequested.supported with h | h | h
      all_goals
        rw [h]
        decide
    exact {
      action := by
        change c'.target.action.toUInt32 + ScratchpadAction.noOtap.value = t.action
        rw [hRequested.action]
        rcases hRequested.supported with h | h | h
        all_goals
          rw [h]
          decide
      sequence := by
        rw [if_neg hOther]
        exact ⟨rfl, targetSequence_reported hRequested.sequence⟩
      crc := by
        rw [if_neg hOther]
        exact ⟨rfl, targetCrc_reported hRequested.crc⟩
      param := by
        intro hDelay
        have hAction : c'.target.action = 3 := by
          rw [hRequested.action, hDelay]
          decide
        exact ⟨c'.target.param, delayParam_denotes (hRequested.param hDelay),
          fillTargetAndAction_denotes hAction⟩ }

/-- Two targets are reported alike: only a delay has a parameter in the report. -/
structure ReportedAs (target asked : ScratchpadTarget) : Prop where
  sequence : target.sequence = asked.sequence
  crc : target.crc = asked.crc
  action : target.action = asked.action
  param : asked.action = 3 → target.param = asked.param

theorem ReportedAs.refl (target : ScratchpadTarget) : ReportedAs target target :=
  ⟨rfl, rfl, rfl, fun _ => rfl⟩

theorem ReportedAs.fillTargetAndAction {c c' : SinkConfig} (h : ReportedAs c.target c'.target) :
    fillTargetAndAction c = fillTargetAndAction c' := by
  unfold Proto.fillTargetAndAction
  rw [h.sequence, h.crc, h.action]
  by_cases hDelay : c'.target.action = 3
  · rw [h.param hDelay]
  · simp only [if_neg hDelay]

/-- Exactly the targets that are reported alike give the report that was asked for. -/
theorem reportsTarget_iff {c c' : SinkConfig} {t : TargetScratchpadAndAction} {asked : ScratchpadTarget}
    (h : requestedTarget c t = some asked) :
    ReportsTarget c.otapStatus t (fillTargetAndAction c') ↔ ReportedAs c'.target asked := by
  have hAsked : ReportsTarget c.otapStatus t (fillTargetAndAction { c' with target := asked }) :=
    reportsTarget h rfl
  constructor
  · intro hReports
    have hAction : c'.target.action.toUInt32 + ScratchpadAction.noOtap.value =
        asked.action.toUInt32 + ScratchpadAction.noOtap.value := hReports.action.trans hAsked.action.symm
    have hAction : c'.target.action = asked.action :=
      UInt8.toUInt32_inj.mp ((UInt32.add_left_inj _).mp hAction)
    refine ⟨UInt8.toUInt32_inj.mp (hReports.sequence.2.trans hAsked.sequence.2.symm),
      UInt16.toUInt32_inj.mp (hReports.crc.2.trans hAsked.crc.2.symm), hAction, fun hThree => ?_⟩
    have hDelay : t.action = ScratchpadAction.propagateAndProcessWithDelay.value := by
      rw [← hAsked.action]
      change asked.action.toUInt32 + _ = _
      rw [hThree]
      decide
    obtain ⟨b, hGiven, hReported⟩ := hReports.param hDelay
    obtain ⟨b', hGiven', hReported'⟩ := hAsked.param hDelay
    obtain rfl := hGiven.unique hGiven'
    have hParam := hReported.unique (fillTargetAndAction_denotes (hAction.trans hThree))
    exact hParam.symm.trans (hReported'.unique (fillTargetAndAction_denotes hThree))
  · intro hSame
    have hFill : fillTargetAndAction c' = fillTargetAndAction { c' with target := asked } :=
      ReportedAs.fillTargetAndAction hSame
    rw [hFill]
    exact hAsked

theorem requestedTarget_unacceptable {c : SinkConfig} {t : TargetScratchpadAndAction}
    (h : t.Unacceptable) : requestedTarget c t = none := by
  cases hTarget : requestedTarget c t with
  | none => rfl
  | some target =>
    exfalso
    rcases requestedTarget_cases hTarget with ⟨hNoOtap, -⟩ | hRequested
    · rcases h with hAction | ⟨hOther, -⟩ | ⟨hDelay, -⟩
      · exact hAction .noOtap (by decide) hNoOtap
      · exact hOther hNoOtap
      · exact absurd (hNoOtap.symm.trans hDelay) (by decide)
    · rcases h with hAction | ⟨-, hLarge⟩ | ⟨hDelay, hUnfit⟩
      · rcases hRequested.supported with hOnly | hProcess | hDelay
        · exact hAction .propagateOnly (by decide) hOnly
        · exact hAction .propagateAndProcess (by decide) hProcess
        · exact hAction .propagateAndProcessWithDelay (by decide) hDelay
      · rcases hLarge with ⟨sequence, hGiven, hLarge⟩ | ⟨crc, hGiven, hLarge⟩
        · have hSequence := hRequested.sequence
          unfold targetSequence at hSequence
          rw [show t.targetSequence = some sequence from hGiven] at hSequence
          dsimp only at hSequence
          rw [if_pos hLarge] at hSequence
          cases hSequence
        · have hCrc := hRequested.crc
          unfold targetCrc at hCrc
          rw [show t.targetCrc = some crc from hGiven] at hCrc
          dsimp only at hCrc
          rw [if_pos hLarge] at hCrc
          cases hCrc
      · have hParam := hRequested.param hDelay
        rw [delayParam_unfit hUnfit] at hParam
        cases hParam

section Returning

variable {ν α : Type} {env : Environment ν}

theorem completes_ask (f : ν → α × ν) : Completes (ask f : Call Gateway ν α) :=
  fun w => ⟨(f w.node).1, { w with node := (f w.node).2 }, returns_ask.mpr ⟨rfl, rfl⟩⟩

theorem Blind.completes {p : Call Gateway ν α} (h : Blind p) : Completes p := by
  intro w
  obtain ⟨a, t, hReturns⟩ := h w
  exact ⟨a, _, hReturns w.gateway⟩

theorem Answers.completes {p : Call Gateway ν α} (h : Answers p) : Completes p := by
  intro w
  obtain ⟨a, t, answers, hReturns⟩ := h w NodeAnswers.none
  exact ⟨a, _, hReturns w.gateway⟩

theorem completes_fillSinkReadConfig : Completes (fillSinkReadConfig env) := by
  apply Completes.bind (.read _)
  intro g
  apply Completes.ite _ (.pure _)
  apply Completes.bind
  · apply Completes.bind (blind_readAttribute env _ _ _ _).completes
    intro result
    split
    · exact .pure _
    · apply Completes.ite (.pure _)
      apply Completes.bind (completes_ask _)
      rintro ⟨res, conf⟩
      dsimp only
      split
      · exact .pure _
      · exact .pure _
  · intro result
    split
    · exact .pure _
    · exact .pure _

theorem completes_sendStatusEvent : Completes (sendStatusEvent env) := by
  apply Completes.bind (completes_ask _)
  intro allocated
  apply Completes.ite _ (.pure _)
  apply Completes.bind (completes_ask _)
  intro allocated'
  apply Completes.ite _ (.pure _)
  apply Completes.bind _ fun event => .change _
  apply Completes.bind (Completes.ite completes_fillSinkReadConfig (.pure _))
  intro config
  apply Completes.bind (.read _)
  intro g
  apply Completes.bind (completes_ask _)
  intro now
  apply Completes.bind (completes_ask _)
  intro rand
  exact Completes.bind (completes_ask _) fun rand' => .pure _

theorem completes_refresh : Completes (protoConfigRefreshOtapInfos env) :=
  Completes.bind (answers_refreshFullStackState env).completes fun _ => completes_sendStatusEvent

variable (env) in
theorem completes_setScratchpadTargetAndAction (req : SetScratchpadTargetAndActionReq)
    (resp : Raw.SetScratchpadTargetAndActionResp) :
    Completes (protoConfigHandleSetScratchpadTargetAndActionRequest env req resp) := by
  apply Completes.bind (.read _)
  intro g
  apply Completes.bind
  · unfold writeTarget
    split
    · exact Completes.bind (completes_ask _) fun res => .pure _
    · exact .pure _
  · intro res
    apply Completes.bind completes_refresh
    intro _
    apply Completes.bind
    · apply Completes.bind (completes_ask _)
      intro now
      exact Completes.bind (.read _) fun g => .pure _
    · exact fun header => .pure _

end Returning

/-- A target that the node accepts is stored, and changes at no other call. A read that the node
answers tells it; nothing says that it is answered. -/
structure TargetStore {ν : Type} (env : Environment ν) (target : ν → ScratchpadTarget) : Prop where
  keeps : Keeps env target
  written : ∀ t n, (env.request (scratchpadTargetWrite t) n).1 = 0 →
    target (env.request (scratchpadTargetWrite t) n).2 = t
  read : ∀ n, (env.scratchpadTargetRead n).1.1 = 0 → (env.scratchpadTargetRead n).1.2 = target n

section ReadBack

variable {ν : Type} (env : Environment ν)

/-- What a refresh reads before the target. -/
def readsBeforeTarget : Call Gateway ν Bool := do
  let _ ← initializeConfigVariables env
  getValueFromNode (wpcGetLocalScratchpadStatus env) fun v c => { c with otapStatus := v }

/-- The node answers the read of the target in a refresh that begins here. -/
def TellsTarget (w : World Gateway ν) : Prop :=
  (env.scratchpadTargetRead (readsBeforeTarget env w).2.node).1.1 = 0

variable {env}

variable (env) in
theorem asks_cachedTarget : Asks env fun w t : World Gateway ν =>
    t.gateway.sinkConfig.target = w.gateway.sinkConfig.target :=
  (keeps_unit env).asks (composes_eq fun w : World Gateway ν => w.gateway.sinkConfig.target)
    fun _ _ _ => rfl

/-- The last read of a refresh is the one of the target; when it fails, the cache keeps the old one. -/
theorem returns_refreshFullStackState {w t : World Gateway ν} {done : Bool}
    (h : Returns (refreshFullStackState env) w done t) :
    (TellsTarget env w → t.gateway.sinkConfig.target =
        (env.scratchpadTargetRead (readsBeforeTarget env w).2.node).1.2) ∧
      (¬ TellsTarget env w → t.gateway.sinkConfig.target = w.gateway.sinkConfig.target) := by
  obtain ⟨config, u, hConfig, hRest⟩ := returns_bind.mp h
  obtain ⟨otap, t', hOtap, hPure⟩ := returns_bind.mp hRest
  obtain ⟨-, rfl⟩ := returns_pure.mp hPure
  obtain ⟨status, v, hStatus, hRest⟩ := returns_bind.mp hOtap
  obtain ⟨read, x, hTarget, hPure⟩ := returns_bind.mp hRest
  obtain ⟨-, rfl⟩ := returns_pure.mp hPure
  have hBefore : Returns (readsBeforeTarget env) w status v :=
    returns_bind.mpr ⟨config, u, hConfig, hStatus⟩
  have hReads : v.gateway.sinkConfig.target = w.gateway.sinkConfig.target := by
    have hAsks := asks_cachedTarget env
    have hConfigSame :=
      (Reading.readAll hAsks (moves_configReads hAsks fun _ hSame _ => hSame _)).returns hConfig
    have hStatusSame :=
      (Reading.getValueFromNode hAsks hAsks.wpcGetLocalScratchpadStatus fun _ _ => rfl).returns hStatus
    exact hStatusSame.trans hConfigSame
  unfold TellsTarget
  rw [hBefore.leaves]
  obtain ⟨result, y, hRead, hStore⟩ := returns_bind.mp hTarget
  obtain ⟨answer, z, hAsk, hResult⟩ := returns_bind.mp hRead
  obtain ⟨rfl, rfl⟩ := returns_ask.mp hAsk
  rcases returns_ite.mp hResult with ⟨hOk, hPure⟩ | ⟨hFailed, hPure⟩
  · obtain ⟨rfl, rfl⟩ := returns_pure.mp hPure
    obtain ⟨_, y', hChange, hPure⟩ := returns_bind.mp hStore
    obtain rfl := returns_change.mp hChange
    obtain ⟨-, rfl⟩ := returns_pure.mp hPure
    exact ⟨fun _ => rfl, fun hNot => absurd hOk hNot⟩
  · obtain ⟨rfl, rfl⟩ := returns_pure.mp hPure
    obtain ⟨-, rfl⟩ := returns_pure.mp hStore
    exact ⟨fun hTells => absurd hTells hFailed, fun _ => hReads⟩

/-- What follows a refresh does not change the cache. -/
theorem returns_protoConfigRefreshOtapInfos {w t : World Gateway ν}
    (h : Returns (protoConfigRefreshOtapInfos env) w () t) :
    ∃ done u, Returns (refreshFullStackState env) w done u ∧
      t.gateway.sinkConfig = u.gateway.sinkConfig := by
  obtain ⟨done, u, hRefresh, hEvent⟩ := returns_bind.mp h
  have hAsks : Asks env fun w t : World Gateway ν => t.gateway.sinkConfig = w.gateway.sinkConfig :=
    (keeps_unit env).asks (composes_eq fun w : World Gateway ν => w.gateway.sinkConfig) fun _ _ _ => rfl
  exact ⟨done, u, hRefresh, (Reading.sendStatusEvent hAsks fun _ _ => rfl).returns hEvent⟩

end ReadBack

namespace TargetStore

variable {ν : Type} {env : Environment ν} {target : ν → ScratchpadTarget} (store : TargetStore env target)

include store

theorem asks : Asks env fun w t : World Gateway ν => target t.node = target w.node :=
  store.keeps.asks (composes_eq fun w : World Gateway ν => target w.node) fun _ _ hSame => hSame

theorem refreshes : Refreshes env fun w t : World Gateway ν => target t.node = target w.node :=
  refreshes_of_stores store.asks (fun _ _ => rfl) fun _ _ => rfl

theorem readsBeforeTarget : Moves (fun w t : World Gateway ν => target t.node = target w.node)
    (readsBeforeTarget env) :=
  Moves.bind store.asks.composes (Reading.readAll store.asks (moves_configReads store.asks fun _ _ _ => rfl))
    fun _ => Reading.getValueFromNode store.asks store.asks.wpcGetLocalScratchpadStatus fun _ _ => rfl

/-- A refresh brings the target of the node into the cache just if the node tells it. -/
theorem cached_target {w t : World Gateway ν} (h : Returns (protoConfigRefreshOtapInfos env) w () t) :
    (TellsTarget env w → t.gateway.sinkConfig.target = target w.node) ∧
      (¬ TellsTarget env w → t.gateway.sinkConfig.target = w.gateway.sinkConfig.target) := by
  obtain ⟨done, u, hRefresh, hCache⟩ := returns_protoConfigRefreshOtapInfos h
  obtain ⟨hTold, hKept⟩ := returns_refreshFullStackState hRefresh
  rw [hCache]
  refine ⟨fun hTells => ?_, hKept⟩
  rw [hTold hTells, store.read _ hTells]
  exact store.readsBeforeTarget w

end TargetStore

section Requests

variable {ν : Type} {env : Environment ν} {target : ν → ScratchpadTarget}

theorem returns_setScratchpadTargetAndAction {req : SetScratchpadTargetAndActionReq}
    {resp : Raw.SetScratchpadTargetAndActionResp} {w t : World Gateway ν}
    {answer : AppProtoRes × Raw.SetScratchpadTargetAndActionResp}
    (h : Returns (protoConfigHandleSetScratchpadTargetAndActionRequest env req resp) w answer t) :
    ∃ res u v,
      Returns (writeTarget env (requestedTarget w.gateway.sinkConfig req.targetAndAction)) w res u ∧
      Returns (protoConfigRefreshOtapInfos env) u () v ∧
      answer.2.header.res = (commonConvertErrorCode res).value ∧
      t = { v with node := (env.timestampMsEpoch v.node).2 } := by
  obtain ⟨g, w', hGateway, h⟩ := returns_bind.mp h
  obtain ⟨rfl, rfl⟩ := returns_read.mp hGateway
  obtain ⟨res, u, hWrite, h⟩ := returns_bind.mp h
  obtain ⟨_, v, hRefresh, h⟩ := returns_bind.mp h
  obtain ⟨header, x, hHeader, hPure⟩ := returns_bind.mp h
  obtain ⟨rfl, rfl⟩ := returns_pure.mp hPure
  obtain ⟨hRes, rfl⟩ := returns_fillResponseHeader env hHeader
  exact ⟨res, u, v, hWrite, hRefresh, hRes, rfl⟩

theorem returns_writeTarget_ok (store : TargetStore env target) {requested : Option ScratchpadTarget}
    {w u : World Gateway ν} (h : Returns (writeTarget env requested) w .ok u) :
    ∃ asked, requested = some asked ∧ (env.request (scratchpadTargetWrite asked) w.node).1 = 0 ∧
      target u.node = asked ∧ u = { w with node := (env.request (scratchpadTargetWrite asked) w.node).2 } := by
  cases requested with
  | none =>
    obtain ⟨hOk, -⟩ := returns_pure.mp h
    cases hOk
  | some asked =>
    obtain ⟨res, v, hAsk, hPure⟩ := returns_bind.mp h
    obtain ⟨rfl, rfl⟩ := returns_ask.mp hAsk
    obtain ⟨hOk, rfl⟩ := returns_pure.mp hPure
    have hTable : OkOnlyAtZero targetScratchpadErrorCodeLut := by decide
    have hAccepted := (convertErrorCode_eq_ok hTable).mp hOk.symm
    exact ⟨asked, rfl, hAccepted, store.written asked w.node hAccepted, rfl⟩

theorem returns_writeTarget_accepted {asked : ScratchpadTarget} {w u : World Gateway ν} {res : AppRes}
    (h : Returns (writeTarget env (some asked)) w res u)
    (hAccepted : (env.request (scratchpadTargetWrite asked) w.node).1 = 0) : res = .ok := by
  obtain ⟨res', v, hAsk, hPure⟩ := returns_bind.mp h
  obtain ⟨rfl, rfl⟩ := returns_ask.mp hAsk
  obtain ⟨rfl, rfl⟩ := returns_pure.mp hPure
  rw [hAccepted]
  rfl

/-- A request without a target to write sends nothing to the node. -/
theorem requestsOf_setScratchpadTargetAndAction {req : SetScratchpadTargetAndActionReq}
    (resp : Raw.SetScratchpadTargetAndActionResp) {w : World Gateway ν}
    (h : requestedTarget w.gateway.sinkConfig req.targetAndAction = none) :
    requestsOf (protoConfigHandleSetScratchpadTargetAndActionRequest env.recorded req resp) w = [] := by
  obtain ⟨answer, t, hReturns⟩ :=
    completes_setScratchpadTargetAndAction env.recorded req resp w.recording
  obtain ⟨res, u, v, hWrite, hRefresh, -, rfl⟩ := returns_setScratchpadTargetAndAction hReturns
  have hNone : requestedTarget w.recording.gateway.sinkConfig req.targetAndAction = none := h
  rw [hNone] at hWrite
  obtain ⟨-, rfl⟩ := returns_pure.mp hWrite
  have hRefreshes : Refreshes env.recorded fun w t : World Gateway (List Wpc.Request × ν) =>
      t.node.1 = w.node.1 := by
    apply refreshes_of_stores
    · exact (keeps_record env).asks (composes_eq fun w : World Gateway (List Wpc.Request × ν) => w.node.1)
        fun _ _ hSame => hSame
    · exact fun _ _ => rfl
    · exact fun _ _ => rfl
  rw [requestsOf_eq hReturns]
  exact (hRefreshes.onStackStatusReceived _).returns hRefresh

/-- The handler answers the request. After OK the target of the request is reported; a request with
a value that the node has no room for is refused, and nothing is written. -/
def SetsTarget (env : Environment ν) (target : ν → ScratchpadTarget)
    (req : SetScratchpadTargetAndActionReq) (resp : Raw.SetScratchpadTargetAndActionResp)
    (w : World Gateway ν) : Prop :=
  ∃ answer t,
    Returns (protoConfigHandleSetScratchpadTargetAndActionRequest env req resp) w answer t ∧
    (answer.2.header.res = ErrorCode.ok.value →
      ReportsTarget w.gateway.sinkConfig.otapStatus req.targetAndAction
        (fillTargetAndAction t.gateway.sinkConfig)) ∧
    (req.targetAndAction.Unacceptable →
      answer.2.header.res ≠ ErrorCode.ok.value ∧ target t.node = target w.node ∧
        requestsOf (protoConfigHandleSetScratchpadTargetAndActionRequest env.recorded req resp) w = [])

/-- Where the node accepts the target of the request, it answers the read of the target in the
refresh behind the write, or the cache tells that target already. -/
def StaysInSync (env : Environment ν) (req : SetScratchpadTargetAndActionReq) (w : World Gateway ν) : Prop :=
  ∀ asked, requestedTarget w.gateway.sinkConfig req.targetAndAction = some asked →
    (env.request (scratchpadTargetWrite asked) w.node).1 = 0 →
      TellsTarget env { w with node := (env.request (scratchpadTargetWrite asked) w.node).2 } ∨
        ReportedAs w.gateway.sinkConfig.target asked

theorem setsTarget_iff (store : TargetStore env target) (req : SetScratchpadTargetAndActionReq)
    (resp : Raw.SetScratchpadTargetAndActionResp) (w : World Gateway ν) :
    SetsTarget env target req resp w ↔ StaysInSync env req w := by
  obtain ⟨answer, t, hReturns⟩ := completes_setScratchpadTargetAndAction env req resp w
  obtain ⟨res, u, v, hWrite, hRefresh, hRes, rfl⟩ := returns_setScratchpadTargetAndAction hReturns
  obtain ⟨hTold, hKept⟩ := store.cached_target hRefresh
  constructor
  · rintro ⟨answer', t', hReturns', hReports, -⟩ asked hAsked hAccepted
    obtain ⟨rfl, rfl⟩ := hReturns'.unique hReturns
    rw [hAsked] at hWrite
    obtain rfl := returns_writeTarget_accepted hWrite hAccepted
    obtain ⟨asked', hEq, -, -, rfl⟩ := returns_writeTarget_ok store hWrite
    obtain rfl := Option.some.inj hEq
    refine or_iff_not_imp_left.mpr fun hLost => ?_
    have hOk : answer'.2.header.res = ErrorCode.ok.value := hRes
    have hReported := (reportsTarget_iff hAsked).mp (hReports hOk)
    change ReportedAs v.gateway.sinkConfig.target asked at hReported
    rw [hKept hLost] at hReported
    exact hReported
  · intro hSync
    refine ⟨answer, _, hReturns, ?_, ?_⟩
    · intro hOk
      rw [hRes] at hOk
      obtain rfl : res = .ok := commonConvertErrorCode_eq_ok.mp (ErrorCode.value_injective hOk)
      obtain ⟨asked, hAsked, hAccepted, hStored, rfl⟩ := returns_writeTarget_ok store hWrite
      refine (reportsTarget_iff hAsked).mpr ?_
      change ReportedAs v.gateway.sinkConfig.target asked
      by_cases hTells : TellsTarget env
          { w with node := (env.request (scratchpadTargetWrite asked) w.node).2 }
      · rw [hTold hTells, hStored]
        exact .refl asked
      · rw [hKept hTells]
        exact (hSync asked hAsked hAccepted).resolve_left hTells
    · intro hUnacceptable
      have hNone := requestedTarget_unacceptable (c := w.gateway.sinkConfig) hUnacceptable
      rw [hNone] at hWrite
      obtain ⟨rfl, rfl⟩ := returns_pure.mp hWrite
      have hSame : target v.node = target u.node :=
        (store.refreshes.onStackStatusReceived _).returns hRefresh
      refine ⟨?_, (store.keeps.timestampMsEpoch v.node).trans hSame,
        requestsOf_setScratchpadTargetAndAction resp hNone⟩
      rw [hRes]
      decide

end Requests

/-- A node that accepts every target and nothing else, and answers its reads or not. There is no
memory for an event. -/
def targetNode (tells : Bool) : Environment ScratchpadTarget where
  request q n :=
    match q.payload with
    | .scratchpadTargetWrite sequence crc action param => (0, ⟨sequence, crc, action, param⟩)
    | _ => (-1, n)
  attributeRead _ _ n := ((-1, []), n)
  appConfigDataRead n := ((-1, ⟨0, 0, []⟩), n)
  scratchpadStatus n := ((-1, ⟨0, 0, 0, 0, 0, 0, 0, 0, 0⟩), n)
  scratchpadTargetRead n := (if tells then (0, n) else (-1, ⟨0, 0, 0, 0⟩), n)
  timestampMsMonotonic n := (0, n)
  timestampMsEpoch n := (0, n)
  malloc n := (false, n)
  rand n := (0, n)
  rounds := 1

theorem targetNode_stores (tells : Bool) : TargetStore (targetNode tells) id where
  keeps := {
    attributeRead := fun _ _ _ => rfl
    appConfigDataRead := fun _ => rfl
    scratchpadStatus := fun _ => rfl
    scratchpadTargetRead := fun _ => rfl
    timestampMsMonotonic := fun _ => rfl
    timestampMsEpoch := fun _ => rfl
    malloc := fun _ => rfl
    rand := fun _ => rfl }
  written _ _ _ := rfl
  read n hOk := by
    cases tells with
    | true => rfl
    | false => exact absurd hOk (show ¬ (-1 : Int) = 0 by decide)

/-- The byte of ten minutes, given as a raw parameter. -/
def rawDelayRequest : SetScratchpadTargetAndActionReq :=
  ⟨⟨1⟩, ⟨ScratchpadAction.propagateAndProcessWithDelay.value, some 7, none, .raw 74⟩⟩

def withoutTarget : World Gateway ScratchpadTarget := ⟨⟨60, 102⟩, .initialized .zero, ⟨0, 0, 0, 0⟩⟩

def rawDelayRun (env : Environment ScratchpadTarget) :
    Option (AppProtoRes × Raw.SetScratchpadTargetAndActionResp) × World Gateway ScratchpadTarget :=
  protoConfigHandleSetScratchpadTargetAndActionRequest env rawDelayRequest
    (someMemory 0 false).setScratchpadTargetAndAction withoutTarget

/-- It is accepted, and reported by its name. -/
theorem setsTarget_raw_delay :
    ((rawDelayRun (targetNode true)).1.map fun answer => answer.2.header.res) = some ErrorCode.ok.value ∧
      (fillTargetAndAction (rawDelayRun (targetNode true)).2.gateway.sinkConfig).targetParam =
        .delay ProcessingDelay.tenMinutes.value ∧
      SetsTarget (targetNode true) id rawDelayRequest (someMemory 0 false).setScratchpadTargetAndAction
        withoutTarget := by
  refine ⟨?_, ?_, ?_⟩
  · decide +kernel
  · decide +kernel
  · exact (setsTarget_iff (targetNode_stores true) rawDelayRequest _ _).mpr fun _ _ _ => .inl rfl

/-- The request is answered with OK, and what is reported afterwards is that there is no target. -/
theorem lost_read_back_reports_old : TargetStore (targetNode false) id ∧
    ((rawDelayRun (targetNode false)).1.map fun answer => answer.2.header.res) =
      some ErrorCode.ok.value ∧
    (fillTargetAndAction (rawDelayRun (targetNode false)).2.gateway.sinkConfig).action =
      ScratchpadAction.noOtap.value ∧
    ¬ SetsTarget (targetNode false) id rawDelayRequest (someMemory 0 false).setScratchpadTargetAndAction
      withoutTarget := by
  have hAnswered : ((rawDelayRun (targetNode false)).1.map fun answer => answer.2.header.res) =
      some ErrorCode.ok.value := by decide +kernel
  have hOld : (fillTargetAndAction (rawDelayRun (targetNode false)).2.gateway.sinkConfig).action =
      ScratchpadAction.noOtap.value := by decide +kernel
  refine ⟨targetNode_stores false, hAnswered, hOld, ?_⟩
  rintro ⟨answer, t, hReturns, hReports, -⟩
  have hRun : rawDelayRun (targetNode false) = (some answer, t) := hReturns
  rw [hRun] at hAnswered hOld
  have hAction := (hReports (Option.some.inj hAnswered)).action
  exact absurd (hAction.symm.trans hOld) (by decide)

end CMeshApi.Proto
