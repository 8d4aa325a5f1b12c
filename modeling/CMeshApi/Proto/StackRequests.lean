import CMeshApi.Proto.Autostart
import CMeshApi.Proto.ChunkedLoad
import CMeshApi.Wpc.RequestSizes

/-!
# The restart after a load

A request that stops the stack leaves the start to the request that ends the load. The two
static variables that carry it are `m_restart_after_load` and
`m_scratchpad_load_current_seq`; the requests to the node are recorded.
-/

namespace CMeshApi.Proto

open Programs Wpc Machine

section Recorded

variable {ν : Type}

def starts (w : World Gateway (List Request × ν)) : Nat := w.node.1.count (stackStart 0)

def stops (w : World Gateway (List Request × ν)) : Nat := w.node.1.count stackStop

def SameCounts (w t : World Gateway (List Request × ν)) : Prop :=
  (starts t, stops t) = (starts w, stops w)

def InProgress (w : World Gateway ν) : Prop :=
  w.gateway.scratchpadLoadCurrentSeq ≠ invalidCurrentSeq

instance (w : World Gateway ν) : Decidable (InProgress w) := inferInstanceAs (Decidable (_ ≠ _))

variable {env : Environment ν}

theorem keeps_record (env : Environment ν) : Keeps env.recorded Prod.fst where
  attributeRead _ _ _ := rfl
  appConfigDataRead _ := rfl
  scratchpadStatus _ := rfl
  scratchpadTargetRead _ := rfl
  timestampMsMonotonic _ := rfl
  timestampMsEpoch _ := rfl
  malloc _ := rfl
  rand _ := rfl

theorem refreshes_counts : Refreshes env.recorded (SameCounts (ν := ν)) := by
  apply refreshes_of_stores
  · exact (keeps_record env).asks (composes_eq fun w => (starts w, stops w)) fun w n hSame => by
      unfold SameCounts starts stops
      rw [hSame]
  · exact fun _ _ => rfl
  · exact fun _ _ => rfl

theorem count_request {q q' : Request} {w : World Gateway (List Request × ν)} :
    (env.recorded.request q w.node).2.1.count q' = w.node.1.count q' + if q = q' then 1 else 0 := by
  have hRecord : (env.recorded.request q w.node).2.1 = w.node.1 ++ [q] := rfl
  rw [hRecord, List.count_append, List.count_singleton]
  simp only [beq_iff_eq]

theorem sends_counts {q : Request} (hStart : q ≠ stackStart 0) (hStop : q ≠ stackStop) :
    Sends env.recorded SameCounts q := by
  intro w
  unfold SameCounts starts stops
  dsimp only
  rw [count_request, count_request, if_neg hStart, if_neg hStop]
  rfl

theorem sends_autostart (enable : UInt8) :
    Sends env.recorded SameCounts (attributeWrite .msap msapAutostart [enable]) :=
  sends_counts
    (fun h => absurd (congrArg Request.primitiveId h)
      (show ¬ Sap.writeRequest .msap = msapStackStartRequestId by decide))
    fun h => absurd (congrArg Request.primitiveId h)
      (show ¬ Sap.writeRequest .msap = msapStackStopRequestId by decide)

variable {w t : World Gateway (List Request × ν)}

theorem SameCounts.starts {w t : World Gateway (List Request × ν)} (h : SameCounts w t) :
    starts t = starts w := congrArg Prod.fst h

theorem SameCounts.stops {w t : World Gateway (List Request × ν)} (h : SameCounts w t) :
    stops t = stops w := congrArg Prod.snd h

theorem wpcStopStack_counts {res : AppRes} (h : Returns (wpcStopStack env.recorded) w res t) :
    starts t = starts w ∧ stops t = stops w + 1 := by
  have hSame := refreshes_counts.asks.returns_wpcStopStack h
  refine ⟨hSame.starts.trans ?_, hSame.stops.trans ?_⟩
  · exact count_request
  · exact count_request

theorem stopIfRunning_counts {stopped : Bool} (h : Returns (stopIfRunning env.recorded) w stopped t) :
    starts t = starts w ∧ stops t = stops w + if stopped then 1 else 0 := by
  obtain ⟨running, u, hRunning, hRest⟩ := returns_bind.mp h
  have hSame : SameCounts w u := (Reading.stackRunning refreshes_counts.asks).returns hRunning
  rcases returns_ite.mp hRest with ⟨-, hStop⟩ | ⟨-, hPure⟩
  · obtain ⟨_, v, hAutostart, hStop⟩ := returns_bind.mp hStop
    obtain ⟨_, x, hStop, hPure⟩ := returns_bind.mp hStop
    obtain ⟨rfl, rfl⟩ := returns_pure.mp hPure
    have hWrite : SameCounts u v :=
      (refreshes_counts.asks.writeAttribute (sends_autostart 0)).returns hAutostart
    obtain ⟨hStarts, hStops⟩ := wpcStopStack_counts hStop
    rw [hStarts, hStops, hWrite.starts, hWrite.stops, hSame.starts, hSame.stops]
    exact ⟨rfl, rfl⟩
  · obtain ⟨rfl, rfl⟩ := returns_pure.mp hPure
    exact ⟨hSame.starts, hSame.stops⟩

theorem startWithAutostart_counts {res : AppRes}
    (h : Returns (startWithAutostart env.recorded) w res t) : starts t = starts w + 1 ∧ stops t = stops w := by
  obtain ⟨res', u, hStart, hRest⟩ := returns_bind.mp h
  have hSame := refreshes_counts.returns_startStack hStart
  have hStarts : starts u = starts w + 1 := hSame.starts.trans count_request
  have hStops : stops u = stops w := hSame.stops.trans count_request
  rcases returns_ite.mp hRest with ⟨-, hPure⟩ | ⟨-, hAutostart⟩
  · obtain ⟨-, rfl⟩ := returns_pure.mp hPure
    exact ⟨hStarts, hStops⟩
  · obtain ⟨_, v, hWrite, hPure⟩ := returns_bind.mp hAutostart
    obtain ⟨-, rfl⟩ := returns_pure.mp hPure
    have hWritten : SameCounts u t :=
      (refreshes_counts.asks.writeAttribute (sends_autostart 1)).returns hWrite
    exact ⟨hWritten.starts.trans hStarts, hWritten.stops.trans hStops⟩

theorem updateScratchpad_counts (req : UploadScratchpadReq) :
    Moves SameCounts (updateScratchpad env.recorded req) := by
  refine refreshes_counts.updateScratchpad (fun _ => Moves.change fun _ => rfl) ?_ ?_ ?_ req
  · exact fun _ _ => sends_counts nofun nofun
  · exact fun _ _ => sends_counts nofun nofun
  · exact sends_counts nofun nofun

/-- What a request does to the world in which a start is owed or not: the start is issued if no
load is in progress at the end, and stays owed otherwise. -/
structure Settles (owed : Prop) (w t : World Gateway (List Request × ν)) : Prop where
  started : owed → ¬ InProgress t → starts t = starts w + 1
  waited : ¬ owed ∨ InProgress t → starts t = starts w
  owes : t.gateway.restartAfterLoad = true ↔ owed ∧ InProgress t

theorem restartAfterLoad_settles {res res' : AppRes}
    (h : Returns (restartAfterLoad env.recorded res) w res' t) :
    Settles (w.gateway.restartAfterLoad = true) w t ∧ stops t = stops w := by
  obtain ⟨g, u, hGateway, hRest⟩ := returns_bind.mp h
  obtain ⟨rfl, rfl⟩ := returns_read.mp hGateway
  rcases returns_ite.mp hRest with ⟨⟨hOwed, hIdle⟩, hRestart⟩ | ⟨hNot, hPure⟩
  · obtain ⟨restartRes, v, hStart, hRest⟩ := returns_bind.mp hRestart
    obtain ⟨_, x, hClear, hPure⟩ := returns_bind.mp hRest
    obtain ⟨-, rfl⟩ := returns_pure.mp hPure
    obtain ⟨hStarts, hStops⟩ := startWithAutostart_counts hStart
    have hSame : v.gateway.scratchpadLoadCurrentSeq = u.gateway.scratchpadLoadCurrentSeq :=
      (refreshes_currentSeq.startWithAutostart (fun _ => rfl) fun _ => rfl).returns hStart
    obtain rfl := returns_change.mp hClear
    have hEnded : v.gateway.scratchpadLoadCurrentSeq = invalidCurrentSeq := hSame.trans hIdle
    exact ⟨⟨fun _ _ => hStarts, fun hWaits => absurd hEnded (hWaits.resolve_left (not_not_intro hOwed)),
      iff_of_false nofun fun hLoad => hLoad.2 hEnded⟩, hStops⟩
  · obtain ⟨-, rfl⟩ := returns_pure.mp hPure
    have hLoad : t.gateway.restartAfterLoad = true → InProgress t := fun hOwed hIdle => hNot ⟨hOwed, hIdle⟩
    exact ⟨⟨fun hOwed hEnded => absurd (hLoad hOwed) hEnded, fun _ => rfl,
      fun hOwed => ⟨hOwed, hLoad hOwed⟩, And.left⟩, rfl⟩

/-- The sequence of the load is that of the request, or stays, or there is no load. -/
theorem updateScratchpad_seq {ν : Type} {env : Environment ν} {req : UploadScratchpadReq} {res : AppRes}
    {w t : World Gateway ν} (hSmall : req.seq ≤ 0xff) (h : Returns (updateScratchpad env req) w res t) :
    t.gateway.scratchpadLoadCurrentSeq = invalidCurrentSeq ∨
      t.gateway.scratchpadLoadCurrentSeq = req.seq ∨
        t.gateway.scratchpadLoadCurrentSeq = w.gateway.scratchpadLoadCurrentSeq := by
  cases hChunk : req.chunk with
  | none => exact .inl (returns_noChunk hSmall hChunk h)
  | some chunk =>
    obtain ⟨-, scratchpad, info, hScratchpad, hInfo, rfl⟩ := UploadScratchpadReq.chunk_eq_some.mp hChunk
    unfold updateScratchpad at h
    rw [hScratchpad, hInfo] at h
    obtain ⟨first, u, hFirst, hRest⟩ := returns_bind.mp h
    have hStarted : u.gateway.scratchpadLoadCurrentSeq = invalidCurrentSeq ∨
        u.gateway.scratchpadLoadCurrentSeq = req.seq ∨
          u.gateway.scratchpadLoadCurrentSeq = w.gateway.scratchpadLoadCurrentSeq := by
      rcases returns_ite.mp hFirst with ⟨-, hStart⟩ | ⟨-, hPure⟩
      · have hSeq := returns_startLoad hStart
        split at hSeq
        · exact .inr (.inl hSeq)
        · exact .inl hSeq
      · obtain ⟨-, rfl⟩ := returns_pure.mp hPure
        exact .inr (.inr rfl)
    rcases returns_ite.mp hRest with ⟨-, hPure⟩ | ⟨-, hLoad⟩
    · obtain ⟨-, rfl⟩ := returns_pure.mp hPure
      exact hStarted
    · rcases returns_loadChunk hLoad with ⟨-, -, hAfter⟩ | ⟨-, hSame⟩
      · split at hAfter
        · exact .inl hAfter
        · exact .inr (.inl hAfter)
      · rw [hSame]
        exact hStarted

theorem uploadScratchpad_settles {req : UploadScratchpadReq} {res : AppRes}
    (h : Returns (uploadScratchpad env.recorded req) w res t) :
    ∃ stopped : Bool, stops t = stops w + (if stopped then 1 else 0) ∧
      Settles (w.gateway.restartAfterLoad = true ∨ stopped = true) w t := by
  obtain ⟨stopped, u, hStop, hRest⟩ := returns_bind.mp h
  obtain ⟨_, v, hFlag, hRest⟩ := returns_bind.mp hRest
  obtain ⟨res', x, hUpdate, hRestart⟩ := returns_bind.mp hRest
  obtain ⟨hStarts, hStops⟩ := stopIfRunning_counts hStop
  have hFlags : u.gateway.restartAfterLoad = w.gateway.restartAfterLoad :=
    restartAfterLoad_of_flags ((refreshes_flags.stopIfRunning (fun _ => rfl) fun _ => rfl).returns hStop)
  have hUpdated : SameCounts v x := (updateScratchpad_counts req).returns hUpdate
  have hKept : x.gateway.restartAfterLoad = v.gateway.restartAfterLoad :=
    restartAfterLoad_of_flags ((updateScratchpad_flags req).returns hUpdate)
  obtain ⟨hSettles, hStopsEnd⟩ := restartAfterLoad_settles hRestart
  have hSet : SameCounts u v ∧
      (v.gateway.restartAfterLoad = true ↔ w.gateway.restartAfterLoad = true ∨ stopped = true) := by
    cases stopped with
    | true =>
      obtain rfl := returns_change.mp hFlag
      exact ⟨rfl, iff_of_true rfl (.inr rfl)⟩
    | false =>
      obtain ⟨-, rfl⟩ := returns_pure.mp hFlag
      rw [hFlags]
      exact ⟨rfl, (or_iff_left nofun).symm⟩
  have hStartsEnd : starts x = starts w := by rw [hUpdated.starts, hSet.1.starts, hStarts]
  rw [hKept, hSet.2] at hSettles
  refine ⟨stopped, ?_, ?_, ?_, hSettles.owes⟩
  · rw [hStopsEnd, hUpdated.stops, hSet.1.stops, hStops]
  · exact fun hOwed hEnded => hStartsEnd ▸ hSettles.started hOwed hEnded
  · exact fun hWaits => hStartsEnd ▸ hSettles.waited hWaits

theorem uploadScratchpad_seq {req : UploadScratchpadReq} {res : AppRes} (hSmall : req.seq ≤ 0xff)
    (h : Returns (uploadScratchpad env.recorded req) w res t) :
    t.gateway.scratchpadLoadCurrentSeq = invalidCurrentSeq ∨
      t.gateway.scratchpadLoadCurrentSeq = req.seq ∨
        t.gateway.scratchpadLoadCurrentSeq = w.gateway.scratchpadLoadCurrentSeq := by
  obtain ⟨stopped, u, hStop, hRest⟩ := returns_bind.mp h
  obtain ⟨_, v, hFlag, hRest⟩ := returns_bind.mp hRest
  obtain ⟨res', x, hUpdate, hRestart⟩ := returns_bind.mp hRest
  have hResult : Returns (updateResult env.recorded req) w res' x :=
    returns_bind.mpr ⟨stopped, u, hStop, returns_bind.mpr ⟨(), v, hFlag, hUpdate⟩⟩
  obtain ⟨y, hBefore, hUpdated⟩ := returns_updateResult hResult
  have hRestarted : t.gateway.scratchpadLoadCurrentSeq = x.gateway.scratchpadLoadCurrentSeq :=
    (refreshes_currentSeq.restartAfterLoad (fun _ _ _ => rfl) (fun _ => Moves.change fun _ => rfl)
      res').returns hRestart
  rw [hRestarted, ← hBefore]
  exact updateScratchpad_seq hSmall hUpdated

/-- The start is left to a load that is in progress, and the sequence of a load has 8 bits. -/
structure Consistent (w : World Gateway ν) : Prop where
  owed : w.gateway.restartAfterLoad = true → InProgress w
  seq : InProgress w → w.gateway.scratchpadLoadCurrentSeq ≤ 0xff

theorem asks_header : Asks env.recorded fun w t : World Gateway (List Request × ν) =>
    t.gateway = w.gateway ∧ starts t = starts w ∧ stops t = stops w := by
  refine (keeps_record env).asks ⟨fun _ => ⟨rfl, rfl, rfl⟩, ?_⟩ ?_
  · rintro s t u ⟨hGateway, hStarts, hStops⟩ ⟨hGateway', hStarts', hStops'⟩
    exact ⟨hGateway'.trans hGateway, hStarts'.trans hStarts, hStops'.trans hStops⟩
  · intro w n hSame
    unfold starts stops
    rw [hSame]
    exact ⟨rfl, rfl, rfl⟩

theorem uploadStep_settles {e : UploadEvent} (hConsistent : Consistent w)
    (hStep : uploadStep env.recorded w e = some t) :
    Consistent t ∧ ∃ stopped : Bool, stops t = stops w + (if stopped then 1 else 0) ∧
      Settles (w.gateway.restartAfterLoad = true ∨ stopped = true) w t := by
  obtain ⟨a, hHandler⟩ := finish_eq_some.mp hStep
  obtain ⟨res, u, hUpload, hRest⟩ := returns_bind.mp hHandler
  obtain ⟨header, x, hHeader, hPure⟩ := returns_bind.mp hRest
  obtain ⟨-, rfl⟩ := returns_pure.mp hPure
  obtain ⟨hGateway, hStarts, hStops⟩ := (Reading.fillResponseHeader asks_header _ _).returns hHeader
  have hProgress : InProgress t ↔ InProgress u := by
    unfold InProgress
    rw [hGateway]
  suffices hEnd : Consistent u ∧ ∃ stopped : Bool, stops u = stops w + (if stopped then 1 else 0) ∧
      Settles (w.gateway.restartAfterLoad = true ∨ stopped = true) w u by
    obtain ⟨⟨hOwed, hSeq⟩, stopped, hStopsEnd, hStarted, hWaited, hOwes⟩ := hEnd
    rw [← hGateway, ← hProgress] at hOwed hSeq hOwes
    rw [← hProgress, ← hStarts] at hStarted hWaited
    exact ⟨⟨hOwed, hSeq⟩, stopped, hStops.trans hStopsEnd, hStarted, hWaited, hOwes⟩
  rcases returns_ite.mp hUpload with ⟨-, hPure⟩ | ⟨hLarge, hUpload⟩
  · obtain ⟨-, rfl⟩ := returns_pure.mp hPure
    refine ⟨hConsistent, false, rfl, ?_, fun _ => rfl, ?_⟩
    · rintro (hOwed | hNo) hEnded
      · exact absurd (hConsistent.owed hOwed) hEnded
      · cases hNo
    · exact ⟨fun hOwed => ⟨.inl hOwed, hConsistent.owed hOwed⟩, fun h => h.1.resolve_right nofun⟩
  · have hSmall : e.1.seq ≤ 0xff := UInt32.not_lt.mp hLarge
    obtain ⟨stopped, hStopsEnd, hSettles⟩ := uploadScratchpad_settles hUpload
    refine ⟨⟨fun hOwed => (hSettles.owes.mp hOwed).2, fun hLoad => ?_⟩, stopped, hStopsEnd, hSettles⟩
    rcases uploadScratchpad_seq hSmall hUpload with hIdle | hSeq | hSeq
    · exact absurd hIdle hLoad
    · exact hSeq ▸ hSmall
    · rw [hSeq]
      refine hConsistent.seq fun hIdle => hLoad (hSeq.trans hIdle)

/-- Up to the end of the events, a load is in progress whenever a request is handled. -/
def LoadsUntilEnd (env : Environment ν) (w : World Gateway (List Request × ν)) (es : List UploadEvent) : Prop :=
  ∀ before after u, es = before ++ after → before ≠ [] → after ≠ [] →
    run (uploadStep env.recorded) w before = some u → InProgress u

theorem LoadsUntilEnd.head {e e' : UploadEvent} {es : List UploadEvent}
    (h : LoadsUntilEnd env w (e :: e' :: es)) (hStep : uploadStep env.recorded w e = some t) :
    InProgress t :=
  h [e] (e' :: es) t rfl nofun nofun (run_cons_eq_some.mpr ⟨t, hStep, rfl⟩)

theorem LoadsUntilEnd.tail {e : UploadEvent} {es : List UploadEvent}
    (h : LoadsUntilEnd env w (e :: es)) (hStep : uploadStep env.recorded w e = some t) :
    LoadsUntilEnd env t es :=
  fun before after u hSplit _ hAfter hRun =>
    h (e :: before) after u (congrArg (e :: ·) hSplit) nofun hAfter (run_cons_eq_some.mpr ⟨t, hStep, hRun⟩)

/-- The start that is owed after the first of the events. -/
theorem run_settles {e : UploadEvent} {es : List UploadEvent} {u : World Gateway (List Request × ν)}
    (hConsistent : Consistent w) (hStep : uploadStep env.recorded w e = some u)
    (hOwed : w.gateway.restartAfterLoad = true ∨ stops w < stops u)
    (hLoads : LoadsUntilEnd env w (e :: es)) (hRun : run (uploadStep env.recorded) u es = some t) :
    (InProgress t → starts t = starts w) ∧ (¬ InProgress t → starts t = starts w + 1) := by
  obtain ⟨hNext, stopped, hStops, hSettles⟩ := uploadStep_settles hConsistent hStep
  have hOwes : w.gateway.restartAfterLoad = true ∨ stopped = true := by
    refine hOwed.imp_right fun hMore => ?_
    cases stopped with
    | true => rfl
    | false => exact absurd hMore (by rw [hStops]; exact Nat.lt_irrefl _)
  induction es generalizing w u e stopped with
  | nil =>
    obtain rfl : u = t := Option.some.inj hRun
    exact ⟨fun hLoad => hSettles.waited (.inr hLoad), hSettles.started hOwes⟩
  | cons e' es ih =>
    obtain ⟨v, hStep', hRest⟩ := run_cons_eq_some.mp hRun
    have hLoad : InProgress u := hLoads.head hStep
    have hStarts : starts u = starts w := hSettles.waited (.inr hLoad)
    have hStill : u.gateway.restartAfterLoad = true := hSettles.owes.mpr ⟨hOwes, hLoad⟩
    obtain ⟨hNext', stopped', hStops', hSettles'⟩ := uploadStep_settles hNext hStep'
    rw [← hStarts]
    exact ih hNext hStep' (.inl hStill) (hLoads.tail hStep) hRest hNext' stopped' hStops' hSettles'
      (.inl hStill)

/-- A start that is owed waits for a load, and each stop is settled by one start, in the first
request from then on that ends with no load in progress. -/
theorem restarts_after_load {s w : World Gateway (List Request × ν)} {before : List UploadEvent}
    (hNotOwed : s.gateway.restartAfterLoad = false)
    (hIdle : s.gateway.scratchpadLoadCurrentSeq = invalidCurrentSeq)
    (hBefore : run (uploadStep env.recorded) s before = some w) :
    (w.gateway.restartAfterLoad = true →
        InProgress w ∧ w.gateway.scratchpadLoadCurrentSeq ≤ 0xff) ∧
      ∀ e es u t, uploadStep env.recorded w e = some u → stops w < stops u →
        LoadsUntilEnd env w (e :: es) → run (uploadStep env.recorded) u es = some t →
          (InProgress t → starts t = starts w) ∧ (¬ InProgress t → starts t = starts w + 1) := by
  have hStart : Consistent s := ⟨fun hOwed => absurd (hOwed.symm.trans hNotOwed) nofun, absurd hIdle⟩
  have hConsistent : Consistent w :=
    run_invariant' (fun _ _ _ hInv hStep => (uploadStep_settles hInv hStep).1) hStart hBefore
  refine ⟨fun hOwed => ⟨hConsistent.owed hOwed, hConsistent.seq (hConsistent.owed hOwed)⟩, ?_⟩
  exact fun e es u t hStep hStops hLoads hRun => run_settles hConsistent hStep (.inr hStops) hLoads hRun

end Recorded

def firstChunk : UploadEvent := chunkRequest 0 16 32

def recordedEnd (es : List UploadEvent) : Option (World Gateway (List Request × (Nat × Power))) :=
  run (uploadStep switchNode.recorded) (runningStack fun _ => false).recording es

theorem restarts_after_load_cleared :
    ∃ u t, recordedEnd [firstChunk] = some u ∧ recordedEnd [firstChunk, clearStored] = some t ∧
      InProgress u ∧ ¬ InProgress t ∧ starts u = 0 ∧ starts t = 1 := by
  obtain ⟨u, hu⟩ := Option.isSome_iff_exists.mp (show (recordedEnd [firstChunk]).isSome by decide +kernel)
  obtain ⟨t, ht⟩ :=
    Option.isSome_iff_exists.mp (show (recordedEnd [firstChunk, clearStored]).isSome by decide +kernel)
  have hLoad : InProgress u :=
    (show ∀ u ∈ recordedEnd [firstChunk], InProgress u by decide +kernel) u hu
  have hEnded : ¬ InProgress t :=
    (show ∀ t ∈ recordedEnd [firstChunk, clearStored], ¬ InProgress t by decide +kernel) t ht
  have hStops : stops (runningStack fun _ => false).recording < stops u :=
    (show ∀ u ∈ recordedEnd [firstChunk], stops (runningStack fun _ => false).recording < stops u
      by decide +kernel) u hu
  obtain ⟨u', hStep, hSame⟩ := run_cons_eq_some.mp hu
  obtain rfl : u' = u := Option.some.inj hSame
  obtain ⟨u'', hStep', hRest⟩ := run_cons_eq_some.mp ht
  obtain rfl : u'' = u' := Option.some.inj (hStep'.symm.trans hStep)
  have hStart : run (uploadStep switchNode.recorded) (runningStack fun _ => false).recording [] =
      some (runningStack fun _ => false).recording := rfl
  have hSettled := (restarts_after_load rfl rfl hStart).2 firstChunk
  have hOne : LoadsUntilEnd switchNode (runningStack fun _ => false).recording [firstChunk] := by
    intro before after v hSplit hBefore hAfter hRun
    have hLength := congrArg List.length hSplit
    have hFirst := List.length_pos_of_ne_nil hBefore
    have hLast := List.length_pos_of_ne_nil hAfter
    rw [List.length_append, List.length_singleton] at hLength
    omega
  have hTwo : LoadsUntilEnd switchNode (runningStack fun _ => false).recording [firstChunk, clearStored] := by
    intro before after v hSplit hBefore hAfter hRun
    obtain ⟨e, before, rfl⟩ := List.exists_cons_of_ne_nil hBefore
    obtain ⟨rfl, hTail⟩ := List.cons.inj hSplit
    cases before with
    | nil => exact Option.some.inj (hu.symm.trans hRun) ▸ hLoad
    | cons e' before =>
      obtain ⟨-, hNone⟩ := List.cons.inj hTail
      exact absurd (List.append_eq_nil_iff.mp hNone.symm).2 hAfter
  exact ⟨u'', t, hu, ht, hLoad, hEnded, (hSettled [] u'' u'' hStep hStops hOne rfl).1 hLoad,
    (hSettled [clearStored] u'' t hStep hStops hTwo hRest).2 hEnded⟩

end CMeshApi.Proto
