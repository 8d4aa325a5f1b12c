import CMeshApi.Proto.Messages
import Mathlib.Data.List.FinRange

/-!
# The levels of the logging modules

`logger.c`: a table of at most 50 modules with a level each. A module asks once for a pointer to
its level and keeps it. Each call is made under the lock of the table, so that calls of
several threads come one after the other.
-/

namespace CMeshApi.Platform.Logger

open Proto

/-- `MAX_LOG_MODULE_NAME_LENGTH`, the terminating zero included. -/
def maxLogModuleNameLength : Nat := 32

/-- `MAX_LOG_MODULE_COUNT`. -/
def maxLogModuleCount : Nat := 50

/-- `NO_LOG_LEVEL`. -/
def noLogLevel : Int := -1

/-- A string of any length, as a caller passes it. -/
@[ext]
structure ModuleName where
  chars : List UInt8
  ended : 0 ∉ chars
deriving Repr

instance : DecidableEq ModuleName := fun a b =>
  decidable_of_iff (a.chars = b.chars) ModuleName.ext_iff.symm

structure LoggingModule where
  isInitialized : Bool
  level : Int
  name : CArray UInt8 maxLogModuleNameLength

/-- The static variables of the module. -/
structure State where
  modules : Fin maxLogModuleCount → LoggingModule
  globalLogLevel : Int
  isGlobalLogLevelSet : Bool

def State.init : State := ⟨fun _ => ⟨false, 0, fun _ => 0⟩, noLogLevel, false⟩

/-- Where a pointer points to that a caller has got. -/
inductive Pointer where
  | module (i : Fin maxLogModuleCount)
  | fallback
deriving DecidableEq, Repr

/-- What a caller reads through its pointer. Nothing writes the level of the fallback module. -/
def State.level (s : State) : Pointer → Int
  | .module i => (s.modules i).level
  | .fallback => noLogLevel

/-- `is_logging_module_name_length_valid`. -/
def isNameLengthValid (name : ModuleName) : Bool := decide (name.chars.length < maxLogModuleNameLength)

def getLoggingModule (s : State) (name : ModuleName) : Option (Fin maxLogModuleCount) :=
  if isNameLengthValid name then
    (List.finRange maxLogModuleCount).find? fun i =>
      (s.modules i).isInitialized && cString (s.modules i).name == name.chars
  else none

def State.setModule (s : State) (i : Fin maxLogModuleCount) (m : LoggingModule) : State :=
  { s with modules := fun j => if j = i then m else s.modules j }

def registerLoggingModule (s : State) (name : ModuleName) (defaultLevel : Int) :
    State × Option (Fin maxLogModuleCount) :=
  if isNameLengthValid name then
    match (List.finRange maxLogModuleCount).find? fun i => !(s.modules i).isInitialized with
    | some i =>
      (s.setModule i ⟨true, defaultLevel,
        strncpy (s.modules i).name name.chars maxLogModuleNameLength⟩, some i)
    | none => (s, none)
  else (s, none)

def platformSetLogLevel (s : State) (level : Int) : State × Int :=
  ({ modules := fun i => if (s.modules i).isInitialized then { s.modules i with level } else s.modules i
     globalLogLevel := level
     isGlobalLogLevelSet := true }, 0)

/-- The module of the name, which is registered if it is not there. -/
def findOrRegister (s : State) (name : ModuleName) (level : Int) :
    State × Option (Fin maxLogModuleCount) :=
  match getLoggingModule s name with
  | some i => (s, some i)
  | none => registerLoggingModule s name level

def platformSetModuleLogLevel (s : State) (name : ModuleName) (level : Int) : State × Int :=
  match findOrRegister s name level with
  | (s, some i) => (s.setModule i { s.modules i with level }, 0)
  | (s, none) => (s, -1)

def platformGetLoggingModuleLevel (s : State) (name : ModuleName) (defaultLevel : Int) :
    State × Pointer :=
  match findOrRegister s name (if s.isGlobalLogLevelSet then s.globalLogLevel else defaultLevel) with
  | (s, some i) => (s, .module i)
  | (s, none) => (s, .fallback)

inductive Call where
  | setLogLevel (level : Int)
  | setModuleLogLevel (name : ModuleName) (level : Int)
  | getLoggingModuleLevel (name : ModuleName) (defaultLevel : Int)
deriving DecidableEq, Repr

inductive Result where
  | code (res : Int)
  | pointer (p : Pointer)
deriving DecidableEq, Repr

def step (s : State) : Call → State × Result
  | .setLogLevel level =>
    let (s, res) := platformSetLogLevel s level
    (s, .code res)
  | .setModuleLogLevel name level =>
    let (s, res) := platformSetModuleLogLevel s name level
    (s, .code res)
  | .getLoggingModuleLevel name defaultLevel =>
    let (s, p) := platformGetLoggingModuleLevel s name defaultLevel
    (s, .pointer p)

def run : State → List Call → State × List Result
  | s, [] => (s, [])
  | s, call :: calls =>
    let (s, result) := step s call
    let (s, results) := run s calls
    (s, result :: results)

/-- The modules in the order of their registration, and the level for all of them. -/
structure Registry where
  levels : List (List UInt8 × Int)
  all : Option Int

namespace Registry

def empty : Registry := ⟨[], none⟩

def placeOf (r : Registry) (name : ModuleName) : Option Nat :=
  r.levels.findIdx? fun x => x.1 == name.chars

/-- Where the name is, or is put as long as there is room. -/
def place (r : Registry) (name : ModuleName) (level : Int) : Registry × Option Nat :=
  if name.chars.length < maxLogModuleNameLength then
    match r.placeOf name with
    | some i => (r, some i)
    | none =>
      if r.levels.length < maxLogModuleCount then
        ({ r with levels := r.levels ++ [(name.chars, level)] }, some r.levels.length)
      else (r, none)
  else (r, none)

def setLevel (r : Registry) (i : Nat) (level : Int) : Registry :=
  { r with levels := r.levels.modify i fun x => (x.1, level) }

end Registry

/-- An answer of the registry: a code, or the place of a module if there is one. -/
inductive Answer where
  | code (res : Int)
  | place (i : Option Nat)
deriving DecidableEq, Repr

def Result.answer : Result → Answer
  | .code res => .code res
  | .pointer (.module i) => .place (some i)
  | .pointer .fallback => .place none

def Registry.step (r : Registry) : Call → Registry × Answer
  | .setLogLevel level => (⟨r.levels.map fun x => (x.1, level), some level⟩, .code 0)
  | .setModuleLogLevel name level =>
    match r.place name level with
    | (r, some i) => (r.setLevel i level, .code 0)
    | (r, none) => (r, .code (-1))
  | .getLoggingModuleLevel name defaultLevel =>
    match r.place name (r.all.getD defaultLevel) with
    | (r, i) => (r, .place i)

def Registry.run : Registry → List Call → Registry × List Answer
  | r, [] => (r, [])
  | r, call :: calls =>
    let (r, answer) := r.step call
    let (r, answers) := Registry.run r calls
    (r, answer :: answers)

def LoggingModule.entry (m : LoggingModule) : Option (List UInt8 × Int) :=
  if m.isInitialized then some (cString m.name, m.level) else none

/-- The modules are the first ones of the table. -/
structure Represents (s : State) (r : Registry) : Prop where
  entries : ∀ i, (s.modules i).entry = r.levels[i.val]?
  room : r.levels.length ≤ maxLogModuleCount
  isSet : s.isGlobalLogLevelSet = r.all.isSome
  all : ∀ level, r.all = some level → s.globalLogLevel = level

theorem represents_init : Represents State.init Registry.empty :=
  ⟨fun _ => rfl, Nat.zero_le _, rfl, fun _ h => by cases h⟩

section Search

variable {α : Type} {n : Nat} {l : List α}

/-- The first place of a table whose entry is as wanted. -/
theorem find_finRange {p : Fin n → Bool} {i : Fin n} :
    (List.finRange n).find? p = some i ↔ p i = true ∧ ∀ j < i, p j = false := by
  rw [List.find?_eq_some_iff_getElem]
  constructor
  · rintro ⟨hi, k, hk, hEq, hBefore⟩
    rw [List.getElem_finRange] at hEq
    refine ⟨hi, fun j hj => ?_⟩
    have hLess : j.val < k := by
      rw [← hEq] at hj
      exact hj
    have hNot := hBefore j.val hLess
    rw [List.getElem_finRange, Bool.not_eq_true'] at hNot
    exact hNot
  · rintro ⟨hi, hBefore⟩
    refine ⟨hi, i.val, by simp, by rw [List.getElem_finRange]; rfl, fun j hj => ?_⟩
    rw [List.getElem_finRange, Bool.not_eq_true']
    exact hBefore _ hj

theorem find_entries (hLength : l.length ≤ n) (p : α → Bool) :
    ((List.finRange n).find? fun i => (l[i.val]?).any p).map Fin.val = l.findIdx? p := by
  apply Option.ext
  intro k
  rw [Option.map_eq_some_iff, List.findIdx?_eq_some_iff_getElem]
  constructor
  · rintro ⟨i, hFind, rfl⟩
    obtain ⟨hi, hBefore⟩ := find_finRange.mp hFind
    obtain ⟨hBound, hp⟩ : ∃ h : i.val < l.length, p l[i.val] = true := by
      rw [Option.any_eq_true] at hi
      obtain ⟨a, ha, hp⟩ := hi
      obtain ⟨hBound, rfl⟩ := List.getElem?_eq_some_iff.mp ha
      exact ⟨hBound, hp⟩
    refine ⟨hBound, hp, fun j hj => ?_⟩
    have hjBound : j < l.length := Nat.lt_trans hj hBound
    have hNot : (l[j]?).any p = false := hBefore ⟨j, Nat.lt_of_lt_of_le hjBound hLength⟩ hj
    rw [List.getElem?_eq_getElem hjBound, Option.any_some] at hNot
    rw [hNot]
    exact Bool.false_ne_true
  · rintro ⟨hBound, hp, hBefore⟩
    refine ⟨⟨k, by omega⟩, find_finRange.mpr ⟨?_, fun j hj => ?_⟩, rfl⟩
    · rw [List.getElem?_eq_getElem hBound, Option.any_some]
      exact hp
    · have hjBound : j.val < l.length := Nat.lt_trans hj hBound
      rw [List.getElem?_eq_getElem hjBound, Option.any_some]
      exact Bool.eq_false_iff.mpr (hBefore j.val hj)

theorem find_free :
    ((List.finRange n).find? fun i => (l[i.val]?).isNone).map Fin.val =
      if l.length < n then some l.length else none := by
  by_cases hRoom : l.length < n
  · have hFind : ((List.finRange n).find? fun i => (l[i.val]?).isNone) = some ⟨l.length, hRoom⟩ := by
      refine find_finRange.mpr ⟨by simp, fun j hj => ?_⟩
      rw [List.getElem?_eq_getElem hj]
      rfl
    rw [hFind, if_pos hRoom]
    rfl
  · rw [if_neg hRoom, Option.map_eq_none_iff, List.find?_eq_none]
    intro i _
    have hBound : i.val < l.length := Nat.lt_of_lt_of_le i.isLt (Nat.le_of_not_lt hRoom)
    rw [List.getElem?_eq_getElem hBound]
    exact Bool.false_ne_true

end Search

variable {s s' : State} {r : Registry} {name : ModuleName}

theorem isNameLengthValid_iff : isNameLengthValid name = true ↔ name.chars.length < maxLogModuleNameLength :=
  decide_eq_true_iff

theorem getLoggingModule_place (h : Represents s r)
    (hShort : name.chars.length < maxLogModuleNameLength) :
    (getLoggingModule s name).map Fin.val = r.placeOf name := by
  rw [getLoggingModule, if_pos (isNameLengthValid_iff.mpr hShort), Registry.placeOf,
    ← find_entries h.room]
  congr 2
  funext i
  rw [← h.entries i, LoggingModule.entry]
  cases (s.modules i).isInitialized <;> rfl

/-- A module that is written to the table is written to its place in the registry. -/
theorem Represents.setModule {levels : List (List UInt8 × Int)} (h : Represents s r)
    {i : Fin maxLogModuleCount} {m : LoggingModule} (hEntry : m.entry = levels[i.val]?)
    (hOther : ∀ j : Nat, j ≠ i.val → levels[j]? = r.levels[j]?) (hRoom : levels.length ≤ maxLogModuleCount) :
    Represents (s.setModule i m) { r with levels } where
  entries := by
    intro j
    unfold State.setModule
    by_cases hEq : j = i
    · rw [hEq]
      exact (congrArg LoggingModule.entry (if_pos rfl)).trans hEntry
    · rw [hOther j.val fun hVal => hEq (Fin.ext hVal), ← h.entries j]
      exact congrArg LoggingModule.entry (if_neg hEq)
  room := hRoom
  isSet := h.isSet
  all := h.all

theorem findOrRegister_place (h : Represents s r) (name : ModuleName) (level : Int) :
    Represents (findOrRegister s name level).1 (r.place name level).1 ∧
      (findOrRegister s name level).2.map Fin.val = (r.place name level).2 := by
  unfold findOrRegister Registry.place
  by_cases hShort : name.chars.length < maxLogModuleNameLength
  · rw [if_pos hShort, ← getLoggingModule_place h hShort]
    cases getLoggingModule s name with
    | some i => exact ⟨h, rfl⟩
    | none =>
      dsimp only [Option.map_none]
      rw [registerLoggingModule, if_pos (isNameLengthValid_iff.mpr hShort)]
      have hFree : (List.finRange maxLogModuleCount).find? (fun i => !(s.modules i).isInitialized) =
          (List.finRange maxLogModuleCount).find? fun i => (r.levels[i.val]?).isNone := by
        congr 1
        funext i
        rw [← h.entries i, LoggingModule.entry]
        cases (s.modules i).isInitialized <;> rfl
      have hPlace := find_free (n := maxLogModuleCount) (l := r.levels)
      rw [hFree]
      cases hFind : (List.finRange maxLogModuleCount).find? fun i => (r.levels[i.val]?).isNone with
      | some i =>
        rw [hFind] at hPlace
        by_cases hRoom : r.levels.length < maxLogModuleCount
        · rw [if_pos hRoom] at hPlace ⊢
          obtain hVal : i.val = r.levels.length := Option.some.inj hPlace
          refine ⟨h.setModule ?_ (fun j hj => ?_) ?_, hPlace⟩
          · rw [hVal, List.getElem?_concat_length, LoggingModule.entry]
            exact congrArg (fun chars => some (chars, level))
              (cString_strncpy (s.modules i).name ⟨name.chars, name.ended, hShort⟩)
          · rw [hVal] at hj
            rcases Nat.lt_or_gt_of_ne hj with hLess | hMore
            · exact List.getElem?_append_left hLess
            · rw [List.getElem?_eq_none (by simp; omega), List.getElem?_eq_none (Nat.le_of_lt hMore)]
          · rw [List.length_append]
            exact hRoom
        · rw [if_neg hRoom] at hPlace
          cases hPlace
      | none =>
        rw [hFind] at hPlace
        by_cases hRoom : r.levels.length < maxLogModuleCount
        · rw [if_pos hRoom] at hPlace
          cases hPlace
        · rw [if_neg hRoom]
          exact ⟨h, rfl⟩
  · rw [if_neg hShort, getLoggingModule, registerLoggingModule,
      if_neg fun hValid => hShort (isNameLengthValid_iff.mp hValid),
      if_neg fun hValid => hShort (isNameLengthValid_iff.mp hValid)]
    exact ⟨h, rfl⟩

theorem step_place (h : Represents s r) (call : Call) :
    Represents (step s call).1 (r.step call).1 ∧ (step s call).2.answer = (r.step call).2 := by
  cases call with
  | setLogLevel level =>
    refine ⟨⟨fun i => ?_, ?_, rfl, fun level' hEq => Option.some.inj hEq⟩, rfl⟩
    · have hEntry := h.entries i
      change (if (s.modules i).isInitialized then { s.modules i with level } else s.modules i).entry =
        (r.levels.map fun x => (x.1, level))[i.val]?
      rw [List.getElem?_map, ← hEntry]
      unfold LoggingModule.entry
      cases hInit : (s.modules i).isInitialized <;> simp [hInit]
    · change (r.levels.map fun x => (x.1, level)).length ≤ maxLogModuleCount
      rw [List.length_map]
      exact h.room
  | setModuleLogLevel name level =>
    obtain ⟨hRepresents, hPlace⟩ := findOrRegister_place h name level
    unfold step Registry.step platformSetModuleLogLevel
    dsimp only
    generalize findOrRegister s name level = found at hRepresents hPlace ⊢
    generalize r.place name level = placed at hRepresents hPlace ⊢
    obtain ⟨s₁, i⟩ := found
    obtain ⟨r₁, k⟩ := placed
    obtain rfl : i.map Fin.val = k := hPlace
    cases i with
    | none => exact ⟨hRepresents, rfl⟩
    | some i =>
      refine ⟨hRepresents.setModule ?_ (fun j hj => ?_) ?_, rfl⟩
      · have hEntry := hRepresents.entries i
        rw [List.getElem?_modify_eq, ← hEntry]
        unfold LoggingModule.entry
        cases (s₁.modules i).isInitialized <;> simp
      · exact List.getElem?_modify_ne _ _ fun hEq => hj hEq.symm
      · rw [List.length_modify]
        exact hRepresents.room
  | getLoggingModuleLevel name defaultLevel =>
    have hLevel : (if s.isGlobalLogLevelSet then s.globalLogLevel else defaultLevel) =
        r.all.getD defaultLevel := by
      rw [h.isSet]
      cases hAll : r.all with
      | none => rfl
      | some level => exact h.all level hAll
    obtain ⟨hRepresents, hPlace⟩ := findOrRegister_place h name (r.all.getD defaultLevel)
    unfold step Registry.step platformGetLoggingModuleLevel
    dsimp only
    rw [hLevel]
    generalize findOrRegister s name (r.all.getD defaultLevel) = found at hRepresents hPlace ⊢
    generalize r.place name (r.all.getD defaultLevel) = placed at hRepresents hPlace ⊢
    obtain ⟨s₁, i⟩ := found
    obtain ⟨r₁, k⟩ := placed
    obtain rfl : i.map Fin.val = k := hPlace
    cases i with
    | none => exact ⟨hRepresents, rfl⟩
    | some i => exact ⟨hRepresents, rfl⟩

theorem run_place (h : Represents s r) (calls : List Call) :
    Represents (run s calls).1 (r.run calls).1 ∧ (run s calls).2.map Result.answer = (r.run calls).2 := by
  induction calls generalizing s r with
  | nil => exact ⟨h, rfl⟩
  | cons call calls ih =>
    obtain ⟨hFirst, hAnswer⟩ := step_place h call
    obtain ⟨hLater, hAnswers⟩ := ih hFirst
    exact ⟨hLater, congr (congrArg List.cons hAnswer) hAnswers⟩

/-- Every run of calls answers as the registry does, and leaves the table with its modules, first
registered first. -/
theorem run_refines_registry (calls : List Call) :
    (run State.init calls).2.map Result.answer = (Registry.empty.run calls).2 ∧
      ∀ i, ((run State.init calls).1.modules i).entry = (Registry.empty.run calls).1.levels[i.val]? := by
  obtain ⟨hRepresents, hAnswers⟩ := run_place represents_init calls
  exact ⟨hAnswers, hRepresents.entries⟩

/-- The level of a module after a call, by the calls that concern it. -/
def levelAfter (name : ModuleName) (level : Int) : Call → Int
  | .setLogLevel level' => level'
  | .setModuleLogLevel name' level' => if name' = name then level' else level
  | .getLoggingModuleLevel _ _ => level

namespace Registry

variable {name' : ModuleName} {i j : Nat} {level : Int}

def levelAt (r : Registry) (i : Nat) : Option Int := (r.levels[i]?).map Prod.snd

theorem placeOf_eq (r : Registry) (name : ModuleName) :
    r.placeOf name = (r.levels.map Prod.fst).findIdx? fun chars => chars == name.chars := by
  rw [placeOf, List.findIdx?_map]
  rfl

/-- The place of a name holds it. -/
theorem name_of_placeOf (h : r.placeOf name = some i) : (r.levels[i]?).map Prod.fst = some name.chars := by
  obtain ⟨hBound, hName, -⟩ := List.findIdx?_eq_some_iff_getElem.mp h
  rw [List.getElem?_eq_getElem hBound, Option.map_some, beq_iff_eq.mp hName]

theorem placeOf_inj (h : r.placeOf name = some i) (h' : r.placeOf name' = some i) : name' = name := by
  have hSame := (name_of_placeOf h').symm.trans (name_of_placeOf h)
  obtain ⟨chars, ended⟩ := name
  obtain ⟨chars', ended'⟩ := name'
  obtain rfl : chars' = chars := Option.some.inj hSame
  rfl

/-- A name that is there keeps its place and its level when another one is placed. -/
theorem place_keeps (h : r.placeOf name = some i) (name' : ModuleName) (level : Int) :
    (r.place name' level).1.placeOf name = some i ∧
      (r.place name' level).1.levelAt i = r.levelAt i := by
  have hBound : i < r.levels.length := (List.findIdx?_eq_some_iff_getElem.mp h).1
  unfold place
  split
  · split
    · exact ⟨h, rfl⟩
    · split
      · constructor
        · rw [placeOf] at h ⊢
          rw [List.findIdx?_append, h]
          rfl
        · rw [levelAt, List.getElem?_append_left hBound]
          rfl
      · exact ⟨h, rfl⟩
  · exact ⟨h, rfl⟩

theorem place_placeOf (h : (r.place name level).2 = some i) :
    (r.place name level).1.placeOf name = some i := by
  unfold place at h ⊢
  split at h
  · next hShort =>
    rw [if_pos hShort]
    cases hPlace : r.placeOf name with
    | some k =>
      rw [hPlace] at h
      exact hPlace.trans h
    | none =>
      rw [hPlace] at h
      dsimp only at h ⊢
      split at h
      · next hRoom =>
        rw [if_pos hRoom]
        rw [placeOf] at hPlace
        rw [placeOf, List.findIdx?_append, hPlace]
        simpa using h
      · cases h
  · cases h

theorem place_of_placeOf (h : r.placeOf name = some i)
    (hShort : name.chars.length < maxLogModuleNameLength) (level : Int) :
    r.place name level = (r, some i) := by
  rw [place, if_pos hShort, h]

theorem setLevel_keeps (h : r.placeOf name = some i) (h' : r.placeOf name' = some j) (level : Int) :
    (r.setLevel j level).placeOf name = some i ∧
      (r.setLevel j level).levelAt i = if name' = name then some level else r.levelAt i := by
  have hNames : (r.setLevel j level).levels.map Prod.fst = r.levels.map Prod.fst := by
    rw [setLevel]
    apply List.ext_getElem?
    intro k
    rw [List.getElem?_map, List.getElem?_map, List.getElem?_modify]
    cases r.levels[k]? with
    | none => rfl
    | some x => split <;> rfl
  constructor
  · rw [placeOf_eq, hNames, ← placeOf_eq, h]
  · have hName := name_of_placeOf h
    rw [levelAt, setLevel, List.getElem?_modify]
    by_cases hEq : name' = name
    · obtain rfl : j = i := by
        rw [hEq, h] at h'
        exact (Option.some.inj h').symm
      rw [if_pos hEq]
      cases hEntry : r.levels[j]? with
      | none =>
        rw [hEntry] at hName
        cases hName
      | some x => simp
    · have hNe : j ≠ i := by
        rintro rfl
        exact hEq (placeOf_inj h h')
      simp only [if_neg hEq, if_neg hNe, levelAt]
      simp

theorem step_keeps (hShort : name.chars.length < maxLogModuleNameLength) (h : r.placeOf name = some i)
    (call : Call) :
    (r.step call).1.placeOf name = some i ∧
      (r.step call).1.levelAt i = (r.levelAt i).map fun level => levelAfter name level call := by
  cases call with
  | setLogLevel level =>
    constructor
    · rw [placeOf_eq, step]
      simp only [List.map_map, Function.comp_def]
      rw [← placeOf_eq, h]
    · rw [levelAt, levelAt, step]
      simp [Function.comp_def, levelAfter]
  | setModuleLogLevel name' level =>
    obtain ⟨hPlace, hLevel⟩ := place_keeps h name' level
    rw [step]
    cases hPlaced : r.place name' level with
    | mk r₁ k =>
      rw [hPlaced] at hPlace hLevel
      cases k with
      | none =>
        have hOther : name' ≠ name := by
          rintro rfl
          rw [place_of_placeOf h hShort] at hPlaced
          cases hPlaced
        refine ⟨hPlace, hLevel.trans ?_⟩
        simp [levelAfter, hOther]
      | some k =>
        have hHere : r₁.placeOf name' = some k := by
          have hThere := place_placeOf (congrArg Prod.snd hPlaced)
          rwa [hPlaced] at hThere
        obtain ⟨hPlace', hLevel'⟩ := setLevel_keeps hPlace hHere level
        obtain ⟨x, hx, -⟩ := Option.map_eq_some_iff.mp (name_of_placeOf h)
        refine ⟨hPlace', hLevel'.trans ?_⟩
        rw [hLevel, levelAt, hx, Option.map_some, Option.map_some, levelAfter]
        split <;> rfl
  | getLoggingModuleLevel name' defaultLevel =>
    obtain ⟨hPlace, hLevel⟩ := place_keeps h name' (r.all.getD defaultLevel)
    exact ⟨hPlace, by simp [step, hLevel, levelAfter]⟩

theorem run_keeps (hShort : name.chars.length < maxLogModuleNameLength) (h : r.placeOf name = some i)
    (calls : List Call) :
    (r.run calls).1.placeOf name = some i ∧
      (r.run calls).1.levelAt i = (r.levelAt i).map fun level => calls.foldl (levelAfter name) level := by
  induction calls generalizing r with
  | nil => exact ⟨h, by simp [run]⟩
  | cons call calls ih =>
    obtain ⟨hPlace, hLevel⟩ := step_keeps hShort h call
    obtain ⟨hPlace', hLevel'⟩ := ih hPlace
    refine ⟨hPlace', ?_⟩
    rw [run, hLevel', hLevel, Option.map_map]
    rfl

end Registry

/-- A pointer that is not the fallback one points to the place of the name. -/
theorem pointer_place {i : Fin maxLogModuleCount} {defaultLevel : Int} (h : Represents s r)
    (hPointer : platformGetLoggingModuleLevel s name defaultLevel = (s', .module i)) :
    Represents s' (r.step (.getLoggingModuleLevel name defaultLevel)).1 ∧
      (r.step (.getLoggingModuleLevel name defaultLevel)).1.placeOf name = some i.val ∧
        name.chars.length < maxLogModuleNameLength := by
  obtain ⟨hRepresents, hAnswer⟩ := step_place h (.getLoggingModuleLevel name defaultLevel)
  rw [step, hPointer] at hRepresents hAnswer
  have hPlace : (r.place name (r.all.getD defaultLevel)).2 = some i.val :=
    (Answer.place.inj hAnswer).symm
  refine ⟨hRepresents, Registry.place_placeOf hPlace, ?_⟩
  by_contra hLong
  rw [Registry.place, if_neg hLong] at hPlace
  cases hPlace

/-- Through the pointer that a module has got it always reads what the calls that concern it have
set last; the pointer stays the one of this module, and of no other. -/
theorem level_through_pointer (before after : List Call) {i : Fin maxLogModuleCount}
    {defaultLevel : Int}
    (h : platformGetLoggingModuleLevel (run State.init before).1 name defaultLevel = (s, .module i)) :
    (run s after).1.level (.module i) = after.foldl (levelAfter name) (s.level (.module i)) ∧
      ∀ name' defaultLevel',
        (platformGetLoggingModuleLevel (run s after).1 name' defaultLevel').2 = .module i ↔
          name' = name := by
  obtain ⟨hRepresents, hPlace, hShort⟩ := pointer_place (run_place represents_init before).1 h
  obtain ⟨hLater, -⟩ := run_place hRepresents after
  obtain ⟨hPlace', hLevel⟩ := Registry.run_keeps hShort hPlace after
  have hRead : ∀ {s r}, Represents s r → r.placeOf name = some i.val →
      r.levelAt i.val = some (s.level (.module i)) := by
    intro s r h hPlace
    obtain ⟨x, hx, -⟩ := Option.map_eq_some_iff.mp (Registry.name_of_placeOf hPlace)
    have hEntry := h.entries i
    rw [hx, LoggingModule.entry] at hEntry
    split at hEntry
    · rw [Registry.levelAt, hx, ← hEntry]
      rfl
    · cases hEntry
  constructor
  · rw [hRead hLater hPlace', hRead hRepresents hPlace] at hLevel
    exact Option.some.inj hLevel
  · intro name' defaultLevel'
    constructor
    · intro hSame
      obtain ⟨-, hOther, -⟩ := pointer_place hLater (Prod.ext rfl hSame)
      exact Registry.placeOf_inj (Registry.step_keeps hShort hPlace' _).1 hOther
    · rintro rfl
      obtain ⟨-, hAnswer⟩ := step_place hLater (.getLoggingModuleLevel name' defaultLevel')
      rw [Registry.step, Registry.place_of_placeOf hPlace' hShort, step] at hAnswer
      revert hAnswer
      generalize (platformGetLoggingModuleLevel (run s after).1 name' defaultLevel') = got
      obtain ⟨s', p⟩ := got
      intro hAnswer
      cases p with
      | module j =>
        exact congrArg Pointer.module (Fin.ext (Option.some.inj (Answer.place.inj hAnswer)))
      | fallback => cases hAnswer

/-- The level of a second module, when the level for all is set and then the one of the first. -/
theorem level_through_pointer_second :
    (run (platformGetLoggingModuleLevel (run State.init [.getLoggingModuleLevel ⟨[0x42], by decide⟩ 3]).1
        ⟨[0x41], by decide⟩ 2).1
        [.setLogLevel 0, .setModuleLogLevel ⟨[0x42], by decide⟩ 3]).1.level (.module ⟨1, by decide⟩) = 0 := by
  have hPointer : (platformGetLoggingModuleLevel
      (run State.init [.getLoggingModuleLevel ⟨[0x42], by decide⟩ 3]).1 ⟨[0x41], by decide⟩ 2).2 =
        .module ⟨1, by decide⟩ := by
    decide
  exact (level_through_pointer [.getLoggingModuleLevel ⟨[0x42], by decide⟩ 3]
    [.setLogLevel 0, .setModuleLogLevel ⟨[0x42], by decide⟩ 3] (Prod.ext rfl hPointer)).1

end CMeshApi.Platform.Logger
