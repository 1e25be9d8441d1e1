import MbedtlsKcp.DevParamFallback

/-!
# Calls of `DEV_PARAM_SetParam` that fail

The store is changed before it is saved, and the backup is saved before the
main file.  When saving fails neither is taken back, so a failing call leaves
everything as it was only where there was nothing new to store and to save.
-/

namespace MbedtlsKcp

namespace DevParam

open ByteBuffers CStrings RecordFields CJson TransitionRuns

/-! ## What a branch does to the record -/

theorem replaces_stored {dev : DevInfo} {set : Option Conf} {span : Span}
    {image : List UInt8} (syncFile : Bool)
    (sets : Sets dev.appSetInfo set span image) :
    ∃ after, dev.stored syncFile set = some ⟨0, syncFile, after⟩ ∧
      Replaces dev.appSetInfo after.appSetInfo span image := by
  obtain ⟨conf, isSet, replaces⟩ := sets
  exact ⟨{ dev with appSetInfo := conf }, by rw [isSet]; rfl, replaces⟩

theorem replaces_setCloudTime (field : ConfField) (conf : Conf)
    {pValue : List UInt8} (isTime : field.ctype = .longLong)
    (points : 8 ≤ pValue.length) :
    ∃ syncFile after, setCloudTime field conf pValue = some (syncFile, after) ∧
      Replaces conf after field.span (pValue.take 8) :=
  sets_setCloudTime isTime points

/-- A parameter kept in the record is stored in its span. -/
theorem setSwitch_replaces {around : Surroundings} (dev : DevInfo)
    {type : ParamType} {pValue : List UInt8} {span : Span}
    (kept : type.slot.span = some span) (points : Points type pValue)
    (fits : Fits around.offLine type pValue) :
    ∃ syncFile after image,
      setSwitch around dev type pValue = some ⟨0, syncFile, after⟩ ∧
        Replaces dev.appSetInfo after.appSetInfo span image := by
  have stored : ∀ (dev : DevInfo) {set : Option Conf} {image : List UInt8}
      (syncFile : Bool), Sets dev.appSetInfo set span image →
        ∃ sync after image, dev.stored syncFile set = some ⟨0, sync, after⟩ ∧
          Replaces dev.appSetInfo after.appSetInfo span image := by
    intro dev set image syncFile sets
    obtain ⟨after, same, replaces⟩ := replaces_stored syncFile sets
    exact ⟨syncFile, after, image, same, replaces⟩
  cases type with
  | contrast | brightness | sharpness | saturation | md | mdSense | humanFilter
  | resolution | indicator | nightVision | volume | flip | privateMode
  | timeWatermark | talkMode | autoTracking | upgradeFlag | autoUpgrade
  | soundAlarm | antiFlicker | cruise | enAlgolog | enKeylog | enDetaillog =>
      cases kept
      exact stored dev _ (sets_setUnsignedChar rfl points)
  | timezone | timezonePosix | token | streamName | region | setLoglevel =>
      cases kept
      exact stored dev true (sets_setString points (Nat.le_of_lt (fits _ rfl)))
  | detAlarm | eventSchedule | recordInfo =>
      cases kept
      exact stored dev true (sets_setStruct (by decide) points)
  | prepoint =>
      cases kept
      exact stored { dev with lastMotorPosUpdateTime := around.time }
        false (sets_setStruct (by decide) points)
  | cloudEndTime =>
      cases kept
      obtain ⟨syncFile, conf, isSet, replaces⟩ :=
        replaces_setCloudTime .cloudEndTime dev.appSetInfo rfl points
      refine ⟨syncFile, { dev with appSetInfo := conf }, _, ?_, replaces⟩
      simp only [setSwitch, isSet]
      rfl
  | cloudStarTime =>
      cases kept
      obtain ⟨syncFile, conf, isSet, replaces⟩ :=
        replaces_setCloudTime .cloudStarTime dev.appSetInfo rfl points
      refine ⟨syncFile, { dev with appSetInfo := conf }, _, ?_, replaces⟩
      simp only [setSwitch, isSet]
      rfl
  | endpoint | roleAlias =>
      cases kept
      exact stored dev true (sets_setWithStrncpy points)
  | iotUrl =>
      cases kept
      exact stored dev true (sets_setIotUrl points (fits _ rfl))
  | darkFullColor =>
      cases kept
      exact stored dev true (sets_setDarkFullColor points)
  | hwVersion | devMode | max => cases kept

/-- Whether a call goes on to save what it stored. -/
def Saves (dev : DevInfo) (offLine : Bool) (type : ParamType)
    (pValue : List UInt8) : Prop :=
  match type with
  | .resolution | .prepoint | .devMode | .max => False
  | .cloudEndTime | .cloudStarTime =>
      valueOf offLine type pValue ≠ contents dev type
  | _ => True

theorem syncFile_stored {dev : DevInfo} {set : Option Conf} {sync : Bool}
    {switched : Switched} (stored : dev.stored sync set = some switched) :
    switched.syncFile = sync := by
  obtain ⟨conf, -, rfl⟩ := Option.map_eq_some_iff.mp stored
  rfl

theorem syncFile_setCloudTime {dev : DevInfo} {field : ConfField}
    {pValue : List UInt8} {switched : Switched} (points : 8 ≤ pValue.length)
    (stored : ((setCloudTime field dev.appSetInfo pValue).bind
      fun (syncFile, conf) => dev.stored syncFile (some conf)) =
        some switched) :
    switched.syncFile = true ↔
      pValue.take 8 ≠ dev.appSetInfo.at field.span := by
  rw [setCloudTime, readFrom_start points, Option.bind_some] at stored
  have old : load confLayout dev.appSetInfo field =
      dev.appSetInfo.at field.span := rfl
  split at stored
  case isTrue new =>
    obtain ⟨pair, copied, later⟩ := Option.bind_eq_some_iff.mp stored
    obtain ⟨conf, -, rfl⟩ := Option.map_eq_some_iff.mp copied
    rw [syncFile_stored later]
    exact iff_of_true rfl fun same => new (old.trans same.symm)
  case isFalse same =>
    rw [Option.bind_some] at stored
    rw [syncFile_stored stored]
    exact iff_of_false Bool.false_ne_true
      (not_not_intro ((not_ne_iff.mp same).symm.trans old))

theorem syncFile_iff_saves {around : Surroundings} {dev : DevInfo}
    {type : ParamType} {pValue : List UInt8} {switched : Switched}
    (handled : type.slot ≠ .unhandled) (points : Points type pValue)
    (switches : setSwitch around dev type pValue = some switched) :
    switched.syncFile = true ↔ Saves dev around.offLine type pValue := by
  cases type with
  | cloudEndTime | cloudStarTime => exact syncFile_setCloudTime points switches
  | resolution | prepoint =>
      rw [syncFile_stored switches]
      exact iff_of_false Bool.false_ne_true id
  | hwVersion =>
      obtain ⟨byte, -, rfl⟩ := Option.map_eq_some_iff.mp switches
      exact iff_of_true rfl trivial
  | devMode | max => exact absurd rfl handled
  | _ =>
      rw [syncFile_stored switches]
      exact iff_of_true rfl trivial

/-! ## Values that are there already -/

/-- The member is part of what a parameter is kept as. -/
def Slot.Covers (slot : Slot) (field : ConfField) : Prop :=
  match slot with
  | .block span =>
      span.offset ≤ field.offset ∧
        field.offset + field.ctype.size ≤ span.offset + span.size
  | .text own | .pointed own => own = field
  | .hardware | .unhandled => False

instance (slot : Slot) (field : ConfField) : Decidable (slot.Covers field) :=
  match slot with
  | .block _ => inferInstanceAs (Decidable (_ ∧ _))
  | .text own | .pointed own => inferInstanceAs (Decidable (own = field))
  | .hardware | .unhandled => inferInstanceAs (Decidable False)

theorem covers_or_apart {type : ParamType} {span : Span} (field : ConfField)
    (kept : type.slot.span = some span) :
    type.slot.Covers field ∨ field.span.Apart span := by
  have table : ∀ type ∈ keptTypes, ∀ field ∈ allFields,
      ∀ span ∈ type.slot.span,
        type.slot.Covers field ∨ field.span.Apart span := by
    decide +kernel
  exact table type (mem_keptTypes kept) field (mem_allFields field) span kept

/-- The bytes of a span inside another one. -/
theorem at_inside (conf : Conf) {span : Span} (inner : Span)
    (starts : span.offset ≤ inner.offset)
    (ends : inner.offset + inner.size ≤ span.offset + span.size) :
    conf.at inner =
      slice (conf.at span) (inner.offset - span.offset) inner.size := by
  rw [Record.at, Record.at, slice, slice, slice, List.drop_take,
    List.drop_drop, List.take_take]
  congr 1
  · omega
  · congr 1
    omega

/-- A member has the value it had when the value of its parameter has not
changed. -/
theorem value_of_contents {dev after : DevInfo} {type : ParamType}
    {span : Span} {image : List UInt8} (kept : type.slot.span = some span)
    (replaces : Replaces dev.appSetInfo after.appSetInfo span image)
    (same : contents after type = contents dev type) (field : ConfField) :
    value after.appSetInfo field = value dev.appSetInfo field := by
  rcases covers_or_apart field kept with covers | apart
  · cases place : type.slot with
    | block own =>
        rw [place] at covers
        rw [contents, contents, place] at same
        change after.appSetInfo.at own = dev.appSetInfo.at own at same
        have bytes : after.appSetInfo.at field.span =
            dev.appSetInfo.at field.span := by
          rw [at_inside _ field.span covers.1 covers.2,
            at_inside _ field.span covers.1 covers.2, same]
        exact congrArg (decode field.ctype) bytes
    | text own | pointed own =>
        rw [place] at covers
        obtain rfl : own = field := covers
        rw [contents, contents, place] at same
        obtain ⟨size, isArray⟩ : ∃ size, own.ctype = .charArray size := by
          cases type <;> cases place <;> exact ⟨_, rfl⟩
        rw [value, value, isArray]
        exact congrArg ConfValue.text same
    | hardware | unhandled =>
        rw [place] at covers
        exact covers.elim
  · exact congrArg (decode field.ctype) (replaces.outside field.span apart)

theorem addMembers_congr {first second : Conf}
    (same : ∀ field, value first field = value second field)
    (members : List Member) (object : Node) :
    addMembers first members object = addMembers second members object := by
  simp only [addMembers, same]

theorem appsetConfToJson_congr {first second : Conf}
    (same : ∀ field, value first field = value second field)
    (print : Node → Text) :
    appsetConfToJson print first = appsetConfToJson print second := by
  simp only [appsetConfToJson, appsetConfTree, addMembers_congr same]

/-- Storing the value that is there leaves the text of the configuration. -/
theorem appsetConfToJson_setSwitch {around : Surroundings}
    {dev after : DevInfo} {type : ParamType} {pValue : List UInt8}
    {syncFile : Bool} (print : Node → Text) (points : Points type pValue)
    (fits : Fits around.offLine type pValue)
    (switches : setSwitch around dev type pValue = some ⟨0, syncFile, after⟩)
    (same : contents after type = contents dev type) :
    appsetConfToJson print after.appSetInfo =
      appsetConfToJson print dev.appSetInfo := by
  cases kept : type.slot.span with
  | some span =>
      obtain ⟨sync, left, image, switched, replaces⟩ :=
        setSwitch_replaces dev kept points fits
      rw [switches] at switched
      cases switched
      exact appsetConfToJson_congr (value_of_contents kept replaces same) print
  | none =>
      have unchanged : after.appSetInfo = dev.appSetInfo := by
        cases type with
        | hwVersion =>
            obtain ⟨byte, -, left⟩ := Option.map_eq_some_iff.mp switches
            cases left
            rfl
        | devMode | max => cases switches
        | _ => cases kept
      rw [unchanged]

/-- Of two lists that are continued with any byte to the same list, neither is
longer. -/
theorem length_le_of_extended {first second : List UInt8}
    (same : ∀ byte : UInt8,
      first ++ List.replicate second.length byte =
        second ++ List.replicate first.length byte) :
    second.length ≤ first.length := by
  by_contra longer
  have next : ∀ byte : UInt8, second[first.length]? = some byte := by
    intro byte
    have both := congrArg (fun bytes => bytes[first.length]?) (same byte)
    rw [List.getElem?_append_right (Nat.le_refl _), Nat.sub_self,
      List.getElem?_replicate_of_lt (by omega),
      List.getElem?_append_left (by omega)] at both
    exact both.symm
  have zeroIsOne := (next 0).symm.trans (next 1)
  cases zeroIsOne

/-- A value that is handed out the same into every buffer is the same. -/
theorem present_injective {type : ParamType} (handled : type.slot ≠ .unhandled)
    {first second : List UInt8}
    (same : ∀ pDataDst, present type first pDataDst =
      present type second pDataDst) : first = second := by
  have copied : (∀ pDataDst : List UInt8, copyInto pDataDst 0 first =
      copyInto pDataDst 0 second) → first = second := by
    intro copies
    have extended : ∀ byte : UInt8,
        first ++ List.replicate second.length byte =
          second ++ List.replicate first.length byte := by
      intro byte
      have both := copies
        (List.replicate (first.length + second.length) byte)
      rw [copyInto_eq_some (by simp), copyInto_eq_some (by simp)] at both
      simpa [overwrite] using Option.some.inj both
    have sized : first.length = second.length :=
      Nat.le_antisymm
        (length_le_of_extended fun byte => (extended byte).symm)
        (length_le_of_extended extended)
    exact (List.append_inj (extended 0) sized).1
  cases place : type.slot with
  | block own | text own | hardware =>
      apply copied
      intro pDataDst
      have both := same pDataDst
      simp only [present, place] at both
      cases one : copyInto pDataDst 0 first <;>
        cases two : copyInto pDataDst 0 second <;> simp_all
  | pointed own =>
      have both := same []
      simp only [present, place] at both
      cases both
      rfl
  | unhandled => exact absurd place handled

/-! ## Failing -/

/-- Every parameter reads as before. -/
def KeepsReads (dev after : DevInfo) : Prop :=
  ∀ type pDataDst, fetch after type pDataDst = fetch dev type pDataDst

/-- A start loads the configuration it would have loaded. -/
def KeepsLoad (print : Node → Text) (parse : Text → Option Node)
    (files after : Files) : Prop :=
  ∀ backup main, (initDev print parse after backup main).appSetInfo =
    (initDev print parse files backup main).appSetInfo

/-- A call that returns -1 changes nothing. -/
def FailsUnchanged (print : Node → Text) (parse : Text → Option Node)
    (files : Files) (dev : DevInfo) (call : SetCall) : Prop :=
  ∀ after steps,
    setParam print call.around dev call.type call.pValue =
        some (-1, after, steps) →
      KeepsReads dev after ∧
        KeepsLoad print parse files (applySteps steps files)

/-- The backup written again from the configuration that is there, as much of
it as the disk takes. -/
def backupAgain (print : Node → Text) (files : Files) (dev : DevInfo)
    (stored : Nat) : Files :=
  Function.update files .backup
    (some ((appsetConfToJson print dev.appSetInfo).take stored))

/-- When a call that has to be saved and cannot be leaves everything: its value
is the one that is there, and the backup is not written, not read at a start, or
loads what is loaded without it. -/
def UnchangedWhen (print : Node → Text) (parse : Text → Option Node)
    (files : Files) (dev : DevInfo) (call : SetCall) : Prop :=
  dev.isParamReady = true →
    Saves dev call.around.offLine call.type call.pValue →
      ¬ Synced dev call.around →
        valueOf call.around.offLine call.type call.pValue =
            contents dev call.type ∧
          (dev.stopFlag = 0 → ∀ stored, call.around.backup = some stored →
            source parse files .config = none →
              startConf parse (backupAgain print files dev stored) =
                startConf parse files)

section OneCall

variable {print : Node → Text} {parse : Text → Option Node} {files : Files}
  {dev after : DevInfo} {call : SetCall}

theorem keepsLoad_iff {other : Files} :
    KeepsLoad print parse files other ↔
      startConf parse other = startConf parse files := by
  rw [KeepsLoad]
  simp only [initDev_conf]
  exact ⟨fun same => same none none, fun same _ _ => same⟩

theorem keepsReads_iff (handled : call.type.slot ≠ .unhandled)
    (ready : dev.isParamReady = true)
    (strings : StringsTerminated dev.appSetInfo) {value : List UInt8}
    (stores : Stores dev after call.type value) :
    KeepsReads dev after ↔ value = contents dev call.type := by
  constructor
  · intro keeps
    apply present_injective handled
    intro pDataDst
    have same := keeps call.type pDataDst
    rw [stores.fetch ready, fetch_eq_present ready (strings.at_type _)] at same
    exact same
  · intro same other pDataDst
    have unchanged : contents after = contents dev := by
      rw [stores.contents, same, Function.update_eq_self]
    rw [fetch_eq_present (stores.ready.trans ready)
        (stores.strings.at_type other),
      fetch_eq_present ready (strings.at_type other), unchanged]

/-- What a save that fails does to the files. -/
theorem steps_of_not_synced (ready : dev.isParamReady = true)
    {around : Surroundings} (unsaved : ¬ Synced dev around) :
    syncParamToFile print dev around.backup around.main =
      (-1, if dev.stopFlag = 0 then
        (writeParamToFile print .backup dev.appSetInfo around.backup).2
      else []) := by
  rw [syncParamToFile, if_neg (by simp [ready])]
  by_cases stopped : dev.stopFlag = 0
  · have closed : around.main = none := by
      cases main : around.main with
      | none => rfl
      | some stored => exact absurd ⟨stopped, by simp [main]⟩ unsaved
    rw [if_neg (not_not_intro stopped), if_pos stopped, closed]
    simp [writeParamToFile]
  · rw [if_pos stopped, if_neg stopped]

/-- Reading the main file, a start does not look at the backup. -/
theorem startConf_backup {found : ConfigFile × List UInt8}
    (readable : source parse files .config = some found)
    (contents : Option (List UInt8)) :
    startConf parse (Function.update files .backup contents) =
      startConf parse files := by
  have same : source parse (Function.update files .backup contents) .config =
      some found := by
    rw [source, Function.update_of_ne (by decide)]
    exact readable
  rw [startConf, startConf, firstSource, firstSource, same, readable,
    Option.some_or, Option.some_or]

/-- A call that comes to nothing leaves everything. -/
theorem failsUnchanged_of_eq {ret : Int} {steps : List FileStep}
    (returns : setParam print call.around dev call.type call.pValue =
      some (ret, after, steps))
    (harmless : ret = -1 → after = dev ∧ steps = []) :
    FailsUnchanged print parse files dev call := by
  intro left taken same
  rw [returns] at same
  cases same
  obtain ⟨rfl, rfl⟩ := harmless rfl
  exact ⟨fun _ _ => rfl, fun _ _ => rfl⟩

/-- A call that has to be saved and cannot be. -/
theorem failsUnchanged_unsaved_iff (ready : dev.isParamReady = true)
    (handled : call.type.slot ≠ .unhandled)
    (strings : StringsTerminated dev.appSetInfo)
    (fits : CallFits dev call)
    (switches : setSwitch call.around dev call.type call.pValue =
      some ⟨0, true, after⟩)
    (stores : Stores dev after call.type
      (valueOf call.around.offLine call.type call.pValue))
    (unsaved : ¬ Synced dev call.around) :
    FailsUnchanged print parse files dev call ↔
      valueOf call.around.offLine call.type call.pValue =
          contents dev call.type ∧
        (dev.stopFlag = 0 → ∀ stored, call.around.backup = some stored →
          source parse files .config = none →
            startConf parse (backupAgain print files dev stored) =
              startConf parse files) := by
  have unsavedAfter : ¬ Synced after call.around := by
    rw [Synced, stores.stop]
    exact unsaved
  have returns : setParam print call.around dev call.type call.pValue =
      some (-1, after, if dev.stopFlag = 0 then
        (writeParamToFile print .backup after.appSetInfo
          call.around.backup).2 else []) := by
    rw [setParam, if_neg (by simp [ready]), switches, Option.map_some,
      if_pos ⟨rfl, rfl⟩]
    simp only [steps_of_not_synced (stores.ready.trans ready) unsavedAfter,
      stores.stop]
    rfl
  have reads := keepsReads_iff handled ready strings stores
  have kept : valueOf call.around.offLine call.type call.pValue =
      contents dev call.type →
        (KeepsLoad print parse files (applySteps (if dev.stopFlag = 0 then
          (writeParamToFile print .backup after.appSetInfo
            call.around.backup).2 else []) files) ↔
          (dev.stopFlag = 0 → ∀ stored, call.around.backup = some stored →
            source parse files .config = none →
              startConf parse (backupAgain print files dev stored) =
                startConf parse files)) := by
    intro same
    have text : appsetConfToJson print after.appSetInfo =
        appsetConfToJson print dev.appSetInfo := by
      apply appsetConfToJson_setSwitch print fits.1 fits.2 switches
      rw [stores.contents, same, Function.update_eq_self]
    rw [keepsLoad_iff]
    by_cases stopped : dev.stopFlag = 0
    · rw [if_pos stopped]
      cases opened : call.around.backup with
      | none => exact iff_of_true rfl fun _ _ absent => by cases absent
      | some stored =>
          have written : applySteps (writeParamToFile print .backup
              after.appSetInfo (some stored)).2 files =
                backupAgain print files dev stored := by
            rw [writeParamToFile, text, backupAgain]
            simp [applySteps, applyStep]
          rw [written]
          cases readable : source parse files .config with
          | some found =>
              exact iff_of_true (startConf_backup readable _)
                fun _ _ _ absent => by cases absent
          | none =>
              constructor
              · intro loads _ again same _
                cases same
                exact loads
              · intro loads
                exact loads stopped stored rfl rfl
    · rw [if_neg stopped]
      exact iff_of_true rfl fun running => absurd running stopped
  constructor
  · intro unchanged
    obtain ⟨keepsReads, keepsLoad⟩ := unchanged after _ returns
    have same := reads.mp keepsReads
    exact ⟨same, (kept same).mp keepsLoad⟩
  · rintro ⟨same, loads⟩ left taken others
    rw [returns] at others
    cases others
    exact ⟨reads.mpr same, (kept same).mpr loads⟩

theorem failsUnchanged_iff (strings : StringsTerminated dev.appSetInfo)
    (fits : CallFits dev call) :
    FailsUnchanged print parse files dev call ↔
      UnchangedWhen print parse files dev call := by
  by_cases ready : dev.isParamReady = true
  · by_cases handled : call.type.slot = .unhandled
    · have switched : setSwitch call.around dev call.type call.pValue =
          some ⟨-1, true, dev⟩ := by
        obtain ⟨type, pValue, around⟩ := call
        cases type <;> cases handled <;> rfl
      have unsaved : ¬ Saves dev call.around.offLine call.type call.pValue := by
        obtain ⟨type, pValue, around⟩ := call
        cases type <;> cases handled <;> exact id
      refine iff_of_true ?_ fun _ saves => absurd saves unsaved
      have returns : setParam print call.around dev call.type call.pValue =
          some (-1, dev, []) := by
        rw [setParam, if_neg (by simp [ready]), switched]
        rfl
      exact failsUnchanged_of_eq returns fun _ => ⟨rfl, rfl⟩
    · obtain ⟨syncFile, after, switches, stores⟩ :=
        setSwitch_stores handled fits.1 fits.2 strings
      have saves := syncFile_iff_saves handled fits.1 switches
      cases syncFile with
      | false =>
          refine iff_of_true ?_ fun _ saved => absurd (saves.mpr saved) (by simp)
          have returns : setParam print call.around dev call.type
              call.pValue = some (0, after, []) := by
            rw [setParam, if_neg (by simp [ready]), switches]
            rfl
          exact failsUnchanged_of_eq returns fun same =>
            absurd same (by decide)
      | true =>
          by_cases synced : Synced dev call.around
          · refine iff_of_true ?_ fun _ _ unsaved => absurd synced unsaved
            have returns : (syncParamToFile print after call.around.backup
                call.around.main).1 = 0 :=
              (syncParamToFile_eq_zero_iff (stores.ready.trans ready)).mpr
                (by rw [Synced, stores.stop]; exact synced)
            intro left taken same
            rw [setParam, if_neg (by simp [ready]), switches,
              Option.map_some, if_pos ⟨rfl, rfl⟩] at same
            simp [returns] at same
          · rw [failsUnchanged_unsaved_iff ready handled strings fits switches
              stores synced]
            exact ⟨fun holds _ _ _ => holds,
              fun holds => holds ready (saves.mp rfl) synced⟩
  · refine iff_of_true ?_ fun isReady => absurd isReady ready
    have returns : setParam print call.around dev call.type call.pValue =
        some (-1, dev, []) := by
      rw [setParam, if_pos ready]
    exact failsUnchanged_of_eq returns fun _ => ⟨rfl, rfl⟩

end OneCall

/-- Neither file can be opened. -/
def diskGone : Surroundings where
  time := 0
  offLine := false
  backup := none
  main := none

/-- A device that was started without files. -/
def freshDev : DevInfo :=
  initDev (printNode 0) (fun _ => none) noFiles none none

theorem starts_freshDev : Starts freshDev :=
  starts_initDev _ _ _ _

/-- A call that sets the brightness. -/
def brightnessCall (level : UInt8) : SetCall where
  type := .brightness
  pValue := [level]
  around := diskGone

theorem contents_freshDev_brightness :
    contents freshDev .brightness = [128] := by
  have conf : freshDev.appSetInfo = storeAll allDefaults confZero :=
    (initDev_conf _ _ _ _ _).trans (setDefaultConf_eq _)
  have listed : (ConfField.brightness, [128]) ∈ allDefaults :=
    List.mem_append_left _ (.tail _ (.tail _ (.head _)))
  have stored : ∀ entry ∈ allDefaults,
      load confLayout freshDev.appSetInfo entry.1 = entry.2 := by
    intro entry member
    rw [conf]
    exact load_storeAll_of_mem (by decide +kernel) member
      (wholeFields_allDefaults entry member)
  rw [contents_of_span freshDev rfl]
  exact stored (.brightness, [128]) listed

end DevParam

end MbedtlsKcp
