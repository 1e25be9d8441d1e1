import Mathlib.Data.List.Nodup
import Mathlib.Data.List.OfFn
import Mathlib.Data.List.TakeDrop
import MbedtlsKcp.HubModel

/-!
# Filling and reading a hub

What is left of each kind of parameter when it is filled into an object and
read into another hub.  Numbers survive.  A string that fills its array loses
its last character, a boolean keeps the upper bytes that were there, and the
list of doorbells, written as objects and read as strings, is not read at all.
-/

namespace MbedtlsKcp

namespace HubModel

open CJson CStrings

/-! ## The fields behind the table -/

/-- How a parameter is kept in a hub. -/
inductive FieldKind where
  | int
  | bool
  | char (size : Nat)
  | charArray

/-- The contents of a field. -/
def Field : FieldKind → Type
  | .int => BitVec 32
  | .bool => BitVec 32
  | .char size => CharArray size
  | .charArray => Fin maxDoorbellCamNum → CharArray 32

/-- What a field means to a reader of the hub. -/
inductive ParamValue where
  | number (value : BitVec 32)
  | text (value : Text)
  | texts (value : List Text)
  deriving DecidableEq

def Field.value : {kind : FieldKind} → Field kind → ParamValue
  | .int, field => .number field
  | .bool, field => .number field
  | .char _, field => .text (cString field.bytes)
  | .charArray, field =>
      .texts (List.ofFn fun index => cString (field index).bytes)

/-- The arrays of a field hold terminators. -/
def Field.Terminated : {kind : FieldKind} → Field kind → Prop
  | .int, _ => True
  | .bool, _ => True
  | .char _, field => CStrings.Terminated field.bytes
  | .charArray, field => ∀ index, CStrings.Terminated (field index).bytes

namespace HubParamsTableCode

def kind : HubParamsTableCode → FieldKind
  | .initState | .rssi | .screenBrightness | .tone | .volume | .screenTimeout
  | .detectionAlarmTone | .subDetectAlarmEnabled | .subDetectAlarmDuration
  | .subDetectAlarmVolume | .subDetectAlarmTone | .subSnoozeModeEndTime => .int
  | .flashScreenEnable | .indicatorLightEnable | .ringToneEnable
  | .doNotDisturbEnable | .recordEnable | .animatePromptEnable
  | .muteRecordEnable | .keepScreenOn | .enable24Hour
  | .immedIsRecording => .bool
  | .bleMac | .wifMac | .language | .lvglBindCamId => .char 32
  | .fw | .doNotDisturbTimeRange => .char 64
  | .userId | .staSsid | .staPasswd | .subLockButtonSettings => .char 128
  | .doorbellList => .charArray

/-- The parameters of the hub itself, before those of its cameras. -/
def IsHubParam (code : HubParamsTableCode) : Prop :=
  code.ctorIdx ≤ HubParamsTableCode.immedIsRecording.ctorIdx

instance (code : HubParamsTableCode) : Decidable code.IsHubParam :=
  inferInstanceAs (Decidable (_ ≤ _))

/-- The entry of the table at the value of `code`. -/
def entry (code : HubParamsTableCode) : HubParamTable :=
  defparamsTable.get ⟨code.ctorIdx, by cases code <;> decide⟩

end HubParamsTableCode

open HubParamsTableCode

/-- The contents of the field behind a code of the table. -/
def field (devInfo : HubDevInfo) : (code : HubParamsTableCode) → Field code.kind
  | .initState => devInfo.initState
  | .bleMac => devInfo.hubMac
  | .wifMac => devInfo.wifiMac
  | .userId => devInfo.userId
  | .fw => devInfo.firmwareVersion
  | .rssi => devInfo.hubRssi
  | .flashScreenEnable => devInfo.flashScreenEnabled
  | .screenBrightness => devInfo.screenBrightness
  | .indicatorLightEnable => devInfo.indicatorLightEnabled
  | .ringToneEnable => devInfo.ringtoneEnabled
  | .tone => devInfo.tone
  | .volume => devInfo.volume
  | .language => devInfo.language
  | .doNotDisturbEnable => devInfo.doNotDisturbEnabled
  | .doNotDisturbTimeRange => devInfo.doNotDisturbTimeRange
  | .doorbellList => devInfo.doorbellIDs
  | .recordEnable => devInfo.recordingEnabled
  | .staSsid => devInfo.ssid
  | .staPasswd => devInfo.pwd
  | .animatePromptEnable => devInfo.animatedPromptEnabled
  | .screenTimeout => devInfo.screenTimeout
  | .muteRecordEnable => devInfo.mutedRecordingEnabled
  | .lvglBindCamId => devInfo.lvglbindcamId
  | .detectionAlarmTone => devInfo.detectionAlarmTone
  | .keepScreenOn => devInfo.keepScreenOn
  | .enable24Hour => devInfo.enable24Hour
  | .immedIsRecording => devInfo.isReording
  | .subDetectAlarmEnabled => devInfo.subInfo.detectAlarmEnabled
  | .subDetectAlarmDuration => devInfo.subInfo.detectAlarmDuration
  | .subDetectAlarmVolume => devInfo.subInfo.detectAlarmVolume
  | .subDetectAlarmTone => devInfo.subInfo.detectAlarmTone
  | .subLockButtonSettings => devInfo.subInfo.lockButtonSettings
  | .subSnoozeModeEndTime => devInfo.subInfo.snoozeModeEndTime

/-- Two hubs agree on the fields that are in no entry of the table. -/
structure SameUnlisted (first second : HubDevInfo) : Prop where
  timezone : first.timezone = second.timezone
  timeZoneId : first.timeZoneId = second.timeZoneId
  timeZonePosix : first.timeZonePosix = second.timeZonePosix
  bleVersion : first.bleVersion = second.bleVersion
  bleHardVersion : first.bleHardVersion = second.bleHardVersion
  autoupgradeEnabled : first.autoupgradeEnabled = second.autoupgradeEnabled
  cameras : first.cameras = second.cameras
  isLoadCameraConfig : first.isLoadCameraConfig = second.isLoadCameraConfig

/-- The item a field is filled as. -/
def Field.item : {kind : FieldKind} → Field kind → Node
  | .int, field => createNumber (BitVec.toInt field)
  | .bool, field => createBool (toBool field)
  | .char _, field => createString (cString field.bytes)
  | .charArray, field => charArrayItem field

/-- A field once an item is read into it. -/
def Field.read : {kind : FieldKind} → Field kind → Node → Field kind
  | .int, field, item => (parseIntJson item field).2
  | .bool, field, item => (parseBoolJson item field).2
  | .char _, field, item => (parseCharJson item field).2
  | .charArray, field, item => (parseCharArrayJson item field).2

/-! ## One parameter -/

theorem fillParamJson_entry (root : Node) (devInfo : HubDevInfo)
    {code : HubParamsTableCode} (ofHub : code.IsHubParam) :
    fillParamJson root code.entry devInfo =
      (0, addItemToObject root code.entry.keyValue
        (field devInfo code).item) := by
  cases code <;> first | exact absurd ofHub (by decide) | rfl

theorem fillParamJson_sub (root : Node) (devInfo : HubDevInfo)
    {code : HubParamsTableCode} (ofSub : ¬ code.IsHubParam) :
    fillParamJson root code.entry devInfo = (-1, root) := by
  cases code <;> first | exact absurd (by decide) ofSub | rfl

theorem field_parseDestParam_same (item : Node) (code : HubParamsTableCode)
    (devInfo : HubDevInfo) :
    field (parseDestParam item code.entry devInfo) code =
      (field devInfo code).read item := by
  cases code <;> rfl

theorem field_parseDestParam_other (item : Node)
    {code other : HubParamsTableCode} (differ : other ≠ code)
    (devInfo : HubDevInfo) :
    field (parseDestParam item code.entry devInfo) other =
      field devInfo other := by
  cases code <;> cases other <;> first | rfl | exact absurd rfl differ

theorem sameUnlisted_parseDestParam (item : Node) (code : HubParamsTableCode)
    (devInfo : HubDevInfo) :
    SameUnlisted (parseDestParam item code.entry devInfo) devInfo := by
  cases code <;> exact ⟨rfl, rfl, rfl, rfl, rfl, rfl, rfl, rfl⟩

theorem SameUnlisted.trans {first second third : HubDevInfo}
    (left : SameUnlisted first second) (right : SameUnlisted second third) :
    SameUnlisted first third where
  timezone := left.timezone.trans right.timezone
  timeZoneId := left.timeZoneId.trans right.timeZoneId
  timeZonePosix := left.timeZonePosix.trans right.timeZonePosix
  bleVersion := left.bleVersion.trans right.bleVersion
  bleHardVersion := left.bleHardVersion.trans right.bleHardVersion
  autoupgradeEnabled := left.autoupgradeEnabled.trans right.autoupgradeEnabled
  cameras := left.cameras.trans right.cameras
  isLoadCameraConfig := left.isLoadCameraConfig.trans right.isLoadCameraConfig

/-! ## Several parameters -/

/-- `result` is `destination` with the parameters `codes` of `source` read
into it, and nothing else changed. -/
structure ReadFrom (codes : List HubParamsTableCode)
    (source destination result : HubDevInfo) : Prop where
  read : ∀ code ∈ codes,
    field result code = (field destination code).read (field source code).item
  kept : ∀ code, code ∉ codes → field result code = field destination code
  unlisted : SameUnlisted result destination

theorem ReadFrom.nil (source destination : HubDevInfo) :
    ReadFrom [] source destination destination where
  read _ member := absurd member List.not_mem_nil
  kept _ _ := rfl
  unlisted := ⟨rfl, rfl, rfl, rfl, rfl, rfl, rfl, rfl⟩

theorem ReadFrom.single (source destination : HubDevInfo)
    (code : HubParamsTableCode) :
    ReadFrom [code] source destination
      (parseDestParam (field source code).item code.entry destination) where
  read other member := by
    rw [List.mem_singleton] at member
    subst member
    exact field_parseDestParam_same _ _ _
  kept other notMember := by
    rw [List.mem_singleton] at notMember
    exact field_parseDestParam_other _ notMember _
  unlisted := sameUnlisted_parseDestParam _ _ _

theorem ReadFrom.append {first second : List HubParamsTableCode}
    {source destination middle result : HubDevInfo}
    (early : ReadFrom first source destination middle)
    (late : ReadFrom second source middle result)
    (apart : ∀ code ∈ first, code ∉ second) :
    ReadFrom (first ++ second) source destination result where
  read code member := by
    by_cases inFirst : code ∈ first
    · rw [late.kept code (apart code inFirst), early.read code inFirst]
    · have inSecond : code ∈ second :=
        (List.mem_append.mp member).resolve_left inFirst
      rw [late.read code inSecond, early.kept code inFirst]
  kept code notMember := by
    rw [List.mem_append, not_or] at notMember
    rw [late.kept code notMember.2, early.kept code notMember.1]
  unlisted := late.unlisted.trans early.unlisted

/-! ## The object that is filled -/

def allCodes : List HubParamsTableCode :=
  defparamsTable.map HubParamTable.attrkey

theorem defparamsTable_eq : defparamsTable = allCodes.map entry :=
  rfl

theorem mem_allCodes (code : HubParamsTableCode) : code ∈ allCodes := by
  cases code <;> decide

theorem nodup_allCodes : allCodes.Nodup := by
  decide

theorem nodup_keyValues :
    (allCodes.map fun code => code.entry.keyValue).Nodup := by
  decide +kernel

theorem keyValue_injective {first second : HubParamsTableCode}
    (same : first.entry.keyValue = second.entry.keyValue) : first = second :=
  List.inj_on_of_nodup_map nodup_keyValues (mem_allCodes first)
    (mem_allCodes second) same

theorem keyValue_ne_tableIndex (code : HubParamsTableCode) :
    ascii "tableIndex" ≠ code.entry.keyValue := by
  cases code <;> decide

/-- The member a parameter is filled as. -/
def member (source : HubDevInfo) (code : HubParamsTableCode) :
    Option Text × Node :=
  (some code.entry.keyValue, (field source code).item)

theorem child_foldl_fill (source : HubDevInfo)
    (codes : List HubParamsTableCode) (filled : Int × Node) :
    (codes.foldl (fun filled code =>
        fillParamJson filled.2 code.entry source) filled).2.child =
      filled.2.child ++
        (codes.filter (·.IsHubParam)).map (member source) := by
  induction codes generalizing filled with
  | nil => exact (List.append_nil _).symm
  | cons code codes ih =>
      rw [List.foldl_cons, ih]
      by_cases ofHub : code.IsHubParam
      · rw [fillParamJson_entry _ _ ofHub,
          List.filter_cons_of_pos (by simpa using ofHub), List.map_cons,
          List.append_cons]
        rfl
      · rw [fillParamJson_sub _ _ ofHub,
          List.filter_cons_of_neg (by simpa using ofHub)]

/-- Reading one parameter from an object that holds `codes`. -/
theorem readFrom_foldl_parseElement (source destination : HubDevInfo)
    (code : HubParamsTableCode) {codes : List HubParamsTableCode}
    (distinct : codes.Nodup) :
    ReadFrom ([code].filter (· ∈ codes)) source destination
      ((codes.map (member source)).foldl (parseElement code.entry)
        destination) := by
  induction codes generalizing destination with
  | nil => exact ReadFrom.nil source destination
  | cons head codes ih =>
      rw [List.nodup_cons] at distinct
      rw [List.map_cons, List.foldl_cons]
      by_cases same : head = code
      · subst same
        have once := ih (parseElement head.entry destination
          (member source head)) distinct.2
        rw [List.filter_cons_of_neg (by simpa using distinct.1),
          List.filter_nil] at once
        rw [List.filter_cons_of_pos (by simp), List.filter_nil]
        have found := ReadFrom.single source destination head
        have stored : parseElement head.entry destination (member source head) =
            parseDestParam (field source head).item head.entry destination :=
          if_pos rfl
        rw [stored] at once
        rw [stored]
        exact found.append once fun _ _ => List.not_mem_nil
      · have skipped : parseElement code.entry destination
            (member source head) = destination := by
          apply if_neg
          intro sameKey
          exact same (keyValue_injective (Option.some.inj sameKey))
        rw [skipped]
        have rest := ih destination distinct.2
        have asked : [code].filter (· ∈ head :: codes) =
            [code].filter (· ∈ codes) := by
          apply List.filter_congr
          intro other isCode
          rw [List.mem_singleton.mp isCode]
          simp [Ne.symm same]
        rw [asked]
        exact rest

theorem readFrom_parseParamJson {source : HubDevInfo}
    (destination : HubDevInfo) (code : HubParamsTableCode)
    {codes : List HubParamsTableCode} (distinct : codes.Nodup) {root : Node}
    {tableIndex : Node}
    (holds : root.child =
      (some (ascii "tableIndex"), tableIndex) :: codes.map (member source)) :
    ReadFrom ([code].filter (· ∈ codes)) source destination
      (parseParamJson root code.entry destination) := by
  have skipped : parseElement code.entry destination
      (some (ascii "tableIndex"), tableIndex) = destination := by
    apply if_neg
    intro sameKey
    exact keyValue_ne_tableIndex code (Option.some.inj sameKey)
  rw [parseParamJson, holds, List.foldl_cons, skipped]
  exact readFrom_foldl_parseElement source destination code distinct

/-- Reading the parameters `wanted` one after the other. -/
theorem readFrom_foldl_parseParamJson {source : HubDevInfo}
    (destination : HubDevInfo) {codes wanted : List HubParamsTableCode}
    (distinct : codes.Nodup) (once : wanted.Nodup) {root : Node}
    {tableIndex : Node}
    (holds : root.child =
      (some (ascii "tableIndex"), tableIndex) :: codes.map (member source)) :
    ReadFrom (wanted.filter (· ∈ codes)) source destination
      (wanted.foldl (fun devInfo code => parseParamJson root code.entry devInfo)
        destination) := by
  induction wanted generalizing destination with
  | nil => exact ReadFrom.nil source destination
  | cons code wanted ih =>
      rw [List.nodup_cons] at once
      have first := readFrom_parseParamJson destination code distinct holds
      have later := ih (parseParamJson root code.entry destination) once.2
      rw [List.foldl_cons, ← List.singleton_append, List.filter_append]
      apply first.append later
      intro other isCode
      rw [List.mem_singleton.mp (List.mem_filter.mp isCode).1]
      intro again
      exact once.1 (List.mem_filter.mp again).1

/-! ## The parameters an index selects -/

/-- `HUB_PARAMS_MAX` or the index of a parameter of the hub. -/
def IsHubIndex (tableIndex : Nat) : Prop :=
  tableIndex = hubParamsMax ∨
    ∃ code : HubParamsTableCode, code.IsHubParam ∧ tableIndex = code.ctorIdx

/-- The parameter of the hub is one that `tableIndex` selects. -/
def Selected (tableIndex : Nat) (code : HubParamsTableCode) : Prop :=
  code.IsHubParam ∧ (tableIndex = hubParamsMax ∨ tableIndex = code.ctorIdx)

instance (tableIndex : Nat) (code : HubParamsTableCode) :
    Decidable (Selected tableIndex code) :=
  inferInstanceAs (Decidable (_ ∧ _))

/-- The hub `destination` once `source` is filled into an empty object and read
from it. -/
def transferred (source destination : HubDevInfo) (tableIndex : Nat) :
    HubDevInfo :=
  mqttModelHubParseParamJson
    (mqttModelHubFillParamJson createObject source tableIndex).2 destination
    tableIndex

theorem ctorIdx_lt (code : HubParamsTableCode) :
    code.ctorIdx < hubParamsMax := by
  cases code <;> decide

theorem getElem?_ctorIdx (code : HubParamsTableCode) :
    defparamsTable[code.ctorIdx]? = some code.entry := by
  cases code <;> rfl

theorem ctorIdx_injective {first second : HubParamsTableCode}
    (same : first.ctorIdx = second.ctorIdx) : first = second := by
  have entries := getElem?_ctorIdx first
  rw [same, getElem?_ctorIdx second] at entries
  exact keyValue_injective (congrArg HubParamTable.keyValue
    (Option.some.inj entries)).symm

theorem readFrom_transferred_all (source destination : HubDevInfo) :
    ReadFrom (allCodes.filter (·.IsHubParam)) source destination
      (transferred source destination hubParamsMax) := by
  have filled := child_foldl_fill source allCodes
    (0, addItemToObject createObject (ascii "tableIndex")
      (createNumber hubParamsMax))
  have reads := readFrom_foldl_parseParamJson destination
    (nodup_allCodes.filter _) nodup_allCodes filled
  have wanted : allCodes.filter
        (· ∈ allCodes.filter fun code => decide code.IsHubParam) =
      allCodes.filter (·.IsHubParam) := by
    apply List.filter_congr
    intro code listed
    simp [listed]
  rw [wanted] at reads
  rw [transferred, mqttModelHubParseParamJson, if_pos rfl,
    mqttModelHubFillParamJson, if_pos rfl, defparamsTable_eq, List.foldl_map,
    List.foldl_map]
  exact reads

theorem readFrom_transferred_one (source destination : HubDevInfo)
    {code : HubParamsTableCode} (ofHub : code.IsHubParam) :
    ReadFrom [code] source destination
      (transferred source destination code.ctorIdx) := by
  have notAll : code.ctorIdx ≠ hubParamsMax := Nat.ne_of_lt (ctorIdx_lt code)
  have filled : (mqttModelHubFillParamJson createObject source
      code.ctorIdx).2.child =
      (some (ascii "tableIndex"), createNumber code.ctorIdx) ::
        [code].map (member source) := by
    rw [mqttModelHubFillParamJson, if_neg notAll, getElem?_ctorIdx]
    dsimp only
    rw [fillParamJson_entry _ _ ofHub]
    rfl
  have reads := readFrom_parseParamJson destination code
    (List.nodup_singleton code) filled
  rw [List.filter_cons_of_pos (by simp), List.filter_nil] at reads
  rw [transferred, mqttModelHubParseParamJson, if_neg notAll,
    getElem?_ctorIdx]
  exact reads

/-- Reading back what was filled reads exactly the selected parameters. -/
theorem readFrom_transferred (source destination : HubDevInfo)
    {tableIndex : Nat} (index : IsHubIndex tableIndex) :
    ReadFrom (allCodes.filter (Selected tableIndex)) source destination
      (transferred source destination tableIndex) := by
  rcases index with rfl | ⟨code, ofHub, rfl⟩
  · have wanted : allCodes.filter (Selected hubParamsMax ·) =
        allCodes.filter (·.IsHubParam) := by
      apply List.filter_congr
      intro code _
      simp [Selected]
    rw [wanted]
    exact readFrom_transferred_all source destination
  · have reads := readFrom_transferred_one source destination ofHub
    have isCode : ∀ other, other ∈ allCodes.filter (Selected code.ctorIdx ·) ↔
        other ∈ [code] := by
      intro other
      rw [List.mem_filter, decide_eq_true_iff, List.mem_singleton]
      constructor
      · rintro ⟨-, -, all | same⟩
        · exact absurd all (Nat.ne_of_lt (ctorIdx_lt code))
        · exact (ctorIdx_injective same).symm
      · rintro rfl
        exact ⟨mem_allCodes other, ofHub, .inr rfl⟩
    exact ⟨fun other wanted => reads.read other ((isCode other).mp wanted),
      fun other unwanted => reads.kept other fun only =>
        unwanted ((isCode other).mpr only),
      reads.unlisted⟩

/-! ## What survives -/

/-- A boolean field reads back: the upper bytes agree already, and the field
holds 0 or a low byte of 1. -/
def BoolSurvives (source destination : BitVec 32) : Prop :=
  destination.extractLsb' 8 24 = source.extractLsb' 8 24 ∧
    (source = 0 ∨ source.extractLsb' 0 8 = 1#8)

/-- The contents of a field are read back into `destination`: a string does not
fill its array, and the doorbells are the same already. -/
def Field.Survives : {kind : FieldKind} → Field kind → Field kind → Prop
  | .int, _, _ => True
  | .bool, source, destination => BoolSurvives source destination
  | .char size, source, _ => (cString source.bytes).length + 1 ≠ size
  | .charArray, source, destination =>
      ∀ index, cString (destination index).bytes =
        cString (source index).bytes

theorem read_int (source destination : BitVec 32) :
    (parseIntJson (createNumber source.toInt) destination).2 = source := by
  have inRange : saturate source.toInt = source.toInt := by
    have low := source.le_toInt
    have high := source.toInt_lt
    rw [Nat.add_one_sub_one] at low high
    apply saturate_int
    · rw [intMin]
      omega
    · rw [intMax]
      omega
  have number : isNumber (createNumber source.toInt) = true := rfl
  rw [parseIntJson, if_pos number]
  show BitVec.ofInt 32 (saturate source.toInt) = source
  rw [inRange, BitVec.ofInt_toInt]

theorem storeBool_eq_iff (source destination : BitVec 32) :
    storeBool destination (toBool source) = source ↔
      BoolSurvives source destination := by
  have halves : source.extractLsb' 8 24 ++ source.extractLsb' 0 8 = source :=
    @BitVec.extractLsb'_append_extractLsb' 24 8 source
  constructor
  · intro same
    rw [storeBool] at same
    have upper := congrArg (BitVec.extractLsb' 8 24) same
    have lower := congrArg (BitVec.extractLsb' 0 8) same
    rw [BitVec.extractLsb'_append_eq_left] at upper
    rw [BitVec.extractLsb'_append_eq_right] at lower
    refine ⟨upper, ?_⟩
    by_cases zero : source = 0
    · exact .inl zero
    · have nonzero : toBool source = true := decide_eq_true zero
      rw [if_pos nonzero] at lower
      exact .inr lower.symm
  · rintro ⟨upper, zero | one⟩
    · have isFalse : toBool source = false := by
        rw [zero]
        rfl
      rw [storeBool, upper, isFalse, zero]
      rfl
    · have nonzero : toBool source = true := by
        apply decide_eq_true
        rintro rfl
        exact absurd one (by decide)
      rw [storeBool, upper, if_pos nonzero, ← one]
      exact halves

theorem read_bool_eq_iff (source destination : BitVec 32) :
    (parseBoolJson (createBool (toBool source)) destination).2 = source ↔
      BoolSurvives source destination := by
  have stored : (parseBoolJson (createBool (toBool source)) destination).2 =
      storeBool destination (toBool source) := by
    rw [parseBoolJson]
    cases toBool source <;> rfl
  rw [stored]
  exact storeBool_eq_iff source destination

theorem cString_read_char {size : Nat} (roomy : 1 < size)
    (source destination : CharArray size)
    (terminated : CStrings.Terminated source.bytes) :
    cString (parseCharJson (createString (cString source.bytes))
        destination).2.bytes = cString source.bytes ↔
      (cString source.bytes).length + 1 ≠ size := by
  have shorter := length_cString_lt terminated
  have isText : isString (createString (cString source.bytes)) = true := rfl
  have kept : cString (CStrings.snprintf destination.bytes (size - 1)
      (cString source.bytes)) = (cString source.bytes).take (size - 1 - 1) :=
    cString_snprintf (by omega) (not_mem_cString _)
  rw [source.length_bytes] at shorter
  rw [parseCharJson, if_pos isText]
  show cString (CStrings.snprintf destination.bytes (size - 1)
    (cString source.bytes)) = cString source.bytes ↔ _
  rw [kept, List.take_eq_self_iff]
  omega

theorem foldl_addItemToArray {Entry : Type} (make : Entry → Node)
    (entries : List Entry) (array : Node) :
    entries.foldl (fun array entry => addItemToArray array (make entry)) array =
      { array with
        child := array.child ++ entries.map fun entry => (none, make entry) } := by
  induction entries generalizing array with
  | nil =>
      cases array
      simp
  | cons entry entries ih =>
      rw [List.foldl_cons, ih, addItemToArray]
      simp

/-- An element that is no string ends the reading. -/
theorem parseCharArrayElements_stop {count size index : Nat}
    {subElement : Option Text × Node} {rest : List (Option Text × Node)}
    (noString : isString subElement.2 = false)
    (value : Fin count → CharArray size) :
    (parseCharArrayElements index (subElement :: rest) value).2 = value := by
  rw [parseCharArrayElements]
  split
  · rw [noString]
    rfl
  · rfl

/-- The entries are filled as objects, and the first of them ends the
reading. -/
theorem parseCharArrayJson_item {count size : Nat}
    (source destination : Fin (count + 1) → CharArray size) :
    (parseCharArrayJson (charArrayItem source) destination).2 =
      destination := by
  have empty : createArray.child = [] := rfl
  have stays (child : List (Option Text × Node)) :
      isArray { createArray with child } = true := rfl
  rw [charArrayItem, foldl_addItemToArray, parseCharArrayJson,
    if_pos (stays _), empty, List.nil_append, List.finRange_succ,
    List.map_cons]
  exact parseCharArrayElements_stop rfl destination

theorem read_charArray (source destination : Field .charArray) :
    destination.read source.item = destination :=
  parseCharArrayJson_item source destination

/-- An array has room for more than a terminator. -/
def FieldKind.Roomy : FieldKind → Prop
  | .char size => 1 < size
  | _ => True

theorem roomy_kind (code : HubParamsTableCode) : code.kind.Roomy := by
  cases code <;> simp [kind, FieldKind.Roomy]

/-- A filled field reads back with its value exactly when it survives. -/
theorem value_read_item {kind : FieldKind} (roomy : kind.Roomy)
    (source destination : Field kind) (terminated : source.Terminated) :
    (destination.read source.item).value = source.value ↔
      source.Survives destination := by
  cases kind with
  | int =>
      exact iff_of_true
        (congrArg ParamValue.number (read_int source destination)) trivial
  | bool =>
      exact (Iff.of_eq (ParamValue.number.injEq _ _)).trans
        (read_bool_eq_iff source destination)
  | char size =>
      exact (Iff.of_eq (ParamValue.text.injEq _ _)).trans
        (cString_read_char roomy source destination terminated)
  | charArray =>
      rw [read_charArray]
      refine (Iff.of_eq (ParamValue.texts.injEq _ _)).trans ?_
      rw [List.ofFn_inj, funext_iff]
      rfl

/-! ## The round trip -/

/-- The arrays of the hub's own parameters are NUL-terminated. -/
def StringsTerminated (devInfo : HubDevInfo) : Prop :=
  ∀ code : HubParamsTableCode, code.IsHubParam →
    (field devInfo code).Terminated

/-- Each selected parameter has the value it has in `source`, and every other
field is unchanged. -/
structure RoundTrips (source destination : HubDevInfo) (tableIndex : Nat) :
    Prop where
  selected : ∀ code, Selected tableIndex code →
    (field (transferred source destination tableIndex) code).value =
      (field source code).value
  others : ∀ code, ¬ Selected tableIndex code →
    field (transferred source destination tableIndex) code =
      field destination code
  unlisted :
    SameUnlisted (transferred source destination tableIndex) destination

def CharArray.zero (size : Nat) : CharArray size :=
  ⟨List.replicate size 0, List.length_replicate⟩

def cameraZero : CameraDevInfo where
  lockButtonSettings := .zero 128
  snoozeModeEndTime := 0
  detectAlarmEnabled := 0
  detectAlarmDuration := 0
  detectAlarmTone := 0
  detectAlarmVolume := 0

/-- A hub of zeros, except for its address and the doorbells bound to it. -/
def hubNamed (name : CharArray 32) : HubDevInfo where
  initState := 0
  timezone := .zero 64
  timeZoneId := .zero 64
  timeZonePosix := .zero 64
  bleVersion := 0
  bleHardVersion := 0
  hubMac := name
  wifiMac := .zero 32
  userId := .zero 128
  firmwareVersion := .zero 64
  hubRssi := 0
  autoupgradeEnabled := 0
  flashScreenEnabled := 0
  screenBrightness := 0
  indicatorLightEnabled := 0
  ringtoneEnabled := 0
  tone := 0
  volume := 0
  detectionAlarmTone := 0
  keepScreenOn := 0
  enable24Hour := 0
  language := .zero 32
  doNotDisturbEnabled := 0
  doNotDisturbTimeRange := .zero 64
  doorbellIDs := fun _ => name
  recordingEnabled := 0
  ssid := .zero 128
  pwd := .zero 128
  animatedPromptEnabled := 0
  screenTimeout := 0
  mutedRecordingEnabled := 0
  isReording := 0
  cameras := fun _ => cameraZero
  isLoadCameraConfig := 0
  lvglbindcamId := .zero 32
  subInfo := cameraZero

/-- The name `A`. -/
def nameA : CharArray 32 :=
  ⟨65 :: List.replicate 31 0, by decide⟩

theorem stringsTerminated_hubNamed {name : CharArray 32}
    (terminated : CStrings.Terminated name.bytes) :
    StringsTerminated (hubNamed name) := by
  have zeros : ∀ size, CStrings.Terminated
      (CharArray.zero (size + 1)).bytes := by
    intro size
    exact List.mem_replicate.mpr ⟨by omega, rfl⟩
  intro code _
  cases code <;>
    first
    | exact trivial
    | exact terminated
    | exact zeros _
    | exact fun _ => terminated

end HubModel

end MbedtlsKcp
