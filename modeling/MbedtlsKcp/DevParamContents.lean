import MbedtlsKcp.AppsetConfRoundTrip
import MbedtlsKcp.DevParamStore

/-!
# What the parameter store holds

Abstractly the store is a function from parameters to values.  A parameter that
is set with a value that fits is updated in it and no other one is, and what is
handed out is a function of the value alone.
-/

namespace MbedtlsKcp

namespace DevParam

open ByteBuffers CStrings RecordFields CJson

/-- Where a parameter is kept and how it is handed out: as the bytes of a span,
as a copied string, or as a pointer to a string. -/
inductive Slot where
  | block (span : Span)
  | text (field : ConfField)
  | pointed (field : ConfField)
  | hardware
  | unhandled
  deriving DecidableEq

def ParamType.slot : ParamType → Slot
  | .contrast => .block ConfField.contrast.span
  | .brightness => .block ConfField.brightness.span
  | .sharpness => .block ConfField.sharpness.span
  | .saturation => .block ConfField.saturation.span
  | .md => .block ConfField.md.span
  | .mdSense => .block ConfField.mdSense.span
  | .humanFilter => .block ConfField.humanFilter.span
  | .resolution => .block ConfField.resolution.span
  | .indicator => .block ConfField.indicatorSwitch.span
  | .nightVision => .block ConfField.nightVision.span
  | .volume => .block ConfField.volume.span
  | .flip => .block ConfField.flip.span
  | .privateMode => .block ConfField.privateMode.span
  | .timeWatermark => .block ConfField.timeWatermark.span
  | .talkMode => .block ConfField.talkMode.span
  | .timezone => .text .timezone
  | .timezonePosix => .text .timeZonePosix
  | .autoTracking => .block ConfField.autoTracking.span
  | .token => .text .token
  | .streamName => .text .streamName
  | .region => .text .region
  | .upgradeFlag => .block ConfField.upgradeFlag.span
  | .devMode => .unhandled
  | .detAlarm => .block detAlarmSpan
  | .autoUpgrade => .block ConfField.autoUpgrade.span
  | .soundAlarm => .block ConfField.soundAlarm.span
  | .antiFlicker => .block ConfField.antiFlicker.span
  | .cruise => .block ConfField.cruise.span
  | .prepoint => .block prePointSpan
  | .cloudEndTime => .block ConfField.cloudEndTime.span
  | .cloudStarTime => .block ConfField.cloudStarTime.span
  | .endpoint => .pointed .endpoint
  | .roleAlias => .pointed .roleAlias
  | .iotUrl => .pointed .iotUrl
  | .hwVersion => .hardware
  | .darkFullColor => .block ConfField.darkFullColor.span
  | .eventSchedule => .block eventSchConfSpan
  | .recordInfo => .block recordConfSpan
  | .enAlgolog => .block ConfField.enAlgoLog.span
  | .enKeylog => .block ConfField.enUploadKeyLog.span
  | .enDetaillog => .block ConfField.enUploadDetailLog.span
  | .setLoglevel => .text .logLevel
  | .max => .unhandled

/-- The span of the record a parameter is kept in. -/
def Slot.span : Slot → Option Span
  | .block span => some span
  | .text field | .pointed field => some field.span
  | .hardware | .unhandled => none

/-- The member of a parameter that is a string. -/
def Slot.string : Slot → Option ConfField
  | .text field | .pointed field => some field
  | _ => none

/-- What the bytes of the span stand for. -/
def Slot.read : Slot → List UInt8 → List UInt8
  | .text _, bytes | .pointed _, bytes => cString bytes
  | _, bytes => bytes

/-! ## The spans of the parameters -/

/-- The parameters kept in the record, in the order of their spans. -/
def keptTypes : List ParamType :=
  [.timezone, .timezonePosix, .token, .streamName, .region, .setLoglevel,
    .contrast, .brightness, .sharpness, .saturation, .md, .mdSense,
    .humanFilter, .resolution, .indicator, .nightVision, .volume, .flip,
    .privateMode, .timeWatermark, .talkMode, .autoTracking, .upgradeFlag,
    .soundAlarm, .autoUpgrade, .enKeylog, .enDetaillog, .enAlgolog, .detAlarm,
    .antiFlicker, .cruise, .prepoint, .cloudStarTime, .cloudEndTime, .endpoint,
    .iotUrl, .roleAlias, .darkFullColor, .eventSchedule, .recordInfo]

def SpansBefore (first second : ParamType) : Prop :=
  ∀ span ∈ first.slot.span, ∀ other ∈ second.slot.span, span.Before other

instance (first second : ParamType) : Decidable (SpansBefore first second) :=
  inferInstanceAs (Decidable (∀ span ∈ _, ∀ other ∈ _, _))

theorem pairwise_spansBefore : keptTypes.Pairwise SpansBefore := by
  decide

theorem mem_keptTypes {type : ParamType} {span : Span}
    (kept : type.slot.span = some span) : type ∈ keptTypes := by
  cases type <;> first | decide | cases kept

/-- Two parameters are kept apart. -/
theorem apart_of_ne {type other : ParamType} {span otherSpan : Span}
    (kept : type.slot.span = some span)
    (otherKept : other.slot.span = some otherSpan) (differ : other ≠ type) :
    otherSpan.Apart span := by
  have symmetric : Std.Symm fun first second : ParamType =>
      ∀ span ∈ first.slot.span, ∀ other ∈ second.slot.span, span.Apart other :=
    ⟨fun _ _ apart span kept other otherKept =>
      (apart other otherKept span kept).symm⟩
  have spread := pairwise_spansBefore.imp fun before span kept other otherKept =>
    (Or.inl (before span kept other otherKept) : span.Apart other)
  exact spread.forall (mem_keptTypes otherKept) (mem_keptTypes kept) differ
    otherSpan otherKept span kept

def stringFields : List ConfField :=
  [.timezone, .timeZoneId, .timeZonePosix, .token, .streamName, .region,
    .logLevel, .endpoint, .iotUrl, .roleAlias]

theorem mem_stringFields {field : ConfField} {size : Nat}
    (isArray : field.ctype = .charArray size) : field ∈ stringFields := by
  cases field <;> first | decide | cases isArray

/-- A member of characters is the one of a parameter, or apart from it. -/
theorem string_eq_or_apart {type : ParamType} {span : Span} {field : ConfField}
    (kept : type.slot.span = some span) (isString : field ∈ stringFields) :
    type.slot.string = some field ∨ field.span.Apart span := by
  have table : ∀ type ∈ keptTypes, ∀ field ∈ stringFields,
      type.slot.string = some field ∨
        ∀ span ∈ type.slot.span, field.span.Apart span := by
    decide
  exact (table type (mem_keptTypes kept) field isString).imp_right
    fun apart => apart span kept

/-! ## Contents -/

/-- The values in the store. -/
def contents (dev : DevInfo) (type : ParamType) : List UInt8 :=
  match type.slot with
  | .block span => dev.appSetInfo.at span
  | .text field | .pointed field =>
      cString (load confLayout dev.appSetInfo field)
  | .hardware => encodeLE 4 dev.hwVersion.toNat
  | .unhandled => []

/-- What `DEV_PARAM_GetParam` hands out, with its pointers followed. -/
inductive Fetched where
  | buffer (bytes : List UInt8)
  | string (text : Text)
  deriving DecidableEq

def follow (conf : Conf) : Int × Output → Option (Int × Fetched)
  | (ret, .buffer bytes) => some (ret, .buffer bytes)
  | (ret, .pointer position) =>
      (stringAt conf position).map fun text => (ret, .string text)

def fetch (dev : DevInfo) (type : ParamType) (pDataDst : List UInt8) :
    Option (Int × Fetched) :=
  (getParam dev type pDataDst).bind (follow dev.appSetInfo)

/-- How a value is handed out. -/
def present (type : ParamType) (content pDataDst : List UInt8) :
    Option (Int × Fetched) :=
  match type.slot with
  | .block _ | .text _ | .hardware =>
      (copyInto pDataDst 0 content).map fun bytes => (0, .buffer bytes)
  | .pointed _ => some (0, .string content)
  | .unhandled => some (-1, .buffer pDataDst)

/-- The branches of `DEV_PARAM_GetParam`, by where the parameter is kept. -/
theorem getSwitch_eq (dev : DevInfo) (type : ParamType)
    (pDataDst : List UInt8) :
    getSwitch dev type pDataDst =
      match type.slot with
      | .block span =>
          (getBytes span dev.appSetInfo pDataDst).map fun out => (0, out)
      | .text field =>
          (getString field dev.appSetInfo pDataDst).map fun out => (0, out)
      | .pointed field => some (0, .pointer field.offset)
      | .hardware =>
          ((copyInto pDataDst 0 (encodeLE 4 dev.hwVersion.toNat)).map
            Output.buffer).map fun out => (0, out)
      | .unhandled => some (-1, .buffer pDataDst) := by
  cases type <;> rfl

/-- The terminator of a member ends the string that starts there. -/
theorem stringAt_of_terminated {conf : Conf} {field : ConfField}
    (terminated : Terminated (load confLayout conf field)) :
    stringAt conf field.offset =
      some (cString (load confLayout conf field)) := by
  have splits : conf.bytes.drop field.offset =
      load confLayout conf field ++
        (conf.bytes.drop field.offset).drop field.ctype.size :=
    (List.take_append_drop _ _).symm
  rw [stringAt, splits]
  exact readString_append _ terminated

/-- The member of a parameter that is a string has its terminator. -/
def StringTerminatedAt (conf : Conf) (type : ParamType) : Prop :=
  ∀ field, type.slot.string = some field →
    Terminated (load confLayout conf field)

theorem StringsTerminated.at_type {conf : Conf}
    (strings : StringsTerminated conf) (type : ParamType) :
    StringTerminatedAt conf type := by
  intro field isString
  have isArray : ∃ size, field.ctype = .charArray size := by
    cases type <;> cases isString <;> exact ⟨_, rfl⟩
  obtain ⟨size, isArray⟩ := isArray
  exact strings field size isArray

theorem follow_buffer (conf : Conf) (written : Option (List UInt8)) :
    ((written.map Output.buffer).map fun output => ((0 : Int), output)).bind
        (follow conf) =
      written.map fun bytes => (0, .buffer bytes) := by
  cases written <;> rfl

/-- What is handed out depends on the value alone. -/
theorem fetch_eq_present {dev : DevInfo} {type : ParamType}
    (ready : dev.isParamReady = true)
    (terminated : StringTerminatedAt dev.appSetInfo type)
    (pDataDst : List UInt8) :
    fetch dev type pDataDst = present type (contents dev type) pDataDst := by
  have read : ∀ field, type.slot.string = some field →
      stringAt dev.appSetInfo field.offset =
        some (cString (load confLayout dev.appSetInfo field)) :=
    fun field isString => stringAt_of_terminated (terminated field isString)
  rw [fetch, getParam, if_neg (by simp [ready]), getSwitch_eq, contents,
    present]
  cases place : type.slot with
  | block span => exact follow_buffer _ _
  | text field =>
      dsimp only
      rw [getString, read field (congrArg Slot.string place)]
      exact follow_buffer _ _
  | pointed field =>
      show (stringAt dev.appSetInfo field.offset).map _ = _
      rw [read field (congrArg Slot.string place)]
      rfl
  | hardware => exact follow_buffer _ _
  | unhandled => rfl

/-! ## The setters -/

/-- `pValue` points at a value of the type. -/
def Points (type : ParamType) (pValue : List UInt8) : Prop :=
  match type.slot with
  | .block span => span.size ≤ pValue.length
  | .text _ | .pointed _ => Terminated pValue
  | .hardware => 1 ≤ pValue.length
  | .unhandled => True

/-- The value that is meant: a flag is normalised and the URL of a region is
looked up. -/
def valueOf (offLine : Bool) (type : ParamType) (pValue : List UInt8) :
    List UInt8 :=
  match type with
  | .darkFullColor => [if pValue.take 1 = [0] then 0 else 1]
  | .hwVersion => encodeLE 4 (decodeLE (pValue.take 1))
  | .iotUrl => iotUrlOf offLine (cString pValue)
  | type =>
      match type.slot with
      | .block span => pValue.take span.size
      | _ => cString pValue

/-- A string is shorter than its member. -/
def Fits (offLine : Bool) (type : ParamType) (pValue : List UInt8) : Prop :=
  ∀ field ∈ type.slot.string,
    (valueOf offLine type pValue).length < field.ctype.size

/-- A setter stored an image in a span. -/
def Sets (conf : Conf) (set : Option Conf) (span : Span) (image : List UInt8) :
    Prop :=
  ∃ after, set = some after ∧ Replaces conf after span image

section Setters

variable {conf : Conf} {span : Span} {field : ConfField}
  {pValue source : List UInt8}

theorem sets_clearAndCopy (inside : span.offset + span.size ≤ confLayout.size)
    (short : source.length ≤ span.size) :
    Sets conf (clearAndCopy conf span source) span
      (strncpyBytes source span.size) := by
  obtain ⟨cleared, clears, zeroed⟩ := exists_copyAt_whole conf inside
    (List.length_replicate : (List.replicate span.size (0 : UInt8)).length = _)
  obtain ⟨after, copies, replaces⟩ := exists_copyAt cleared inside short
  refine ⟨after, ?_, ?_⟩
  · rw [clearAndCopy, clears]
    exact copies
  · rw [zeroed.inside, List.drop_replicate] at replaces
    rw [strncpyBytes, List.take_of_length_le short]
    exact zeroed.trans replaces

theorem readFrom_start {count : Nat} (long : count ≤ pValue.length) :
    ByteBuffers.readFrom pValue 0 count = some (pValue.take count) := by
  rw [readFrom_eq_some (by omega), slice, List.drop_zero]

theorem readString_of_terminated (terminated : Terminated pValue) :
    readString pValue = some (cString pValue) :=
  if_pos terminated

theorem sets_setUnsignedChar (isChar : field.ctype = .unsignedChar)
    (points : 1 ≤ pValue.length) :
    Sets conf (setUnsignedChar field conf pValue) field.span
      (pValue.take 1) := by
  rw [setUnsignedChar, readFrom_start points]
  apply exists_copyAt_whole conf (confLayout.inside field)
  show (pValue.take 1).length = field.ctype.size
  rw [isChar, List.length_take]
  exact Nat.min_eq_left points

theorem sets_setStruct (inside : span.offset + span.size ≤ confLayout.size)
    (points : span.size ≤ pValue.length) :
    Sets conf (setStruct span conf pValue) span (pValue.take span.size) := by
  have sized : (pValue.take span.size).length = span.size := by
    rw [List.length_take]
    exact Nat.min_eq_left points
  have sets : Sets conf _ span _ :=
    sets_clearAndCopy inside (Nat.le_of_eq sized)
  rw [strncpyBytes, List.take_of_length_le (Nat.le_of_eq sized), sized,
    Nat.sub_self, List.replicate_zero, List.append_nil] at sets
  rw [setStruct, readFrom_start points]
  exact sets

theorem sets_setString (points : Terminated pValue)
    (short : (cString pValue).length ≤ field.ctype.size) :
    Sets conf (setString field conf pValue) field.span
      (strncpyBytes (cString pValue) field.ctype.size) := by
  rw [setString, readString_of_terminated points]
  exact sets_clearAndCopy (confLayout.inside field) short

theorem sets_setWithStrncpy (points : Terminated pValue) :
    Sets conf (setWithStrncpy field conf pValue) field.span
      (strncpyBytes (cString pValue) field.ctype.size) := by
  rw [setWithStrncpy, readString_of_terminated points]
  exact exists_copyAt_whole conf (confLayout.inside field)
    (length_strncpyBytes _ _)

theorem sets_setIotUrl {offLine : Bool} (points : Terminated pValue)
    (short : (iotUrlOf offLine (cString pValue)).length <
      ConfField.iotUrl.ctype.size) :
    Sets conf (setIotUrl offLine conf pValue) ConfField.iotUrl.span
      (strncpyBytes (iotUrlOf offLine (cString pValue))
        ConfField.iotUrl.ctype.size) := by
  rw [setIotUrl, readString_of_terminated points,
    ← strncpyBytes_append_zero short]
  apply sets_clearAndCopy (confLayout.inside .iotUrl)
  rw [List.length_append]
  exact short

theorem sets_setDarkFullColor (points : 1 ≤ pValue.length) :
    Sets conf (setDarkFullColor conf pValue) ConfField.darkFullColor.span
      [if pValue.take 1 = [0] then 0 else 1] := by
  rw [setDarkFullColor, readFrom_start points]
  exact exists_copyAt_whole conf (confLayout.inside .darkFullColor) rfl

/-- A time that is there already is the one that is set. -/
theorem sets_setCloudTime (isTime : field.ctype = .longLong)
    (points : 8 ≤ pValue.length) :
    ∃ syncFile after,
      setCloudTime field conf pValue = some (syncFile, after) ∧
        Replaces conf after field.span (pValue.take 8) := by
  rw [setCloudTime, readFrom_start points, Option.bind_some]
  split
  case isTrue =>
    have sized : (pValue.take 8).length = field.span.size := by
      show _ = field.ctype.size
      rw [isTime, List.length_take]
      exact Nat.min_eq_left points
    obtain ⟨after, copies, replaces⟩ :=
      exists_copyAt_whole conf (confLayout.inside field) sized
    exact ⟨true, after, congrArg _ copies, replaces⟩
  case isFalse same =>
    exact ⟨false, conf, rfl, not_ne_iff.mp same, fun _ _ => rfl⟩

end Setters

/-! ## The store as a function -/

theorem contents_of_span {type : ParamType} {span : Span} (dev : DevInfo)
    (kept : type.slot.span = some span) :
    contents dev type = type.slot.read (dev.appSetInfo.at span) := by
  rw [contents]
  cases place : type.slot with
  | block own =>
      rw [place] at kept
      cases kept
      rfl
  | text field | pointed field =>
      rw [place] at kept
      cases kept
      rfl
  | hardware | unhandled =>
      rw [place] at kept
      cases kept

section Replacing

variable {dev after : DevInfo} {type other : ParamType} {span : Span}
  {image : List UInt8}

theorem contents_set (kept : type.slot.span = some span)
    (replaces : Replaces dev.appSetInfo after.appSetInfo span image) :
    contents after type = type.slot.read image := by
  rw [contents_of_span after kept, replaces.inside]

/-- No other parameter meets the span. -/
theorem contents_other (kept : type.slot.span = some span)
    (replaces : Replaces dev.appSetInfo after.appSetInfo span image)
    (hardware : after.hwVersion = dev.hwVersion) (differ : other ≠ type) :
    contents after other = contents dev other := by
  cases place : other.slot.span with
  | some otherSpan =>
      rw [contents_of_span after place, contents_of_span dev place,
        replaces.outside otherSpan (apart_of_ne kept place differ)]
  | none =>
      rw [contents, contents, hardware]
      cases slot : other.slot with
      | block own => cases slot ▸ place
      | text field | pointed field => cases slot ▸ place
      | hardware | unhandled => rfl

theorem stringTerminatedAt_other (kept : type.slot.span = some span)
    (replaces : Replaces dev.appSetInfo after.appSetInfo span image)
    (differ : other ≠ type)
    (terminated : StringTerminatedAt dev.appSetInfo other) :
    StringTerminatedAt after.appSetInfo other := by
  intro field isString
  have place : other.slot.span = some field.span := by
    cases slot : other.slot <;> rw [slot] at isString <;> cases isString <;> rfl
  have same := replaces.outside field.span (apart_of_ne kept place differ)
  exact Eq.mpr (congrArg Terminated same) (terminated field isString)

theorem stringsTerminated_set (kept : type.slot.span = some span)
    (replaces : Replaces dev.appSetInfo after.appSetInfo span image)
    (strings : StringsTerminated dev.appSetInfo)
    (ends : type.slot.string.isSome = true → Terminated image) :
    StringsTerminated after.appSetInfo := by
  intro field size isArray
  rcases string_eq_or_apart kept (mem_stringFields isArray) with own | apart
  · have place : type.slot.span = some field.span := by
      cases slot : type.slot <;> rw [slot] at own <;> cases own <;> rfl
    have sameSpan : span = field.span := Option.some.inj (kept.symm.trans place)
    have stored : load confLayout after.appSetInfo field = image := by
      rw [sameSpan] at replaces
      exact replaces.inside
    rw [stored]
    exact ends (by rw [own]; rfl)
  · have same := replaces.outside field.span apart
    exact Eq.mpr (congrArg Terminated same) (strings field size isArray)

end Replacing

/-- A call stored the value of a parameter and nothing else. -/
structure Stores (dev after : DevInfo) (type : ParamType)
    (value : List UInt8) : Prop where
  contents : contents after = Function.update (contents dev) type value
  strings : StringsTerminated after.appSetInfo
  ready : after.isParamReady = dev.isParamReady
  stop : after.stopFlag = dev.stopFlag

section Storing

variable {dev : DevInfo} {type : ParamType} {span : Span}
  {set : Option Conf} {image value : List UInt8}

/-- A branch whose setter stores an image of the value. -/
theorem stores_stored (syncFile : Bool) (kept : type.slot.span = some span)
    (strings : StringsTerminated dev.appSetInfo)
    (sets : Sets dev.appSetInfo set span image)
    (means : type.slot.read image = value)
    (ends : type.slot.string.isSome = true → Terminated image) :
    ∃ after, dev.stored syncFile set = some ⟨0, syncFile, after⟩ ∧
      Stores dev after type value := by
  obtain ⟨conf, isSet, replaces⟩ := sets
  have placed : Replaces dev.appSetInfo
      ({ dev with appSetInfo := conf } : DevInfo).appSetInfo span image :=
    replaces
  refine ⟨{ dev with appSetInfo := conf }, by rw [isSet]; rfl, ?_,
    stringsTerminated_set kept placed strings ends, rfl, rfl⟩
  funext other
  by_cases same : other = type
  · rw [same, Function.update_self, contents_set kept placed, means]
  · rw [Function.update_of_ne same, contents_other kept placed rfl same]

theorem stores_string (syncFile : Bool) {field : ConfField}
    (isString : type.slot.string = some field)
    (strings : StringsTerminated dev.appSetInfo)
    (sets : Sets dev.appSetInfo set field.span
      (strncpyBytes value field.ctype.size))
    (short : value.length < field.ctype.size) (clear : 0 ∉ value) :
    ∃ after, dev.stored syncFile set = some ⟨0, syncFile, after⟩ ∧
      Stores dev after type value := by
  have kept : type.slot.span = some field.span := by
    cases slot : type.slot <;> rw [slot] at isString <;> cases isString <;> rfl
  apply stores_stored syncFile kept strings sets
  · have read : type.slot.read = cString := by
      cases slot : type.slot <;> rw [slot] at isString <;> cases isString <;>
        rfl
    rw [read]
    exact cString_strncpyBytes short clear
  · exact fun _ => terminated_strncpyBytes short

theorem stores_unsignedChar (syncFile : Bool) {field : ConfField}
    {pValue : List UInt8} (place : type.slot = .block field.span)
    (isChar : field.ctype = .unsignedChar) (points : 1 ≤ pValue.length)
    (strings : StringsTerminated dev.appSetInfo) :
    ∃ after, dev.stored syncFile
          (setUnsignedChar field dev.appSetInfo pValue) =
        some ⟨0, syncFile, after⟩ ∧
      Stores dev after type (pValue.take 1) := by
  apply stores_stored syncFile (by rw [place]; rfl) strings
    (sets_setUnsignedChar isChar points)
  · rw [place]
    rfl
  · rw [place]
    exact nofun

theorem stores_struct (syncFile : Bool) {pValue : List UInt8}
    (place : type.slot = .block span)
    (inside : span.offset + span.size ≤ confLayout.size)
    (points : span.size ≤ pValue.length)
    (strings : StringsTerminated dev.appSetInfo) :
    ∃ after, dev.stored syncFile (setStruct span dev.appSetInfo pValue) =
        some ⟨0, syncFile, after⟩ ∧
      Stores dev after type (pValue.take span.size) := by
  apply stores_stored syncFile (by rw [place]; rfl) strings
    (sets_setStruct inside points)
  · rw [place]
    rfl
  · rw [place]
    exact nofun

theorem stores_cloudTime {field : ConfField} {pValue : List UInt8}
    (place : type.slot = .block field.span) (isTime : field.ctype = .longLong)
    (points : 8 ≤ pValue.length)
    (strings : StringsTerminated dev.appSetInfo) :
    ∃ syncFile after,
      ((setCloudTime field dev.appSetInfo pValue).bind fun (syncFile, conf) =>
          dev.stored syncFile (some conf)) = some ⟨0, syncFile, after⟩ ∧
        Stores dev after type (pValue.take 8) := by
  obtain ⟨syncFile, conf, isSet, replaces⟩ : ∃ syncFile conf,
      setCloudTime field dev.appSetInfo pValue = some (syncFile, conf) ∧
        Replaces dev.appSetInfo conf field.span (pValue.take 8) :=
    sets_setCloudTime isTime points
  obtain ⟨after, stored, stores⟩ := stores_stored syncFile
    (by rw [place]; rfl) strings ⟨conf, rfl, replaces⟩
    (show type.slot.read _ = pValue.take 8 by rw [place]; rfl)
    (by rw [place]; exact nofun)
  exact ⟨syncFile, after, by rw [isSet]; exact stored, stores⟩

end Storing

theorem not_mem_iotUrlOf (offLine : Bool) {regionId : Text}
    (clear : 0 ∉ regionId) : 0 ∉ iotUrlOf offLine regionId := by
  have urls : ∀ entry ∈ qrcodeRegions, 0 ∉ entry.2 := by
    decide +kernel
  rw [iotUrlOf]
  split
  case h_1 url found =>
    rw [List.lookup_eq_some_iff] at found
    obtain ⟨before, rest, splits, -⟩ := found
    exact urls (regionId, url)
      (splits ▸ List.mem_append_right _ List.mem_cons_self)
  case h_2 =>
    split
    case isTrue => exact clear
    case isFalse => cases offLine <;> decide +kernel

/-- A value that fits is stored under its parameter. -/
theorem setSwitch_stores {around : Surroundings} {dev : DevInfo}
    {type : ParamType} {pValue : List UInt8}
    (handled : type.slot ≠ .unhandled) (points : Points type pValue)
    (fits : Fits around.offLine type pValue)
    (strings : StringsTerminated dev.appSetInfo) :
    ∃ syncFile after,
      setSwitch around dev type pValue = some ⟨0, syncFile, after⟩ ∧
        Stores dev after type (valueOf around.offLine type pValue) := by
  have clear := not_mem_cString pValue
  cases type with
  | contrast | brightness | sharpness | saturation | md | mdSense | humanFilter
  | indicator | nightVision | volume | flip | privateMode | timeWatermark
  | talkMode | autoTracking | upgradeFlag | autoUpgrade | soundAlarm
  | antiFlicker | cruise | enAlgolog | enKeylog | enDetaillog =>
      exact ⟨true, stores_unsignedChar true rfl rfl points strings⟩
  | resolution =>
      exact ⟨false, stores_unsignedChar false rfl rfl points strings⟩
  | timezone | timezonePosix | token | streamName | region | setLoglevel =>
      have short := fits _ rfl
      exact ⟨true, stores_string true rfl strings
        (sets_setString points (Nat.le_of_lt short)) short clear⟩
  | detAlarm | eventSchedule | recordInfo =>
      exact ⟨true, stores_struct true rfl (by decide) points strings⟩
  | prepoint =>
      have place : ParamType.prepoint.slot = .block prePointSpan := rfl
      have moved : StringsTerminated ({ dev with
          lastMotorPosUpdateTime := around.time } : DevInfo).appSetInfo :=
        strings
      obtain ⟨after, stored, stores⟩ :=
        stores_struct false place (by decide) points moved
      exact ⟨false, after, stored, stores.contents, stores.strings,
        stores.ready, stores.stop⟩
  | cloudEndTime | cloudStarTime =>
      exact stores_cloudTime rfl rfl points strings
  | endpoint | roleAlias =>
      have short := fits _ rfl
      exact ⟨true, stores_string true rfl strings (sets_setWithStrncpy points)
        short clear⟩
  | iotUrl =>
      have short := fits _ rfl
      exact ⟨true, stores_string true rfl strings (sets_setIotUrl points short)
        short (not_mem_iotUrlOf _ clear)⟩
  | hwVersion =>
      obtain ⟨byte, rest, rfl⟩ : ∃ byte rest, pValue = byte :: rest := by
        cases pValue with
        | nil => cases points
        | cons byte rest => exact ⟨byte, rest, rfl⟩
      have small : decodeLE [byte] < 2 ^ 32 := by
        have bound := byte.toNat_lt
        rw [decodeLE, decodeLE]
        omega
      refine ⟨true, { dev with hwVersion := BitVec.ofNat 32 (decodeLE [byte]) },
        ?_, ?_, strings, rfl, rfl⟩
      · rw [setSwitch, readFrom_start points]
        rfl
      · funext other
        by_cases same : other = .hwVersion
        · rw [same, Function.update_self]
          show encodeLE 4 (BitVec.ofNat 32 (decodeLE [byte])).toNat = _
          rw [BitVec.toNat_ofNat, Nat.mod_eq_of_lt small]
          rfl
        · rw [Function.update_of_ne same]
          cases other <;> first | rfl | exact absurd rfl same
  | darkFullColor =>
      refine ⟨true, stores_stored true rfl strings (sets_setDarkFullColor points)
        rfl ?_⟩
      intro isString
      cases isString
  | devMode | max => exact absurd rfl handled

end DevParam

end MbedtlsKcp
