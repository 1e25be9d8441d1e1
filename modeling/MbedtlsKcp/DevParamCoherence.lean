import MbedtlsKcp.DevParamContents
import MbedtlsKcp.TransitionRuns

/-!
# Reading back what was set

A parameter that was set is read back, and every other one reads as before, as
long as strings are shorter than their members and the buffer that a copied
string is read into holds a terminator behind it.  Longer strings run into the
next members, and `DEV_PARAM_GetParam` copies no terminator.
-/

namespace MbedtlsKcp

namespace DevParam

open ByteBuffers CStrings RecordFields CJson TransitionRuns

/-- What was handed out is a value: a copied string ends in its buffer. -/
def Yields (type : ParamType) (value : List UInt8) : Fetched → Prop
  | .buffer bytes =>
      match type.slot with
      | .text _ => readString bytes = some value
      | _ => bytes = value
  | .string text => text = value

/-- `DEV_PARAM_GetParam` succeeds and yields a value. -/
def Gives (dev : DevInfo) (type : ParamType) (value pDataDst : List UInt8) :
    Prop :=
  ∃ fetched, fetch dev type pDataDst = some (0, fetched) ∧
    Yields type value fetched

/-- The parameters other than `type` read as before. -/
def Frames (dev after : DevInfo) (type : ParamType) : Prop :=
  ∀ other, other ≠ type → ∀ pDataDst,
    fetch after other pDataDst = fetch dev other pDataDst

/-- The size of what `pDataDst` points at. -/
def bufferSize (type : ParamType) : Nat :=
  match type.slot with
  | .block span => span.size
  | .text field => field.ctype.size
  | .pointed _ => 8
  | .hardware => 4
  | .unhandled => 0

/-- A call of `DEV_PARAM_SetParam` stays in its memory and, when it returns 0,
its value is read back and nothing else changed. -/
def Coherent (print : Node → Text) (around : Surroundings) (dev : DevInfo)
    (type : ParamType) (pValue pDataDst : List UInt8) : Prop :=
  ∃ ret after steps,
    setParam print around dev type pValue = some (ret, after, steps) ∧
      (ret = 0 →
        Gives after type (valueOf around.offLine type pValue) pDataDst ∧
          Frames dev after type)

/-- Saving the parameters returns 0. -/
def Synced (dev : DevInfo) (around : Surroundings) : Prop :=
  dev.stopFlag = 0 ∧ around.main.isSome = true

/-- When a call is coherent: a copied string stays in the record and, if it is
saved, is shorter than its member and followed by a terminator in the buffer; a
string that is pointed at is shorter than its member, or goes on in the bytes
behind it. -/
def Meets (around : Surroundings) (dev : DevInfo) (type : ParamType)
    (pValue pDataDst : List UInt8) : Prop :=
  dev.isParamReady = true →
    match type.slot with
    | .text field =>
        field.offset + (cString pValue).length ≤ confLayout.size ∧
          (Synced dev around →
            (cString pValue).length < field.ctype.size ∧
              pDataDst[(cString pValue).length]? = some 0)
    | .pointed field =>
        Synced dev around →
          (cString pValue).length < field.ctype.size ∨
            stringAt dev.appSetInfo (field.offset + field.ctype.size) =
              some ((cString pValue).drop field.ctype.size)
    | _ => True

def DevInfo.withConf (dev : DevInfo) (conf : Conf) : DevInfo :=
  { dev with appSetInfo := conf }

theorem DevInfo.ready_withConf (dev : DevInfo) (conf : Conf) :
    (dev.withConf conf).isParamReady = dev.isParamReady :=
  rfl

theorem DevInfo.stop_withConf (dev : DevInfo) (conf : Conf) :
    (dev.withConf conf).stopFlag = dev.stopFlag :=
  rfl

section OneCall

variable {print : Node → Text} {around : Surroundings} {dev after : DevInfo}
  {type : ParamType} {pValue pDataDst : List UInt8} {syncFile : Bool}

theorem syncParamToFile_eq_zero_iff (ready : dev.isParamReady = true) :
    (syncParamToFile print dev around.backup around.main).1 = 0 ↔
      Synced dev around := by
  rw [syncParamToFile, if_neg (by simp [ready]), Synced]
  by_cases stopped : dev.stopFlag = 0
  · rw [if_neg (not_not_intro stopped)]
    cases written : around.main with
    | none => simp [writeParamToFile]
    | some stored => simp [writeParamToFile, stopped]
  · rw [if_pos stopped]
    simp [stopped]

/-- A call whose branch returned is coherent if its file is not saved, or if
what it stored is. -/
theorem coherent_iff_of_setSwitch (ready : dev.isParamReady = true)
    (stillReady : after.isParamReady = dev.isParamReady)
    (sameStop : after.stopFlag = dev.stopFlag)
    (switched : setSwitch around dev type pValue = some ⟨0, syncFile, after⟩) :
    Coherent print around dev type pValue pDataDst ↔
      ((syncFile = true → Synced dev around) →
        Gives after type (valueOf around.offLine type pValue) pDataDst ∧
          Frames dev after type) := by
  have synced : (syncParamToFile print after around.backup around.main).1 = 0 ↔
      Synced dev around := by
    rw [syncParamToFile_eq_zero_iff (stillReady.trans ready), Synced, Synced,
      sameStop]
  rw [Coherent, setParam, if_neg (by simp [ready]), switched, Option.map_some]
  cases syncFile with
  | false =>
      rw [if_neg (by simp)]
      constructor
      · rintro ⟨ret, left, steps, same, holds⟩ -
        cases same
        exact holds rfl
      · intro holds
        exact ⟨0, after, [], rfl, fun _ => holds nofun⟩
  | true =>
      rw [if_pos ⟨rfl, rfl⟩]
      by_cases saved : Synced dev around
      · constructor
        · rintro ⟨ret, left, steps, same, holds⟩ -
          cases same
          exact holds (if_neg (not_not_intro (synced.mpr saved)))
        · intro holds
          exact ⟨_, after, _, rfl, fun _ => holds fun _ => saved⟩
      · refine iff_of_true ?_ fun saves => absurd (saves rfl) saved
        refine ⟨_, after, _, rfl, fun returned => ?_⟩
        rw [if_pos (mt synced.mp saved)] at returned
        cases returned

/-- What was stored is the only thing that reads differently. -/
theorem Stores.frames {value : List UInt8} (stores : Stores dev after type value)
    (ready : dev.isParamReady = true)
    (strings : StringsTerminated dev.appSetInfo) :
    Frames dev after type := by
  intro other differ pDataDst
  rw [fetch_eq_present (stores.ready.trans ready)
      (stores.strings.at_type other), fetch_eq_present ready
      (strings.at_type other), stores.contents, Function.update_of_ne differ]

theorem Stores.fetch {value : List UInt8} (stores : Stores dev after type value)
    (ready : dev.isParamReady = true) (pDataDst : List UInt8) :
    fetch after type pDataDst = present type value pDataDst := by
  rw [fetch_eq_present (stores.ready.trans ready)
      (stores.strings.at_type type), stores.contents, Function.update_self]

/-! ## Parameters that are no strings -/

/-- A buffer of the size of what is copied holds just that. -/
theorem copyInto_whole {source : List UInt8}
    (sized : pDataDst.length = source.length) :
    copyInto pDataDst 0 source = some source := by
  rw [copyInto_eq_some (by omega), overwrite, List.take_zero, List.nil_append,
    Nat.zero_add, List.drop_eq_nil_of_le (by omega), List.append_nil]

theorem length_valueOf {offLine : Bool} (noString : type.slot.string = none)
    (handled : type.slot ≠ .unhandled) (points : Points type pValue) :
    (valueOf offLine type pValue).length = bufferSize type := by
  cases type with
  | timezone | timezonePosix | token | streamName | region | setLoglevel
  | endpoint | roleAlias | iotUrl => cases noString
  | devMode | max => exact absurd rfl handled
  | hwVersion | darkFullColor => rfl
  | _ => exact List.length_take.trans (Nat.min_eq_left points)

theorem gives_present {value : List UInt8} (stores : Stores dev after type value)
    (ready : dev.isParamReady = true) (noString : type.slot.string = none)
    (handled : type.slot ≠ .unhandled)
    (sized : pDataDst.length = value.length) :
    Gives after type value pDataDst := by
  refine ⟨.buffer value, ?_, ?_⟩
  · rw [stores.fetch ready, present]
    cases slot : type.slot with
    | block span | hardware =>
        show (copyInto pDataDst 0 value).map _ = _
        rw [copyInto_whole sized]
        rfl
    | text field | pointed field =>
        rw [slot] at noString
        cases noString
    | unhandled => exact absurd slot handled
  · rw [Yields]
    cases slot : type.slot with
    | text field =>
        rw [slot] at noString
        cases noString
    | block span | pointed field | hardware | unhandled => rfl

theorem coherent_of_no_string (ready : dev.isParamReady = true)
    (strings : StringsTerminated dev.appSetInfo)
    (points : Points type pValue) (noString : type.slot.string = none)
    (handled : type.slot ≠ .unhandled)
    (room : pDataDst.length = bufferSize type) :
    Coherent print around dev type pValue pDataDst := by
  have fits : Fits around.offLine type pValue := by
    intro field isString
    rw [noString] at isString
    cases isString
  obtain ⟨syncFile, after, switched, stores⟩ :=
    setSwitch_stores handled points fits strings
  rw [coherent_iff_of_setSwitch ready stores.ready stores.stop switched]
  intro _
  refine ⟨gives_present stores ready noString handled ?_,
    stores.frames ready strings⟩
  rw [length_valueOf noString handled points]
  exact room

/-! ## Copied strings -/

theorem setSwitch_text {field : ConfField} (slot : type.slot = .text field) :
    setSwitch around dev type pValue =
      dev.stored true (setString field dev.appSetInfo pValue) := by
  cases type <;> cases slot <;> rfl

theorem valueOf_text {offLine : Bool} {field : ConfField}
    (slot : type.slot = .text field) :
    valueOf offLine type pValue = cString pValue := by
  cases type <;> cases slot <;> rfl

/-- A string copied without its terminator ends where the buffer held one. -/
theorem yields_copied_iff {field : ConfField} {source : List UInt8}
    (slot : type.slot = .text field) (clear : 0 ∉ source)
    (short : source.length < pDataDst.length) :
    (∃ fetched, (copyInto pDataDst 0 source).map (fun bytes =>
        ((0 : Int), Fetched.buffer bytes)) = some (0, fetched) ∧
          Yields type source fetched) ↔
      pDataDst[source.length]? = some 0 := by
  have copied : copyInto pDataDst 0 source =
      some (source ++ pDataDst.drop source.length) := by
    rw [copyInto_eq_some (by omega), overwrite, List.take_zero,
      List.nil_append, Nat.zero_add]
  have rest : pDataDst.drop source.length =
      pDataDst[source.length] :: pDataDst.drop (source.length + 1) :=
    List.drop_eq_getElem_cons short
  have ends := readString_append_cons_iff pDataDst[source.length]
    (pDataDst.drop (source.length + 1)) clear
  rw [copied, List.getElem?_eq_getElem short, Option.some.injEq, ← ends, rest]
  constructor
  · rintro ⟨fetched, same, yields⟩
    cases same
    rw [Yields, slot] at yields
    exact yields
  · intro read
    refine ⟨_, rfl, ?_⟩
    rw [Yields, slot]
    exact read

theorem clearAndCopy_eq_none {conf : Conf} {span : Span} {source : List UInt8}
    (leaves : confLayout.size < span.offset + source.length) :
    clearAndCopy conf span source = none := by
  rw [clearAndCopy]
  cases copyAt conf span.offset (List.replicate span.size 0) with
  | none => rfl
  | some cleared =>
      rw [Option.bind_some, ← Option.not_isSome_iff_eq_none, isSome_copyAt_iff]
      omega

/-- What is copied starts at the member, however long it is. -/
theorem clearAndCopy_eq_some {conf : Conf} {span : Span} {source : List UInt8}
    (inside : span.offset + span.size ≤ confLayout.size)
    (stays : span.offset + source.length ≤ confLayout.size) :
    ∃ left rest, clearAndCopy conf span source = some left ∧
      left.bytes.drop span.offset = source ++ rest := by
  obtain ⟨cleared, clears, -⟩ := exists_copyAt_whole conf inside
    (List.length_replicate : (List.replicate span.size (0 : UInt8)).length = _)
  obtain ⟨left, copies⟩ := Option.isSome_iff_exists.mp
    (isSome_copyAt_iff.mpr stays : (copyAt cleared span.offset source).isSome)
  have reaches : span.offset ≤ cleared.bytes.length := by
    rw [cleared.length_bytes]
    omega
  refine ⟨left, cleared.bytes.drop (span.offset + source.length), ?_, ?_⟩
  · rw [clearAndCopy, clears]
    exact copies
  · rw [bytes_copyAt copies]
    exact drop_overwrite reaches

/-- A string of the size of its member is handed out with no terminator in the
buffer, if it is at all. -/
theorem not_gives_long {field : ConfField} {source rest : List UInt8}
    (slot : type.slot = .text field) (ready : after.isParamReady = true)
    (starts : after.appSetInfo.bytes.drop field.offset = source ++ rest)
    (clear : 0 ∉ source) (room : pDataDst.length = field.ctype.size)
    (long : field.ctype.size ≤ source.length) :
    ¬ Gives after type source pDataDst := by
  rintro ⟨fetched, found, yields⟩
  rw [fetch, getParam, if_neg (by simp [ready]), getSwitch_eq, slot] at found
  dsimp only at found
  rw [getString, stringAt, starts, readString_append_of_not_mem rest clear]
    at found
  cases behind : readString rest with
  | none =>
      rw [behind] at found
      cases found
  | some tail =>
      rw [behind] at found
      dsimp only [Option.map_some, Option.bind_some] at found
      rw [follow_buffer, copyInto] at found
      split at found
      case isFalse => cases found
      case isTrue fits =>
        rw [List.length_append] at fits
        have exact : tail = [] := List.length_eq_zero_iff.mp (by omega)
        have sized : source.length = pDataDst.length := by omega
        rw [exact, List.append_nil, overwrite, List.take_zero, List.nil_append,
          List.drop_eq_nil_of_le (by omega), List.append_nil] at found
        cases found
        rw [Yields, slot] at yields
        dsimp only at yields
        rw [readString, if_neg (show ¬ Terminated source from clear)] at yields
        cases yields

theorem coherent_text_iff {field : ConfField} (ready : dev.isParamReady = true)
    (strings : StringsTerminated dev.appSetInfo)
    (slot : type.slot = .text field) (points : Points type pValue)
    (room : pDataDst.length = bufferSize type) :
    Coherent print around dev type pValue pDataDst ↔
      field.offset + (cString pValue).length ≤ confLayout.size ∧
        (Synced dev around →
          (cString pValue).length < field.ctype.size ∧
            pDataDst[(cString pValue).length]? = some 0) := by
  have clear := not_mem_cString pValue
  have handled : type.slot ≠ .unhandled := by
    rw [slot]
    exact nofun
  have terminated : Terminated pValue := by
    rw [Points, slot] at points
    exact points
  have sized : pDataDst.length = field.ctype.size := by
    rw [bufferSize, slot] at room
    exact room
  have inside : field.span.offset + field.span.size ≤ confLayout.size :=
    confLayout.inside field
  have sets : setString field dev.appSetInfo pValue =
      clearAndCopy dev.appSetInfo field.span (cString pValue) := by
    rw [setString, readString_of_terminated terminated]
    rfl
  by_cases short : (cString pValue).length < field.ctype.size
  · -- The string is stored whole; only its end in the buffer is open.
    have stays : field.offset + (cString pValue).length ≤ confLayout.size := by
      have whole : field.offset + field.ctype.size ≤ confLayout.size := inside
      omega
    have fits : Fits around.offLine type pValue := by
      intro own isString
      rw [slot] at isString
      cases isString
      rw [valueOf_text slot]
      exact short
    obtain ⟨syncFile, after, switched, stores⟩ :=
      setSwitch_stores handled points fits strings
    have saves : syncFile = true := by
      rw [setSwitch_text slot] at switched
      cases set : setString field dev.appSetInfo pValue with
      | none =>
          rw [set] at switched
          cases switched
      | some conf =>
          rw [set] at switched
          cases switched
          rfl
    have given : Gives after type (cString pValue) pDataDst ↔
        pDataDst[(cString pValue).length]? = some 0 := by
      rw [valueOf_text slot] at stores
      rw [Gives, stores.fetch ready, present, slot]
      exact yields_copied_iff slot clear (sized ▸ short)
    rw [coherent_iff_of_setSwitch ready stores.ready stores.stop switched,
      valueOf_text slot, given]
    constructor
    · intro holds
      exact ⟨stays, fun synced => ⟨short, (holds fun _ => synced).1⟩⟩
    · intro holds synced
      exact ⟨(holds.2 (synced saves)).2, stores.frames ready strings⟩
  · by_cases stays : field.offset + (cString pValue).length ≤ confLayout.size
    · obtain ⟨left, rest, copies, starts⟩ :=
        clearAndCopy_eq_some inside stays
      have switched : setSwitch around dev type pValue =
          some ⟨0, true, dev.withConf left⟩ := by
        rw [setSwitch_text slot, sets, copies]
        rfl
      have lost : ¬ Gives (dev.withConf left) type (cString pValue) pDataDst :=
        not_gives_long slot ready starts clear sized (Nat.le_of_not_lt short)
      rw [coherent_iff_of_setSwitch ready (dev.ready_withConf left)
        (dev.stop_withConf left) switched, valueOf_text slot]
      constructor
      · intro holds
        refine ⟨stays, fun synced => ?_⟩
        exact absurd (holds fun _ => synced).1 lost
      · intro holds synced
        exact absurd (holds.2 (synced rfl)).1 short
    · refine iff_of_false ?_ fun holds => stays holds.1
      rintro ⟨ret, after, steps, returns, -⟩
      rw [setParam, if_neg (by simp [ready]), setSwitch_text slot, sets,
        clearAndCopy_eq_none (Nat.lt_of_not_le stays)] at returns
      cases returns

/-! ## Strings that are pointed at -/

theorem setSwitch_pointed {field : ConfField}
    (slot : type.slot = .pointed field) (derived : type ≠ .iotUrl) :
    setSwitch around dev type pValue =
      dev.stored true (setWithStrncpy field dev.appSetInfo pValue) := by
  cases type <;> cases slot <;> first | rfl | exact absurd rfl derived

theorem valueOf_pointed {offLine : Bool} {field : ConfField}
    (slot : type.slot = .pointed field) (derived : type ≠ .iotUrl) :
    valueOf offLine type pValue = cString pValue := by
  cases type <;> cases slot <;> first | rfl | exact absurd rfl derived

theorem gives_pointed_iff {field : ConfField} {text : Text}
    (slot : type.slot = .pointed field) (ready : after.isParamReady = true) :
    Gives after type text pDataDst ↔
      stringAt after.appSetInfo field.offset = some text := by
  rw [Gives, fetch, getParam, if_neg (by simp [ready]), getSwitch_eq, slot]
  dsimp only
  rw [Option.bind_some, follow]
  constructor
  · rintro ⟨fetched, found, yields⟩
    obtain ⟨read, isRead, same⟩ := Option.map_eq_some_iff.mp found
    cases same
    rw [isRead]
    exact congrArg _ yields
  · intro read
    exact ⟨.string text, by rw [read]; rfl, rfl⟩

/-- What `strncpy` cuts off has to stand behind the member. -/
theorem stringAt_strncpy_iff {before left : Conf} {field : ConfField}
    {text : Text} (clear : 0 ∉ text)
    (replaces : Replaces before left field.span
      (strncpyBytes text field.ctype.size)) :
    stringAt left field.offset = some text ↔
      text.length < field.ctype.size ∨
        stringAt before (field.offset + field.ctype.size) =
          some (text.drop field.ctype.size) := by
  have stored : load confLayout left field =
      strncpyBytes text field.ctype.size := replaces.inside
  by_cases short : text.length < field.ctype.size
  · refine iff_of_true ?_ (.inl short)
    have terminated : Terminated (load confLayout left field) := by
      rw [stored]
      exact terminated_strncpyBytes short
    rw [stringAt_of_terminated terminated, stored,
      cString_strncpyBytes short clear]
  · have inside : field.offset + field.ctype.size ≤ 4096 :=
      confLayout.inside field
    -- The bytes behind the member are a span of their own.
    have behind : left.bytes.drop (field.offset + field.ctype.size) =
        before.bytes.drop (field.offset + field.ctype.size) := by
      have same := replaces.outside
        ⟨field.offset + field.ctype.size,
          4096 - (field.offset + field.ctype.size)⟩ (.inr (Nat.le_refl _))
      rw [Record.at, Record.at, slice, slice, List.take_of_length_le,
        List.take_of_length_le] at same
      · exact same
      · rw [List.length_drop, before.length_bytes]
        exact Nat.le_refl _
      · rw [List.length_drop, left.length_bytes]
        exact Nat.le_refl _
    have splits : left.bytes.drop field.offset =
        text.take field.ctype.size ++
          before.bytes.drop (field.offset + field.ctype.size) := by
      calc
        left.bytes.drop field.offset =
            load confLayout left field ++
              (left.bytes.drop field.offset).drop field.ctype.size :=
          (List.take_append_drop _ _).symm
        _ = text.take field.ctype.size ++
              before.bytes.drop (field.offset + field.ctype.size) := by
          rw [stored, List.drop_drop, behind, strncpyBytes,
            Nat.sub_eq_zero_of_le (Nat.le_of_not_lt short),
            List.replicate_zero, List.append_nil]
    have kept : 0 ∉ text.take field.ctype.size :=
      fun member => clear (List.mem_of_mem_take member)
    rw [or_iff_right short, stringAt, splits,
      readString_append_of_not_mem _ kept, stringAt]
    constructor
    · intro found
      obtain ⟨tail, read, joined⟩ := Option.map_eq_some_iff.mp found
      have cut : text.take field.ctype.size ++ tail =
          text.take field.ctype.size ++ text.drop field.ctype.size := by
        rw [List.take_append_drop]
        exact joined
      rw [read, List.append_cancel_left cut]
    · intro read
      rw [read, Option.map_some, List.take_append_drop]

theorem frames_of_replaces {span : Span} {image : List UInt8}
    (kept : type.slot.span = some span)
    (replaces : Replaces dev.appSetInfo after.appSetInfo span image)
    (hardware : after.hwVersion = dev.hwVersion)
    (stillReady : after.isParamReady = dev.isParamReady)
    (ready : dev.isParamReady = true)
    (strings : StringsTerminated dev.appSetInfo) :
    Frames dev after type := by
  intro other differ pDataDst
  have terminated := strings.at_type other
  rw [fetch_eq_present (stillReady.trans ready)
      (stringTerminatedAt_other kept replaces differ terminated),
    fetch_eq_present ready terminated,
    contents_other kept replaces hardware differ]

theorem coherent_pointed_iff {field : ConfField}
    (ready : dev.isParamReady = true)
    (strings : StringsTerminated dev.appSetInfo)
    (slot : type.slot = .pointed field) (derived : type ≠ .iotUrl)
    (points : Points type pValue) :
    Coherent print around dev type pValue pDataDst ↔
      (Synced dev around →
        (cString pValue).length < field.ctype.size ∨
          stringAt dev.appSetInfo (field.offset + field.ctype.size) =
            some ((cString pValue).drop field.ctype.size)) := by
  have terminated : Terminated pValue := by
    rw [Points, slot] at points
    exact points
  obtain ⟨left, isSet, replaces⟩ :
      Sets dev.appSetInfo (setWithStrncpy field dev.appSetInfo pValue)
        field.span (strncpyBytes (cString pValue) field.ctype.size) :=
    sets_setWithStrncpy terminated
  have switched : setSwitch around dev type pValue =
      some ⟨0, true, dev.withConf left⟩ := by
    rw [setSwitch_pointed slot derived, isSet]
    rfl
  have placed : Replaces dev.appSetInfo (dev.withConf left).appSetInfo
      field.span (strncpyBytes (cString pValue) field.ctype.size) := replaces
  have frames : Frames dev (dev.withConf left) type :=
    frames_of_replaces (by rw [slot]; rfl) placed rfl
      (dev.ready_withConf left) ready strings
  have leftReady : (dev.withConf left).isParamReady = true := ready
  have given : Gives (dev.withConf left) type (cString pValue) pDataDst ↔ _ :=
    (gives_pointed_iff slot leftReady).trans
      (stringAt_strncpy_iff (not_mem_cString pValue) placed)
  rw [coherent_iff_of_setSwitch ready (dev.ready_withConf left)
    (dev.stop_withConf left) switched, valueOf_pointed slot derived, given]
  constructor
  · exact fun holds synced => (holds fun _ => synced).1
  · exact fun holds synced => ⟨holds (synced rfl), frames⟩

/-- In a store whose strings are terminated, a call is coherent exactly when it
meets the condition. -/
theorem coherent_iff_meets (strings : StringsTerminated dev.appSetInfo)
    (derived : type ≠ .iotUrl) (points : Points type pValue)
    (room : pDataDst.length = bufferSize type) :
    Coherent print around dev type pValue pDataDst ↔
      Meets around dev type pValue pDataDst := by
  by_cases ready : dev.isParamReady = true
  · rw [Meets]
    cases slot : type.slot with
    | block span | hardware =>
        refine iff_of_true ?_ fun _ => trivial
        exact coherent_of_no_string ready strings points (by rw [slot]; rfl)
          (by rw [slot]; exact nofun) room
    | text field =>
        rw [coherent_text_iff ready strings slot points room]
        exact ⟨fun holds _ => holds, fun holds => holds ready⟩
    | pointed field =>
        rw [coherent_pointed_iff ready strings slot derived points]
        exact ⟨fun holds _ => holds, fun holds => holds ready⟩
    | unhandled =>
        refine iff_of_true ?_ fun _ => trivial
        have switched : setSwitch around dev type pValue =
            some ⟨-1, true, dev⟩ := by
          cases type <;> cases slot <;> rfl
        refine ⟨-1, dev, [], ?_, nofun⟩
        rw [setParam, if_neg (by simp [ready]), switched]
        rfl
  · refine iff_of_true ?_ fun isReady => absurd isReady ready
    refine ⟨-1, dev, [], ?_, nofun⟩
    rw [setParam, if_pos ready]

end OneCall

/-! ## Runs -/

/-- A call of `DEV_PARAM_SetParam`. -/
structure SetCall where
  type : ParamType
  pValue : List UInt8
  around : Surroundings

def setStep (print : Node → Text) (dev : DevInfo) (call : SetCall) :
    Option DevInfo :=
  (setParam print call.around dev call.type call.pValue).map
    fun result => result.2.1

/-- The strings the store starts with are terminated. -/
def Starts (dev : DevInfo) : Prop :=
  StringsTerminated dev.appSetInfo

/-- A call with a value of its type, shorter than its member if it is a
string. -/
def CallFits (_ : DevInfo) (call : SetCall) : Prop :=
  Points call.type call.pValue ∧
    Fits call.around.offLine call.type call.pValue

theorem strings_of_setStep {print : Node → Text} {before after : DevInfo}
    {call : SetCall} (strings : Starts before) (fits : CallFits before call)
    (steps : setStep print before call = some after) : Starts after := by
  rw [setStep, setParam] at steps
  by_cases ready : before.isParamReady = true
  · rw [if_neg (by simp [ready])] at steps
    by_cases handled : call.type.slot = .unhandled
    · have switched : setSwitch call.around before call.type call.pValue =
          some ⟨-1, true, before⟩ := by
        obtain ⟨type, pValue, around⟩ := call
        cases type <;> cases handled <;> rfl
      rw [switched] at steps
      cases steps
      exact strings
    · obtain ⟨syncFile, left, switched, stores⟩ :=
        setSwitch_stores handled fits.1 fits.2 strings
      rw [switched, Option.map_some, Option.map_some] at steps
      cases syncFile <;> cases steps <;> exact stores.strings
  · rw [if_pos ready] at steps
    cases steps
    exact strings

theorem starts_of_reachable {print : Node → Text} {dev : DevInfo}
    (reached : Reachable Starts (setStep print) CallFits dev) : Starts dev :=
  reached.invariant Starts (fun _ starts => starts)
    fun _ _ _ strings fits steps => strings_of_setStep strings fits steps

/-! ## Starting -/

/-- The store `DEV_PARAM_Init` allocates and fills from the files. -/
def initDev (print : Node → Text) (parse : Text → Option Node) (files : Files)
    (backup main : WriteOutcome) : DevInfo :=
  let calloced : DevInfo :=
    { appSetInfo := confZero, hwVersion := 0, stopFlag := 0,
      lastMotorPosUpdateTime := 0, isParamReady := false }
  let synced := syncParamFromFile print parse calloced files backup main
  { synced.2.1 with isParamReady := true }

/-- Stored bytes that keep the strings of a record terminated. -/
def KeepsStrings (entry : ConfField × List UInt8) : Prop :=
  entry.2.length = entry.1.ctype.size ∧
    (entry.1 ∈ stringFields → Terminated entry.2)

instance (entry : ConfField × List UInt8) : Decidable (KeepsStrings entry) :=
  inferInstanceAs (Decidable (_ ∧ _))

theorem terminated_storeAll {entries : List (ConfField × List UInt8)}
    {conf : Conf} {field : ConfField}
    (terminated : Terminated (load confLayout conf field))
    (isString : field ∈ stringFields)
    (keeps : ∀ entry ∈ entries, KeepsStrings entry) :
    Terminated (load confLayout (storeAll entries conf) field) := by
  induction entries generalizing conf with
  | nil => exact terminated
  | cons entry entries ih =>
      refine ih ?_ fun other listed =>
        keeps other (List.mem_cons_of_mem _ listed)
      obtain ⟨sized, ends⟩ := keeps entry List.mem_cons_self
      by_cases same : field = entry.1
      · rw [same] at isString ⊢
        rw [load_store_same sized]
        exact ends isString
      · rw [load_store_other _ same]
        exact terminated

theorem stringsTerminated_storeAll {entries : List (ConfField × List UInt8)}
    {conf : Conf} (strings : StringsTerminated conf)
    (keeps : ∀ entry ∈ entries, KeepsStrings entry) :
    StringsTerminated (storeAll entries conf) :=
  fun field size isArray =>
    terminated_storeAll (strings field size isArray) (mem_stringFields isArray)
      keeps

theorem stringsTerminated_setDefaultConf {conf : Conf}
    (strings : StringsTerminated conf) :
    StringsTerminated (setDefaultConf true conf) := by
  have numbers : ∀ entry ∈ defaultFields, KeepsStrings entry := by
    decide
  have others : ∀ entry ∈ defaultAppFields, KeepsStrings entry := by
    decide
  rw [setDefaultConf, if_pos rfl]
  exact stringsTerminated_storeAll (stringsTerminated_storeAll strings numbers)
    others

/-- A device without files starts with the defaults. -/
theorem starts_initDev (print : Node → Text) (parse : Text → Option Node)
    (backup main : WriteOutcome) :
    Starts (initDev print parse (fun _ => none) backup main) := by
  have defaults :
      (initDev print parse (fun _ => none) backup main).appSetInfo =
        setDefaultConf true confZero := by
    simp only [initDev, syncParamFromFile, readParamFromFile, readOldParamFile]
    rfl
  rw [Starts, defaults]
  exact stringsTerminated_setDefaultConf stringsTerminated_confZero

/-! ## Coherence -/

/-- In every store reached by calls whose strings are shorter than their
members, a call is coherent exactly when it meets the condition. -/
theorem coherent_iff_meets_of_reachable {print : Node → Text} {dev : DevInfo}
    (reached : Reachable Starts (setStep print) CallFits dev)
    (around : Surroundings) {type : ParamType} {pValue pDataDst : List UInt8}
    (derived : type ≠ .iotUrl) (points : Points type pValue)
    (room : pDataDst.length = bufferSize type) :
    Coherent print around dev type pValue pDataDst ↔
      Meets around dev type pValue pDataDst :=
  coherent_iff_meets (starts_of_reachable reached) derived points room

/-- Saving to files that can be opened. -/
def diskReady : Surroundings where
  time := 0
  offLine := false
  backup := some 4096
  main := some 4096

/-- A time zone is read back into a cleared buffer. -/
theorem coherent_utc :
    Coherent (printNode 0) diskReady
      (initDev (printNode 0) (fun _ => none) (fun _ => none) none none)
      .timezone (ascii "UTC" ++ [0]) (List.replicate 64 0) :=
  (coherent_iff_meets_of_reachable (.start (starts_initDev _ _ _ _)) diskReady
    (show ParamType.timezone ≠ .iotUrl by decide)
    (show Terminated (ascii "UTC" ++ [0]) by decide) rfl).mpr
      fun _ => ⟨by decide, fun _ => ⟨by decide, by decide⟩⟩

/-- In a buffer that was not cleared a string goes on with what was there. -/
theorem not_forall_coherent :
    ¬ ∀ (print : Node → Text) (parse : Text → Option Node) (files : Files)
      (backup main : WriteOutcome) (dev : DevInfo),
      Reachable (· = initDev print parse files backup main) (setStep print)
        (fun _ _ => True) dev →
      ∀ (around : Surroundings) (type : ParamType)
        (pValue pDataDst : List UInt8), type ≠ .iotUrl → Points type pValue →
        pDataDst.length = bufferSize type →
          Coherent print around dev type pValue pDataDst := by
  intro all
  have points : Points .timezone [65, 0] :=
    show Terminated [65, 0] by decide
  have coherent := all (printNode 0) (fun _ => none) (fun _ => none) none none
    _ (.start rfl) diskReady .timezone [65, 0] (List.replicate 64 88)
    (by decide) points rfl
  rw [coherent_iff_meets (starts_initDev _ _ _ _) (by decide) points rfl]
    at coherent
  have ends := ((coherent rfl).2 (by exact ⟨rfl, rfl⟩)).2
  revert ends
  decide

end DevParam

end MbedtlsKcp
