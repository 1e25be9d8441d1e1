import MbedtlsKcp.DevParamCoherence

/-!
# Documents of any shape

`jsonToAppsetConf` hands the `valuestring` of whatever node it finds under a
key to `strncpy`, with the size of the array.  The library leaves it NULL in
every node but a string, and a string as long as the array gets no terminator.
-/

namespace MbedtlsKcp

namespace DevParam

open ByteBuffers CStrings RecordFields CJson

/-! ## Reading with the pointers checked -/

/-- What a node is stored as; `none` when `strncpy` is given NULL. -/
def checkedBytes (ctype : CType) (item : Node) : Option (List UInt8) :=
  match ctype with
  | .charArray size =>
      item.valuestring.map fun text => strncpyBytes text size
  | ctype => some (nodeBytes ctype item)

def checkedField (object : Node) (conf : Conf) (reading : Reading) :
    Option Conf :=
  match getObjectItem object reading.key with
  | some item =>
      (checkedBytes reading.field.ctype item).map
        (store confLayout conf reading.field)
  | none =>
      match reading.absent with
      | some bytes => some (store confLayout conf reading.field bytes)
      | none => some conf

def checkedFields (object : Node) (readings : List Reading) (conf : Conf) :
    Option Conf :=
  readings.foldlM (checkedField object) conf

def checkedObject (root : Node) (key : Text) (readings : List Reading)
    (absent : List (ConfField × List UInt8)) (conf : Conf) : Option Conf :=
  match getObjectItem root key with
  | some object => checkedFields object readings conf
  | none => some (storeAll absent conf)

def checkedTree (root : Node) (conf : Conf) : Option Conf := do
  let oldrecordType := integerOf (getObjectItem root (ascii "recordType"))
  let oldmuteRecord := integerOf (getObjectItem root (ascii "muteRecord"))
  let conf ← checkedFields root topReadings conf
  let conf ← checkedObject root (ascii "awsConf") awsConfReadings [] conf
  let conf ← checkedObject root (ascii "prePoint") prePointReadings [] conf
  let conf ← checkedObject root (ascii "detAlarm") detAlarmReadings [] conf
  let conf ← checkedObject root (ascii "alarmchConf") alarmchConfReadings
    defaultSchedule conf
  checkedObject root (ascii "recordConf") recordConfReadings
    (oldRecordFields oldrecordType oldmuteRecord) conf

/-- `jsonToAppsetConf`; `none` when it dereferences a null `valuestring`. -/
def checkedJsonToAppsetConf (parse : Text → Option Node) (ofApp : Bool)
    (conf : Conf) (jsonString : Text) : Option (Int × Conf × Bool) :=
  let conf := setDefaultConf ofApp conf
  match parse jsonString with
  | none => some (-1, conf, false)
  | some root =>
      (checkedTree root conf).map fun conf => (0, conf, syncFile root)

/-! ## Null pointers -/

/-- A string is read from a node that has none. -/
def ReadsNull (object : Node) (reading : Reading) : Prop :=
  ∃ size item, reading.field.ctype = .charArray size ∧
    getObjectItem object reading.key = some item ∧ item.valuestring = none

theorem checkedField_eq {object : Node} {reading : Reading}
    (safe : ¬ ReadsNull object reading) (conf : Conf) :
    checkedField object conf reading =
      some (readField object conf reading) := by
  rw [checkedField, readField]
  cases found : getObjectItem object reading.key with
  | none => cases reading.absent <;> rfl
  | some item =>
      cases ctype : reading.field.ctype with
      | charArray size =>
          cases text : item.valuestring with
          | none => exact absurd ⟨size, item, ctype, found, text⟩ safe
          | some text => simp [checkedBytes, nodeBytes, text]
      | _ => rfl

theorem checkedField_eq_none {object : Node} {reading : Reading}
    (null : ReadsNull object reading) (conf : Conf) :
    checkedField object conf reading = none := by
  obtain ⟨size, item, ctype, found, text⟩ := null
  simp [checkedField, found, ctype, checkedBytes, text]

/-- The readings of an object succeed unless one of them reads NULL. -/
theorem checkedFields_eq {object : Node} {readings : List Reading}
    (safe : ∀ reading ∈ readings, ¬ ReadsNull object reading) (conf : Conf) :
    checkedFields object readings conf =
      some (readFields object readings conf) := by
  induction readings generalizing conf with
  | nil => rfl
  | cons reading readings ih =>
      rw [checkedFields, List.foldlM_cons,
        checkedField_eq (safe reading List.mem_cons_self)]
      exact ih (fun other member => safe other (.tail _ member)) _

theorem checkedFields_eq_none {object : Node} {readings : List Reading}
    {reading : Reading} (member : reading ∈ readings)
    (null : ReadsNull object reading) (conf : Conf) :
    checkedFields object readings conf = none := by
  induction readings generalizing conf with
  | nil => cases member
  | cons first readings ih =>
      rw [checkedFields, List.foldlM_cons]
      rcases List.mem_cons.mp member with rfl | later
      · rw [checkedField_eq_none null]
        rfl
      · cases checkedField object conf first with
        | none => rfl
        | some conf => exact ih later conf

/-- No string is read from a node that has none. -/
structure NoNulls (root : Node) : Prop where
  top : ∀ reading ∈ topReadings, ¬ ReadsNull root reading
  aws : ∀ object, getObjectItem root (ascii "awsConf") = some object →
    ∀ reading ∈ awsConfReadings, ¬ ReadsNull object reading

theorem not_readsNull_of_ctype {object : Node} {readings : List Reading}
    (noStrings : ∀ reading ∈ readings, ∀ size,
      reading.field.ctype ≠ .charArray size) :
    ∀ reading ∈ readings, ¬ ReadsNull object reading := by
  rintro reading member ⟨size, _, isArray, _⟩
  exact noStrings reading member size isArray

theorem checkedObject_eq {root : Node} {key : Text} {readings : List Reading}
    (safe : ∀ object, getObjectItem root key = some object →
      ∀ reading ∈ readings, ¬ ReadsNull object reading)
    (absent : List (ConfField × List UInt8)) (conf : Conf) :
    checkedObject root key readings absent conf =
      some (readObject root key readings absent conf) := by
  rw [checkedObject, readObject]
  cases found : getObjectItem root key with
  | none => rfl
  | some object => exact checkedFields_eq (safe object found) conf

theorem checkedTree_eq {root : Node} (safe : NoNulls root) (conf : Conf) :
    checkedTree root conf = some (readTree root conf) := by
  have numbers : ∀ readings ∈ [prePointReadings, detAlarmReadings,
      alarmchConfReadings, recordConfReadings], ∀ reading ∈ readings, ∀ size,
        reading.field.ctype ≠ .charArray size := by
    simp [prePointReadings, detAlarmReadings, alarmchConfReadings,
      recordConfReadings, ConfField.ctype]
  have others : ∀ readings ∈ [prePointReadings, detAlarmReadings,
      alarmchConfReadings, recordConfReadings], ∀ key object,
        getObjectItem root key = some object →
          ∀ reading ∈ readings, ¬ ReadsNull object reading :=
    fun readings member _ _ _ =>
      not_readsNull_of_ctype (numbers readings member)
  rw [checkedTree, checkedFields_eq safe.top]
  simp only [Option.bind_eq_bind, Option.bind_some,
    checkedObject_eq safe.aws,
    checkedObject_eq (others prePointReadings (by simp) _),
    checkedObject_eq (others detAlarmReadings (by simp) _),
    checkedObject_eq (others alarmchConfReadings (by simp) _),
    checkedObject_eq (others recordConfReadings (by simp) _)]
  rfl

theorem noNulls_of_checkedTree {root : Node} {conf after : Conf}
    (returns : checkedTree root conf = some after) : NoNulls root := by
  constructor
  · intro reading member null
    rw [checkedTree, checkedFields_eq_none member null] at returns
    cases returns
  · intro object found reading member null
    rw [checkedTree] at returns
    cases top : checkedFields root topReadings conf with
    | none =>
        rw [top] at returns
        cases returns
    | some middle =>
        rw [top] at returns
        simp only [Option.bind_eq_bind, Option.bind_some, checkedObject, found,
          checkedFields_eq_none member null] at returns
        cases returns

/-- Where no pointer is NULL the checks change nothing. -/
theorem checkedJsonToAppsetConf_eq {parse : Text → Option Node} {text : Text}
    (safe : ∀ root, parse text = some root → NoNulls root) (ofApp : Bool)
    (conf : Conf) :
    checkedJsonToAppsetConf parse ofApp conf text =
      some (jsonToAppsetConf parse ofApp conf text) := by
  rw [checkedJsonToAppsetConf, jsonToAppsetConf]
  cases parsed : parse text with
  | none => rfl
  | some root => simp [checkedTree_eq (safe root parsed)]

/-! ## One member after reading all of them -/

theorem load_readFields_other {readings : List Reading} {field : ConfField}
    (object : Node) (conf : Conf) (absent : field ∉ readings.map Reading.field) :
    load confLayout (readFields object readings conf) field =
      load confLayout conf field := by
  induction readings generalizing conf with
  | nil => rfl
  | cons reading readings ih =>
      rw [List.map_cons, List.mem_cons, not_or] at absent
      rw [readFields, List.foldl_cons]
      exact (ih _ absent.2).trans (load_readField_other object conf absent.1)

/-- What a reading leaves depends on its member alone. -/
theorem load_readField_congr {object : Node} {first second : Conf}
    {reading : Reading}
    (fits : ∀ bytes, reading.absent = some bytes →
      bytes.length ≤ reading.field.ctype.size)
    (same : load confLayout first reading.field =
      load confLayout second reading.field) :
    load confLayout (readField object first reading) reading.field =
      load confLayout (readField object second reading) reading.field := by
  cases found : getObjectItem object reading.key with
  | some item =>
      rw [load_readField_same first found, load_readField_same second found]
  | none =>
      cases absent : reading.absent with
      | none => simp only [readField, found, absent, same]
      | some bytes =>
          simp only [readField, found, absent]
          rw [load_store_start (fits bytes absent),
            load_store_start (fits bytes absent), same]

theorem load_readFields {readings : List Reading} {reading : Reading}
    (object : Node) (conf : Conf)
    (distinct : (readings.map Reading.field).Nodup)
    (fits : ∀ reading ∈ readings, ∀ bytes, reading.absent = some bytes →
      bytes.length ≤ reading.field.ctype.size)
    (member : reading ∈ readings) :
    load confLayout (readFields object readings conf) reading.field =
      load confLayout (readField object conf reading) reading.field := by
  induction readings generalizing conf with
  | nil => cases member
  | cons first readings ih =>
      rw [List.map_cons, List.nodup_cons] at distinct
      rw [readFields, List.foldl_cons]
      rcases List.mem_cons.mp member with rfl | later
      · exact load_readFields_other object _ distinct.1
      · refine (ih _ distinct.2
          (fun other member => fits other (.tail _ member)) later).trans ?_
        have differ : reading.field ≠ first.field := by
          intro same
          exact distinct.1 (same ▸ List.mem_map_of_mem later)
        exact load_readField_congr (fits reading member)
          (load_readField_other object conf differ)

theorem load_readObject_other {readings : List Reading} {field : ConfField}
    {absent : List (ConfField × List UInt8)} (root : Node) (key : Text)
    (conf : Conf) (unread : field ∉ readings.map Reading.field)
    (unset : field ∉ absent.map Prod.fst) :
    load confLayout (readObject root key readings absent conf) field =
      load confLayout conf field := by
  rw [readObject]
  split
  · exact load_readFields_other _ conf unread
  · exact load_storeAll_other unset

/-- The members `jsonToAppsetConf` reads behind `awsConf`. -/
def laterFields : List ConfField :=
  prePointReadings.map Reading.field ++ detAlarmReadings.map Reading.field ++
    alarmchConfReadings.map Reading.field ++
      recordConfReadings.map Reading.field

theorem load_readTree (root : Node) (conf : Conf) {field : ConfField}
    (earlier : field ∉ laterFields) :
    load confLayout (readTree root conf) field =
      load confLayout (readObject root (ascii "awsConf") awsConfReadings []
        (readFields root topReadings conf)) field := by
  simp only [laterFields, List.mem_append, not_or] at earlier
  obtain ⟨⟨⟨prePoint, detAlarm⟩, alarm⟩, record⟩ := earlier
  have schedule : field ∉ defaultSchedule.map Prod.fst := alarm
  have old : ∀ oldrecordType oldmuteRecord,
      field ∉ (oldRecordFields oldrecordType oldmuteRecord).map Prod.fst := by
    intro oldrecordType oldmuteRecord
    rw [oldRecordFields]
    split <;> exact record
  rw [readTree]
  rw [load_readObject_other root _ _ record (old _ _),
    load_readObject_other root _ _ alarm schedule,
    load_readObject_other root _ _ detAlarm (List.not_mem_nil),
    load_readObject_other root _ _ prePoint (List.not_mem_nil)]

/-- A member that is read at the top. -/
theorem load_readTree_top (root : Node) (conf : Conf) {reading : Reading}
    (member : reading ∈ topReadings) :
    load confLayout (readTree root conf) reading.field =
      load confLayout (readField root conf reading) reading.field := by
  have apart : ∀ reading ∈ topReadings, reading.field ∉ laterFields ∧
      reading.field ∉ awsConfReadings.map Reading.field := by
    decide
  have fits : ∀ reading ∈ topReadings, ∀ bytes ∈ reading.absent,
      bytes.length ≤ reading.field.ctype.size := by
    decide
  obtain ⟨earlier, notAws⟩ := apart reading member
  rw [load_readTree root conf earlier,
    load_readObject_other root _ _ notAws List.not_mem_nil]
  exact load_readFields root conf (by decide) fits member

/-- A member that is read from `awsConf`. -/
theorem load_readTree_aws (root : Node) (conf : Conf) {reading : Reading}
    (member : reading ∈ awsConfReadings) :
    load confLayout (readTree root conf) reading.field =
      match getObjectItem root (ascii "awsConf") with
      | some object =>
          load confLayout (readField object conf reading) reading.field
      | none => load confLayout conf reading.field := by
  have apart : ∀ reading ∈ awsConfReadings, reading.field ∉ laterFields ∧
      reading.field ∉ topReadings.map Reading.field := by
    decide
  have fits : ∀ reading ∈ awsConfReadings, ∀ bytes, reading.absent = some bytes →
      bytes.length ≤ reading.field.ctype.size := by
    decide
  obtain ⟨earlier, notTop⟩ := apart reading member
  have kept := load_readFields_other root conf notTop
  rw [load_readTree root conf earlier, readObject]
  cases getObjectItem root (ascii "awsConf") with
  | none =>
      rw [storeAll, List.foldl_nil]
      exact kept
  | some object =>
      exact (load_readFields object _ (by decide) fits member).trans
        (load_readField_congr (fits reading member) kept)

/-! ## Terminators -/

def CType.isArray : CType → Bool
  | .charArray _ => true
  | _ => false

theorem nodeBytes_array {ctype : CType} {item : Node} {text : Text}
    (isArray : ctype.isArray = true) (string : item.valuestring = some text) :
    nodeBytes ctype item = strncpyBytes text ctype.size := by
  cases ctype with
  | charArray size => simp [nodeBytes, string, CType.size]
  | _ => cases isArray

/-- The character arrays that `jsonToAppsetConf` is responsible for. -/
def stringArrays : List ConfField :=
  [.timezone, .timeZonePosix, .token, .streamName, .region, .logLevel,
    .endpoint, .iotUrl, .roleAlias]

def ArraysTerminated (conf : Conf) : Prop :=
  ∀ field ∈ stringArrays, Terminated (load confLayout conf field)

/-- No null `valuestring` is dereferenced, and the arrays are terminated
afterwards. -/
def Safe (parse : Text → Option Node) (ofApp : Bool) (conf : Conf)
    (jsonString : Text) : Prop :=
  ∃ result, checkedJsonToAppsetConf parse ofApp conf jsonString =
    some result ∧ ArraysTerminated result.2.1

/-- A node of a tree. -/
inductive Within : Node → Node → Prop
  | root (node : Node) : Within node node
  | child {node root : Node} {member : Option Text × Node}
      (listed : member ∈ root.child) (inside : Within node member.2) :
      Within node root

/-- Strings have a C string, and all other nodes NULL. -/
def WellTyped (root : Node) : Prop :=
  ∀ node, Within node root →
    (node.valuestring.isSome = true ↔ node.kind = .string) ∧
      ∀ text, node.valuestring = some text → 0 ∉ text

/-- The library parses a text to a well-typed tree. -/
def ParsesWellTyped (parse : Text → Option Node) : Prop :=
  ∀ text root, parse text = some root → WellTyped root

theorem WellTyped.item {object item : Node} {key : Text}
    (typed : WellTyped object) (found : getObjectItem object key = some item) :
    WellTyped item := by
  obtain ⟨name, member⟩ := FoldedKeys.mem_of_find found
  exact fun node inside => typed node (.child member inside)

theorem WellTyped.string_iff {item : Node} (typed : WellTyped item) :
    item.kind = .string ↔ ∃ text, item.valuestring = some text := by
  rw [← (typed item (.root item)).1, Option.isSome_iff_exists]

/-- A string array is read from a string that is shorter. -/
def StringFits (object : Node) (reading : Reading) : Prop :=
  reading.field.ctype.isArray = true →
    ∀ item, getObjectItem object reading.key = some item →
      item.kind = .string ∧
        (item.valuestring.getD []).length < reading.field.ctype.size

/-- All strings that are read are strings and shorter than their arrays. -/
structure StringsFit (root : Node) : Prop where
  top : ∀ reading ∈ topReadings, StringFits root reading
  aws : ∀ object, getObjectItem root (ascii "awsConf") = some object →
    ∀ reading ∈ awsConfReadings, StringFits object reading

/-- Without a level, a terminator stands behind the bytes of `info`. -/
def LevelEnds (conf : Conf) (root : Node) : Prop :=
  getObjectItem root (ascii "logLevel") = none →
    0 ∈ (load confLayout conf .logLevel).drop 4

section OneReading

variable {object item : Node} {reading : Reading} (conf : Conf)

theorem terminated_readField_found {text : Text}
    (isArray : reading.field.ctype.isArray = true)
    (found : getObjectItem object reading.key = some item)
    (string : item.valuestring = some text) (clear : 0 ∉ text) :
    Terminated (load confLayout (readField object conf reading)
        reading.field) ↔
      text.length < reading.field.ctype.size := by
  rw [load_readField_same conf found, nodeBytes_array isArray string]
  exact terminated_strncpyBytes_iff clear

/-- What is terminated and read from a string that fits is terminated. -/
theorem terminated_readField (typed : WellTyped object)
    (isArray : reading.field.ctype.isArray = true)
    (fits : StringFits object reading) (unset : reading.absent = none)
    (before : Terminated (load confLayout conf reading.field)) :
    Terminated (load confLayout (readField object conf reading)
      reading.field) := by
  cases found : getObjectItem object reading.key with
  | some item =>
      obtain ⟨isString, short⟩ := fits isArray item found
      obtain ⟨text, string⟩ := (typed.item found).string_iff.mp isString
      have clear := (typed.item found item (.root item)).2 text string
      rw [string] at short
      exact (terminated_readField_found conf isArray found string clear).mpr short
  | none =>
      simp only [readField, found, unset]
      exact before

/-- A string that is read into a terminated array fits. -/
theorem stringFits_of_terminated (typed : WellTyped object)
    (safe : ¬ ReadsNull object reading)
    (after : reading.field.ctype.isArray = true →
      Terminated (load confLayout (readField object conf reading)
        reading.field)) :
    StringFits object reading := by
  intro isArray item found
  obtain ⟨size, ctype⟩ : ∃ size, reading.field.ctype = .charArray size := by
    cases ctype : reading.field.ctype with
    | charArray size => exact ⟨size, rfl⟩
    | _ => rw [ctype] at isArray; cases isArray
  cases string : item.valuestring with
  | none => exact absurd ⟨size, item, ctype, found, string⟩ safe
  | some text =>
      have clear := (typed.item found item (.root item)).2 text string
      refine ⟨(typed.item found).string_iff.mpr ⟨text, string⟩, ?_⟩
      exact (terminated_readField_found conf isArray found string clear).mp
        (after isArray)

end OneReading

/-- The level of a tree without one. -/
theorem load_readTree_level {root : Node} (conf : Conf)
    (absent : getObjectItem root (ascii "logLevel") = none) :
    load confLayout (readTree root conf) .logLevel =
      ascii "info" ++ (load confLayout conf .logLevel).drop 4 := by
  have member : ⟨ascii "logLevel", .logLevel, some (ascii "info")⟩ ∈
      topReadings := by
    simp [topReadings]
  rw [load_readTree_top root conf member]
  simp only [readField, absent]
  exact load_store_start (by decide)

theorem noNulls_of_stringsFit {root : Node} (typed : WellTyped root)
    (fits : StringsFit root) : NoNulls root := by
  have refused : ∀ {object : Node} {reading : Reading}, WellTyped object →
      StringFits object reading → ¬ ReadsNull object reading := by
    rintro object reading typed fits ⟨size, item, ctype, found, null⟩
    obtain ⟨isString, -⟩ := fits (by rw [ctype]; rfl) item found
    obtain ⟨text, string⟩ := (typed.item found).string_iff.mp isString
    rw [null] at string
    cases string
  exact ⟨fun reading member => refused typed (fits.top reading member),
    fun object found reading member =>
      refused (typed.item found) (fits.aws object found reading member)⟩

/-- Every array is read at the top or from `awsConf`; only the level has a
default. -/
theorem reading_of_mem_stringArrays {field : ConfField}
    (array : field ∈ stringArrays) :
    field = .logLevel ∨
      (∃ reading ∈ topReadings, reading.field = field ∧
        reading.field.ctype.isArray = true ∧ reading.absent = none) ∨
      ∃ reading ∈ awsConfReadings, reading.field = field ∧
        reading.field.ctype.isArray = true ∧ reading.absent = none := by
  revert field
  decide

theorem mem_stringArrays_of_reading {reading : Reading}
    (member : reading ∈ topReadings ∨ reading ∈ awsConfReadings)
    (isArray : reading.field.ctype.isArray = true) :
    reading.field ∈ stringArrays := by
  have top : ∀ reading ∈ topReadings, reading.field.ctype.isArray = true →
      reading.field ∈ stringArrays := by
    decide
  have aws : ∀ reading ∈ awsConfReadings,
      reading.field.ctype.isArray = true → reading.field ∈ stringArrays := by
    decide
  rcases member with first | second
  · exact top reading first isArray
  · exact aws reading second isArray

section Documents

variable {root : Node} {conf : Conf}

theorem arraysTerminated_readTree (typed : WellTyped root)
    (before : ArraysTerminated conf) (fits : StringsFit root)
    (ends : LevelEnds conf root) : ArraysTerminated (readTree root conf) := by
  intro field array
  have terminated := before field array
  rcases reading_of_mem_stringArrays array with
    rfl | ⟨reading, member, rfl, isArray, unset⟩ |
      ⟨reading, member, rfl, isArray, unset⟩
  · cases found : getObjectItem root (ascii "logLevel") with
    | none =>
        rw [load_readTree_level conf found]
        exact List.mem_append_right _ (ends found)
    | some item =>
        have member : ⟨ascii "logLevel", .logLevel, some (ascii "info")⟩ ∈
            topReadings := by
          simp [topReadings]
        obtain ⟨isString, short⟩ := fits.top _ member rfl item found
        obtain ⟨text, string⟩ := (typed.item found).string_iff.mp isString
        have clear := (typed.item found item (.root item)).2 text string
        rw [string] at short
        have after : Terminated (load confLayout (readTree root conf)
            .logLevel) := by
          rw [load_readTree_top root conf member]
          exact (terminated_readField_found conf rfl found string clear).mpr
            short
        exact after
  · rw [load_readTree_top root conf member]
    exact terminated_readField conf typed isArray (fits.top reading member) unset
      terminated
  · rw [load_readTree_aws root conf member]
    cases found : getObjectItem root (ascii "awsConf") with
    | none => exact terminated
    | some object =>
        exact terminated_readField conf (typed.item found) isArray
          (fits.aws object found reading member) unset terminated

theorem stringsFit_of_arraysTerminated (typed : WellTyped root)
    (safe : NoNulls root) (after : ArraysTerminated (readTree root conf)) :
    StringsFit root := by
  constructor
  · intro reading member
    refine stringFits_of_terminated conf typed
      (safe.top reading member) ?_
    intro isArray
    rw [← load_readTree_top root conf member]
    exact after _ (mem_stringArrays_of_reading (.inl member) isArray)
  · intro object found reading member
    refine stringFits_of_terminated conf (typed.item found)
      (safe.aws object found reading member) ?_
    intro isArray
    have terminated := after _
      (mem_stringArrays_of_reading (.inr member) isArray)
    rw [load_readTree_aws root conf member, found] at terminated
    exact terminated

theorem levelEnds_of_arraysTerminated
    (after : ArraysTerminated (readTree root conf)) : LevelEnds conf root := by
  intro absent
  have terminated := after .logLevel (by decide)
  rw [load_readTree_level conf absent] at terminated
  refine (List.mem_append.mp terminated).resolve_left ?_
  decide

/-- The defaults keep the arrays terminated, and the level as it was. -/
theorem arraysTerminated_setDefaultConf (ofApp : Bool)
    (before : ArraysTerminated conf) :
    ArraysTerminated (setDefaultConf ofApp conf) := by
  have numbers : ∀ entry ∈ defaultFields, KeepsStrings entry := by
    decide
  have others : ∀ entry ∈ defaultAppFields, KeepsStrings entry := by
    decide
  have arrays : ∀ field ∈ stringArrays, field ∈ stringFields := by
    decide
  intro field array
  rw [setDefaultConf]
  have first := terminated_storeAll (before field array)
    (arrays field array) numbers
  split
  · exact terminated_storeAll first (arrays field array) others
  · exact first

theorem levelEnds_setDefaultConf_iff (ofApp : Bool) :
    LevelEnds (setDefaultConf ofApp conf) root ↔ LevelEnds conf root := by
  have kept : load confLayout (setDefaultConf ofApp conf) .logLevel =
      load confLayout conf .logLevel := by
    have numbers : ConfField.logLevel ∉ defaultFields.map Prod.fst := by
      decide
    have others : ConfField.logLevel ∉ defaultAppFields.map Prod.fst := by
      decide
    rw [setDefaultConf]
    split
    · rw [load_storeAll_other others, load_storeAll_other numbers]
    · exact load_storeAll_other numbers
  rw [LevelEnds, LevelEnds, kept]

end Documents

/-- A document is read without a null pointer and into terminated arrays
exactly when it is no JSON or its strings are strings that fit. -/
theorem safe_iff {parse : Text → Option Node} (typed : ParsesWellTyped parse)
    {conf : Conf} (before : ArraysTerminated conf) (ofApp : Bool)
    (jsonString : Text) :
    Safe parse ofApp conf jsonString ↔
      ∀ root, parse jsonString = some root →
        StringsFit root ∧ LevelEnds conf root := by
  have defaults := arraysTerminated_setDefaultConf ofApp before
  constructor
  · rintro ⟨result, returns, after⟩ root parsed
    rw [checkedJsonToAppsetConf, parsed] at returns
    obtain ⟨read, reads, rfl⟩ := Option.map_eq_some_iff.mp returns
    have safe := noNulls_of_checkedTree reads
    obtain rfl := Option.some.inj ((checkedTree_eq safe _).symm.trans reads)
    exact ⟨stringsFit_of_arraysTerminated (typed _ _ parsed) safe after,
      (levelEnds_setDefaultConf_iff ofApp).mp
        (levelEnds_of_arraysTerminated after)⟩
  · intro fits
    have safe : ∀ root, parse jsonString = some root → NoNulls root :=
      fun root parsed =>
        noNulls_of_stringsFit (typed _ _ parsed) (fits root parsed).1
    refine ⟨_, checkedJsonToAppsetConf_eq safe ofApp conf, ?_⟩
    rw [jsonToAppsetConf]
    cases parsed : parse jsonString with
    | none => exact defaults
    | some root =>
        obtain ⟨shorter, ends⟩ := fits root parsed
        exact arraysTerminated_readTree (typed _ _ parsed) defaults shorter
          ((levelEnds_setDefaultConf_iff ofApp).mpr ends)

/-- A document with one member, the token. -/
def tokenTree (item : Node) : Node :=
  addItemToObject createObject (ascii "token") item

theorem getObjectItem_tokenTree {item found : Node} {key : Text}
    (finds : getObjectItem (tokenTree item) key = some found) :
    found = item := by
  obtain ⟨name, member⟩ := FoldedKeys.mem_of_find finds
  exact congrArg Prod.snd (List.mem_singleton.mp member)

theorem wellTyped_tokenTree {item : Node} (leaf : item.child = [])
    (typed : (item.valuestring.isSome = true ↔ item.kind = .string) ∧
      ∀ text, item.valuestring = some text → 0 ∉ text) :
    WellTyped (tokenTree item) := by
  intro node inside
  cases inside with
  | root => exact ⟨by simp [tokenTree, addItemToObject, createObject], nofun⟩
  | child listed below =>
      have isItem := List.mem_singleton.mp listed
      rw [isItem] at below
      cases below with
      | root => exact typed
      | child deeper _ =>
          rw [leaf] at deeper
          cases deeper

theorem arraysTerminated_confZero : ArraysTerminated confZero := by
  have arrays : ∀ field ∈ stringArrays, 0 < field.ctype.size := by
    decide
  intro field array
  rw [load_confZero]
  exact List.mem_replicate.mpr ⟨Nat.ne_of_gt (arrays field array), rfl⟩

theorem levelEnds_confZero (root : Node) : LevelEnds confZero root := by
  intro _
  rw [load_confZero, List.drop_replicate]
  decide

/-- A parser that yields one tree. -/
def parseTo (tree : Node) (_ : Text) : Option Node :=
  some tree

theorem parsesWellTyped_parseTo {tree : Node} (typed : WellTyped tree) :
    ParsesWellTyped (parseTo tree) := by
  rintro text root ⟨⟩
  exact typed

/-- A token of three characters fits. -/
theorem safe_token :
    Safe (parseTo (tokenTree (createString (ascii "abc")))) true confZero
      (ascii "\x7b\"token\":\"abc\"\x7d") := by
  have typed : WellTyped (tokenTree (createString (ascii "abc"))) := by
    refine wellTyped_tokenTree rfl ⟨by simp [createString], ?_⟩
    rintro text ⟨⟩
    decide
  refine (safe_iff (parsesWellTyped_parseTo typed) arraysTerminated_confZero
    true _).mpr ?_
  rintro root ⟨⟩
  refine ⟨⟨?_, ?_⟩, levelEnds_confZero _⟩
  · have room : ∀ reading ∈ topReadings,
        reading.field.ctype.isArray = true → 3 < reading.field.ctype.size := by
      decide
    intro reading member isArray item found
    rw [getObjectItem_tokenTree found]
    exact ⟨rfl, room reading member isArray⟩
  · intro object found
    have absent : getObjectItem (tokenTree (createString (ascii "abc")))
        (ascii "awsConf") = none := by
      decide
    rw [absent] at found
    cases found

/-- A token that is a number is read through NULL. -/
theorem not_forall_safe :
    ¬ ∀ (parse : Text → Option Node), ParsesWellTyped parse →
      ∀ conf, ArraysTerminated conf → ∀ ofApp jsonString,
        Safe parse ofApp conf jsonString := by
  intro all
  have typed : WellTyped (tokenTree (createNumber 5)) :=
    wellTyped_tokenTree rfl ⟨by simp [createNumber], nofun⟩
  obtain ⟨result, returns, -⟩ := all _ (parsesWellTyped_parseTo typed) confZero
    arraysTerminated_confZero true (ascii "\x7b\"token\":5\x7d")
  rw [checkedJsonToAppsetConf, parseTo] at returns
  obtain ⟨read, reads, -⟩ := Option.map_eq_some_iff.mp returns
  have member : ⟨ascii "token", .token, none⟩ ∈ topReadings := by
    simp [topReadings]
  exact (noNulls_of_checkedTree reads).top _ member
    ⟨128, createNumber 5, rfl, by rfl, rfl⟩

end DevParam

end MbedtlsKcp
