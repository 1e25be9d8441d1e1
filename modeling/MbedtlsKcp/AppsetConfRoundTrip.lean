import MbedtlsKcp.AppsetConfJson

/-!
# Writing and reading the configuration

Every member but one is written under a key it is read from, letters taken
without regard to case.  The time zone is read from the key of the time zone
identifier, which itself is not read; integers beyond the range of `int` are
cut to it.
-/

namespace MbedtlsKcp

namespace DevParam

open ByteBuffers CStrings RecordFields CJson FoldedKeys

/-! ## One value -/

/-- A number is in the range of `int`. -/
def InRange (value : ConfValue) : Prop :=
  ∀ number, value = .number number → intMin ≤ number ∧ number ≤ intMax

theorem decodeLE_numberBytes (size : Nat) (number : Int) :
    decodeLE (numberBytes size number) =
      (BitVec.ofInt (8 * size) number).toNat := by
  have small := (BitVec.ofInt (8 * size) number).isLt
  rw [Nat.pow_mul] at small
  rw [numberBytes, decodeLE_encodeLE]
  exact Nat.mod_eq_of_lt small

@[simp]
theorem length_numberBytes (size : Nat) (number : Int) :
    (numberBytes size number).length = size :=
  length_encodeLE _ _

theorem length_nodeBytes (ctype : CType) (item : Node) :
    (nodeBytes ctype item).length = ctype.size := by
  cases ctype with
  | charArray size => exact length_strncpyBytes _ _
  | unsignedChar => exact length_numberBytes _ _
  | unsignedInt => exact length_numberBytes _ _
  | int => exact length_numberBytes _ _
  | longLong => exact length_numberBytes _ _
  | bool => exact length_numberBytes _ _

/-- An unsigned number that is an `int` is stored as it is. -/
theorem decodeLE_numberBytes_decodeLE {bytes : List UInt8} :
    decodeLE (numberBytes bytes.length (decodeLE bytes)) = decodeLE bytes := by
  have small := decodeLE_lt bytes
  have bits : 256 ^ bytes.length = 2 ^ (8 * bytes.length) :=
    (Nat.pow_mul 2 8 bytes.length).symm
  rw [decodeLE_numberBytes, BitVec.ofInt_natCast, BitVec.toNat_ofNat, ← bits]
  exact Nat.mod_eq_of_lt small

/-- An unsigned number of at most four bytes survives when it is an `int`. -/
theorem unsigned_survives_iff {bytes : List UInt8}
    (small : bytes.length ≤ 4) :
    decodeLE (numberBytes bytes.length
        (saturate (toDouble (decodeLE bytes)))) = decodeLE bytes ↔
      (decodeLE bytes : Int) ≤ intMax := by
  have bound : decodeLE bytes < 2 ^ 53 := by
    have := decodeLE_lt bytes
    have : 256 ^ bytes.length ≤ 256 ^ 4 := Nat.pow_le_pow_right (by decide) small
    omega
  have exact : toDouble (decodeLE bytes) = ((decodeLE bytes : Int) : Rat) :=
    toDouble_small bound
  rw [exact]
  constructor
  · intro same
    by_cases inside : (decodeLE bytes : Int) ≤ intMax
    · exact inside
    · rw [saturate_of_le (by omega), decodeLE_numberBytes] at same
      have cut : (BitVec.ofInt (8 * bytes.length) intMax).toNat ≤
          2147483647 := by
        have natural : intMax = ((2147483647 : Nat) : Int) := rfl
        rw [natural, BitVec.ofInt_natCast, BitVec.toNat_ofNat]
        exact Nat.mod_le _ _
      rw [intMax] at inside
      omega
  · intro inside
    rw [saturate_int (by rw [intMin]; omega) inside]
    exact decodeLE_numberBytes_decodeLE

/-- A signed number of four bytes survives. -/
theorem int_survives (word : BitVec 32) :
    (BitVec.ofNat 32 (decodeLE (numberBytes 4
      (saturate (toDouble word.toInt))))).toInt = word.toInt := by
  have low := word.le_toInt
  have high := word.toInt_lt
  have kept : saturate (toDouble word.toInt) = word.toInt := by
    rw [saturate_toDouble_eq_iff, intMin, intMax]
    omega
  rw [kept, decodeLE_numberBytes, BitVec.ofNat_toNat, BitVec.setWidth_eq,
    BitVec.ofInt_toInt]

/-- A signed number of eight bytes survives when it is an `int`. -/
theorem longLong_survives_iff (word : BitVec 64) :
    (BitVec.ofNat 64 (decodeLE (numberBytes 8
        (saturate (toDouble word.toInt))))).toInt = word.toInt ↔
      intMin ≤ word.toInt ∧ word.toInt ≤ intMax := by
  have cut : intMin ≤ saturate (toDouble word.toInt) ∧
      saturate (toDouble word.toInt) ≤ intMax := saturate_intCast_mem _
  have stored : (BitVec.ofInt 64 (saturate (toDouble word.toInt))).toInt =
      saturate (toDouble word.toInt) := by
    rw [intMin, intMax] at cut
    rw [BitVec.toInt_ofInt]
    apply Int.bmod_eq_of_le <;> omega
  rw [decodeLE_numberBytes, BitVec.ofNat_toNat, BitVec.setWidth_eq, stored]
  exact saturate_toDouble_eq_iff word.toInt

theorem inRange_number {number : Int} :
    InRange (.number number) ↔ intMin ≤ number ∧ number ≤ intMax := by
  constructor
  · intro inside
    exact inside number rfl
  · rintro inside other same
    rw [← ConfValue.number.inj same]
    exact inside

theorem number_survives_iff {stored number : Int}
    (survives : stored = number ↔ intMin ≤ number ∧ number ≤ intMax) :
    ConfValue.number stored = .number number ↔ InRange (.number number) := by
  rw [ConfValue.number.injEq, inRange_number]
  exact survives

theorem unsigned_value_iff (bytes : List UInt8) (small : bytes.length ≤ 4) :
    ConfValue.number (decodeLE (numberBytes bytes.length
        (saturate (toDouble (decodeLE bytes))))) =
        .number (decodeLE bytes) ↔
      InRange (.number (decodeLE bytes)) := by
  apply number_survives_iff
  rw [Int.ofNat_inj, unsigned_survives_iff small, intMin]
  omega

theorem bool_survives (flag : Bool) :
    decide (decodeLE (numberBytes 1
      (if (reparse (createBool flag)).valueint = 1 then 1 else 0)) ≠ 0) =
      flag := by
  cases flag <;> decide

theorem inRange_of_not_number {value : ConfValue}
    (other : ∀ number, value ≠ .number number) : InRange value :=
  fun number same => absurd same (other number)

/-- Numbers of the narrow types are in the range of `int`. -/
theorem inRange_decode {ctype : CType} {bytes : List UInt8}
    (sized : bytes.length = ctype.size) (small : ctype ≠ .unsignedInt)
    (short : ctype ≠ .longLong) : InRange (decode ctype bytes) := by
  cases ctype with
  | unsignedChar =>
      have bound := decodeLE_lt bytes
      have one : bytes.length = 1 := sized
      rw [one] at bound
      rw [decode, inRange_number, intMin, intMax]
      omega
  | unsignedInt => exact absurd rfl small
  | int =>
      have low := (BitVec.ofNat 32 (decodeLE bytes)).le_toInt
      have high := (BitVec.ofNat 32 (decodeLE bytes)).toInt_lt
      rw [decode, inRange_number, intMin, intMax]
      omega
  | longLong => exact absurd rfl short
  | bool =>
      apply inRange_of_not_number
      intro number same
      cases same
  | charArray size =>
      apply inRange_of_not_number
      intro number same
      cases same

/-- The member that holds a terminated string, if it is one of characters. -/
def StringTerminated (ctype : CType) (bytes : List UInt8) : Prop :=
  ∀ size, ctype = .charArray size → Terminated bytes

/-- A value written, printed, parsed and stored again is the same exactly when
it is no number or one in the range of `int`. -/
theorem decode_nodeBytes_eq_iff {ctype : CType} {bytes : List UInt8}
    (sized : bytes.length = ctype.size)
    (terminated : StringTerminated ctype bytes) :
    decode ctype (nodeBytes ctype (reparse (valueItem (decode ctype bytes)))) =
        decode ctype bytes ↔
      InRange (decode ctype bytes) := by
  cases ctype with
  | unsignedChar =>
      have survives := unsigned_value_iff bytes (by rw [sized]; decide)
      rw [sized] at survives
      exact survives
  | unsignedInt =>
      have survives := unsigned_value_iff bytes (by rw [sized]; decide)
      rw [sized] at survives
      exact survives
  | int =>
      exact iff_of_true (congrArg ConfValue.number (int_survives _))
        (inRange_decode sized nofun nofun)
  | longLong =>
      exact number_survives_iff (longLong_survives_iff _)
  | bool =>
      exact iff_of_true (congrArg ConfValue.flag (bool_survives _))
        (inRange_of_not_number fun _ => nofun)
  | charArray size =>
      have shorter := length_cString_lt (terminated size rfl)
      rw [sized] at shorter
      exact iff_of_true
        (congrArg ConfValue.text
          (cString_strncpyBytes shorter (not_mem_cString _)))
        (inRange_of_not_number fun _ => nofun)

/-! ## The objects that are written -/

/-- The child a member is written as. -/
def memberChild (conf : Conf) (member : Member) : Option Text × Node :=
  (some member.key, valueItem (value conf member.field))

theorem child_addMembers (conf : Conf) (members : List Member)
    (object : Node) :
    (addMembers conf members object).child =
      object.child ++ members.map (memberChild conf) := by
  induction members generalizing object with
  | nil => exact (List.append_nil _).symm
  | cons member members ih =>
      rw [addMembers, List.foldl_cons, List.map_cons, List.append_cons]
      exact ih _

/-- The member is written under the key, up to the case of letters. -/
def WrittenUnder (key : Text) (field : ConfField) (members : List Member) :
    Prop :=
  ∃ member ∈ members, foldCase member.key = foldCase key ∧
    member.field = field

instance (key : Text) (field : ConfField) (members : List Member) :
    Decidable (WrittenUnder key field members) :=
  inferInstanceAs (Decidable (∃ _ ∈ members, _))

/-- A member is found in any object that starts with distinct members. -/
theorem getObjectItem_member {conf : Conf} {key : Text} {field : ConfField}
    {members : List Member} {object : Node} {rest : List (Option Text × Node)}
    (written : WrittenUnder key field members)
    (holds : object.child = members.map (memberChild conf) ++ rest)
    (distinct : (object.child.map fun entry =>
      Option.map foldCase entry.1).Nodup) :
    getObjectItem object key = some (valueItem (value conf field)) := by
  obtain ⟨member, listed, sameKey, rfl⟩ := written
  have named : some (foldCase key) =
      Option.map foldCase (some member.key) := by
    rw [Option.map_some, sameKey]
  rw [getObjectItem, named]
  apply find_of_mem distinct
  rw [holds]
  exact List.mem_append_left _ (List.mem_map_of_mem listed)

/-- The objects that follow the members of the root. -/
def nestedChild (conf : Conf) : List (Option Text × Node) :=
  [(some (ascii "detAlarm"), addMembers conf detAlarmMembers createObject),
    (some (ascii "prePoint"), addMembers conf prePointMembers createObject),
    (some (ascii "awsConf"), addMembers conf awsConfMembers createObject),
    (some (ascii "alarmchConf"),
      addMembers conf alarmchConfMembers createObject),
    (some (ascii "recordConf"), addMembers conf recordConfMembers createObject)]

theorem child_appsetConfTree (conf : Conf) :
    (appsetConfTree conf).child =
      topMembers.map (memberChild conf) ++ nestedChild conf := by
  have added : ∀ (object item : Node) (key : Text),
      (addItemToObject object key item).child =
        object.child ++ [(some key, item)] := fun _ _ _ => rfl
  have empty : createObject.child = [] := rfl
  rw [appsetConfTree]
  simp only [added, child_addMembers conf topMembers, empty, nestedChild,
    List.append_assoc, List.cons_append, List.nil_append]

theorem nodup_root_keys (conf : Conf) :
    ((appsetConfTree conf).child.map fun entry =>
      Option.map foldCase entry.1).Nodup := by
  rw [child_appsetConfTree, List.map_append, List.map_map]
  show ((topMembers.map fun member => some (foldCase member.key)) ++
    [some (foldCase (ascii "detAlarm")), some (foldCase (ascii "prePoint")),
      some (foldCase (ascii "awsConf")),
      some (foldCase (ascii "alarmchConf")),
      some (foldCase (ascii "recordConf"))]).Nodup
  decide +kernel

theorem getObjectItem_nested {conf : Conf} {key : Text} {object : Node}
    (nested : (some key, object) ∈ nestedChild conf) :
    getObjectItem (reparse (appsetConfTree conf)) key =
      some (reparse object) := by
  have listed : (some key, object) ∈ (appsetConfTree conf).child := by
    rw [child_appsetConfTree]
    exact List.mem_append_right _ nested
  have found := find_of_mem (nodup_root_keys conf) listed
  rw [getObjectItem_reparse, getObjectItem]
  rw [Option.map_some] at found
  rw [found, Option.map_some]

/-! ## Reading one object after the other -/

/-- A reading in its object. -/
abbrev Placed := Node × Reading

def readPlaced (conf : Conf) (placed : Placed) : Conf :=
  readField placed.1 conf placed.2

theorem load_readField_same {object item : Node} {reading : Reading}
    (conf : Conf) (found : getObjectItem object reading.key = some item) :
    load confLayout (readField object conf reading) reading.field =
      nodeBytes reading.field.ctype item := by
  rw [readField, found]
  exact load_store_same (length_nodeBytes _ _)

theorem load_readField_other {reading : Reading} {field : ConfField}
    (object : Node) (conf : Conf) (differ : field ≠ reading.field) :
    load confLayout (readField object conf reading) field =
      load confLayout conf field := by
  rw [readField]
  split
  · exact load_store_other _ differ
  · split
    · exact load_store_other _ differ
    · rfl

theorem load_foldl_readPlaced_other {placed : List Placed} {field : ConfField}
    (conf : Conf) (absent : field ∉ placed.map (·.2.field)) :
    load confLayout (placed.foldl readPlaced conf) field =
      load confLayout conf field := by
  induction placed generalizing conf with
  | nil => rfl
  | cons head placed ih =>
      rw [List.map_cons, List.mem_cons, not_or] at absent
      rw [List.foldl_cons, ih _ absent.2]
      exact load_readField_other head.1 conf absent.1

/-- Of readings into distinct members, each leaves what it reads. -/
theorem load_foldl_readPlaced {placed : List Placed} {object item : Node}
    {reading : Reading} (conf : Conf)
    (distinct : (placed.map (·.2.field)).Nodup)
    (listed : (object, reading) ∈ placed)
    (found : getObjectItem object reading.key = some item) :
    load confLayout (placed.foldl readPlaced conf) reading.field =
      nodeBytes reading.field.ctype item := by
  induction placed generalizing conf with
  | nil => cases listed
  | cons head placed ih =>
      rw [List.map_cons, List.nodup_cons] at distinct
      rw [List.foldl_cons]
      rcases List.mem_cons.mp listed with rfl | later
      · rw [load_foldl_readPlaced_other _ distinct.1]
        exact load_readField_same conf found
      · exact ih _ distinct.2 later

/-! ## Reading what was written -/

/-- The member whose key a member is read from. -/
def readFrom : ConfField → ConfField
  | .timezone => .timeZoneId
  | field => field

/-- A reading finds the node its member, or the one read instead, is written
as. -/
def Finds (conf : Conf) (placed : Placed) : Prop :=
  getObjectItem placed.1 placed.2.key =
    some (reparse (valueItem (value conf (readFrom placed.2.field))))

theorem finds_object {conf : Conf} {members : List Member}
    {readings : List Reading} {object : Node}
    {rest : List (Option Text × Node)}
    (written : ∀ reading ∈ readings,
      WrittenUnder reading.key (readFrom reading.field) members)
    (holds : object.child = members.map (memberChild conf) ++ rest)
    (distinct : (object.child.map fun entry =>
      Option.map foldCase entry.1).Nodup) :
    ∀ placed ∈ readings.map (reparse object, ·), Finds conf placed := by
  intro placed listed
  obtain ⟨reading, isReading, rfl⟩ := List.mem_map.mp listed
  rw [Finds, getObjectItem_reparse,
    getObjectItem_member (written reading isReading) holds distinct,
    Option.map_some]

theorem finds_nested {conf : Conf} {members : List Member}
    {readings : List Reading}
    (written : ∀ reading ∈ readings,
      WrittenUnder reading.key (readFrom reading.field) members)
    (distinct :
      (members.map fun member => some (foldCase member.key)).Nodup) :
    ∀ placed ∈ readings.map
        (reparse (addMembers conf members createObject), ·),
      Finds conf placed := by
  have holds := child_addMembers conf members createObject
  have empty : createObject.child = [] := rfl
  rw [empty, List.nil_append] at holds
  have alone : (addMembers conf members createObject).child =
      members.map (memberChild conf) ++ [] := by
    rw [holds, List.append_nil]
  apply finds_object written alone
  rw [holds, List.map_map]
  exact distinct

/-- Every reading of `jsonToAppsetConf`, in the object it looks at. -/
def placedReadings (conf : Conf) : List Placed :=
  topReadings.map (reparse (appsetConfTree conf), ·) ++
    (awsConfReadings.map
        (reparse (addMembers conf awsConfMembers createObject), ·) ++
      (prePointReadings.map
          (reparse (addMembers conf prePointMembers createObject), ·) ++
        (detAlarmReadings.map
            (reparse (addMembers conf detAlarmMembers createObject), ·) ++
          (alarmchConfReadings.map
              (reparse (addMembers conf alarmchConfMembers createObject), ·) ++
            recordConfReadings.map
              (reparse (addMembers conf recordConfMembers createObject), ·)))))

theorem readObject_nested {written : Conf} {key : Text} {object : Node}
    (listed : (some key, object) ∈ nestedChild written)
    (readings : List Reading) (absent : List (ConfField × List UInt8))
    (conf : Conf) :
    readObject (reparse (appsetConfTree written)) key readings absent conf =
      (readings.map (reparse object, ·)).foldl readPlaced conf := by
  rw [readObject, getObjectItem_nested listed, List.foldl_map]
  rfl

theorem readTree_appsetConfTree (written conf : Conf) :
    readTree (reparse (appsetConfTree written)) conf =
      (placedReadings written).foldl readPlaced conf := by
  have top : readFields (reparse (appsetConfTree written)) topReadings conf =
      (topReadings.map (reparse (appsetConfTree written), ·)).foldl readPlaced
        conf := by
    rw [List.foldl_map]
    rfl
  have aws : (some (ascii "awsConf"), addMembers written awsConfMembers
      createObject) ∈ nestedChild written := by simp [nestedChild]
  have point : (some (ascii "prePoint"), addMembers written prePointMembers
      createObject) ∈ nestedChild written := by simp [nestedChild]
  have alarm : (some (ascii "detAlarm"), addMembers written detAlarmMembers
      createObject) ∈ nestedChild written := by simp [nestedChild]
  have schedule : (some (ascii "alarmchConf"), addMembers written
      alarmchConfMembers createObject) ∈ nestedChild written := by
    simp [nestedChild]
  have record : (some (ascii "recordConf"), addMembers written
      recordConfMembers createObject) ∈ nestedChild written := by
    simp [nestedChild]
  rw [readTree, placedReadings, List.foldl_append, List.foldl_append,
    List.foldl_append, List.foldl_append, List.foldl_append, ← top]
  rw [readObject_nested record, readObject_nested schedule,
    readObject_nested alarm, readObject_nested point, readObject_nested aws]

theorem finds_placedReadings (conf : Conf) :
    ∀ placed ∈ placedReadings conf, Finds conf placed := by
  intro placed listed
  rw [placedReadings] at listed
  simp only [List.mem_append] at listed
  rcases listed with inTop | inAws | inPoint | inAlarm | inSchedule | inRecord
  · exact finds_object (by decide) (child_appsetConfTree conf)
      (nodup_root_keys conf) placed inTop
  · exact finds_nested (by decide) (by decide) placed inAws
  · exact finds_nested (by decide) (by decide) placed inPoint
  · exact finds_nested (by decide) (by decide) placed inAlarm
  · exact finds_nested (by decide) (by decide) placed inSchedule
  · exact finds_nested (by decide) (by decide) placed inRecord

/-- The members that are read, in order. -/
def readingFields : List ConfField :=
  (topReadings ++ (awsConfReadings ++ (prePointReadings ++
    (detAlarmReadings ++ (alarmchConfReadings ++ recordConfReadings))))).map
      Reading.field

theorem map_placedReadings (conf : Conf) :
    (placedReadings conf).map (·.2.field) = readingFields := by
  simp only [placedReadings, readingFields, List.map_append, List.map_map]
  rfl

theorem nodup_readingFields : readingFields.Nodup := by
  decide

theorem mem_readingFields {field : ConfField} (other : field ≠ .timeZoneId) :
    field ∈ readingFields := by
  cases field <;> first | exact absurd rfl other | decide

theorem timeZoneId_not_mem_readingFields :
    ConfField.timeZoneId ∉ readingFields := by
  decide

/-- A member that is read holds what was written under its key. -/
theorem value_readTree {written conf : Conf} {field : ConfField}
    (other : field ≠ .timeZoneId) :
    value (readTree (reparse (appsetConfTree written)) conf) field =
      decode field.ctype (nodeBytes field.ctype
        (reparse (valueItem (value written (readFrom field))))) := by
  have isRead := mem_readingFields other
  rw [← map_placedReadings written] at isRead
  obtain ⟨⟨object, reading⟩, listed, rfl⟩ := List.mem_map.mp isRead
  have distinct : ((placedReadings written).map (·.2.field)).Nodup := by
    rw [map_placedReadings]
    exact nodup_readingFields
  have found := finds_placedReadings written _ listed
  rw [value, readTree_appsetConfTree,
    load_foldl_readPlaced conf distinct listed found]

theorem value_readTree_timeZoneId (written conf : Conf) :
    value (readTree (reparse (appsetConfTree written)) conf) .timeZoneId =
      value conf .timeZoneId := by
  rw [value, readTree_appsetConfTree, load_foldl_readPlaced_other]
  · rfl
  · rw [map_placedReadings]
    exact timeZoneId_not_mem_readingFields

theorem value_setDefaultConf_timeZoneId (ofApp : Bool) (conf : Conf) :
    value (setDefaultConf ofApp conf) .timeZoneId = value conf .timeZoneId := by
  have first : load confLayout (storeAll defaultFields conf) .timeZoneId =
      load confLayout conf .timeZoneId :=
    load_storeAll_other (by decide)
  have second : load confLayout (storeAll defaultAppFields
      (storeAll defaultFields conf)) .timeZoneId =
      load confLayout (storeAll defaultFields conf) .timeZoneId :=
    load_storeAll_other (by decide)
  rw [value, value, setDefaultConf]
  split
  · rw [second, first]
  · rw [first]

/-! ## The round trip -/

def StringsTerminated (conf : Conf) : Prop :=
  ∀ field : ConfField,
    StringTerminated field.ctype (load confLayout conf field)

/-- The members `appsetConfToJson` writes. -/
def writtenMembers : List Member :=
  topMembers ++ detAlarmMembers ++ prePointMembers ++ awsConfMembers ++
    alarmchConfMembers ++ recordConfMembers

def Agree (written read : Conf) : Prop :=
  ∀ member ∈ writtenMembers,
    value read member.field = value written member.field

/-- The two time zone strings are the same in what is written and what is read
into, and the wide numbers are in the range of `int`. -/
structure Survives (written before : Conf) : Prop where
  timezone : value written .timezone = value written .timeZoneId
  timeZoneId : value before .timeZoneId = value written .timeZoneId
  version : InRange (value written .version)
  cloudStarTime : InRange (value written .cloudStarTime)
  cloudEndTime : InRange (value written .cloudEndTime)

theorem mem_writtenMembers (field : ConfField) :
    ∃ member ∈ writtenMembers, member.field = field := by
  cases field <;> decide

theorem agree_iff {written read : Conf} :
    Agree written read ↔ ∀ field, value read field = value written field := by
  constructor
  · intro agree field
    obtain ⟨member, listed, rfl⟩ := mem_writtenMembers field
    exact agree member listed
  · intro agree member _
    exact agree member.field

theorem value_readTree_eq_iff {written : Conf} (conf : Conf)
    (field : ConfField) (strings : StringsTerminated written)
    (other : field ≠ .timeZoneId) :
    value (readTree (reparse (appsetConfTree written)) conf) field =
        value written (readFrom field) ↔
      InRange (value written (readFrom field)) := by
  have sameType : (readFrom field).ctype = field.ctype := by
    cases field <;> rfl
  rw [value_readTree other, ← sameType]
  exact decode_nodeBytes_eq_iff length_load (strings (readFrom field))

/-- A configuration is written as JSON and read back into `before`. -/
def RoundTrips (print : Node → Text) (parse : Text → Option Node)
    (ofApp : Bool) (written before : Conf) : Prop :=
  (jsonToAppsetConf parse ofApp before (appsetConfToJson print written)).1 =
      0 ∧
    Agree written (jsonToAppsetConf parse ofApp before
      (appsetConfToJson print written)).2.1

theorem roundTrips_iff_values {print : Node → Text}
    {parse : Text → Option Node} (ofApp : Bool) {written : Conf}
    (before : Conf)
    (parses : parse (appsetConfToJson print written) =
      some (reparse (appsetConfTree written))) :
    RoundTrips print parse ofApp written before ↔
      ∀ field, value (readTree (reparse (appsetConfTree written))
        (setDefaultConf ofApp before)) field = value written field := by
  rw [RoundTrips, jsonToAppsetConf, parses, ← agree_iff]
  simp only [true_and]

/-- A member other than the time zone strings and the wide numbers is always
read back. -/
theorem inRange_value (conf : Conf) {field : ConfField}
    (narrow : field ≠ .version) (notStar : field ≠ .cloudStarTime)
    (notEnd : field ≠ .cloudEndTime) : InRange (value conf field) := by
  apply inRange_decode length_load
  · cases field <;> first | exact absurd rfl narrow | nofun
  · cases field <;>
      first | exact absurd rfl notStar | exact absurd rfl notEnd | nofun

/-- What is read is what was written exactly when the time zone strings are the
same already and the wide numbers are in the range of `int`. -/
theorem jsonToAppsetConf_agrees_iff {print : Node → Text}
    {parse : Text → Option Node} (ofApp : Bool) {written : Conf}
    (before : Conf) (strings : StringsTerminated written)
    (parses : parse (appsetConfToJson print written) =
      some (reparse (appsetConfTree written))) :
    RoundTrips print parse ofApp written before ↔ Survives written before := by
  have kept : ∀ field, field ≠ ConfField.timeZoneId → _ :=
    fun field other =>
      value_readTree_eq_iff (setDefaultConf ofApp before) field strings other
  have zone := (kept .timezone (by decide)).mpr
    (inRange_of_not_number fun _ => nofun)
  have zoneId := (value_readTree_timeZoneId written
    (setDefaultConf ofApp before)).trans
      (value_setDefaultConf_timeZoneId ofApp before)
  rw [roundTrips_iff_values ofApp before parses]
  generalize readTree (reparse (appsetConfTree written))
    (setDefaultConf ofApp before) = read at kept zone zoneId
  constructor
  · intro agree
    exact
      { timezone := (agree .timezone).symm.trans zone
        timeZoneId := zoneId.symm.trans (agree .timeZoneId)
        version := (kept .version (by decide)).mp (agree .version)
        cloudStarTime :=
          (kept .cloudStarTime (by decide)).mp (agree .cloudStarTime)
        cloudEndTime :=
          (kept .cloudEndTime (by decide)).mp (agree .cloudEndTime) }
  · intro survives field
    by_cases isZone : field = .timezone
    · rw [isZone, survives.timezone]
      exact zone
    · by_cases isZoneId : field = .timeZoneId
      · rw [isZoneId]
        exact zoneId.trans survives.timeZoneId
      · have own : readFrom field = field := by
          cases field <;> first | rfl | exact absurd rfl isZone
        have read := kept field isZoneId
        rw [own] at read
        apply read.mpr
        by_cases isVersion : field = .version
        · exact isVersion ▸ survives.version
        · by_cases isStar : field = .cloudStarTime
          · exact isStar ▸ survives.cloudStarTime
          · by_cases isEnd : field = .cloudEndTime
            · exact isEnd ▸ survives.cloudEndTime
            · exact inRange_value written isVersion isStar isEnd

/-- A configuration of zeros. -/
def confZero : Conf :=
  ⟨List.replicate 4096 0, List.length_replicate⟩

theorem load_confZero (field : ConfField) :
    load confLayout confZero field =
      List.replicate field.ctype.size 0 := by
  have inside := confLayout.inside field
  show ((List.replicate 4096 0).drop field.span.offset).take
    field.ctype.size = _
  rw [List.drop_replicate, List.take_replicate]
  congr 1
  show min field.ctype.size (4096 - field.span.offset) = field.ctype.size
  have fits : field.span.offset + field.ctype.size ≤ 4096 := inside
  omega

theorem stringsTerminated_confZero : StringsTerminated confZero := by
  intro field size isArray
  rw [load_confZero]
  apply List.mem_replicate.mpr
  refine ⟨?_, rfl⟩
  cases field <;> decide

/-- The configuration of zeros is read back into itself. -/
theorem confZero_agrees :
    RoundTrips (printNode 0) (parseOnly (appsetConfTree confZero)) true
      confZero confZero :=
  (jsonToAppsetConf_agrees_iff true confZero stringsTerminated_confZero
    (parseOnly_printNode _)).mpr
    { timezone := by
        rw [value, value, load_confZero, load_confZero]
        rfl
      timeZoneId := rfl
      version := by
        rw [value, load_confZero]
        exact inRange_number.mpr (by decide)
      cloudStarTime := by
        rw [value, load_confZero]
        exact inRange_number.mpr (by decide)
      cloudEndTime := by
        rw [value, load_confZero]
        exact inRange_number.mpr (by decide) }

/-- A configuration of zeros, but for its time zone. -/
def confUtc : Conf :=
  store confLayout confZero .timezone (strncpyBytes (ascii "UTC") 64)

theorem load_confUtc_timezone :
    load confLayout confUtc .timezone = strncpyBytes (ascii "UTC") 64 :=
  load_store_same (length_strncpyBytes (ascii "UTC") 64)

theorem stringsTerminated_confUtc : StringsTerminated confUtc := by
  intro field size isArray
  by_cases isZone : field = .timezone
  · rw [isZone, load_confUtc_timezone]
    decide
  · rw [confUtc, load_store_other _ isZone]
    exact stringsTerminated_confZero field size isArray

/-- A time zone without its identifier is not read back. -/
theorem not_forall_appsetConf_agrees :
    ¬ ∀ (print : Node → Text) (parse : Text → Option Node) (ofApp : Bool)
      (written before : Conf), StringsTerminated written →
        parse (appsetConfToJson print written) =
          some (reparse (appsetConfTree written)) →
        RoundTrips print parse ofApp written before := by
  intro all
  have trips := all (printNode 0) (parseOnly (appsetConfTree confUtc)) true
    confUtc confZero stringsTerminated_confUtc (parseOnly_printNode _)
  have agree := (roundTrips_iff_values true confZero
    (parseOnly_printNode _)).mp trips .timezone
  have zone := (value_readTree_eq_iff (setDefaultConf true confZero) .timezone
    stringsTerminated_confUtc (by decide)).mpr
      (inRange_of_not_number fun _ => nofun)
  have written : value confUtc .timezone = .text (ascii "UTC") := by
    rw [value, load_confUtc_timezone]
    decide
  have identifier : value confUtc (readFrom .timezone) = .text [] := by
    rw [readFrom, value, confUtc, load_store_other _ (by decide),
      load_confZero]
    decide
  rw [zone, written, identifier] at agree
  exact absurd agree (by decide)

end DevParam

end MbedtlsKcp
