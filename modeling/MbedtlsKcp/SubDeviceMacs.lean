import MbedtlsKcp.CJsonText

/-!
# The sub-device MAC file

`DEV_PARAM_update_sub_mac` looks for the pair of MACs and appends it when it is
not there, while `DEV_PARAM_get_sub_ble_mac` answers with the first entry of
the wifi MAC.  Both read the file through fields of 64 bytes.
-/

namespace MbedtlsKcp

namespace SubMac

open ByteBuffers CStrings CJson

/-- `sizeof(mac_list[idx].bleMac)`. -/
def macSize : Nat := 64

/-- A MAC field: an array whose last byte is never written. -/
structure MacField where
  bytes : List UInt8
  size : bytes.length = macSize
  ends : bytes.drop (macSize - 1) = [0]

/-- A field as `calloc` returns it. -/
def MacField.zero : MacField :=
  ⟨List.replicate macSize 0, rfl, rfl⟩

theorem length_strncpyBytes_le (field : MacField) (source : Text) :
    0 + (strncpyBytes source (macSize - 1)).length ≤ field.bytes.length := by
  rw [length_strncpyBytes, field.size]
  decide

theorem strncpy_bytes (field : MacField) (source : Text) :
    strncpy field.bytes source (macSize - 1) =
      strncpyBytes source (macSize - 1) ++ [0] := by
  rw [strncpy, overwrite, List.take_zero, List.nil_append, length_strncpyBytes,
    Nat.zero_add, field.ends]

/-- `strncpy(field, source, sizeof(field) - 1)`. -/
def MacField.copy (field : MacField) (source : Text) : MacField where
  bytes := strncpy field.bytes source (macSize - 1)
  size := by
    rw [strncpy, length_overwrite (length_strncpyBytes_le field source), field.size]
  ends := by
    rw [strncpy_bytes]
    exact List.drop_left' (length_strncpyBytes _ _)

/-- `sub_mac_conf`. -/
structure Conf where
  bleMac : MacField
  wifiMac : MacField

def Conf.zero : Conf :=
  ⟨MacField.zero, MacField.zero⟩

/-- The field once the item, if it is a string, is copied. -/
def MacField.copyItem (field : MacField) (item : Option Node) : MacField :=
  match item with
  | none => field
  | some mac =>
      if isString mac then field.copy (mac.valuestring.getD []) else field

/-- What the loop of `DEV_PARAM_get_sub_mac` stores of an object. -/
def Conf.copyItem (entry : Conf) (item : Node) : Conf where
  bleMac := entry.bleMac.copyItem (getObjectItem item (ascii "ble_mac"))
  wifiMac := entry.wifiMac.copyItem (getObjectItem item (ascii "wifi_mac"))

/-- `cJSON_ArrayForEach(item, sub_mac_array)`. -/
def fill (list : List Conf) (idx : Nat) :
    List (Option Text × Node) → List Conf
  | [] => list
  | member :: rest =>
      if isObject member.2 then
        if list.length ≤ idx + 1 then
          list.modify idx (·.copyItem member.2)
        else
          fill (list.modify idx (·.copyItem member.2)) (idx + 1) rest
      else fill list idx rest

/-- The entries made of a parsed file; `none` where the list is missing. -/
def macList (root : Node) : Option (List Conf) :=
  match getObjectItem root (ascii "sub_mac") with
  | none => none
  | some array =>
      if isArray array then
        some (fill (List.replicate array.child.length Conf.zero) 0 array.child)
      else none

/-- `DEV_PARAM_get_sub_mac`; `none` when it returns -1. -/
def getSubMac (parse : Text → Option Node) (file : Option Text) :
    Option (List Conf) :=
  match file with
  | none => none
  | some text => (parse text).bind macList

/-- `strncmp(entry.wifiMac, wifiMac, sizeof(entry.wifiMac)) == 0`. -/
def Conf.hasWifi (wifiMac : Text) (entry : Conf) : Bool :=
  (cString entry.wifiMac.bytes).take macSize = wifiMac.take macSize

/-- `DEV_PARAM_get_sub_ble_mac`: what it returns and the buffer after it. -/
def getSubBleMac (parse : Text → Option Node) (file : Option Text)
    (wifiMac : Text) (bleMacOut : List UInt8) (bleMacOutSize : Nat) :
    Int × List UInt8 :=
  if bleMacOutSize = 0 ∨ wifiMac = [] then (-1, bleMacOut)
  else
    match getSubMac parse file with
    | none => (-1, bleMacOut)
    | some list =>
        match list.find? (Conf.hasWifi wifiMac) with
        | none => (-1, bleMacOut)
        | some entry =>
            (0, overwrite
              (strncpy bleMacOut (cString entry.bleMac.bytes)
                (bleMacOutSize - 1))
              (bleMacOutSize - 1) [0])

/-- How `COMM_NewFile` goes: the text is stored, the file is not opened, or so
many bytes of the text reach it before writing or closing fails. -/
inductive NewFile where
  | written
  | unopened
  | cut (stored : Nat)

/-- `COMM_NewFile`: what it returns and the file after it. -/
def commNewFile (outcome : NewFile) (text : Text) (file : Option Text) :
    Int × Option Text :=
  match outcome with
  | .written => (0, some text)
  | .unopened => (-1, file)
  | .cut stored => (-1, some (text.take stored))

def newMac (subBleMac subWifiMac : Text) : Node :=
  addItemToObject
    (addItemToObject createObject (ascii "ble_mac") (createString subBleMac))
    (ascii "wifi_mac") (createString subWifiMac)

/-- The tree written when there is no file. -/
def created (subBleMac subWifiMac : Text) : Node :=
  addItemToObject createObject (ascii "sub_mac")
    (addItemToArray createArray (newMac subBleMac subWifiMac))

/-- The tree of a file with the pair added to its list. -/
def appended (root : Node) (subBleMac subWifiMac : Text) : Option Node :=
  match getObjectItem root (ascii "sub_mac") with
  | none => none
  | some macArray =>
      if isArray macArray then
        some (setObjectItem root (ascii "sub_mac")
          (addItemToArray macArray (newMac subBleMac subWifiMac)))
      else none

/-- Both `strcmp` of the search are 0. -/
def Conf.isPair (subBleMac subWifiMac : Text) (entry : Conf) : Bool :=
  cString entry.bleMac.bytes = subBleMac ∧
    cString entry.wifiMac.bytes = subWifiMac

/-- `DEV_PARAM_update_sub_mac`: what it returns and the file after it.  Where
there is no file, what `COMM_NewFile` returns is dropped. -/
def updateSubMac (print : Node → Option Text) (parse : Text → Option Node)
    (file : Option Text) (outcome : NewFile) (subBleMac subWifiMac : Text) :
    Int × Option Text :=
  if subBleMac = [] ∨ subWifiMac = [] then (-1, file)
  else
    match file with
    | none =>
        match print (created subBleMac subWifiMac) with
        | none => (0, none)
        | some jsonString => (0, (commNewFile outcome jsonString none).2)
    | some text =>
        match getSubMac parse (some text) with
        | none => (-1, some text)
        | some list =>
            if list.any (Conf.isPair subBleMac subWifiMac) then (0, some text)
            else
              match (parse text).bind (appended · subBleMac subWifiMac) with
              | none => (-1, some text)
              | some root =>
                  match print root with
                  | none => (-1, some text)
                  | some jsonString =>
                      commNewFile outcome jsonString (some text)

/-! ## What a file stands for -/

/-- An entry as a key and its value. -/
def Conf.pair (entry : Conf) : Text × Text :=
  (cString entry.wifiMac.bytes, cString entry.bleMac.bytes)

/-- The pairs of a file, in order. -/
def contents (parse : Text → Option Node) (file : Option Text) :
    Option (List (Text × Text)) :=
  (getSubMac parse file).map (·.map Conf.pair)

/-- The MAC found under a wifi MAC. -/
def answer (parse : Text → Option Node) (file : Option Text) (wifiMac : Text) :
    Option Text :=
  (contents parse file).bind (·.lookup wifiMac)

theorem MacField.terminated (field : MacField) : Terminated field.bytes := by
  have last : (0 : UInt8) ∈ field.bytes.drop (macSize - 1) := by
    rw [field.ends]
    exact List.mem_singleton_self 0
  exact List.mem_of_mem_drop last

theorem MacField.length_cString (field : MacField) :
    (cString field.bytes).length < macSize := by
  rw [← field.size]
  exact length_cString_lt field.terminated

/-- A comparison of 64 bytes is one of the strings. -/
theorem Conf.hasWifi_iff (wifiMac : Text) (entry : Conf) :
    entry.hasWifi wifiMac = true ↔ entry.pair.1 = wifiMac := by
  have short := entry.wifiMac.length_cString
  rw [Conf.hasWifi, decide_eq_true_iff, Conf.pair,
    List.take_of_length_le (Nat.le_of_lt short)]
  constructor
  · intro same
    rw [same, List.length_take] at short
    have fits : wifiMac.length ≤ macSize := by omega
    rwa [List.take_of_length_le fits] at same
  · intro same
    rw [← same, List.take_of_length_le (Nat.le_of_lt short)]

theorem lookup_map_pair (wifiMac : Text) (list : List Conf) :
    (list.map Conf.pair).lookup wifiMac =
      (list.find? (Conf.hasWifi wifiMac)).map (·.pair.2) := by
  induction list with
  | nil => rfl
  | cons entry list ih =>
      rw [List.map_cons, List.lookup_cons, List.find?_cons]
      by_cases found : entry.pair.1 = wifiMac
      · have same : (wifiMac == entry.pair.1) = true := beq_iff_eq.mpr found.symm
        rw [same, (entry.hasWifi_iff wifiMac).mpr found]
        rfl
      · have other : (wifiMac == entry.pair.1) = false :=
          beq_eq_false_iff_ne.mpr fun same => found same.symm
        have notHas : entry.hasWifi wifiMac = false :=
          eq_false_of_ne_true (mt (entry.hasWifi_iff wifiMac).mp found)
        rw [other, notHas]
        exact ih

theorem any_isPair_iff (bleMac wifiMac : Text) (list : List Conf) :
    list.any (Conf.isPair bleMac wifiMac) = true ↔
      (wifiMac, bleMac) ∈ list.map Conf.pair := by
  simp only [List.any_eq_true, Conf.isPair, decide_eq_true_iff, List.mem_map,
    Conf.pair, Prod.mk.injEq]
  constructor
  · rintro ⟨entry, member, bleSame, wifiSame⟩
    exact ⟨entry, member, wifiSame, bleSame⟩
  · rintro ⟨entry, member, wifiSame, bleSame⟩
    exact ⟨entry, member, bleSame, wifiSame⟩

/-! ## Lookups -/

/-- What stands in the buffer after a MAC is copied out. -/
theorem cString_copyOut (bleMacOut : List UInt8) (bleMacOutSize : Nat)
    {mac : Text} (clear : 0 ∉ mac) :
    cString (overwrite (strncpy bleMacOut mac (bleMacOutSize - 1))
      (bleMacOutSize - 1) [0]) = mac.take (bleMacOutSize - 1) := by
  have front : (strncpy bleMacOut mac (bleMacOutSize - 1)).take
      (bleMacOutSize - 1) = strncpyBytes mac (bleMacOutSize - 1) := by
    rw [strncpy, overwrite, List.take_zero, List.nil_append]
    exact List.take_left' (length_strncpyBytes _ _)
  rw [overwrite, front, List.append_assoc, List.singleton_append]
  exact cString_strncpyBytes_append _ _ clear

theorem getSubBleMac_eq (parse : Text → Option Node) (file : Option Text)
    {wifiMac : Text} (bleMacOut : List UInt8) {bleMacOutSize : Nat}
    (notEmpty : wifiMac ≠ []) (positive : bleMacOutSize ≠ 0) :
    getSubBleMac parse file wifiMac bleMacOut bleMacOutSize =
      match answer parse file wifiMac with
      | none => (-1, bleMacOut)
      | some mac =>
          (0, overwrite (strncpy bleMacOut mac (bleMacOutSize - 1))
            (bleMacOutSize - 1) [0]) := by
  rw [getSubBleMac, if_neg (not_or.mpr ⟨positive, notEmpty⟩), answer, contents]
  cases getSubMac parse file with
  | none => rfl
  | some list =>
      rw [Option.map_some, Option.bind_some, lookup_map_pair]
      dsimp only
      cases list.find? (Conf.hasWifi wifiMac) with
      | none => rfl
      | some entry => rfl

theorem not_mem_of_answer {parse : Text → Option Node} {file : Option Text}
    {wifiMac mac : Text} (found : answer parse file wifiMac = some mac) :
    0 ∉ mac := by
  rw [answer, contents] at found
  obtain ⟨pairs, isPairs, inPairs⟩ := Option.bind_eq_some_iff.mp found
  obtain ⟨list, -, rfl⟩ := Option.map_eq_some_iff.mp isPairs
  rw [lookup_map_pair] at inPairs
  obtain ⟨entry, -, rfl⟩ := Option.map_eq_some_iff.mp inPairs
  exact not_mem_cString _

/-- The lookup yields the MAC in every buffer that has room for it. -/
def Yields (parse : Text → Option Node) (file : Option Text)
    (wifiMac bleMac : Text) : Prop :=
  ∀ (bleMacOut : List UInt8) (bleMacOutSize : Nat),
    bleMac.length < bleMacOutSize → bleMacOutSize ≤ bleMacOut.length →
      (getSubBleMac parse file wifiMac bleMacOut bleMacOutSize).1 = 0 ∧
        cString (getSubBleMac parse file wifiMac bleMacOut bleMacOutSize).2 =
          bleMac

theorem yields_iff {parse : Text → Option Node} {file : Option Text}
    {wifiMac : Text} (bleMac : Text) (notEmpty : wifiMac ≠ []) :
    Yields parse file wifiMac bleMac ↔
      answer parse file wifiMac = some bleMac := by
  constructor
  · intro yields
    cases found : answer parse file wifiMac with
    | none =>
        obtain ⟨returns, -⟩ := yields
          (List.replicate (bleMac.length + 1) 0) (bleMac.length + 1)
          (Nat.lt_succ_self _) (by rw [List.length_replicate])
        rw [getSubBleMac_eq _ _ _ notEmpty (Nat.succ_ne_zero _), found] at returns
        cases returns
    | some mac =>
        have room : (List.replicate (bleMac.length + mac.length + 1)
            (0 : UInt8)).length = bleMac.length + mac.length + 1 :=
          List.length_replicate
        obtain ⟨-, holds⟩ := yields _ (bleMac.length + mac.length + 1)
          (by omega) (Nat.le_of_eq room.symm)
        rw [getSubBleMac_eq _ _ _ notEmpty (Nat.succ_ne_zero _), found] at holds
        change cString (overwrite _ _ _) = _ at holds
        rw [cString_copyOut _ _ (not_mem_of_answer found), List.take_of_length_le (by omega)] at holds
        rw [holds]
  · intro found bleMacOut bleMacOutSize room inside
    have positive : bleMacOutSize ≠ 0 := by omega
    rw [getSubBleMac_eq _ _ _ notEmpty positive, found]
    refine ⟨rfl, ?_⟩
    change cString (overwrite _ _ _) = _
    rw [cString_copyOut _ _ (not_mem_of_answer found),
      List.take_of_length_le (by omega)]

/-- The lookup of a wifi MAC gives the same result in two files. -/
def SameLookup (parse : Text → Option Node) (before after : Option Text)
    (wifiMac : Text) : Prop :=
  ∀ (bleMacOut : List UInt8) (bleMacOutSize : Nat),
    getSubBleMac parse after wifiMac bleMacOut bleMacOutSize =
      getSubBleMac parse before wifiMac bleMacOut bleMacOutSize

theorem sameLookup_of_answer {parse : Text → Option Node}
    {before after : Option Text} {wifiMac : Text}
    (same : wifiMac ≠ [] →
      answer parse after wifiMac = answer parse before wifiMac) :
    SameLookup parse before after wifiMac := by
  intro bleMacOut bleMacOutSize
  by_cases rejected : bleMacOutSize = 0 ∨ wifiMac = []
  · rw [getSubBleMac, getSubBleMac, if_pos rejected, if_pos rejected]
  · obtain ⟨positive, notEmpty⟩ := not_or.mp rejected
    rw [getSubBleMac_eq _ _ _ notEmpty positive, getSubBleMac_eq _ _ _ notEmpty positive,
      same notEmpty]

/-! ## The entries of a tree -/

/-- The pairs that the objects of an array are read as. -/
def entries (child : List (Option Text × Node)) : List (Text × Text) :=
  (child.filter fun member => isObject member.2).map fun member =>
    (Conf.zero.copyItem member.2).pair

theorem entries_cons_object {member : Option Text × Node}
    (rest : List (Option Text × Node)) (object : isObject member.2 = true) :
    entries (member :: rest) =
      (Conf.zero.copyItem member.2).pair :: entries rest := by
  simp [entries, object]

theorem entries_cons_other {member : Option Text × Node}
    (rest : List (Option Text × Node)) (other : ¬ isObject member.2 = true) :
    entries (member :: rest) = entries rest := by
  simp [entries, other]

theorem modify_zero (stored : List Conf) (room : Nat) (item : Node) :
    (stored ++ List.replicate (room + 1) Conf.zero).modify stored.length
        (·.copyItem item) =
      stored ++ [Conf.zero.copyItem item] ++
        List.replicate room Conf.zero := by
  rw [List.replicate_succ, List.append_assoc, List.singleton_append]
  induction stored with
  | nil => rfl
  | cons entry stored ih =>
      rw [List.cons_append, List.length_cons, List.modify_succ_cons, ih]
      rfl

/-- The loop reads the objects in order; entries it has none for stay zero. -/
theorem map_pair_fill (stored : List Conf) {room : Nat}
    {child : List (Option Text × Node)}
    (fits : (entries child).length ≤ room) :
    (fill (stored ++ List.replicate room Conf.zero) stored.length child).map
        Conf.pair =
      stored.map Conf.pair ++ entries child ++
        List.replicate (room - (entries child).length) ([], []) := by
  induction child generalizing stored room with
  | nil =>
      rw [fill, entries, List.filter_nil, List.map_nil, List.append_nil,
        List.map_append, List.map_replicate]
      rfl
  | cons member rest ih =>
      rw [fill]
      by_cases object : isObject member.2 = true
      · have first := entries_cons_object rest object
        rw [first, List.length_cons] at fits
        obtain ⟨left, rfl⟩ := Nat.exists_eq_add_of_le' (Nat.le_of_succ_le fits)
        obtain ⟨room, isRoom⟩ : ∃ room, left + (entries rest).length =
            room + 1 := ⟨left + (entries rest).length - 1, by omega⟩
        have shorter : (entries rest).length ≤ room := by omega
        rw [if_pos object, first, isRoom, modify_zero, List.length_cons,
          Nat.add_sub_add_right, List.length_append, List.length_replicate]
        have later := ih (stored ++ [Conf.zero.copyItem member.2]) shorter
        rw [List.length_append, List.length_singleton] at later
        split
        case isTrue last =>
          have none : entries rest = [] := by
            rw [← List.length_eq_zero_iff]
            omega
          have full : room = 0 := by omega
          rw [none, full, List.map_append, List.map_append]
          rfl
        case isFalse =>
          rw [later, List.map_append, List.append_assoc (stored.map _)]
          rfl
      · rw [entries_cons_other rest object] at fits
        rw [if_neg object, entries_cons_other rest object]
        exact ih stored fits

/-- The list of a tree; `none` where it is missing. -/
def subMacs (root : Node) : Option (List (Option Text × Node)) :=
  match getObjectItem root (ascii "sub_mac") with
  | none => none
  | some array => if isArray array then some array.child else none

theorem length_entries_le (child : List (Option Text × Node)) :
    (entries child).length ≤ child.length := by
  rw [entries, List.length_map]
  exact List.length_filter_le _ _

theorem contents_eq {parse : Text → Option Node} {text : Text} {root : Node}
    (parsed : parse text = some root) :
    contents parse (some text) = (subMacs root).map fun child =>
      entries child ++
        List.replicate (child.length - (entries child).length) ([], []) := by
  rw [contents, getSubMac, parsed, Option.bind_some, macList, subMacs]
  cases getObjectItem root (ascii "sub_mac") with
  | none => rfl
  | some array =>
      dsimp only
      split
      case isTrue =>
        rw [Option.map_some, Option.map_some]
        congr 1
        exact map_pair_fill [] (length_entries_le array.child)
      case isFalse => rfl

theorem lookup_append_zero {wifiMac : Text} (pairs : List (Text × Text))
    (room : Nat) (notEmpty : wifiMac ≠ []) :
    (pairs ++ List.replicate room ([], [])).lookup wifiMac =
      pairs.lookup wifiMac := by
  have none : (List.replicate room (([], []) : Text × Text)).lookup wifiMac =
      none := by
    rw [List.lookup_eq_none_iff]
    intro pair member
    rw [List.eq_of_mem_replicate member]
    exact bne_iff_ne.mpr notEmpty
  rw [List.lookup_append, none, Option.or_none]

/-! ## Trees that are read back -/

theorem copyItem_reparse (field : MacField) (item : Option Node) :
    field.copyItem (item.map reparse) = field.copyItem item := by
  cases item with
  | none => rfl
  | some mac =>
      cases mac with
      | mk kind isReference stringIsConst valuestring valueint valuedouble child =>
          cases kind <;>
            rfl

theorem kind_reparse (node : Node) : (reparse node).kind = node.kind := by
  cases node
  rfl

theorem child_reparse (node : Node) :
    (reparse node).child = reparseChild node.child := by
  cases node
  rfl

theorem pair_copyItem_reparse (item : Node) :
    (Conf.zero.copyItem (reparse item)).pair = (Conf.zero.copyItem item).pair := by
  rw [Conf.copyItem, Conf.copyItem, getObjectItem_reparse,
    getObjectItem_reparse, copyItem_reparse, copyItem_reparse]

theorem entries_reparseChild (child : List (Option Text × Node)) :
    entries (reparseChild child) = entries child := by
  induction child with
  | nil => rfl
  | cons member rest ih =>
      have again : (reparseMember member).2 = reparse member.2 := by
        cases member
        rfl
      have kept : isObject (reparseMember member).2 = isObject member.2 := by
        rw [again, isObject, kind_reparse, isObject]
      rw [reparseChild]
      by_cases object : isObject member.2 = true
      · rw [entries_cons_object rest object,
          entries_cons_object _ (kept.trans object), again,
          pair_copyItem_reparse, ih]
      · rw [entries_cons_other rest object,
          entries_cons_other _ (kept.symm ▸ object), ih]

theorem subMacs_reparse (root : Node) :
    subMacs (reparse root) = (subMacs root).map reparseChild := by
  rw [subMacs, subMacs, getObjectItem_reparse]
  cases getObjectItem root (ascii "sub_mac") with
  | none => rfl
  | some array =>
      rw [Option.map_some]
      dsimp only
      rw [isArray, kind_reparse, ← isArray, child_reparse]
      split <;> rfl

/-! ## The tree that is written -/

theorem cString_copy_zero {source : Text} (clear : 0 ∉ source) :
    cString (MacField.zero.copy source).bytes = source.take (macSize - 1) := by
  have bytes : (MacField.zero.copy source).bytes =
      strncpyBytes source (macSize - 1) ++ [0] := strncpy_bytes _ source
  rw [bytes]
  exact cString_strncpyBytes_append _ [] clear

theorem pair_newMac {bleMac wifiMac : Text} (bleClear : 0 ∉ bleMac)
    (wifiClear : 0 ∉ wifiMac) :
    (Conf.zero.copyItem (newMac bleMac wifiMac)).pair =
      (wifiMac.take (macSize - 1), bleMac.take (macSize - 1)) := by
  have ble : getObjectItem (newMac bleMac wifiMac) (ascii "ble_mac") =
      some (createString bleMac) := rfl
  have wifi : getObjectItem (newMac bleMac wifiMac) (ascii "wifi_mac") =
      some (createString wifiMac) := rfl
  rw [Conf.copyItem, ble, wifi, Conf.pair]
  exact congrArg₂ Prod.mk (cString_copy_zero wifiClear)
    (cString_copy_zero bleClear)

theorem entries_append_newMac (child : List (Option Text × Node))
    {bleMac wifiMac : Text} (bleClear : 0 ∉ bleMac) (wifiClear : 0 ∉ wifiMac) :
    entries (child ++ [(none, newMac bleMac wifiMac)]) =
      entries child ++
        [(wifiMac.take (macSize - 1), bleMac.take (macSize - 1))] := by
  rw [entries, List.filter_append, List.map_append, ← entries,
    ← pair_newMac bleClear wifiClear]
  rfl

theorem subMacs_created (bleMac wifiMac : Text) :
    subMacs (created bleMac wifiMac) =
      some ([] ++ [(none, newMac bleMac wifiMac)]) := rfl

/-- A tree with a list can have the pair added to it. -/
theorem subMacs_appended {root : Node} {child : List (Option Text × Node)}
    (bleMac wifiMac : Text) (listed : subMacs root = some child) :
    ∃ tree, appended root bleMac wifiMac = some tree ∧
      subMacs tree = some (child ++ [(none, newMac bleMac wifiMac)]) := by
  rw [subMacs] at listed
  cases found : getObjectItem root (ascii "sub_mac") with
  | none =>
      rw [found] at listed
      cases listed
  | some array =>
      rw [found] at listed
      dsimp only at listed
      split at listed
      case isTrue isList =>
        cases listed
        have present : getObjectItem root (ascii "sub_mac") ≠ none := by
          rw [found]
          exact Option.some_ne_none _
        refine ⟨setObjectItem root (ascii "sub_mac")
          (addItemToArray array (newMac bleMac wifiMac)), ?_, ?_⟩
        · rw [appended, found]
          exact if_pos isList
        · rw [subMacs, getObjectItem_set_same present]
          exact if_pos isList
      case isFalse => cases listed

/-- The text of the tree is parsed to the tree, and nothing shorter is. -/
structure Faithful (print : Node → Option Text) (parse : Text → Option Node)
    (tree : Node) : Prop where
  loads : ∀ text, print tree = some text → parse text = some (reparse tree)
  fails : ∀ text, print tree = some text →
    ∀ stored < text.length, parse (text.take stored) = none

/-- The tree a call prints when it does not find the pair. -/
def printed (parse : Text → Option Node) (file : Option Text)
    (subBleMac subWifiMac : Text) : Option Node :=
  match file with
  | none => some (created subBleMac subWifiMac)
  | some text => (parse text).bind (appended · subBleMac subWifiMac)

section Stored

variable {print : Node → Option Text} {parse : Text → Option Node}
variable {tree : Node} {text bleMac wifiMac : Text}
variable {child : List (Option Text × Node)}

/-- The pairs of a stored text end in the new one. -/
theorem contents_stored (faithful : Faithful print parse tree)
    (prints : print tree = some text)
    (listed : subMacs tree = some (child ++ [(none, newMac bleMac wifiMac)]))
    (bleClear : 0 ∉ bleMac) (wifiClear : 0 ∉ wifiMac) :
    ∃ room, contents parse (some text) =
      some (entries child ++
        [(wifiMac.take (macSize - 1), bleMac.take (macSize - 1))] ++
          List.replicate room ([], [])) := by
  rw [contents_eq (faithful.loads text prints), subMacs_reparse, listed,
    Option.map_some, Option.map_some, entries_reparseChild,
    entries_append_newMac child bleClear wifiClear]
  exact ⟨_, rfl⟩

end Stored

theorem lengths_of_contents {parse : Text → Option Node} {file : Option Text}
    {pairs : List (Text × Text)} (isPairs : contents parse file = some pairs) :
    ∀ pair ∈ pairs, pair.1.length < macSize ∧ pair.2.length < macSize := by
  obtain ⟨list, -, rfl⟩ := Option.map_eq_some_iff.mp isPairs
  intro pair member
  obtain ⟨entry, -, rfl⟩ := List.mem_map.mp member
  exact ⟨entry.wifiMac.length_cString, entry.bleMac.length_cString⟩

theorem length_of_answer {parse : Text → Option Node} {file : Option Text}
    {wifiMac bleMac : Text} (found : answer parse file wifiMac = some bleMac) :
    wifiMac.length < macSize ∧ bleMac.length < macSize := by
  obtain ⟨pairs, isPairs, inPairs⟩ := Option.bind_eq_some_iff.mp found
  obtain ⟨front, rest, rfl, -⟩ := List.lookup_eq_some_iff.mp inPairs
  exact lengths_of_contents isPairs (wifiMac, bleMac)
    (List.mem_append_right _ List.mem_cons_self)

/-! ## One update -/

/-- The text reaches the file as a whole. -/
def NewFile.Whole (outcome : NewFile) (text : Text) : Prop :=
  match outcome with
  | .written => True
  | .unopened => False
  | .cut stored => text.length ≤ stored

instance (outcome : NewFile) (text : Text) : Decidable (outcome.Whole text) :=
  match outcome with
  | .written => inferInstanceAs (Decidable True)
  | .unopened => inferInstanceAs (Decidable False)
  | .cut stored => inferInstanceAs (Decidable (text.length ≤ stored))

theorem commNewFile_whole {outcome : NewFile} {text : Text}
    (file : Option Text) (whole : outcome.Whole text) :
    (commNewFile outcome text file).2 = some text := by
  cases outcome with
  | written => rfl
  | unopened => cases whole
  | cut stored => exact congrArg some (List.take_of_length_le whole)

/-- Nothing can be looked up in a new file that is not stored as a whole. -/
theorem answer_of_not_whole {print : Node → Option Text}
    {parse : Text → Option Node} {tree : Node} {text : Text}
    {outcome : NewFile} (faithful : Faithful print parse tree)
    (prints : print tree = some text) (notWhole : ¬ outcome.Whole text)
    (wifiMac : Text) :
    answer parse (commNewFile outcome text none).2 wifiMac = none := by
  cases outcome with
  | written => exact absurd trivial notWhole
  | unopened => rfl
  | cut stored =>
      have unparsed := faithful.fails text prints stored (Nat.lt_of_not_le notWhole)
      rw [commNewFile, answer, contents, getSubMac, unparsed]
      rfl

section Update

variable {print : Node → Option Text} {parse : Text → Option Node}
variable {file : Option Text} {outcome : NewFile} {bleMac wifiMac : Text}

/-- What a call that returns 0 can have done. -/
theorem updateSubMac_cases
    (returns : (updateSubMac print parse file outcome bleMac wifiMac).1 = 0) :
    (bleMac ≠ [] ∧ wifiMac ≠ []) ∧
      ((file = none ∧
          (updateSubMac print parse file outcome bleMac wifiMac).2 =
            match print (created bleMac wifiMac) with
            | none => none
            | some text => (commNewFile outcome text none).2) ∨
        (∃ pairs, contents parse file = some pairs ∧ (wifiMac, bleMac) ∈ pairs ∧
          (updateSubMac print parse file outcome bleMac wifiMac).2 = file) ∨
        ∃ pairs tree text, contents parse file = some pairs ∧
          (wifiMac, bleMac) ∉ pairs ∧
          printed parse file bleMac wifiMac = some tree ∧
          print tree = some text ∧
          (updateSubMac print parse file outcome bleMac wifiMac).2 =
            some text) := by
  unfold updateSubMac at returns ⊢
  split at returns
  case isTrue => cases returns
  case isFalse named =>
    rw [if_neg named]
    refine ⟨not_or.mp named, ?_⟩
    cases file with
    | none =>
        refine .inl ⟨rfl, ?_⟩
        cases print (created bleMac wifiMac) with
        | none => rfl
        | some text => rfl
    | some old =>
        right
        dsimp only at returns ⊢
        cases isList : getSubMac parse (some old) with
        | none =>
            rw [isList] at returns
            cases returns
        | some list =>
            have isPairs : contents parse (some old) =
                some (list.map Conf.pair) := by
              rw [contents, isList, Option.map_some]
            rw [isList] at returns
            dsimp only at returns ⊢
            by_cases isFound : list.any (Conf.isPair bleMac wifiMac) = true
            · rw [if_pos isFound]
              exact .inl ⟨_, isPairs, (any_isPair_iff _ _ _).mp isFound, rfl⟩
            · rw [if_neg isFound] at returns ⊢
              have notFound := mt (any_isPair_iff bleMac wifiMac list).mpr isFound
              cases isTree : printed parse (some old) bleMac wifiMac with
              | none =>
                  rw [printed] at isTree
                  rw [isTree] at returns
                  cases returns
              | some tree =>
                  rw [printed] at isTree
                  rw [isTree] at returns ⊢
                  dsimp only at returns ⊢
                  cases prints : print tree with
                  | none =>
                      rw [prints] at returns
                      cases returns
                  | some text =>
                      rw [prints] at returns
                      refine .inr ⟨_, tree, text, isPairs, notFound, rfl, prints, ?_⟩
                      cases outcome with
                      | written => rfl
                      | unopened => cases returns
                      | cut stored => cases returns

/-- A pair that is in the file is not written again. -/
theorem updateSubMac_of_mem {pairs : List (Text × Text)}
    (bleSome : bleMac ≠ []) (wifiSome : wifiMac ≠ [])
    (isPairs : contents parse file = some pairs)
    (member : (wifiMac, bleMac) ∈ pairs) :
    (updateSubMac print parse file outcome bleMac wifiMac).2 = file := by
  obtain ⟨list, isList, rfl⟩ := Option.map_eq_some_iff.mp isPairs
  have isFound := (any_isPair_iff bleMac wifiMac list).mpr member
  cases file with
  | none => cases isList
  | some old =>
      rw [updateSubMac, if_neg (not_or.mpr ⟨bleSome, wifiSome⟩), isList]
      dsimp only
      rw [if_pos isFound]

/-! ## The law of a map -/

/-- After an update the wifi MAC has the ble MAC, every other one has what it
had, and the same update changes nothing more. -/
structure MapLaw (print : Node → Option Text) (parse : Text → Option Node)
    (before after : Option Text) (bleMac wifiMac : Text) : Prop where
  yields : Yields parse after wifiMac bleMac
  others : ∀ other, 0 ∉ other → other ≠ wifiMac →
    SameLookup parse before after other
  again : ∀ outcome,
    (updateSubMac print parse after outcome bleMac wifiMac).2 = after

/-- When an update is one of a map: both MACs fit in their fields, the wifi MAC
is not there with another one, and a new file is stored as a whole. -/
structure Maps (print : Node → Option Text) (parse : Text → Option Node)
    (file : Option Text) (outcome : NewFile) (bleMac wifiMac : Text) :
    Prop where
  bleFits : bleMac.length < macSize
  wifiFits : wifiMac.length < macSize
  unpaired : ∀ found, answer parse file wifiMac = some found → found = bleMac
  stored : file = none →
    ∃ text, print (created bleMac wifiMac) = some text ∧ outcome.Whole text

theorem take_mac {mac : Text} (fits : mac.length < macSize) :
    mac.take (macSize - 1) = mac :=
  List.take_of_length_le (Nat.le_sub_one_of_lt fits)

section Added

variable {child : List (Option Text × Node)} {tree : Node} {text : Text}

/-- The pairs of a stored text, looked up. -/
theorem answer_stored (faithful : Faithful print parse tree)
    (prints : print tree = some text)
    (listed : subMacs tree = some (child ++ [(none, newMac bleMac wifiMac)]))
    (bleClear : 0 ∉ bleMac) (wifiClear : 0 ∉ wifiMac) {other : Text}
    (notEmpty : other ≠ []) :
    answer parse (some text) other =
      ((entries child).lookup other).or
        (if other = wifiMac.take (macSize - 1) then
          some (bleMac.take (macSize - 1))
        else none) := by
  obtain ⟨room, isPairs⟩ :=
    contents_stored faithful prints listed bleClear wifiClear
  rw [answer, isPairs, Option.bind_some, lookup_append_zero _ _ notEmpty,
    List.lookup_append, List.lookup_singleton]
  simp only [beq_iff_eq]

/-- A stored text obeys the law unless the wifi MAC had another ble MAC. -/
theorem mapLaw_stored (faithful : Faithful print parse tree)
    (prints : print tree = some text)
    (listed : subMacs tree = some (child ++ [(none, newMac bleMac wifiMac)]))
    (bleClear : 0 ∉ bleMac) (wifiClear : 0 ∉ wifiMac)
    (bleSome : bleMac ≠ []) (wifiSome : wifiMac ≠ [])
    (bleFits : bleMac.length < macSize) (wifiFits : wifiMac.length < macSize)
    (before : ∀ other, other ≠ [] →
      answer parse file other = (entries child).lookup other)
    (unpaired : ∀ found, answer parse file wifiMac = some found →
      found = bleMac) :
    MapLaw print parse file (some text) bleMac wifiMac := by
  have after : ∀ other, other ≠ [] → answer parse (some text) other =
      (answer parse file other).or
        (if other = wifiMac then some bleMac else none) := by
    intro other notEmpty
    rw [answer_stored faithful prints listed bleClear wifiClear notEmpty,
      take_mac wifiFits, take_mac bleFits, before other notEmpty]
  constructor
  case yields =>
    rw [yields_iff _ wifiSome, after wifiMac wifiSome, if_pos rfl]
    cases found : answer parse file wifiMac with
    | none => rfl
    | some mac => exact congrArg some (unpaired mac found)
  case others =>
    intro other _ differs
    apply sameLookup_of_answer
    intro notEmpty
    rw [after other notEmpty, if_neg differs, Option.or_none]
  case again =>
    intro outcome
    obtain ⟨room, isPairs⟩ :=
      contents_stored faithful prints listed bleClear wifiClear
    refine updateSubMac_of_mem bleSome wifiSome isPairs ?_
    rw [take_mac wifiFits, take_mac bleFits]
    exact List.mem_append_left _
      (List.mem_append_right _ (List.mem_singleton_self _))

end Added

/-- A list that had the pair already answers with the first one of its wifi
MAC. -/
theorem mapLaw_found {pairs : List (Text × Text)}
    (bleSome : bleMac ≠ []) (wifiSome : wifiMac ≠ [])
    (isPairs : contents parse file = some pairs)
    (member : (wifiMac, bleMac) ∈ pairs)
    (unpaired : ∀ found, answer parse file wifiMac = some found →
      found = bleMac) :
    MapLaw print parse file file bleMac wifiMac := by
  have isAnswer : answer parse file wifiMac = pairs.lookup wifiMac := by
    rw [answer, isPairs, Option.bind_some]
  constructor
  case yields =>
    rw [yields_iff _ wifiSome]
    cases found : answer parse file wifiMac with
    | none =>
        rw [isAnswer] at found
        exact absurd rfl (bne_iff_ne.mp
          (List.lookup_eq_none_iff.mp found _ member))
    | some mac => exact congrArg some (unpaired mac found)
  case others => exact fun other _ _ => sameLookup_of_answer fun _ => rfl
  case again =>
    exact fun outcome => updateSubMac_of_mem bleSome wifiSome isPairs member

/-- The tree of a file that has a list has one pair more. -/
theorem listed_of_printed {pairs : List (Text × Text)} {tree : Node}
    (isPairs : contents parse file = some pairs)
    (isTree : printed parse file bleMac wifiMac = some tree) :
    ∃ child, subMacs tree = some (child ++ [(none, newMac bleMac wifiMac)]) ∧
      ∀ other, other ≠ [] →
        answer parse file other = (entries child).lookup other := by
  cases file with
  | none => cases isPairs
  | some text =>
      obtain ⟨root, parsed, isAppended⟩ := Option.bind_eq_some_iff.mp isTree
      have seen := contents_eq parsed
      rw [isPairs] at seen
      obtain ⟨child, listed, rfl⟩ := Option.map_eq_some_iff.mp seen.symm
      obtain ⟨grown, same, more⟩ := subMacs_appended bleMac wifiMac listed
      rw [isAppended] at same
      cases same
      refine ⟨child, more, ?_⟩
      intro other notEmpty
      rw [answer, isPairs, Option.bind_some, lookup_append_zero _ _ notEmpty]

/-- An update that returns 0 obeys the law of a map exactly when both MACs fit,
the wifi MAC is not paired with another one, and a new file is stored. -/
theorem mapLaw_iff (bleClear : 0 ∉ bleMac) (wifiClear : 0 ∉ wifiMac)
    (faithful : ∀ tree, printed parse file bleMac wifiMac = some tree →
      Faithful print parse tree)
    (returns : (updateSubMac print parse file outcome bleMac wifiMac).1 = 0) :
    MapLaw print parse file
        (updateSubMac print parse file outcome bleMac wifiMac).2
        bleMac wifiMac ↔
      Maps print parse file outcome bleMac wifiMac := by
  obtain ⟨⟨bleSome, wifiSome⟩, outcomes⟩ := updateSubMac_cases returns
  rcases outcomes with ⟨isNone, after⟩ | ⟨pairs, isPairs, member, after⟩ |
    ⟨pairs, tree, text, isPairs, notMember, isTree, prints, after⟩
  · subst isNone
    rw [after]
    have stores := faithful _ rfl
    constructor
    · intro law
      have found := (yields_iff _ wifiSome).mp law.yields
      obtain ⟨wifiFits, bleFits⟩ := length_of_answer found
      refine ⟨bleFits, wifiFits, ?_, fun _ => ?_⟩
      · intro other absent
        cases absent
      cases prints : print (created bleMac wifiMac) with
      | none =>
          rw [prints] at found
          cases found
      | some text =>
          rw [prints] at found
          by_cases whole : outcome.Whole text
          · exact ⟨text, rfl, whole⟩
          · rw [answer_of_not_whole stores prints whole] at found
            cases found
    · intro maps
      obtain ⟨text, prints, whole⟩ := maps.stored rfl
      rw [prints]
      dsimp only
      rw [commNewFile_whole none whole]
      exact mapLaw_stored stores prints (subMacs_created bleMac wifiMac)
        bleClear wifiClear bleSome wifiSome maps.bleFits maps.wifiFits
        (fun _ _ => rfl) maps.unpaired
  · rw [after]
    constructor
    · intro law
      have found := (yields_iff _ wifiSome).mp law.yields
      obtain ⟨wifiFits, bleFits⟩ := length_of_answer found
      refine ⟨bleFits, wifiFits, ?_, ?_⟩
      · intro other isOther
        exact Option.some.inj (isOther.symm.trans found)
      · rintro rfl
        cases isPairs
    · intro maps
      exact mapLaw_found bleSome wifiSome isPairs member maps.unpaired
  · rw [after]
    have stores := faithful tree isTree
    obtain ⟨child, listed, before⟩ := listed_of_printed isPairs isTree
    constructor
    · intro law
      have found := (yields_iff _ wifiSome).mp law.yields
      obtain ⟨wifiFits, bleFits⟩ := length_of_answer found
      refine ⟨bleFits, wifiFits, ?_, ?_⟩
      · intro other isOther
        rw [answer_stored stores prints listed bleClear wifiClear wifiSome,
          ← before wifiMac wifiSome, isOther] at found
        exact Option.some.inj found
      · rintro rfl
        cases isPairs
    · intro maps
      exact mapLaw_stored stores prints listed bleClear wifiClear bleSome
        wifiSome maps.bleFits maps.wifiFits before maps.unpaired

end Update

/-! ## A wifi MAC that is paired again -/

/-- A parser of one file that starts with a blank, and of one printed tree. -/
def parseEither (old tree : Node) (text : Text) : Option Node :=
  if text = 32 :: printNode 0 old then some (reparse old)
  else parseOnly tree text

theorem faithful_parseEither (old : Node) {tree : Node}
    (isObject : tree.kind = .object) :
    Faithful (fun node => some (printNode 0 node)) (parseEither old tree)
      tree := by
  obtain ⟨rest, starts⟩ : ∃ rest, printNode 0 tree = 123 :: rest := by
    cases tree
    cases isObject
    rw [printNode]
    exact ⟨_, rfl⟩
  constructor
  case loads =>
    intro text isText
    cases isText
    have other : printNode 0 tree ≠ 32 :: printNode 0 old := by
      rw [starts]
      intro same
      cases congrArg List.head? same
    rw [parseEither, if_neg other, parseOnly_printNode]
  case fails =>
    intro text isText stored shorter
    cases isText
    have cutShort : (printNode 0 tree).take stored ≠ printNode 0 tree := by
      intro same
      have lengths := congrArg List.length same
      rw [List.length_take] at lengths
      omega
    have other : (printNode 0 tree).take stored ≠ 32 :: printNode 0 old := by
      rw [starts]
      intro same
      cases stored with
      | zero => cases same
      | succ stored => cases congrArg List.head? same
    rw [parseEither, if_neg other, parseOnly, if_neg cutShort]

/-- A first pair makes the file. -/
theorem mapLaw_first :
    MapLaw (fun node => some (printNode 0 node))
        (parseEither createObject (created (ascii "A1") (ascii "C3"))) none
        (updateSubMac (fun node => some (printNode 0 node))
          (parseEither createObject (created (ascii "A1") (ascii "C3"))) none
          .written (ascii "A1") (ascii "C3")).2
        (ascii "A1") (ascii "C3") ↔
      Maps (fun node => some (printNode 0 node))
        (parseEither createObject (created (ascii "A1") (ascii "C3"))) none
        .written (ascii "A1") (ascii "C3") := by
  refine mapLaw_iff (by decide) (by decide) ?_ rfl
  intro tree isTree
  cases isTree
  exact faithful_parseEither createObject rfl

/-- A wifi MAC that is paired with another ble MAC keeps the old one. -/
theorem not_forall_mapLaw :
    ¬ ∀ (print : Node → Option Text) (parse : Text → Option Node)
      (file : Option Text) (outcome : NewFile) (bleMac wifiMac : Text),
      0 ∉ bleMac → 0 ∉ wifiMac →
      (∀ tree, printed parse file bleMac wifiMac = some tree →
        Faithful print parse tree) →
      (updateSubMac print parse file outcome bleMac wifiMac).1 = 0 →
      MapLaw print parse file
        (updateSubMac print parse file outcome bleMac wifiMac).2
        bleMac wifiMac := by
  intro holds
  let old := created (ascii "A1") (ascii "C3")
  let tree := (appended (reparse old) (ascii "B2") (ascii "C3")).getD old
  let print := fun node => some (printNode 0 node)
  let parse := parseEither old tree
  let file := some (32 :: printNode 0 old)
  have isTree : printed parse file (ascii "B2") (ascii "C3") = some tree := by
    have parsed : parse (32 :: printNode 0 old) = some (reparse old) :=
      if_pos rfl
    rw [printed, parsed]
    rfl
  have returns :
      (updateSubMac print parse file .written (ascii "B2") (ascii "C3")).1 =
        0 := by
    decide +kernel
  have law := holds print parse file .written (ascii "B2") (ascii "C3")
    (by decide) (by decide)
    (by
      intro other isOther
      cases isTree.symm.trans isOther
      exact faithful_parseEither old rfl)
    returns
  have found := (yields_iff _ (by decide)).mp law.yields
  have keeps : answer parse
      (updateSubMac print parse file .written (ascii "B2") (ascii "C3")).2
      (ascii "C3") = some (ascii "A1") := by
    decide +kernel
  cases keeps.symm.trans found

end SubMac

end MbedtlsKcp
